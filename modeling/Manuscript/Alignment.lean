import Manuscript.Latex
import Manuscript.Number
import Manuscript.Rule.Substitution
import Manuscript.Text.Blank

/-!
# Aligned and indented blocks

An aligned block is a layout in columns: two or more spaces separate the cells of a line,
and every cell becomes a column of an `alignat*` environment. An indented block keeps the
indentation of its lines as horizontal space in an `align*` environment. Both are set in
small type, and the rules of the macro list are applied to each cell, or to each line
behind its indentation, on its own.
-/

namespace Manuscript.Alignment

/-- End every line but the last with a double backslash. -/
def addEndings : List Text → List Text
  | [] => []
  | [last] => [last]
  | line :: next :: rest => (line ++ " \\\\".toList) :: addEndings (next :: rest)

/-- The cells behind the first one, each behind a double ampersand. -/
def joinLater : List Text → Text
  | [] => []
  | cell :: rest => " && ".toList ++ cell ++ joinLater rest

/-- Join the cells of a line: a single ampersand behind the first, a double one between
later neighbours. -/
def joinCells : List Text → Text
  | [] => []
  | [cell] => cell
  | first :: second :: rest => first ++ " & ".toList ++ second ++ joinLater rest

/-- Cut a text at every two spaces, from the left. -/
def cutAtTwoSpaces : Text → List Text
  | [] => [[]]
  | ' ' :: ' ' :: rest => [] :: cutAtTwoSpaces rest
  | c :: rest =>
    match cutAtTwoSpaces rest with
    | [] => [[c]]
    | first :: others => (c :: first) :: others

/-- The cells of a line. -/
def cells (line : Text) : List Text :=
  ((cutAtTwoSpaces (Text.trim line)).map Text.trim).filter fun cell => !cell.isEmpty

/-- The number of columns of a line, and the line as LaTeX. -/
def formatLine (rules : List Rule) (line : Text) : Nat × Text :=
  let found := cells line
  (found.length, joinCells (found.map (applyRules rules)))

/-- The number of columns of the widest line, and all lines with their endings. -/
def formatLines (rules : List Rule) (lines : List Text) : Nat × List Text :=
  let formatted := lines.map (formatLine rules)
  (formatted.foldl (fun widest line => max widest line.1) 0,
    addEndings (formatted.map Prod.snd))

/-- An aligned block as LaTeX. -/
def alignedBlock (rules : List Rule) (text : Text) : Text :=
  let (columns, lines) := formatLines rules (Text.lines text)
  let opening := Latex.command "begin".toList
    [.plain "alignat*".toList, .plain (Text.numeral columns)]
  Text.unlines
    ["\\small".toList ++ opening, Text.unlines lines, "\\end\x7balignat*\x7d\\normalsize".toList]

/-- The number of spaces that a line begins with. -/
def indentation (line : Text) : Nat := (line.takeWhile (· == ' ')).length

/-- A line of an indented block as LaTeX. -/
def indentedLine (rules : List Rule) (line : Text) : Text :=
  let width := Text.numeral (indentation line) ++ "em".toList
  '&' :: Latex.command "hspace".toList [.latex width] ++ ' ' ::
    applyRules rules (line.dropWhile (· == ' '))

/-- An indented block as LaTeX. -/
def indentedBlock (rules : List Rule) (text : Text) : Text :=
  let lines := (Text.lines text).map (indentedLine rules)
  Text.unlines
    ["\\small\\begin\x7balign*\x7d".toList, Text.unlines (addEndings lines),
      "\\end\x7balign*\x7d\\normalsize".toList]

end Manuscript.Alignment
