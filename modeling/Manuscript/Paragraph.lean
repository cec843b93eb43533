import Manuscript.Text.Blank

/-!
# Paragraph breaks

Before a document is read as markdown, two passes go over its lines. The first removes
line comments, which begin with two hyphens and white space behind any indentation, and
empties the lines that hold nothing but white space. The second writes an explicit
paragraph break for every empty line, so that no reader joins paragraphs that the author
separated. The break is fenced with empty comments that keep it a block of its own.
-/

namespace Manuscript.Paragraph

/-- A line that is a comment. -/
def isComment (line : Text) : Bool :=
  match line.dropWhile Text.isBlank with
  | '-' :: '-' :: c :: _ => Text.isBlank c
  | _ => false

/-- A line that holds nothing but white space. -/
def isBlankLine (line : Text) : Bool := line.all Text.isBlank

/-- The lines without comments, the blank ones emptied. -/
def keptLines (lines : List Text) : List Text :=
  (lines.filter fun line => !isComment line).map fun line =>
    if isBlankLine line then [] else line

/-- Remove the comments of a text and empty its blank lines. -/
def stripComments (text : Text) : Text := Text.unlines (keptLines (Text.lines text))

/-- The groups of lines between empty lines; neighbouring empty lines have an empty group
between them. -/
def groups (lines : List Text) : List (List Text) := lines.splitOnP List.isEmpty

/-- What stands for an empty line. The first and the last part hold a line feed, so the
break is five lines. -/
def breakMarker : List Text :=
  ["\n<!-- -->".toList, "\\par".toList, "<!-- -->\n".toList]

/-- Write the paragraph breaks of a text. -/
def addBreaks (text : Text) : Text :=
  Text.unlines (breakMarker.intercalate (groups (Text.lines text)))

/-- Both passes, comments first. -/
def preprocess (text : Text) : Text := addBreaks (stripComments text)

end Manuscript.Paragraph
