import Manuscript.Text.Basic

/-!
# LaTeX commands

A command is a backslash, its name and its arguments in braces. Arguments are plain text,
which is escaped one character at a time, or LaTeX, which is taken as it is.
-/

namespace Manuscript.Latex

/-- An argument of a command. -/
inductive Argument where
  | plain (text : Text)
  | latex (text : Text)
deriving DecidableEq, Repr

/-- How one character of plain text is written. -/
def escapeChar (c : Char) : Text :=
  match c with
  | '\\' => "\\textbackslash\x7b\x7d".toList
  | '~' => "\\textasciitilde\x7b\x7d".toList
  | '^' => "\\textasciicircum\x7b\x7d".toList
  | '#' | '$' | '%' | '&' | '_' | '{' | '}' => ['\\', c]
  | _ => [c]

/-- Plain text as LaTeX. -/
def escape (text : Text) : Text := text.flatMap escapeChar

/-- An argument as LaTeX. -/
def Argument.toLatex : Argument → Text
  | .plain text => escape text
  | .latex text => text

/-- A command with its arguments. -/
def command (name : Text) (arguments : List Argument) : Text :=
  '\\' :: name ++ arguments.flatMap fun argument => '{' :: argument.toLatex ++ ['}']

end Manuscript.Latex
