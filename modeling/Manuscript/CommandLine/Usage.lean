import Manuscript.Text.Basic

/-!
# Usage and help

The texts that tell how the program and its commands are used, for a terminal of 80 columns.
-/

namespace Manuscript.CommandLine

/-- The program and its commands each read their own arguments. -/
inductive Parser where
  | program
  | build
  | listRules
deriving DecidableEq, Repr

/-- The name and version of the program. -/
def versionText : String := "texmacro 0.1.0"

namespace Parser

/-- The name that usage and errors begin with. -/
def name : Parser → String
  | .program => "texmacro"
  | .build => "texmacro build"
  | .listRules => "texmacro macros"

/-- The line that tells which arguments there are. -/
def usage : Parser → String
  | .program => "usage: texmacro [-h] [--version] \x7bbuild,macros\x7d ...\n"
  | .build => "usage: texmacro build [-h] [--input INPUT] [--output-dir OUTPUT_DIR]\n"
  | .listRules => "usage: texmacro macros [-h]\n"

/-- What the arguments are for. -/
def details : Parser → List String
  | .program =>
    ["Convert annotated markdown to LaTeX with macro tables.",
     "",
     "positional arguments:",
     "  \x7bbuild,macros\x7d",
     "    build         Convert the input document to LaTeX",
     "    macros        List the effective macro list",
     "",
     "options:",
     "  -h, --help      show this help message and exit",
     "  --version       show program's version number and exit"]
  | .build =>
    ["options:",
     "  -h, --help            show this help message and exit",
     "  --input INPUT         Markdown document to convert",
     "  --output-dir OUTPUT_DIR",
     "                        Directory for the .pre and .tex outputs"]
  | .listRules =>
    ["options:",
     "  -h, --help  show this help message and exit"]

/-- The help of a parser. -/
def help (parser : Parser) : String :=
  parser.usage ++ "\n" ++ String.join (parser.details.map (· ++ "\n"))

/-- The text that reports refused arguments. -/
def errorText (parser : Parser) (message : String) : String :=
  parser.usage ++ s!"{parser.name}: error: {message}\n"

end Parser

end Manuscript.CommandLine
