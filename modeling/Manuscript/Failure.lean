import Manuscript.Converter
import Manuscript.Document.Code
import Manuscript.Files.Store
import Manuscript.Settings.Environment
import Manuscript.Table.Row

/-!
# Failures

Everything that can stop an operation, each with what it is about. A failure is a value;
its message is made where it is shown.
-/

namespace Manuscript

/-- Why a table is no macro table. -/
inductive TableFault where
  | missingColumns (names : List Text)
  | invalidRow (issues : List Issue) (line : Nat)
deriving DecidableEq, Repr

namespace TableFault

/-- The line of the table that is at fault, if it is one. -/
def line? : TableFault → Option Nat
  | .missingColumns _ => none
  | .invalidRow _ line => some line

/-- What is wrong. -/
def text : TableFault → String
  | .missingColumns names =>
    "Missing required column(s): " ++ String.intercalate ", " (names.map String.ofList)
  | .invalidRow issues _ => s!"Invalid macro row ({Issue.describeAll issues})"

end TableFault

/-- Why an operation stopped. -/
inductive Failure where
  | table (path : Path) (fault : TableFault)
  | noTable (path : Path)
  | noDocument (path : Path)
  | noConverter (executable : Text)
  | converterFailed (code : Int) (command : List Text) (output : Text) (errors : Option Text)
  | converterTimedOut (command : List Text) (timeout : Int)
  | file (error : FileError)
  | notUtf8 (fault : Utf8.Fault)
  | oversizeCell
  | json (refusal : Json.Refusal)
  | node (error : Document.NodeError)
  | rule (error : RuleError)
  | invalid (issues : List Issue)
  | settings (error : SettingsError)
deriving DecidableEq

/-- The message of a node that could not be read. -/
def Document.NodeError.message : Document.NodeError → String
  | .missingField => "a field is missing"
  | .wrongKind => "a value has the wrong kind"
  | .wrongCount => "a value has the wrong number of parts"
  | .outOfRange => "a value has too few parts"
  | .notText => "a value is no text"

/-- The command of a call, as messages show it. -/
def shownCommand (command : List Text) : String :=
  "[" ++ String.intercalate ", " (command.map fun part => String.ofList (Text.quoted part)) ++ "]"

/-- The message of a failure. -/
def Failure.message : Failure → String
  | .table path fault =>
    let row := match fault.line? with
      | some line => s!":{line}"
      | none => ""
    s!"{fault.text}\n  Table: {path}{row}"
  | .noTable path => s!"Macro table not found: {path}"
  | .noDocument path => s!"Input document not found: {path}"
  | .noConverter executable =>
    s!"[Errno 2] No such file or directory: {String.ofList (Text.quoted executable)}"
  | .converterFailed code command _ _ =>
    s!"Command '{shownCommand command}' returned non-zero exit status {code}."
  | .converterTimedOut command timeout =>
    s!"Command '{shownCommand command}' timed out after {timeout} seconds"
  | .file error => error.message
  | .notUtf8 fault => fault.message
  | .oversizeCell => s!"field larger than field limit ({Table.cellLimit})"
  | .json refusal => refusal.message
  | .node error => error.message
  | .rule error => error.message
  | .invalid issues => Issue.describeAll issues
  | .settings error => error.message

/-- Whether a failure is that something to be opened or run is not there. -/
def Failure.isMissing : Failure → Bool
  | .noTable _ | .noDocument _ | .noConverter _ | .file (.missing _) => true
  | _ => false

end Manuscript
