import Manuscript.Console
import Manuscript.Settings.Load

/-!
# Actions in a workspace

What an operation can see and change is a workspace: the files, the environment, the settings
once they are loaded, the replies that runs of the converter will give, and what has been
called, logged and printed so far. An action runs in a workspace and ends with a value or a
failure; what it has done to the workspace before a failure stays done.
-/

namespace Manuscript

/-- What operations see and change. The working directory is kept as it is written in
messages, and the process by the name that its log file carries. -/
structure Workspace where
  store : Store
  environment : List (Text × Text)
  settings : Option Settings
  replies : List Reply
  calls : List Call
  log : List LogEntry
  console : List (List Item)
  workingDirectory : Path
  process : Text

/-- An operation in a workspace. -/
abbrev Action := ExceptT Failure (StateM Workspace)

namespace Action

/-- Stop with a failure. -/
def fail {α : Type} (failure : Failure) : Action α := throw failure

/-- Go on with what a computation outside the workspace has found, or stop with its failure. -/
def ofExcept {α ε : Type} (failure : ε → Failure) (result : Except ε α) : Action α :=
  match result with
  | .ok value => pure value
  | .error error => fail (failure error)

/-- Add an entry to the log. -/
def log (severity : Severity) (text : String) : Action Unit :=
  modify fun workspace => { workspace with log := workspace.log ++ [⟨severity, text⟩] }

/-- Print items on one line of the console. -/
def print (items : List Item) : Action Unit :=
  modify fun workspace => { workspace with console := workspace.console ++ [items] }

/-- Change the store, or stop and leave it as it is. -/
def changeStore (change : Store → Except FileError Store) : Action Unit := do
  let workspace ← get
  let store ← ofExcept Failure.file (change workspace.store)
  set { workspace with store }

/-- Make a directory and those that lead to it. The ones made before a refusal stay. -/
def makeDirectories (path : Path) : Action Unit := do
  let workspace ← get
  let (store, refusal) := workspace.store.makeDirectories path
  set { workspace with store }
  match refusal with
  | none => return ()
  | some error => fail (.file error)

/-- The settings of the workspace, loaded when they are first asked for. -/
def settings : Action Settings := do
  let workspace ← get
  match workspace.settings with
  | some settings => return settings
  | none =>
    let settings ← ofExcept id (Settings.load [] workspace.store workspace.environment)
    set { workspace with settings := some settings }
    return settings

/-- Note a call of the converter, and take the reply to it. Without a reply there is no
converter. -/
def reply (call : Call) : Action Reply := do
  let workspace ← get
  set { workspace with calls := workspace.calls ++ [call], replies := workspace.replies.drop 1 }
  return workspace.replies.headD .notFound

end Action

namespace Converter

/-- Run the converter with arguments on a text, and return what it writes. -/
def run (converter : Converter) (arguments : List Text) (input : Text) : Action Text := do
  let command := converter.executable :: arguments
  Action.log .debug ("Running " ++ String.intercalate " " (command.map String.ofList))
  match ← Action.reply ⟨command, input, converter.timeout⟩ with
  | .finished code output errors =>
    if code = 0 then return output
    else Action.fail (.converterFailed code command output errors)
  | .timedOut => Action.fail (.converterTimedOut command converter.timeout)
  | .notFound => Action.fail (.noConverter converter.executable)

end Converter

end Manuscript
