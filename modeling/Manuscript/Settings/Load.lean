import Manuscript.Failure
import Manuscript.Settings.Basic
import Manuscript.Settings.Environment
import Manuscript.Settings.EnvironmentFile

/-!
# Loading the settings

Settings come from what a caller gives, from the environment and from a file of variables
in the working directory, which may begin with a byte order mark. Where more than one gives
a field, the first of them in this order counts.
-/

namespace Manuscript.Settings

/-- The file of variables. -/
def variablesFile : Path := Path.ofText ".env".toList

/-- The variables of the file, if it is there. -/
def fileVariables (store : Store) (environment : List (Text × Text)) :
    Except Failure (List (Text × Option Text)) :=
  match store.read variablesFile with
  | .ok bytes =>
    match Utf8.decode bytes with
    | .ok text =>
      .ok (EnvironmentFile.assignments environment (Text.unifyLineEnds (Text.dropMark text)))
    | .error fault => .error (.notUtf8 fault)
  | .error _ => .ok []

/-- Settings from given fields, the environment and the variables of a file. -/
def assemble (given : List (Text × Json)) (environment : List (Text × Text))
    (file : List (Text × Option Text)) : Except Failure Settings := do
  let fromEnvironment ← (SettingsEnvironment.settingsFields .environment
    (environment.map fun (name, value) => (name, some value))).mapError Failure.settings
  let fromFile ← (SettingsEnvironment.settingsFields .file file).mapError Failure.settings
  (ofFields (Json.mergeFields fromFile (Json.mergeFields fromEnvironment given))).mapError
    Failure.invalid

/-- Load the settings from all places. -/
def load (given : List (Text × Json)) (store : Store) (environment : List (Text × Text)) :
    Except Failure Settings := do
  assemble given environment (← fileVariables store environment)

end Manuscript.Settings
