import Manuscript.Json.Parser

/-!
# Settings from variables

A variable with the name of a part of the settings gives the whole part as JSON. A variable
whose name continues with two underscores and the name of a field gives that field, and
further names lead deeper. Letters may be of either case. A field is given as plain text,
except the list of sources, which is JSON as well. Where a part is given both ways, its
fields update the whole.

Where text that should be JSON is none, the reading of the settings stops, and the error
names the part and where the text came from.
-/

namespace Manuscript

/-- Where the text of a setting came from. -/
inductive Origin where
  | environment
  | file
deriving DecidableEq, Repr

/-- How an origin is named in messages. -/
def Origin.name : Origin → String
  | .environment => "EnvSettingsSource"
  | .file => "DotEnvSettingsSource"

/-- The text of a field is no JSON. -/
structure SettingsError where
  field : Text
  origin : Origin
deriving DecidableEq, Repr

/-- The message of unreadable settings. -/
def SettingsError.message (error : SettingsError) : String :=
  s!"error parsing value for field \"{String.ofList error.field}\" from source \"{error.origin.name}\""

namespace SettingsEnvironment

/-- The parts of the settings with the names of their fields. -/
def parts : List (Text × List Text) :=
  [("paths".toList, ["input".toList, "output_dir".toList]),
   ("macros".toList, ["directory".toList, "sources".toList]),
   ("pandoc".toList, ["executable".toList, "reader".toList, "writer".toList, "timeout".toList]),
   ("log".toList, ["dir".toList, "level".toList])]

/-- Whether a field is given as JSON. -/
def isListField (part : Text) (names : List Text) : Bool :=
  part == "macros".toList && names == ["sources".toList]

/-- Cut a name at every two underscores, from the left. -/
def cutName : Text → List Text
  | [] => [[]]
  | '_' :: '_' :: rest => [] :: cutName rest
  | c :: rest =>
    match cutName rest with
    | [] => [[c]]
    | first :: others => (c :: first) :: others

/-- Give a value to the field that names lead to. A name on the way that has another value
than an object leads nowhere. -/
def putNested (value : Json) : List Text → List (Text × Json) → List (Text × Json)
  | [], fields => fields
  | [last], fields => Entries.put last value fields
  | name :: next :: others, fields =>
    match Json.field? name fields with
    | none => Entries.put name (.object (putNested value (next :: others) [])) fields
    | some (.object inner) =>
      Entries.put name (.object (putNested value (next :: others) inner)) fields
    | some _ => fields

/-- The value that a variable gives to a field. -/
def fieldValue (origin : Origin) (part : Text) (names : List Text) (value : Option Text) :
    Except SettingsError Json :=
  match value with
  | none => .ok .null
  | some text =>
    if isListField part names && !text.isEmpty then
      match Json.parse text with
      | .ok value => .ok value
      | .error _ => .error ⟨part, origin⟩
    else .ok (.string text)

/-- The fields of a part that variables give one by one. -/
def nestedFields (origin : Origin) (part : Text) (values : List (Text × Option Text)) :
    Except SettingsError (List (Text × Json)) :=
  let beginning := part ++ ['_', '_']
  values.foldlM
    (fun fields (name, value) => do
      if Text.startsWith beginning name then
        let names := cutName (name.drop beginning.length)
        return putNested (← fieldValue origin part names value) names fields
      else return fields)
    []

/-- The name that a part has for a field that is named in letters of either case. -/
def properName (names : List Text) (given : Text) : Text :=
  (names.find? fun name => name == Text.lowered given).getD given

/-- The fields of a part under their names. -/
def properFields (names : List Text) (fields : List (Text × Json)) : List (Text × Json) :=
  Entries.ofPairs (fields.map fun field => (properName names field.1, field.2))

/-- What variables give a part; `none` where they give nothing. -/
def partValue (origin : Origin) (values : List (Text × Option Text)) (part : Text)
    (names : List Text) : Except SettingsError (Option Json) := do
  match values.lookup part with
  | some (some text) =>
    match Json.parse text with
    | .error _ => .error ⟨part, origin⟩
    | .ok (.object fields) =>
      let nested ← nestedFields origin part values
      return some (.object (properFields names (Json.mergeFields fields nested)))
    | .ok .null => return none
    | .ok value => return some value
  | _ =>
    let nested ← nestedFields origin part values
    return if nested.isEmpty then none else some (.object (properFields names nested))

/-- Variables under their names in small letters. -/
def loweredNames (values : List (Text × Option Text)) : List (Text × Option Text) :=
  Entries.ofPairs (values.map fun (name, value) => (Text.lowered name, value))

/-- The fields that variables give the settings. -/
def settingsFields (origin : Origin) (values : List (Text × Option Text)) :
    Except SettingsError (List (Text × Json)) := do
  let lowered := loweredNames values
  let found ← parts.mapM fun (part, names) => do
    return (← partValue origin lowered part names).map fun value => (part, value)
  return found.filterMap id

end SettingsEnvironment

end Manuscript
