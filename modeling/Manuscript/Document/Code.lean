import Manuscript.Document.Walk

/-!
# Code in a document

A node of code, in a block or within a line, has as its content a pair of an attribute
triple and a text. The attributes are an identifier, a list of classes and further pairs.
Code with exactly one class is tagged with it.

A tree may hold code whose content has another form. Content is read as what it consists
of: an array of its items, a string of its characters, an object of its names. Where even
that does not give the parts that are asked for, the reading fails with the cause.
-/

namespace Manuscript.Document

/-- Why code could not be read or rewritten. -/
inductive NodeError where
  /-- An object does not have the field, or the number is no name of one. -/
  | missingField
  /-- The value does not consist of parts, or is no text where text goes in between. -/
  | wrongKind
  /-- The value consists of more or fewer parts than asked for. -/
  | wrongCount
  /-- The value has too few parts for the number. -/
  | outOfRange
  /-- The value is no text where one is cut or compared. -/
  | notText
deriving DecidableEq, Repr

/-- The parts of a value. -/
def parts : Json → Except NodeError (List Json)
  | .array items => .ok items
  | .string text => .ok (text.map fun c => .string [c])
  | .object fields => .ok (fields.map fun field => .string field.1)
  | _ => .error .wrongKind

/-- The part of a value with a number, counted from zero. Objects have names and no
numbers. -/
def part (number : Nat) : Json → Except NodeError Json
  | .array items =>
    match items[number]? with
    | some item => .ok item
    | none => .error .outOfRange
  | .string text =>
    match text[number]? with
    | some c => .ok (.string [c])
    | none => .error .outOfRange
  | .object _ => .error .missingField
  | _ => .error .wrongKind

/-- The content of a node. -/
def content : Json → Except NodeError Json
  | .object fields =>
    match Json.field? contentField fields with
    | some value => .ok value
    | none => .error .missingField
  | _ => .error .wrongKind

/-- The tag of a node of code: its only class, and null where it has none or several. -/
def codeTag (node : Json) : Except NodeError Json := do
  match ← parts (← content node) with
  | [attributes, _] =>
    match ← parts attributes with
    | [_, classes, _] =>
      if (← parts classes).length = 1 then part 0 classes else return .null
    | _ => .error .wrongCount
  | _ => .error .wrongCount

/-- The text of a node of code, which may be any value. -/
def codeText (node : Json) : Except NodeError Json := do
  part 1 (← content node)

/-- The format that raw nodes are written for. -/
def rawFormat : Json := .string "latex".toList

/-- A raw node of a kind. -/
def rawNode (kind : String) (text : Json) : Json :=
  .object [(kindField, .string kind.toList), (contentField, .array [rawFormat, text])]

/-- A block that is passed to LaTeX as it is. -/
def rawBlock (text : Json) : Json := rawNode "RawBlock" text

/-- LaTeX within a line. -/
def rawInline (text : Json) : Json := rawNode "RawInline" text

end Manuscript.Document
