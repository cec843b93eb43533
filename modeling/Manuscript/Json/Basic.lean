import Manuscript.Entries
import Manuscript.Number

/-!
# JSON values

A document tree arrives and leaves as a JSON value, and settings are given as JSON
values too. The fields of an object keep their order, because the order is visible
in the text that is written. Whole numbers are unbounded; numbers with a fraction or
an exponent are doubles.

One object can update another. A field that both have as an object is merged in the same
way; any other field of the updating object replaces the one that is there.
-/

namespace Manuscript

/-- A JSON value. -/
inductive Json where
  | null
  | boolean (value : Bool)
  | integer (value : Int)
  | real (value : Double)
  | string (value : Text)
  | array (items : List Json)
  | object (fields : List (Text × Json))
deriving Inhabited, Repr

namespace Json

mutual

/-- Equality of values can be decided: objects are equal when they have equal fields in
the same order. -/
def decideEq : (left right : Json) → Decidable (left = right)
  | .null, .null => isTrue rfl
  | .boolean a, .boolean b => decidable_of_iff (a = b) (by simp)
  | .integer a, .integer b => decidable_of_iff (a = b) (by simp)
  | .real a, .real b => decidable_of_iff (a = b) (by simp)
  | .string a, .string b => decidable_of_iff (a = b) (by simp)
  | .array a, .array b =>
    have := decideEqItems a b
    decidable_of_iff (a = b) (by simp)
  | .object a, .object b =>
    have := decideEqFields a b
    decidable_of_iff (a = b) (by simp)
  | .null, .boolean _ | .null, .integer _ | .null, .real _ | .null, .string _
  | .null, .array _ | .null, .object _
  | .boolean _, .null | .boolean _, .integer _ | .boolean _, .real _ | .boolean _, .string _
  | .boolean _, .array _ | .boolean _, .object _
  | .integer _, .null | .integer _, .boolean _ | .integer _, .real _ | .integer _, .string _
  | .integer _, .array _ | .integer _, .object _
  | .real _, .null | .real _, .boolean _ | .real _, .integer _ | .real _, .string _
  | .real _, .array _ | .real _, .object _
  | .string _, .null | .string _, .boolean _ | .string _, .integer _ | .string _, .real _
  | .string _, .array _ | .string _, .object _
  | .array _, .null | .array _, .boolean _ | .array _, .integer _ | .array _, .real _
  | .array _, .string _ | .array _, .object _
  | .object _, .null | .object _, .boolean _ | .object _, .integer _ | .object _, .real _
  | .object _, .string _ | .object _, .array _ => isFalse (by simp)

/-- Equality of lists of values can be decided. -/
def decideEqItems : (left right : List Json) → Decidable (left = right)
  | [], [] => isTrue rfl
  | [], _ :: _ => isFalse (by simp)
  | _ :: _, [] => isFalse (by simp)
  | a :: as, b :: bs =>
    have := decideEq a b
    have := decideEqItems as bs
    decidable_of_iff (a = b ∧ as = bs) (by simp)

/-- Equality of lists of fields can be decided. -/
def decideEqFields : (left right : List (Text × Json)) → Decidable (left = right)
  | [], [] => isTrue rfl
  | [], _ :: _ => isFalse (by simp)
  | _ :: _, [] => isFalse (by simp)
  | (a, v) :: as, (b, w) :: bs =>
    have := decideEq v w
    have := decideEqFields as bs
    decidable_of_iff ((a = b ∧ v = w) ∧ as = bs) (by simp)

end

instance : DecidableEq Json := decideEq

/-- The value of a field of an object. -/
def field? (name : Text) (fields : List (Text × Json)) : Option Json := fields.lookup name

mutual

/-- A value with an update. -/
def merge (old : Option Json) : Json → Json
  | .object update =>
    match old with
    | some (.object fields) => .object (mergeFields fields update)
    | _ => .object update
  | .null => .null
  | .boolean value => .boolean value
  | .integer value => .integer value
  | .real value => .real value
  | .string value => .string value
  | .array items => .array items

/-- The fields of an object with the fields of an update. -/
def mergeFields (fields : List (Text × Json)) : List (Text × Json) → List (Text × Json)
  | [] => fields
  | (name, value) :: rest =>
    mergeFields (Entries.put name (merge (field? name fields) value) fields) rest

end

end Json

end Manuscript
