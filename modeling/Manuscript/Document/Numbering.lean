import Manuscript.Document.Walk

/-!
# The order of a walk

A walk can be made visible by numbering its calls: each node receives the number of the
call that was made for it, and the kinds of the nodes are listed in the order of the
calls. Nodes of one kind may be replaced instead, which still counts as a call.
-/

namespace Manuscript.Document

/-- The name of the field that a node's number is put into. -/
def numberField : Text := ['n']

/-- The number of calls so far, and the kinds of the nodes they were made for, the latest
first. -/
structure Visits where
  calls : Nat
  kinds : List Json

/-- Number a node, or replace it if it is of the given kind. -/
def numberNode (replaced : Option (Json × Json)) (fields : List (Text × Json)) :
    StateM Visits Json := do
  let kind := (Json.field? kindField fields).getD .null
  let visits ← get
  set (Visits.mk (visits.calls + 1) (kind :: visits.kinds))
  match replaced with
  | some (replacedKind, replacement) =>
    if kind = replacedKind then return replacement
  | none => pure ()
  return .object (Entries.put numberField (.integer (visits.calls + 1)) fields)

/-- Number the nodes of a value in the order of a walk: the kinds in this order, and the
numbered value. -/
def numbered (replaced : Option (Json × Json)) (value : Json) : List Json × Json :=
  let (result, visits) := (walk (numberNode replaced) value).run ⟨0, []⟩
  (visits.kinds.reverse, result)

end Manuscript.Document
