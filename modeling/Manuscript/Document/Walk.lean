import Manuscript.Json.Basic

/-!
# Walking a document tree

A node is an object with a field `t`. A walk rebuilds a value from its leaves and hands
every node to a rewrite after all values inside the node have been walked: items in their
order, fields in theirs. What is no node is kept, with its parts walked. A walk runs in
any monad, so a rewrite may fail or count.
-/

namespace Manuscript.Document

/-- The name of the field that makes an object a node. -/
def kindField : Text := ['t']

/-- The name of the field that holds what a node consists of. -/
def contentField : Text := ['c']

/-- Whether an object with these fields is a node. -/
def isNode (fields : List (Text × Json)) : Bool := (Json.field? kindField fields).isSome

mutual

/-- Rebuild a value, rewriting every node behind the values inside it. -/
def walk {m : Type → Type} [Monad m] (rewrite : List (Text × Json) → m Json) : Json → m Json
  | .array items => do
    let walked ← walkItems rewrite items
    return .array walked
  | .object fields => do
    let walked ← walkFields rewrite fields
    if isNode walked then rewrite walked else return .object walked
  | .null => return .null
  | .boolean value => return .boolean value
  | .integer value => return .integer value
  | .real value => return .real value
  | .string value => return .string value

/-- Walk the items of an array from the first to the last. -/
def walkItems {m : Type → Type} [Monad m] (rewrite : List (Text × Json) → m Json) :
    List Json → m (List Json)
  | [] => return []
  | item :: rest => do
    let first ← walk rewrite item
    let others ← walkItems rewrite rest
    return first :: others

/-- Walk the values of an object from the first to the last. -/
def walkFields {m : Type → Type} [Monad m] (rewrite : List (Text × Json) → m Json) :
    List (Text × Json) → m (List (Text × Json))
  | [] => return []
  | (name, value) :: rest => do
    let first ← walk rewrite value
    let others ← walkFields rewrite rest
    return (name, first) :: others

end

end Manuscript.Document
