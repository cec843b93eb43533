import Manuscript.Document.Walk
import Manuscript.Proofs.Results
import Mathlib.Data.List.Forall2

/-!
# Trees

A JSON value is a tree whose arrays and objects hold further values. Properties of a whole
tree are proved from the values that it directly holds, and a walk whose rewrite neither
fails nor counts is a function on trees: it maps itself over the items of an array and the
fields of an object, and rewrites what is a node. A walk that may fail has succeeded in all
values inside where it succeeds, so what every rewrite gives for a node, a walk gives
throughout its result.
-/

namespace Manuscript

/-- An element of a list that is related to another one, element by element, has its partner
there. -/
theorem partner_of_mem {α β : Type} {related : α → β → Prop} {originals : List α}
    {results : List β} (each : List.Forall₂ related originals results) {result : β}
    (member : result ∈ results) : ∃ original ∈ originals, related original result := by
  induction each with
  | nil => cases member
  | cons first _ inductionHypothesis =>
    rcases List.mem_cons.mp member with rfl | later
    · exact ⟨_, List.mem_cons_self, first⟩
    · obtain ⟨original, known, holds⟩ := inductionHypothesis later
      exact ⟨original, List.mem_cons_of_mem _ known, holds⟩

end Manuscript

namespace Manuscript.Document

/-- What holds of a value whenever it holds of the values that it directly holds, and of
the values that hold none, holds of every value. -/
theorem value_induction {P : Json → Prop} (null : P .null)
    (boolean : ∀ value, P (.boolean value)) (integer : ∀ value, P (.integer value))
    (real : ∀ value, P (.real value)) (string : ∀ value, P (.string value))
    (array : ∀ items, (∀ item ∈ items, P item) → P (.array items))
    (object : ∀ fields, (∀ field ∈ fields, P field.2) → P (.object fields)) :
    ∀ value, P value
  | .null => null
  | .boolean value => boolean value
  | .integer value => integer value
  | .real value => real value
  | .string value => string value
  | .array items => array items fun item member =>
      have smaller : sizeOf item < sizeOf items := List.sizeOf_lt_of_mem member
      value_induction null boolean integer real string array object item
  | .object fields => object fields fun field member =>
      have smaller : sizeOf field.2 < sizeOf fields := by
        have held : sizeOf field < sizeOf fields := List.sizeOf_lt_of_mem member
        have part : sizeOf field.2 < sizeOf field := by
          cases field
          simp only [Prod.mk.sizeOf_spec]
          omega
        omega
      value_induction null boolean integer real string array object field.2

/-- An object with these fields is part of a value, at any depth. -/
inductive Contains : Json → List (Text × Json) → Prop where
  | here (fields : List (Text × Json)) : Contains (.object fields) fields
  | item (items : List Json) (item : Json) (inner : List (Text × Json)) (member : item ∈ items)
      (inside : Contains item inner) : Contains (.array items) inner
  | field (fields : List (Text × Json)) (field : Text × Json) (inner : List (Text × Json))
      (member : field ∈ fields) (inside : Contains field.2 inner) :
      Contains (.object fields) inner

/-- Something holds of the fields of every object in a value. -/
def Throughout (holds : List (Text × Json) → Prop) (value : Json) : Prop :=
  ∀ fields, Contains value fields → holds fields

theorem throughout_array_iff (holds : List (Text × Json) → Prop) (items : List Json) :
    Throughout holds (.array items) ↔ ∀ item ∈ items, Throughout holds item := by
  constructor
  · intro all item member inner inside
    exact all inner (.item items item inner member inside)
  · intro each inner inside
    cases inside with
    | item _ item _ member deeper => exact each item member inner deeper

theorem throughout_object_iff (holds : List (Text × Json) → Prop)
    (fields : List (Text × Json)) :
    Throughout holds (.object fields) ↔
      holds fields ∧ ∀ field ∈ fields, Throughout holds field.2 := by
  constructor
  · intro all
    refine ⟨all fields (.here fields), ?_⟩
    intro field member inner inside
    exact all inner (.field fields field inner member inside)
  · rintro ⟨here, each⟩ inner inside
    cases inside with
    | here => exact here
    | field _ field _ member deeper => exact each field member inner deeper

/-- A walk whose rewrite gives a value for every node. -/
def mapNodes (rewrite : List (Text × Json) → Json) (value : Json) : Json :=
  Id.run (walk (fun fields => pure (rewrite fields)) value)

/-- The fields of an object with their values walked. -/
def mapFields (rewrite : List (Text × Json) → Json) (fields : List (Text × Json)) :
    List (Text × Json) :=
  fields.map fun field => (field.1, mapNodes rewrite field.2)

/-- A walk of items that all succeed gives all their values. -/
theorem walkItems_pure {m : Type → Type} [Monad m] [LawfulMonad m]
    (rewrite : List (Text × Json) → m Json) (result : Json → Json) (items : List Json)
    (each : ∀ item ∈ items, walk rewrite item = pure (result item)) :
    walkItems rewrite items = pure (items.map result) := by
  induction items with
  | nil => rfl
  | cons item rest inductionHypothesis =>
    have first : walk rewrite item = pure (result item) := each item List.mem_cons_self
    have others := inductionHypothesis fun other member =>
      each other (List.mem_cons_of_mem item member)
    simp [walkItems, first, others]

/-- A walk of fields whose values all succeed gives all fields with their values. -/
theorem walkFields_pure {m : Type → Type} [Monad m] [LawfulMonad m]
    (rewrite : List (Text × Json) → m Json) (result : Json → Json)
    (fields : List (Text × Json))
    (each : ∀ field ∈ fields, walk rewrite field.2 = pure (result field.2)) :
    walkFields rewrite fields = pure (fields.map fun field => (field.1, result field.2)) := by
  induction fields with
  | nil => rfl
  | cons field rest inductionHypothesis =>
    have first : walk rewrite field.2 = pure (result field.2) := each field List.mem_cons_self
    have others := inductionHypothesis fun other member =>
      each other (List.mem_cons_of_mem field member)
    simp [walkFields, first, others]

/-- The items of an array are walked each on its own. -/
theorem mapNodes_array (rewrite : List (Text × Json) → Json) (items : List Json) :
    mapNodes rewrite (.array items) = .array (items.map (mapNodes rewrite)) := by
  have walked := walkItems_pure (m := Id) (fun fields => pure (rewrite fields))
    (mapNodes rewrite) items fun _ _ => rfl
  simp [mapNodes, walk, walked]

/-- An object is rewritten behind its fields if it is a node, and kept with them if not. -/
theorem mapNodes_object (rewrite : List (Text × Json) → Json) (fields : List (Text × Json)) :
    mapNodes rewrite (.object fields) =
      if isNode (mapFields rewrite fields) then rewrite (mapFields rewrite fields)
      else .object (mapFields rewrite fields) := by
  have walked := walkFields_pure (m := Id) (fun fields => pure (rewrite fields))
    (mapNodes rewrite) fields fun _ _ => rfl
  rw [mapNodes, walk, walked, pure_bind]
  change Id.run (if isNode (mapFields rewrite fields) then _ else _) = _
  split <;> rfl

@[simp]
theorem mapNodes_string (rewrite : List (Text × Json) → Json) (text : Text) :
    mapNodes rewrite (.string text) = .string text := rfl

/-- The field of a name keeps its name when the fields are walked. -/
theorem field_mapFields (rewrite : List (Text × Json) → Json) (name : Text)
    (fields : List (Text × Json)) :
    Json.field? name (mapFields rewrite fields) =
      (Json.field? name fields).map (mapNodes rewrite) := by
  induction fields with
  | nil => rfl
  | cons field rest inductionHypothesis =>
    obtain ⟨other, value⟩ := field
    unfold Json.field? mapFields at *
    by_cases same : name = other
    · simp [same]
    · have differs : (name == other) = false := by simpa using same
      simp only [List.map_cons, List.lookup_cons, differs, inductionHypothesis]

/-- Walking fields makes a node of no object that was none, and leaves every node one. -/
theorem isNode_mapFields (rewrite : List (Text × Json) → Json) (fields : List (Text × Json)) :
    isNode (mapFields rewrite fields) = isNode fields := by
  simp [isNode, field_mapFields]

section Failing

variable {ε : Type} {rewrite : List (Text × Json) → Except ε Json}

/-- A walk that went through items has succeeded in each. -/
theorem walkItems_ok {items walked : List Json}
    (succeeded : walkItems rewrite items = .ok walked) :
    List.Forall₂ (fun item result => walk rewrite item = .ok result) items walked := by
  induction items generalizing walked with
  | nil =>
    cases succeeded
    exact .nil
  | cons item rest inductionHypothesis =>
    obtain ⟨first, done, further⟩ := bind_ok succeeded
    obtain ⟨others, restDone, same⟩ := bind_ok further
    cases same
    exact .cons done (inductionHypothesis restDone)

/-- A walk that went through fields has succeeded in the value of each, and kept the names. -/
theorem walkFields_ok {fields walked : List (Text × Json)}
    (succeeded : walkFields rewrite fields = .ok walked) :
    List.Forall₂ (fun field result => result.1 = field.1 ∧ walk rewrite field.2 = .ok result.2)
      fields walked := by
  induction fields generalizing walked with
  | nil =>
    cases succeeded
    exact .nil
  | cons field rest inductionHypothesis =>
    obtain ⟨first, done, further⟩ := bind_ok succeeded
    obtain ⟨others, restDone, same⟩ := bind_ok further
    cases same
    exact .cons ⟨rfl, done⟩ (inductionHypothesis restDone)

/-- A walk of an array that succeeded has walked its items. -/
theorem walk_array_ok {items : List Json} {result : Json}
    (succeeded : walk rewrite (.array items) = .ok result) :
    ∃ walked, List.Forall₂ (fun item result => walk rewrite item = .ok result) items walked ∧
      result = .array walked := by
  obtain ⟨walked, done, same⟩ := bind_ok succeeded
  cases same
  exact ⟨walked, walkItems_ok done, rfl⟩

/-- A walk of an object that succeeded has walked the values of its fields, and rewritten a
node behind them. -/
theorem walk_object_ok {fields : List (Text × Json)} {result : Json}
    (succeeded : walk rewrite (.object fields) = .ok result) :
    ∃ walked, List.Forall₂
        (fun field result => result.1 = field.1 ∧ walk rewrite field.2 = .ok result.2)
        fields walked ∧
      (isNode walked = true ∧ rewrite walked = .ok result ∨
        isNode walked = false ∧ result = .object walked) := by
  obtain ⟨walked, done, further⟩ := bind_ok succeeded
  refine ⟨walked, walkFields_ok done, ?_⟩
  cases node : isNode walked with
  | true =>
    rw [node] at further
    exact .inl ⟨rfl, further⟩
  | false =>
    rw [node] at further
    cases further
    exact .inr ⟨rfl, rfl⟩

/-- Where a rewrite keeps something throughout what it gives for a node, and it holds of all
objects that are no nodes, it holds throughout the result of a walk. -/
theorem walk_throughout {holds : List (Text × Json) → Prop}
    (plain : ∀ fields, isNode fields = false → holds fields)
    (step : ∀ fields result, (∀ field ∈ fields, Throughout holds field.2) →
      rewrite fields = .ok result → Throughout holds result)
    (value result : Json) (succeeded : walk rewrite value = .ok result) :
    Throughout holds result := by
  induction value using value_induction generalizing result with
  | array items inductionHypothesis =>
    obtain ⟨walked, each, rfl⟩ := walk_array_ok succeeded
    rw [throughout_array_iff]
    intro item member
    obtain ⟨original, known, done⟩ := partner_of_mem each member
    exact inductionHypothesis original known item done
  | object fields inductionHypothesis =>
    obtain ⟨walked, each, ended⟩ := walk_object_ok succeeded
    have inside : ∀ field ∈ walked, Throughout holds field.2 := by
      intro field member
      obtain ⟨original, known, -, done⟩ := partner_of_mem each member
      exact inductionHypothesis original known field.2 done
    rcases ended with ⟨-, rewritten⟩ | ⟨noNode, rfl⟩
    · exact step walked result inside rewritten
    · exact (throughout_object_iff holds walked).mpr ⟨plain walked noNode, inside⟩
  | _ =>
    cases succeeded
    intro inner inside
    cases inside

end Failing

end Manuscript.Document
