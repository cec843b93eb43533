import Manuscript.Json.Parser
import Manuscript.Proofs.SinglePass

/-!
# The parts of a tree

A value is a part of itself, and so are the parts of what it holds. Some properties of parts
look at no text: all strings and arrays have them, and whether an object has them is a matter
of its names. The passes over a document keep such properties everywhere, since they only
replace nodes by raw ones, and take what they place there out of the document or make a string
of it. This needs no well-formed document, only passes that succeed.
-/

namespace Manuscript

namespace Json

/-- A value is part of another one, at any depth. -/
inductive HasPart : Json → Json → Prop where
  | whole (value : Json) : HasPart value value
  | item (items : List Json) (item part : Json) (member : item ∈ items)
      (inside : HasPart item part) : HasPart (.array items) part
  | field (fields : List (Text × Json)) (field : Text × Json) (part : Json)
      (member : field ∈ fields) (inside : HasPart field.2 part) : HasPart (.object fields) part

/-- Something holds of every part of a value. -/
def Everywhere (holds : Json → Prop) (value : Json) : Prop :=
  ∀ part, HasPart value part → holds part

variable {holds : Json → Prop}

theorem Everywhere.here {value : Json} (everywhere : Everywhere holds value) : holds value :=
  everywhere value (.whole value)

/-- A value that holds no others is its only part. -/
@[simp]
theorem everywhere_leaf_iff (value : Json) (noArray : ∀ items, value ≠ .array items)
    (noObject : ∀ fields, value ≠ .object fields) : Everywhere holds value ↔ holds value := by
  constructor
  · exact Everywhere.here
  · intro here part inside
    cases inside with
    | whole => exact here
    | item items => exact absurd rfl (noArray items)
    | field fields => exact absurd rfl (noObject fields)

@[simp]
theorem everywhere_array_iff (items : List Json) :
    Everywhere holds (.array items) ↔
      holds (.array items) ∧ ∀ item ∈ items, Everywhere holds item := by
  constructor
  · intro all
    refine ⟨all.here, ?_⟩
    intro item member part inside
    exact all part (.item items item part member inside)
  · rintro ⟨here, each⟩ part inside
    cases inside with
    | whole => exact here
    | item _ item _ member deeper => exact each item member part deeper

@[simp]
theorem everywhere_object_iff (fields : List (Text × Json)) :
    Everywhere holds (.object fields) ↔
      holds (.object fields) ∧ ∀ field ∈ fields, Everywhere holds field.2 := by
  constructor
  · intro all
    refine ⟨all.here, ?_⟩
    intro field member part inside
    exact all part (.field fields field part member inside)
  · rintro ⟨here, each⟩ part inside
    cases inside with
    | whole => exact here
    | field _ field _ member deeper => exact each field member part deeper

end Json

namespace Document

/-- A property that all strings and arrays have, and an object by its names. -/
structure OfNames (holds : Json → Prop) : Prop where
  string (text : Text) : holds (.string text)
  array (items : List Json) : holds (.array items)
  object (fields others : List (Text × Json)) (names : fields.map Prod.fst = others.map Prod.fst)
    (known : holds (.object fields)) : holds (.object others)
  raw (kind : String) (text : Json) : holds (rawNode kind text)

/-- Something holds of every part of what a rewrite gives, if it gives anything. -/
def Gives (holds : Json → Prop) (rewritten : Except NodeError Json) : Prop :=
  ∀ result, rewritten = .ok result → Json.Everywhere holds result

section Passes

variable {holds : Json → Prop}

theorem gives_ok {value : Json} (everywhere : Json.Everywhere holds value) :
    Gives holds (.ok value) := by
  intro result same
  cases same
  exact everywhere

theorem gives_bind {α : Type} {first : Except NodeError α} {next : α → Except NodeError Json}
    (each : ∀ value, first = .ok value → Gives holds (next value)) :
    Gives holds (first >>= next) := by
  intro result succeeded
  obtain ⟨value, done, further⟩ := bind_ok succeeded
  exact each value done result further

theorem gives_ite {condition : Prop} [Decidable condition] {met unmet : Except NodeError Json}
    (first : Gives holds met) (second : Gives holds unmet) :
    Gives holds (if condition then met else unmet) := by
  split
  · exact first
  · exact second

variable (ofNames : OfNames holds)

include ofNames

/-- A string has it everywhere, since it holds no other values. -/
theorem string_everywhere (text : Text) : Json.Everywhere holds (.string text) :=
  (Json.everywhere_leaf_iff _ (by simp) (by simp)).mpr (ofNames.string text)

/-- Where a rewrite keeps a property everywhere in a node, a walk keeps it everywhere in a
value. -/
theorem walk_everywhere {ε : Type} {rewrite : List (Text × Json) → Except ε Json}
    (step : ∀ fields result, Json.Everywhere holds (.object fields) →
      rewrite fields = .ok result → Json.Everywhere holds result)
    (value result : Json) (everywhere : Json.Everywhere holds value)
    (succeeded : walk rewrite value = .ok result) : Json.Everywhere holds result := by
  induction value using value_induction generalizing result with
  | array items inductionHypothesis =>
    obtain ⟨walked, each, rfl⟩ := walk_array_ok succeeded
    rw [Json.everywhere_array_iff] at everywhere ⊢
    refine ⟨ofNames.array walked, ?_⟩
    intro item member
    obtain ⟨original, known, done⟩ := partner_of_mem each member
    exact inductionHypothesis original known item (everywhere.2 original known) done
  | object fields inductionHypothesis =>
    obtain ⟨walked, each, ended⟩ := walk_object_ok succeeded
    rw [Json.everywhere_object_iff] at everywhere
    have names : fields.map Prod.fst = walked.map Prod.fst := by
      rw [← List.forall₂_eq_eq_eq, List.forall₂_map_left_iff, List.forall₂_map_right_iff]
      exact each.imp fun _ _ kept => kept.1.symm
    have kept : Json.Everywhere holds (.object walked) := by
      rw [Json.everywhere_object_iff]
      refine ⟨ofNames.object fields walked names everywhere.1, ?_⟩
      intro field member
      obtain ⟨original, known, -, done⟩ := partner_of_mem each member
      exact inductionHypothesis original known field.2 (everywhere.2 original known) done
    rcases ended with ⟨-, rewritten⟩ | ⟨-, rfl⟩
    · exact step walked result kept rewritten
    · exact kept
  | _ =>
    cases succeeded
    exact everywhere

/-- A raw node with a text that has a property everywhere has it everywhere. -/
theorem rawNode_everywhere (kind : String) {text : Json}
    (everywhere : Json.Everywhere holds text) :
    Json.Everywhere holds (rawNode kind text) := by
  refine (Json.everywhere_object_iff _).mpr ⟨ofNames.raw kind text, ?_⟩
  simp only [List.forall_mem_cons, List.not_mem_nil, false_implies, implies_true, and_true,
    Json.everywhere_array_iff]
  exact ⟨string_everywhere ofNames _, ofNames.array _, string_everywhere ofNames _, everywhere⟩

/-- The parts of a value that stand for its content have what the value has everywhere. -/
theorem part_everywhere (number : Nat) {value part : Json}
    (everywhere : Json.Everywhere holds value)
    (found : Document.part number value = .ok part) : Json.Everywhere holds part := by
  unfold Document.part at found
  split at found
  · next items =>
    split at found
    · next item member =>
      cases found
      exact ((Json.everywhere_array_iff items).mp everywhere).2 _ (List.mem_of_getElem? member)
    · cases found
  · split at found
    · cases found
      exact string_everywhere ofNames _
    · cases found
  · cases found
  · cases found

/-- The text of code is taken out of the node. -/
theorem codeText_everywhere {fields : List (Text × Json)} {text : Json}
    (everywhere : Json.Everywhere holds (.object fields))
    (found : codeText (.object fields) = .ok text) : Json.Everywhere holds text := by
  obtain ⟨value, held, taken⟩ := bind_ok found
  have inside : Json.Everywhere holds value := by
    cases named : Json.field? contentField fields with
    | none =>
      simp only [content, named] at held
      cases held
    | some value =>
      simp only [content, named] at held
      cases held
      obtain ⟨before, after, rfl, -⟩ := List.lookup_eq_some_iff.mp named
      exact ((Json.everywhere_object_iff _).mp everywhere).2 (contentField, value) (by simp)
  exact part_everywhere ofNames 1 inside taken

/-- A macro list makes strings of strings and leaves other values as they are. -/
theorem applyToValue_everywhere {rules : List Rule} {value applied : Json}
    (everywhere : Json.Everywhere holds value)
    (done : applyToValue rules value = .ok applied) : Json.Everywhere holds applied := by
  unfold applyToValue at done
  split at done
  · cases done
    exact everywhere
  · cases done
    exact string_everywhere ofNames _
  · cases done

/-- What is set from a text becomes a raw block around a string. -/
theorem blockOfLines_gives (set : Text → Text) (text : Json) :
    Gives holds (blockOfLines set text) := by
  intro block done
  unfold blockOfLines at done
  split at done
  · cases done
    exact rawNode_everywhere ofNames _ (string_everywhere ofNames _)
  · cases done

theorem verbatimBlock_gives (text : Json) : Gives holds (verbatimBlock text) := by
  intro block done
  unfold verbatimBlock at done
  split at done
  · cases done
    exact rawNode_everywhere ofNames _ (string_everywhere ofNames _)
  · cases done

variable {rules : List Rule} {fields : List (Text × Json)}
  (everywhere : Json.Everywhere holds (.object fields))

include everywhere

theorem rewriteRawBlock_gives : Gives holds (rewriteRawBlock rules fields) := by
  unfold rewriteRawBlock
  apply gives_ite (gives_ok everywhere)
  apply gives_bind
  intro tag _
  apply gives_ite (gives_ok everywhere)
  apply gives_bind
  intro text found
  have taken := codeText_everywhere ofNames everywhere found
  apply gives_bind
  intro verbatim _
  apply gives_ite
  · apply gives_bind
    intro applied _
    exact verbatimBlock_gives ofNames applied
  apply gives_bind
  intro macros _
  apply gives_ite
  · apply gives_bind
    intro applied done
    exact gives_ok (rawNode_everywhere ofNames _ (applyToValue_everywhere ofNames taken done))
  apply gives_bind
  intro raw _
  exact gives_ite (gives_ok (rawNode_everywhere ofNames _ taken)) (gives_ok everywhere)

theorem rewriteRawInline_gives : Gives holds (rewriteRawInline fields) := by
  unfold rewriteRawInline
  apply gives_ite (gives_ok everywhere)
  apply gives_bind
  intro tag _
  apply gives_ite (gives_ok everywhere)
  apply gives_bind
  intro raw _
  apply gives_ite
  · apply gives_bind
    intro text found
    exact gives_ok (rawNode_everywhere ofNames _ (codeText_everywhere ofNames everywhere found))
  · exact gives_ok everywhere

theorem rewriteLayout_gives : Gives holds (rewriteLayout rules fields) := by
  unfold rewriteLayout
  apply gives_ite (gives_ok everywhere)
  apply gives_bind
  intro tag _
  apply gives_ite (gives_ok everywhere)
  apply gives_bind
  intro align _
  apply gives_ite
  · apply gives_bind
    intro text _
    exact blockOfLines_gives ofNames _ text
  apply gives_bind
  intro indent _
  apply gives_ite
  · apply gives_bind
    intro text _
    exact blockOfLines_gives ofNames _ text
  · exact gives_ok everywhere

theorem rewriteFormula_gives : Gives holds (rewriteFormula rules fields) := by
  unfold rewriteFormula
  apply gives_ite (gives_ok everywhere)
  apply gives_bind
  intro text _
  apply gives_bind
  intro applied _
  exact gives_ok (rawNode_everywhere ofNames _ (string_everywhere ofNames _))

omit everywhere

/-- What the parts of a document have by their kinds and names, the parts of the set document
have as well. -/
theorem postprocess_everywhere (rules : List Rule) (document result : Json)
    (everywhere : Json.Everywhere holds document)
    (succeeded : postprocess rules document = .ok result) : Json.Everywhere holds result := by
  obtain ⟨blocks, first, rest⟩ := bind_ok succeeded
  obtain ⟨inlines, second, rest⟩ := bind_ok rest
  obtain ⟨layouts, third, rest⟩ := bind_ok rest
  obtain ⟨formulas, fourth, same⟩ := bind_ok rest
  cases same
  have inBlocks : Json.Everywhere holds blocks := walk_everywhere ofNames
    (fun _ result node => rewriteRawBlock_gives ofNames node result) document blocks everywhere
    first
  have inInlines : Json.Everywhere holds inlines := walk_everywhere ofNames
    (fun _ result node => rewriteRawInline_gives ofNames node result) blocks inlines inBlocks
    second
  have inLayouts : Json.Everywhere holds layouts := walk_everywhere ofNames
    (fun _ result node => rewriteLayout_gives ofNames node result) inlines layouts inInlines
    third
  exact walk_everywhere ofNames
    (fun _ result node => rewriteFormula_gives ofNames node result) layouts result inLayouts
    fourth

end Passes

end Document

end Manuscript
