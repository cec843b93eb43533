import Manuscript.Proofs.SinglePass

/-!
# A set document is final

The passes leave nothing behind that a pass would look at again. The last one makes LaTeX of
all code within lines, wherever it stands in the tree, and what it writes holds no code; this
needs nothing of the document but that the passes succeed. In a well-formed document the
blocks are set as well: what is still a code block has no class that selects a setting. So the
passes change nothing any more, with whatever macro list they are run again.
-/

namespace Manuscript.Document

/-- The names that select how a block is set. -/
def settingNames : List Text := ["verb".toList, "raw".toList, "align".toList, "indent".toList]

/-- An object that is no code within a line. -/
def NoInlineCode (fields : List (Text × Json)) : Prop :=
  Json.field? kindField fields ≠ some codeKind

/-- The last pass writes no code within lines, and leaves none in place. -/
theorem rewriteFormula_final (rules : List Rule) (fields : List (Text × Json)) (result : Json)
    (inside : ∀ field ∈ fields, Throughout NoInlineCode field.2)
    (rewritten : rewriteFormula rules fields = .ok result) : Throughout NoInlineCode result := by
  unfold rewriteFormula at rewritten
  by_cases other : Json.field? kindField fields ≠ some codeKind
  · rw [if_pos other] at rewritten
    cases rewritten
    exact (throughout_object_iff _ fields).mpr ⟨other, inside⟩
  · rw [if_neg other] at rewritten
    obtain ⟨text, -, further⟩ := bind_ok rewritten
    obtain ⟨applied, -, same⟩ := bind_ok further
    cases same
    have noCode (inner : List (Text × Json))
        (other : (Json.field? kindField inner).bind CodeKind.ofNode? = none) :
        NoInlineCode inner := by
      intro named
      rw [named] at other
      exact absurd other (by decide)
    exact raw_throughout noCode .inline _

/-- The pass over formulas leaves no code within lines in what it gives. -/
theorem setFormulas_final (rules : List Rule) (document result : Json)
    (succeeded : setFormulas rules document = .ok result) : Throughout NoInlineCode result := by
  apply walk_throughout _ (rewriteFormula_final rules) document result succeeded
  intro fields noNode named
  rw [isNode, named] at noNode
  cases noNode

/-- The passes succeed one after the other, the one over formulas as the last. -/
theorem postprocess_formulas (rules : List Rule) (document result : Json)
    (succeeded : postprocess rules document = .ok result) :
    ∃ before, setFormulas rules before = .ok result := by
  obtain ⟨first, -, rest⟩ := bind_ok succeeded
  obtain ⟨second, -, rest⟩ := bind_ok rest
  obtain ⟨third, -, rest⟩ := bind_ok rest
  obtain ⟨last, done, same⟩ := bind_ok rest
  cases same
  exact ⟨third, done⟩

/-- A choice with an alternative is none exactly if the choice is not made and neither is the
alternative. -/
theorem chosen_none_iff {α : Type} (condition : Prop) [Decidable condition] (value : α)
    (other : Option α) :
    (if condition then some value else other) = none ↔ ¬condition ∧ other = none := by
  by_cases met : condition <;> simp [met]

/-- A block with one class has no LaTeX exactly if the class begins with none of the names.
The longer name of raw blocks needs no mention, since it begins with the shorter one. -/
theorem blockLatex_none_iff (rules : List Rule) (tag text : Text) :
    blockLatex rules tag text = none ↔
      ∀ name ∈ settingNames, Text.startsWith name tag = false := by
  have longer (begins : Text.startsWith "rawmacro".toList tag = true) :
      Text.startsWith "raw".toList tag = true := by
    unfold Text.startsWith at begins ⊢
    rw [List.isPrefixOf_iff_prefix] at begins ⊢
    exact (by decide : "raw".toList <+: "rawmacro".toList).trans begins
  simp only [blockLatex, chosen_none_iff, settingNames, List.forall_mem_cons, Bool.not_eq_true,
    List.not_mem_nil, false_implies, implies_true, and_true]
  constructor
  · rintro ⟨verb, -, raw, align, indent⟩
    exact ⟨verb, raw, align, indent⟩
  · rintro ⟨verb, raw, align, indent⟩
    have macros : Text.startsWith "rawmacro".toList tag = false := by
      rw [Bool.eq_false_iff]
      intro begins
      rw [longer begins] at raw
      cases raw
    exact ⟨verb, macros, raw, align, indent⟩

/-- No LaTeX is chosen for code exactly if it is a block without a class that selects a
setting. The macro list has no part in that. -/
theorem codeLatex_none_iff (rules : List Rule) (code : Code) :
    codeLatex rules code = none ↔ code.kind = .block ∧
      ∀ tag ∈ code.tag, ∀ name ∈ settingNames, Text.startsWith name tag = false := by
  obtain ⟨kind, tag, text⟩ := code
  cases kind with
  | inline => simp [codeLatex]
  | block =>
    cases tag with
    | none => simp [codeLatex]
    | some tag => simp [codeLatex, blockLatex_none_iff]

/-- Code for which there is no choice, and what is no code. -/
def Settled (choose : Code → Option Text) (fields : List (Text × Json)) : Prop :=
  ∀ code, code? fields = some code → choose code = none

/-- A rewrite of code leaves nothing unsettled. -/
theorem setWith_settled (choose : Code → Option Text) (fields : List (Text × Json))
    (inside : ∀ field ∈ fields, Throughout (Settled choose) field.2) :
    Throughout (Settled choose) (setWith choose fields) := by
  have noCode (inner : List (Text × Json))
      (other : (Json.field? kindField inner).bind CodeKind.ofNode? = none) :
      Settled choose inner := by
    intro code found
    rw [code_none inner other] at found
    cases found
  unfold setWith
  split
  · next code found =>
    split
    · exact raw_throughout noCode code.kind _
    · next silent =>
      refine (throughout_object_iff _ fields).mpr ⟨?_, inside⟩
      intro other same
      rw [found, Option.some.injEq] at same
      exact same ▸ silent
  · next found =>
    refine (throughout_object_iff _ fields).mpr ⟨?_, inside⟩
    intro code same
    rw [found] at same
    cases same

/-- A walk that sets code leaves nothing unsettled in a well-formed value. -/
theorem mapNodes_settled (choose : Code → Option Text) (value : Json)
    (wellFormed : WellFormed value) :
    Throughout (Settled choose) (mapNodes (setWith choose) value) := by
  have walked := walk_ok (fun fields => .ok (setWith choose fields)) choose (fun _ _ => rfl)
    value wellFormed
  refine walk_throughout ?_ ?_ value _ walked
  · intro fields noNode code found
    have kindless : (Json.field? kindField fields).bind CodeKind.ofNode? = none := by
      rw [isNode, Option.isSome_eq_false_iff, Option.isNone_iff_eq_none] at noNode
      rw [noNode, Option.bind_none]
    rw [code_none fields kindless] at found
    cases found
  · intro fields result inside rewritten
    cases rewritten
    exact setWith_settled choose fields inside

/-- In the order of the passes raw inlines come before formulas, so they do on a well-formed
document what one walk does. -/
theorem postprocess_ok (rules : List Rule) (document : Json) (wellFormed : WellFormed document) :
    postprocess rules document = .ok (mapNodes (setWith (codeLatex rules)) document) := by
  have choice := funext (first_latex rules [.rawBlocks, .rawInlines, .layouts, .formulas]
    (fun pass => by cases pass <;> decide) (by decide))
  rw [postprocess, passes_eq, List.foldlM_map, runs_ok rules _ document wellFormed, choice]

/-- Where one macro list has no LaTeX for code, no other one has. -/
theorem codeLatex_or (rules others : List Rule) (code : Code) :
    (codeLatex rules code).or (codeLatex others code) = codeLatex rules code := by
  cases first : codeLatex rules code with
  | some latex => rfl
  | none =>
    have second : codeLatex others code = none :=
      (codeLatex_none_iff others code).mpr ((codeLatex_none_iff rules code).mp first)
    rw [second, Option.or_none]

/-- A code block with exactly one class and any content beside it. -/
def TaggedBlock (fields : List (Text × Json)) (tag : Text) : Prop :=
  Json.field? kindField fields = some codeBlockKind ∧
    ∃ identifier attributes text, Json.field? contentField fields =
      some (.array [.array [identifier, .array [.string tag], attributes], text])

/-- In a well-formed value a tagged block is seen as one. -/
theorem code_taggedBlock (fields : List (Text × Json)) (tag : Text)
    (wellFormed : WellFormedNode fields) (tagged : TaggedBlock fields tag) :
    ∃ text, code? fields = some ⟨.block, some tag, text⟩ := by
  obtain ⟨named, identifier, attributes, text, content⟩ := tagged
  obtain ⟨_, classes, _, words, same⟩ := wellFormed (.inl named)
  rw [content] at same
  simp only [codeContent, Option.some.injEq, Json.array.injEq, List.cons.injEq] at same
  obtain ⟨-, rfl, -⟩ := same
  refine ⟨words, ?_⟩
  rw [code?, named, content]
  rfl

/-- What the passes have set is final. Wherever they succeed no code within lines is left, at
any depth. In a well-formed document they succeed, no block is left whose only class begins
with a name that selects a setting, and they change nothing any more when they are run again,
whatever rules the second run has. -/
theorem postprocess_final (rules : List Rule) (document : Json) :
    (∀ result, postprocess rules document = .ok result →
      ∀ fields, Contains result fields → Json.field? kindField fields ≠ some codeKind) ∧
    (WellFormed document → ∃ result, postprocess rules document = .ok result ∧
      (∀ fields tag, Contains result fields → TaggedBlock fields tag →
        ∀ name ∈ settingNames, Text.startsWith name tag = false) ∧
      ∀ others : List Rule, postprocess others result = .ok result) := by
  constructor
  · intro result succeeded
    obtain ⟨before, last⟩ := postprocess_formulas rules document result succeeded
    exact setFormulas_final rules before result last
  · intro wellFormed
    have settled := mapNodes_settled (codeLatex rules) document wellFormed
    have kept := wellFormed_mapNodes (codeLatex rules) document wellFormed
    refine ⟨_, postprocess_ok rules document wellFormed, ?_, ?_⟩
    · intro fields tag inside tagged
      obtain ⟨text, found⟩ := code_taggedBlock fields tag (kept fields inside) tagged
      have silent := settled fields inside _ found
      exact ((codeLatex_none_iff rules _).mp silent).2 tag rfl
    · intro others
      have same : (fun code => (codeLatex rules code).or (codeLatex others code)) =
          codeLatex rules := funext (codeLatex_or rules others)
      rw [postprocess_ok others _ kept, mapNodes_after _ _ document wellFormed, same]

/-- The sample is set by one rule, and running the passes with another rule changes nothing. -/
theorem postprocess_final_sample :
    WellFormed sample ∧ ∃ result,
      postprocess [⟨['a'], ['b'], .anywhere, nofun⟩] sample = .ok result ∧
      (∀ fields, Contains result fields → Json.field? kindField fields ≠ some codeKind) ∧
      postprocess [⟨['b'], ['c'], .anywhere, nofun⟩] result = .ok result := by
  obtain ⟨inline, blocks⟩ := postprocess_final [⟨['a'], ['b'], .anywhere, nofun⟩] sample
  obtain ⟨result, succeeded, -, again⟩ := blocks sample_wellFormed
  exact ⟨sample_wellFormed, result, succeeded, inline result succeeded, again _⟩

end Manuscript.Document
