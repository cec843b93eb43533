import Manuscript.Proofs.Division
import Manuscript.Table.Row
import Mathlib.Data.List.Flatten

/-!
# Rules that only add spaces

A rule whose replacement is its search text writes every hit as it stood in the text, the
neighbours that belong to it on their sides, and puts a space before and behind that. As the pieces
of a division take up the whole text, the rule adds spaces and does nothing else, whichever hits
there are and whether they touch. What one rule has made is a text like any other to the next one,
so a macro list of such rules only adds spaces too.

A row of a table has such a rule where its replacement is the sign for the search text.
-/

namespace Manuscript

/-- A text without its spaces. -/
def Text.withoutSpaces (text : Text) : Text := text.filter (· ≠ ' ')

/-- One text is the other with spaces added: nothing is left out of it, and it holds nothing new
but spaces. -/
structure SpacesAdded (text result : Text) : Prop where
  kept : text.Sublist result
  same : result.withoutSpaces = text.withoutSpaces

theorem SpacesAdded.refl (text : Text) : SpacesAdded text text := ⟨List.Sublist.refl text, rfl⟩

theorem SpacesAdded.trans {text between result : Text} (first : SpacesAdded text between)
    (second : SpacesAdded between result) : SpacesAdded text result :=
  ⟨first.kept.trans second.kept, second.same.trans first.same⟩

/-- Spaces that are added to parts are added to the whole. -/
theorem spacesAdded_flatMap {α : Type} (parts : List α) {text result : α → Text}
    (each : ∀ part, SpacesAdded (text part) (result part)) :
    SpacesAdded (parts.flatMap text) (parts.flatMap result) := by
  refine ⟨List.Sublist.flatMap_right parts fun part _ => (each part).kept, ?_⟩
  rw [Text.withoutSpaces, Text.withoutSpaces, List.filter_flatMap, List.filter_flatMap]
  exact List.flatMap_congr fun part _ => (each part).same

/-- A hit that is replaced by the search text is what it takes up between two spaces. -/
theorem Piece.render_source (search : Text) (piece : Piece) :
    SpacesAdded (piece.source search) (piece.render search) := by
  cases piece with
  | kept c => exact SpacesAdded.refl [c]
  | hit lead trail =>
    have written : render search (.hit lead trail) = ' ' :: (lead ++ search ++ trail ++ [' ']) := by
      simp [render]
    rw [source, written]
    refine ⟨?_, by simp [Text.withoutSpaces]⟩
    exact (List.sublist_append_left _ _).cons ' '

/-- A rule that writes its search text again only adds spaces. -/
theorem Rule.substitute_spacesAdded (rule : Rule) (identity : rule.replace = rule.search)
    (text : Text) : SpacesAdded text (rule.substitute text) := by
  have added := spacesAdded_flatMap (rule.divide text) (Piece.render_source rule.search)
  rwa [rule.divide_source text, ← identity] at added

/-- Rules that write their search texts again only add spaces, each to what the one before it has
made of the text. -/
theorem applyRules_spacesAdded (rules : List Rule)
    (identities : ∀ rule ∈ rules, rule.replace = rule.search) (text : Text) :
    SpacesAdded text (applyRules rules text) := by
  induction rules generalizing text with
  | nil => exact SpacesAdded.refl text
  | cons rule rest inductionHypothesis =>
    obtain ⟨here, others⟩ := List.forall_mem_cons.mp identities
    exact (rule.substitute_spacesAdded here text).trans (inductionHypothesis others _)

/-- The rule of a row whose replacement is the sign for the search text writes that again. -/
theorem Row.toRule_identity (row : Row) (sign : row.replace = identity) :
    row.toRule.replace = row.toRule.search := by
  rw [toRule, if_pos sign]

/-- Rules that write their search texts again only add spaces, in any mixture of modes: what they
make of a text still holds all of its characters in their order, and with the spaces taken out both
are the same. The rules of table rows with the sign for the search text are such rules. -/
theorem identity_rules_only_space :
    (∀ rules : List Rule, (∀ rule ∈ rules, rule.replace = rule.search) →
      ∀ text : Text, text.Sublist (applyRules rules text) ∧
        (applyRules rules text).filter (· ≠ ' ') = text.filter (· ≠ ' ')) ∧
    ∀ rows : List Row, (∀ row ∈ rows, row.replace = ['_']) →
      ∀ rule ∈ rows.map Row.toRule, rule.replace = rule.search := by
  refine ⟨fun rules identities text => ?_, fun rows signs rule member => ?_⟩
  · have added := applyRules_spacesAdded rules identities text
    exact ⟨added.kept, added.same⟩
  · obtain ⟨row, known, rfl⟩ := List.mem_map.mp member
    exact row.toRule_identity (signs row known)

/-- A word, and a sign that is hit anywhere. -/
def echoes : List Row :=
  [⟨['i', 'n'], ['_'], .word, fun _ => by decide⟩, ⟨['*'], ['_'], .anywhere, nofun⟩]

/-- Of two words with one space between them only the first is hit. A sign belongs to the hit of
the word behind it, and is then hit itself. -/
theorem echoes_only_space :
    (∀ row ∈ echoes, row.replace = ['_']) ∧
      (∀ rule ∈ echoes.map Row.toRule, rule.replace = rule.search) ∧
      applyRules (echoes.map Row.toRule) "in in\n*in".toList = " in  in\n  * in ".toList ∧
      (applyRules (echoes.map Row.toRule) "in in\n*in".toList).filter (· ≠ ' ') =
        "in in\n*in".toList.filter (· ≠ ' ') := by
  obtain ⟨added, rows⟩ := identity_rules_only_space
  have signs : ∀ row ∈ echoes, row.replace = ['_'] := by decide
  exact ⟨signs, rows echoes signs, by decide, (added _ (rows echoes signs) _).2⟩

end Manuscript
