import Manuscript.Proofs.Division
import Manuscript.Proofs.Lines

/-!
# Rules line by line

A search text without a line feed occurs within a line, and a line feed beside a word counts
as an edge and is never taken along. So a rule divides a text at a line feed like the two
texts on either side of it, each with its own edges. What a rule has made of them is again
two texts with a line feed between them, whatever its replacement holds, and so the rules of
a macro list may be applied to every line on its own.

The divisions go through a text one character after the other, with a count of characters
that still belong to the hit before them. The induction at a line feed therefore speaks about
counts that end before it.
-/

namespace Manuscript

namespace Substitution

/-- A search text that is followed by something in a line is followed by that, and then by
the line feed and what is behind it. -/
theorem after_feed {search : Text} (plain : '\n' ∉ search) (front back : Text) :
    after? search (front ++ '\n' :: back) =
      (after? search front).map (· ++ '\n' :: back) := by
  unfold after?
  by_cases stands : search <+: front
  · have further := (Text.prefix_apart_iff plain front back).mpr stands
    rw [if_pos (List.isPrefixOf_iff_prefix.mpr further),
      if_pos (List.isPrefixOf_iff_prefix.mpr stands), Option.map_some,
      List.drop_append_of_le_length stands.length_le]
  · have further := mt (Text.prefix_apart_iff plain front back).mp stands
    rw [if_neg (mt List.isPrefixOf_iff_prefix.mp further),
      if_neg (mt List.isPrefixOf_iff_prefix.mp stands), Option.map_none]

/-- The end of a line and the end of a text end a word in the same way. -/
theorem trail_feed (following back : Text) :
    trail? (following ++ '\n' :: back) = trail? following := by
  cases following with
  | nil => rfl
  | cons c rest => rfl

/-- Whether and how a word ends does not depend on what is behind its line. -/
theorem ending_feed {search : Text} (plain : '\n' ∉ search) (front back : Text) :
    (after? search (front ++ '\n' :: back)).bind trail? = (after? search front).bind trail? := by
  rw [after_feed plain]
  cases after? search front with
  | none => rfl
  | some following => exact trail_feed following back

/-- The hit at a character of a line does not depend on what is behind the line. -/
theorem wordHit_feed {search : Text} (plain : '\n' ∉ search) (lineStart : Bool) (c : Char)
    (front back : Text) :
    wordHit? search lineStart (c :: (front ++ '\n' :: back)) =
      wordHit? search lineStart (c :: front) := by
  have here := ending_feed plain (c :: front) back
  have behind := ending_feed plain front back
  rw [List.cons_append] at here
  rw [wordHit_cons, wordHit_cons, here, behind]

/-- There is no hit of a word at a line feed. -/
theorem wordHit_at_feed {search : Text} (plain : '\n' ∉ search) (nonempty : search ≠ [])
    (lineStart : Bool) (back : Text) : wordHit? search lineStart ('\n' :: back) = none := by
  have nowhere : after? search ('\n' :: back) = none := by
    have found := after_feed plain [] back
    rw [List.nil_append] at found
    rw [found, Option.map_eq_none_iff]
    cases search with
    | nil => exact absurd rfl nonempty
    | cons c rest => rfl
  have noBoundary : isBoundary '\n' = false := by decide
  simp [wordHit?, nowhere, noBoundary]

/-- A hit lies within the text. -/
theorem wordHit_width {search rest : Text} {lineStart : Bool} {c : Char} {piece : Piece}
    {width : Nat} (found : wordHit? search lineStart (c :: rest) = some (piece, width)) :
    width ≤ rest.length + 1 := by
  obtain ⟨begins, rfl⟩ := wordHit_source found
  exact begins.length_le

/-- A text is divided at a word up to a line feed as if it ended there, and behind the line
feed as if it began there. -/
theorem wordFrom_feed {search : Text} (plain : '\n' ∉ search) (nonempty : search ≠ [])
    (lineStart : Bool) (covered : Nat) (front back : Text) (within : covered ≤ front.length) :
    wordFrom search lineStart covered (front ++ '\n' :: back) =
      wordFrom search lineStart covered front ++
        .kept '\n' :: wordFrom search true 0 back := by
  induction front generalizing lineStart covered with
  | nil =>
    have none : covered = 0 := Nat.le_zero.mp within
    subst none
    change wordFrom search lineStart 0 ('\n' :: back) = .kept '\n' :: wordFrom search true 0 back
    rw [wordFrom, wordHit_at_feed plain nonempty]
    rfl
  | cons c rest inductionHypothesis =>
    rw [List.cons_append]
    cases covered with
    | succ covered =>
      exact inductionHypothesis (c == '\n') covered (Nat.le_of_succ_le_succ within)
    | zero =>
      rw [wordFrom, wordFrom, wordHit_feed plain]
      cases found : wordHit? search lineStart (c :: rest) with
      | none => exact congrArg (Piece.kept c :: ·) (inductionHypothesis _ 0 (Nat.zero_le _))
      | some hit =>
        obtain ⟨piece, width⟩ := hit
        have bound := wordHit_width found
        exact congrArg (piece :: ·) (inductionHypothesis _ (width - 1) (by omega))

/-- A text is divided anywhere up to a line feed as if it ended there, and behind the line
feed as if it began there. -/
theorem anywhereFrom_feed {search : Text} (plain : '\n' ∉ search) (nonempty : search ≠ [])
    (covered : Nat) (front back : Text) (within : covered ≤ front.length) :
    anywhereFrom search covered (front ++ '\n' :: back) =
      anywhereFrom search covered front ++ .kept '\n' :: anywhereFrom search 0 back := by
  induction front generalizing covered with
  | nil =>
    have none : covered = 0 := Nat.le_zero.mp within
    subst none
    have nowhere : ¬search <+: '\n' :: back := by
      intro stands
      have empty : search <+: [] := (Text.prefix_apart_iff plain [] back).mp stands
      exact nonempty (List.prefix_nil.mp empty)
    change anywhereFrom search 0 ('\n' :: back) = .kept '\n' :: anywhereFrom search 0 back
    rw [anywhereFrom, if_neg (mt List.isPrefixOf_iff_prefix.mp nowhere)]
  | cons c rest inductionHypothesis =>
    rw [List.cons_append]
    cases covered with
    | succ covered =>
      exact inductionHypothesis covered (Nat.le_of_succ_le_succ within)
    | zero =>
      have same := Text.prefix_apart_iff plain (c :: rest) back
      rw [List.cons_append] at same
      rw [anywhereFrom, anywhereFrom]
      by_cases stands : search <+: c :: rest
      · have bound : search.length ≤ rest.length + 1 := stands.length_le
        rw [if_pos (List.isPrefixOf_iff_prefix.mpr (same.mpr stands)),
          if_pos (List.isPrefixOf_iff_prefix.mpr stands)]
        exact congrArg (Piece.hit [] [] :: ·) (inductionHypothesis _ (by omega))
      · rw [if_neg (mt List.isPrefixOf_iff_prefix.mp (mt same.mp stands)),
          if_neg (mt List.isPrefixOf_iff_prefix.mp stands)]
        exact congrArg (Piece.kept c :: ·) (inductionHypothesis 0 (Nat.zero_le _))

/-- An empty search text hits on both sides of a line feed, which are an end and a
beginning. -/
theorem anywhere_feed {search : Text} (plain : '\n' ∉ search) (front back : Text) :
    anywhere search (front ++ '\n' :: back) =
      anywhere search front ++ .kept '\n' :: anywhere search back := by
  unfold anywhere
  by_cases empty : search = []
  · simp [empty]
  · have nonempty : ¬search.isEmpty = true := by rwa [List.isEmpty_iff]
    rw [if_neg nonempty, if_neg nonempty, if_neg nonempty]
    exact anywhereFrom_feed plain empty 0 front back (Nat.zero_le _)

end Substitution

namespace Rule

/-- A rule divides the lines on both sides of a line feed on their own. -/
theorem divide_feed (rule : Rule) (plain : '\n' ∉ rule.search) (front back : Text) :
    rule.divide (front ++ '\n' :: back) =
      rule.divide front ++ .kept '\n' :: rule.divide back := by
  unfold divide
  cases mode : rule.mode with
  | word =>
    have nonempty : rule.search ≠ [] :=
      WholeWord.word_search_nonempty rule mode
    exact Substitution.wordFrom_feed plain nonempty true 0 front back (Nat.zero_le _)
  | anywhere => exact Substitution.anywhere_feed plain front back

/-- A rule rewrites the lines on both sides of a line feed on their own. -/
theorem substitute_feed (rule : Rule) (plain : '\n' ∉ rule.search) (front back : Text) :
    rule.substitute (front ++ '\n' :: back) =
      rule.substitute front ++ '\n' :: rule.substitute back := by
  rw [substitute, divide_feed rule plain, List.flatMap_append, List.flatMap_cons]
  rfl

end Rule

/-- A macro list rewrites the lines on both sides of a line feed on their own. The induction is
on the rules: a rule leaves two texts with a line feed between them for the next one. -/
theorem applyRules_feed (rules : List Rule) (plain : ∀ rule ∈ rules, '\n' ∉ rule.search)
    (front back : Text) :
    applyRules rules (front ++ '\n' :: back) =
      applyRules rules front ++ '\n' :: applyRules rules back := by
  induction rules generalizing front back with
  | nil => rfl
  | cons rule rest inductionHypothesis =>
    have first := rule.substitute_feed (plain rule List.mem_cons_self) front back
    have others := inductionHypothesis
      (fun other member => plain other (List.mem_cons_of_mem rule member))
    calc applyRules (rule :: rest) (front ++ '\n' :: back)
        = applyRules rest (rule.substitute (front ++ '\n' :: back)) := rfl
      _ = applyRules rest (rule.substitute front ++ '\n' :: rule.substitute back) := by rw [first]
      _ = applyRules rest (rule.substitute front) ++
            '\n' :: applyRules rest (rule.substitute back) := others _ _

/-- Where no search text holds a line feed, a macro list looks across none: it rewrites what
stands on both sides of a line feed on their own, and so a whole text as it rewrites each
piece between line feeds. -/
theorem applyRules_line_by_line (rules : List Rule)
    (plain : ∀ rule ∈ rules, '\n' ∉ rule.search) :
    (∀ front back : Text, applyRules rules (front ++ '\n' :: back) =
      applyRules rules front ++ '\n' :: applyRules rules back) ∧
    ∀ text : Text,
      applyRules rules text = Text.unlines ((Text.pieces text).map (applyRules rules)) := by
  have each := applyRules_feed rules plain
  refine ⟨each, fun text => ?_⟩
  calc applyRules rules text
      = applyRules rules (Text.unlines (Text.pieces text)) := by rw [Text.unlines_pieces]
    _ = Text.unlines ((Text.pieces text).map (applyRules rules)) :=
        Text.unlines_map _ each _ (Text.pieces_ne_nil text)

/-- A word rule whose replacement breaks the line, one for the word that this makes at the
beginning of a line, and one for a sign. -/
def breaking : List Rule :=
  [⟨['a', 't'], ['A', '\n', 'N'], .word, fun _ => by decide⟩,
    ⟨['N'], ['M'], .word, fun _ => by decide⟩, ⟨['+'], ['&'], .anywhere, nofun⟩]

/-- The second word of the first line has lost its neighbour to the first; the first word of
the second line has not, though it follows a word as well. -/
theorem breaking_line_by_line :
    (∀ rule ∈ breaking, '\n' ∉ rule.search) ∧
      applyRules breaking ("at at".toList ++ '\n' :: "at+at".toList) =
        applyRules breaking "at at".toList ++ '\n' :: applyRules breaking "at+at".toList ∧
      applyRules breaking "at at".toList = " A\n M   at".toList ∧
      applyRules breaking "at+at".toList = " A\n M &   at".toList :=
  ⟨by decide, (applyRules_line_by_line breaking (by decide)).1 _ _, by decide, by decide⟩

end Manuscript
