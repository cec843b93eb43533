import Manuscript.Proofs.WholeWord

/-!
# The division of a text

A rule divides a text into kept characters and hits, and nothing of the text is lost on the way:
with the search text between the neighbours of every hit, the pieces are the text again. This
holds in both modes and for every search text, the empty one included, whose hits take up
nothing. The replacement has no part in the division.

The divisions go through a text one character after the other, with a count of characters that
still belong to the hit before them. These have been accounted for already, so the statements
are about the text behind them.
-/

namespace Manuscript

/-- The text that a piece takes up. -/
def Piece.source (search : Text) : Piece → Text
  | .kept c => [c]
  | .hit lead trail => lead ++ search ++ trail

namespace Substitution

/-- The hit that begins with a character is the word itself at a line start, and otherwise the
word behind that character. -/
theorem wordHit_cons (search : Text) (lineStart : Bool) (c : Char) (rest : Text) :
    wordHit? search lineStart (c :: rest) =
      (if lineStart then
        ((after? search (c :: rest)).bind trail?).map fun trail =>
          (Piece.hit [] trail, search.length + trail.length)
      else none).or
        (if isBoundary c then
          ((after? search rest).bind trail?).map fun trail =>
            (Piece.hit [c] trail, search.length + trail.length + 1)
        else none) := by
  simp only [wordHit?]
  cases lineStart with
  | false => rfl
  | true => cases (after? search (c :: rest)).bind trail? <;> rfl

/-- What ends a word begins what follows it. -/
theorem trail_begins {following trail : Text} (ends : trail? following = some trail) :
    trail <+: following := by
  unfold trail? at ends
  split at ends
  · cases ends
    exact List.nil_prefix
  · split at ends
    · cases ends
      exact List.nil_prefix
    · split at ends
      · cases ends
        exact ⟨_, rfl⟩
      · cases ends

/-- A word and its ending begin the text that the word is found in. -/
theorem ending_begins {search text trail : Text}
    (found : (after? search text).bind trail? = some trail) : search ++ trail <+: text := by
  obtain ⟨following, stands, ends⟩ := Option.bind_eq_some_iff.mp found
  unfold after? at stands
  split at stands
  · next begins =>
    obtain ⟨rest, rfl⟩ := List.isPrefixOf_iff_prefix.mp begins
    rw [List.drop_left] at stands
    cases stands
    exact (List.prefix_append_right_inj search).mpr (trail_begins ends)
  · cases stands

/-- A hit begins the text, with as many characters as it says. -/
theorem wordHit_source {search rest : Text} {lineStart : Bool} {c : Char} {piece : Piece}
    {width : Nat} (found : wordHit? search lineStart (c :: rest) = some (piece, width)) :
    piece.source search <+: c :: rest ∧ width = (piece.source search).length := by
  rw [wordHit_cons, Option.or_eq_some_iff] at found
  rcases found with atStart | ⟨-, behind⟩
  · split at atStart
    · obtain ⟨trail, ends, same⟩ := Option.map_eq_some_iff.mp atStart
      cases same
      exact ⟨ending_begins ends, by simp [Piece.source]⟩
    · cases atStart
  · split at behind
    · obtain ⟨trail, ends, same⟩ := Option.map_eq_some_iff.mp behind
      cases same
      exact ⟨(List.prefix_cons_inj c).mpr (ending_begins ends), by simp [Piece.source]⟩
    · cases behind

/-- Behind the first character of a beginning the rest of it is covered. -/
theorem covered_split {front rest : Text} {c : Char} (begins : front <+: c :: rest)
    (nonempty : front ≠ []) : front ++ rest.drop (front.length - 1) = c :: rest := by
  obtain ⟨behind, split⟩ := begins
  obtain ⟨first, more, rfl⟩ := List.exists_cons_of_ne_nil nonempty
  obtain ⟨rfl, rfl⟩ := List.cons.inj split
  simp

/-- The pieces of a division at a word take up the text. -/
theorem wordFrom_source {search : Text} (nonempty : search ≠ []) (lineStart : Bool)
    (covered : Nat) (text : Text) :
    (wordFrom search lineStart covered text).flatMap (Piece.source search) =
      text.drop covered := by
  induction text generalizing lineStart covered with
  | nil => simp [wordFrom]
  | cons c rest inductionHypothesis =>
    cases covered with
    | succ covered => exact inductionHypothesis (c == '\n') covered
    | zero =>
      rw [wordFrom, List.drop_zero]
      cases found : wordHit? search lineStart (c :: rest) with
      | none => exact congrArg (c :: ·) (inductionHypothesis (c == '\n') 0)
      | some hit =>
        obtain ⟨piece, width⟩ := hit
        obtain ⟨begins, rfl⟩ := wordHit_source found
        have takesUp : piece.source search ≠ [] := by
          cases piece with
          | kept d => exact List.cons_ne_nil d []
          | hit lead trail => simp [Piece.source, nonempty]
        dsimp only
        rw [List.flatMap_cons, inductionHypothesis]
        exact covered_split begins takesUp

/-- The pieces of a division anywhere take up the text. -/
theorem anywhereFrom_source {search : Text} (nonempty : search ≠ []) (covered : Nat)
    (text : Text) :
    (anywhereFrom search covered text).flatMap (Piece.source search) = text.drop covered := by
  induction text generalizing covered with
  | nil => simp [anywhereFrom]
  | cons c rest inductionHypothesis =>
    cases covered with
    | succ covered => exact inductionHypothesis covered
    | zero =>
      rw [anywhereFrom, List.drop_zero]
      by_cases stands : search.isPrefixOf (c :: rest) = true
      · rw [if_pos stands, List.flatMap_cons, inductionHypothesis, Piece.source, List.nil_append,
          List.append_nil]
        exact covered_split (List.isPrefixOf_iff_prefix.mp stands) nonempty
      · rw [if_neg stands]
        exact congrArg (c :: ·) (inductionHypothesis 0)

/-- An empty search text hits between the characters, where its hits take up nothing. -/
theorem anywhere_source (search text : Text) :
    (anywhere search text).flatMap (Piece.source search) = text := by
  unfold anywhere
  by_cases empty : search = []
  · subst empty
    rw [if_pos List.isEmpty_nil, List.flatMap_append, List.flatMap_assoc]
    simp [Piece.source]
  · rw [if_neg (by simpa using empty)]
    exact anywhereFrom_source empty 0 text

end Substitution

/-- The pieces into which a rule divides a text take up the text. -/
theorem Rule.divide_source (rule : Rule) (text : Text) :
    (rule.divide text).flatMap (Piece.source rule.search) = text := by
  rw [divide]
  cases mode : rule.mode with
  | word =>
    exact Substitution.wordFrom_source (WholeWord.word_search_nonempty rule mode) true 0 text
  | anywhere => exact Substitution.anywhere_source rule.search text

end Manuscript
