import Manuscript.Proofs.Division
import Manuscript.Proofs.LiteralPatterns
import Manuscript.Proofs.PatternGroups

/-!
# Matches of a whole word

In the pattern of a whole word the search text stands between two edges of words, and beside these
a group on either side takes the edge of a line or a character. The search text begins and ends with
a word character, so its two ends are edges exactly where no word character is beside them. This
determines what the groups take: a boundary character, or nothing where a line begins or ends. A
line feed is no character that a group takes, and so it counts as the edge that it is.

The division of a text by a word rule looks for the same. Where the pattern matches, with two texts
in its groups, the division makes a hit with these neighbours, and the other way round.
-/

namespace Manuscript

namespace Pattern

/-- The first group of a whole word: the edge of a line, or a character that is neither a line feed
nor a hyphen. -/
def leadGroup : Expression :=
  .group (.either (sequence [.edge .lineStart]) (sequence [.noneOf [.single '\n', .single '-']]))

/-- The second group of a whole word. -/
def trailGroup : Expression :=
  .group (.either (sequence [.noneOf [.single '\n', .single '-']]) (sequence [.edge .lineEnd]))

/-- What the pattern of a whole word says. -/
def wordExpression (search : Text) : Expression :=
  sequence ([leadGroup, .edge .word] ++ search.map .literal ++ [.edge .word, trailGroup])

variable {groups : Groups} {before behind : Text}

/-! ## What the parts of the pattern capture -/

section

variable {multiline : Bool} {text : Text}

/-- Literals have no groups and take their characters. -/
theorem captures_literals (search : Text) :
    (sequence (search.map .literal)).Captures multiline groups before text behind ↔
      groups = [] ∧ text = search := by
  have groupless : (sequence (search.map .literal)).groupCount = 0 := by
    induction search with
    | nil => rfl
    | cons c rest inductionHypothesis => exact (Nat.zero_add _).trans inductionHypothesis
  rw [captures_groupless groupless, matches_literals]

theorem captures_leadGroup :
    leadGroup.Captures multiline groups before text behind ↔
      groups = [some text] ∧ ((text = [] ∧ Edge.lineStart.Holds multiline before behind) ∨
        ∃ c, text = [c] ∧ c ≠ '\n' ∧ c ≠ '-') := by
  rw [leadGroup, captures_group rfl]
  simp [sequence, Expression.Matches, Member.Holds]

theorem captures_trailGroup :
    trailGroup.Captures multiline groups before text behind ↔
      groups = [some text] ∧ ((∃ c, text = [c] ∧ c ≠ '\n' ∧ c ≠ '-') ∨
        (text = [] ∧ Edge.lineEnd.Holds multiline before behind)) := by
  rw [trailGroup, captures_group rfl]
  simp [sequence, Expression.Matches, Member.Holds]

theorem captures_lead :
    (sequence [leadGroup, .edge .word]).Captures multiline groups before text behind ↔
      groups = [some text] ∧ ((text = [] ∧ Edge.lineStart.Holds multiline before behind) ∨
        ∃ c, text = [c] ∧ c ≠ '\n' ∧ c ≠ '-') ∧
      Edge.word.Holds multiline (before ++ text) behind := by
  simp [captures_leadGroup, sequence, Expression.Captures, Expression.Matches, and_assoc]

theorem captures_trail :
    (sequence [.edge .word, trailGroup]).Captures multiline groups before text behind ↔
      groups = [some text] ∧ Edge.word.Holds multiline before (text ++ behind) ∧
        ((∃ c, text = [c] ∧ c ≠ '\n' ∧ c ≠ '-') ∨
          (text = [] ∧ Edge.lineEnd.Holds multiline before behind)) := by
  simp [captures_trailGroup, sequence, Expression.Captures, Expression.Matches]

end

/-! ## The edges of a word -/

/-- A boundary is a character that a group takes beside a word character. -/
theorem isBoundary_iff_beside (c : Char) :
    Substitution.isBoundary c = true ↔ (c ≠ '\n' ∧ c ≠ '-') ∧ ¬BesideWord (some c) := by
  simp [Substitution.isBoundary, BesideWord, and_assoc, and_comm]

theorem feed_not_word : ¬BesideWord (some '\n') := by
  unfold BesideWord
  decide

/-- What may stand before a whole word: nothing where a line begins, or a boundary. -/
def Leads (before lead : Text) : Prop :=
  (lead = [] ∧ Edge.lineStart.Holds true before []) ∨
    ∃ c, lead = [c] ∧ Substitution.isBoundary c = true

/-- Before a word character, what the first group takes leads the word. -/
theorem leads_iff (word : BesideWord behind.head?) (before lead : Text) :
    (((lead = [] ∧ Edge.lineStart.Holds true before behind) ∨
        ∃ c, lead = [c] ∧ c ≠ '\n' ∧ c ≠ '-') ∧ Edge.word.Holds true (before ++ lead) behind) ↔
      Leads before lead := by
  have edge : Edge.word.Holds true (before ++ lead) behind ↔
      ¬BesideWord (before ++ lead).getLast? := by simp [Edge.Holds, word]
  rw [edge]
  constructor
  · rintro ⟨⟨rfl, start⟩ | ⟨c, rfl, plain⟩, apart⟩
    · exact .inl ⟨rfl, start⟩
    · rw [List.getLast?_concat] at apart
      exact .inr ⟨c, rfl, (isBoundary_iff_beside c).mpr ⟨plain, apart⟩⟩
  · rintro (⟨rfl, start⟩ | ⟨c, rfl, boundary⟩)
    · refine ⟨.inl ⟨rfl, start⟩, ?_⟩
      rw [List.append_nil]
      rcases start with rfl | ⟨-, feed⟩
      · exact Bool.false_ne_true
      · exact feed ▸ feed_not_word
    · obtain ⟨plain, apart⟩ := (isBoundary_iff_beside c).mp boundary
      refine ⟨.inr ⟨c, rfl, plain⟩, ?_⟩
      rwa [List.getLast?_concat]

/-- Behind a word character, what the second group takes is what a hit takes along. -/
theorem trail_iff (word : BesideWord before.getLast?) (trail behind : Text) :
    (Edge.word.Holds true before (trail ++ behind) ∧
        ((∃ c, trail = [c] ∧ c ≠ '\n' ∧ c ≠ '-') ∨
          (trail = [] ∧ Edge.lineEnd.Holds true before behind))) ↔
      Substitution.trail? (trail ++ behind) = some trail := by
  have edge : Edge.word.Holds true before (trail ++ behind) ↔
      ¬BesideWord (trail ++ behind).head? := by simp [Edge.Holds, word]
  rw [edge]
  constructor
  · rintro ⟨apart, ⟨c, rfl, plain⟩ | ⟨rfl, rfl | rfl | ⟨-, feed⟩⟩⟩
    · have boundary := (isBoundary_iff_beside c).mpr ⟨plain, apart⟩
      simp [Substitution.trail?, plain.1, boundary]
    · rfl
    · rfl
    · obtain ⟨rest, rfl⟩ := List.head?_eq_some_iff.mp feed
      rfl
  · intro found
    cases trail with
    | nil =>
      cases behind with
      | nil => exact ⟨Bool.false_ne_true, .inr ⟨rfl, .inl rfl⟩⟩
      | cons c rest =>
        by_cases feed : c = '\n'
        · subst feed
          exact ⟨feed_not_word, .inr ⟨rfl, .inr (.inr ⟨rfl, rfl⟩)⟩⟩
        · simp [Substitution.trail?, feed] at found
    | cons c rest =>
      by_cases feed : c = '\n'
      · simp [Substitution.trail?, feed] at found
      · obtain ⟨boundary, rfl⟩ : Substitution.isBoundary c = true ∧ rest = [] := by
          simpa [Substitution.trail?, feed] using found
        obtain ⟨plain, apart⟩ := (isBoundary_iff_beside c).mp boundary
        exact ⟨apart, .inl ⟨c, rfl, plain⟩⟩

variable {search : Text} (word : isWordSearch search = true)
include word

/-- A text in word mode has word characters at its ends, whatever stands around it. -/
theorem word_ends (before behind : Text) :
    BesideWord (search ++ behind).head? ∧ BesideWord (before ++ search).getLast? := by
  obtain ⟨first, last⟩ := Bool.and_eq_true_iff.mp word
  obtain ⟨c, begins, isWord⟩ := (Option.any_eq_true _ _).mp first
  obtain ⟨d, ends, isWordToo⟩ := (Option.any_eq_true _ _).mp last
  rw [List.head?_append, List.getLast?_append, begins, ends]
  exact ⟨isWord, isWordToo⟩

/-- A text in word mode begins with a character that is no boundary. -/
theorem word_begins : ∃ c more, search = c :: more ∧ Substitution.isBoundary c = false := by
  obtain ⟨first, -⟩ := word_ends word [] []
  cases search with
  | nil => exact (Bool.false_ne_true first).elim
  | cons c more =>
    refine ⟨c, more, rfl, Bool.eq_false_iff.mpr fun boundary => ?_⟩
    exact ((isBoundary_iff_beside c).mp boundary).2 first

/-- A whole word is matched between what leads it and what a hit takes along behind it, and these
two are what the groups take. -/
theorem captures_word (text : Text) :
    (wordExpression search).Captures true groups before text behind ↔
      ∃ lead trail, text = lead ++ search ++ trail ∧ groups = [some lead, some trail] ∧
        Leads before lead ∧ Substitution.trail? (trail ++ behind) = some trail := by
  simp only [wordExpression, captures_sequence_append, captures_literals, captures_lead,
    captures_trail]
  constructor
  · rintro ⟨_, trail, _, _, rfl, rfl, ⟨lead, _, _, _, rfl, rfl, ⟨rfl, leading⟩, rfl, rfl⟩, rfl,
      trailing⟩
    obtain ⟨begins, ends⟩ := word_ends word (before ++ lead) (trail ++ behind)
    rw [← List.append_assoc] at trailing
    exact ⟨lead, trail, rfl, rfl, (leads_iff begins before lead).mp leading,
      (trail_iff ends trail behind).mp trailing⟩
  · rintro ⟨lead, trail, rfl, rfl, leading, trailing⟩
    obtain ⟨begins, ends⟩ := word_ends word (before ++ lead) (trail ++ behind)
    refine ⟨lead ++ search, trail, [some lead], [some trail], rfl, rfl, ?_, rfl, ?_⟩
    · exact ⟨lead, search, [some lead], [], rfl, rfl,
        ⟨rfl, (leads_iff begins before lead).mpr leading⟩, rfl, rfl⟩
    · rw [← List.append_assoc]
      exact (trail_iff ends trail behind).mpr trailing

end Pattern

/-! ## Hits of a word rule -/

namespace Substitution

open Pattern

variable {search : Text} {lineStart : Bool}

/-- The hit that begins with a character has nothing before its word, or that character. -/
theorem wordHit_lead {rest : Text} {c : Char} {piece : Piece} {width : Nat}
    (found : wordHit? search lineStart (c :: rest) = some (piece, width)) :
    ∃ lead trail, piece = .hit lead trail ∧
      (lead = [] ∨ lead = [c] ∧ isBoundary c = true) := by
  rw [wordHit_cons, Option.or_eq_some_iff] at found
  rcases found with atStart | ⟨-, behind⟩
  · split at atStart
    · obtain ⟨trail, -, same⟩ := Option.map_eq_some_iff.mp atStart
      cases same
      exact ⟨[], trail, rfl, .inl rfl⟩
    · cases atStart
  · split at behind
    · next boundary =>
      obtain ⟨trail, -, same⟩ := Option.map_eq_some_iff.mp behind
      cases same
      exact ⟨[c], trail, rfl, .inr ⟨rfl, boundary⟩⟩
    · cases behind

/-- Where the word itself comes first there is a hit at the beginning of a line only. -/
theorem wordHit_search (word : isWordSearch search = true) (lineStart : Bool) (following : Text) :
    wordHit? search lineStart (search ++ following) =
      if lineStart then (trail? following).map fun trail =>
        (.hit [] trail, search.length + trail.length)
      else none := by
  obtain ⟨c, more, rfl, within⟩ := word_begins word
  rw [List.cons_append, wordHit_cons, within, if_neg Bool.false_ne_true, Option.or_none]
  simp [after?]

/-- Where a boundary comes first it is the neighbour, because the word does not begin with it. -/
theorem wordHit_boundary (word : isWordSearch search = true) (lineStart : Bool) {c : Char}
    (boundary : isBoundary c = true) (following : Text) :
    wordHit? search lineStart (c :: (search ++ following)) =
      (trail? following).map fun trail => (.hit [c] trail, search.length + trail.length + 1) := by
  obtain ⟨d, more, rfl, within⟩ := word_begins word
  have other : d ≠ c := fun same => Bool.false_ne_true (within.symm.trans (same ▸ boundary))
  simp [wordHit_cons, after?, boundary, other]

/-- A hit with certain neighbours is made where these lead and follow the word. -/
theorem wordHit_iff (word : isWordSearch search = true) {before : Text}
    (start : lineStart = true ↔ Edge.lineStart.Holds true before []) (lead trail behind : Text) :
    wordHit? search lineStart (lead ++ search ++ trail ++ behind) =
        some (.hit lead trail, (lead ++ search ++ trail).length) ↔
      Leads before lead ∧ trail? (trail ++ behind) = some trail := by
  have bare : wordHit? search lineStart ([] ++ search ++ trail ++ behind) = _ :=
    (congrArg _ (List.append_assoc search trail behind)).trans (wordHit_search word lineStart _)
  have led {c : Char} (boundary : isBoundary c = true) :
      wordHit? search lineStart ([c] ++ search ++ trail ++ behind) = _ :=
    (congrArg _ (congrArg (c :: ·) (List.append_assoc search trail behind))).trans
      (wordHit_boundary word lineStart boundary _)
  constructor
  · intro found
    obtain ⟨c, rest, split⟩ : ∃ c rest, lead ++ search ++ trail ++ behind = c :: rest := by
      obtain ⟨c, more, rfl, -⟩ := word_begins word
      exact List.exists_cons_of_ne_nil (by simp)
    rw [split] at found
    obtain ⟨_, _, same, leading⟩ := wordHit_lead found
    cases same
    rw [← split] at found
    rcases leading with rfl | ⟨rfl, boundary⟩
    · rw [bare] at found
      split at found
      · next flag => exact ⟨.inl ⟨rfl, start.mp flag⟩, by simpa using found⟩
      · cases found
    · rw [led boundary] at found
      exact ⟨.inr ⟨c, rfl, boundary⟩, by simpa [Nat.add_assoc] using found⟩
  · rintro ⟨⟨rfl, atStart⟩ | ⟨c, rfl, boundary⟩, ends⟩
    · rw [bare, if_pos (start.mpr atStart), ends]
      simp
    · rw [led boundary, ends]
      simp [Nat.add_assoc]

/-- A whole word is matched where the division makes a hit of it, and the neighbours of the hit are
what the groups take. -/
theorem captures_word_iff_hit (word : isWordSearch search = true) {before : Text}
    (start : lineStart = true ↔ Edge.lineStart.Holds true before []) {groups : Groups}
    {text behind : Text} :
    (wordExpression search).Captures true groups before text behind ↔
      ∃ lead trail, text = lead ++ search ++ trail ∧ groups = [some lead, some trail] ∧
        wordHit? search lineStart (text ++ behind) = some (.hit lead trail, text.length) := by
  rw [captures_word word]
  refine exists_congr fun lead => exists_congr fun trail => and_congr_right ?_
  rintro rfl
  rw [wordHit_iff word start]

end Substitution

end Manuscript
