import Manuscript.Proofs.Lines
import Manuscript.Rule.Substitution
import Mathlib.Data.List.Infix

/-!
# Literal occurrences

A rule that hits anywhere replaces the leftmost occurrence of its search text, then the
leftmost one behind it, and so on. In terms of the text alone: there is one way to cut a text
into pieces such that the search text occurs first behind each piece and not at all in the
last one, and the rule joins these pieces with its spaced replacement in place of the search
text. Search texts that overlap themselves are no exception, because an occurrence that begins
within an earlier one is not the first behind its piece.

Where the search text holds no space, the spaces around a replacement keep what is on either
side of them apart, so no occurrence is formed at a seam. A replacement without the search
text then leaves none behind, and applying the rule again changes nothing.
-/

namespace Manuscript

/-- A rule that replaces a text with a first character wherever it occurs. -/
structure Rule.Literal (rule : Rule) : Prop where
  anywhere : rule.mode = .anywhere
  nonempty : rule.search ≠ []

namespace Occurrences

/-- What stands in place of an occurrence: the replacement with a space on either side. -/
def spaced (replace : Text) : Text := ' ' :: replace ++ [' ']

/-- A search text that is put behind a piece occurs there for the first time. -/
def FirstBehind (search piece : Text) : Prop :=
  ∀ position, search <+: (piece ++ search).drop position → piece.length ≤ position

/-- The pieces between the leftmost occurrences of a search text, one behind the other. -/
structure Cut (search text : Text) (pieces : List Text) : Prop where
  joined : Text.joinWith search pieces = text
  first : ∀ piece ∈ pieces.dropLast, FirstBehind search piece
  last : ∃ piece, pieces.getLast? = some piece ∧ ¬search <:+: piece

/-- A search text that occurs first behind a piece does not occur in it. -/
theorem FirstBehind.absent {search piece : Text} (first : FirstBehind search piece)
    (nonempty : search ≠ []) : ¬search <:+: piece := by
  rintro ⟨front, back, rfl⟩
  have early : search <+: (front ++ search ++ back ++ search).drop front.length := by
    simp [List.append_assoc]
  have late := first front.length early
  have positive : 0 < search.length := List.length_pos_iff.mpr nonempty
  simp only [List.length_append] at late
  omega

section Pieces

variable {search text : Text} {pieces : List Text}

theorem Cut.ne_nil (cut : Cut search text pieces) : pieces ≠ [] := by
  rintro rfl
  obtain ⟨piece, found, -⟩ := cut.last
  cases found

/-- A single piece is the text itself, and the search text does not occur in it. -/
theorem cut_single_iff (piece : Text) :
    Cut search text [piece] ↔ piece = text ∧ ¬search <:+: text := by
  constructor
  · rintro ⟨joined, -, last, found, absent⟩
    obtain rfl : piece = last := Option.some.inj found
    rw [Text.joinWith, List.intercalate_singleton] at joined
    exact ⟨joined, joined ▸ absent⟩
  · rintro ⟨rfl, absent⟩
    exact ⟨List.intercalate_singleton, by simp, piece, rfl, absent⟩

/-- Of several pieces the first is followed by the search text, and what is behind that is cut
into the others. -/
theorem cut_cons_iff (piece next : Text) (later : List Text) :
    Cut search text (piece :: next :: later) ↔
      FirstBehind search piece ∧
        ∃ rest, text = piece ++ search ++ rest ∧ Cut search rest (next :: later) := by
  constructor
  · rintro ⟨joined, first, last⟩
    rw [List.dropLast_cons_cons, List.forall_mem_cons] at first
    rw [List.getLast?_cons_cons] at last
    rw [Text.joinWith, List.intercalate_cons_cons] at joined
    exact ⟨first.1, _, joined.symm, rfl, first.2, last⟩
  · rintro ⟨firstBehind, rest, rfl, joined, first, last⟩
    refine ⟨?_, ?_, ?_⟩
    · rw [Text.joinWith, List.intercalate_cons_cons]
      exact congrArg (piece ++ search ++ ·) joined
    · rw [List.dropLast_cons_cons, List.forall_mem_cons]
      exact ⟨firstBehind, first⟩
    · rwa [List.getLast?_cons_cons]

/-- The text without characters is its only piece. -/
theorem cut_nil_iff (nonempty : search ≠ []) : Cut search [] pieces ↔ pieces = [[]] := by
  constructor
  · intro cut
    cases pieces with
    | nil => exact absurd rfl cut.ne_nil
    | cons piece others =>
      cases others with
      | nil => rw [((cut_single_iff piece).mp cut).1]
      | cons next later =>
        obtain ⟨-, rest, whole, -⟩ := (cut_cons_iff piece next later).mp cut
        have empty := List.append_eq_nil_iff.mp whole.symm
        exact absurd (List.append_eq_nil_iff.mp empty.1).2 nonempty
  · rintro rfl
    exact (cut_single_iff []).mpr ⟨rfl, fun occurs => nonempty (List.infix_nil.mp occurs)⟩

/-- Where the search text stands at the beginning, the first piece is empty. -/
theorem cut_hit_iff (rest : Text) :
    Cut search (search ++ rest) pieces ↔ ∃ later, pieces = [] :: later ∧ Cut search rest later := by
  constructor
  · intro cut
    cases pieces with
    | nil => exact absurd rfl cut.ne_nil
    | cons piece others =>
      cases others with
      | nil =>
        obtain ⟨-, absent⟩ := (cut_single_iff piece).mp cut
        exact absurd (List.prefix_append search rest).isInfix absent
      | cons next later =>
        obtain ⟨first, back, whole, others⟩ := (cut_cons_iff piece next later).mp cut
        have stands : search <+: piece ++ search := by
          refine List.prefix_of_prefix_length_le (List.prefix_append search rest) ?_ (by simp)
          rw [whole]
          exact List.prefix_append _ back
        have empty : piece = [] := List.length_eq_zero_iff.mp (Nat.le_zero.mp (first 0 stands))
        subst empty
        have same : rest = back := List.append_cancel_left whole
        exact ⟨next :: later, rfl, same ▸ others⟩
  · rintro ⟨later, rfl, cut⟩
    cases later with
    | nil => exact absurd rfl cut.ne_nil
    | cons next later =>
      exact (cut_cons_iff [] next later).mpr
        ⟨fun position _ => Nat.zero_le position, rest, rfl, cut⟩

/-- Where it does not stand there, the first character belongs to the first piece. -/
theorem cut_keep_iff {c : Char} {rest : Text} (apart : ¬search <+: c :: rest) :
    Cut search (c :: rest) pieces ↔
      ∃ piece later, pieces = (c :: piece) :: later ∧ Cut search rest (piece :: later) := by
  constructor
  · intro cut
    cases pieces with
    | nil => exact absurd rfl cut.ne_nil
    | cons piece others =>
      cases others with
      | nil =>
        obtain ⟨rfl, absent⟩ := (cut_single_iff piece).mp cut
        have absentBehind : ¬search <:+: rest := fun occurs =>
          absent (List.infix_cons_iff.mpr (.inr occurs))
        exact ⟨rest, [], rfl, (cut_single_iff rest).mpr ⟨rfl, absentBehind⟩⟩
      | cons next later =>
        obtain ⟨first, back, whole, others⟩ := (cut_cons_iff piece next later).mp cut
        cases piece with
        | nil => exact absurd ⟨back, whole.symm⟩ apart
        | cons d piece =>
          obtain ⟨rfl, tail⟩ := List.cons.inj whole
          have firstBehind : FirstBehind search piece := fun position stands =>
            Nat.le_of_succ_le_succ (first (position + 1) stands)
          exact ⟨piece, next :: later, rfl,
            (cut_cons_iff piece next later).mpr ⟨firstBehind, back, tail, others⟩⟩
  · rintro ⟨piece, later, rfl, cut⟩
    cases later with
    | nil =>
      obtain ⟨rfl, absent⟩ := (cut_single_iff piece).mp cut
      refine (cut_single_iff (c :: piece)).mpr ⟨rfl, ?_⟩
      intro occurs
      exact (List.infix_cons_iff.mp occurs).elim apart absent
    | cons next later =>
      obtain ⟨first, back, rfl, others⟩ := (cut_cons_iff piece next later).mp cut
      refine (cut_cons_iff (c :: piece) next later).mpr ⟨?_, back, rfl, others⟩
      intro position stands
      cases position with
      | zero =>
        have whole : c :: (piece ++ search) <+: c :: (piece ++ search ++ back) :=
          List.cons_prefix_cons.mpr ⟨rfl, List.prefix_append _ back⟩
        exact absurd (List.IsPrefix.trans stands whole) apart
      | succ position => exact Nat.succ_le_succ (first position stands)

end Pieces

/-- Characters that belong to a hit are passed over. -/
theorem anywhereFrom_covered (search : Text) (covered : Nat) (text : Text) :
    Substitution.anywhereFrom search covered text =
      Substitution.anywhereFrom search 0 (text.drop covered) := by
  induction covered generalizing text with
  | zero => rfl
  | succ covered inductionHypothesis =>
    cases text with
    | nil => rfl
    | cons c rest => exact inductionHypothesis rest

end Occurrences

namespace Rule.Literal

open Occurrences

variable {rule : Rule} (literal : rule.Literal)
include literal

/-- What a literal rule makes of a text, read off its division. -/
theorem substitute_eq (text : Text) :
    rule.substitute text =
      (Substitution.anywhereFrom rule.search 0 text).flatMap (Piece.render rule.replace) := by
  have filled : rule.search.isEmpty = false := List.isEmpty_eq_false_iff.mpr literal.nonempty
  simp [substitute, divide, literal.anywhere, Substitution.anywhere, filled]

theorem substitute_nil : rule.substitute [] = [] := by
  rw [literal.substitute_eq]
  rfl

/-- The search text at the beginning is replaced, and the rule goes on behind it. -/
theorem substitute_hit (rest : Text) :
    rule.substitute (rule.search ++ rest) = spaced rule.replace ++ rule.substitute rest := by
  rw [literal.substitute_eq, literal.substitute_eq]
  cases shape : rule.search with
  | nil => exact absurd shape literal.nonempty
  | cons c more =>
    have stands : (c :: more).isPrefixOf (c :: (more ++ rest)) = true :=
      List.isPrefixOf_iff_prefix.mpr (List.prefix_append (c :: more) rest)
    rw [List.cons_append, Substitution.anywhereFrom, if_pos stands, anywhereFrom_covered]
    simp [Piece.render, spaced]

/-- A character with which the search text does not begin is kept. -/
theorem substitute_keep {c : Char} {rest : Text} (apart : ¬rule.search <+: c :: rest) :
    rule.substitute (c :: rest) = c :: rule.substitute rest := by
  rw [literal.substitute_eq, literal.substitute_eq, Substitution.anywhereFrom,
    if_neg (mt List.isPrefixOf_iff_prefix.mp apart)]
  rfl

/-- Going through a text finds the only way to cut it, and joins the pieces with the spaced
replacement. -/
theorem substitute_cut (text : Text) :
    ∃ pieces, (∀ others, Cut rule.search text others ↔ others = pieces) ∧
      rule.substitute text = Text.joinWith (spaced rule.replace) pieces := by
  induction size : text.length using Nat.strongRecOn generalizing text with
  | _ count inductionHypothesis =>
    by_cases stands : rule.search <+: text
    · obtain ⟨rest, rfl⟩ := stands
      have shorter : rest.length < count := by
        have positive : 0 < rule.search.length := List.length_pos_iff.mpr literal.nonempty
        rw [← size, List.length_append]
        omega
      obtain ⟨pieces, unique, same⟩ := inductionHypothesis rest.length shorter rest rfl
      refine ⟨[] :: pieces, ?_, ?_⟩
      · intro others
        simp [cut_hit_iff, unique]
      · have more : pieces ≠ [] := ((unique pieces).mpr rfl).ne_nil
        rw [literal.substitute_hit, same, Text.joinWith, Text.joinWith,
          List.intercalate_cons_of_ne_nil more, List.nil_append]
    · cases text with
      | nil =>
        exact ⟨[[]], fun others => cut_nil_iff literal.nonempty, literal.substitute_nil⟩
      | cons c rest =>
        obtain ⟨pieces, unique, same⟩ := inductionHypothesis rest.length
          (by rw [← size]; exact Nat.lt_succ_self _) rest rfl
        cases pieces with
        | nil => exact absurd rfl ((unique []).mpr rfl).ne_nil
        | cons piece later =>
          refine ⟨(c :: piece) :: later, ?_, ?_⟩
          · intro others
            simp [cut_keep_iff stands, unique]
          · rw [literal.substitute_keep stands, same]
            cases later <;> rfl

/-- A text without the search text is left alone. -/
theorem substitute_absent {text : Text} (absent : ¬rule.search <:+: text) :
    rule.substitute text = text := by
  obtain ⟨pieces, unique, same⟩ := literal.substitute_cut text
  have single : [text] = pieces := (unique [text]).mp ((cut_single_iff text).mpr ⟨rfl, absent⟩)
  rw [same, ← single]
  exact List.intercalate_singleton

end Rule.Literal

namespace Occurrences

/-- Between spaces nothing new is formed: a search text without spaces occurs in joined pieces
only if it occurs in the replacement or in a piece. -/
theorem joined_absent {search replace : Text} (spaceless : ' ' ∉ search)
    (fresh : ¬search <:+: replace) (pieces : List Text) (nonempty : search ≠ [])
    (absent : ∀ piece ∈ pieces, ¬search <:+: piece) :
    ¬search <:+: Text.joinWith (spaced replace) pieces := by
  induction pieces with
  | nil => exact fun occurs => nonempty (List.infix_nil.mp occurs)
  | cons piece later inductionHypothesis =>
    obtain ⟨absentHere, absentLater⟩ := List.forall_mem_cons.mp absent
    cases later with
    | nil =>
      rw [Text.joinWith, List.intercalate_singleton]
      exact absentHere
    | cons next others =>
      have shape : Text.joinWith (spaced replace) (piece :: next :: others) =
          piece ++ ' ' :: (replace ++ ' ' :: Text.joinWith (spaced replace) (next :: others)) := by
        simp [Text.joinWith, List.intercalate_cons_cons, spaced]
      intro occurs
      rw [shape] at occurs
      rcases Text.infix_apart spaceless _ _ occurs with inPiece | behind
      · exact absentHere inPiece
      · rcases Text.infix_apart spaceless _ _ behind with inReplacement | further
        · exact fresh inReplacement
        · exact inductionHypothesis absentLater further

/-- No piece holds the search text. -/
theorem Cut.absent {search text : Text} {pieces : List Text} (cut : Cut search text pieces)
    (nonempty : search ≠ []) : ∀ piece ∈ pieces, ¬search <:+: piece := by
  obtain ⟨last, found, absent⟩ := cut.last
  obtain ⟨front, rfl⟩ := List.getLast?_eq_some_iff.mp found
  intro piece member
  rcases List.mem_append.mp member with inFront | atEnd
  · exact (cut.first piece (by rwa [List.dropLast_concat])).absent nonempty
  · rw [List.mem_singleton.mp atEnd]
    exact absent

/-- A rule that hits anywhere replaces every leftmost occurrence of its search text, one behind
the other, and nothing else: there is exactly one way to cut the text at them, and the rule
joins the pieces with its spaced replacement, whatever characters that holds. If the search text
holds no space and does not occur in the replacement, it does not occur in the result either,
and the rule leaves that alone. -/
theorem substitute_at_occurrences (rule : Rule) (literal : rule.Literal) (text : Text) :
    ∃ pieces : List Text,
      (∀ others, Cut rule.search text others ↔ others = pieces) ∧
      rule.substitute text = Text.joinWith (spaced rule.replace) pieces ∧
      (' ' ∉ rule.search → ¬rule.search <:+: rule.replace →
        ¬rule.search <:+: rule.substitute text ∧
          rule.substitute (rule.substitute text) = rule.substitute text) := by
  obtain ⟨pieces, unique, same⟩ := literal.substitute_cut text
  refine ⟨pieces, unique, same, fun spaceless fresh => ?_⟩
  have cut : Cut rule.search text pieces := (unique pieces).mpr rfl
  have absent : ¬rule.search <:+: rule.substitute text := by
    rw [same]
    exact joined_absent spaceless fresh pieces literal.nonempty (cut.absent literal.nonempty)
  exact ⟨absent, literal.substitute_absent absent⟩

/-- A search text that overlaps itself, and a replacement that looks like a reference to it. -/
def doubled : Rule := ⟨['a', 'a'], "\\1".toList, .anywhere, nofun⟩

/-- Of three letters the first two are an occurrence, and the third is no part of one. -/
theorem doubled_occurrences :
    doubled.Literal ∧ doubled.substitute "aaa(aa".toList = " \\1 a( \\1 ".toList ∧
      ¬doubled.search <:+: doubled.substitute "aaa(aa".toList ∧
      ∃ pieces, ∀ others, Cut doubled.search "aaa(aa".toList others ↔ others = pieces := by
  have literal : doubled.Literal := ⟨rfl, by decide⟩
  obtain ⟨pieces, unique, -, absent⟩ := substitute_at_occurrences doubled literal "aaa(aa".toList
  exact ⟨literal, by decide, (absent (by decide) (by decide)).1, pieces, unique⟩

end Occurrences

end Manuscript
