import Manuscript.Text.Basic
import Mathlib.Data.List.Basic

/-!
# Cutting and joining

Cutting a list at the elements that a test picks, and joining pieces with a separator, undo
each other where no piece holds a cut. Joined with another separator, the pieces are the list
with every cut element replaced by it. Lines are the case of line feeds: a text is its pieces
with a line feed between them, and the lines of lines put below each other are those lines,
less one empty line at their end.

A text that lacks some character occurs on one side of that character or not at all, at a line
feed as elsewhere.
-/

namespace Manuscript.Text

variable {α : Type}

/-- A separator stands between joined pieces and more joined pieces. -/
theorem intercalate_append (separator : List α) (front back : List (List α))
    (nonempty : front ≠ []) (more : back ≠ []) :
    separator.intercalate (front ++ back) =
      separator.intercalate front ++ separator ++ separator.intercalate back := by
  induction front with
  | nil => exact absurd rfl nonempty
  | cons piece rest inductionHypothesis =>
    by_cases last : rest = []
    · subst last
      rw [List.singleton_append, List.intercalate_cons_of_ne_nil more, List.intercalate_singleton]
    · have behind : rest ++ back ≠ [] := List.append_ne_nil_of_left_ne_nil last back
      rw [List.cons_append, List.intercalate_cons_of_ne_nil behind, inductionHypothesis last,
        List.intercalate_cons_of_ne_nil last]
      simp only [List.append_assoc]

/-- Pieces joined with a separator are the list with the separator in place of every cut. -/
theorem intercalate_splitOnP (picked : α → Bool) (separator text : List α) :
    separator.intercalate (text.splitOnP picked) =
      text.flatMap fun x => if picked x then separator else [x] := by
  induction text with
  | nil => simp
  | cons x rest inductionHypothesis =>
    have more := List.splitOnP_ne_nil picked rest
    rw [List.flatMap_cons, ← inductionHypothesis, List.splitOnP_cons_eq_if_modifyHead]
    split
    · rw [List.intercalate_cons_of_ne_nil more, List.nil_append]
    · obtain ⟨first, others, pieces⟩ := List.exists_cons_of_ne_nil more
      rw [pieces, List.modifyHead_cons, List.intercalate_cons_cons_left, List.singleton_append]

/-- The last piece of a text goes on with what holds no cut. It is the whole text if there is
no cut at all. -/
theorem splitOnP_append (picked : α → Bool) (text extension : List α)
    (uncut : ∀ x ∈ extension, picked x = false) :
    ∃ pieces last, (text ++ extension).splitOnP picked = pieces ++ [last ++ extension] ∧
      (∀ x ∈ last, picked x = false) ∧
      ((pieces = [] ∧ last = text) ∨ ∃ x ∈ text, picked x = true) := by
  induction text with
  | nil => exact ⟨[], [], by simp [List.splitOnP_eq_singleton uncut], by simp, .inl ⟨rfl, rfl⟩⟩
  | cons x rest inductionHypothesis =>
    obtain ⟨pieces, last, cut, plain, shape⟩ := inductionHypothesis
    cases chosen : picked x with
    | true =>
      refine ⟨[] :: pieces, last, ?_, plain, .inr ⟨x, List.mem_cons_self, chosen⟩⟩
      simp [List.splitOnP_cons_eq_if_modifyHead, chosen, cut]
    | false =>
      have later : (∃ y ∈ rest, picked y = true) → ∃ y ∈ x :: rest, picked y = true := by
        rintro ⟨y, member, pickedY⟩
        exact ⟨y, List.mem_cons_of_mem x member, pickedY⟩
      cases pieces with
      | nil =>
        refine ⟨[], x :: last, ?_, ?_, ?_⟩
        · simp [List.splitOnP_cons_eq_if_modifyHead, chosen, cut]
        · simpa [chosen] using plain
        · rcases shape with ⟨-, whole⟩ | found
          · exact .inl ⟨rfl, by rw [whole]⟩
          · exact .inr (later found)
      | cons first others =>
        refine ⟨(x :: first) :: others, last, ?_, plain, ?_⟩
        · simp [List.splitOnP_cons_eq_if_modifyHead, chosen, cut]
        · rcases shape with ⟨empty, -⟩ | found
          · cases empty
          · exact .inr (later found)

/-- There is always a piece. -/
theorem pieces_ne_nil (text : Text) : pieces text ≠ [] := List.splitOn_ne_nil '\n' text

/-- A text is its pieces with a line feed between them. -/
theorem unlines_pieces (text : Text) : unlines (pieces text) = text := List.intercalate_splitOn '\n'

/-- A line feed separates the pieces before it from those behind it. -/
theorem pieces_feed (front back : Text) :
    pieces (front ++ '\n' :: back) = pieces front ++ pieces back :=
  List.splitOn_append_cons_self front back

/-- A text without a line feed is one piece. -/
theorem pieces_plain (text : Text) (plain : '\n' ∉ text) : pieces text = [text] :=
  List.splitOn_eq_singleton plain

/-- No piece holds a line feed. -/
theorem pieces_no_feed (text piece : Text) (member : piece ∈ pieces text) : '\n' ∉ piece :=
  fun feed => absurd (splitOnP_uncut _ text piece member '\n' feed) (by decide)

/-- Nothing but a line at the end is dropped. -/
theorem dropFinalEmpty_sublist (found : List Text) : (dropFinalEmpty found).Sublist found := by
  unfold dropFinalEmpty
  split
  · exact List.dropLast_sublist found
  · exact List.Sublist.refl found

/-- No line holds a line feed. -/
theorem lines_no_feed (text line : Text) (member : line ∈ lines text) : '\n' ∉ line :=
  pieces_no_feed text line ((dropFinalEmpty_sublist _).subset member)

/-- Nothing is put below a single line. -/
@[simp] theorem unlines_singleton (line : Text) : unlines [line] = line :=
  List.intercalate_singleton

/-- A line feed follows every line but the last. -/
theorem unlines_cons (line : Text) (rest : List Text) (more : rest ≠ []) :
    unlines (line :: rest) = line ++ '\n' :: unlines rest := by
  rw [unlines, joinWith, List.intercalate_cons_of_ne_nil more, List.append_assoc,
    List.singleton_append, unlines]

/-- A rewrite that goes to both sides of a line feed rewrites every line on its own. -/
theorem unlines_map (rewrite : Text → Text)
    (each : ∀ front back, rewrite (front ++ '\n' :: back) = rewrite front ++ '\n' :: rewrite back)
    (found : List Text) (nonempty : found ≠ []) :
    rewrite (unlines found) = unlines (found.map rewrite) := by
  induction found with
  | nil => exact absurd rfl nonempty
  | cons line rest inductionHypothesis =>
    by_cases last : rest = []
    · subst last
      rw [List.map_cons, List.map_nil, unlines_singleton, unlines_singleton]
    · have more : rest.map rewrite ≠ [] := mt List.map_eq_nil_iff.mp last
      rw [unlines_cons line rest last, each, inductionHypothesis last, List.map_cons,
        unlines_cons _ _ more]

/-- Lines put below each other are the pieces of what they give. -/
theorem pieces_unlines (found : List Text) (nonempty : found ≠ [])
    (plain : ∀ line ∈ found, '\n' ∉ line) : pieces (unlines found) = found :=
  List.splitOn_intercalate '\n' plain nonempty

/-- Lines put below each other are the lines of what they give, but for one empty line at
their end. -/
theorem lines_unlines (found : List Text) (plain : ∀ line ∈ found, '\n' ∉ line) :
    lines (unlines found) = dropFinalEmpty found := by
  by_cases none : found = []
  · subst none
    rfl
  · rw [lines, pieces_unlines found none plain]

/-- Lines that hold line feeds may be cut at them before they are put below each other. -/
theorem unlines_flatMap_pieces (found : List Text) :
    unlines (found.flatMap pieces) = unlines found := by
  induction found with
  | nil => rfl
  | cons line rest inductionHypothesis =>
    by_cases last : rest = []
    · subst last
      rw [List.flatMap_cons, List.flatMap_nil, List.append_nil, unlines_pieces, unlines_singleton]
    · have more : rest.flatMap pieces ≠ [] := by
        intro empty
        obtain ⟨next, later, shape⟩ := List.exists_cons_of_ne_nil last
        rw [List.flatMap_eq_nil_iff] at empty
        exact pieces_ne_nil next (empty next (by rw [shape]; exact List.mem_cons_self))
      calc unlines ((line :: rest).flatMap pieces)
          = unlines (pieces line) ++ ['\n'] ++ unlines (rest.flatMap pieces) :=
            intercalate_append _ _ _ (pieces_ne_nil line) more
        _ = line ++ '\n' :: unlines rest := by
            rw [unlines_pieces, inductionHypothesis, List.append_assoc, List.singleton_append]
        _ = unlines (line :: rest) := (unlines_cons line rest last).symm

/-- Dropping an empty line at the end looks at the end only. -/
theorem dropFinalEmpty_append (front back : List Text) (nonempty : back ≠ []) :
    dropFinalEmpty (front ++ back) = front ++ dropFinalEmpty back := by
  have last : (front ++ back).getLast? = back.getLast? := by
    rw [List.getLast?_append, Option.or_of_isSome (List.getLast?_isSome.mpr nonempty)]
  unfold dropFinalEmpty
  rw [last, List.dropLast_append_of_ne_nil nonempty]
  split <;> rfl

/-- At a line feed the lines of what is behind it follow on the pieces of what is before. -/
theorem lines_at_feed (front back : Text) :
    lines (front ++ '\n' :: back) = pieces front ++ lines back := by
  have more := pieces_ne_nil back
  rw [lines, pieces_feed, dropFinalEmpty_append _ _ more, lines]

/-- A text without a character does not reach over it. -/
theorem prefix_apart_iff {search : Text} {c : Char} (apart : c ∉ search) (front back : Text) :
    search <+: front ++ c :: back ↔ search <+: front := by
  constructor
  · intro stands
    have whole : front <+: front ++ c :: back := List.prefix_append front _
    rcases List.prefix_or_prefix_of_prefix stands whole with within | beyond
    · exact within
    · obtain ⟨more, rfl⟩ := beyond
      rw [List.prefix_append_right_inj] at stands
      cases more with
      | nil => simp
      | cons d rest =>
        -- The text would go on with the character.
        have same : d = c := (List.cons_prefix_cons.mp stands).1
        exact absurd (List.mem_append_right front (same ▸ List.mem_cons_self)) apart
  · intro stands
    exact stands.trans (List.prefix_append front _)

/-- A text without a character occurs on one side of it. -/
theorem infix_apart {search : Text} {c : Char} (apart : c ∉ search) (front back : Text)
    (occurs : search <:+: front ++ c :: back) : search <:+: front ∨ search <:+: back := by
  induction front with
  | nil =>
    rcases List.infix_cons_iff.mp occurs with atStart | behind
    · exact .inl ((prefix_apart_iff apart [] back).mp atStart).isInfix
    · exact .inr behind
  | cons d rest inductionHypothesis =>
    rcases List.infix_cons_iff.mp occurs with atStart | behind
    · exact .inl ((prefix_apart_iff apart (d :: rest) back).mp atStart).isInfix
    · rcases inductionHypothesis behind with inRest | inBack
      · exact .inl (inRest.trans (List.suffix_cons d rest).isInfix)
      · exact .inr inBack

end Manuscript.Text
