import Manuscript.Alignment
import Manuscript.Proofs.Lines

/-!
# The rows of a block

An aligned or indented block has its rows between two lines of LaTeX, and every row but the last
ends with a double backslash. Whatever the rows are, the endings come off again, because only their
place decides which rows have one. From the text of a block the rows can be read where none of them
is empty or holds a line feed: the line between the outer ones is empty only if there are no rows.
-/

namespace Manuscript.Alignment

/-- Of rows that are made of items, every one but the last has the ending behind it. -/
theorem addEndings_map {α : Type} (row : α → Text) (items : List α) :
    addEndings (items.map row) = items.mapIdx fun number item =>
      row item ++ if number + 1 < items.length then " \\\\".toList else [] := by
  induction items with
  | nil => rfl
  | cons item rest inductionHypothesis =>
    cases rest with
    | nil => simp [addEndings]
    | cons next later =>
      rw [List.map_cons, List.map_cons, addEndings, ← List.map_cons, inductionHypothesis]
      simp

theorem addEndings_eq (rows : List Text) :
    addEndings rows = rows.mapIdx fun number row =>
      row ++ if number + 1 < rows.length then " \\\\".toList else [] := by
  simpa using addEndings_map id rows

/-- The rows without their endings. -/
def withoutEndings : List Text → List Text
  | [] => []
  | [last] => [last]
  | row :: next :: rest =>
    row.take (row.length - " \\\\".toList.length) :: withoutEndings (next :: rest)

/-- The endings of rows come off again. -/
theorem withoutEndings_addEndings (rows : List Text) : withoutEndings (addEndings rows) = rows := by
  induction rows with
  | nil => rfl
  | cons row rest inductionHypothesis =>
    cases rest with
    | nil => rfl
    | cons next later =>
      have more : ∃ first others, addEndings (next :: later) = first :: others := by
        cases later <;> exact ⟨_, _, rfl⟩
      obtain ⟨first, others, shape⟩ := more
      rw [addEndings, shape, withoutEndings, ← shape, inductionHypothesis, List.length_append,
        Nat.add_sub_cancel, List.take_left]

/-- The rows that stand between the first line and the last line of a block. -/
def blockRows (block : Text) : List Text :=
  let inner := ((Text.pieces block).drop 1).dropLast
  if inner = [[]] then [] else withoutEndings inner

/-- The lines of a block are what stands between its outer ones. -/
theorem inner_pieces {opening closing : Text} (plainOpening : '\n' ∉ opening)
    (plainClosing : '\n' ∉ closing) (inner : Text) :
    ((Text.pieces (Text.unlines [opening, inner, closing])).drop 1).dropLast =
      Text.pieces inner := by
  have block : Text.unlines [opening, inner, closing] =
      opening ++ '\n' :: (inner ++ '\n' :: closing) := by
    rw [Text.unlines_cons _ _ (by simp), Text.unlines_cons _ _ (by simp), Text.unlines_singleton]
  rw [block, Text.pieces_feed, Text.pieces_feed, Text.pieces_plain opening plainOpening,
    Text.pieces_plain closing plainClosing]
  exact List.dropLast_concat

/-- The rows of a block can be read from its text. -/
theorem blockRows_block {opening closing : Text} {rows : List Text}
    (plainOpening : '\n' ∉ opening) (plainClosing : '\n' ∉ closing)
    (plain : ∀ row ∈ rows, '\n' ∉ row) (filled : ∀ row ∈ rows, row ≠ []) :
    blockRows (Text.unlines [opening, Text.unlines (addEndings rows), closing]) = rows := by
  rw [blockRows, inner_pieces plainOpening plainClosing]
  by_cases none : rows = []
  · subst none
    rfl
  · have ended : ∀ row ∈ addEndings rows, '\n' ∉ row := by
      intro row member
      rw [addEndings_eq] at member
      obtain ⟨number, inside, rfl⟩ := List.exists_of_mem_mapIdx member
      have feedless : '\n' ∉ rows[number] := plain _ (List.getElem_mem inside)
      split <;> simp [feedless]
    have several : addEndings rows ≠ [] := by
      intro empty
      rw [← withoutEndings_addEndings rows, empty] at none
      exact none rfl
    rw [Text.pieces_unlines _ several ended, if_neg, withoutEndings_addEndings]
    -- A single empty line would be an empty row.
    intro single
    have same : rows = [[]] := by rw [← withoutEndings_addEndings rows, single]; rfl
    exact filled [] (same ▸ List.mem_singleton_self []) rfl

end Manuscript.Alignment
