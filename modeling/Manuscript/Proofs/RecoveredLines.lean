import Manuscript.Proofs.ParagraphBreaks

/-!
# Lines behind paragraph breaks

Writing breaks loses no line. A break begins with an empty line, and no other line that is written
is empty, because an empty line of the text is what a break stands for. So whoever reads the
written lines from the first to the last meets an empty one exactly where a break begins, and
leaves out the four lines behind it, whatever the lines of the author look like: these may be the
comment or the command that a break is made of.
-/

namespace Manuscript.Paragraph

/-- Read lines with breaks among them: the five lines of a break are an empty line. -/
def readBroken : List Text → List Text
  | [] => []
  | [] :: _ :: _ :: _ :: _ :: rest => [] :: readBroken rest
  | [] :: _ => []
  | line :: rest => line :: readBroken rest

/-- Read the lines of a text behind its breaks. -/
def readLines (text : Text) : List Text := readBroken (Text.pieces text)

/-- What is written for a line is read as that line. -/
theorem readBroken_broken (line : Text) (rest : List Text) :
    readBroken (broken line ++ rest) = line :: readBroken rest := by
  cases line with
  | nil => rfl
  | cons c more => rfl

theorem readBroken_flatMap (found : List Text) : readBroken (found.flatMap broken) = found := by
  induction found with
  | nil => rfl
  | cons line rest inductionHypothesis =>
    rw [List.flatMap_cons, readBroken_broken, inductionHypothesis]

/-- A line that holds no line feed is written without one. -/
theorem broken_no_feed {line : Text} (plain : '\n' ∉ line) :
    ∀ piece ∈ broken line, '\n' ∉ piece := by
  unfold broken
  split
  · decide
  · simpa using plain

/-- The lines of a text can be read behind its breaks. -/
theorem readLines_addBreaks (text : Text) : readLines (addBreaks text) = Text.lines text := by
  rw [readLines, addBreaks_eq]
  by_cases none : Text.lines text = []
  · rw [none]
    rfl
  · obtain ⟨line, rest, shape⟩ := List.exists_cons_of_ne_nil none
    have written : (Text.lines text).flatMap broken ≠ [] := by
      rw [shape, List.flatMap_cons]
      cases line <;> exact List.cons_ne_nil _ _
    have plain : ∀ piece ∈ (Text.lines text).flatMap broken, '\n' ∉ piece := by
      intro piece member
      obtain ⟨original, known, inside⟩ := List.mem_flatMap.mp member
      exact broken_no_feed (Text.lines_no_feed text original known) piece inside
    rw [Text.pieces_unlines _ written plain, readBroken_flatMap]

/-- The lines of a text can be read from what is written for it with breaks. So two texts are
written alike exactly when they have the same lines. -/
theorem addBreaks_lines (text : Text) :
    readLines (addBreaks text) = Text.lines text ∧
      ∀ other, addBreaks text = addBreaks other ↔ Text.lines text = Text.lines other := by
  refine ⟨readLines_addBreaks text, fun other => ⟨fun same => ?_, fun same => ?_⟩⟩
  · rw [← readLines_addBreaks text, same, readLines_addBreaks]
  · rw [addBreaks_eq, addBreaks_eq, same]

/-- The author may write the lines of a break. -/
example :
    readLines (addBreaks "\n<!-- -->\n\\par\n<!-- -->\n\n\n\\par".toList) =
      [[], "<!-- -->".toList, "\\par".toList, "<!-- -->".toList, [], [], "\\par".toList] := by
  decide

end Manuscript.Paragraph
