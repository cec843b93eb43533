import Manuscript.Alignment
import Manuscript.Paragraph
import Manuscript.Proofs.Lines

/-!
# The line feed at the end

A line feed at the end of a text ends its last line and begins no further one. So put below each
other the lines of a text give the text again, less one line feed at its end, and lines that are
each ended by a line feed are the lines of what they give. Where a text is empty or ends in a line
feed, a line begins behind it, and the lines of what is put there are further lines.

Where it is not, one line feed more ends the line that was open anyway. Nothing that goes by the
lines of a text can tell the two apart: not the passes over a document, nor the layout of blocks.
-/

namespace Manuscript.Text

/-- Behind the text a line begins. -/
def AtLineStart (text : Text) : Prop := text = [] ∨ text.getLast? = some '\n'

instance (text : Text) : Decidable (AtLineStart text) :=
  inferInstanceAs (Decidable (_ ∨ _))

/-- A text behind which a line begins is empty or has a last line feed. -/
theorem atLineStart_iff (text : Text) :
    AtLineStart text ↔ text = [] ∨ ∃ front, text = front ++ ['\n'] := by
  rw [AtLineStart, List.getLast?_eq_some_iff]

/-- A line feed at the end ends the last piece. -/
theorem lines_ended (front : Text) : lines (front ++ ['\n']) = pieces front := by
  rw [lines_at_feed]
  exact List.append_nil _

/-- The last line of a text is open where its last piece holds something, and nothing is
dropped then. -/
theorem lines_open {text : Text} (opened : ¬AtLineStart text) : lines text = pieces text := by
  obtain ⟨nonempty, unended⟩ := not_or.mp opened
  obtain ⟨front, c, rfl⟩ : ∃ front c, text = front ++ [c] :=
    ⟨_, _, (List.dropLast_concat_getLast nonempty).symm⟩
  have plain : c ≠ '\n' := by simpa using unended
  obtain ⟨before, last, split, -, -⟩ := splitOnP_append (· == '\n') front [c] (by simpa using plain)
  rw [lines, pieces, List.splitOn_eq_splitOnP, split, dropFinalEmpty, if_neg]
  simp

/-- The lines of a text are the text but for the line feed at its end. -/
theorem unlines_lines (text : Text) :
    unlines (lines text) = if text.getLast? = some '\n' then text.dropLast else text := by
  by_cases started : AtLineStart text
  · obtain rfl | ⟨front, rfl⟩ := (atLineStart_iff text).mp started
    · rfl
    · rw [lines_ended, unlines_pieces, List.getLast?_concat, if_pos rfl, List.dropLast_concat]
  · rw [lines_open started, unlines_pieces, if_neg (not_or.mp started).2]

/-- Lines that are ended by line feeds are the lines of what they give. -/
theorem lines_flatMap_feed (found : List Text) (plain : ∀ line ∈ found, '\n' ∉ line) :
    lines (found.flatMap (· ++ ['\n'])) = found := by
  induction found with
  | nil => rfl
  | cons line rest inductionHypothesis =>
    obtain ⟨here, others⟩ := List.forall_mem_cons.mp plain
    rw [List.flatMap_cons, List.append_assoc, List.singleton_append, lines_at_feed,
      pieces_plain line here, inductionHypothesis others, List.singleton_append]

/-- Where a line begins behind a text, the lines of what is put there are further lines. -/
theorem lines_append {front : Text} (started : AtLineStart front) (back : Text) :
    lines (front ++ back) = lines front ++ lines back := by
  obtain rfl | ⟨before, rfl⟩ := (atLineStart_iff front).mp started
  · rfl
  · rw [List.append_assoc, List.singleton_append, lines_at_feed, lines_ended]

/-- One line feed ends the line that is open at the end of a text. -/
theorem lines_append_feed {text : Text} (opened : ¬AtLineStart text) :
    lines (text ++ ['\n']) = lines text := by
  rw [lines_ended, lines_open opened]

/-- The lines of a text are exact about the line feed at its end. Put below each other they give
the text without that line feed; no line holds one; lines that are each ended by a line feed are
read as they are; and behind a text that is empty or ends in a line feed come the lines of what
follows. So a line feed behind a text that is neither changes no line, and nothing that is made
of the lines: not the text without comments, nor the one with paragraph breaks, nor any block. -/
theorem lines_final_feed :
    (∀ text, unlines (lines text) = if text.getLast? = some '\n' then text.dropLast else text) ∧
    (∀ text, ∀ line ∈ lines text, '\n' ∉ line) ∧
    (∀ found : List Text, (∀ line ∈ found, '\n' ∉ line) →
      lines (found.flatMap (· ++ ['\n'])) = found) ∧
    (∀ front back, front = [] ∨ front.getLast? = some '\n' →
      lines (front ++ back) = lines front ++ lines back) ∧
    ∀ text, text ≠ [] → text.getLast? ≠ some '\n' →
      lines (text ++ ['\n']) = lines text ∧
      Paragraph.stripComments (text ++ ['\n']) = Paragraph.stripComments text ∧
      Paragraph.addBreaks (text ++ ['\n']) = Paragraph.addBreaks text ∧
      Paragraph.preprocess (text ++ ['\n']) = Paragraph.preprocess text ∧
      ∀ rules,
        Alignment.alignedBlock rules (text ++ ['\n']) = Alignment.alignedBlock rules text ∧
        Alignment.indentedBlock rules (text ++ ['\n']) = Alignment.indentedBlock rules text := by
  refine ⟨unlines_lines, lines_no_feed, lines_flatMap_feed,
    fun front back started => lines_append started back, fun text nonempty unended => ?_⟩
  have same : lines (text ++ ['\n']) = lines text :=
    lines_append_feed (not_or.mpr ⟨nonempty, unended⟩)
  have stripped : Paragraph.stripComments (text ++ ['\n']) = Paragraph.stripComments text := by
    rw [Paragraph.stripComments, same, Paragraph.stripComments]
  refine ⟨same, stripped, ?_, ?_, fun rules => ⟨?_, ?_⟩⟩
  · rw [Paragraph.addBreaks, same, Paragraph.addBreaks]
  · rw [Paragraph.preprocess, stripped, Paragraph.preprocess]
  · rw [Alignment.alignedBlock, same, Alignment.alignedBlock]
  · rw [Alignment.indentedBlock, same, Alignment.indentedBlock]

/-- Separators of other kinds stay inside their line, and of two line feeds at the end the first
ends an empty line. -/
theorem separators_final_feed :
    (∀ line ∈ ["a\x0cb\u2028".toList, [], ['\r']], '\n' ∉ line) ∧
      lines "a\x0cb\u2028\n\n\r\n".toList = ["a\x0cb\u2028".toList, [], ['\r']] ∧
      AtLineStart "a\n\n".toList ∧
      lines ("a\n\n".toList ++ "b\n".toList) = lines "a\n\n".toList ++ lines "b\n".toList ∧
      "a\n\n -- b".toList ≠ [] ∧ "a\n\n -- b".toList.getLast? ≠ some '\n' ∧
      Paragraph.preprocess ("a\n\n -- b".toList ++ ['\n']) =
        Paragraph.preprocess "a\n\n -- b".toList := by
  obtain ⟨-, -, ended, further, kept⟩ := lines_final_feed
  exact ⟨by decide, ended ["a\x0cb\u2028".toList, [], ['\r']] (by decide), by decide,
    further _ _ (by decide), by decide, by decide,
    (kept "a\n\n -- b".toList (by decide) (by decide)).2.2.2.1⟩

end Manuscript.Text
