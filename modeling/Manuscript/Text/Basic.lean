/-!
# Text

A text is the list of its characters. Every rule of this library reads or
rewrites characters one after the other, so the list is the form in which the
rules are stated; a string is only how a text enters and leaves the program.

A line ends at a line feed and at nothing else: form feeds, carriage returns and
the Unicode line separators stay inside their line. A final line feed ends the
last line and starts no further one, so a text and the same text with one final
line feed have the same lines, unless the text was empty or ended in one already.
-/

namespace Manuscript

/-- A text is the list of its characters. -/
abbrev Text := List Char

namespace Text

/-- Texts behind each other, with a separator between every two neighbours. -/
abbrev joinWith (separator : Text) (texts : List Text) : Text := separator.intercalate texts

/-- Whether a text begins with another one. -/
def startsWith (beginning text : Text) : Bool := beginning.isPrefixOf text

/-- Turn the ASCII capitals of a text into small letters and leave all other
characters alone. -/
def lowered (text : Text) : Text := text.map Char.toLower

/-- The pieces of a text between its line feeds, the last of them possibly empty. -/
def pieces (text : Text) : List Text := text.splitOn '\n'

/-- Drop one empty piece from the end, if there is one. -/
def dropFinalEmpty (found : List Text) : List Text :=
  if found.getLast? = some [] then found.dropLast else found

/-- The lines of a text. -/
def lines (text : Text) : List Text := dropFinalEmpty (pieces text)

/-- Put lines below each other, without a line feed after the last. -/
def unlines (found : List Text) : Text := joinWith ['\n'] found

/-- No piece of a text holds a cut. -/
theorem splitOnP_uncut {α : Type} (picked : α → Bool) (text : List α) :
    ∀ piece ∈ text.splitOnP picked, ∀ x ∈ piece, picked x = false := by
  induction text with
  | nil => simp
  | cons x rest inductionHypothesis =>
    rw [List.splitOnP_cons_eq_if_modifyHead]
    cases chosen : picked x with
    | true => exact List.forall_mem_cons.mpr ⟨by simp, inductionHypothesis⟩
    | false =>
      obtain ⟨first, others, cut⟩ := List.exists_cons_of_ne_nil (List.splitOnP_ne_nil picked rest)
      rw [cut, List.forall_mem_cons] at inductionHypothesis
      rw [cut, if_neg Bool.false_ne_true, List.modifyHead_cons]
      refine List.forall_mem_cons.mpr ⟨?_, inductionHypothesis.2⟩
      exact List.forall_mem_cons.mpr ⟨chosen, inductionHypothesis.1⟩

end Text

end Manuscript
