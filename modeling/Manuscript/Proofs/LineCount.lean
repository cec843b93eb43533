import Manuscript.Proofs.Lines
import Manuscript.Text.Utf8

/-!
# Counting lines

The lines of a file end in a line feed, a carriage return or both. They are counted by writing
every line end as one line feed and taking the lines of that.

A reader that goes through the text counts the characters that begin a line instead: the first
one, and each one behind a line end that it is no part of. Both counts are the same, because
putting a character in front of a text adds one line and takes away the one that began there.
So at a place where a line has ended, the lines before it and those behind it add up.
-/

namespace Manuscript.Text

/-- The number of lines of a text, whatever its line ends are. -/
def lineCount (text : Text) : Nat := (lines (unifyLineEnds text)).length

/-- Whether a line begins between two neighbouring characters. -/
def Begins (previous c : Char) : Prop := previous = '\n' ∨ previous = '\r' ∧ c ≠ '\n'

instance (previous c : Char) : Decidable (Begins previous c) :=
  inferInstanceAs (Decidable (previous = '\n' ∨ previous = '\r' ∧ c ≠ '\n'))

/-- The number of lines that begin in a text behind a character. -/
def linesBegun : Char → Text → Nat
  | _, [] => 0
  | previous, c :: rest => (if Begins previous c then 1 else 0) + linesBegun c rest

/-- A line feed in front of a text is an empty line more. -/
theorem lines_feed (text : Text) : lines ('\n' :: text) = [] :: lines text :=
  lines_at_feed [] text

/-- Any other character in front of a text belongs to its first line. -/
theorem lines_length_cons {c : Char} (plain : c ≠ '\n') {text : Text} (nonempty : text ≠ []) :
    (lines (c :: text)).length = (lines text).length := by
  have cut : ∃ first others, pieces text = first :: others ∧
      pieces (c :: text) = (c :: first) :: others := by
    obtain ⟨first, others, shape⟩ := List.exists_cons_of_ne_nil (pieces_ne_nil text)
    refine ⟨first, others, shape, ?_⟩
    rw [pieces] at shape
    rw [pieces, List.splitOn_cons_eq_if_modifyHead, shape, if_neg (by simpa using plain)]
    rfl
  obtain ⟨first, others, shape, longer⟩ := cut
  rw [lines, lines, shape, longer]
  cases others with
  | nil =>
    have whole : first = text := by
      have same := unlines_pieces text
      rwa [shape, unlines_singleton] at same
    have kept : dropFinalEmpty [first] = [first] := by
      rw [dropFinalEmpty, if_neg]
      rw [List.getLast?_singleton, whole]
      exact fun empty => nonempty (Option.some.inj empty)
    rw [kept]
    rfl
  | cons second more =>
    have drop : ∀ piece : Text, dropFinalEmpty (piece :: second :: more) =
        piece :: dropFinalEmpty (second :: more) := fun piece =>
      dropFinalEmpty_append [piece] (second :: more) (List.cons_ne_nil _ _)
    rw [drop, drop, List.length_cons, List.length_cons]

theorem unifyLineEnds_plain {c : Char} (plain : c ≠ '\r') (text : Text) :
    unifyLineEnds (c :: text) = c :: unifyLineEnds text := by
  cases text with
  | nil => simp [unifyLineEnds]
  | cons d rest => simp [unifyLineEnds, plain]

theorem unifyLineEnds_carriage {text : Text} (alone : text.head? ≠ some '\n') :
    unifyLineEnds ('\r' :: text) = '\n' :: unifyLineEnds text := by
  cases text with
  | nil => rfl
  | cons d rest =>
    have other : d ≠ '\n' := by simpa using alone
    simp [unifyLineEnds, other]

theorem unifyLineEnds_ne_nil (c : Char) (text : Text) : unifyLineEnds (c :: text) ≠ [] := by
  by_cases carriage : c = '\r'
  · subst carriage
    cases text with
    | nil => simp [unifyLineEnds]
    | cons d rest => by_cases feed : d = '\n' <;> simp [unifyLineEnds, feed]
  · rw [unifyLineEnds_plain carriage]
    exact List.cons_ne_nil _ _

/-- Behind its first character a text has the lines that begin there. The induction is on the
text behind the character. -/
theorem lineCount_cons (previous : Char) (text : Text) :
    lineCount (previous :: text) = linesBegun previous text + 1 := by
  induction text generalizing previous with
  | nil =>
    by_cases carriage : previous = '\r'
    · subst carriage
      rfl
    · by_cases feed : previous = '\n'
      · subst feed
        rfl
      · simp [lineCount, unifyLineEnds_plain carriage, unifyLineEnds, lines, pieces,
          List.splitOn_cons_eq_if_modifyHead, feed, dropFinalEmpty, linesBegun]
  | cons c rest inductionHypothesis =>
    have behind : lineCount (c :: rest) = linesBegun c rest + 1 := inductionHypothesis c
    by_cases feed : previous = '\n'
    · subst feed
      have begins : Begins '\n' c := .inl rfl
      rw [lineCount, unifyLineEnds_plain (by decide), lines_feed, List.length_cons, ← lineCount,
        behind, linesBegun, if_pos begins]
      omega
    by_cases carriage : previous = '\r'
    · subst carriage
      by_cases both : c = '\n'
      · subst both
        have none : ¬Begins '\r' '\n' := by decide
        have one : lineCount ('\r' :: '\n' :: rest) = lineCount ('\n' :: rest) := by
          rw [lineCount, lineCount, unifyLineEnds_plain (by decide : '\n' ≠ '\r')]
          rfl
        rw [one, behind, linesBegun, if_neg none, Nat.zero_add]
      · have begins : Begins '\r' c := .inr ⟨rfl, both⟩
        rw [lineCount, unifyLineEnds_carriage (by simpa using both), lines_feed, List.length_cons,
          ← lineCount, behind, linesBegun, if_pos begins]
        omega
    · have none : ¬Begins previous c := by
        rintro (isFeed | ⟨isCarriage, -⟩)
        · exact feed isFeed
        · exact carriage isCarriage
      rw [lineCount, unifyLineEnds_plain carriage,
        lines_length_cons feed (unifyLineEnds_ne_nil c rest), ← lineCount, behind, linesBegun,
        if_neg none, Nat.zero_add]

/-- The lines of a text are those that begin in it, if the first character begins one. -/
theorem lineCount_eq (text : Text) : lineCount text = linesBegun '\n' text := by
  cases text with
  | nil => rfl
  | cons c rest =>
    have begins : Begins '\n' c := .inl rfl
    rw [lineCount_cons, linesBegun, if_pos begins, Nat.add_comm]

/-- The lines that begin in two texts, one behind the other. -/
theorem linesBegun_append (previous : Char) (front back : Text) :
    linesBegun previous (front ++ back) =
      linesBegun previous front + linesBegun (front.getLastD previous) back := by
  induction front generalizing previous with
  | nil => simp [linesBegun]
  | cons c rest inductionHypothesis =>
    rw [List.cons_append, linesBegun, inductionHypothesis, linesBegun, List.getLastD_cons]
    omega

/-- Where a line has ended, the lines before and behind add up. -/
theorem lineCount_append {front back : Text}
    (ended : front.getLast? = some '\n' ∨ front.getLast? = some '\r' ∧ back.head? ≠ some '\n') :
    lineCount (front ++ back) = lineCount front + lineCount back := by
  rw [lineCount_eq, lineCount_eq, lineCount_eq, linesBegun_append]
  congr 1
  cases back with
  | nil => rfl
  | cons c rest =>
    have same : Begins (front.getLastD '\n') c ↔ Begins '\n' c := by
      rw [List.getLastD_eq_getLast?]
      rcases ended with feed | ⟨carriage, alone⟩
      · simp [feed]
      · have other : c ≠ '\n' := by simpa using alone
        simp [carriage, Begins, other]
    simp only [linesBegun, same]

end Manuscript.Text
