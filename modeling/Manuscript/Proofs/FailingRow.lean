import Mathlib.Algebra.GroupWithZero.Nat
import Manuscript.Proofs.AcceptedTable

/-!
# The line of a failing row

A table that is refused for one of its records is refused with a line: the one on which that
record ends, counted in the file as it is, with the line ends within quotes and the empty lines.
It is the sum of the lines of the passages up to the record. So what stands behind the record does
not matter to it, and an empty line more before the record moves it by one.
-/

namespace Manuscript.Table

/-- Reading a table is refused for a row with these issues, on this line. -/
def Refused (start : Workspace) (path : Path) (issues : List Issue) (line : Nat) : Prop :=
  ((read path).outcome start).1 = .error (.table path (.invalidRow issues line))

section Lines

variable {delimiter : Char}

/-- A line end at the end of a text ends a line there, whatever follows it. -/
theorem LineEnding.lineCount_append {ending rest : Text} (ends : LineEnding ending rest)
    (text : Text) :
    Text.lineCount (text ++ (ending ++ rest)) =
      Text.lineCount (text ++ ending) + Text.lineCount rest := by
  rw [← List.append_assoc]
  apply Text.lineCount_append
  cases ends with
  | feed => simp
  | both => simp
  | carriage _ alone => exact .inr ⟨by simp, alone⟩

/-- The lines of a text are those of its passages. -/
theorem TableText.lineCount_eq {passages : List Passage} {text : Text}
    (division : TableText delimiter passages text) :
    text.lineCount = (passages.map fun passage => passage.text.lineCount).sum := by
  induction division with
  | none => rfl
  | last _ cells text => simp [Passage.text]
  | line cells text ending passages rest _ ends _ inductionHypothesis =>
    rw [ends.lineCount_append, inductionHypothesis, List.map_cons, List.sum_cons, Passage.text]

/-- The end of a record is on the line that its line end ends. -/
theorem TableText.lineCount_record (delimits : Delimits delimiter) {earlier later : List Passage}
    {passage : Passage} {text : Text}
    (division : TableText delimiter (earlier ++ passage :: later) text)
    (filled : passage.cells ≠ []) (front : Text) :
    Text.lineCount (front ++ passage.text) = Text.lineCount (front ++ passage.record) := by
  have parts := division.passage
  obtain ⟨cells, record, ending⟩ := passage
  dsimp only [Passage.text] at parts filled ⊢
  rcases parts with ⟨-, rfl, -⟩ | ⟨ends, line⟩
  · rw [List.append_nil]
  obtain ⟨c, last⟩ :=
    Option.isSome_iff_exists.mp (List.getLast?_isSome.mpr (line.text_ne_nil filled))
  have plain : c ≠ '\r' ∧ c ≠ '\n' := by
    constructor
    · rintro rfl
      exact line.last_ne delimits (.inl rfl) last
    · rintro rfl
      exact line.last_ne delimits (.inr rfl) last
  have behind : (front ++ record).getLastD '\n' = c := by
    rw [List.getLastD_eq_getLast?, List.getLast?_append, last]
    rfl
  have none : Text.linesBegun c ending = 0 := by
    cases ends <;> simp [Text.linesBegun, Text.Begins, plain]
  rw [← List.append_assoc, Text.lineCount_eq, Text.lineCount_eq, Text.linesBegun_append, behind,
    none, Nat.add_zero]

/-- An empty line is one line. -/
theorem TableText.lineCount_blank {earlier later : List Passage} {ending text : Text}
    (division : TableText delimiter (earlier ++ ⟨[], [], ending⟩ :: later) text)
    (more : later ≠ []) : Text.lineCount ending = 1 := by
  rcases division.passage with ⟨final, -⟩ | ⟨ends, -⟩
  · exact absurd final more
  · generalize later.flatMap Passage.text = rest at ends
    cases ends <;> decide

/-- The lines up to the end of a record are those of the passages up to it. -/
theorem TableText.lineCount_upTo (delimits : Delimits delimiter) {earlier later : List Passage}
    {passage : Passage} {text : Text}
    (division : TableText delimiter (earlier ++ passage :: later) text)
    (filled : passage.cells ≠ []) :
    Text.lineCount (earlier.flatMap Passage.text ++ passage.record) =
      (earlier.map fun before => before.text.lineCount).sum + passage.text.lineCount := by
  have front : TableText delimiter (earlier ++ [passage])
      ((earlier ++ [passage]).flatMap Passage.text) := by
    have parts : TableText delimiter (earlier ++ [passage] ++ later) text := by
      rwa [List.append_assoc]
    exact parts.front
  have counted := front.lineCount_eq
  rw [List.flatMap_append, List.flatMap_singleton] at counted
  rw [← division.lineCount_record delimits filled, counted]
  simp

end Lines

section Refusing

variable {path : Path} {start : Workspace} {content : Text} {first failing : Passage}
  {before after : List Passage} {issues : List Issue}

/-- The lines up to the end of a record below the header, with its line end or without. -/
theorem upTo_record {text : Text}
    (division : TableText (delimiter path) (first :: (before ++ failing :: after)) text)
    (filled : failing.cells ≠ []) :
    Text.lineCount ((first :: (before ++ [failing])).flatMap Passage.text) =
      Text.lineCount ((first :: before).flatMap Passage.text ++ failing.record) := by
  have parts : TableText (delimiter path) (first :: before ++ failing :: after) text := division
  rw [← parts.lineCount_record (delimiter_delimits path) filled]
  simp

/-- A table is refused for the first record that makes no row, with the lines up to its end. -/
theorem refused_of_failsAt (stored : start.store.read path = .ok (Utf8.encode content))
    (division : TableText (delimiter path) (first :: (before ++ failing :: after))
      (Text.dropMark content))
    (limited : Limited (first :: (before ++ failing :: after))) (headed : Headed [first])
    (fails : FailsAt first.cells before failing) (wrong : Wrong first.cells failing.cells issues) :
    Refused start path issues
      (Text.lineCount ((first :: before).flatMap Passage.text ++ failing.record)) := by
  obtain ⟨log, ended⟩ := outcome_read_content stored division limited
  rw [Refused, ended, rulesOfTable_error_iff, ← upTo_record division fails.nonempty]
  exact .inr ⟨headed, before, failing, after, issues, rfl, fails, wrong, rfl⟩

/-- A table that is refused for a row has a first record that makes none. -/
theorem failsAt_of_refused {passages : List Passage} {line : Nat}
    (stored : start.store.read path = .ok (Utf8.encode content))
    (division : TableText (delimiter path) passages (Text.dropMark content))
    (limited : Limited passages) (refused : Refused start path issues line) :
    ∃ first before failing after, passages = first :: (before ++ failing :: after) ∧
      Headed [first] ∧ FailsAt first.cells before failing ∧
      Wrong first.cells failing.cells issues ∧
      line = Text.lineCount ((first :: before).flatMap Passage.text ++ failing.record) := by
  obtain ⟨log, ended⟩ := outcome_read_content stored division limited
  rw [Refused, ended] at refused
  rcases rulesOfTable_error_iff.mp refused with ⟨-, missing⟩ |
    ⟨headed, before, failing, after, found, split, fails, wrong, same⟩
  · cases missing
  cases passages with
  | nil => simp at split
  | cons first rest =>
    obtain rfl : rest = before ++ failing :: after := split
    cases same
    exact ⟨first, before, failing, after, rfl, headed, fails, wrong,
      upTo_record division fails.nonempty⟩

/-- A closed record that makes no row is where the table is refused, whatever follows it. -/
theorem refused_followed {text tail : Text}
    (stored : start.store.read path = .ok (Utf8.encode content))
    (division : TableText (delimiter path) (first :: (before ++ failing :: after)) text)
    (headed : Headed [first]) (fails : FailsAt first.cells before failing)
    (wrong : Wrong first.cells failing.cells issues)
    (closed : LineText (delimiter path) false failing.cells failing.record)
    (ends : EndsLine tail)
    (same : Text.dropMark content =
      (first :: before).flatMap Passage.text ++ (failing.record ++ tail))
    (limited : ∀ passages, TableText (delimiter path) passages (Text.dropMark content) →
      Limited passages) :
    Refused start path issues
      (Text.lineCount ((first :: before).flatMap Passage.text ++ failing.record)) := by
  have nonempty : failing.record ≠ [] := closed.text_ne_nil fails.nonempty
  obtain ⟨ending, later, behind⟩ := closed.followed nonempty ends
  have head : (failing.record ++ tail).head? = some '\n' →
      ((failing :: after).flatMap Passage.text).head? = some '\n' := by
    obtain ⟨c, rest, begins⟩ := List.exists_cons_of_ne_nil nonempty
    simp [Passage.text, begins]
  have parts : TableText (delimiter path) (first :: before ++ failing :: after) text := division
  have whole := parts.exchange (List.cons_ne_nil failing after) behind head
  rw [← same] at whole
  have failsToo : FailsAt first.cells before ⟨failing.cells, failing.record, ending⟩ :=
    ⟨fails.passing, fails.nonempty, fails.refused⟩
  have refused := refused_of_failsAt stored whole (limited _ whole) headed failsToo wrong
  exact refused

/-- With an empty line more between its header and the record that makes no row, a table is refused
one line later. -/
theorem refused_later {earlier later : List Passage} {ending text : Text}
    (stored : start.store.read path = .ok (Utf8.encode content))
    (division : TableText (delimiter path) (first :: (earlier ++ later ++ failing :: after)) text)
    (limited : Limited (first :: (earlier ++ later ++ failing :: after)))
    (headed : Headed [first]) (fails : FailsAt first.cells (earlier ++ later) failing)
    (wrong : Wrong first.cells failing.cells issues)
    (inserted : TableText (delimiter path)
      (first :: (earlier ++ ⟨[], [], ending⟩ :: later ++ failing :: after))
      (Text.dropMark content)) :
    Refused start path issues
      (Text.lineCount
        ((first :: (earlier ++ later)).flatMap Passage.text ++ failing.record) + 1) := by
  have blankLine : Text.lineCount ending = 1 := by
    have parts : TableText (delimiter path)
        (first :: earlier ++ ⟨[], [], ending⟩ :: (later ++ failing :: after))
        (Text.dropMark content) := by
      simpa using inserted
    exact parts.lineCount_blank (by simp)
  have limitedToo :
      Limited (first :: (earlier ++ ⟨[], [], ending⟩ :: later ++ failing :: after)) := by
    simpa [Limited, or_imp, forall_and] using limited
  have failsToo : FailsAt first.cells (earlier ++ ⟨[], [], ending⟩ :: later) failing := by
    refine ⟨?_, fails.nonempty, fails.refused⟩
    simpa [or_imp, forall_and] using fails.passing
  have refused := refused_of_failsAt stored inserted limitedToo headed failsToo wrong
  have parts : TableText (delimiter path) (first :: (earlier ++ later) ++ failing :: after) text :=
    division
  have partsToo : TableText (delimiter path)
      (first :: (earlier ++ ⟨[], [], ending⟩ :: later) ++ failing :: after)
      (Text.dropMark content) := inserted
  have moved : Text.lineCount
        ((first :: (earlier ++ ⟨[], [], ending⟩ :: later)).flatMap Passage.text ++ failing.record) =
      Text.lineCount
        ((first :: (earlier ++ later)).flatMap Passage.text ++ failing.record) + 1 := by
    rw [parts.lineCount_upTo (delimiter_delimits path) fails.nonempty,
      partsToo.lineCount_upTo (delimiter_delimits path) fails.nonempty]
    simp only [List.map_cons, List.map_append, List.sum_cons, List.sum_append, Passage.text,
      List.nil_append, blankLine]
    omega
  rwa [moved] at refused

end Refusing

/-- A table that is refused for a row has a first record that makes none, and the line is the one
on which that record ends. It is the same in every table that goes on differently behind the
record, and one more with an empty line more anywhere between the header and the record. -/
theorem read_failing_line (path : Path) (start : Workspace) (content : Text)
    (issues : List Issue) (line : Nat)
    (stored : start.store.read path = .ok (Utf8.encode content))
    (refused : Refused start path issues line) :
    ∃ passages, (∀ others, TableText (delimiter path) others (Text.dropMark content) ↔
        others = passages) ∧
      (Limited passages → ∃ first before failing after,
        passages = first :: (before ++ failing :: after) ∧
        FailsAt first.cells before failing ∧
        line = Text.lineCount ((first :: before).flatMap Passage.text ++ failing.record) ∧
        (∀ other otherPath otherContent tail,
          other.store.read otherPath = .ok (Utf8.encode otherContent) →
          delimiter otherPath = delimiter path →
          Text.dropMark otherContent =
            (first :: before).flatMap Passage.text ++ (failing.record ++ tail) →
          LineText (delimiter path) false failing.cells failing.record → EndsLine tail →
          (∀ others, TableText (delimiter path) others (Text.dropMark otherContent) →
            Limited others) →
          Refused other otherPath issues line) ∧
        (∀ other otherPath otherContent earlier later ending,
          other.store.read otherPath = .ok (Utf8.encode otherContent) →
          delimiter otherPath = delimiter path → before = earlier ++ later →
          TableText (delimiter path)
            (first :: (earlier ++ ⟨[], [], ending⟩ :: later ++ failing :: after))
            (Text.dropMark otherContent) →
          Refused other otherPath issues (line + 1))) := by
  obtain ⟨passages, unique⟩ :=
    tableText_exists_unique (delimiter_delimits path) (Text.dropMark content)
  refine ⟨passages, unique, fun limited => ?_⟩
  have division := (unique passages).mpr rfl
  obtain ⟨first, before, failing, after, rfl, headed, fails, wrong, rfl⟩ :=
    failsAt_of_refused stored division limited refused
  refine ⟨first, before, failing, after, rfl, fails, rfl, ?_, ?_⟩
  · intro other otherPath otherContent tail storedToo alike same closed ends limitedToo
    rw [← alike] at division closed limitedToo
    exact refused_followed storedToo division headed fails wrong closed ends same limitedToo
  · rintro other otherPath otherContent earlier later ending storedToo alike rfl inserted
    rw [← alike] at division inserted
    exact refused_later storedToo division limited headed fails wrong inserted

/-- The torn table is refused on its sixth line, where its last record ends. -/
theorem torn_line :
    ∃ issues first before failing after, Refused tornStart samplePath issues 6 ∧
      tornPassages = first :: (before ++ failing :: after) ∧ FailsAt first.cells before failing ∧
      6 = Text.lineCount ((first :: before).flatMap Passage.text ++ failing.record) := by
  have stored : tornStart.store.read samplePath = .ok (Utf8.encode ('\uFEFF' :: tornText)) := by
    decide +kernel
  have refused : Refused tornStart samplePath
      [⟨[Row.modeColumn], "Input should be 'Word' or 'Anywhere'"⟩] 6 := by
    unfold Refused
    decide +kernel
  obtain ⟨passages, unique, failing⟩ :=
    read_failing_line samplePath tornStart _ _ 6 stored refused
  obtain rfl := (unique tornPassages).mp torn_division
  obtain ⟨first, before, failing, after, split, fails, line, -⟩ := failing (by decide)
  exact ⟨_, first, before, failing, after, refused, split, fails, line⟩

end Manuscript.Table
