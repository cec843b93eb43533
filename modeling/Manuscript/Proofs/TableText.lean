import Manuscript.Table.Record

/-!
# The records of a text

Every text is the text of a table. Its lines end in a line feed, a carriage return or both, and
the last one perhaps in nothing; a line holds a record, whose cells have delimiters between
them. A cell is bare or quoted. A quoted cell may go over several lines, it may be followed by
characters that belong to it, and if its quotes are never closed it goes to the end of the text.
An empty line holds a record without cells.

There is exactly one way to divide a text like this. Where a cell ends is decided by the first
character that is no part of it, and where quotes end by the first one that stands alone; so of
two divisions the first cells agree, then the first records, and then all that follows them.
-/

namespace Manuscript.Table

/-- Write every double quote twice. -/
def doubled (cell : Text) : Text := cell.flatMap fun c => if c = '"' then ['"', '"'] else [c]

/-- A delimiter is none of the characters that quote cells and end lines. -/
structure Delimits (delimiter : Char) : Prop where
  quote : delimiter ≠ '"'
  carriage : delimiter ≠ '\r'
  feed : delimiter ≠ '\n'

/-- A character that outside quotes belongs to a cell. -/
def Inner (delimiter c : Char) : Prop := c ≠ delimiter ∧ c ≠ '\r' ∧ c ≠ '\n'

instance (delimiter c : Char) : Decidable (Inner delimiter c) :=
  inferInstanceAs (Decidable (c ≠ delimiter ∧ c ≠ '\r' ∧ c ≠ '\n'))

/-- The cells that a text stands for. The flag tells that quotes are still open at its end. -/
inductive CellText (delimiter : Char) : Bool → Text → Text → Prop where
  | bare (cell : Text) (inner : ∀ c ∈ cell, Inner delimiter c) (unquoted : cell.head? ≠ some '"') :
      CellText delimiter false cell cell
  | quoted (body tail : Text) (inner : ∀ c ∈ tail, Inner delimiter c)
      (closed : tail.head? ≠ some '"') :
      CellText delimiter false (body ++ tail) ('"' :: (doubled body ++ '"' :: tail))
  | unclosed (body : Text) : CellText delimiter true body ('"' :: doubled body)

/-- The rows of cells that a text stands for. Only the last cell may be open at its end. -/
inductive RowText (delimiter : Char) (unclosed : Bool) : List Text → Text → Prop where
  | last (cell text : Text) (only : CellText delimiter unclosed cell text) :
      RowText delimiter unclosed [cell] text
  | next (cell text : Text) (cells : List Text) (more : Text)
      (first : CellText delimiter false cell text)
      (others : RowText delimiter unclosed cells more) :
      RowText delimiter unclosed (cell :: cells) (text ++ delimiter :: more)

/-- The records that the text of a line stands for: none of it is a record without cells. -/
inductive LineText (delimiter : Char) : Bool → List Text → Text → Prop where
  | blank : LineText delimiter false [] []
  | row (unclosed : Bool) (cells : List Text) (text : Text) (nonempty : text ≠ [])
      (row : RowText delimiter unclosed cells text) : LineText delimiter unclosed cells text

/-- The line ends, each with what may follow it. A carriage return before a line feed ends a
line only together with it. -/
inductive LineEnding : Text → Text → Prop where
  | feed (rest : Text) : LineEnding ['\n'] rest
  | both (rest : Text) : LineEnding ['\r', '\n'] rest
  | carriage (rest : Text) (alone : rest.head? ≠ some '\n') : LineEnding ['\r'] rest

/-- The cells of a record, the text of the record, and the line end behind it. -/
structure Passage where
  cells : List Text
  record : Text
  ending : Text
deriving DecidableEq, Repr

/-- All of the text that a passage takes up. -/
def Passage.text (passage : Passage) : Text := passage.record ++ passage.ending

/-- The passages of a text. -/
inductive TableText (delimiter : Char) : List Passage → Text → Prop where
  | none : TableText delimiter [] []
  | last (unclosed : Bool) (cells : List Text) (text : Text) (nonempty : text ≠ [])
      (line : LineText delimiter unclosed cells text) :
      TableText delimiter [⟨cells, text, []⟩] text
  | line (cells : List Text) (text ending : Text) (passages : List Passage) (rest : Text)
      (line : LineText delimiter false cells text) (ends : LineEnding ending rest)
      (others : TableText delimiter passages rest) :
      TableText delimiter (⟨cells, text, ending⟩ :: passages) (text ++ (ending ++ rest))

/-- A text is what its passages take up. -/
theorem TableText.joined {delimiter : Char} {passages : List Passage} {text : Text}
    (division : TableText delimiter passages text) : text = passages.flatMap Passage.text := by
  induction division with
  | none => rfl
  | last _ cells text => simp [Passage.text]
  | line cells text ending passages rest _ _ _ inductionHypothesis =>
    rw [List.flatMap_cons, ← inductionHypothesis, Passage.text, List.append_assoc]

/-- A row has a cell. -/
theorem RowText.cells_ne_nil {delimiter : Char} {unclosed : Bool} {cells : List Text} {text : Text}
    (row : RowText delimiter unclosed cells text) : cells ≠ [] := by
  cases row <;> exact List.cons_ne_nil _ _

/-- The text behind a cell: it is empty, or it begins with a character that is no part of it. -/
def EndsCell (delimiter : Char) (rest : Text) : Prop := ∀ c ∈ rest.head?, ¬Inner delimiter c

/-- The text behind a line: it is empty, or it begins with a line end. -/
def EndsLine (rest : Text) : Prop := ∀ c ∈ rest.head?, c = '\r' ∨ c = '\n'

theorem endsLine_nil : EndsLine [] := by
  intro c found
  cases found

/-- What ends a line ends a cell too. -/
theorem EndsLine.endsCell {rest : Text} (ends : EndsLine rest) (delimiter : Char) :
    EndsCell delimiter rest := by
  intro c found inner
  rcases ends c found with carriage | feed
  · exact inner.2.1 carriage
  · exact inner.2.2 feed

/-- A line end begins with a character that ends lines. -/
theorem LineEnding.endsLine {ending rest : Text} (ends : LineEnding ending rest) (more : Text) :
    EndsLine (ending ++ more) := by
  cases ends with
  | feed => exact fun c found => .inr (Option.some.inj found).symm
  | both => exact fun c found => .inl (Option.some.inj found).symm
  | carriage => exact fun c found => .inl (Option.some.inj found).symm

theorem LineEnding.ne_nil {ending rest : Text} (ends : LineEnding ending rest) : ending ≠ [] := by
  cases ends <;> exact List.cons_ne_nil _ _

/-- A quote is part of a cell outside quotes, so it ends none. -/
theorem EndsCell.head_ne_quote {delimiter : Char} (delimits : Delimits delimiter) {rest : Text}
    (ends : EndsCell delimiter rest) : rest.head? ≠ some '"' := fun found =>
  ends '"' found ⟨delimits.quote.symm, by decide, by decide⟩

/-- A delimiter ends a cell, but no line. -/
theorem endsCell_delimiter (delimiter : Char) (rest : Text) :
    EndsCell delimiter (delimiter :: rest) := by
  intro c found inner
  exact inner.1 (Option.some.inj found).symm

theorem Delimits.not_endsLine {delimiter : Char} (delimits : Delimits delimiter) (rest : Text) :
    ¬EndsLine (delimiter :: rest) := fun ends =>
  (ends delimiter rfl).elim delimits.carriage delimits.feed

/-- The text behind doubled quotes: it is empty, or it begins with a quote that stands alone. -/
def EndsQuotes (rest : Text) : Prop :=
  rest = [] ∨ ∃ tail, rest = '"' :: tail ∧ tail.head? ≠ some '"'

theorem doubled_cons_quote (cell : Text) : doubled ('"' :: cell) = '"' :: '"' :: doubled cell := rfl

theorem doubled_cons {c : Char} (plain : c ≠ '"') (cell : Text) :
    doubled (c :: cell) = c :: doubled cell := by
  simp [doubled, plain]

/-- A closed cell does not end in a character that ends lines. -/
theorem CellText.last_ne {delimiter c : Char} (ends : c = '\r' ∨ c = '\n') {cell text : Text}
    (written : CellText delimiter false cell text) : text.getLast? ≠ some c := by
  have outside : ¬Inner delimiter c := fun inner => ends.elim inner.2.1 inner.2.2
  cases written with
  | bare _ inside => exact fun found => outside (inside c (List.mem_of_getLast? found))
  | quoted body tail inside =>
    rw [← List.cons_append, List.getLast?_append, List.getLast?_cons]
    intro found
    have last : tail.getLast?.getD '"' = c := by simpa using found
    cases shape : tail.getLast? with
    | none =>
      rw [shape] at last
      rcases ends with rfl | rfl <;> cases last
    | some d =>
      obtain rfl : d = c := by simpa [shape] using last
      exact outside (inside d (List.mem_of_getLast? shape))

/-- A closed row does not end in a character that ends lines. -/
theorem RowText.last_ne {delimiter c : Char} (delimits : Delimits delimiter)
    (ends : c = '\r' ∨ c = '\n') {cells : List Text} {text : Text}
    (row : RowText delimiter false cells text) : text.getLast? ≠ some c := by
  induction row with
  | last cell text only => exact only.last_ne ends
  | next cell text others more first row inductionHypothesis =>
    rw [List.getLast?_append, List.getLast?_cons]
    cases last : more.getLast? with
    | none =>
      have other : delimiter ≠ c := by
        rcases ends with rfl | rfl
        · exact delimits.carriage
        · exact delimits.feed
      simpa using other
    | some d =>
      rw [last] at inductionHypothesis
      simpa using inductionHypothesis

/-- A closed record does not end in a character that ends lines, so a line feed behind it begins no
line end that it is part of. -/
theorem LineText.last_ne {delimiter c : Char} (delimits : Delimits delimiter)
    (ends : c = '\r' ∨ c = '\n') {cells : List Text} {text : Text}
    (line : LineText delimiter false cells text) : text.getLast? ≠ some c := by
  cases line with
  | blank => exact nofun
  | row _ _ _ _ row => exact row.last_ne delimits ends

section Existence

variable (delimiter : Char)

/-- Every text begins with characters that belong to a cell, up to one that does not. -/
theorem inner_split (text : Text) :
    ∃ front rest, text = front ++ rest ∧ (∀ c ∈ front, Inner delimiter c) ∧
      EndsCell delimiter rest ∧ ∀ c ∈ front.head?, c ∈ text.head? := by
  induction text with
  | nil => exact ⟨[], [], rfl, by simp, by simp [EndsCell], by simp⟩
  | cons c text inductionHypothesis =>
    by_cases inner : Inner delimiter c
    · obtain ⟨front, rest, rfl, inside, ends, -⟩ := inductionHypothesis
      exact ⟨c :: front, rest, rfl, List.forall_mem_cons.mpr ⟨inner, inside⟩, ends, by simp⟩
    · exact ⟨[], c :: text, rfl, by simp, by simpa [EndsCell] using inner, by simp⟩

/-- Behind an opening quote, quotes are doubled up to one that stands alone, or to the end. -/
theorem doubled_split (text : Text) :
    ∃ body rest, text = doubled body ++ rest ∧ EndsQuotes rest := by
  induction size : text.length using Nat.strongRecOn generalizing text with
  | _ size inductionHypothesis =>
    match text with
    | [] => exact ⟨[], [], rfl, .inl rfl⟩
    | c :: rest =>
      rw [List.length_cons] at size
      by_cases doubledQuote : c = '"' ∧ rest.head? = some '"'
      · obtain ⟨rfl, second⟩ := doubledQuote
        obtain ⟨more, rfl⟩ := List.head?_eq_some_iff.mp second
        rw [List.length_cons] at size
        obtain ⟨body, behind, rfl, ends⟩ := inductionHypothesis more.length (by omega) more rfl
        exact ⟨'"' :: body, behind, rfl, ends⟩
      · by_cases quote : c = '"'
        · subst quote
          exact ⟨[], '"' :: rest, rfl, .inr ⟨rest, rfl, fun second => doubledQuote ⟨rfl, second⟩⟩⟩
        · obtain ⟨body, behind, rfl, ends⟩ := inductionHypothesis rest.length (by omega) rest rfl
          exact ⟨c :: body, behind, by rw [doubled_cons quote, List.cons_append], ends⟩

/-- Every text begins with a cell, which is open only if it is the whole text. -/
theorem cell_exists (text : Text) :
    ∃ unclosed cell written rest, text = written ++ rest ∧
      CellText delimiter unclosed cell written ∧ EndsCell delimiter rest ∧
      (unclosed = true → rest = []) := by
  by_cases quoted : text.head? = some '"'
  · obtain ⟨behind, rfl⟩ := List.head?_eq_some_iff.mp quoted
    obtain ⟨body, others, rfl, ends⟩ := doubled_split behind
    rcases ends with rfl | ⟨tail, rfl, closed⟩
    · exact ⟨true, body, '"' :: doubled body, [], by simp, .unclosed body, by simp [EndsCell],
        fun _ => rfl⟩
    · obtain ⟨front, rest, rfl, inside, ends, begins⟩ := inner_split delimiter tail
      refine ⟨false, body ++ front, _, rest, ?_, .quoted body front inside ?_, ends, nofun⟩
      · simp
      · exact fun found => closed (begins '"' found)
  · obtain ⟨front, rest, rfl, inside, ends, begins⟩ := inner_split delimiter text
    exact ⟨false, front, front, rest, rfl,
      .bare front inside fun found => quoted (begins '"' found), ends, nofun⟩

/-- Every text begins with a row of cells up to a line end, which is open only if it is the whole
text. -/
theorem row_exists (text : Text) :
    ∃ unclosed cells written rest, text = written ++ rest ∧
      RowText delimiter unclosed cells written ∧ EndsLine rest ∧
      (unclosed = true → rest = []) := by
  induction size : text.length using Nat.strongRecOn generalizing text with
  | _ size inductionHypothesis =>
    obtain ⟨unclosed, cell, written, rest, rfl, only, ends, whole⟩ := cell_exists delimiter text
    cases rest with
    | nil => exact ⟨unclosed, [cell], written, [], rfl, .last _ _ only, endsLine_nil, whole⟩
    | cons c more =>
      by_cases separates : c = delimiter
      · subst separates
        rw [List.length_append, List.length_cons] at size
        obtain ⟨open_, cells, later, behind, rfl, row, endsBehind, wholeBehind⟩ :=
          inductionHypothesis more.length (by omega) more rfl
        cases unclosed with
        | true => cases whole rfl
        | false =>
          exact ⟨open_, cell :: cells, written ++ c :: later, behind, by simp,
            .next _ _ _ _ only row, endsBehind, wholeBehind⟩
      · refine ⟨unclosed, [cell], written, c :: more, rfl, .last _ _ only, ?_, whole⟩
        intro other found
        obtain rfl : c = other := Option.some.inj found
        have outside : ¬Inner delimiter c := ends c rfl
        exact Decidable.byContradiction fun neither => outside ⟨separates, not_or.mp neither⟩

/-- What begins with a line end is a line end and what may follow it. -/
theorem lineEnding_exists {rest : Text} (nonempty : rest ≠ []) (ends : EndsLine rest) :
    ∃ ending more, rest = ending ++ more ∧ LineEnding ending more := by
  obtain ⟨c, more, rfl⟩ := List.exists_cons_of_ne_nil nonempty
  rcases ends c rfl with rfl | rfl
  · by_cases followed : more.head? = some '\n'
    · obtain ⟨behind, rfl⟩ := List.head?_eq_some_iff.mp followed
      exact ⟨['\r', '\n'], behind, rfl, .both behind⟩
    · exact ⟨['\r'], more, rfl, .carriage more followed⟩
  · exact ⟨['\n'], more, rfl, .feed more⟩

/-- Every text is divided into passages. -/
theorem tableText_exists (text : Text) : ∃ passages, TableText delimiter passages text := by
  induction size : text.length using Nat.strongRecOn generalizing text with
  | _ size inductionHypothesis =>
    by_cases empty : text = []
    · exact ⟨[], empty ▸ .none⟩
    obtain ⟨unclosed, cells, written, rest, rfl, row, ends, whole⟩ := row_exists delimiter text
    by_cases final : rest = []
    · subst final
      rw [List.append_nil] at empty ⊢
      exact ⟨_, .last unclosed cells written empty (.row _ _ _ empty row)⟩
    · obtain rfl : unclosed = false := by
        cases unclosed with
        | true => exact absurd (whole rfl) final
        | false => rfl
      obtain ⟨ending, more, rfl, lineEnds⟩ := lineEnding_exists final ends
      have positive : 0 < ending.length := List.length_pos_iff.mpr lineEnds.ne_nil
      rw [List.length_append, List.length_append] at size
      obtain ⟨passages, others⟩ := inductionHypothesis more.length (by omega) more rfl
      by_cases blank : written = []
      · subst blank
        exact ⟨_, .line [] [] ending passages more .blank lineEnds others⟩
      · exact ⟨_, .line cells written ending passages more (.row _ _ _ blank row) lineEnds others⟩

end Existence

section Uniqueness

variable {delimiter : Char}

/-- Two ways to go on up to the end of a cell are the same. -/
theorem inner_unique {front other rest behind : Text} (inside : ∀ c ∈ front, Inner delimiter c)
    (otherInside : ∀ c ∈ other, Inner delimiter c) (ends : EndsCell delimiter rest)
    (otherEnds : EndsCell delimiter behind) (same : front ++ rest = other ++ behind) :
    front = other ∧ rest = behind := by
  induction front generalizing other with
  | nil =>
    cases other with
    | nil => exact ⟨rfl, same⟩
    | cons d others =>
      obtain rfl : rest = d :: (others ++ behind) := same
      exact absurd (otherInside d List.mem_cons_self) (ends d rfl)
  | cons c front inductionHypothesis =>
    cases other with
    | nil =>
      obtain rfl : c :: (front ++ rest) = behind := same
      exact absurd (inside c List.mem_cons_self) (otherEnds c rfl)
    | cons d others =>
      obtain ⟨rfl, tail⟩ := List.cons.inj same
      obtain ⟨rfl, rfl⟩ := inductionHypothesis
        (fun e member => inside e (List.mem_cons_of_mem c member))
        (fun e member => otherInside e (List.mem_cons_of_mem c member)) tail
      exact ⟨rfl, rfl⟩

/-- What ends quotes goes on with no doubled text that has characters. -/
theorem EndsQuotes.not_doubled {c : Char} {cell rest : Text}
    (ends : EndsQuotes (doubled (c :: cell) ++ rest)) : False := by
  by_cases quote : c = '"'
  · subst quote
    rcases ends with empty | ⟨tail, shape, alone⟩
    · cases empty
    · obtain rfl : '"' :: (doubled cell ++ rest) = tail := (List.cons.inj shape).2
      exact alone rfl
  · rw [doubled_cons quote] at ends
    rcases ends with empty | ⟨tail, shape, -⟩
    · cases empty
    · exact quote (List.cons.inj shape).1

/-- Two ways to go on within quotes are the same. -/
theorem doubled_unique {body other rest behind : Text} (ends : EndsQuotes rest)
    (otherEnds : EndsQuotes behind) (same : doubled body ++ rest = doubled other ++ behind) :
    body = other ∧ rest = behind := by
  induction body generalizing other with
  | nil =>
    cases other with
    | nil => exact ⟨rfl, same⟩
    | cons d others =>
      obtain rfl : rest = doubled (d :: others) ++ behind := same
      exact ends.not_doubled.elim
  | cons c body inductionHypothesis =>
    cases other with
    | nil =>
      obtain rfl : doubled (c :: body) ++ rest = behind := same
      exact otherEnds.not_doubled.elim
    | cons d others =>
      have behindFirst : c = d ∧ doubled body ++ rest = doubled others ++ behind := by
        by_cases quote : c = '"' <;> by_cases otherQuote : d = '"'
        · subst quote otherQuote
          simpa [doubled_cons_quote] using same
        · subst quote
          rw [doubled_cons otherQuote] at same
          exact absurd (List.cons.inj same).1.symm otherQuote
        · subst otherQuote
          rw [doubled_cons quote] at same
          exact absurd (List.cons.inj same).1 quote
        · simpa [doubled_cons quote, doubled_cons otherQuote] using same
      obtain ⟨rfl, tail⟩ := behindFirst
      obtain ⟨rfl, rfl⟩ := inductionHypothesis tail
      exact ⟨rfl, rfl⟩

/-- A bare cell and what ends it do not begin with a quote. -/
theorem bare_head (delimits : Delimits delimiter) {cell rest : Text}
    (unquoted : cell.head? ≠ some '"') (ends : EndsCell delimiter rest) :
    (cell ++ rest).head? ≠ some '"' := by
  cases cell with
  | nil => exact ends.head_ne_quote delimits
  | cons c more => exact unquoted

/-- The quote that closes a cell stands alone before what ends the cell. -/
theorem endsQuotes_tail (delimits : Delimits delimiter) {tail rest : Text}
    (closed : tail.head? ≠ some '"') (ends : EndsCell delimiter rest) :
    EndsQuotes ('"' :: (tail ++ rest)) :=
  .inr ⟨tail ++ rest, rfl, bare_head delimits closed ends⟩

/-- A text begins with one cell only. -/
theorem cell_unique (delimits : Delimits delimiter) {unclosed otherwise : Bool}
    {cell other written another rest behind : Text}
    (first : CellText delimiter unclosed cell written)
    (second : CellText delimiter otherwise other another)
    (ends : EndsCell delimiter rest) (otherEnds : EndsCell delimiter behind)
    (whole : unclosed = true → rest = []) (otherWhole : otherwise = true → behind = [])
    (same : written ++ rest = another ++ behind) :
    cell = other ∧ written = another ∧ rest = behind := by
  cases first with
  | bare _ inside unquoted =>
    have head := bare_head delimits unquoted ends
    cases second with
    | bare _ otherInside =>
      obtain ⟨rfl, rfl⟩ := inner_unique inside otherInside ends otherEnds same
      exact ⟨rfl, rfl, rfl⟩
    | quoted => exact absurd (same ▸ rfl) head
    | unclosed => exact absurd (same ▸ rfl) head
  | quoted body tail inside closed =>
    have endsHere := endsQuotes_tail delimits closed ends
    cases second with
    | bare _ _ unquoted => exact absurd (same ▸ rfl) (bare_head delimits unquoted otherEnds)
    | quoted otherBody otherTail otherInside otherClosed =>
      simp only [List.cons_append, List.append_assoc, List.cons.injEq, true_and] at same
      obtain ⟨rfl, behindQuote⟩ :=
        doubled_unique endsHere (endsQuotes_tail delimits otherClosed otherEnds) same
      obtain ⟨rfl, rfl⟩ :=
        inner_unique inside otherInside ends otherEnds (List.cons.inj behindQuote).2
      exact ⟨rfl, rfl, rfl⟩
    | unclosed otherBody =>
      obtain rfl : behind = [] := otherWhole rfl
      simp only [List.cons_append, List.append_assoc, List.cons.injEq, true_and] at same
      cases (doubled_unique endsHere (.inl rfl) same).2
  | unclosed body =>
    obtain rfl : rest = [] := whole rfl
    cases second with
    | bare _ _ unquoted => exact absurd (same ▸ rfl) (bare_head delimits unquoted otherEnds)
    | quoted otherBody otherTail otherInside otherClosed =>
      simp only [List.cons_append, List.append_assoc, List.cons.injEq, true_and] at same
      cases (doubled_unique (.inl rfl) (endsQuotes_tail delimits otherClosed otherEnds) same).2
    | unclosed otherBody =>
      obtain rfl : behind = [] := otherWhole rfl
      simp only [List.cons_append, List.cons.injEq, true_and] at same
      obtain ⟨rfl, -⟩ := doubled_unique (.inl rfl) (.inl rfl) same
      exact ⟨rfl, rfl, rfl⟩

/-- A text begins with one row only. The induction is on the cells of the row. -/
theorem row_unique (delimits : Delimits delimiter) {unclosed otherwise : Bool}
    {cells others : List Text} {written another rest behind : Text}
    (first : RowText delimiter unclosed cells written)
    (second : RowText delimiter otherwise others another)
    (ends : EndsLine rest) (otherEnds : EndsLine behind)
    (whole : unclosed = true → rest = []) (otherWhole : otherwise = true → behind = [])
    (same : written ++ rest = another ++ behind) :
    cells = others ∧ written = another ∧ rest = behind := by
  induction first generalizing others another with
  | last cell text only =>
    cases second with
    | last other _ otherOnly =>
      obtain ⟨rfl, rfl, rfl⟩ := cell_unique delimits only otherOnly (ends.endsCell _)
        (otherEnds.endsCell _) whole otherWhole same
      exact ⟨rfl, rfl, rfl⟩
    | next other _ later more otherFirst =>
      rw [List.append_assoc] at same
      obtain ⟨-, -, rfl⟩ := cell_unique delimits only otherFirst (ends.endsCell _)
        (endsCell_delimiter _ _) whole nofun same
      exact absurd ends (delimits.not_endsLine _)
  | next cell text cells more first _ inductionHypothesis =>
    rw [List.append_assoc, List.cons_append] at same
    cases second with
    | last other _ otherOnly =>
      obtain ⟨-, -, rfl⟩ := cell_unique delimits first otherOnly (endsCell_delimiter _ _)
        (otherEnds.endsCell _) nofun otherWhole same
      exact absurd otherEnds (delimits.not_endsLine _)
    | next other _ later otherMore otherFirst otherRow =>
      rw [List.append_assoc, List.cons_append] at same
      obtain ⟨rfl, rfl, tail⟩ := cell_unique delimits first otherFirst (endsCell_delimiter _ _)
        (endsCell_delimiter _ _) nofun nofun same
      obtain ⟨rfl, rfl, rfl⟩ := inductionHypothesis otherRow (List.cons.inj tail).2
      exact ⟨rfl, rfl, rfl⟩

/-- An empty line stands for an empty cell as well, if it is taken for a row. -/
theorem LineText.asRow {unclosed : Bool} {cells : List Text} {text : Text}
    (line : LineText delimiter unclosed cells text) :
    ∃ rowCells, RowText delimiter unclosed rowCells text ∧
      cells = if text = [] then [] else rowCells := by
  cases line with
  | blank => exact ⟨[[]], .last _ _ (.bare [] (by simp) (by simp)), rfl⟩
  | row _ _ _ nonempty row => exact ⟨cells, row, (if_neg nonempty).symm⟩

/-- A text begins with one line only. -/
theorem line_unique (delimits : Delimits delimiter) {unclosed otherwise : Bool}
    {cells others : List Text} {written another rest behind : Text}
    (first : LineText delimiter unclosed cells written)
    (second : LineText delimiter otherwise others another)
    (ends : EndsLine rest) (otherEnds : EndsLine behind)
    (whole : unclosed = true → rest = []) (otherWhole : otherwise = true → behind = [])
    (same : written ++ rest = another ++ behind) :
    cells = others ∧ written = another ∧ rest = behind := by
  obtain ⟨rowCells, row, rfl⟩ := first.asRow
  obtain ⟨otherCells, otherRow, rfl⟩ := second.asRow
  obtain ⟨rfl, rfl, rfl⟩ := row_unique delimits row otherRow ends otherEnds whole otherWhole same
  exact ⟨rfl, rfl, rfl⟩

/-- A text begins with one line end only. -/
theorem lineEnding_unique {ending other rest behind : Text} (first : LineEnding ending rest)
    (second : LineEnding other behind) (same : ending ++ rest = other ++ behind) :
    ending = other ∧ rest = behind := by
  cases first with
  | feed =>
    cases second with
    | feed => exact ⟨rfl, (List.cons.inj same).2⟩
    | both => cases (List.cons.inj same).1
    | carriage => cases (List.cons.inj same).1
  | both =>
    cases second with
    | feed => cases (List.cons.inj same).1
    | both => exact ⟨rfl, (List.cons.inj (List.cons.inj same).2).2⟩
    | carriage _ alone =>
      obtain rfl : '\n' :: rest = behind := (List.cons.inj same).2
      exact absurd rfl alone
  | carriage _ alone =>
    cases second with
    | feed => cases (List.cons.inj same).1
    | both =>
      obtain rfl : rest = '\n' :: behind := (List.cons.inj same).2
      exact absurd rfl alone
    | carriage => exact ⟨rfl, (List.cons.inj same).2⟩

/-- A text is divided into passages in one way only. The induction is on the lines. -/
theorem tableText_unique (delimits : Delimits delimiter) {text : Text}
    {passages others : List Passage} (division : TableText delimiter passages text)
    (another : TableText delimiter others text) : others = passages := by
  induction division generalizing others with
  | none =>
    generalize empty : ([] : Text) = whole at another
    cases another with
    | none => rfl
    | last _ _ _ nonempty => exact absurd empty.symm nonempty
    | line cells written ending passages rest _ ends =>
      have none := List.append_eq_nil_iff.mp empty.symm
      exact absurd (List.append_eq_nil_iff.mp none.2).1 ends.ne_nil
  | last unclosed cells written nonempty line =>
    generalize whole : written = text at another
    cases another with
    | none => exact absurd whole nonempty
    | last _ others _ _ otherLine =>
      subst whole
      obtain ⟨rfl, -, -⟩ := line_unique delimits line otherLine endsLine_nil endsLine_nil
        (fun _ => rfl) (fun _ => rfl) rfl
      rfl
    | line others _ ending passages rest otherLine ends =>
      obtain ⟨-, -, empty⟩ := line_unique delimits line otherLine endsLine_nil
        (ends.endsLine rest) (fun _ => rfl) nofun (by rw [List.append_nil, whole])
      exact absurd (List.append_eq_nil_iff.mp empty.symm).1 ends.ne_nil
  | line cells written ending passages rest line ends _ inductionHypothesis =>
    generalize whole : written ++ (ending ++ rest) = text at another
    cases another with
    | none =>
      have none := List.append_eq_nil_iff.mp whole
      exact absurd (List.append_eq_nil_iff.mp none.2).1 ends.ne_nil
    | last _ others _ _ otherLine =>
      obtain ⟨-, -, empty⟩ := line_unique delimits line otherLine (ends.endsLine rest)
        endsLine_nil nofun (fun _ => rfl) (by rw [List.append_nil, whole])
      exact absurd (List.append_eq_nil_iff.mp empty).1 ends.ne_nil
    | line otherCells otherWritten otherEnding otherPassages behind otherLine otherEnds later =>
      obtain ⟨rfl, rfl, sameRest⟩ := line_unique delimits line otherLine (ends.endsLine rest)
        (otherEnds.endsLine behind) nofun nofun whole
      obtain ⟨rfl, rfl⟩ := lineEnding_unique ends otherEnds sameRest
      rw [inductionHypothesis later]

/-- The division of a text into passages. -/
theorem tableText_exists_unique (delimits : Delimits delimiter) (text : Text) :
    ∃ passages, ∀ others, TableText delimiter others text ↔ others = passages := by
  obtain ⟨passages, division⟩ := tableText_exists delimiter text
  exact ⟨passages, fun others => ⟨tableText_unique delimits division, fun same => same ▸ division⟩⟩

end Uniqueness

section Parts

variable {delimiter : Char} {earlier later : List Passage} {text : Text}

/-- A line end stays one where no line feed comes to stand behind it. -/
theorem LineEnding.exchange {ending rest other : Text} (ends : LineEnding ending rest)
    (head : other.head? = some '\n' → rest.head? = some '\n') : LineEnding ending other := by
  cases ends with
  | feed => exact .feed other
  | both => exact .both other
  | carriage _ alone => exact .carriage other fun feed => alone (head feed)

/-- The last passages of a text are those of the text that they take up. -/
theorem TableText.behind (division : TableText delimiter (earlier ++ later) text) :
    TableText delimiter later (later.flatMap Passage.text) := by
  induction earlier generalizing text with
  | nil =>
    rw [List.nil_append] at division
    rwa [← division.joined]
  | cons first rest inductionHypothesis =>
    rw [List.cons_append] at division
    generalize shape : rest ++ later = passages at division
    cases division with
    | last =>
      obtain ⟨-, rfl⟩ := List.append_eq_nil_iff.mp shape
      exact .none
    | line _ _ _ _ _ _ _ others =>
      subst shape
      exact inductionHypothesis others

/-- The last passages of a text can be exchanged for those of another text, unless a line feed
comes to stand where there was none. -/
theorem TableText.exchange (division : TableText delimiter (earlier ++ later) text)
    (nonempty : later ≠ []) {others : List Passage} {rest : Text}
    (another : TableText delimiter others rest)
    (head : rest.head? = some '\n' → (later.flatMap Passage.text).head? = some '\n') :
    TableText delimiter (earlier ++ others) (earlier.flatMap Passage.text ++ rest) := by
  induction earlier generalizing text with
  | nil => exact another
  | cons first earlier inductionHypothesis =>
    rw [List.cons_append] at division
    generalize shape : earlier ++ later = passages at division
    cases division with
    | last => exact absurd (List.append_eq_nil_iff.mp shape).2 nonempty
    | line cells written ending _ behind line ends division =>
      subst shape
      have joined := division.joined
      rw [List.flatMap_append] at joined
      have follows : LineEnding ending (earlier.flatMap Passage.text ++ rest) := by
        apply ends.exchange
        rw [joined]
        cases earlier.flatMap Passage.text with
        | nil => exact head
        | cons c more => exact id
      have whole := TableText.line cells written ending _ _ line follows
        (inductionHypothesis division)
      rwa [← List.append_assoc, ← List.append_assoc] at whole

/-- The first passages of a text are those of the text that they take up. -/
theorem TableText.front (division : TableText delimiter (earlier ++ later) text) :
    TableText delimiter earlier (earlier.flatMap Passage.text) := by
  cases later with
  | nil =>
    rw [List.append_nil] at division
    rwa [← division.joined]
  | cons passage later =>
    have whole := division.exchange (List.cons_ne_nil passage later) .none nofun
    rwa [List.append_nil, List.append_nil] at whole

/-- A record that has cells takes up some text. -/
theorem LineText.text_ne_nil {unclosed : Bool} {cells : List Text}
    (line : LineText delimiter unclosed cells text) (filled : cells ≠ []) : text ≠ [] := by
  cases line with
  | blank => exact absurd rfl filled
  | row _ _ _ nonempty => exact nonempty

/-- A passage of a text holds a record. There is nothing behind it, or it is closed and there is a
line end. -/
theorem TableText.passage {passage : Passage}
    (division : TableText delimiter (earlier ++ passage :: later) text) :
    (later = [] ∧ passage.ending = [] ∧
        ∃ unclosed, LineText delimiter unclosed passage.cells passage.record) ∨
      LineEnding passage.ending (later.flatMap Passage.text) ∧
        LineText delimiter false passage.cells passage.record := by
  have behind := division.behind
  generalize (passage :: later).flatMap Passage.text = rest at behind
  cases behind with
  | last unclosed _ _ _ line => exact .inl ⟨rfl, rfl, unclosed, line⟩
  | line _ _ _ _ _ line ends others => exact .inr ⟨others.joined ▸ ends, line⟩

/-- Behind a closed record any text can follow that begins with a line end. -/
theorem LineText.followed {cells : List Text} {record tail : Text}
    (line : LineText delimiter false cells record) (nonempty : record ≠ []) (ends : EndsLine tail) :
    ∃ ending later, TableText delimiter (⟨cells, record, ending⟩ :: later) (record ++ tail) := by
  by_cases final : tail = []
  · subst final
    rw [List.append_nil]
    exact ⟨[], [], .last false cells record nonempty line⟩
  · obtain ⟨ending, more, rfl, lineEnds⟩ := lineEnding_exists final ends
    obtain ⟨later, others⟩ := tableText_exists delimiter more
    exact ⟨ending, later, .line cells record ending later more line lineEnds others⟩

end Parts

end Manuscript.Table
