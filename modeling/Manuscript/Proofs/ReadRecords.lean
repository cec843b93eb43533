import Manuscript.Proofs.LineCount
import Manuscript.Proofs.TableText

/-!
# Reading the records of a text

The machine that reads a table finds the records of the division of its text, as long as no cell
is over the limit. It is followed from one beginning of a cell to the next one, and from the
beginning of a line to the beginning of the next: there nothing of a record has been read. The
character before a line matters in one case only, where a line feed is the second part of a line
end that has ended the record already; a division never begins a line there.

The number that is kept with a record is the number of lines of the text up to its end, because
the machine counts the lines that begin, whatever else it does with their characters.
-/

namespace Manuscript.Table

namespace Progress

variable {delimiter : Char}

/-! ## Counting -/

@[simp] theorem endCell_lines (progress : Progress) :
    progress.endCell.lines = progress.lines := by
  unfold endCell
  split <;> rfl

@[simp] theorem endCell_previous (progress : Progress) :
    progress.endCell.previous = progress.previous := by
  unfold endCell
  split <;> rfl

@[simp] theorem endRecord_lines (progress : Progress) :
    progress.endRecord.lines = progress.lines := by
  unfold endRecord
  split
  · rfl
  · dsimp only
    split <;> simp

@[simp] theorem endRecord_previous (progress : Progress) :
    progress.endRecord.previous = progress.previous := by
  unfold endRecord
  split
  · rfl
  · dsimp only
    split <;> simp

/-- What is done outside quotes with a character does not count it. -/
theorem feedPlain_counts (previous : Char) (progress : Progress) (c : Char) :
    (feedPlain delimiter previous progress c).lines = progress.lines ∧
      (feedPlain delimiter previous progress c).previous = progress.previous := by
  unfold feedPlain
  split
  · exact ⟨rfl, rfl⟩
  split
  · exact ⟨endRecord_lines progress, endRecord_previous progress⟩
  split
  · exact ⟨endCell_lines progress, endCell_previous progress⟩
  · exact ⟨rfl, rfl⟩

/-- Every character is counted once, as long as the reading goes on. -/
theorem feed_counts (delimiter : Char) (progress : Progress) (sound : progress.oversize = false)
    (c : Char) :
    (progress.feed delimiter c).lines = (progress.count c).lines ∧
      (progress.feed delimiter c).previous = c := by
  unfold feed
  rw [if_neg (by simp [sound])]
  cases progress.place with
  | quoted =>
    dsimp only
    split <;> exact ⟨rfl, rfl⟩
  | closing =>
    dsimp only
    split
    · exact ⟨rfl, rfl⟩
    · exact feedPlain_counts _ _ c
  | start =>
    dsimp only
    split
    · exact ⟨rfl, rfl⟩
    · exact feedPlain_counts _ _ c
  | plain => exact feedPlain_counts _ _ c

/-- A reading that has stopped does not go on. -/
theorem fold_oversize (text : Text) {progress : Progress} (stopped : progress.oversize = true) :
    text.foldl (feed delimiter) progress = progress := by
  induction text with
  | nil => rfl
  | cons c rest inductionHypothesis =>
    rw [List.foldl_cons, feed, if_pos stopped, inductionHypothesis]

/-- A character counts a line if it begins one. -/
theorem count_lines (progress : Progress) (c : Char) :
    (progress.count c).lines =
      (if Text.Begins progress.previous c then 1 else 0) + progress.lines := by
  have flag : (progress.previous == '\n' || (progress.previous == '\r' && c != '\n')) = true ↔
      Text.Begins progress.previous c := by
    simp [Text.Begins]
  simp only [count, flag]
  split
  · exact Nat.add_comm _ _
  · exact (Nat.zero_add _).symm

/-- A reading that goes on has counted the lines that begin in the text. -/
theorem fold_counts (text : Text) (progress : Progress)
    (sound : (text.foldl (feed delimiter) progress).oversize = false) :
    (text.foldl (feed delimiter) progress).lines =
        progress.lines + Text.linesBegun progress.previous text ∧
      (text.foldl (feed delimiter) progress).previous = text.getLastD progress.previous := by
  induction text generalizing progress with
  | nil => exact ⟨rfl, rfl⟩
  | cons c rest inductionHypothesis =>
    cases stopped : progress.oversize with
    | true =>
      rw [fold_oversize _ stopped, stopped] at sound
      cases sound
    | false =>
      rw [List.foldl_cons] at sound ⊢
      obtain ⟨lines, previous⟩ := inductionHypothesis (progress.feed delimiter c) sound
      obtain ⟨counted, fed⟩ := feed_counts delimiter progress stopped c
      rw [lines, previous, counted, fed, count_lines, Text.linesBegun, List.getLastD_cons]
      exact ⟨by omega, rfl⟩

/-! ## Cells -/

/-- More of the current cell has been read, and nothing else. -/
structure Extended (before after : Progress) (more : Text) : Prop where
  records : after.records = before.records
  cells : after.cells = before.cells
  cell : after.cell = more.reverse ++ before.cell
  oversize : after.oversize = before.oversize

theorem Extended.refl (progress : Progress) : Extended progress progress [] :=
  ⟨rfl, rfl, rfl, rfl⟩

theorem Extended.trans {first second third : Progress} {more most : Text}
    (earlier : Extended first second more) (later : Extended second third most) :
    Extended first third (more ++ most) := by
  refine ⟨later.records.trans earlier.records, later.cells.trans earlier.cells, ?_,
    later.oversize.trans earlier.oversize⟩
  rw [later.cell, earlier.cell, List.reverse_append, List.append_assoc]

/-- Counting and adding a character extends the cell by it. -/
theorem push_extended (progress : Progress) (c : Char) (place : Place) :
    Extended progress ((progress.count c).push c place) [c] := ⟨rfl, rfl, rfl, rfl⟩

/-- Opening or closing quotes leaves the cell as it is. -/
theorem place_extended (progress : Progress) (c : Char) (place : Place) :
    Extended progress { progress.count c with place } [] := ⟨rfl, rfl, rfl, rfl⟩

/-- Outside quotes a character that is no quote is read in one way, wherever it stands. A quote
is read like that too, once a cell has begun without one. -/
theorem feed_outside (progress : Progress) {c : Char} (sound : progress.oversize = false)
    (outside : progress.place ≠ .quoted) (ordinary : progress.place = .plain ∨ c ≠ '"') :
    progress.feed delimiter c = feedPlain delimiter progress.previous (progress.count c) c := by
  cases place : progress.place with
  | quoted => exact absurd place outside
  | plain => simp [feed, sound, place]
  | start =>
    have other : c ≠ '"' := ordinary.resolve_left (by simp [place])
    simp [feed, sound, place, other]
  | closing =>
    have other : c ≠ '"' := ordinary.resolve_left (by simp [place])
    simp [feed, sound, place, other]

/-- Characters that belong to a cell are added to it. -/
theorem read_inner (tail : Text) (progress : Progress) (sound : progress.oversize = false)
    (outside : progress.place ≠ .quoted)
    (ordinary : progress.place = .plain ∨ tail.head? ≠ some '"')
    (inside : ∀ c ∈ tail, Inner delimiter c) :
    Extended progress (tail.foldl (feed delimiter) progress) tail ∧
      (tail.foldl (feed delimiter) progress).place =
        if tail = [] then progress.place else .plain := by
  induction tail generalizing progress with
  | nil => exact ⟨Extended.refl progress, rfl⟩
  | cons c rest inductionHypothesis =>
    obtain ⟨⟨notDelimiter, notCarriage, notFeed⟩, insideRest⟩ := List.forall_mem_cons.mp inside
    have ordinaryHere := ordinary.imp_right fun other => by simpa using other
    have fed : progress.feed delimiter c = (progress.count c).push c .plain := by
      rw [feed_outside progress sound outside ordinaryHere]
      simp [feedPlain, notDelimiter, notCarriage, notFeed]
    have head : Extended progress (progress.feed delimiter c) [c] :=
      fed ▸ push_extended progress c .plain
    have plain : (progress.feed delimiter c).place = .plain := by
      rw [fed]
      rfl
    obtain ⟨extended, place⟩ := inductionHypothesis (progress.feed delimiter c)
      (head.oversize.trans sound) (by simp [plain]) (.inl plain) insideRest
    refine ⟨head.trans extended, ?_⟩
    rw [List.foldl_cons, place, plain]
    simp

/-- Within quotes a doubled quote stands for one, and every other character for itself. -/
theorem read_doubled (delimiter : Char) (cell : Text) (progress : Progress)
    (sound : progress.oversize = false) (within : progress.place = .quoted) :
    Extended progress ((doubled cell).foldl (feed delimiter) progress) cell ∧
      ((doubled cell).foldl (feed delimiter) progress).place = .quoted := by
  induction cell generalizing progress with
  | nil => exact ⟨Extended.refl progress, within⟩
  | cons c rest inductionHypothesis =>
    have head : ∃ after, (doubled (c :: rest)).foldl (feed delimiter) progress =
        (doubled rest).foldl (feed delimiter) after ∧ Extended progress after [c] ∧
        after.place = .quoted := by
      by_cases quote : c = '"'
      · -- The first quote seems to close the cell, and the second one takes that back.
        subst quote
        refine ⟨(({ progress.count '"' with place := .closing } : Progress).count '"').push '"'
          .quoted, ?_, ⟨rfl, rfl, rfl, rfl⟩, rfl⟩
        simp [doubled, feed, sound, within, count]
      · refine ⟨(progress.count c).push c .quoted, ?_, push_extended progress c .quoted, rfl⟩
        simp [doubled, feed, sound, within, quote]
    obtain ⟨after, folded, extended, place⟩ := head
    obtain ⟨tail, last⟩ := inductionHypothesis after (extended.oversize.trans sound) place
    rw [folded]
    exact ⟨extended.trans tail, last⟩

/-- At the beginning of a cell, with these cells of the record before it. -/
structure Opening (cells : List Text) (progress : Progress) : Prop where
  place : progress.place = .start
  cells : progress.cells = cells
  cell : progress.cell = []
  sound : progress.oversize = false

/-- At the end of a cell, with these cells of the record before it. -/
structure Closing (cells : List Text) (cell : Text) (progress : Progress) : Prop where
  cells : progress.cells = cells
  cell : progress.cell = cell.reverse
  sound : progress.oversize = false

/-- What has been read since the beginning of a cell is the cell. -/
theorem Opening.extended {cells : List Text} {cell : Text} {before after : Progress}
    (opening : Opening cells before) (extended : Extended before after cell) :
    Closing cells cell after := by
  refine ⟨extended.cells.trans opening.cells, ?_, extended.oversize.trans opening.sound⟩
  rw [extended.cell, opening.cell, List.append_nil]

/-- However a cell stands in a text, it is read. Behind it the place is outside quotes, unless
they are open, and it is no beginning any more if there was a character. -/
theorem read_cell {unclosed : Bool} {cells : List Text} {cell text : Text} {progress : Progress}
    (opening : Opening cells progress) (written : CellText delimiter unclosed cell text) :
    Closing cells cell (text.foldl (feed delimiter) progress) ∧
      (text.foldl (feed delimiter) progress).records = progress.records ∧
      (unclosed = false → (text.foldl (feed delimiter) progress).place ≠ .quoted) ∧
      (text ≠ [] → (text.foldl (feed delimiter) progress).place ≠ .start) := by
  have opened : progress.feed delimiter '"' = { progress.count '"' with place := .quoted } := by
    simp [feed, opening.sound, opening.place]
  have quoting := place_extended progress '"' .quoted
  cases written with
  | bare _ inside unquoted =>
    obtain ⟨extended, place⟩ := read_inner cell progress opening.sound (by simp [opening.place])
      (.inr unquoted) inside
    refine ⟨opening.extended extended, extended.records, fun _ => ?_, fun nonempty => ?_⟩
    · rw [place, opening.place]
      split <;> simp
    · rw [place, if_neg nonempty]
      simp
  | quoted body tail inside closed =>
    obtain ⟨within, place⟩ :=
      read_doubled delimiter body _ (quoting.oversize.trans opening.sound) rfl
    rw [List.foldl_cons, opened, List.foldl_append, List.foldl_cons]
    generalize (doubled body).foldl (feed delimiter) { progress.count '"' with place := .quoted } =
      inner at within place ⊢
    have soundInner : inner.oversize = false :=
      within.oversize.trans (quoting.oversize.trans opening.sound)
    have closing : inner.feed delimiter '"' = { inner.count '"' with place := .closing } := by
      simp [feed, soundInner, place]
    rw [closing]
    obtain ⟨extended, last⟩ := read_inner tail { inner.count '"' with place := .closing } soundInner
      nofun (.inr closed) inside
    have whole := ((quoting.trans within).trans (place_extended inner '"' .closing)).trans extended
    rw [List.append_nil, List.nil_append] at whole
    refine ⟨opening.extended whole, whole.records, fun _ => ?_, fun _ => ?_⟩
    · rw [last]
      split <;> simp
    · rw [last]
      split <;> simp
  | unclosed =>
    obtain ⟨within, place⟩ :=
      read_doubled delimiter cell _ (quoting.oversize.trans opening.sound) rfl
    rw [List.foldl_cons, opened]
    have whole := quoting.trans within
    rw [List.nil_append] at whole
    refine ⟨opening.extended whole, whole.records, nofun, fun _ => ?_⟩
    rw [place]
    simp

/-! ## Lines -/

/-- A delimiter ends a cell. -/
theorem read_delimiter {cells : List Text} {cell : Text} {progress : Progress}
    (delimits : Delimits delimiter) (closing : Closing cells cell progress)
    (outside : progress.place ≠ .quoted) (limited : cell.length ≤ cellLimit) :
    Opening (cell :: cells) (progress.feed delimiter delimiter) ∧
      (progress.feed delimiter delimiter).records = progress.records := by
  have short : ¬cellLimit < (progress.count delimiter).cell.length := by
    change ¬cellLimit < progress.cell.length
    rw [closing.cell, List.length_reverse]
    omega
  have fed : progress.feed delimiter delimiter = { progress.count delimiter with
      cells := progress.cell.reverse :: progress.cells
      cell := []
      place := .start } := by
    rw [feed_outside progress closing.sound outside (.inr delimits.quote), feedPlain,
      if_neg (fun both => delimits.feed both.1),
      if_neg (not_or.mpr ⟨delimits.feed, delimits.carriage⟩), if_pos rfl, endCell, if_neg short]
    rfl
  rw [fed]
  refine ⟨⟨rfl, ?_, rfl, closing.sound⟩, rfl⟩
  change progress.cell.reverse :: progress.cells = cell :: cells
  rw [closing.cell, closing.cells, List.reverse_reverse]

/-- However a row stands in a text, its cells are read, the last one up to its end. -/
theorem read_row {unclosed : Bool} {cells before : List Text} {text : Text} {progress : Progress}
    (delimits : Delimits delimiter) (row : RowText delimiter unclosed cells text)
    (limited : ∀ cell ∈ cells, cell.length ≤ cellLimit) (opening : Opening before progress) :
    ∃ others last, cells.reverse ++ before = last :: others ∧ last.length ≤ cellLimit ∧
      Closing others last (text.foldl (feed delimiter) progress) ∧
      (text.foldl (feed delimiter) progress).records = progress.records ∧
      (unclosed = false → (text.foldl (feed delimiter) progress).place ≠ .quoted) ∧
      (text ≠ [] → (text.foldl (feed delimiter) progress).isFresh = false) := by
  induction row generalizing before progress with
  | last cell text only =>
    obtain ⟨closing, records, outside, begun⟩ := read_cell opening only
    refine ⟨before, cell, rfl, limited cell List.mem_cons_self, closing, records, outside,
      fun nonempty => ?_⟩
    simp [isFresh, begun nonempty]
  | next cell text others more first row inductionHypothesis =>
    obtain ⟨closing, records, outside, -⟩ := read_cell opening first
    obtain ⟨reopened, sameRecords⟩ :=
      read_delimiter delimits closing (outside rfl) (limited cell List.mem_cons_self)
    obtain ⟨behind, last, shape, lastLimited, closed, allRecords, allOutside, -⟩ :=
      inductionHypothesis (fun other member => limited other (List.mem_cons_of_mem cell member))
        reopened
    rw [List.foldl_append, List.foldl_cons]
    refine ⟨behind, last, ?_, lastLimited, closed, allRecords.trans (sameRecords.trans records),
      allOutside, fun _ => ?_⟩
    · rw [← shape, List.reverse_cons, List.append_assoc, List.singleton_append]
    · -- The first cell is among those before the last one.
      have several : behind ≠ [] := by
        rintro rfl
        have length := congrArg List.length shape
        have positive : 0 < others.length := List.length_pos_iff.mpr row.cells_ne_nil
        simp only [List.length_append, List.length_reverse, List.length_cons,
          List.length_nil] at length
        omega
      simp [isFresh, closed.cells, several]

/-- At the end of a line that holds a record: there is nothing of it, or there are the cells
before the last one, and the last one is complete. -/
inductive Holding : List Text → Progress → Prop where
  | blank (progress : Progress) (opening : Opening [] progress) : Holding [] progress
  | row (others : List Text) (last : Text) (progress : Progress)
      (begun : progress.isFresh = false) (closing : Closing others last progress)
      (limited : last.length ≤ cellLimit) : Holding (last :: others).reverse progress

theorem Holding.count {cells : List Text} {progress : Progress} (holding : Holding cells progress)
    (c : Char) : Holding cells (progress.count c) := by
  cases holding with
  | blank _ opening =>
    exact .blank _ ⟨opening.place, opening.cells, opening.cell, opening.sound⟩
  | row others last _ begun closing limited =>
    exact .row others last _ begun ⟨closing.cells, closing.cell, closing.sound⟩ limited

theorem Holding.sound {cells : List Text} {progress : Progress} (holding : Holding cells progress) :
    progress.oversize = false := by
  cases holding with
  | blank _ opening => exact opening.sound
  | row _ _ _ _ closing => exact closing.sound

/-- The end of a line adds its record to those before it, and begins the next line. -/
theorem Holding.endRecord {cells : List Text} {progress : Progress}
    (holding : Holding cells progress) :
    Opening [] progress.endRecord ∧
      progress.endRecord.records = ⟨cells, progress.lines⟩ :: progress.records := by
  cases holding with
  | blank _ opening =>
    have fresh : progress.isFresh = true := by simp [isFresh, opening.place, opening.cells]
    rw [Progress.endRecord, if_pos fresh]
    exact ⟨⟨opening.place, opening.cells, opening.cell, opening.sound⟩, rfl⟩
  | row others last _ begun closing limited =>
    have short : ¬cellLimit < progress.cell.length := by
      rw [closing.cell, List.length_reverse]
      omega
    rw [Progress.endRecord, if_neg (by simp [begun]), endCell, if_neg short]
    simp only [closing.sound, Bool.false_eq_true, if_false]
    refine ⟨⟨rfl, rfl, rfl, rfl⟩, ?_⟩
    rw [closing.cell, closing.cells, List.reverse_reverse]

/-- However the record of a line stands in a text, it is read up to the end of the line. -/
theorem read_line {unclosed : Bool} {cells : List Text} {text : Text} {progress : Progress}
    (delimits : Delimits delimiter) (line : LineText delimiter unclosed cells text)
    (limited : ∀ cell ∈ cells, cell.length ≤ cellLimit) (opening : Opening [] progress) :
    Holding cells (text.foldl (feed delimiter) progress) ∧
      (text.foldl (feed delimiter) progress).records = progress.records ∧
      (unclosed = false → (text.foldl (feed delimiter) progress).place ≠ .quoted) ∧
      (text ≠ [] → (text.foldl (feed delimiter) progress).isFresh = false) := by
  cases line with
  | blank =>
    exact ⟨.blank progress opening, rfl, fun _ => by simp [opening.place],
      fun some => absurd rfl some⟩
  | row _ _ _ nonempty row =>
    obtain ⟨others, last, shape, lastLimited, closing, records, outside, begun⟩ :=
      read_row delimits row limited opening
    rw [List.append_nil] at shape
    have holding := Holding.row others last _ (begun nonempty) closing lastLimited
    rw [← shape, List.reverse_reverse] at holding
    exact ⟨holding, records, outside, begun⟩

/-- A line end, in one character or in two, ends the record before it. -/
theorem read_lineEnding {cells : List Text} {ending rest : Text} {progress : Progress}
    (holding : Holding cells progress) (outside : progress.place ≠ .quoted)
    (ends : LineEnding ending rest)
    (apart : progress.previous = '\r' → ending.head? ≠ some '\n') :
    Opening [] (ending.foldl (feed delimiter) progress) ∧
      (ending.foldl (feed delimiter) progress).records =
        ⟨cells, (ending.foldl (feed delimiter) progress).lines⟩ :: progress.records := by
  have first : ∀ c, c = '\n' ∨ c = '\r' → (c = '\n' → progress.previous ≠ '\r') →
      progress.feed delimiter c = (progress.count c).endRecord := by
    intro c ending alone
    have other : c ≠ '"' := by rcases ending with rfl | rfl <;> decide
    rw [feed_outside progress holding.sound outside (.inr other), feedPlain,
      if_neg (fun both => alone both.1 both.2), if_pos ending]
  cases ends with
  | feed =>
    rw [List.foldl_cons, List.foldl_nil, first '\n' (.inl rfl) fun _ carriage => apart carriage rfl]
    obtain ⟨opening, records⟩ := (holding.count '\n').endRecord
    exact ⟨opening, by rw [records, endRecord_lines]; rfl⟩
  | carriage =>
    rw [List.foldl_cons, List.foldl_nil, first '\r' (.inr rfl) nofun]
    obtain ⟨opening, records⟩ := (holding.count '\r').endRecord
    exact ⟨opening, by rw [records, endRecord_lines]; rfl⟩
  | both =>
    -- The carriage return ends the record already, and the line feed behind it is passed over.
    rw [List.foldl_cons, List.foldl_cons, List.foldl_nil, first '\r' (.inr rfl) nofun]
    obtain ⟨opening, records⟩ := (holding.count '\r').endRecord
    have previous : (progress.count '\r').endRecord.previous = '\r' := endRecord_previous _
    have passed : (progress.count '\r').endRecord.feed delimiter '\n' =
        (progress.count '\r').endRecord.count '\n' := by
      rw [feed_outside _ opening.sound (by simp [opening.place]) (.inr (by decide)), feedPlain,
        if_pos ⟨rfl, previous⟩]
    have uncounted : ((progress.count '\r').endRecord.count '\n').lines =
        (progress.count '\r').endRecord.lines := by
      rw [count_lines, previous, if_neg (by decide), Nat.zero_add]
    rw [passed]
    refine ⟨⟨opening.place, opening.cells, opening.cell, opening.sound⟩, ?_⟩
    rw [uncounted, endRecord_lines]
    exact records

end Progress

/-- The number of lines that the reading of a text counts, and the last character of it. -/
theorem scanRecords_counts {delimiter : Char} {text : Text}
    (sound : (scanRecords delimiter text).oversize = false) :
    (scanRecords delimiter text).lines = text.lineCount ∧
      (scanRecords delimiter text).previous = text.getLastD '\n' := by
  obtain ⟨lines, previous⟩ := Progress.fold_counts text Progress.initial sound
  refine ⟨?_, previous⟩
  rw [Text.lineCount_eq]
  exact lines.trans (Nat.zero_add _)

/-- Reading goes on where it has stopped. -/
theorem scanRecords_append (delimiter : Char) (front back : Text) :
    scanRecords delimiter (front ++ back) =
      back.foldl (Progress.feed delimiter) (scanRecords delimiter front) :=
  List.foldl_append

/-- The records of passages behind a text, each with the number of lines up to its end. -/
def numbered : Text → List Passage → List Record
  | _, [] => []
  | front, passage :: rest =>
    ⟨passage.cells, (front ++ passage.text).lineCount⟩ :: numbered (front ++ passage.text) rest

/-- The cells of numbered records are those of the passages. -/
theorem numbered_cells (front : Text) (passages : List Passage) :
    (numbered front passages).map Record.cells = passages.map Passage.cells := by
  induction passages generalizing front with
  | nil => rfl
  | cons passage rest inductionHypothesis =>
    rw [numbered, List.map_cons, List.map_cons, inductionHypothesis]

/-- The records that have cells. -/
def filled (records : List Record) : List (List Text) :=
  (records.map Record.cells).filter fun cells => !cells.isEmpty

theorem filled_blank {record : Record} (blank : record.cells = []) (rest : List Record) :
    filled (record :: rest) = filled rest := by
  simp [filled, blank]

theorem filled_cons {record : Record} (nonempty : record.cells ≠ []) (rest : List Record) :
    filled (record :: rest) = record.cells :: filled rest := by
  simp [filled, nonempty]

/-- Behind the beginning of a line the records of the rest of a text are read. The induction is
on the lines of the rest, and each of them is read to the beginning of the next. -/
theorem scanRecords_behind {delimiter : Char} (delimits : Delimits delimiter)
    {passages : List Passage} {text : Text} (division : TableText delimiter passages text)
    (limited : ∀ passage ∈ passages, ∀ cell ∈ passage.cells, cell.length ≤ cellLimit)
    (front : Text) (opening : Progress.Opening [] (scanRecords delimiter front))
    (apart : front.getLastD '\n' = '\r' → text.head? ≠ some '\n') :
    (scanRecords delimiter (front ++ text)).ended =
      ((scanRecords delimiter front).records.reverse ++ numbered front passages, none) := by
  induction division generalizing front with
  | none =>
    have fresh : (scanRecords delimiter front).isFresh = true := by
      simp [Progress.isFresh, opening.place, opening.cells]
    rw [List.append_nil, numbered, List.append_nil]
    simp [Progress.ended, fresh, opening.sound]
  | last unclosed cells text nonempty line =>
    obtain ⟨holding, records, -, begun⟩ :=
      Progress.read_line delimits line (limited _ List.mem_cons_self) opening
    rw [← scanRecords_append] at holding records begun
    obtain ⟨closed, added⟩ := holding.endRecord
    have counted := (scanRecords_counts holding.sound).1
    simp [Progress.ended, begun nonempty, closed.sound, added, records, counted, numbered,
      Passage.text]
  | line cells text ending passages rest line ends others inductionHypothesis =>
    obtain ⟨holding, records, outside, -⟩ :=
      Progress.read_line delimits line (limited _ List.mem_cons_self) opening
    rw [← scanRecords_append] at holding records outside
    have apartHere : (scanRecords delimiter (front ++ text)).previous = '\r' →
        ending.head? ≠ some '\n' := by
      rw [(scanRecords_counts holding.sound).2]
      intro carriage
      cases last : text.getLast? with
      | none =>
        obtain rfl := List.getLast?_eq_none_iff.mp last
        rw [List.append_nil] at carriage
        exact fun feed => apart carriage (by simp [List.head?_append, feed])
      | some c =>
        rw [List.getLastD_eq_getLast?, List.getLast?_append, last] at carriage
        obtain rfl : c = '\r' := carriage
        exact absurd last (line.last_ne delimits (.inl rfl))
    obtain ⟨reopened, added⟩ := Progress.read_lineEnding holding (outside rfl) ends apartHere
    rw [← scanRecords_append, records, List.append_assoc] at added
    rw [← scanRecords_append, List.append_assoc] at reopened
    have behindEnding : (front ++ (text ++ ending)).getLastD '\n' = '\r' →
        rest.head? ≠ some '\n' := by
      cases ends with
      | feed => simp
      | both => simp
      | carriage _ alone => exact fun _ => alone
    have later := inductionHypothesis
      (fun passage member => limited passage (List.mem_cons_of_mem _ member)) _ reopened
      behindEnding
    have counted := (scanRecords_counts reopened.sound).1
    rw [← List.append_assoc text, ← List.append_assoc front, later, added, counted, numbered,
      Passage.text, List.reverse_cons, List.append_assoc, List.singleton_append]

/-- The records of a text are those of its division, in their order, each with the number of lines
up to its end. -/
theorem scanRecords_tableText {delimiter : Char} (delimits : Delimits delimiter)
    {passages : List Passage} {text : Text} (division : TableText delimiter passages text)
    (limited : ∀ passage ∈ passages, ∀ cell ∈ passage.cells, cell.length ≤ cellLimit) :
    (scanRecords delimiter text).ended = (numbered [] passages, none) :=
  scanRecords_behind delimits division limited [] ⟨rfl, rfl, rfl, rfl⟩ (by simp)

end Manuscript.Table
