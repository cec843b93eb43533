import Manuscript.Proofs.Encoding
import Manuscript.Proofs.Growth
import Manuscript.Proofs.Outcome
import Manuscript.Proofs.RowCells
import Manuscript.Proofs.WrittenTable

/-!
# Reading the rules of written tables

The header of a table names its columns in any order and among others, and a record holds a
row if it has a cell for each of them, the ones of the row at the right places. Cells behind
the last column are left out. So from a file in which rows were written, in any of the ways
to write them, the rules of those rows are read, one for each and in their order.
-/

namespace Manuscript.Table

/-- The cells of a record hold a row below a header. -/
structure Holds (header : List Text) (row : Row) (cells : List Text) : Prop where
  complete : header.length ≤ cells.length
  search : cells[header.idxOf Row.searchColumn]? = some row.search
  replace : cells[header.idxOf Row.replaceColumn]? = some row.replace
  mode : cells[header.idxOf Row.modeColumn]? = some row.mode.name

/-- Where columns are distinct, the cell at the place of a column stands below it. -/
theorem below_of_idxOf {header cells : List Text} {name cell : Text} (distinct : header.Nodup)
    (listed : name ∈ header) (found : cells[header.idxOf name]? = some cell) :
    Below header cells name cell := by
  obtain ⟨before, after, rfl⟩ := List.append_of_mem listed
  obtain ⟨-, later, apart⟩ := List.nodup_append.mp distinct
  have first : name ∉ before := fun member => apart name member name List.mem_cons_self rfl
  rw [List.idxOf_append_of_notMem first, List.idxOf_cons_self, Nat.add_zero] at found
  exact ⟨before, after, rfl, (List.nodup_cons.mp later).1, found⟩

/-- A record that holds a row gives it. -/
theorem Holds.gives {header cells : List Text} {row : Row} (holds : Holds header row cells)
    (distinct : header.Nodup) (complete : ∀ column ∈ Row.columns, column ∈ header)
    (named : row.search ≠ []) : Gives header cells row where
  search := below_of_idxOf distinct (complete _ (by simp [Row.columns])) holds.search
  named := named
  replace := below_of_idxOf distinct (complete _ (by simp [Row.columns])) holds.replace
  mode := below_of_idxOf distinct (complete _ (by simp [Row.columns])) holds.mode

/-- The records that have cells give one rule each, the others none. -/
theorem rulesOfRecords_rows {header : List Text} {rows : List Row} {records : List Record}
    (distinct : header.Nodup) (complete : ∀ column ∈ Row.columns, column ∈ header)
    (named : ∀ row ∈ rows, row.search ≠ [])
    (holding : List.Forall₂ (Holds header) rows (filled records)) :
    rulesOfRecords header records = .ok (rows.map Row.toRule) := by
  rw [rulesOfRecords_ok_iff]
  generalize filled records = found at holding
  induction holding with
  | nil => exact .nil
  | cons holds _ inductionHypothesis =>
    obtain ⟨first, others⟩ := List.forall_mem_cons.mp named
    exact .cons ⟨_, holds.gives distinct complete first, rfl⟩ (inductionHypothesis others)

/-- A header with the columns of a row has more than one. -/
theorem header_several {header : List Text} (complete : ∀ column ∈ Row.columns, column ∈ header) :
    2 ≤ header.length := by
  have search : Row.searchColumn ∈ header := complete _ (by simp [Row.columns])
  have replace : Row.replaceColumn ∈ header := complete _ (by simp [Row.columns])
  have apart : Row.searchColumn ≠ Row.replaceColumn := by decide
  match header, search, replace with
  | [column], search, replace =>
    rw [List.mem_singleton] at search replace
    exact absurd (search.trans replace.symm) apart
  | _ :: _ :: rest, _, _ => exact Nat.le_add_left 2 rest.length

/-- Records that hold rows have a cell for each column. -/
theorem holds_complete {header : List Text} {rows : List Row} {records : List (List Text)}
    (holding : List.Forall₂ (Holds header) rows records) :
    ∀ cells ∈ records, header.length ≤ cells.length := by
  induction holding with
  | nil => simp
  | cons holds _ inductionHypothesis =>
    intro cells member
    rcases List.mem_cons.mp member with rfl | member
    · exact holds.complete
    · exact inductionHypothesis cells member

/-- The delimiters of tables delimit. -/
theorem delimiter_delimits (path : Path) : Delimits (delimiter path) := by
  unfold delimiter
  split
  · exact ⟨by decide, by decide, by decide⟩
  · exact ⟨by decide, by decide, by decide⟩

/-- A written record begins with a mark only if its first cell does. -/
theorem head_record {delimiter mark : Char} {row : List Text} {text : Text}
    (notQuote : mark ≠ '"') (notDelimiter : mark ≠ delimiter)
    (written : WrittenRecord delimiter row text)
    (unmarked : ∀ cell, row.head? = some cell → cell.head? ≠ some mark) :
    text.head? ≠ some mark := by
  have headCell : ∀ {cell text : Text}, WrittenCell delimiter cell text →
      cell.head? ≠ some mark → text.head? ≠ some mark := by
    intro cell text written other
    cases written with
    | bare plain => exact other
    | quoted => exact fun same => notQuote (Option.some.inj same).symm
  cases written with
  | last cell text written => exact headCell written (unmarked cell rfl)
  | next cell text cells more written others =>
    have first := headCell written (unmarked cell rfl)
    cases text with
    | nil => exact fun same => notDelimiter (Option.some.inj same).symm
    | cons c rest => exact first

/-- A written table begins with a mark only if the name of its first column does. -/
theorem head_table {delimiter mark : Char} {header : List Text} {rows : List (List Text)}
    {text : Text} (notQuote : mark ≠ '"') (notDelimiter : mark ≠ delimiter)
    (notFeed : mark ≠ '\n') (notCarriage : mark ≠ '\r')
    (written : WrittenTable delimiter header rows text)
    (unmarked : ∀ name, header.head? = some name → name.head? ≠ some mark) :
    text.head? ≠ some mark := by
  cases written with
  | only text written => exact head_record notQuote notDelimiter written unmarked
  | rows text ending rows more written ends others =>
    have first := head_record notQuote notDelimiter written unmarked
    cases text with
    | cons c rest => exact first
    | nil =>
      cases ends with
      | feed => exact fun same => notFeed (Option.some.inj same).symm
      | both => exact fun same => notCarriage (Option.some.inj same).symm

/-- The records of a file with a text, behind a mark or not, are the records of the text. -/
theorem recordsOfBytes_encode (delimiter : Char) {text : Text} {mark : List UInt8}
    (marked : mark = [] ∨ mark = Utf8.byteOrderMark) (unmarked : text.head? ≠ some '\uFEFF') :
    recordsOfBytes delimiter (mark ++ Utf8.encode text) = (scanRecords delimiter text).ended := by
  rcases marked with rfl | rfl
  · rw [List.nil_append, recordsOfBytes, Utf8.decodeMarked_encode text unmarked]
  · rw [recordsOfBytes, Utf8.decodeMarked_mark]

/-- No column is missing exactly if the header has all of them. -/
theorem missingColumns_nil_iff {header : List Text} :
    missingColumns header = [] ↔ ∀ column ∈ Row.columns, column ∈ header := by
  simp [missingColumns, List.filter_eq_nil_iff]

/-- The rules of a file in which a table was written. -/
theorem rulesOfBytes_written {path : Path} {header : List Text} {rows : List Row}
    {records : List (List Text)} {text : Text} {mark : List UInt8}
    (marked : mark = [] ∨ mark = Utf8.byteOrderMark)
    (written : WrittenTable (delimiter path) header records text)
    (distinct : header.Nodup) (complete : ∀ column ∈ Row.columns, column ∈ header)
    (unmarked : ∀ name, header.head? = some name → name.head? ≠ some '\uFEFF')
    (named : ∀ row ∈ rows, row.search ≠ [])
    (holding : List.Forall₂ (Holds header) rows records)
    (limited : ∀ cells ∈ header :: records, ∀ cell ∈ cells, cell.length ≤ cellLimit) :
    rulesOfBytes path (mark ++ Utf8.encode text) = .ok (rows.map Row.toRule) := by
  have headerLong : 2 ≤ header.length := header_several complete
  have several : ∀ cells ∈ header :: records, 2 ≤ cells.length := by
    intro cells member
    rcases List.mem_cons.mp member with rfl | member
    · exact headerLong
    · exact Nat.le_trans headerLong (holds_complete holding cells member)
  have notDelimiter : '\uFEFF' ≠ delimiter path := by
    unfold delimiter
    split <;> decide
  have head : text.head? ≠ some '\uFEFF' :=
    head_table (by decide) notDelimiter (by decide) (by decide) written unmarked
  obtain ⟨line, read, ended, same⟩ :=
    scanRecords_written (delimiter_delimits path) written limited several
  rw [← same] at holding
  rw [rulesOfBytes, recordsOfBytes_encode _ marked head, ended]
  simp only [rulesOfTable, missingColumns_nil_iff.mpr complete, List.isEmpty_nil, if_true,
    rulesOfRecords_rows distinct complete named holding]

/-- Reading a table gives one rule for each row that was written, in their order. The columns
may stand in any order and among others, the records may have cells behind the last column,
and all ways to write cells, line ends, empty lines and the beginning of the file are read. -/
theorem read_written (path : Path) (start : Workspace) (header : List Text) (rows : List Row)
    (records : List (List Text)) (text : Text) (mark : List UInt8)
    (stored : start.store.read path = .ok (mark ++ Utf8.encode text))
    (marked : mark = [] ∨ mark = [0xEF, 0xBB, 0xBF])
    (written : WrittenTable (if path.suffix = ".tsv".toList then '\t' else ',') header records
      text)
    (distinct : header.Nodup) (complete : ∀ column ∈ Row.columns, column ∈ header)
    (unmarked : ∀ name, header.head? = some name → name.head? ≠ some '\uFEFF')
    (named : ∀ row ∈ rows, row.search ≠ [])
    (holding : List.Forall₂ (Holds header) rows records)
    (limited : ∀ cells ∈ header :: records, ∀ cell ∈ cells, cell.length ≤ 131072) :
    ∃ rules log, (read path).outcome start = (.ok rules, { start with log }) ∧
      rules.map (fun rule => (rule.search, rule.replace, rule.mode)) = rows.map fun row =>
        (row.search, if row.replace = ['_'] then row.search else row.replace, row.mode) := by
  obtain ⟨log, ended⟩ := outcome_read path start
  have found : rulesAt start.store path = .ok (rows.map Row.toRule) := by
    rw [rulesAt, if_pos (Store.holds_of_read stored), stored]
    exact rulesOfBytes_written marked written distinct complete unmarked named holding limited
  refine ⟨rows.map Row.toRule, log, by rw [ended, found], ?_⟩
  rw [List.map_map]
  rfl

/-- That a cell can be written bare is found out character by character. -/
theorem WrittenCell.bareOfAll {delimiter : Char} {cell : Text}
    (plain : (cell.all fun c => c != delimiter && c != '"' && c != '\r' && c != '\n') = true) :
    WrittenCell delimiter cell cell := by
  refine .bare fun c member => ?_
  have each := List.all_eq_true.mp plain c member
  simp only [Bool.and_eq_true, bne_iff_ne] at each
  exact ⟨each.1.1.1, each.1.1.2, each.1.2, each.2⟩

/-- The path of a table with two rows. -/
def samplePath : Path := Path.ofText "rules.csv".toList

/-- Its columns, with one that is not asked for. -/
def sampleHeader : List Text :=
  ["Note".toList, Row.modeColumn, Row.searchColumn, Row.replaceColumn]

/-- Its rows: a search text that holds the delimiter, and a replacement that holds quotes. -/
def sampleRows : List Row :=
  [⟨"x,y".toList, "_".toList, .anywhere, by decide⟩,
    ⟨"ab".toList, "say \"hi\"".toList, .word, by decide⟩]

/-- The records that hold the rows, the first with a cell too many. -/
def sampleRecords : List (List Text) :=
  [[[], "Anywhere".toList, "x,y".toList, "_".toList, "more".toList],
    ["n".toList, "Word".toList, "ab".toList, "say \"hi\"".toList]]

/-- The table as it is written, with an empty line and without a line end behind it. -/
def sampleText : Text :=
  ("Note,Match Mode,Search For,Replace With\r\n\n,Anywhere,\"x,y\",_,more\n" ++
    "n,Word,\"ab\",\"say \"\"hi\"\"\"").toList

/-- A workspace with the file of the table, which begins with a mark. -/
def sampleStart : Workspace where
  store := ⟨[(["CWD".toList], .directory), (["CWD".toList, "rules.csv".toList],
    .file (Utf8.byteOrderMark ++ Utf8.encode sampleText))], ["CWD".toList]⟩
  environment := []
  settings := none
  replies := []
  calls := []
  log := []
  console := []
  workingDirectory := Path.ofText "/CWD".toList
  process := "manuscript".toList

/-- The text is one of the ways to write the table. -/
theorem sample_written : WrittenTable ',' sampleHeader sampleRecords sampleText := by
  have header : WrittenRecord ',' sampleHeader
      ("Note".toList ++ ',' :: ("Match Mode".toList ++ ',' :: ("Search For".toList ++
        ',' :: "Replace With".toList))) :=
    .next _ _ _ _ (.bareOfAll (by decide)) (.next _ _ _ _ (.bareOfAll (by decide))
      (.next _ _ _ _ (.bareOfAll (by decide)) (.last _ _ (.bareOfAll (by decide)))))
  have first : WrittenRecord ','
      [[], "Anywhere".toList, "x,y".toList, "_".toList, "more".toList]
      ([] ++ ',' :: ("Anywhere".toList ++ ',' :: (('"' :: (doubled "x,y".toList ++ ['"'])) ++
        ',' :: ("_".toList ++ ',' :: "more".toList)))) :=
    .next _ _ _ _ (.bareOfAll (by decide)) (.next _ _ _ _ (.bareOfAll (by decide))
      (.next _ _ _ _ .quoted (.next _ _ _ _ (.bareOfAll (by decide))
        (.last _ _ (.bareOfAll (by decide))))))
  have second : WrittenRecord ','
      ["n".toList, "Word".toList, "ab".toList, "say \"hi\"".toList]
      ("n".toList ++ ',' :: ("Word".toList ++ ',' :: (('"' :: (doubled "ab".toList ++ ['"'])) ++
        ',' :: ('"' :: (doubled "say \"hi\"".toList ++ ['"']))))) :=
    .next _ _ _ _ (.bareOfAll (by decide)) (.next _ _ _ _ (.bareOfAll (by decide))
      (.next _ _ _ _ .quoted (.last _ _ .quoted)))
  have table := WrittenTable.rows _ _ sampleRecords _ header .both
    (.blank _ _ _ .feed (.record _ _ _ _ _ first .feed (.last _ _ second)))
  refine Eq.mp (congrArg _ ?_) table
  decide +kernel

/-- The rules of the table are read: the replacement `_` gives the search text. -/
theorem sample_read :
    ∃ rules log, (read samplePath).outcome sampleStart = (.ok rules, { sampleStart with log }) ∧
      rules.map (fun rule => (rule.search, rule.replace, rule.mode)) =
        [("x,y".toList, "x,y".toList, .anywhere), ("ab".toList, "say \"hi\"".toList, .word)] := by
  have stored : sampleStart.store.read samplePath =
      .ok ([0xEF, 0xBB, 0xBF] ++ Utf8.encode sampleText) := by decide +kernel
  have holding : List.Forall₂ (Holds sampleHeader) sampleRows sampleRecords :=
    .cons ⟨by decide, by decide, by decide, by decide⟩
      (.cons ⟨by decide, by decide, by decide, by decide⟩ .nil)
  obtain ⟨rules, log, ended, same⟩ := read_written samplePath sampleStart sampleHeader sampleRows
    sampleRecords sampleText _ stored (.inr rfl) sample_written (by decide) (by decide)
    (by decide) (by decide) holding (by decide)
  exact ⟨rules, log, ended, same⟩

end Manuscript.Table
