import Manuscript.Proofs.ReadRecords

/-!
# Reading written tables

A cell can be written in two ways: quoted, or bare if nothing in it has a meaning of its own.
Records are cells with delimiters between them and line ends behind them, the last one
perhaps without, and empty lines may stand between records. Whatever has been chosen, the text
is divided into the records again, so the reading finds them.
-/

namespace Manuscript.Table

/-- The ways to write a cell. -/
inductive WrittenCell (delimiter : Char) (cell : Text) : Text → Prop where
  | bare (plain : ∀ c ∈ cell, c ≠ delimiter ∧ c ≠ '"' ∧ c ≠ '\r' ∧ c ≠ '\n') :
      WrittenCell delimiter cell cell
  | quoted : WrittenCell delimiter cell ('"' :: (doubled cell ++ ['"']))

/-- The ways to write a record, which has one cell at least. -/
inductive WrittenRecord (delimiter : Char) : List Text → Text → Prop where
  | last (cell text : Text) (written : WrittenCell delimiter cell text) :
      WrittenRecord delimiter [cell] text
  | next (cell text : Text) (cells : List Text) (more : Text)
      (written : WrittenCell delimiter cell text) (others : WrittenRecord delimiter cells more) :
      WrittenRecord delimiter (cell :: cells) (text ++ delimiter :: more)

/-- The line ends that are written. -/
inductive LineEnd : Text → Prop where
  | feed : LineEnd ['\n']
  | both : LineEnd ['\r', '\n']

/-- The ways to write records: each ends a line, but the last may end with the text, and there
may be empty lines. -/
inductive WrittenRecords (delimiter : Char) : List (List Text) → Text → Prop where
  | none : WrittenRecords delimiter [] []
  | last (cells : List Text) (text : Text) (written : WrittenRecord delimiter cells text) :
      WrittenRecords delimiter [cells] text
  | blank (ending : Text) (records : List (List Text)) (more : Text) (ends : LineEnd ending)
      (others : WrittenRecords delimiter records more) :
      WrittenRecords delimiter records (ending ++ more)
  | record (cells : List Text) (text ending : Text) (records : List (List Text)) (more : Text)
      (written : WrittenRecord delimiter cells text) (ends : LineEnd ending)
      (others : WrittenRecords delimiter records more) :
      WrittenRecords delimiter (cells :: records) (text ++ (ending ++ more))

/-- The ways to write a table: its header comes first, without empty lines before it. -/
inductive WrittenTable (delimiter : Char) (header : List Text) :
    List (List Text) → Text → Prop where
  | only (text : Text) (written : WrittenRecord delimiter header text) :
      WrittenTable delimiter header [] text
  | rows (text ending : Text) (records : List (List Text)) (more : Text)
      (written : WrittenRecord delimiter header text) (ends : LineEnd ending)
      (others : WrittenRecords delimiter records more) :
      WrittenTable delimiter header records (text ++ (ending ++ more))

section Written

variable {delimiter : Char}

/-- However a cell is written, it stands for itself in a text. -/
theorem WrittenCell.cellText {cell text : Text} (written : WrittenCell delimiter cell text) :
    CellText delimiter false cell text := by
  cases written with
  | bare plain =>
    refine .bare cell (fun c member => ?_) fun quote => ?_
    · obtain ⟨notDelimiter, -, notCarriage, notFeed⟩ := plain c member
      exact ⟨notDelimiter, notCarriage, notFeed⟩
    · exact (plain '"' (List.mem_of_head? quote)).2.1 rfl
  | quoted =>
    have closed : CellText delimiter false (cell ++ []) ('"' :: (doubled cell ++ ['"'])) :=
      .quoted cell [] (by simp) (by simp)
    rwa [List.append_nil] at closed

/-- However a record is written, it is a row of a text. -/
theorem WrittenRecord.rowText {row : List Text} {text : Text}
    (written : WrittenRecord delimiter row text) : RowText delimiter false row text := by
  induction written with
  | last cell text written => exact .last cell text written.cellText
  | next cell text cells more written _ inductionHypothesis =>
    exact .next cell text cells more written.cellText inductionHypothesis

/-- A written record of two cells or more is no empty line. -/
theorem WrittenRecord.text_ne_nil {row : List Text} {text : Text}
    (written : WrittenRecord delimiter row text) (several : 2 ≤ row.length) : text ≠ [] := by
  cases written with
  | last => simp at several
  | next => simp

theorem WrittenRecord.lineText {row : List Text} {text : Text}
    (written : WrittenRecord delimiter row text) (several : 2 ≤ row.length) :
    LineText delimiter false row text :=
  .row false row text (written.text_ne_nil several) written.rowText

theorem LineEnd.lineEnding {ending : Text} (ends : LineEnd ending) (rest : Text) :
    LineEnding ending rest := by
  cases ends with
  | feed => exact .feed rest
  | both => exact .both rest

/-- However records are written, the text is divided into them; between them there may be some
without cells, for the empty lines. -/
theorem WrittenRecords.tableText {rows : List (List Text)} {text : Text}
    (written : WrittenRecords delimiter rows text) (several : ∀ row ∈ rows, 2 ≤ row.length) :
    ∃ passages, TableText delimiter passages text ∧
      (passages.map Passage.cells).filter (fun cells => !cells.isEmpty) = rows := by
  induction written with
  | none => exact ⟨[], .none, rfl⟩
  | last cells text written =>
    have long : 2 ≤ cells.length := several cells List.mem_cons_self
    have filled : cells ≠ [] := by
      rintro rfl
      simp at long
    exact ⟨_, .last false cells text (written.text_ne_nil long) (written.lineText long),
      by simp [filled]⟩
  | blank ending rows more ends _ inductionHypothesis =>
    obtain ⟨passages, division, same⟩ := inductionHypothesis several
    exact ⟨_, .line [] [] ending passages more .blank (ends.lineEnding more) division, by simpa⟩
  | record cells text ending rows more written ends _ inductionHypothesis =>
    obtain ⟨long, others⟩ := List.forall_mem_cons.mp several
    obtain ⟨passages, division, same⟩ := inductionHypothesis others
    refine ⟨_, .line cells text ending passages more (written.lineText long)
      (ends.lineEnding more) division, ?_⟩
    have filled : cells ≠ [] := by
      rintro rfl
      simp at long
    simpa [filled] using same

/-- However a table is written, the text is divided into its header and its rows. -/
theorem WrittenTable.tableText {header : List Text} {rows : List (List Text)} {text : Text}
    (written : WrittenTable delimiter header rows text)
    (several : ∀ row ∈ header :: rows, 2 ≤ row.length) :
    ∃ first passages, TableText delimiter (first :: passages) text ∧ first.cells = header ∧
      (passages.map Passage.cells).filter (fun cells => !cells.isEmpty) = rows := by
  obtain ⟨long, others⟩ := List.forall_mem_cons.mp several
  cases written with
  | only text written =>
    exact ⟨_, [], .last false header text (written.text_ne_nil long) (written.lineText long), rfl,
      rfl⟩
  | rows text ending rows more written ends records =>
    obtain ⟨passages, division, same⟩ := records.tableText others
    exact ⟨_, passages, .line header text ending passages more (written.lineText long)
      (ends.lineEnding more) division, rfl, same⟩

/-- However a table is written, its header is read first, and then its rows. -/
theorem scanRecords_written {header : List Text} {rows : List (List Text)}
    {text : Text} (delimits : Delimits delimiter)
    (written : WrittenTable delimiter header rows text)
    (limited : ∀ row ∈ header :: rows, ∀ cell ∈ row, cell.length ≤ cellLimit)
    (several : ∀ row ∈ header :: rows, 2 ≤ row.length) :
    ∃ line records, (scanRecords delimiter text).ended = (⟨header, line⟩ :: records, none) ∧
      filled records = rows := by
  obtain ⟨first, passages, division, rfl, same⟩ := written.tableText several
  obtain ⟨limitedHeader, limitedRows⟩ := List.forall_mem_cons.mp limited
  have limitedPassages : ∀ passage ∈ first :: passages,
      ∀ cell ∈ passage.cells, cell.length ≤ cellLimit := by
    refine List.forall_mem_cons.mpr ⟨limitedHeader, fun passage member cell inside => ?_⟩
    have row : passage.cells ∈ rows := by
      rw [← same, List.mem_filter]
      refine ⟨List.mem_map_of_mem member, ?_⟩
      simpa using List.ne_nil_of_mem inside
    exact limitedRows passage.cells row cell inside
  refine ⟨_, _, scanRecords_tableText delimits division limitedPassages, ?_⟩
  rw [filled, numbered_cells, same]

end Written

end Manuscript.Table
