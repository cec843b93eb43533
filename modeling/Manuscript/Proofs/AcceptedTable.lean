import Manuscript.Proofs.TableRows

/-!
# Which tables are accepted

A table is read as a whole or refused, whatever its text is. The text is divided into records in
its one way; the first of them names the columns, and each of the others that has cells must make
a row. Then there is one rule for each row, in their order. Otherwise the first record at fault
decides how the table is refused, or the header does, and nothing behind it is looked at. The
limit of a cell is the only thing that is asked of the text.
-/

namespace Manuscript.Table

/-- The columns of a table: the cells of its first record. -/
def columnsOf (passages : List Passage) : List Text := (passages.head?.map Passage.cells).getD []

/-- The cells of the records below the header, of those that have cells. -/
def rowsOf (passages : List Passage) : List (List Text) :=
  (passages.tail.map Passage.cells).filter fun cells => !cells.isEmpty

/-- The first record names the columns of a row. -/
def Headed (passages : List Passage) : Prop :=
  ∀ column ∈ ["Search For".toList, "Replace With".toList, "Match Mode".toList],
    column ∈ columnsOf passages

/-- No cell is over the limit. -/
def Limited (passages : List Passage) : Prop :=
  ∀ passage ∈ passages, ∀ cell ∈ passage.cells, cell.length ≤ 131072

instance (passages : List Passage) : Decidable (Headed passages) :=
  inferInstanceAs (Decidable (∀ column ∈ [_, _, _], column ∈ columnsOf passages))

instance (passages : List Passage) : Decidable (Limited passages) :=
  inferInstanceAs (Decidable (∀ passage ∈ passages, ∀ cell ∈ passage.cells, _ ≤ 131072))

/-- Behind these records below a header there is the first one that has cells but makes no row. -/
structure FailsAt (header : List Text) (before : List Passage) (failing : Passage) : Prop where
  passing : ∀ passage ∈ before, passage.cells ≠ [] → Acceptable header passage.cells
  nonempty : failing.cells ≠ []
  refused : ¬Acceptable header failing.cells

/-- What is wrong with the cells of a record below a header. -/
def Wrong (header cells : List Text) (issues : List Issue) : Prop :=
  ∀ line, Row.ofFields (recordFields header ⟨cells, line⟩) = .error issues

/-- The records of passages, one part behind the other. -/
theorem numbered_append (front : Text) (earlier later : List Passage) :
    numbered front (earlier ++ later) =
      numbered front earlier ++ numbered (front ++ earlier.flatMap Passage.text) later := by
  induction earlier generalizing front with
  | nil => simp [numbered]
  | cons passage rest inductionHypothesis =>
    simp [numbered, inductionHypothesis]

/-- A record among those of passages is that of a passage, with the lines up to its end. -/
theorem numbered_split {front : Text} {passages : List Passage} {before after : List Record}
    {failing : Record} (split : numbered front passages = before ++ failing :: after) :
    ∃ earlier passage later, passages = earlier ++ passage :: later ∧
      before = numbered front earlier ∧ failing.cells = passage.cells ∧
      failing.line = (front ++ (earlier ++ [passage]).flatMap Passage.text).lineCount := by
  induction before generalizing front passages with
  | nil =>
    cases passages with
    | nil => cases split
    | cons passage rest =>
      obtain ⟨rfl, -⟩ := List.cons.inj split
      exact ⟨[], passage, rest, rfl, rfl, rfl, by simp⟩
  | cons record before inductionHypothesis =>
    cases passages with
    | nil => cases split
    | cons first rest =>
      obtain ⟨rfl, behind⟩ := List.cons.inj split
      obtain ⟨earlier, passage, later, rfl, rfl, cells, line⟩ := inductionHypothesis behind
      exact ⟨first :: earlier, passage, later, rfl, rfl, cells, by simpa using line⟩

/-- The records of passages that have cells are acceptable where the passages are. -/
theorem passing_numbered_iff {header : List Text} {front : Text} {passages : List Passage} :
    (∀ record ∈ numbered front passages, record.cells ≠ [] → Acceptable header record.cells) ↔
      ∀ passage ∈ passages, passage.cells ≠ [] → Acceptable header passage.cells := by
  induction passages generalizing front with
  | nil => simp [numbered]
  | cons passage rest inductionHypothesis =>
    rw [numbered, List.forall_mem_cons, List.forall_mem_cons, inductionHypothesis]

/-- Records below a header fail at the first passage that makes no row. -/
theorem rulesOfRecords_numbered_error_iff {header : List Text} {front : Text}
    {passages : List Passage} {fault : TableFault} :
    rulesOfRecords header (numbered front passages) = .error fault ↔
      ∃ before failing after issues, passages = before ++ failing :: after ∧
        FailsAt header before failing ∧ Wrong header failing.cells issues ∧
        fault = .invalidRow issues
          (front ++ (before ++ [failing]).flatMap Passage.text).lineCount := by
  rw [rulesOfRecords_error_iff]
  constructor
  · rintro ⟨_, ⟨cells, line⟩, _, split, passing, nonempty, issues, checked, rfl⟩
    obtain ⟨before, failing, after, rfl, rfl, rfl, rfl⟩ := numbered_split split
    exact ⟨before, failing, after, issues, rfl,
      ⟨passing_numbered_iff.mp passing, nonempty, not_acceptable checked⟩, fun _ => checked, rfl⟩
  · rintro ⟨before, failing, after, issues, rfl, fails, wrong, rfl⟩
    have split : numbered front (before ++ failing :: after) = numbered front before ++
        ⟨failing.cells, (front ++ (before ++ [failing]).flatMap Passage.text).lineCount⟩ ::
          numbered (front ++ (before ++ [failing]).flatMap Passage.text) after := by
      simp [numbered_append, numbered]
    exact ⟨_, _, _, split, passing_numbered_iff.mpr fails.passing, fails.nonempty, issues,
      wrong _, rfl⟩

/-- Partners for all elements of a list are found one by one. -/
theorem exists_forall₂_iff {α β : Type} {related : α → β → Prop} {items : List α} :
    (∃ partners, List.Forall₂ related items partners) ↔
      ∀ item ∈ items, ∃ partner, related item partner := by
  induction items with
  | nil => simp
  | cons item rest inductionHypothesis =>
    rw [List.forall_mem_cons, ← inductionHypothesis]
    constructor
    · rintro ⟨_, partners⟩
      cases partners with
      | cons first others => exact ⟨⟨_, first⟩, _, others⟩
    · rintro ⟨⟨partner, first⟩, partners, others⟩
      exact ⟨partner :: partners, .cons first others⟩

section Content

variable {path : Path} {passages : List Passage}

/-- The rules of the records of passages: those of the rows, if no column is missing. -/
theorem rulesOfTable_numbered :
    rulesOfTable path (numbered [] passages) none =
      (if missingColumns (columnsOf passages) = [] then
        rulesOfRecords (columnsOf passages)
          (numbered ((passages.take 1).flatMap Passage.text) passages.tail)
      else .error (.missingColumns (missingColumns (columnsOf passages)))).mapError
        (Failure.table path) := by
  cases passages with
  | nil =>
    have missing : missingColumns [] = Row.columns := by decide
    simp only [numbered, rulesOfTable, columnsOf, List.head?_nil, Option.map_none,
      Option.getD_none, missing]
    rfl
  | cons first rest =>
    have front : (List.take 1 (first :: rest)).flatMap Passage.text = first.text := by simp
    simp only [numbered, rulesOfTable, columnsOf, List.head?_cons, Option.map_some,
      Option.getD_some, List.isEmpty_iff, List.nil_append, List.tail_cons, front]
    by_cases complete : missingColumns first.cells = []
    · rw [if_pos complete, if_pos complete]
      cases rulesOfRecords first.cells (numbered first.text rest) <;> rfl
    · rw [if_neg complete, if_neg complete]
      rfl

/-- The table is accepted with the rules of its rows. -/
theorem rulesOfTable_ok_iff {rules : List Rule} :
    rulesOfTable path (numbered [] passages) none = .ok rules ↔
      Headed passages ∧
        List.Forall₂ (fun cells rule => ∃ row, Gives (columnsOf passages) cells row ∧
          row.toRule = rule) (rowsOf passages) rules := by
  rw [rulesOfTable_numbered, mapError_ok_iff, Headed, rowsOf]
  split
  case isTrue complete =>
    rw [rulesOfRecords_ok_iff, filled, numbered_cells]
    exact (and_iff_right (missingColumns_nil_iff.mp complete)).symm
  case isFalse missing =>
    constructor
    · rintro ⟨⟩
    · rintro ⟨complete, -⟩
      exact absurd (missingColumns_nil_iff.mpr complete) missing

/-- The table is refused for its header, or else for the first record that makes no row. -/
theorem rulesOfTable_error_iff {failure : Failure} :
    rulesOfTable path (numbered [] passages) none = .error failure ↔
      ¬Headed passages ∧
          failure = .table path (.missingColumns (missingColumns (columnsOf passages))) ∨
        Headed passages ∧ ∃ before failing after issues,
          passages.tail = before ++ failing :: after ∧
          FailsAt (columnsOf passages) before failing ∧
          Wrong (columnsOf passages) failing.cells issues ∧
          failure = .table path (.invalidRow issues
            (Text.lineCount
              ((passages.take 1 ++ (before ++ [failing])).flatMap Passage.text))) := by
  have headed : Headed passages ↔ missingColumns (columnsOf passages) = [] :=
    missingColumns_nil_iff.symm
  rw [rulesOfTable_numbered, headed]
  split
  case isTrue complete =>
    simp only [complete, not_true_eq_false, false_and, false_or, true_and, mapError_error_iff,
      rulesOfRecords_numbered_error_iff, List.flatMap_append]
    constructor
    · rintro ⟨_, ⟨before, failing, after, issues, split, fails, wrong, rfl⟩, rfl⟩
      exact ⟨before, failing, after, issues, split, fails, wrong, rfl⟩
    · rintro ⟨before, failing, after, issues, split, fails, wrong, rfl⟩
      exact ⟨_, ⟨before, failing, after, issues, split, fails, wrong, rfl⟩, rfl⟩
  case isFalse missing =>
    simp only [missing, not_false_eq_true, true_and, false_and, or_false, mapError_error,
      Except.error.injEq]
    exact eq_comm

/-- Reading a file is reading the records that its text is divided into. -/
theorem outcome_read_content {start : Workspace} {content : Text}
    (stored : start.store.read path = .ok (Utf8.encode content))
    (division : TableText (delimiter path) passages (Text.dropMark content))
    (limited : Limited passages) :
    ∃ log, (read path).outcome start =
      (rulesOfTable path (numbered [] passages) none, { start with log }) := by
  obtain ⟨log, ended⟩ := outcome_read path start
  have found : rulesAt start.store path = rulesOfTable path (numbered [] passages) none := by
    rw [rulesAt, if_pos (Store.holds_of_read stored), stored]
    simp only [rulesOfBytes, recordsOfBytes, Utf8.decodeMarked_content,
      scanRecords_tableText (delimiter_delimits path) division limited]
  exact ⟨log, by rw [ended, found]⟩

end Content

/-- A table file, whatever is in it, is accepted exactly if its first record names the columns and
all others that have cells make a row; then there is one rule for each of them, in their order.
Otherwise it is refused with its path: without a line exactly if a column is missing, and else for
the first record that makes no row, in a way that depends on nothing behind that record. -/
theorem read_whole (path : Path) (start : Workspace) (content : Text)
    (stored : start.store.read path = .ok (Utf8.encode content)) :
    ∃ passages, (∀ others, TableText (if path.suffix = ".tsv".toList then '\t' else ',') others
        (Text.dropMark content) ↔ others = passages) ∧
      (Limited passages → ∃ result log, (read path).outcome start = (result, { start with log }) ∧
        ((∃ rules, result = .ok rules) ↔
          Headed passages ∧ ∀ cells ∈ rowsOf passages, Acceptable (columnsOf passages) cells) ∧
        (∀ rules, result = .ok rules →
          List.Forall₂ (RuleOf (columnsOf passages)) (rowsOf passages) rules) ∧
        ∀ failure, result = .error failure → ∃ fault, failure = .table path fault ∧
          (fault.line? = none ↔ ¬Headed passages) ∧
          (Headed passages → ∃ before failing after issues,
            passages.tail = before ++ failing :: after ∧
            FailsAt (columnsOf passages) before failing ∧
            Wrong (columnsOf passages) failing.cells issues ∧
            fault = .invalidRow issues
              (Text.lineCount
                ((passages.take 1 ++ (before ++ [failing])).flatMap Passage.text)))) := by
  obtain ⟨passages, unique⟩ :=
    tableText_exists_unique (delimiter_delimits path) (Text.dropMark content)
  refine ⟨passages, unique, fun limited => ?_⟩
  obtain ⟨log, ended⟩ := outcome_read_content stored ((unique passages).mpr rfl) limited
  refine ⟨_, log, ended, ?_, fun rules accepted => ?_, fun failure refused => ?_⟩
  · simp only [rulesOfTable_ok_iff, exists_and_left, exists_forall₂_iff, acceptable_iff]
    constructor
    · rintro ⟨headed, giving⟩
      refine ⟨headed, fun cells member => ?_⟩
      obtain ⟨rule, row, gives, -⟩ := giving cells member
      exact ⟨row, gives⟩
    · rintro ⟨headed, giving⟩
      refine ⟨headed, fun cells member => ?_⟩
      obtain ⟨row, gives⟩ := giving cells member
      exact ⟨row.toRule, row, gives, rfl⟩
  · obtain ⟨-, giving⟩ := rulesOfTable_ok_iff.mp accepted
    refine giving.imp ?_
    rintro cells _ ⟨row, gives, rfl⟩
    exact gives.ruleOf
  · rcases rulesOfTable_error_iff.mp refused with ⟨missing, rfl⟩ |
      ⟨headed, before, failing, after, issues, split, fails, wrong, rfl⟩
    · exact ⟨_, rfl, by simp [TableFault.line?, missing], fun headed => absurd headed missing⟩
    · exact ⟨_, rfl, by simp [TableFault.line?, headed],
        fun _ => ⟨before, failing, after, issues, split, fails, wrong, rfl⟩⟩

/-- A table with an empty line, all line ends, text behind a closing quote, and quotes that are
never closed in its last record. -/
def tornPassages : List Passage :=
  [⟨Row.columns, "Search For,Replace With,Match Mode".toList, "\n".toList⟩,
    ⟨[], [], "\n".toList⟩,
    ⟨["ab".toList, "cd".toList, "Word".toList], "ab,\"c\"d,Word".toList, "\r".toList⟩,
    ⟨["x".toList, "_".toList, "Anywhere".toList], "x,_,Anywhere".toList, "\r\n".toList⟩,
    ⟨["-".toList, "y".toList, "Word\nz".toList], "-,y,\"Word\nz".toList, []⟩]

/-- The text of the table. -/
def tornText : Text := tornPassages.flatMap Passage.text

/-- A workspace with the file of the table, which begins with a mark. -/
def tornStart : Workspace :=
  { sampleStart with
    store := ⟨[(["CWD".toList], .directory), (["CWD".toList, "rules.csv".toList],
      .file (Utf8.encode ('\uFEFF' :: tornText)))], ["CWD".toList]⟩ }

theorem torn_division : TableText ',' tornPassages tornText := by
  have header : WrittenRecord ',' Row.columns
      ("Search For".toList ++ ',' :: ("Replace With".toList ++ ',' :: "Match Mode".toList)) :=
    .next _ _ _ _ (.bareOfAll (by decide)) (.next _ _ _ _ (.bareOfAll (by decide))
      (.last _ _ (.bareOfAll (by decide))))
  have second : WrittenRecord ',' ["x".toList, "_".toList, "Anywhere".toList]
      ("x".toList ++ ',' :: ("_".toList ++ ',' :: "Anywhere".toList)) :=
    .next _ _ _ _ (.bareOfAll (by decide)) (.next _ _ _ _ (.bareOfAll (by decide))
      (.last _ _ (.bareOfAll (by decide))))
  -- The other two rows are not written by the rules, but for their bare cells.
  have search : WrittenCell ',' "ab".toList "ab".toList := .bareOfAll (by decide)
  have mode : WrittenCell ',' "Word".toList "Word".toList := .bareOfAll (by decide)
  have dash : WrittenCell ',' "-".toList "-".toList := .bareOfAll (by decide)
  have replace : WrittenCell ',' "y".toList "y".toList := .bareOfAll (by decide)
  have behindQuote : CellText ',' false "cd".toList ('"' :: (doubled ['c'] ++ '"' :: ['d'])) :=
    .quoted ['c'] ['d'] (by simp [Inner]) (by decide)
  have first : RowText ',' false ["ab".toList, "cd".toList, "Word".toList]
      ("ab".toList ++ ',' :: (('"' :: (doubled ['c'] ++ '"' :: ['d'])) ++ ',' :: "Word".toList)) :=
    .next _ _ _ _ search.cellText (.next _ _ _ _ behindQuote (.last _ _ mode.cellText))
  have third : RowText ',' true ["-".toList, "y".toList, "Word\nz".toList]
      ("-".toList ++ ',' :: ("y".toList ++ ',' :: '"' :: doubled "Word\nz".toList)) :=
    .next _ _ _ _ dash.cellText (.next _ _ _ _ replace.cellText (.last _ _ (.unclosed _)))
  have whole := TableText.line _ _ _ _ _ (header.lineText (by decide)) (.feed _)
    (.line _ _ _ _ _ .blank (.feed _) (.line _ _ _ _ _ (.row _ _ _ (by decide) first)
      (.carriage _ (by decide)) (.line _ _ _ _ _ (second.lineText (by decide)) (.both _)
        (.last _ _ _ (by decide) (.row _ _ _ (by decide) third)))))
  exact Eq.mp (congrArg₂ _ (by decide +kernel) (by decide +kernel)) whole

/-- The table is refused, and with a line, because its last record has no mode. -/
theorem torn_refused :
    ∃ fault log, (read samplePath).outcome tornStart =
        (.error (.table samplePath fault), { tornStart with log }) ∧
      fault.line? ≠ none := by
  have stored : tornStart.store.read samplePath = .ok (Utf8.encode ('\uFEFF' :: tornText)) := by
    decide +kernel
  obtain ⟨passages, unique, verdict⟩ := read_whole samplePath tornStart _ stored
  obtain rfl := (unique tornPassages).mp torn_division
  obtain ⟨result, log, ended, accepted, -, refused⟩ := verdict (by decide)
  have headed : Headed tornPassages := by decide
  cases result with
  | ok rules =>
    obtain ⟨-, rows⟩ := accepted.mp ⟨rules, rfl⟩
    obtain ⟨search, replace, mode, -, -, -, moded, named⟩ :=
      rows ["-".toList, "y".toList, "Word\nz".toList] (by decide)
    have last : Below (columnsOf tornPassages) ["-".toList, "y".toList, "Word\nz".toList]
        Row.modeColumn "Word\nz".toList :=
      ⟨[Row.searchColumn, Row.replaceColumn], [], rfl, List.not_mem_nil, rfl⟩
    obtain rfl := moded.unique last
    rcases named with ⟨word, -⟩ | anywhere
    · cases word
    · cases anywhere
  | error failure =>
    obtain ⟨fault, rfl, line, -⟩ := refused failure rfl
    exact ⟨fault, log, ended, fun none => line.mp none headed⟩

end Manuscript.Table
