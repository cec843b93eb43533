import Mathlib.Data.List.Forall2
import Manuscript.Proofs.Checks
import Manuscript.Proofs.ReadRecords
import Manuscript.Table.Load

/-!
# The cells of a row

Below each column of a header a record has one cell, or none if it is too short. Of two columns
with one name the last counts, also where the record does not reach it. A record is a row if its
three cells are what a row needs: a search text that is not empty, some replacement, and the name
of a mode that fits the search text. The issues of a record that is none are left to the check;
here it only matters which records pass.
-/

namespace Manuscript

/-- A name stands for a mode if it is the name of the mode. -/
theorem Mode.ofName_ok_iff {name : Text} {mode : Mode} :
    Mode.ofName? name = some mode ↔ name = mode.name := by
  constructor
  · intro known
    unfold Mode.ofName? at known
    split at known
    · cases known
      assumption
    · split at known
      · cases known
        assumption
      · cases known
  · rintro rfl
    cases mode <;> decide

namespace Row

theorem checkMode_ok_iff {value : Json} {mode : Mode} :
    checkMode value = .ok mode ↔ value = .string mode.name := by
  cases value with
  | string name =>
    rw [checkMode, Json.string.injEq, ← Mode.ofName_ok_iff]
    cases Mode.ofName? name <;> simp [Checked.refuse]
  | null => simp [checkMode, Checked.refuse]
  | boolean flag => simp [checkMode, Checked.refuse]
  | integer number => simp [checkMode, Checked.refuse]
  | real number => simp [checkMode, Checked.refuse]
  | array items => simp [checkMode, Checked.refuse]
  | object fields => simp [checkMode, Checked.refuse]

/-- A mode passes for a search text if it fits it, and nothing else of it is asked for. -/
theorem checkModeFor_ok_iff {search : Text} {value : Json}
    {mode : { mode : Mode // mode = .word → isWordSearch search = true }} :
    checkModeFor search value = .ok mode ↔ value = .string mode.val.name := by
  constructor
  · intro passed
    obtain ⟨found, named, fits⟩ := bind_ok passed
    split at fits
    · cases fits
      exact checkMode_ok_iff.mp named
    · cases fits
  · intro named
    rw [checkModeFor, checkMode_ok_iff.mpr named]
    exact dif_pos mode.property

/-- The fields of a row are its texts and the name of its mode. -/
theorem ofFields_ok_iff {fields : List (Text × Json)} {row : Row} :
    ofFields fields = .ok row ↔
      Json.field? searchColumn fields = some (.string row.search) ∧ row.search ≠ [] ∧
        Json.field? replaceColumn fields = some (.string row.replace) ∧
        Json.field? modeColumn fields = some (.string row.mode.name) := by
  constructor
  · intro passed
    unfold ofFields at passed
    split at passed
    case h_1 search searched =>
      obtain ⟨⟨replace, mode⟩, both, rfl⟩ := map_ok_iff.mp passed
      obtain ⟨replaced, moded⟩ := Checked.both_ok_iff.mp both
      obtain ⟨_, searchField, search⟩ := Check.required_ok_iff.mp searched
      obtain ⟨_, replaceField, replace⟩ := Check.required_ok_iff.mp replaced
      obtain ⟨_, modeField, mode⟩ := Check.required_ok_iff.mp moded
      obtain ⟨rfl, nonempty⟩ := Check.nonemptyText_ok_iff.mp search
      cases Check.text_ok_iff.mp replace
      cases checkModeFor_ok_iff.mp mode
      exact ⟨searchField, nonempty, replaceField, modeField⟩
    case h_2 => cases passed
  · rintro ⟨searchField, nonempty, replaceField, modeField⟩
    have searched : Check.required Check.nonemptyText searchColumn fields = .ok row.search :=
      Check.required_ok_iff.mpr ⟨_, searchField, Check.nonemptyText_ok_iff.mpr ⟨rfl, nonempty⟩⟩
    have replaced : Check.required Check.text replaceColumn fields = .ok row.replace :=
      Check.required_ok_iff.mpr ⟨_, replaceField, Check.text_ok_iff.mpr rfl⟩
    have moded : Check.required (checkModeFor row.search) modeColumn fields =
        .ok ⟨row.mode, row.wordEdges⟩ :=
      Check.required_ok_iff.mpr ⟨_, modeField, checkModeFor_ok_iff.mpr rfl⟩
    rw [ofFields, searched]
    simp only [Checked.both_ok_iff.mpr ⟨replaced, moded⟩]
    rfl

end Row

namespace Table

/-- A cell of a record that stands below a column: at the last place of the name in the header,
if the record reaches that place. -/
def Below (header cells : List Text) (name cell : Text) : Prop :=
  ∃ before after, header = before ++ name :: after ∧ name ∉ after ∧
    cells[before.length]? = some cell

/-- Below a name there is the cell below one of the later columns, or, if none of them has the
name, the first cell. -/
theorem below_cons_iff {column : Text} {columns cells : List Text} {name cell : Text} :
    Below (column :: columns) cells name cell ↔
      Below columns cells.tail name cell ∨
        (column = name ∧ name ∉ columns ∧ cells.head? = some cell) := by
  constructor
  · rintro ⟨before, after, split, absent, found⟩
    cases before with
    | nil =>
      obtain ⟨rfl, rfl⟩ := List.cons.inj split
      exact .inr ⟨rfl, absent, by rwa [List.head?_eq_getElem?]⟩
    | cons first before =>
      obtain ⟨rfl, rfl⟩ := List.cons.inj split
      exact .inl ⟨before, after, rfl, absent, by rwa [List.getElem?_tail]⟩
  · rintro (⟨before, after, rfl, absent, found⟩ | ⟨rfl, absent, first⟩)
    · exact ⟨column :: before, after, rfl, absent, by rwa [List.getElem?_tail] at found⟩
    · exact ⟨[], columns, rfl, absent, by rwa [List.head?_eq_getElem?] at first⟩

theorem not_below_nil {cells : List Text} {name cell : Text} : ¬Below [] cells name cell := by
  rintro ⟨before, after, split, -⟩
  cases before <;> cases split

/-- Only a column of the header has a cell below it. -/
theorem Below.mem {header cells : List Text} {name cell : Text}
    (below : Below header cells name cell) : name ∈ header := by
  obtain ⟨before, after, rfl, -⟩ := below
  simp

/-- A name has one cell below it at most. -/
theorem Below.unique {header cells : List Text} {name cell other : Text}
    (below : Below header cells name cell) (another : Below header cells name other) :
    cell = other := by
  induction header generalizing cells with
  | nil => exact absurd below not_below_nil
  | cons column columns inductionHypothesis =>
    rcases below_cons_iff.mp below with later | ⟨-, absent, first⟩
    · rcases below_cons_iff.mp another with laterToo | ⟨-, absent, -⟩
      · exact inductionHypothesis later laterToo
      · exact absurd later.mem absent
    · rcases below_cons_iff.mp another with later | ⟨-, -, firstToo⟩
      · exact absurd later.mem absent
      · exact Option.some.inj (first.symm.trans firstToo)

/-- The first field of paired cells holds the first cell, or nothing. -/
theorem pairCells_cons (column : Text) (columns cells : List Text) :
    pairCells (column :: columns) cells =
      (column, (cells.head?.map Json.string).getD .null) :: pairCells columns cells.tail := by
  cases cells <;> rfl

/-- The columns of paired cells are those of the header. -/
theorem pairCells_columns (header cells : List Text) :
    (pairCells header cells).map Prod.fst = header := by
  induction header generalizing cells with
  | nil => rfl
  | cons column columns inductionHypothesis =>
    rw [pairCells_cons, List.map_cons, inductionHypothesis]

/-- A column has no field exactly if it is not in the header. -/
theorem field_none_iff {header cells : List Text} {name : Text} :
    (pairCells header cells).reverse.lookup name = none ↔ name ∉ header := by
  rw [List.lookup_eq_none_iff]
  constructor
  · intro absent member
    rw [← pairCells_columns header cells] at member
    obtain ⟨pair, inside, rfl⟩ := List.mem_map.mp member
    exact bne_iff_ne.mp (absent pair (List.mem_reverse.mpr inside)) rfl
  · intro absent pair member
    rw [bne_iff_ne]
    rintro rfl
    apply absent
    rw [← pairCells_columns header cells]
    exact List.mem_map_of_mem (List.mem_reverse.mp member)

/-- The field of a column holds the cell below it. -/
theorem field_recordFields_iff {header : List Text} {record : Record} {name cell : Text} :
    Json.field? name (recordFields header record) = some (.string cell) ↔
      Below header record.cells name cell := by
  unfold Json.field? recordFields
  generalize record.cells = cells
  induction header generalizing cells with
  | nil => simp [pairCells, not_below_nil]
  | cons column columns inductionHypothesis =>
    rw [pairCells_cons, List.reverse_cons, List.lookup_append, below_cons_iff,
      ← inductionHypothesis cells.tail]
    by_cases later : name ∈ columns
    · -- A later field of the name is the one that counts, also if it holds nothing.
      have known : (pairCells columns cells.tail).reverse.lookup name ≠ none :=
        fun absent => field_none_iff.mp absent later
      obtain ⟨value, found⟩ := Option.ne_none_iff_exists'.mp known
      simp [found, later]
    · rw [field_none_iff.mpr later]
      by_cases same : column = name
      · subst same
        cases cells <;> simp [later]
      · have other : (name == column) = false := beq_eq_false_iff_ne.mpr (Ne.symm same)
        simp [List.lookup_cons, other, same]

/-- The cells of a record give a row. -/
structure Gives (header cells : List Text) (row : Row) : Prop where
  search : Below header cells Row.searchColumn row.search
  named : row.search ≠ []
  replace : Below header cells Row.replaceColumn row.replace
  mode : Below header cells Row.modeColumn row.mode.name

/-- A record is checked as the row that its cells give. -/
theorem ofFields_record_iff {header : List Text} {record : Record} {row : Row} :
    Row.ofFields (recordFields header record) = .ok row ↔ Gives header record.cells row := by
  rw [Row.ofFields_ok_iff]
  simp only [field_recordFields_iff]
  constructor
  · rintro ⟨search, named, replace, mode⟩
    exact ⟨search, named, replace, mode⟩
  · rintro ⟨search, named, replace, mode⟩
    exact ⟨search, named, replace, mode⟩

/-- The cells of a record make a row: it has a search text that is not empty, a replacement, and
the name of a mode that the search text may have. -/
def Acceptable (header cells : List Text) : Prop :=
  ∃ search replace mode, Below header cells "Search For".toList search ∧ search ≠ [] ∧
    Below header cells "Replace With".toList replace ∧
    Below header cells "Match Mode".toList mode ∧
    (mode = "Word".toList ∧ isWordSearch search = true ∨ mode = "Anywhere".toList)

/-- The cells of a record make a row exactly if there is a row that they give. -/
theorem acceptable_iff {header cells : List Text} :
    Acceptable header cells ↔ ∃ row, Gives header cells row := by
  constructor
  · rintro ⟨search, replace, mode, searched, named, replaced, moded, ⟨rfl, fits⟩ | rfl⟩
    · exact ⟨⟨search, replace, .word, fun _ => fits⟩, searched, named, replaced, moded⟩
    · exact ⟨⟨search, replace, .anywhere, by rintro ⟨⟩⟩, searched, named, replaced, moded⟩
  · rintro ⟨⟨search, replace, mode, edges⟩, searched, named, replaced, moded⟩
    refine ⟨search, replace, mode.name, searched, named, replaced, moded, ?_⟩
    cases mode with
    | word => exact .inl ⟨rfl, edges rfl⟩
    | anywhere => exact .inr rfl

/-- A rule that is made of the cells of a record. The replacement `_` stands for the search text,
and making the rule asks once more whether its mode is one and fits. -/
def RuleOf (header cells : List Text) (rule : Rule) : Prop :=
  ∃ search replace mode, Below header cells "Search For".toList search ∧
    Below header cells "Replace With".toList replace ∧
    Below header cells "Match Mode".toList mode ∧
    Rule.ofParts search (if replace = ['_'] then search else replace) (.string mode) = .ok rule

/-- The rule of a row is made of its cells. -/
theorem Gives.ruleOf {header cells : List Text} {row : Row} (gives : Gives header cells row) :
    RuleOf header cells row.toRule := by
  refine ⟨_, _, _, gives.search, gives.replace, gives.mode, ?_⟩
  have known : Rule.modeOf (.string row.mode.name) = .ok row.mode := by
    rw [Rule.modeOf, Mode.ofName_ok_iff.mpr rfl]
  rw [Rule.ofParts, known]
  exact dif_pos row.wordEdges

/-- Records give rules where each of those that have cells gives one. -/
theorem rulesOfRecords_ok_iff {header : List Text} {records : List Record} {rules : List Rule} :
    rulesOfRecords header records = .ok rules ↔
      List.Forall₂ (fun cells rule => ∃ row, Gives header cells row ∧ row.toRule = rule)
        (filled records) rules := by
  induction records generalizing rules with
  | nil => simp [rulesOfRecords, filled, eq_comm]
  | cons record rest inductionHypothesis =>
    by_cases blank : record.cells = []
    · rw [rulesOfRecords, if_pos (List.isEmpty_iff.mpr blank), filled_blank blank]
      exact inductionHypothesis
    · rw [rulesOfRecords, if_neg (by simpa using blank), filled_cons blank,
        List.forall₂_cons_left_iff]
      cases checked : Row.ofFields (recordFields header record) with
      | error issues =>
        constructor
        · rintro ⟨⟩
        · rintro ⟨_, _, ⟨row, gives, -⟩, -⟩
          rw [ofFields_record_iff.mpr gives] at checked
          cases checked
      | ok row =>
        have gives : Gives header record.cells row := ofFields_record_iff.mp checked
        dsimp only
        rw [map_ok_iff]
        constructor
        · rintro ⟨others, found, rfl⟩
          exact ⟨_, others, ⟨row, gives, rfl⟩, inductionHypothesis.mp found, rfl⟩
        · rintro ⟨rule, others, ⟨other, givesOther, rfl⟩, later, rfl⟩
          rw [ofFields_record_iff.mpr givesOther] at checked
          cases checked
          exact ⟨others, inductionHypothesis.mpr later, rfl⟩

/-- A record whose fields are refused makes no row. -/
theorem not_acceptable {header : List Text} {record : Record} {issues : List Issue}
    (checked : Row.ofFields (recordFields header record) = .error issues) :
    ¬Acceptable header record.cells := by
  intro acceptable
  obtain ⟨row, gives⟩ := acceptable_iff.mp acceptable
  rw [ofFields_record_iff.mpr gives] at checked
  cases checked

/-- Records fail at the first one that has cells but makes no row, whatever stands behind it. -/
theorem rulesOfRecords_error_iff {header : List Text} {records : List Record} {fault : TableFault} :
    rulesOfRecords header records = .error fault ↔
      ∃ before failing after, records = before ++ failing :: after ∧
        (∀ record ∈ before, record.cells ≠ [] → Acceptable header record.cells) ∧
        failing.cells ≠ [] ∧ ∃ issues,
          Row.ofFields (recordFields header failing) = .error issues ∧
          fault = .invalidRow issues failing.line := by
  induction records with
  | nil => simp [rulesOfRecords]
  | cons record rest inductionHypothesis =>
    rw [exists_first_cons_iff, ← inductionHypothesis, rulesOfRecords]
    by_cases blank : record.cells = []
    · simp [blank]
    rw [if_neg (by simpa using blank)]
    cases checked : Row.ofFields (recordFields header record) with
    | error issues =>
      simp [blank, not_acceptable checked, eq_comm]
    | ok row =>
      have passes : Acceptable header record.cells :=
        acceptable_iff.mpr ⟨row, ofFields_record_iff.mp checked⟩
      simp [blank, passes, map_error_iff]

end Table

end Manuscript
