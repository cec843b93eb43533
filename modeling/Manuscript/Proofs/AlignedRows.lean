import Manuscript.Proofs.AlignedCells
import Manuscript.Proofs.BlockRows
import Manuscript.Proofs.Division
import Manuscript.Proofs.Numerals
import Mathlib.Data.List.Forall2

/-!
# The rows of an aligned block

An ampersand separates the first cell of a row from the second, and two separate later neighbours.
So the fields of a row, which are what stands between its ampersands, hold the cells in turn: the
first cell, the second, and from there on an empty field before every further cell. A row of two
cells or more has two fields less than twice as many as it has cells, which fits an environment for
that many columns, and the block declares as many columns as its widest line has cells.

The cells of a row can be read back if the macro list writes no ampersand into any of them. A cell
is never empty, also behind a macro list, so an empty row is one without cells.
-/

namespace Manuscript

/-- A rule writes something for every text but the empty one. -/
theorem Rule.substitute_ne_nil (rule : Rule) {text : Text} (nonempty : text ≠ []) :
    rule.substitute text ≠ [] := by
  intro empty
  rw [Rule.substitute, List.flatMap_eq_nil_iff] at empty
  have none : rule.divide text = [] := by
    rw [List.eq_nil_iff_forall_not_mem]
    intro piece member
    have nothing := empty piece member
    cases piece <;> cases nothing
  rw [← rule.divide_source text, none] at nonempty
  exact nonempty rfl

theorem applyRules_ne_nil (rules : List Rule) {text : Text} (nonempty : text ≠ []) :
    applyRules rules text ≠ [] := by
  induction rules generalizing text with
  | nil => exact nonempty
  | cons rule rest inductionHypothesis =>
    exact inductionHypothesis (rule.substitute_ne_nil nonempty)

/-- There is one piece more than there are cuts. -/
theorem Text.length_splitOnP {α : Type} (picked : α → Bool) (text : List α) :
    (text.splitOnP picked).length = text.countP picked + 1 := by
  induction text with
  | nil => simp
  | cons x rest inductionHypothesis =>
    rw [List.splitOnP_cons_eq_if_modifyHead]
    cases chosen : picked x with
    | true => simp [chosen, inductionHypothesis]
    | false => simp [chosen, inductionHypothesis, List.countP_cons_of_neg]

/-- Digits are written in LaTeX as they are. -/
theorem Latex.escape_digits {digits : Text} (each : ∀ c ∈ digits, Text.isDigit c = true) :
    escape digits = digits := by
  have plain : ∀ c ∈ digits, escapeChar c = [c] := by
    intro c member
    have digit := each c member
    unfold escapeChar
    split
    case h_11 => rfl
    -- No character with an escape of its own is a digit.
    all_goals exact absurd digit (by decide)
  rw [escape, List.flatMap_congr plain, List.flatMap_singleton']

namespace Alignment

/-- The cells of a line with the macro list applied to each. -/
def substituted (rules : List Rule) (line : Text) : List Text := (cells line).map (applyRules rules)

/-- What stands between the ampersands of a row. -/
def fields (row : Text) : List Text := row.splitOn '&'

/-- How cells are spread over fields, both counted from zero. A single cell is the only field. Of
several cells the first one is in the first field, with a space behind it. Every other one is in
the field before the even number that is twice its own, with a space before it, and one behind it
unless it is the last. The fields with even numbers, but for the first, are empty. -/
structure Spread (found fields : List Text) : Prop where
  few : found.length ≤ 1 → fields = [found.flatten]
  count : 2 ≤ found.length → fields.length = 2 * found.length - 2
  first : 2 ≤ found.length → ∀ cell, found[0]? = some cell → fields[0]? = some (cell ++ [' '])
  later : ∀ number cell, 1 ≤ number → found[number]? = some cell →
    fields[2 * number - 1]? = some (' ' :: cell ++ if number + 1 < found.length then [' '] else [])
  empty : ∀ number, 1 ≤ number → number + 1 < found.length → fields[2 * number]? = some []

/-- The fields from the second cell of a row on. -/
def laterFields : Text → List Text → List Text
  | last, [] => [' ' :: last]
  | cell, next :: rest => (' ' :: cell ++ [' ']) :: [] :: laterFields next rest

/-- The cells in the fields behind the first one. -/
def readLater : List Text → List Text
  | [] => []
  | [last] => [last.drop 1]
  | field :: _ :: rest => (field.drop 1).dropLast :: readLater rest

/-- Read the cells of a row. -/
def readCells (row : Text) : List Text :=
  if row = [] then []
  else match fields row with
    | [] => []
    | [cell] => [cell]
    | first :: later => first.dropLast :: readLater later

/-! ## The fields of a row -/

theorem fields_plain {field : Text} (plain : '&' ∉ field) : fields field = [field] :=
  List.splitOn_eq_singleton plain

/-- An ampersand ends the field before it. -/
theorem fields_cut {field : Text} (plain : '&' ∉ field) (rest : Text) :
    fields (field ++ '&' :: rest) = field :: fields rest :=
  List.splitOn_append_cons_self_of_not_mem plain rest

/-- Two ampersands stand before every cell from the third one on. -/
theorem fields_later {cell : Text} {rest : List Text}
    (plain : ∀ other ∈ cell :: rest, '&' ∉ other) :
    fields (' ' :: cell ++ joinLater rest) = laterFields cell rest := by
  induction rest generalizing cell with
  | nil =>
    have single : '&' ∉ ' ' :: cell := by simpa using plain
    rw [joinLater, List.append_nil, fields_plain single, laterFields]
  | cons next rest inductionHypothesis =>
    obtain ⟨here, others⟩ := List.forall_mem_cons.mp plain
    have field : '&' ∉ ' ' :: cell ++ [' '] := by simpa using here
    have between (behind : Text) : fields ('&' :: behind) = [] :: fields behind :=
      fields_cut List.not_mem_nil behind
    have row : ' ' :: cell ++ joinLater (next :: rest) =
        (' ' :: cell ++ [' ']) ++ '&' :: '&' :: (' ' :: next ++ joinLater rest) := by
      simp [joinLater]
    rw [row, fields_cut field, between, inductionHypothesis others, laterFields]

/-- One ampersand stands between the first two cells. -/
theorem fields_joinCells {first second : Text} {rest : List Text}
    (plain : ∀ cell ∈ first :: second :: rest, '&' ∉ cell) :
    fields (joinCells (first :: second :: rest)) = (first ++ [' ']) :: laterFields second rest := by
  obtain ⟨here, others⟩ := List.forall_mem_cons.mp plain
  have field : '&' ∉ first ++ [' '] := by simpa using here
  have row : joinCells (first :: second :: rest) =
      (first ++ [' ']) ++ '&' :: (' ' :: second ++ joinLater rest) := by
    simp [joinCells]
  rw [row, fields_cut field, fields_later others]

theorem laterFields_length (cell : Text) (rest : List Text) :
    (laterFields cell rest).length = 2 * rest.length + 1 := by
  induction rest generalizing cell with
  | nil => rfl
  | cons next rest inductionHypothesis =>
    rw [laterFields, List.length_cons, List.length_cons, inductionHypothesis, List.length_cons]
    omega

/-- The cells are in every other field. -/
theorem laterFields_cell {cell : Text} {rest : List Text} {number : Nat} {other : Text}
    (found : (cell :: rest)[number]? = some other) :
    (laterFields cell rest)[2 * number]? =
      some (' ' :: other ++ if number < rest.length then [' '] else []) := by
  induction rest generalizing cell number with
  | nil =>
    cases number with
    | zero =>
      cases found
      simp [laterFields]
    | succ number => simp at found
  | cons next rest inductionHypothesis =>
    cases number with
    | zero =>
      cases found
      simp [laterFields]
    | succ number =>
      have here : (next :: rest)[number]? = some other := found
      simpa [laterFields, Nat.mul_succ] using inductionHypothesis here

/-- The fields between those of the cells are empty. -/
theorem laterFields_empty (cell : Text) {rest : List Text} {number : Nat}
    (inside : number < rest.length) : (laterFields cell rest)[2 * number + 1]? = some [] := by
  induction rest generalizing cell number with
  | nil => simp at inside
  | cons next rest inductionHypothesis =>
    cases number with
    | zero => rfl
    | succ number =>
      have here : number < rest.length := by simpa using inside
      simpa [laterFields, Nat.mul_succ] using inductionHypothesis next here

/-- The cells of a row are spread over its fields. -/
theorem spread_joinCells {found : List Text} (plain : ∀ cell ∈ found, '&' ∉ cell) :
    Spread found (fields (joinCells found)) := by
  match found with
  | [] =>
    exact ⟨fun _ => rfl, by simp, by simp, by simp, by simp⟩
  | [cell] =>
    have whole : fields (joinCells [cell]) = [cell] := fields_plain (plain cell (by simp))
    refine ⟨fun _ => by simpa using whole, by simp, by simp, ?_, by simp⟩
    intro number other positive member
    simp [show number ≠ 0 by omega] at member
  | first :: second :: rest =>
    rw [fields_joinCells plain]
    refine ⟨fun few => by simp at few, fun _ => ?_, fun _ cell here => ?_,
      fun number cell positive member => ?_, fun number positive inside => ?_⟩
    · rw [List.length_cons, laterFields_length]
      simp only [List.length_cons]
      omega
    · cases here
      rfl
    · obtain ⟨before, rfl⟩ : ∃ before, number = before + 1 := ⟨number - 1, by omega⟩
      have here : (second :: rest)[before]? = some cell := member
      have last : before < rest.length ↔ before + 1 + 1 < (first :: second :: rest).length := by
        simp
      have placed := laterFields_cell here
      simp only [last] at placed
      exact placed
    · obtain ⟨before, rfl⟩ : ∃ before, number = before + 1 := ⟨number - 1, by omega⟩
      exact laterFields_empty second (by simpa using inside)

theorem readLater_laterFields (cell : Text) (rest : List Text) :
    readLater (laterFields cell rest) = cell :: rest := by
  induction rest generalizing cell with
  | nil => rfl
  | cons next rest inductionHypothesis =>
    rw [laterFields, readLater, inductionHypothesis]
    simp

/-- The cells of a row are read back. Only a row without cells is empty. -/
theorem readCells_joinCells {found : List Text} (plain : ∀ cell ∈ found, '&' ∉ cell)
    (filled : ∀ cell ∈ found, cell ≠ []) : readCells (joinCells found) = found := by
  match found with
  | [] => rfl
  | [cell] =>
    have nonempty : joinCells [cell] ≠ [] := filled cell (by simp)
    have whole : fields (joinCells [cell]) = [cell] := fields_plain (plain cell (by simp))
    rw [readCells, if_neg nonempty, whole]
  | first :: second :: rest =>
    have nonempty : joinCells (first :: second :: rest) ≠ [] := by simp [joinCells]
    obtain ⟨field, others, shape⟩ : ∃ field others, laterFields second rest = field :: others := by
      cases rest <;> exact ⟨_, _, rfl⟩
    rw [readCells, if_neg nonempty, fields_joinCells plain, shape]
    simp only [List.dropLast_concat]
    rw [← shape, readLater_laterFields]

/-! ## The columns of a block -/

/-- The columns are as many as the widest line has cells. -/
theorem columns_eq (rules : List Rule) (lines : List Text) :
    (formatLines rules lines).1 = (lines.map fun line => (cells line).length).max?.getD 0 := by
  have counts : lines.map (Prod.fst ∘ formatLine rules) =
      lines.map fun line => (cells line).length := rfl
  rw [formatLines, ← List.foldl_map, List.map_map, counts]
  cases lines with
  | nil => rfl
  | cons line rest =>
    rw [List.map_cons, List.max?_cons', Option.getD_some, List.foldl_cons, Nat.zero_max]

/-- A row has no more ampersands than fit between as many columns. -/
theorem Spread.ampersands {found : List Text} {row : Text} {columns : Nat}
    (spread : Spread found (fields row)) (fits : found.length ≤ columns) :
    row.count '&' ≤ 2 * columns - 1 := by
  have fieldCount : (fields row).length = row.count '&' + 1 := Text.length_splitOnP _ row
  by_cases several : 2 ≤ found.length
  · rw [spread.count several] at fieldCount
    omega
  · rw [spread.few (by omega), List.length_singleton] at fieldCount
    omega

/-- A block declares the number of its columns. -/
theorem alignedBlock_eq (rules : List Rule) (text : Text) :
    alignedBlock rules text =
      Text.unlines ["\\small\\begin\x7balignat*\x7d\x7b".toList ++
          (Text.numeral (formatLines rules (Text.lines text)).1 ++ ['}']),
        Text.unlines (formatLines rules (Text.lines text)).2,
        "\\end\x7balignat*\x7d\\normalsize".toList] := by
  have digits (columns : Nat) : Latex.escape (Text.numeral columns) = Text.numeral columns :=
    Latex.escape_digits fun _ member => Text.isDigit_numeral member
  have name : Latex.escape "alignat*".toList = "alignat*".toList := by decide
  have opening (columns : Nat) :
      Latex.command "begin".toList [.plain "alignat*".toList, .plain (Text.numeral columns)] =
        "\\begin\x7balignat*\x7d\x7b".toList ++ (Text.numeral columns ++ ['}']) := by
    simp only [Latex.command, Latex.Argument.toLatex, List.flatMap_cons, List.flatMap_nil,
      List.append_nil, digits, name]
    rfl
  simp only [alignedBlock, opening]
  rfl

/-- An aligned block has a row for each line, in their order, and all rows but the last end with a
double backslash. Where the macro list writes no ampersand into a cell, the cells of a line are
spread over the fields of its row and can be read back from it. The block declares as many columns
as its widest line has cells, and no row has more ampersands than fit between so many columns. -/
theorem formatLines_rows (rules : List Rule) (lines : List Text)
    (plain : ∀ line ∈ lines, ∀ cell ∈ substituted rules line, '&' ∉ cell) :
    (∃ rows : List Text,
      (formatLines rules lines).2 = (rows.mapIdx fun number row =>
        row ++ if number + 1 < rows.length then " \\\\".toList else []) ∧
      withoutEndings (formatLines rules lines).2 = rows ∧
      List.Forall₂ (fun line row =>
        Spread (substituted rules line) (fields row) ∧ readCells row = substituted rules line)
        lines rows) ∧
    (formatLines rules lines).1 = (lines.map fun line => (cells line).length).max?.getD 0 ∧
    (∀ row ∈ (formatLines rules lines).2, row.count '&' ≤ 2 * (formatLines rules lines).1 - 1) ∧
    ∀ text, alignedBlock rules text =
      Text.unlines ["\\small\\begin\x7balignat*\x7d\x7b".toList ++
          (Text.numeral (formatLines rules (Text.lines text)).1 ++ ['}']),
        Text.unlines (formatLines rules (Text.lines text)).2,
        "\\end\x7balignat*\x7d\\normalsize".toList] := by
  let row (line : Text) : Text := joinCells (substituted rules line)
  have written : (formatLines rules lines).2 = addEndings (lines.map row) := by
    rw [formatLines, List.map_map]
    rfl
  have filled (line : Text) : ∀ cell ∈ substituted rules line, cell ≠ [] := by
    intro cell member
    obtain ⟨found, known, rfl⟩ := List.mem_map.mp member
    obtain ⟨-, nonempty⟩ := List.mem_filter.mp known
    exact applyRules_ne_nil rules (by simpa using nonempty)
  refine ⟨⟨lines.map row, ?_, ?_, ?_⟩, columns_eq rules lines, ?_, alignedBlock_eq rules⟩
  · rw [written, addEndings_eq]
  · rw [written, withoutEndings_addEndings]
  · rw [List.forall₂_map_right_iff, List.forall₂_same]
    intro line member
    exact ⟨spread_joinCells (plain line member),
      readCells_joinCells (plain line member) (filled line)⟩
  · intro ended member
    rw [written, addEndings_map] at member
    obtain ⟨number, inside, rfl⟩ := List.exists_of_mem_mapIdx member
    have line : lines[number] ∈ lines := List.getElem_mem inside
    have fits : (substituted rules lines[number]).length ≤ (formatLines rules lines).1 := by
      rw [substituted, List.length_map, columns_eq]
      exact List.le_max?_getD_of_mem (List.mem_map_of_mem line)
    have bounded := (spread_joinCells (plain _ line)).ampersands fits
    have none : (if number + 1 < lines.length then " \\\\".toList else []).count '&' = 0 := by
      split <;> rfl
    rw [List.count_append, none, Nat.add_zero]
    exact bounded

/-- Lines with no cell, with one, with two and with four, and a rule that rewrites two of them. -/
def ragged : List Text := ["a  x  b-c  d".toList, [], "  x  ".toList, "e   f".toList]

/-- A rule that puts a sign in place of a letter. -/
def sign : List Rule := [⟨['x'], ['='], .anywhere, nofun⟩]

/-- Four columns are declared, and the cells of all rows are read back. -/
theorem ragged_rows :
    (∀ line ∈ ragged, ∀ cell ∈ substituted sign line, '&' ∉ cell) ∧
      (formatLines sign ragged).1 = 4 ∧
      (formatLines sign ragged).2 =
        ["a &  =  && b-c && d \\\\".toList, " \\\\".toList, " =  \\\\".toList, "e & f".toList] ∧
      (withoutEndings (formatLines sign ragged).2).map readCells = ragged.map (substituted sign) ∧
      ∀ row ∈ (formatLines sign ragged).2, row.count '&' ≤ 7 := by
  have plain : ∀ line ∈ ragged, ∀ cell ∈ substituted sign line, '&' ∉ cell := by decide
  obtain ⟨⟨rows, -, taken, each⟩, columns, bounded, -⟩ := formatLines_rows sign ragged plain
  have widest : (formatLines sign ragged).1 = 4 := columns.trans (by decide)
  rw [widest] at bounded
  refine ⟨plain, widest, by decide, ?_, bounded⟩
  rw [taken, ← List.forall₂_eq_eq_eq, List.forall₂_map_left_iff, List.forall₂_map_right_iff]
  exact each.flip.imp fun _ _ read => read.2

end Alignment

end Manuscript
