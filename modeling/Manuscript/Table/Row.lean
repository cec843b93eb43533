import Manuscript.Rule.Basic
import Manuscript.Table.Record
import Manuscript.Validation

/-!
# Rows of a macro table

A row gives the search text, the replacement and the mode of a rule in three columns with
fixed names. The replacement `_` stands for the search text itself. A row is checked as a
whole, so its issues are reported together; whether a word mode fits the search text is
asked only where there is a search text.
-/

namespace Manuscript

/-- A checked row of a macro table. -/
structure Row where
  search : Text
  replace : Text
  mode : Mode
  wordEdges : mode = .word → isWordSearch search = true

instance : DecidableEq Row := fun left right =>
  decidable_of_iff
    (left.search = right.search ∧ left.replace = right.replace ∧ left.mode = right.mode)
    (by
      cases left
      cases right
      simp)

namespace Row

/-- The column of the search text. -/
def searchColumn : Text := "Search For".toList

/-- The column of the replacement. -/
def replaceColumn : Text := "Replace With".toList

/-- The column of the mode. -/
def modeColumn : Text := "Match Mode".toList

/-- The columns that a table must have. -/
def columns : List Text := [searchColumn, replaceColumn, modeColumn]

/-- The replacement that stands for the search text. -/
def identity : Text := ['_']

/-- A mode, given by its name. -/
def checkMode (value : Json) : Checked Mode :=
  match value with
  | .string name =>
    match Mode.ofName? name with
    | some mode => .ok mode
    | none => .refuse "Input should be 'Word' or 'Anywhere'"
  | _ => .refuse "Input should be 'Word' or 'Anywhere'"

/-- A mode that fits a search text. -/
def checkModeFor (search : Text) (value : Json) :
    Checked { mode : Mode // mode = .word → isWordSearch search = true } := do
  let mode ← checkMode value
  if edges : mode = .word → isWordSearch search = true then return ⟨mode, edges⟩
  else
    .refuse ("Value error, Word mode needs search text starting and ending in a word character, "
      ++ s!"got {String.ofList (Text.quoted search)}; use Anywhere")

/-- Check the fields of a row. -/
def ofFields (fields : List (Text × Json)) : Checked Row :=
  let replace := Check.required Check.text replaceColumn fields
  match Check.required Check.nonemptyText searchColumn fields with
  | .ok search =>
    (Checked.both replace (Check.required (checkModeFor search) modeColumn fields)).map
      fun (replace, mode) => ⟨search, replace, mode.val, mode.property⟩
  | .error issues =>
    .error (issues ++
      (Checked.both replace (Check.required checkMode modeColumn fields)).issues)

/-- Check a value that should be a row. -/
def check (value : Json) : Checked Row := do
  ofFields (← Check.object "MacroRow" value)

/-- The rule of a row. -/
def toRule (row : Row) : Rule :=
  ⟨row.search, if row.replace = identity then row.search else row.replace, row.mode,
    row.wordEdges⟩

end Row

namespace Table

/-- Pair the columns of a header with the cells of a record. A column without a cell has a
null, and cells behind the last column are left out. -/
def pairCells : List Text → List Text → List (Text × Json)
  | [], _ => []
  | name :: names, [] => (name, .null) :: pairCells names []
  | name :: names, cell :: cells => (name, .string cell) :: pairCells names cells

/-- The fields of a record. Of two columns with one name the last counts, so the last field
comes first. -/
def recordFields (header : List Text) (record : Record) : List (Text × Json) :=
  (pairCells header record.cells).reverse

end Table

end Manuscript
