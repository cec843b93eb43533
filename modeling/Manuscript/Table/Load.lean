import Manuscript.Rule.Wrapping
import Manuscript.Workspace

/-!
# Loading macro tables

A table is read as a whole or not at all. Its first record names the columns, in any order;
every other record that is not empty is a row. Rows are checked in their order, so the first
row that is none stops the loading, before anything that is wrong behind it. The tables of a
list of sources are loaded one after the other, and their rules are applied in that order.
-/

namespace Manuscript.Table

/-- The delimiter of the tables of a path. -/
def delimiter (path : Path) : Char := if path.suffix = ".tsv".toList then '\t' else ','

/-- The rules of records below a header. -/
def rulesOfRecords (header : List Text) : List Record → Except TableFault (List Rule)
  | [] => .ok []
  | record :: rest =>
    if record.cells.isEmpty then rulesOfRecords header rest
    else match Row.ofFields (recordFields header record) with
      | .error issues => .error (.invalidRow issues record.line)
      | .ok row => (rulesOfRecords header rest).map (row.toRule :: ·)

/-- The columns that a header lacks. -/
def missingColumns (header : List Text) : List Text :=
  Row.columns.filter fun name => !header.contains name

/-- Why the records of a table end early, as a failure. -/
def Trouble.failure : Trouble → Failure
  | .oversizeCell => .oversizeCell
  | .notUtf8 fault => .notUtf8 fault

/-- The rules of a table of which these records could be read. -/
def rulesOfTable (path : Path) (records : List Record) (trouble : Option Trouble) :
    Except Failure (List Rule) :=
  match records, trouble with
  | [], some trouble => .error trouble.failure
  | [], none => .error (.table path (.missingColumns Row.columns))
  | header :: rows, trouble =>
    let missing := missingColumns header.cells
    if missing.isEmpty then
      match rulesOfRecords header.cells rows, trouble with
      | .error fault, _ => .error (.table path fault)
      | .ok _, some trouble => .error trouble.failure
      | .ok rules, none => .ok rules
    else .error (.table path (.missingColumns missing))

/-- The rules of a file. -/
def rulesOfBytes (path : Path) (bytes : List UInt8) : Except Failure (List Rule) :=
  let (records, trouble) := recordsOfBytes (delimiter path) bytes
  rulesOfTable path records trouble

/-- The rules of the table at a path. -/
def rulesAt (store : Store) (path : Path) : Except Failure (List Rule) :=
  if store.holds path then
    match store.read path with
    | .ok bytes => rulesOfBytes path bytes
    | .error error => .error (.file error)
  else .error (.noTable path)

/-- Read the table at a path. -/
def read (path : Path) : Action (List Rule) := do
  let rules ← Action.ofExcept id (rulesAt (← get).store path)
  Action.log .debug s!"Read {rules.length} macros from {path}"
  return rules

/-- Read the table of a source and wrap its rules. -/
def readSource (source : Source) : Action (List Rule) := do
  let rules ← read source.path
  match source.wrap with
  | none => return rules
  | some command =>
    Action.log .debug s!"Wrapped {rules.length} macros in \\{String.ofList command}"
    return rules.map (Rule.wrap command)

/-- Read the tables of sources, and put their rules behind each other. -/
def readSources : List Source → Action (List Rule)
  | [] => return []
  | source :: rest => do
    let rules ← readSource source
    let others ← readSources rest
    return rules ++ others

/-- Load the macro list of sources. -/
def load (sources : List Source) : Action (List Rule) := do
  let rules ← readSources sources
  Action.log .info s!"Loaded {rules.length} macros from {sources.length} tables"
  return rules

end Manuscript.Table
