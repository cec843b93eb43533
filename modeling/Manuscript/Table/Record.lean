import Manuscript.Text.Utf8

/-!
# Records of a table

A table is a text of records, and a record is a row of cells with a delimiter between
every two. A line end behind a cell ends the record; line feed, carriage return and both
together are one line end each. A cell that begins with a double quote is quoted: up to
the closing quote delimiters and line ends are part of it, and two quotes stand for one.
What follows the closing quote up to the next delimiter belongs to the cell as it is, and a
quote inside a cell that does not begin with one is an ordinary character. The end of the
text ends the last record, also within quotes. An empty line is a record without cells.

Records are read one character at a time, and with each record is kept how many lines of
the text have begun up to its end.
-/

namespace Manuscript.Table

/-- A record, and the number of lines up to its end. -/
structure Record where
  cells : List Text
  line : Nat
deriving DecidableEq, Repr

/-- Where in a cell the next character stands. -/
inductive Place where
  /-- At the beginning of the cell. -/
  | start
  /-- Outside quotes. -/
  | plain
  /-- Within quotes. -/
  | quoted
  /-- Behind a quote that closes the cell unless another one follows. -/
  | closing
deriving DecidableEq, Repr

/-- The most characters that a cell may have. -/
def cellLimit : Nat := 131072

/-- How far the reading has come. Finished records, finished cells and the characters of
the current cell are listed from the last to the first. -/
structure Progress where
  records : List Record
  lines : Nat
  previous : Char
  cells : List Text
  cell : Text
  place : Place
  oversize : Bool
deriving DecidableEq, Repr

namespace Progress

/-- Nothing has been read; the first character begins a line, as one behind a line feed
does. -/
def initial : Progress := ⟨[], 0, '\n', [], [], .start, false⟩

/-- Whether nothing of a record has been read. -/
def isFresh (progress : Progress) : Bool :=
  progress.place == .start && progress.cells.isEmpty

/-- Count the line that a character begins: one behind a line end of which it is no part. -/
def count (progress : Progress) (c : Char) : Progress :=
  let begins := progress.previous == '\n' || (progress.previous == '\r' && c != '\n')
  { progress with
    lines := if begins then progress.lines + 1 else progress.lines
    previous := c }

/-- Add a character to the current cell, and go on at a place. -/
def push (progress : Progress) (c : Char) (place : Place) : Progress :=
  { progress with cell := c :: progress.cell, place }

/-- Finish the current cell. A cell over the limit stops the reading. -/
def endCell (progress : Progress) : Progress :=
  if cellLimit < progress.cell.length then { progress with oversize := true }
  else
    { progress with
      cells := progress.cell.reverse :: progress.cells, cell := [], place := .start }

/-- Finish the current record; an empty line has no cells. -/
def endRecord (progress : Progress) : Progress :=
  if progress.isFresh then { progress with records := ⟨[], progress.lines⟩ :: progress.records }
  else
    let ended := progress.endCell
    if ended.oversize then ended
    else
      { ended with
        records := ⟨ended.cells.reverse, ended.lines⟩ :: ended.records, cells := [] }

/-- Read a character outside quotes. A line feed behind a carriage return is part of the
line end that has ended the record already. -/
def feedPlain (delimiter : Char) (previous : Char) (progress : Progress) (c : Char) : Progress :=
  if c = '\n' ∧ previous = '\r' then progress
  else if c = '\n' ∨ c = '\r' then progress.endRecord
  else if c = delimiter then progress.endCell
  else progress.push c .plain

/-- Read a character. -/
def feed (delimiter : Char) (progress : Progress) (c : Char) : Progress :=
  if progress.oversize then progress
  else
    let counted := progress.count c
    match progress.place with
    | .quoted =>
      if c = '"' then { counted with place := .closing } else counted.push c .quoted
    | .closing =>
      if c = '"' then counted.push c .quoted
      else feedPlain delimiter progress.previous counted c
    | .start =>
      if c = '"' then { counted with place := .quoted }
      else feedPlain delimiter progress.previous counted c
    | .plain => feedPlain delimiter progress.previous counted c

end Progress

/-- Why the records of a table end before its text does. -/
inductive Trouble where
  | oversizeCell
  | notUtf8 (fault : Utf8.Fault)
deriving DecidableEq, Repr

/-- Read the characters of a text. -/
def scanRecords (delimiter : Char) (text : Text) : Progress :=
  text.foldl (Progress.feed delimiter) Progress.initial

namespace Progress

/-- The records of a text that ends here; the last one may have no line end. -/
def ended (progress : Progress) : List Record × Option Trouble :=
  let last := if progress.isFresh then progress else progress.endRecord
  (last.records.reverse, if last.oversize then some .oversizeCell else none)

/-- The records of a text whose continuation cannot be read. The record that has begun is
none; its cell may be over the limit already. -/
def broken (progress : Progress) (fault : Utf8.Fault) : List Record × Option Trouble :=
  (progress.records.reverse,
    if progress.oversize || cellLimit < progress.cell.length then some .oversizeCell
    else some (.notUtf8 fault))

end Progress

/-- The part of a text up to its last line end. A carriage return at the very end may yet
be followed by its line feed, so it ends no line. -/
def completeLines (text : Text) : Text :=
  let reversed := text.reverse
  let unfinished := match reversed with
    | '\r' :: rest => rest
    | rest => rest
  (unfinished.dropWhile fun c => c != '\n' && c != '\r').reverse

/-- The records of a file, and why they end early if they do. -/
def recordsOfBytes (delimiter : Char) (bytes : List UInt8) : List Record × Option Trouble :=
  match Utf8.decodeMarked bytes with
  | (text, none) => (scanRecords delimiter text).ended
  | (text, some fault) => (scanRecords delimiter (completeLines text)).broken fault

end Manuscript.Table
