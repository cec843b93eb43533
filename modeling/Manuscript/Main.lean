import Manuscript.CommandLine.Run

/-!
# The program

The program reads its arguments, the environment and the files below the working directory,
runs, and then prints what the run has printed and writes the files that it has changed. The
converter is run by whoever starts the program: its replies are read from the standard input,
one JSON object on a line with the fields `code`, `output` and `errors`.
-/

open Manuscript

namespace Manuscript.Program

/-- The reply that a line of the standard input gives. A line that is no reply counts as a
converter that is not there. -/
def replyOfLine (line : Text) : Reply :=
  match Json.parse line with
  | .ok (.object fields) =>
    match Json.field? "code".toList fields, Json.field? "output".toList fields with
    | some (.integer code), some (.string output) =>
      let errors := match Json.field? "errors".toList fields with
        | some (.string text) => some text
        | _ => none
      .finished code output errors
    | _, _ => .notFound
  | _ => .notFound

/-- The variables of an environment that is written as texts with a null behind each. -/
def variablesOfText (text : Text) : List (Text × Text) :=
  (text.splitOn '\x00').filterMap fun setting =>
    let name := setting.takeWhile (· != '=')
    if name.length < setting.length then some (name, setting.drop (name.length + 1)) else none

/-- A caption as a line of text. -/
def captionText : Caption → String
  | .markup text | .plain text => String.ofList text

/-- An item as lines of text. -/
def itemText : Item → String
  | .caption caption => captionText caption
  | .panel content title _ => s!"{captionText title}\n{captionText content}"
  | .table title columns rows =>
    let lines := (columns.map (·.header) :: rows).map fun row =>
      String.intercalate "\t" (row.map captionText)
    String.intercalate "\n" (captionText title :: lines)

/-- The files and directories below a directory, which is at a location of the store. -/
partial def readDirectory (directory : String) (path : Path) (store : Store) : IO Store := do
  let mut found := store
  for entry in ← (← IO.FS.realPath directory).readDir do
    let below := path.child entry.fileName.toList
    if ← entry.path.isDir then
      found ← readDirectory entry.path.toString below (found.place below .directory)
    else
      let bytes ← IO.FS.readBinFile entry.path
      found := found.place below (.file bytes.toList)
  return found

/-- All lines of the standard input. -/
partial def readLines (input : IO.FS.Stream) : IO (List Text) := do
  let line ← input.getLine
  if line.isEmpty then return []
  else return Text.dropEndWhile (· == '\n') line.toList :: (← readLines input)

end Manuscript.Program

open Manuscript.Program in
/-- Run the program. -/
def main (arguments : List String) : IO UInt32 := do
  let directory ← IO.currentDir
  let store ← readDirectory directory.toString (Path.ofText []) Store.empty
  let environment ← IO.FS.readFile "/proc/self/environ"
  let process := (← IO.FS.realPath "/proc/self").fileName.getD "0"
  let lines ← if arguments.contains "build" then readLines (← IO.getStdin) else pure []
  let workspace : Workspace :=
    { store, environment := variablesOfText environment.toList, settings := none,
      replies := lines.map replyOfLine, calls := [], log := [], console := [],
      workingDirectory := Path.ofText directory.toString.toList, process := process.toList }
  let (outcome, after) := CommandLine.run (arguments.map String.toList) workspace
  for (location, bytes) in after.store.changes store.files do
    let path := location.foldl Path.child (Path.ofText directory.toString.toList)
    IO.FS.createDirAll (toString (path.leading (path.parts.length - 1)))
    IO.FS.writeBinFile (toString path) (ByteArray.mk bytes.toArray)
  for items in after.console do
    IO.println (String.intercalate " " (items.map itemText))
  IO.print outcome.output
  IO.eprint outcome.errors
  match outcome.exit with
  | .status code => return code.toUInt32
  | .escaped failure =>
    IO.eprintln failure.message
    return 1
