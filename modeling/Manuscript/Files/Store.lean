import Manuscript.Entries
import Manuscript.Files.Path
import Manuscript.Text.Quoted
import Manuscript.Text.Utf8

/-!
# A store of files

A store holds directories and files at their locations, which are the parts that lead to
them from the root, and it has a working directory that relative paths start from. There
are no links. Looking a path up goes part by part: every part but the last must lead
through a directory, and two dots lead to the directory above. What an operation on a
path refuses follows from where the looking up ends.
-/

namespace Manuscript

/-- The parts that lead from the root to a place in a store. -/
abbrev Location := List Text

/-- What can be at a location. -/
inductive Entry where
  | directory
  | file (bytes : List UInt8)
deriving DecidableEq, Repr

/-- Why an operation on a path is refused. -/
inductive FileError where
  | missing (path : Path)
  | occupied (path : Path)
  | notDirectory (path : Path)
  | isDirectory (path : Path)
  /-- A name holds the null character, which no file can be called by. -/
  | unnamable (path : Path)
deriving DecidableEq, Repr

/-- The message about a path, with the number of its cause. -/
def pathMessage (number : Nat) (cause : String) (path : Path) : String :=
  s!"[Errno {number}] {cause}: {String.ofList (Text.quoted path.toText)}"

/-- The message of a refused operation. -/
def FileError.message : FileError → String
  | .missing path => pathMessage 2 "No such file or directory" path
  | .occupied path => pathMessage 17 "File exists" path
  | .notDirectory path => pathMessage 20 "Not a directory" path
  | .isDirectory path => pathMessage 21 "Is a directory" path
  | .unnamable _ => "embedded null byte"

/-- Files and directories, and the directory that relative paths start from. -/
structure Store where
  entries : List (Location × Entry)
  workingDirectory : Location
deriving DecidableEq, Repr

/-- Where looking a path up ends. -/
inductive Found where
  /-- At an entry. -/
  | entry (location : Location) (entry : Entry)
  /-- At a free name in a directory. -/
  | free (location : Location)
  /-- At a part that leads nowhere, with more parts to follow. -/
  | nowhere
  /-- At a file, with more parts to follow. -/
  | blocked
deriving DecidableEq, Repr

namespace Store

/-- A store that holds nothing but its working directory. -/
def empty : Store := ⟨[(["CWD".toList], .directory)], ["CWD".toList]⟩

/-- What is at a location; the root is always a directory. -/
def entry? (store : Store) (location : Location) : Option Entry :=
  if location.isEmpty then some .directory else store.entries.lookup location

/-- The store with an entry at a location. -/
def set (store : Store) (location : Location) (entry : Entry) : Store :=
  { store with entries := Entries.put location entry store.entries }

/-- Follow parts from a location. -/
def follow (store : Store) : Location → List Text → Found
  | here, [] =>
    match store.entry? here with
    | some entry => .entry here entry
    | none => .nowhere
  | here, part :: rest =>
    match store.entry? here with
    | none => .nowhere
    | some (.file _) => .blocked
    | some .directory =>
      if part = ['.', '.'] then follow store here.dropLast rest
      else if rest.isEmpty then
        match store.entry? (here ++ [part]) with
        | some entry => .entry (here ++ [part]) entry
        | none => .free (here ++ [part])
      else follow store (here ++ [part]) rest

/-- Look a path up. -/
def find (store : Store) (path : Path) : Found :=
  store.follow (if path.isAbsolute then [] else store.workingDirectory) path.parts

/-- Whether a path leads to something. -/
def holds (store : Store) (path : Path) : Bool :=
  match store.find path with
  | .entry _ _ => true
  | _ => false

/-- The bytes of the file that a path leads to. -/
def read (store : Store) (path : Path) : Except FileError (List UInt8) :=
  match store.find path with
  | .entry _ (.file bytes) => .ok bytes
  | .entry _ .directory => .error (.isDirectory path)
  | .blocked => .error (.notDirectory path)
  | .free _ | .nowhere => .error (.missing path)

/-- Write a file, in the place of the one that is there or at a free name. -/
def write (store : Store) (path : Path) (bytes : List UInt8) : Except FileError Store :=
  match store.find path with
  | .entry location (.file _) | .free location => .ok (store.set location (.file bytes))
  | .entry _ .directory => .error (.isDirectory path)
  | .blocked => .error (.notDirectory path)
  | .nowhere => .error (.missing path)

/-- Write a text to a file. -/
def writeText (store : Store) (path : Path) (text : Text) : Except FileError Store :=
  store.write path (Utf8.encode text)

/-- Make a directory whose parent exists. One that is there already is kept. -/
def makeDirectory (store : Store) (path : Path) : Except FileError Store :=
  match store.find path with
  | .entry _ .directory => .ok store
  | .entry _ (.file _) => .error (.occupied path)
  | .free location => .ok (store.set location .directory)
  | .blocked => .error (.notDirectory path)
  | .nowhere => .error (.missing path)

/-- Make a directory, or say why not and leave the store as it is. -/
def tryDirectory (store : Store) (path : Path) : Store × Option FileError :=
  match store.makeDirectory path with
  | .ok made => (made, none)
  | .error error => (store, some error)

/-- Make the directory that a number of leading parts of a path lead to, and before it the
directories that lead to it. What has been made before a refusal stays made. -/
def makeLeading (store : Store) (path : Path) : Nat → Store × Option FileError
  | 0 => store.tryDirectory (path.leading 0)
  | count + 1 =>
    match store.find (path.leading (count + 1)) with
    | .nowhere =>
      match makeLeading store path count with
      | (prepared, none) => prepared.tryDirectory (path.leading (count + 1))
      | (prepared, some error) => (prepared, some error)
    | _ => store.tryDirectory (path.leading (count + 1))

/-- Make a directory and the directories that lead to it. -/
def makeDirectories (store : Store) (path : Path) : Store × Option FileError :=
  if path.toText.contains '\x00' then (store, some (.unnamable path))
  else store.makeLeading path path.parts.length

/-- Put a file or a directory into the working directory, with the directories that lead
to it. -/
def place (store : Store) (path : Path) (entry : Entry) : Store :=
  let location := store.workingDirectory ++ path.parts
  let above := (List.range path.parts.length).map fun count =>
    store.workingDirectory ++ path.parts.take count
  let prepared := above.foldl
    (fun current directory =>
      if (current.entry? directory).isSome then current else current.set directory .directory)
    store
  prepared.set location entry

/-- Remove what a path leads to, with all that is below it. -/
def remove (store : Store) (path : Path) : Store :=
  match store.find path with
  | .entry location _ =>
    { store with entries := store.entries.filter fun entry => !location.isPrefixOf entry.1 }
  | _ => store

/-- The files below the working directory with the parts that lead to them from there. -/
def files (store : Store) : List (Location × List UInt8) :=
  store.entries.filterMap fun (location, entry) =>
    match entry with
    | .file bytes =>
      if store.workingDirectory.isPrefixOf location then
        some (location.drop store.workingDirectory.length, bytes)
      else none
    | .directory => none

/-- The files that are not as they were given: new ones, and those with other bytes. -/
def changes (store : Store) (given : List (Location × List UInt8)) :
    List (Location × List UInt8) :=
  store.files.filter fun file => given.lookup file.1 != some file.2

end Store

end Manuscript
