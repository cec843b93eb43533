import Manuscript.Entries
import Manuscript.Text.Blank

/-!
# Files of variables

A file can give variables a value, one assignment after the other. An assignment is a name,
an equals sign and a value; the word `export` may stand before the name, and a name without
an equals sign has no value. The value is quoted, or it is the rest of its line up to a
comment that white space sets apart, so a line may have no more than a comment behind its
equals sign. A quoted value may go over several lines, and a backslash in it takes the
character behind it along. What is no assignment is skipped up to the end of its line.

A value may refer to variables as `${NAME}` or `${NAME:-text}`, where the text stands in for
a variable that does not exist. References see the variables of the file that were
assigned before, and then those from outside.
-/

namespace Manuscript.EnvironmentFile

/-- A name, and its value if it was given one. -/
abbrev Assignment := Text × Option Text

/-- White space within a line. -/
def isGap (c : Char) : Bool := Text.isBlank c && c != '\n' && c != '\r'

/-- Whether a character belongs to a line and is not its end. -/
def isWithinLine (c : Char) : Bool := c != '\n' && c != '\r'

/-- Skip the word `export` where white space follows it. -/
def skipExport (text : Text) : Text :=
  if Text.startsWith "export".toList text then
    let behind := text.drop 6
    if behind.head?.any isGap then behind.dropWhile isGap else text
  else text

/-- Skip what is left of a line and its end. -/
def skipLine (text : Text) : Text := (text.dropWhile isWithinLine).drop 1

/-- Read a name, and what follows it. At a comment there is none. Where no name can be read
the text that is left is the error. -/
def readName (text : Text) : Except Text (Option Text × Text) :=
  match text with
  | '#' :: _ => .ok (none, text)
  | '\'' :: rest =>
    let name := rest.takeWhile (· != '\'')
    match rest.drop name.length with
    | _ :: behind => if name.isEmpty then .error text else .ok (some name, behind)
    | [] => .error text
  | _ =>
    let name := text.takeWhile fun c => c != '=' && c != '#' && !Text.isBlank c
    if name.isEmpty then .error text else .ok (some name, text.drop name.length)

/-- Read up to the quote that closes a value. A backslash and the character behind it
belong together, so neither a quote behind a backslash nor the backslash behind another one
counts on its own. -/
def readQuoted (quote : Char) : Text → Option (Text × Text)
  | [] => none
  | ['\\'] => none
  | '\\' :: c :: rest =>
    (readQuoted quote rest).map fun (value, behind) => ('\\' :: c :: value, behind)
  | c :: rest =>
    if c = quote then some ([], rest)
    else (readQuoted quote rest).map fun (value, behind) => (c :: value, behind)

/-- What a character behind a backslash means within single quotes. -/
def singleEscape? (c : Char) : Option Char := if c = '\\' ∨ c = '\'' then some c else none

/-- What a character behind a backslash means within double quotes. -/
def doubleEscape? (c : Char) : Option Char :=
  match c with
  | '\\' | '\'' | '"' => some c
  | 'a' => some '\x07'
  | 'b' => some '\x08'
  | 'f' => some '\x0c'
  | 'n' => some '\n'
  | 'r' => some '\r'
  | 't' => some '\t'
  | 'v' => some '\x0b'
  | _ => none

/-- Put in what escapes mean. A backslash before any other character stays. -/
def unescape (escape? : Char → Option Char) : Text → Text
  | [] => []
  | '\\' :: c :: rest =>
    match escape? c with
    | some meant => meant :: unescape escape? rest
    | none => '\\' :: c :: unescape escape? rest
  | c :: rest => c :: unescape escape? rest

/-- Cut a line at the white space before its first comment. -/
def cutComment : Text → Text
  | [] => []
  | c :: rest =>
    if Text.isBlank c && (rest.dropWhile Text.isBlank).head? == some '#' then []
    else c :: cutComment rest

/-- Read the value behind an equals sign, and what follows it. The white space in front of a
value is no part of it, but it does set a comment apart. -/
def readValue (text : Text) : Except Text (Text × Text) :=
  match text.dropWhile isGap with
  | '\'' :: rest =>
    match readQuoted '\'' rest with
    | some (value, behind) => .ok (unescape singleEscape? value, behind)
    | none => .error text
  | '"' :: rest =>
    match readQuoted '"' rest with
    | some (value, behind) => .ok (unescape doubleEscape? value, behind)
    | none => .error text
  | _ =>
    let line := text.takeWhile isWithinLine
    .ok (Text.trim (cutComment line), text.drop line.length)

/-- Skip a comment behind an assignment. -/
def skipComment (text : Text) : Text :=
  match text.dropWhile isGap with
  | '#' :: rest => rest.dropWhile isWithinLine
  | _ => text

/-- Skip the end of a line; anything else before it is an error. -/
def endLine (text : Text) : Except Text Text :=
  match text.dropWhile isGap with
  | [] => .ok []
  | '\r' :: '\n' :: rest | '\n' :: rest | '\r' :: rest => .ok rest
  | _ => .error text

/-- Read an assignment or a comment, and what follows its line. -/
def readAssignment (text : Text) : Except Text (Option Assignment × Text) := do
  let (name, behindName) ← readName (skipExport text)
  let (value, behindValue) ← match behindName.dropWhile isGap with
    | '=' :: rest => do
      let (value, behind) ← readValue rest
      pure (some value, behind)
    | rest => pure (none, rest)
  let behind ← endLine (skipComment behindValue)
  return (name.map fun name => (name, value), behind)

/-- Read assignments until the text ends. Each step takes at least one character, so the
length of the text bounds their number. -/
def readAssignments : Nat → Text → List Assignment
  | 0, _ => []
  | steps + 1, text =>
    match text.dropWhile Text.isBlank with
    | [] => []
    | start =>
      match readAssignment start with
      | .ok (some found, behind) => found :: readAssignments steps behind
      | .ok (none, behind) => readAssignments steps behind
      | .error behind => readAssignments steps (skipLine behind)

/-- A reference whose opening has been read: the name, the text that stands in for it, and
the number of characters up to its end. -/
def reference? (text : Text) : Option (Text × Text × Nat) :=
  let name := text.takeWhile fun c => c != '\x7d' && c != ':'
  match text.drop name.length with
  | '\x7d' :: _ => some (name, [], name.length + 1)
  | ':' :: '-' :: rest =>
    let standIn := rest.takeWhile (· != '\x7d')
    if standIn.length < rest.length then
      some (name, standIn, name.length + standIn.length + 3)
    else none
  | _ => none

/-- Put in the values that references refer to. `covered` counts the characters that still
belong to the reference before them. -/
def expandFrom (value : Text → Text → Text) : Nat → Text → Text
  | _, [] => []
  | covered + 1, _ :: rest => expandFrom value covered rest
  | 0, '$' :: '\x7b' :: rest =>
    match reference? rest with
    | some (name, standIn, width) =>
      value name standIn ++ expandFrom value width rest
    | none => '$' :: expandFrom value 0 ('\x7b' :: rest)
  | 0, c :: rest => c :: expandFrom value 0 rest

/-- The value that a reference stands for. A variable without a value is empty. -/
def referenceValue (known : List Assignment) (outer : List (Text × Text))
    (name standIn : Text) : Text :=
  match known.lookup name with
  | some value => value.getD []
  | none => (outer.lookup name).getD standIn

/-- Put the references of assignments in, one assignment after the other. -/
def resolve (outer : List (Text × Text)) (assignments : List Assignment) : List Assignment :=
  assignments.foldl
    (fun known assignment =>
      Entries.put assignment.1
        (assignment.2.map fun value => expandFrom (referenceValue known outer) 0 value) known)
    []

/-- The variables that a file gives a value. -/
def assignments (outer : List (Text × Text)) (text : Text) : List Assignment :=
  resolve outer (readAssignments (text.length + 1) text)

end Manuscript.EnvironmentFile
