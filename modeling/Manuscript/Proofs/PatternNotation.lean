import Manuscript.Number
import Manuscript.Text.Alphanumeric

/-!
# The notation of patterns

A pattern is read from left to right. Most characters stand for themselves. Others make branches,
groups, classes, repetitions and edges out of what stands around them; a backslash takes such a
meaning away from the character behind it, or gives one to a letter. The reading keeps the groups
that are open, and for each of them the branches and items that have been read in it.

What an expression matches depends on the text before and behind it, because an edge looks at its
neighbours. Whether a repetition is to be long or short decides which match is found, not whether
there is one, so it is read and forgotten.

Left out are groups that begin with a question mark, repetitions that keep what they have taken, and
references and codes, which are a backslash before a digit or another letter. A pattern with one of
these has no reading here, and no more has a pattern that is not well formed.
-/

namespace Manuscript.Pattern

/-- A kind of characters that has a letter of its own. -/
inductive Kind where
  | digit
  | blank
  | word
deriving DecidableEq, Repr

/-- The characters of a kind. -/
def Kind.Holds : Kind → Char → Prop
  | .digit, c => Text.isDecimalDigit c
  | .blank, c => Text.isBlank c
  | .word, c => Text.isWordChar c

/-- A member of a class: a character, all between two characters, or all that are of a kind or are
not. -/
inductive Member where
  | single (c : Char)
  | range (first last : Char)
  | ofKind (kind : Kind)
  | notOfKind (kind : Kind)
deriving DecidableEq, Repr

/-- The characters that a member stands for. -/
def Member.Holds : Member → Char → Prop
  | .single d, c => c = d
  | .range first last, c => first ≤ c ∧ c ≤ last
  | .ofKind kind, c => kind.Holds c
  | .notOfKind kind, c => ¬kind.Holds c

/-- A place between characters. -/
inductive Edge where
  | lineStart
  | lineEnd
  | textStart
  | textEnd
  | word
  | noWord
deriving DecidableEq, Repr

/-- Whether a word character is at the end of a text, or at its beginning. -/
def BesideWord (neighbour : Option Char) : Prop := neighbour.any Text.isWordChar

/-- The edges between two texts. Every line has its edges if `multiline` is set, and otherwise only
the whole text has, with one line feed at its end or without. A text without characters has no word
edge, nor a place that is none. -/
def Edge.Holds (multiline : Bool) : Edge → Text → Text → Prop
  | .lineStart, before, _ => before = [] ∨ multiline ∧ before.getLast? = some '\n'
  | .lineEnd, _, behind => behind = [] ∨ behind = ['\n'] ∨ multiline ∧ behind.head? = some '\n'
  | .textStart, before, _ => before = []
  | .textEnd, _, behind => behind = []
  | .word, before, behind => ¬(BesideWord before.getLast? ↔ BesideWord behind.head?)
  | .noWord, before, behind =>
    before ++ behind ≠ [] ∧ (BesideWord before.getLast? ↔ BesideWord behind.head?)

/-- What a pattern says. -/
inductive Expression where
  | empty
  | literal (c : Char)
  | any
  | oneOf (members : List Member)
  | noneOf (members : List Member)
  | edge (place : Edge)
  | followed (first second : Expression)
  | either (first second : Expression)
  | group (inner : Expression)
  | repeated (least : Nat) (most : Option Nat) (inner : Expression)
deriving DecidableEq, Repr

/-- Expressions one behind the other. -/
def sequence : List Expression → Expression
  | [] => .empty
  | first :: rest => .followed first (sequence rest)

/-! ## Matching -/

/-- A text that consists of a number of parts, each of them matched in its place. -/
def Repeats (part : Text → Text → Text → Prop) : Nat → Text → Text → Text → Prop
  | 0, _, text, _ => text = []
  | count + 1, before, text, behind => ∃ front back, text = front ++ back ∧
    part before front (back ++ behind) ∧ Repeats part count (before ++ front) back behind

/-- An expression matches a text between what stands before and what stands behind it. -/
def Expression.Matches (multiline : Bool) : Expression → Text → Text → Text → Prop
  | .empty, _, text, _ => text = []
  | .literal c, _, text, _ => text = [c]
  | .any, _, text, _ => ∃ c, text = [c] ∧ c ≠ '\n'
  | .oneOf members, _, text, _ => ∃ c, text = [c] ∧ ∃ member ∈ members, member.Holds c
  | .noneOf members, _, text, _ => ∃ c, text = [c] ∧ ∀ member ∈ members, ¬member.Holds c
  | .edge place, before, text, behind => text = [] ∧ place.Holds multiline before behind
  | .followed first second, before, text, behind => ∃ front back, text = front ++ back ∧
    first.Matches multiline before front (back ++ behind) ∧
    second.Matches multiline (before ++ front) back behind
  | .either first second, before, text, behind =>
    first.Matches multiline before text behind ∨ second.Matches multiline before text behind
  | .group inner, before, text, behind => inner.Matches multiline before text behind
  | .repeated least most inner, before, text, behind => ∃ count, least ≤ count ∧
    (∀ bound ∈ most, count ≤ bound) ∧ Repeats (inner.Matches multiline) count before text behind

/-! ## Reading -/

/-- A character of a pattern, with or without a backslash before it. -/
inductive Token where
  | plain (c : Char)
  | escaped (c : Char)
deriving DecidableEq, Repr

/-- The characters of a pattern. A backslash at the end has none to stand before. -/
def tokens : Text → Option (List Token)
  | [] => some []
  | ['\\'] => none
  | '\\' :: c :: rest => (tokens rest).map (.escaped c :: ·)
  | c :: rest => (tokens rest).map (.plain c :: ·)

/-- The kind that a letter behind a backslash stands for. -/
def kind? : Char → Option Member
  | 'd' => some (.ofKind .digit)
  | 's' => some (.ofKind .blank)
  | 'w' => some (.ofKind .word)
  | 'D' => some (.notOfKind .digit)
  | 'S' => some (.notOfKind .blank)
  | 'W' => some (.notOfKind .word)
  | _ => none

/-- The control character that a letter behind a backslash stands for. -/
def control? : Char → Option Char
  | 'a' => some '\x07'
  | 'f' => some '\x0c'
  | 'n' => some '\n'
  | 'r' => some '\r'
  | 't' => some '\t'
  | 'v' => some '\x0b'
  | _ => none

/-- The edge that a letter behind a backslash stands for. -/
def edge? : Char → Option Edge
  | 'A' => some .textStart
  | 'Z' => some .textEnd
  | 'b' => some .word
  | 'B' => some .noWord
  | _ => none

/-- The character itself behind a backslash, which must be none of those that have codes. -/
def itself? (c : Char) : Option Char := if c.isAlphanum then none else some c

/-- What a character behind a backslash stands for. -/
def escaped? (c : Char) : Option Expression :=
  (((edge? c).map .edge).or ((kind? c).map fun member => .oneOf [member])).or
    (((control? c).or (itself? c)).map .literal)

/-- What a character stands for in a class. The letter of the word edge is the backspace there. -/
def member? : Token → Option Member
  | .plain c => some (.single c)
  | .escaped 'b' => some (.single '\x08')
  | .escaped c => (kind? c).or (((control? c).or (itself? c)).map .single)

/-- The members of a class, and how many characters of the pattern they and the closing bracket
are. A bracket that comes first is a member, and so is a hyphen before the closing one. -/
def readMembers : Bool → List Token → Option (List Member × Nat)
  | _, [] => none
  | false, .plain ']' :: _ => some ([], 1)
  | _, token :: .plain '-' :: .plain ']' :: _ => do
    return ([← member? token, .single '-'], 3)
  | _, token :: .plain '-' :: last :: rest => do
    let .single a ← member? token | none
    let .single b ← member? last | none
    let (others, width) ← readMembers false rest
    if a ≤ b then return (.range a b :: others, width + 3) else none
  | _, token :: rest => do
    let member ← member? token
    let (others, width) ← readMembers false rest
    return (member :: others, width + 1)

/-- A class, given the pattern behind its opening bracket, with the number of its characters. -/
def readClass : List Token → Option (Expression × Nat)
  | .plain '^' :: rest => do
    let (members, width) ← readMembers true rest
    return (.noneOf members, width + 1)
  | rest => do
    let (members, width) ← readMembers true rest
    return (.oneOf members, width)

/-- The digits that a pattern begins with. -/
def readDigits : List Token → Text
  | .plain c :: rest => if Text.isDigit c then c :: readDigits rest else []
  | _ => []

/-- The least and the greatest number of a repetition, given the pattern behind its opening brace,
with the number of its characters. Other braces are no repetition. -/
def readCount (pattern : List Token) : Option (Nat × Option Nat × Nat) :=
  let least := readDigits pattern
  let value := Text.valueOfDigits least
  match pattern.drop least.length with
  | .plain '}' :: _ => if least = [] then none else some (value, some value, least.length + 1)
  | .plain ',' :: rest =>
    let most := readDigits rest
    match rest.drop most.length with
    | .plain '}' :: _ =>
      some (value, if most = [] then none else some (Text.valueOfDigits most),
        least.length + most.length + 2)
    | _ => none
  | _ => none

/-- The repetition that a character begins, with the number of the characters that belong to it
behind that. -/
def repetition? (c : Char) (rest : List Token) : Option (Nat × Option Nat × Nat) :=
  match c with
  | '*' => some (0, none, 0)
  | '+' => some (1, none, 0)
  | '?' => some (0, some 1, 0)
  | '{' => readCount rest
  | _ => none

/-- The characters behind a repetition that belong to it. -/
def readHurry : List Token → Option Nat
  | .plain '?' :: _ => some 1
  | .plain '+' :: _ => none
  | _ => some 0

/-- What has been read in a group: the branches that have ended, and the items of the last branch,
each latest first. -/
structure Level where
  branches : List Expression
  items : List Expression

namespace Level

/-- One item more in the last branch. -/
def add (level : Level) (item : Expression) : Level := { level with items := item :: level.items }

/-- The last branch. -/
def branch (level : Level) : Expression := sequence level.items.reverse

/-- A new branch behind the last one. -/
def next (level : Level) : Level := ⟨level.branch :: level.branches, []⟩

/-- What the group says. -/
def expression (level : Level) : Expression :=
  level.branches.foldl (fun later branch => .either branch later) level.branch

/-- The last item repeated. There must be one, no edge and no repetition itself. -/
def repeatLast (level : Level) (least : Nat) (most : Option Nat) : Option Level :=
  match level.items with
  | [] | .edge _ :: _ | .repeated _ _ _ :: _ => none
  | item :: before => some { level with items := .repeated least most item :: before }

end Level

/-- Read the rest of a pattern, given the group that it is in and the groups around that.
`covered` counts the characters that still belong to the item before them. -/
def readFrom : Nat → Level → List Level → List Token → Option Expression
  | _, here, [], [] => some here.expression
  | _, _, _ :: _, [] => none
  | covered + 1, here, around, _ :: rest => readFrom covered here around rest
  | 0, here, around, .escaped c :: rest => do
    readFrom 0 (here.add (← escaped? c)) around rest
  | 0, here, around, .plain c :: rest =>
    match c with
    | '|' => readFrom 0 here.next around rest
    | '(' =>
      if rest.head? = some (.plain '?') then none else readFrom 0 ⟨[], []⟩ (here :: around) rest
    | ')' =>
      match around with
      | [] => none
      | outer :: further => readFrom 0 (outer.add (.group here.expression)) further rest
    | '[' => do
      let (item, width) ← readClass rest
      readFrom width (here.add item) around rest
    | '.' => readFrom 0 (here.add .any) around rest
    | '^' => readFrom 0 (here.add (.edge .lineStart)) around rest
    | '$' => readFrom 0 (here.add (.edge .lineEnd)) around rest
    | _ =>
      match repetition? c rest with
      | none => readFrom 0 (here.add (.literal c)) around rest
      | some (least, most, width) => do
        if most.any (· < least) then none
        let repeated ← here.repeatLast least most
        let hurry ← readHurry (rest.drop width)
        readFrom (width + hurry) repeated around rest

/-- Read a pattern. -/
def read (pattern : Text) : Option Expression := do
  readFrom 0 ⟨[], []⟩ [] (← tokens pattern)

/-- A pattern matches a text as a whole. -/
def FullMatch (multiline : Bool) (pattern text : Text) : Prop :=
  ∃ expression, read pattern = some expression ∧ expression.Matches multiline [] text []

example :
    read "^[]\\w-]\x7b2,\x7d?(\\*|x\x7b)".toList =
      some (sequence [.edge .lineStart,
        .repeated 2 none (.oneOf [.single ']', .ofKind .word, .single '-']),
        .group (.either (sequence [.literal '*'])
          (sequence [.literal 'x', .literal '{']))]) := by
  decide

end Manuscript.Pattern
