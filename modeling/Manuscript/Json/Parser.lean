import Manuscript.Json.Basic

/-!
# Reading JSON

A text is read as one value with white space around it. Besides the standard form the
three names of the doubles that are no finite number are values. A name that occurs
twice in an object stands where it occurs first and has the value it has last.

A refusal tells what was expected and where. Every reader returns the text that is
left, and a refusal carries the length of the text left at the fault, so that a
position is known without counting along. Nested values are bounded by the length of
the text, since every value begins with a character of its own.

No character is a surrogate here. So an escape of a surrogate that has no partner is read
as the replacement character U+FFFD, and the escape is lost when the string is written
again; where strings may hold lone surrogates they are kept and written back.
-/

namespace Manuscript.Json

/-- Why a text is no JSON value. -/
inductive Mistake where
  | byteOrderMark
  | value
  | propertyName
  | colon
  | comma
  | unterminatedString
  | controlCharacter
  | escape
  | unicodeEscape
  | extraData
deriving DecidableEq, Repr

/-- How a mistake is named in messages. -/
def Mistake.text : Mistake → String
  | .byteOrderMark => "Unexpected UTF-8 BOM (decode using utf-8-sig)"
  | .value => "Expecting value"
  | .propertyName => "Expecting property name enclosed in double quotes"
  | .colon => "Expecting ':' delimiter"
  | .comma => "Expecting ',' delimiter"
  | .unterminatedString => "Unterminated string starting at"
  | .controlCharacter => "Invalid control character at"
  | .escape => "Invalid \\escape"
  | .unicodeEscape => "Invalid \\uXXXX escape"
  | .extraData => "Extra data"

/-- Why reading stopped, with the number of characters left at that place; or a whole
number of more digits than are read. -/
inductive Stop where
  | fault (mistake : Mistake) (left : Nat)
  | tooManyDigits
deriving DecidableEq, Repr

/-- Why a text is refused, with the position, the line and the column of the fault. The
lines and columns count from one, the positions from zero. -/
inductive Refusal where
  | malformed (mistake : Mistake) (line column position : Nat)
  | tooManyDigits
deriving DecidableEq, Repr

/-- The message of a refusal. -/
def Refusal.message : Refusal → String
  | .malformed mistake line column position =>
    s!"{mistake.text}: line {line} column {column} (char {position})"
  | .tooManyDigits => "a whole number has more than 4300 digits"

/-- The line, the column and the position of the place with so many characters left. -/
def locate (text : Text) (mistake : Mistake) (left : Nat) : Refusal :=
  let before := text.take (text.length - left)
  let column := (before.reverse.takeWhile (· != '\n')).length + 1
  .malformed mistake (before.count '\n' + 1) column before.length

/-- The white space that may stand between the parts of a value. -/
def isSpace (c : Char) : Bool := c == ' ' || c == '\t' || c == '\n' || c == '\r'

/-- Drop white space. -/
def skip (text : Text) : Text := text.dropWhile isSpace

/-- The value of a hexadecimal digit. -/
def hexadecimalDigit? (c : Char) : Option Nat :=
  if '0' ≤ c ∧ c ≤ '9' then some (c.toNat - 48)
  else if 'a' ≤ c ∧ c ≤ 'f' then some (c.toNat - 87)
  else if 'A' ≤ c ∧ c ≤ 'F' then some (c.toNat - 55)
  else none

/-- The value of four hexadecimal digits. -/
def unit? (a b c d : Char) : Option Nat := do
  let a ← hexadecimalDigit? a
  let b ← hexadecimalDigit? b
  let c ← hexadecimalDigit? c
  let d ← hexadecimalDigit? d
  return ((a * 16 + b) * 16 + c) * 16 + d

/-- The character of a UTF-16 unit that stands alone. A surrogate is no character and is
replaced. -/
def charOfUnit (unit : Nat) : Char :=
  if 0xD800 ≤ unit ∧ unit < 0xE000 then '\uFFFD' else Char.ofNat unit

/-- The character that a short escape stands for. -/
def shortEscape? (c : Char) : Option Char :=
  match c with
  | '"' => some '"'
  | '\\' => some '\\'
  | '/' => some '/'
  | 'b' => some '\x08'
  | 'f' => some '\x0c'
  | 'n' => some '\n'
  | 'r' => some '\r'
  | 't' => some '\t'
  | _ => none

/-- Read a string behind its opening quote, which `beginning` starts with: its
characters and the text behind its closing quote. Two escapes of which the first is a
high and the second a low surrogate are one character. A fault in a hexadecimal escape
lies at its `u`. -/
def readString (beginning : Text) : Text → Except Stop (Text × Text)
  | [] => .error (.fault .unterminatedString beginning.length)
  | '"' :: rest => .ok ([], rest)
  | '\\' :: 'u' :: a :: b :: c :: d :: next :: rest =>
    match unit? a b c d with
    | none => .error (.fault .unicodeEscape (rest.length + 6))
    | some unit =>
      let alone := do
        let (text, after) ← readString beginning (next :: rest)
        return (charOfUnit unit :: text, after)
      if 0xD800 ≤ unit ∧ unit < 0xDC00 then
        match next, rest with
        | '\\', 'u' :: e :: f :: g :: h :: beyond =>
          if beyond.isEmpty then alone
          else match unit? e f g h with
            | none => .error (.fault .unicodeEscape (beyond.length + 5))
            | some low =>
              if 0xDC00 ≤ low ∧ low < 0xE000 then do
                let (text, after) ← readString beginning beyond
                return (Char.ofNat (0x10000 + (unit - 0xD800) * 0x400 + (low - 0xDC00)) :: text,
                  after)
              else alone
        | _, _ => alone
      else alone
  | '\\' :: 'u' :: rest => .error (.fault .unicodeEscape (rest.length + 1))
  | ['\\'] => .error (.fault .unterminatedString beginning.length)
  | '\\' :: c :: rest =>
    match shortEscape? c with
    | none => .error (.fault .escape (rest.length + 2))
    | some meant => do
      let (text, after) ← readString beginning rest
      return (meant :: text, after)
  | c :: rest =>
    if c.toNat < 32 then .error (.fault .controlCharacter (rest.length + 1))
    else do
      let (text, after) ← readString beginning rest
      return (c :: text, after)

/-- The most digits that a whole number may have. -/
def digitLimit : Nat := 4300

/-- The digits before the point of a number, and what follows: a zero stands alone. -/
def wholeDigits (text : Text) : Text × Text :=
  match text with
  | '0' :: rest => (['0'], rest)
  | _ => (text.takeWhile Text.isDigit, text.dropWhile Text.isDigit)

/-- The digits behind the point of a number, and what follows; no digits where the text
does not continue with a point and a digit. -/
def fractionDigits (text : Text) : Text × Text :=
  match text with
  | '.' :: digit :: rest =>
    if Text.isDigit digit then
      ((digit :: rest).takeWhile Text.isDigit, (digit :: rest).dropWhile Text.isDigit)
    else ([], text)
  | _ => ([], text)

/-- The exponent of a number, and what follows; `none` where the text does not continue
with a complete exponent. -/
def exponent? (text : Text) : Option (Int × Text) :=
  match text with
  | mark :: rest =>
    if mark = 'e' ∨ mark = 'E' then
      let (negative, digits) := match rest with
        | '-' :: digits => (true, digits)
        | '+' :: digits => (false, digits)
        | digits => (false, digits)
      let found := digits.takeWhile Text.isDigit
      if found.isEmpty then none
      else
        let value : Int := Text.valueOfDigits found
        some (if negative then -value else value, digits.dropWhile Text.isDigit)
    else none
  | [] => none

/-- Read a number. Where there is none, a value was expected at its beginning. -/
def readNumber (text : Text) : Except Stop (Json × Text) :=
  let (negative, unsigned) := match text with
    | '-' :: rest => (true, rest)
    | _ => (false, text)
  let (whole, afterWhole) := wholeDigits unsigned
  if whole.isEmpty then .error (.fault .value text.length)
  else
    let (fraction, afterFraction) := fractionDigits afterWhole
    match fraction, exponent? afterFraction with
    | [], none =>
      if digitLimit < whole.length then .error .tooManyDigits
      else
        let value : Int := Text.valueOfDigits whole
        .ok (.integer (if negative then -value else value), afterFraction)
    | fraction, none =>
      let digits := Text.valueOfDigits (whole ++ fraction)
      .ok (.real (.ofDecimal negative digits (-fraction.length)), afterFraction)
    | fraction, some (exponent, rest) =>
      let digits := Text.valueOfDigits (whole ++ fraction)
      .ok (.real (.ofDecimal negative digits (exponent - fraction.length)), rest)

/-- The values that are written as a name. -/
def names : List (Text × Json) :=
  [("null".toList, .null), ("true".toList, .boolean true), ("false".toList, .boolean false),
   ("NaN".toList, .real .notANumber), ("Infinity".toList, .real (.infinite false)),
   ("-Infinity".toList, .real (.infinite true))]

/-- Read a value that is a name or a number. -/
def readPlain (text : Text) : Except Stop (Json × Text) :=
  match names.find? fun entry => entry.1.isPrefixOf text with
  | some (name, value) => .ok (value, text.drop name.length)
  | none => readNumber text

mutual

/-- Read a value. The first argument bounds the depth of reading. -/
def readValue : Nat → Text → Except Stop (Json × Text)
  | 0, text => .error (.fault .value text.length)
  | bound + 1, text =>
    match text with
    | '"' :: rest => do
      let (value, after) ← readString text rest
      return (.string value, after)
    | '{' :: rest =>
      match skip rest with
      | '}' :: after => .ok (.object [], after)
      | inner => do
        let (fields, after) ← readFields bound inner
        return (.object (Entries.ofPairs fields), after)
    | '[' :: rest =>
      match skip rest with
      | ']' :: after => .ok (.array [], after)
      | inner => do
        let (items, after) ← readItems bound inner
        return (.array items, after)
    | _ => readPlain text

/-- Read the fields of an object up to and including its closing brace. -/
def readFields : Nat → Text → Except Stop (List (Text × Json) × Text)
  | 0, text => .error (.fault .propertyName text.length)
  | bound + 1, text =>
    match text with
    | '"' :: rest => do
      let (name, afterName) ← readString text rest
      match skip afterName with
      | ':' :: beforeValue => do
        let (value, afterValue) ← readValue bound (skip beforeValue)
        match skip afterValue with
        | '}' :: after => return ([(name, value)], after)
        | ',' :: beforeNext => do
          let (fields, after) ← readFields bound (skip beforeNext)
          return ((name, value) :: fields, after)
        | other => .error (.fault .comma other.length)
      | other => .error (.fault .colon other.length)
    | _ => .error (.fault .propertyName text.length)

/-- Read the items of an array up to and including its closing bracket. -/
def readItems : Nat → Text → Except Stop (List Json × Text)
  | 0, text => .error (.fault .value text.length)
  | bound + 1, text => do
    let (value, afterValue) ← readValue bound text
    match skip afterValue with
    | ']' :: after => return ([value], after)
    | ',' :: beforeNext => do
      let (items, after) ← readItems bound (skip beforeNext)
      return (value :: items, after)
    | other => .error (.fault .comma other.length)

end

/-- Read a whole text as one value. -/
def parse (text : Text) : Except Refusal Json :=
  match text with
  | '\uFEFF' :: _ => .error (locate text .byteOrderMark text.length)
  | _ =>
    match readValue (text.length + 1) (skip text) with
    | .error (.fault mistake left) => .error (locate text mistake left)
    | .error .tooManyDigits => .error .tooManyDigits
    | .ok (value, rest) =>
      match skip rest with
      | [] => .ok value
      | left => .error (locate text .extraData left.length)

end Manuscript.Json
