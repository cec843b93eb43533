import Manuscript.Json.Basic
import Manuscript.Text.Quoted

/-!
# Writing JSON

The text of a value consists of printable ASCII characters only. Items are separated
by a comma and a space, a name and its value by a colon and a space. The quote, the
backslash and five control characters have short escapes; all other characters outside
the range from space to tilde are written as the hexadecimal UTF-16 units of their
code point.
-/

namespace Manuscript.Json

/-- A UTF-16 unit with its four hexadecimal digits. -/
def unitEscape (unit : Nat) : Text := '\\' :: 'u' :: Text.hexadecimal 4 unit

/-- How one character of a string is written. -/
def printChar (c : Char) : Text :=
  if c = '"' then ['\\', '"']
  else if c = '\\' then ['\\', '\\']
  else if c = '\n' then ['\\', 'n']
  else if c = '\r' then ['\\', 'r']
  else if c = '\t' then ['\\', 't']
  else if c = '\x08' then ['\\', 'b']
  else if c = '\x0c' then ['\\', 'f']
  else if ' ' ≤ c ∧ c ≤ '~' then [c]
  else if c.toNat < 0x10000 then unitEscape c.toNat
  else
    let offset := c.toNat - 0x10000
    unitEscape (0xD800 + offset / 0x400) ++ unitEscape (0xDC00 + offset % 0x400)

/-- A string between quotes. -/
def printString (text : Text) : Text := '"' :: text.flatMap printChar ++ ['"']

/-- A double; the three values that are no finite number have names. -/
def printDouble : Double → Text
  | .notANumber => "NaN".toList
  | .infinite false => "Infinity".toList
  | .infinite true => "-Infinity".toList
  | .finite negative significand scale => Double.finiteText negative significand scale

mutual

/-- The text of a value. -/
def print : Json → Text
  | .null => "null".toList
  | .boolean true => "true".toList
  | .boolean false => "false".toList
  | .integer value => Text.signedNumeral value
  | .real value => printDouble value
  | .string value => printString value
  | .array items => '[' :: printItems items ++ [']']
  | .object fields => '{' :: printFields fields ++ ['}']

/-- The texts of the items of an array, with their separators. -/
def printItems : List Json → Text
  | [] => []
  | [item] => print item
  | item :: next :: rest => print item ++ ',' :: ' ' :: printItems (next :: rest)

/-- The texts of the fields of an object, with their separators. -/
def printFields : List (Text × Json) → Text
  | [] => []
  | [(name, value)] => printString name ++ ':' :: ' ' :: print value
  | (name, value) :: next :: rest =>
    printString name ++ ':' :: ' ' :: print value ++ ',' :: ' ' :: printFields (next :: rest)

end

end Manuscript.Json
