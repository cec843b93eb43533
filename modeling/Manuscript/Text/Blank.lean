import Manuscript.Text.Basic

/-!
# White space

Blank characters are those with the bidirectional class or category of white
space in Unicode, and with them the four information separators U+001C to
U+001F. The zero width space, the byte order mark and the Mongolian vowel
separator are not blank.
-/

namespace Manuscript.Text

/-- Blank code points outside ASCII, in increasing order, both ends included. -/
def blankRanges : List (Nat × Nat) :=
  [(0x85, 0x85), (0xA0, 0xA0), (0x1680, 0x1680), (0x2000, 0x200A), (0x2028, 0x2029),
   (0x202F, 0x202F), (0x205F, 0x205F), (0x3000, 0x3000)]

/-- Whether a code point lies in one of the listed ranges. -/
def inRanges (code : Nat) (ranges : List (Nat × Nat)) : Bool :=
  ranges.any fun range => range.1 ≤ code && code ≤ range.2

/-- White space. -/
def isBlank (c : Char) : Bool :=
  (9 ≤ c.toNat && c.toNat ≤ 13) || (28 ≤ c.toNat && c.toNat ≤ 32)
    || (128 ≤ c.toNat && inRanges c.toNat blankRanges)

/-- Drop the characters that a test picks from the end of a text. -/
def dropEndWhile (picked : Char → Bool) : Text → Text
  | [] => []
  | c :: rest =>
    match dropEndWhile picked rest with
    | [] => if picked c then [] else [c]
    | kept => c :: kept

/-- Drop the blank characters at the end of a text. -/
def trimEnd (text : Text) : Text := dropEndWhile isBlank text

/-- Drop the blank characters at both ends of a text. -/
def trim (text : Text) : Text := trimEnd (text.dropWhile isBlank)

/-- White space that is no information separator. -/
def isSpacing (c : Char) : Bool := isBlank c && !(28 ≤ c.toNat && c.toNat ≤ 31)

/-- Drop white space that is no information separator at both ends of a text. -/
def trimSpace (text : Text) : Text := dropEndWhile isSpacing (text.dropWhile isSpacing)

end Manuscript.Text
