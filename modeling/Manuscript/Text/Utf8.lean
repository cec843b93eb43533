import Manuscript.Text.Quoted

/-!
# UTF-8

A file holds bytes, and a text is read from them one byte at a time. A byte that
no character starts with, a byte that does not continue the character begun, and
an end in the middle of a character are the three faults; a fault covers the bytes
of the character begun, which are one when nothing valid was begun, and it ends the
reading at once. Overlong forms, surrogates and code points above U+10FFFF are
refused at their second byte at the latest, through the range that byte must lie in.

A large file arrives in blocks. A character may be cut by the end of a block; its
bytes then wait for the next one, and the positions of a fault count from the first
byte that the current block has been handed together with.
-/

namespace Manuscript.Utf8

/-- Why a byte sequence is not a character. -/
inductive Cause where
  | startByte
  | continuationByte
  | endOfData
deriving DecidableEq, Repr

/-- How a cause is named in messages. -/
def Cause.text : Cause → String
  | .startByte => "invalid start byte"
  | .continuationByte => "invalid continuation byte"
  | .endOfData => "unexpected end of data"

/-- Bytes that are no character: where they begin, which they are, and why. -/
structure Fault where
  position : Nat
  bytes : List UInt8
  cause : Cause
deriving DecidableEq, Repr

/-- The message of a fault names the byte if it is one, and the range if it is more. -/
def Fault.message (fault : Fault) : String :=
  let place := match fault.bytes with
    | [byte] =>
      s!"byte 0x{String.ofList (Text.hexadecimal 2 byte.toNat)} in position {fault.position}"
    | bytes => s!"bytes in position {fault.position}-{fault.position + bytes.length - 1}"
  s!"'utf-8' codec can't decode {place}: {fault.cause.text}"

/-- A character that has begun: how many bytes it still needs, the range its next
byte must lie in, the value so far, and its bytes so far. -/
structure Begun where
  needed : Nat
  low : UInt8
  high : UInt8
  value : Nat
  bytes : List UInt8
deriving DecidableEq, Repr

/-- What the first byte of a longer character promises. `none` for a byte that
starts no character of two to four bytes. -/
def begin? (byte : UInt8) : Option Begun :=
  let b := byte.toNat
  if 0xC2 ≤ b ∧ b ≤ 0xDF then some ⟨1, 0x80, 0xBF, b - 0xC0, [byte]⟩
  else if b = 0xE0 then some ⟨2, 0xA0, 0xBF, 0, [byte]⟩
  else if b = 0xED then some ⟨2, 0x80, 0x9F, 0xD, [byte]⟩
  else if 0xE1 ≤ b ∧ b ≤ 0xEF then some ⟨2, 0x80, 0xBF, b - 0xE0, [byte]⟩
  else if b = 0xF0 then some ⟨3, 0x90, 0xBF, 0, [byte]⟩
  else if b = 0xF4 then some ⟨3, 0x80, 0x8F, 4, [byte]⟩
  else if 0xF1 ≤ b ∧ b ≤ 0xF3 then some ⟨3, 0x80, 0xBF, b - 0xF0, [byte]⟩
  else none

/-- The character begun, with one more byte. -/
def Begun.add (begun : Begun) (byte : UInt8) : Begun :=
  ⟨begun.needed - 1, 0x80, 0xBF, begun.value * 64 + byte.toNat % 64, begun.bytes ++ [byte]⟩

/-- How a run of bytes ends: between characters, within one, or at a fault. -/
inductive Ending where
  | between
  | within (begun : Begun)
  | fault (fault : Fault)
deriving DecidableEq, Repr

/-- Read bytes from a position on, with the character that is begun there, if any.
The characters before a fault are read. -/
def scan : Nat → Option Begun → List UInt8 → Text × Ending
  | _, none, [] => ([], .between)
  | _, some begun, [] => ([], .within begun)
  | position, none, byte :: rest =>
    if byte.toNat < 0x80 then
      let (text, ending) := scan (position + 1) none rest
      (Char.ofNat byte.toNat :: text, ending)
    else match begin? byte with
      | none => ([], .fault ⟨position, [byte], .startByte⟩)
      | some begun => scan (position + 1) (some begun) rest
  | position, some begun, byte :: rest =>
    if begun.low ≤ byte ∧ byte ≤ begun.high then
      let longer := begun.add byte
      if longer.needed = 0 then
        let (text, ending) := scan (position + 1) none rest
        (Char.ofNat longer.value :: text, ending)
      else scan (position + 1) (some longer) rest
    else ([], .fault ⟨position - begun.bytes.length, begun.bytes, .continuationByte⟩)

/-- Read all bytes of a file at once. -/
def decode (bytes : List UInt8) : Except Fault Text :=
  match scan 0 none bytes with
  | (text, .between) => .ok text
  | (_, .within begun) =>
    .error ⟨bytes.length - begun.bytes.length, begun.bytes, .endOfData⟩
  | (_, .fault fault) => .error fault

/-- Write a text as bytes. -/
def encode (text : Text) : List UInt8 := text.flatMap String.utf8EncodeChar

/-- The mark that may stand before the first character of a file. -/
def byteOrderMark : List UInt8 := [0xEF, 0xBB, 0xBF]

/-- The bytes that files are read in at a time. -/
def blockSize : Nat := 8192

/-- Read a file block by block: the text of the blocks before the one with the first
fault, and that fault. `waiting` holds the bytes of the character that the previous block
cut. The first argument bounds the number of blocks. -/
def scanBlocks : Nat → List UInt8 → List UInt8 → Text × Option Fault
  | 0, _, _ => ([], none)
  | blocks + 1, waiting, bytes =>
    if bytes.isEmpty then
      ([], if waiting.isEmpty then none else some ⟨0, waiting, .endOfData⟩)
    else match scan 0 none (waiting ++ bytes.take blockSize) with
      | (_, .fault fault) => ([], some fault)
      | (text, .between) =>
        let (more, fault) := scanBlocks blocks [] (bytes.drop blockSize)
        (text ++ more, fault)
      | (text, .within begun) =>
        let (more, fault) := scanBlocks blocks begun.bytes (bytes.drop blockSize)
        (text ++ more, fault)

/-- Read a file whose first character may be a byte order mark, block by block.
Where the file begins with the mark, the positions in the first block count from
behind it. A file that is no more than the beginning of a mark is empty. -/
def decodeMarked (bytes : List UInt8) : Text × Option Fault :=
  if bytes.length < 3 ∧ bytes.isPrefixOf byteOrderMark then ([], none)
  else if byteOrderMark.isPrefixOf bytes then
    match scan 0 none ((bytes.take blockSize).drop 3) with
    | (_, .fault fault) => ([], some fault)
    | (text, .between) =>
      let (more, fault) := scanBlocks (bytes.length + 1) [] (bytes.drop blockSize)
      (text ++ more, fault)
    | (text, .within begun) =>
      let (more, fault) := scanBlocks (bytes.length + 1) begun.bytes (bytes.drop blockSize)
      (text ++ more, fault)
  else scanBlocks (bytes.length + 1) [] bytes

end Manuscript.Utf8

namespace Manuscript.Text

/-- Drop the byte order mark that the text of a file may begin with. -/
def dropMark : Text → Text
  | '\uFEFF' :: rest => rest
  | text => text

/-- Write every line end, be it a carriage return, a line feed or both, as one line
feed. -/
def unifyLineEnds : Text → Text
  | '\r' :: '\n' :: rest => '\n' :: unifyLineEnds rest
  | '\r' :: rest => '\n' :: unifyLineEnds rest
  | c :: rest => c :: unifyLineEnds rest
  | [] => []

end Manuscript.Text
