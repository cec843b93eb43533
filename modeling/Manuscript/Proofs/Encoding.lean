import Manuscript.Text.Utf8

/-!
# Reading what was written as UTF-8

The bytes of a text are read back as that text, in one piece or in blocks, and behind a byte
order mark too. Blocks may end within a character. So the law is about any front part of the
bytes: what is read of it is a front part of the text, and the bytes that wait for the next
block begin the rest. If nothing follows, nothing waits.
-/

namespace Manuscript.Utf8

/-- The bytes that a character begun still needs to become a character. -/
def Completes : Begun → List UInt8 → Char → Prop
  | _, [], _ => False
  | begun, byte :: rest, c =>
    begun.low ≤ byte ∧ byte ≤ begun.high ∧
      if (begun.add byte).needed = 0 then rest = [] ∧ Char.ofNat (begun.add byte).value = c
      else Completes (begun.add byte) rest c

/-- The first bytes of two-byte characters. -/
theorem begin_two : ∀ a < 32, 2 ≤ a → begin? (UInt8.ofNat (a + 0xC0)) =
    some ⟨1, 0x80, 0xBF, a, [UInt8.ofNat (a + 0xC0)]⟩ := by decide

/-- The first bytes of three-byte characters. Below the first and within the fourteenth range
not all second bytes are allowed. -/
theorem begin_three : ∀ a < 16, begin? (UInt8.ofNat (a + 0xE0)) =
    some ⟨2, if a = 0 then 0xA0 else 0x80, if a = 13 then 0x9F else 0xBF, a,
      [UInt8.ofNat (a + 0xE0)]⟩ := by decide

/-- The first bytes of four-byte characters. -/
theorem begin_four : ∀ a < 5, begin? (UInt8.ofNat (a + 0xF0)) =
    some ⟨3, if a = 0 then 0x90 else 0x80, if a = 4 then 0x8F else 0xBF, a,
      [UInt8.ofNat (a + 0xF0)]⟩ := by decide

/-- The number of a continuation byte. -/
theorem toNat_continuation {n : Nat} (small : n < 64) :
    (UInt8.ofNat (n + 0x80)).toNat = n + 0x80 := by
  rw [UInt8.toNat_ofNat']
  omega

/-- The last byte of a character adds six bits and ends it. -/
theorem completes_last {begun : Begun} {n : Nat} {c : Char} (small : n < 64)
    (needed : begun.needed = 1) (low : begun.low.toNat ≤ n + 0x80)
    (high : n + 0x80 ≤ begun.high.toNat) (value : Char.ofNat (begun.value * 64 + n) = c) :
    Completes begun [UInt8.ofNat (n + 0x80)] c := by
  have number : (UInt8.ofNat (n + 0x80)).toNat = n + 0x80 := toNat_continuation small
  have bits : (n + 0x80) % 64 = n := by omega
  refine ⟨?_, ?_, ?_⟩
  · rw [UInt8.le_iff_toNat_le, number]
    exact low
  · rw [UInt8.le_iff_toNat_le, number]
    exact high
  · simp only [Begun.add, needed, number, bits, value, and_self, Nat.sub_self, if_true]

/-- Another byte of a character adds six bits, and the next one may be any. -/
theorem completes_next {begun : Begun} {n needed : Nat} {rest : List UInt8} {c : Char}
    (small : n < 64) (more : begun.needed = needed + 2) (low : begun.low.toNat ≤ n + 0x80)
    (high : n + 0x80 ≤ begun.high.toNat)
    (completed : ∀ bytes, Completes ⟨needed + 1, 0x80, 0xBF, begun.value * 64 + n, bytes⟩ rest c) :
    Completes begun (UInt8.ofNat (n + 0x80) :: rest) c := by
  have number : (UInt8.ofNat (n + 0x80)).toNat = n + 0x80 := toNat_continuation small
  have bits : (n + 0x80) % 64 = n := by omega
  have left : begun.needed - 1 = needed + 1 := by omega
  refine ⟨?_, ?_, ?_⟩
  · rw [UInt8.le_iff_toNat_le, number]
    exact low
  · rw [UInt8.le_iff_toNat_le, number]
    exact high
  · simp only [Begun.add, number, bits, left, Nat.succ_ne_zero, if_false]
    exact completed _

/-- The number of an allowed continuation byte lies in its range. -/
theorem any_continuation {n : Nat} (small : n < 64) :
    (0x80 : UInt8).toNat ≤ n + 0x80 ∧ n + 0x80 ≤ (0xBF : UInt8).toNat := by
  have low : (0x80 : UInt8).toNat = 0x80 := rfl
  have high : (0xBF : UInt8).toNat = 0xBF := rfl
  omega

/-- The two bytes of a character. -/
theorem completes_two {c : Char} {v : Nat} (whole : Char.ofNat v = c) (bytes : List UInt8) :
    Completes ⟨1, 0x80, 0xBF, v / 64, bytes⟩ [UInt8.ofNat (v % 64 + 0x80)] c := by
  have small : v % 64 < 64 := Nat.mod_lt v (by decide)
  refine completes_last small rfl (any_continuation small).1 (any_continuation small).2 ?_
  have value : v / 64 * 64 + v % 64 = v := by omega
  change Char.ofNat (v / 64 * 64 + v % 64) = c
  rw [value, whole]

/-- The three bytes of a character. Overlong forms and surrogates are no characters, which is
what the ranges of the second byte say. -/
theorem completes_three {c : Char} {v : Nat} (whole : Char.ofNat v = c) (long : 0x800 ≤ v)
    (valid : v < 0xD800 ∨ 0xDFFF < v) (bytes : List UInt8) :
    Completes ⟨2, if v / 4096 = 0 then 0xA0 else 0x80, if v / 4096 = 13 then 0x9F else 0xBF,
        v / 4096, bytes⟩
      [UInt8.ofNat (v / 64 % 64 + 0x80), UInt8.ofNat (v % 64 + 0x80)] c := by
  have small : v / 64 % 64 < 64 := Nat.mod_lt _ (by decide)
  have lowest : (0xA0 : UInt8).toNat = 0xA0 := rfl
  have highest : (0x9F : UInt8).toNat = 0x9F := rfl
  refine completes_next small rfl ?_ ?_ ?_
  · by_cases zero : v / 4096 = 0
    · simp only [zero, if_true, lowest]
      omega
    · simp only [zero, if_false]
      exact (any_continuation small).1
  · by_cases surrogate : v / 4096 = 13
    · simp only [surrogate, if_true, highest]
      omega
    · simp only [surrogate, if_false]
      exact (any_continuation small).2
  · intro more
    have value : v / 4096 * 64 + v / 64 % 64 = v / 64 := by omega
    rw [value]
    exact completes_two whole more

/-- The four bytes of a character. Overlong forms and what lies above the last character are
kept out by the ranges of the second byte. -/
theorem completes_four {c : Char} {v : Nat} (whole : Char.ofNat v = c) (long : 0xFFFF < v)
    (valid : v < 0x110000) (bytes : List UInt8) :
    Completes ⟨3, if v / 262144 = 0 then 0x90 else 0x80, if v / 262144 = 4 then 0x8F else 0xBF,
        v / 262144, bytes⟩
      [UInt8.ofNat (v / 4096 % 64 + 0x80), UInt8.ofNat (v / 64 % 64 + 0x80),
        UInt8.ofNat (v % 64 + 0x80)] c := by
  have small : v / 4096 % 64 < 64 := Nat.mod_lt _ (by decide)
  have smaller : v / 64 % 64 < 64 := Nat.mod_lt _ (by decide)
  have lowest : (0x90 : UInt8).toNat = 0x90 := rfl
  have highest : (0x8F : UInt8).toNat = 0x8F := rfl
  refine completes_next small rfl ?_ ?_ ?_
  · by_cases zero : v / 262144 = 0
    · simp only [zero, if_true, lowest]
      omega
    · simp only [zero, if_false]
      exact (any_continuation small).1
  · by_cases top : v / 262144 = 4
    · simp only [top, if_true, highest]
      omega
    · simp only [top, if_false]
      exact (any_continuation small).2
  · intro more
    refine completes_next smaller rfl (any_continuation smaller).1 (any_continuation smaller).2 ?_
    intro most
    have value : (v / 262144 * 64 + v / 4096 % 64) * 64 + v / 64 % 64 = v / 64 := by omega
    simp only [value]
    exact completes_two whole most

/-- A character is one small byte, or a first byte and what completes it. -/
theorem encodeChar_cases (c : Char) :
    (∃ byte, String.utf8EncodeChar c = [byte] ∧ byte.toNat < 0x80 ∧ Char.ofNat byte.toNat = c) ∨
    ∃ byte begun tail, String.utf8EncodeChar c = byte :: tail ∧ ¬ byte.toNat < 0x80 ∧
      begin? byte = some begun ∧ begun.bytes = [byte] ∧ Completes begun tail c := by
  have whole : Char.ofNat c.val.toNat = c := Char.ofNat_toNat c
  have valid : c.val.toNat < 0xD800 ∨ 0xDFFF < c.val.toNat ∧ c.val.toNat < 0x110000 := c.valid
  unfold String.utf8EncodeChar
  generalize c.val.toNat = v at whole valid
  by_cases one : v ≤ 0x7f
  · left
    have number : (UInt8.ofNat v).toNat = v := by
      rw [UInt8.toNat_ofNat']
      omega
    exact ⟨UInt8.ofNat v, if_pos one, by omega, by rw [number, whole]⟩
  right
  by_cases two : v ≤ 0x7ff
  · have first : v / 64 % 32 = v / 64 := by omega
    refine ⟨_, _, _, ?_, ?_, begin_two (v / 64) (by omega) (by omega), rfl,
      completes_two whole _⟩
    · rw [if_neg one, if_pos two, first]
    · rw [UInt8.toNat_ofNat']
      omega
  by_cases three : v ≤ 0xffff
  · have first : v / 4096 % 16 = v / 4096 := by omega
    refine ⟨_, _, _, ?_, ?_, begin_three (v / 4096) (by omega), rfl,
      completes_three whole (by omega) (by omega) _⟩
    · rw [if_neg one, if_neg two, if_pos three, first]
    · rw [UInt8.toNat_ofNat']
      omega
  · have first : v / 262144 % 8 = v / 262144 := by omega
    refine ⟨_, _, _, ?_, ?_, begin_four (v / 262144) (by omega), rfl,
      completes_four whole (by omega) (by omega) _⟩
    · rw [if_neg one, if_neg two, if_neg three, first]
    · rw [UInt8.toNat_ofNat']
      omega

/-- A character begun is read up to its end, and the reading goes on behind it. -/
theorem scan_completes {begun : Begun} {tail : List UInt8} {c : Char}
    (completed : Completes begun tail c) (position : Nat) (rest : List UInt8) :
    scan position (some begun) (tail ++ rest) =
      (c :: (scan (position + tail.length) none rest).1,
        (scan (position + tail.length) none rest).2) := by
  induction tail generalizing begun position with
  | nil => exact completed.elim
  | cons byte later inductionHypothesis =>
    obtain ⟨low, high, ending⟩ := completed
    rw [List.cons_append, scan, if_pos ⟨low, high⟩]
    by_cases last : (begun.add byte).needed = 0
    · rw [if_pos last] at ending
      obtain ⟨rfl, same⟩ := ending
      simp only [last, if_true, same, List.nil_append, List.length_singleton]
    · rw [if_neg last] at ending
      simp only [last, if_false, List.length_cons]
      rw [inductionHypothesis ending (position + 1), Nat.add_right_comm, Nat.add_assoc]

/-- A character that is cut off is still begun where the bytes end. -/
theorem scan_cut {begun : Begun} {front back : List UInt8} {c : Char}
    (completed : Completes begun (front ++ back) c) (more : back ≠ []) (position : Nat) :
    ∃ later, scan position (some begun) front = ([], .within later) ∧
      later.bytes = begun.bytes ++ front := by
  induction front generalizing begun position with
  | nil => exact ⟨begun, rfl, (List.append_nil _).symm⟩
  | cons byte rest inductionHypothesis =>
    obtain ⟨low, high, ending⟩ := completed
    rw [scan, if_pos ⟨low, high⟩]
    by_cases last : (begun.add byte).needed = 0
    · rw [if_pos last] at ending
      exact absurd (List.append_eq_nil_iff.mp ending.1).2 more
    · rw [if_neg last] at ending
      obtain ⟨later, read, bytes⟩ := inductionHypothesis ending (position + 1)
      refine ⟨later, ?_, ?_⟩
      · simp only [last, if_false, read]
      · rw [bytes, Begun.add, List.append_assoc, List.singleton_append]

/-- The bytes of a character are read as that character. -/
theorem scan_char (position : Nat) (c : Char) (rest : List UInt8) :
    scan position none (String.utf8EncodeChar c ++ rest) =
      (c :: (scan (position + (String.utf8EncodeChar c).length) none rest).1,
        (scan (position + (String.utf8EncodeChar c).length) none rest).2) := by
  rcases encodeChar_cases c with
    ⟨byte, encoded, small, whole⟩ | ⟨byte, begun, tail, encoded, large, first, -, completed⟩
  · rw [encoded, List.singleton_append, scan, if_pos small, whole, List.length_singleton]
  · rw [encoded, List.cons_append, scan, if_neg large, first]
    simp only [scan_completes completed]
    rw [List.length_cons, Nat.add_right_comm, Nat.add_assoc]

/-- The first bytes of a character are no character yet, but it is begun. -/
theorem scan_char_cut (position : Nat) {c : Char} {front back : List UInt8}
    (encoded : String.utf8EncodeChar c = front ++ back) (some : front ≠ []) (more : back ≠ []) :
    ∃ begun, scan position none front = ([], .within begun) ∧ begun.bytes = front := by
  cases front with
  | nil => exact absurd rfl some
  | cons byte rest =>
    rcases encodeChar_cases c with
      ⟨single, alone, -, -⟩ | ⟨byte', begun, tail, shape, large, first, bytes, completed⟩
    · rw [alone, List.cons_append, List.cons.injEq] at encoded
      exact absurd (List.append_eq_nil_iff.mp encoded.2.symm).2 more
    · rw [shape, List.cons_append, List.cons.injEq] at encoded
      obtain ⟨rfl, split⟩ := encoded
      rw [split] at completed
      obtain ⟨later, read, laterBytes⟩ := scan_cut completed more (position + 1)
      refine ⟨later, ?_, ?_⟩
      · rw [scan, if_neg large, first]
        exact read
      · rw [laterBytes, bytes, List.singleton_append]

/-- The bytes of the character begun, where the reading ends within one. -/
def Ending.waiting : Ending → List UInt8
  | .within begun => begun.bytes
  | _ => []

/-- Of any front part of the bytes of a text a front part of the text is read, without a
fault. What waits and what follows are the bytes of the rest of the text, and nothing is left
of the text where nothing follows. -/
theorem scan_front (text : Text) (position : Nat) (front back : List UInt8)
    (split : front ++ back = encode text) :
    ∃ first rest ending, scan position none front = (first, ending) ∧
      (∀ fault, ending ≠ .fault fault) ∧ text = first ++ rest ∧
      ending.waiting ++ back = encode rest ∧ (back = [] → rest = []) := by
  induction text generalizing position front with
  | nil =>
    obtain ⟨rfl, rfl⟩ := List.append_eq_nil_iff.mp split
    exact ⟨[], [], .between, rfl, by simp, rfl, rfl, fun _ => rfl⟩
  | cons c text inductionHypothesis =>
    have bytes : encode (c :: text) = String.utf8EncodeChar c ++ encode text := rfl
    rw [bytes] at split
    have ends : (∃ missing, missing ≠ [] ∧ String.utf8EncodeChar c = front ++ missing ∧
          back = missing ++ encode text) ∨
        ∃ later, front = String.utf8EncodeChar c ++ later ∧ later ++ back = encode text := by
      rcases List.append_eq_append_iff.mp split with
        ⟨missing, encoded, behind⟩ | ⟨later, shape, behind⟩
      · by_cases exact_end : missing = []
        · subst exact_end
          exact .inr ⟨[], by rw [encoded, List.append_nil, List.append_nil], behind⟩
        · exact .inl ⟨missing, exact_end, encoded, behind⟩
      · exact .inr ⟨later, shape, behind.symm⟩
    rcases ends with ⟨missing, more, encoded, behind⟩ | ⟨later, shape, behind⟩
    · -- The front ends before the first character does: nothing is read, and what there is waits.
      have following : back ≠ [] := by
        rw [behind]
        exact fun empty => more (List.append_eq_nil_iff.mp empty).1
      have whole : front ++ back = encode (c :: text) := by
        rw [bytes, split]
      by_cases none : front = []
      · subst none
        exact ⟨[], c :: text, .between, rfl, by simp, rfl, whole,
          fun empty => absurd empty following⟩
      · obtain ⟨begun, read, waits⟩ := scan_char_cut position encoded none more
        refine ⟨[], c :: text, .within begun, read, by simp, rfl, ?_,
          fun empty => absurd empty following⟩
        rw [Ending.waiting, waits, whole]
    · -- The first character is read, and the front goes on behind it.
      obtain ⟨first, rest, ending, read, sound, cut, waits, ended⟩ :=
        inductionHypothesis (position + (String.utf8EncodeChar c).length) later behind
      refine ⟨c :: first, rest, ending, ?_, sound, ?_, waits, ended⟩
      · rw [shape, scan_char, read]
      · rw [cut, List.cons_append]

/-- The bytes of a text are read as the text. -/
theorem scan_encode (position : Nat) (text : Text) :
    scan position none (encode text) = (text, .between) := by
  induction text generalizing position with
  | nil => rfl
  | cons c rest inductionHypothesis =>
    have bytes : encode (c :: rest) = String.utf8EncodeChar c ++ encode rest := rfl
    rw [bytes, scan_char, inductionHypothesis]

/-- What is written is read back in blocks, wherever they end. -/
theorem scanBlocks_encode (blocks : Nat) (text : Text) (waiting bytes : List UInt8)
    (written : waiting ++ bytes = encode text) (ended : bytes = [] → text = [])
    (enough : bytes.length < blocks) : scanBlocks blocks waiting bytes = (text, none) := by
  induction blocks generalizing text waiting bytes with
  | zero => omega
  | succ blocks inductionHypothesis =>
    by_cases empty : bytes = []
    · have nothing : text = [] := ended empty
      subst empty nothing
      have unread : waiting = [] := (List.append_eq_nil_iff.mp written).1
      subst unread
      rfl
    · have split : (waiting ++ bytes.take blockSize) ++ bytes.drop blockSize = encode text := by
        rw [List.append_assoc, List.take_append_drop, written]
      obtain ⟨first, rest, ending, read, sound, cut, waits, last⟩ :=
        scan_front text 0 _ _ split
      have positive : 0 < bytes.length := List.length_pos_iff.mpr empty
      have fewer : (bytes.drop blockSize).length < blocks := by
        rw [List.length_drop, blockSize]
        omega
      have more := inductionHypothesis rest ending.waiting (bytes.drop blockSize) waits last fewer
      rw [scanBlocks, if_neg (by simpa using empty), read]
      cases ending with
      | fault fault => exact absurd rfl (sound fault)
      | between =>
        simp only [Ending.waiting] at more
        simp only [more]
        rw [cut]
      | within begun =>
        simp only [Ending.waiting] at more
        simp only [more]
        rw [cut]

/-- The bytes of the mark are those of its character. -/
theorem byteOrderMark_eq : byteOrderMark = encode ['\uFEFF'] := by decide

/-- What is written behind a mark is read back without the mark. -/
theorem decodeMarked_mark (text : Text) :
    decodeMarked (byteOrderMark ++ encode text) = (text, none) := by
  have short : ¬ ((byteOrderMark ++ encode text).length < 3 ∧
      (byteOrderMark ++ encode text).isPrefixOf byteOrderMark = true) := by
    rw [List.length_append]
    have mark : byteOrderMark.length = 3 := rfl
    omega
  have marked : byteOrderMark.isPrefixOf (byteOrderMark ++ encode text) = true := by
    rw [List.isPrefixOf_iff_prefix]
    exact List.prefix_append _ _
  have head : ((byteOrderMark ++ encode text).take blockSize).drop 3 =
      (encode text).take (blockSize - 3) := by
    rw [List.take_append]
    rfl
  have tail : (byteOrderMark ++ encode text).drop blockSize =
      (encode text).drop (blockSize - 3) := by
    rw [List.drop_append]
    rfl
  obtain ⟨first, rest, ending, read, sound, cut, waits, last⟩ :=
    scan_front text 0 ((encode text).take (blockSize - 3)) ((encode text).drop (blockSize - 3))
      (List.take_append_drop _ _)
  have enough : ((encode text).drop (blockSize - 3)).length <
      (byteOrderMark ++ encode text).length + 1 := by
    rw [List.length_drop, List.length_append]
    omega
  have more := scanBlocks_encode _ rest ending.waiting _ waits last enough
  rw [decodeMarked, if_neg short, if_pos marked, head, tail, read]
  cases ending with
  | fault fault => exact absurd rfl (sound fault)
  | between =>
    simp only [Ending.waiting] at more
    simp only [more]
    rw [cut]
  | within begun =>
    simp only [Ending.waiting] at more
    simp only [more]
    rw [cut]

/-- Bytes that begin those of a text are read as a beginning of the text, if they are whole
characters. -/
theorem encode_prefix {first text : Text} (begins : encode first <+: encode text) :
    first <+: text := by
  obtain ⟨back, split⟩ := begins
  obtain ⟨front, rest, ending, read, -, cut, -, -⟩ := scan_front text 0 _ back split
  rw [scan_encode] at read
  exact ⟨rest, by rw [cut, ← (Prod.mk.inj read).1]⟩

/-- What is written without a mark is read back, if it does not begin like one. -/
theorem decodeMarked_encode (text : Text) (unmarked : text.head? ≠ some '\uFEFF') :
    decodeMarked (encode text) = (text, none) := by
  have other : ¬ byteOrderMark.isPrefixOf (encode text) = true := by
    rw [List.isPrefixOf_iff_prefix, byteOrderMark_eq]
    intro marked
    obtain ⟨rest, shape⟩ := encode_prefix marked
    exact unmarked (by rw [← shape]; rfl)
  rw [decodeMarked]
  by_cases short : (encode text).length < 3 ∧ (encode text).isPrefixOf byteOrderMark = true
  · have empty : text = [] := by
      rw [List.isPrefixOf_iff_prefix, byteOrderMark_eq] at short
      cases text with
      | nil => rfl
      | cons c rest =>
        obtain ⟨behind, shape⟩ := encode_prefix short.2
        rw [List.cons_append, List.cons.injEq] at shape
        exact absurd (congrArg some shape.1) unmarked
    rw [if_pos short, empty]
  · rw [if_neg short, if_neg other]
    refine scanBlocks_encode _ text [] _ rfl ?_ (Nat.lt_succ_self _)
    intro nothing
    cases text with
    | nil => rfl
    | cons c rest =>
      exact absurd (List.append_eq_nil_iff.mp nothing).1 String.utf8EncodeChar_ne_nil

/-- Whatever a file says is read, but for a mark at its beginning. -/
theorem decodeMarked_content (content : Text) :
    decodeMarked (encode content) = (Text.dropMark content, none) := by
  by_cases marked : content.head? = some '\uFEFF'
  · obtain ⟨rest, rfl⟩ := List.head?_eq_some_iff.mp marked
    have split : encode ('\uFEFF' :: rest) = byteOrderMark ++ encode rest := by
      rw [byteOrderMark_eq]
      rfl
    rw [split, decodeMarked_mark]
    rfl
  · have unmarked : Text.dropMark content = content := by
      unfold Text.dropMark
      split
      · exact absurd rfl marked
      · rfl
    rw [decodeMarked_encode content marked, unmarked]

end Manuscript.Utf8
