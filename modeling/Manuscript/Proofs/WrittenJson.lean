import Manuscript.Json.Printer
import Manuscript.Proofs.ReadJson

/-!
# Written JSON is read back

A value without doubles is read back from its text, with the fields of its objects in their
order. The pieces of a text are read back where they stand, with whatever follows them: every
character of a string is undone by one step of the reader, a whole number ends where no digit,
point or exponent follows, and a value is followed by a comma, a closing bracket or nothing.
The bound on the depth of reading is the length of the text, of which every value and every
separator uses up some.
-/

namespace Manuscript

namespace Json

theorem hexadecimalDigit_digitChar :
    ∀ digit < 16, hexadecimalDigit? digit.digitChar = some digit := by decide

/-- The four hexadecimal digits of a UTF-16 unit are read back as the unit. -/
theorem unit_hexadecimal (unit : Nat) (bounded : unit < 0x10000) :
    ∃ a b c d, Text.hexadecimal 4 unit = [a, b, c, d] ∧ unit? a b c d = some unit := by
  have single : unit / 16 / 16 / 16 < 16 := by omega
  refine ⟨_, _, _, _, Text.hexadecimal_unit bounded, ?_⟩
  simp only [unit?, hexadecimalDigit_digitChar _ single,
    hexadecimalDigit_digitChar _ (Nat.mod_lt _ (by decide : 0 < 16)), Option.bind_eq_bind,
    Option.bind_some, Option.pure_def, Option.some.injEq]
  omega

section Strings

variable {beginning rest text after : Text}

/-- A short escape is read as the character that it stands for. -/
theorem readString_short {mark meant : Char} (escape : shortEscape? mark = some meant)
    (behind : readString beginning rest = .ok (text, after)) :
    readString beginning ('\\' :: mark :: rest) = .ok (meant :: text, after) := by
  have other : mark ≠ 'u' := by
    rintro rfl
    cases escape
  rw [readString.eq_6 beginning mark rest (fun _ _ _ _ _ _ same _ => other same) other]
  simp only [escape, behind]
  rfl

/-- A character without an escape is read as itself. -/
theorem readString_plain {c : Char} (noQuote : c ≠ '"') (noEscape : c ≠ '\\')
    (visible : 32 ≤ c.toNat) (behind : readString beginning rest = .ok (text, after)) :
    readString beginning (c :: rest) = .ok (c :: text, after) := by
  rw [readString.eq_7 beginning c rest noQuote (fun _ _ _ _ _ _ same _ => noEscape same)
    (fun _ same _ => noEscape same) (fun same _ => noEscape same) (fun _ _ same _ => noEscape same),
    if_neg (by omega), behind]
  rfl

/-- The escape of a unit that is no high surrogate is read as the character of the unit. -/
theorem readString_unit {unit : Nat} (bounded : unit < 0x10000)
    (single : ¬(0xD800 ≤ unit ∧ unit < 0xDC00))
    (behind : readString beginning rest = .ok (text, after)) :
    readString beginning (unitEscape unit ++ rest) = .ok (charOfUnit unit :: text, after) := by
  obtain ⟨a, b, c, d, digits, value⟩ := unit_hexadecimal unit bounded
  cases rest with
  | nil => cases behind
  | cons next rest =>
    simp only [unitEscape, digits, List.cons_append, List.nil_append]
    rw [readString.eq_3, value]
    simp only [if_neg single, behind]
    rfl

/-- The escapes of a high and a low surrogate are read as one character. -/
theorem readString_pair (high low : Nat) (first : 0xD800 ≤ high ∧ high < 0xDC00)
    (second : 0xDC00 ≤ low ∧ low < 0xE000)
    (behind : readString beginning rest = .ok (text, after)) :
    readString beginning (unitEscape high ++ (unitEscape low ++ rest)) =
      .ok (Char.ofNat (0x10000 + (high - 0xD800) * 0x400 + (low - 0xDC00)) :: text, after) := by
  obtain ⟨a, b, c, d, digits, value⟩ := unit_hexadecimal high (by omega)
  obtain ⟨e, f, g, h, lowDigits, lowValue⟩ := unit_hexadecimal low (by omega)
  cases rest with
  | nil => cases behind
  | cons next rest =>
    simp only [unitEscape, digits, lowDigits, List.cons_append, List.nil_append]
    rw [readString.eq_3, value]
    simp only [if_pos first, List.isEmpty_cons, Bool.false_eq_true, if_false, lowValue,
      if_pos second, behind]
    rfl

/-- Whatever way a character is written, it is read back. -/
theorem readString_printChar (c : Char)
    (behind : readString beginning rest = .ok (text, after)) :
    readString beginning (printChar c ++ rest) = .ok (c :: text, after) := by
  have scalar : c.toNat < 0xD800 ∨ 0xDFFF < c.toNat ∧ c.toNat < 0x110000 := c.valid
  unfold printChar
  split_ifs with quote backslash feed carriage tab backspace formFeed visible small
  · subst quote
    exact readString_short rfl behind
  · subst backslash
    exact readString_short rfl behind
  · subst feed
    exact readString_short rfl behind
  · subst carriage
    exact readString_short rfl behind
  · subst tab
    exact readString_short rfl behind
  · subst backspace
    exact readString_short rfl behind
  · subst formFeed
    exact readString_short rfl behind
  · exact readString_plain quote backslash visible.1 behind
  · have same : charOfUnit c.toNat = c := by
      rw [charOfUnit, if_neg (by omega), Char.ofNat_toNat]
    have found := readString_unit small (by omega) behind
    rwa [same] at found
  · have same : 0x10000 + (0xD800 + (c.toNat - 0x10000) / 0x400 - 0xD800) * 0x400 +
        (0xDC00 + (c.toNat - 0x10000) % 0x400 - 0xDC00) = c.toNat := by omega
    have found := readString_pair (0xD800 + (c.toNat - 0x10000) / 0x400)
      (0xDC00 + (c.toNat - 0x10000) % 0x400) (by omega) (by omega) behind
    rw [same, Char.ofNat_toNat] at found
    rw [List.append_assoc]
    exact found

/-- The text of a string is read back behind its opening quote. -/
theorem readString_print (beginning text rest : Text) :
    readString beginning (text.flatMap printChar ++ '"' :: rest) = .ok (text, rest) := by
  induction text with
  | nil => exact readString.eq_2 beginning rest
  | cons c others inductionHypothesis =>
    rw [List.flatMap_cons, List.append_assoc]
    exact readString_printChar c inductionHypothesis

end Strings

section Numbers

/-- What may follow a value in a written text: nothing, a comma or a closing bracket. -/
def Follows (rest : Text) : Prop := ∀ c ∈ rest.head?, c = ',' ∨ c = ']' ∨ c = '}'

theorem wholeDigits_numeral (n : Nat) {rest : Text}
    (ends : ∀ c ∈ rest.head?, Text.isDigit c = false) :
    wholeDigits (Text.numeral n ++ rest) = (Text.numeral n, rest) := by
  have taken : (Text.numeral n ++ rest).takeWhile Text.isDigit = Text.numeral n := by
    rw [List.takeWhile_append_of_pos fun _ => Text.isDigit_numeral]
    cases rest with
    | nil => simp
    | cons c others => simp [ends c rfl]
  have left : (Text.numeral n ++ rest).dropWhile Text.isDigit = rest := by
    rw [List.dropWhile_append_of_pos fun _ => Text.isDigit_numeral]
    cases rest with
    | nil => simp
    | cons c others => simp [ends c rfl]
  unfold wholeDigits
  split
  · next behind begins =>
    obtain ⟨first, others, digits, -⟩ := Text.numeral_begins n
    rw [digits, List.cons_append, List.cons.injEq] at begins
    obtain ⟨rfl, same⟩ := begins
    obtain rfl := Text.numeral_head digits
    cases digits
    rw [← same]
    rfl
  · rw [taken, left]

/-- Nothing that follows a value continues a whole number. -/
theorem follows_number {rest : Text} (follows : Follows rest) :
    (∀ c ∈ rest.head?, Text.isDigit c = false) ∧ fractionDigits rest = ([], rest) ∧
      exponent? rest = none := by
  cases rest with
  | nil => exact ⟨nofun, rfl, rfl⟩
  | cons c others =>
    rcases follows c rfl with rfl | rfl | rfl
    · exact ⟨by simp; decide, rfl, rfl⟩
    · exact ⟨by simp; decide, rfl, rfl⟩
    · exact ⟨by simp; decide, rfl, rfl⟩

/-- A whole number of no more digits than are read is read back. -/
theorem readNumber_signedNumeral {value : Int} {rest : Text} (follows : Follows rest)
    (short : (Text.numeral value.natAbs).length ≤ digitLimit) :
    readNumber (Text.signedNumeral value ++ rest) = .ok (.integer value, rest) := by
  obtain ⟨noDigit, noFraction, noExponent⟩ := follows_number follows
  cases value with
  | ofNat n =>
    have whole := wholeDigits_numeral n noDigit
    have number := Text.valueOfDigits_numeral n
    obtain ⟨first, others, digits, digit⟩ := Text.numeral_begins n
    have noSign : first ≠ '-' := (Text.digit_ne rfl digit).symm
    simp only [Int.natAbs_ofNat', digits] at short number whole
    rw [Text.signedNumeral, digits]
    simp only [List.cons_append] at whole ⊢
    simpa [readNumber, whole, noFraction, noExponent, number, noSign] using short
  | negSucc n =>
    have whole := wholeDigits_numeral (n + 1) noDigit
    have number := Text.valueOfDigits_numeral (n + 1)
    obtain ⟨first, others, digits, -⟩ := Text.numeral_begins (n + 1)
    simp only [Int.natAbs_negSucc, Nat.succ_eq_add_one, digits] at short number whole
    rw [Text.signedNumeral, digits]
    simp only [List.cons_append] at whole ⊢
    simp only [readNumber, whole, noFraction, noExponent, Nat.not_lt.mpr short, number]
    rfl

end Numbers

section Values

theorem digit_begins {c : Char} (digit : Text.isDigit c = true) :
    isSpace c = false ∧ c ≠ ']' ∧ c ≠ '\uFEFF' := by
  refine ⟨?_, ?_, ?_⟩
  · rw [Bool.eq_false_iff]
    intro space
    simp only [isSpace, Bool.or_eq_true, beq_iff_eq] at space
    rcases space with ((rfl | rfl) | rfl) | rfl <;> cases digit
  · exact (Text.digit_ne rfl digit).symm
  · exact (Text.digit_ne rfl digit).symm

/-- The text of a value begins with a character that is no white space, no closing bracket and
no byte order mark. -/
theorem print_begins {value : Json} (noDouble : NoDouble value) :
    ∃ first others, print value = first :: others ∧
      isSpace first = false ∧ first ≠ ']' ∧ first ≠ '\uFEFF' := by
  cases value with
  | null => exact ⟨'n', _, rfl, by decide⟩
  | boolean value =>
    cases value with
    | true => exact ⟨'t', _, rfl, by decide⟩
    | false => exact ⟨'f', _, rfl, by decide⟩
  | integer value =>
    obtain ⟨first, others, begins, rfl | digit⟩ := Text.signedNumeral_begins value
    · exact ⟨'-', others, begins, by decide⟩
    · exact ⟨first, others, begins, digit_begins digit⟩
  | real value => cases noDouble
  | string text => exact ⟨'"', _, rfl, by decide⟩
  | array items => exact ⟨'[', _, rfl, by decide⟩
  | object fields => exact ⟨'{', _, rfl, by decide⟩

/-- Of a separator and the text of a value behind it only the space is skipped. -/
theorem skip_print {value : Json} (noDouble : NoDouble value) (rest : Text) :
    skip (' ' :: (print value ++ rest)) = print value ++ rest := by
  obtain ⟨first, others, begins, noSpace, -⟩ := print_begins noDouble
  change skip (print value ++ rest) = _
  rw [begins, List.cons_append, skip, List.dropWhile_cons_of_neg (by simp [noSpace])]

theorem printItems_begins (item : Json) (others : List Json) :
    ∃ tail, printItems (item :: others) = print item ++ tail := by
  cases others with
  | nil => exact ⟨[], (List.append_nil _).symm⟩
  | cons next more => exact ⟨_, rfl⟩

theorem skip_printItems {item : Json} (noDouble : NoDouble item) (others : List Json)
    (rest : Text) :
    skip (' ' :: (printItems (item :: others) ++ rest)) = printItems (item :: others) ++ rest := by
  obtain ⟨tail, begins⟩ := printItems_begins item others
  rw [begins, List.append_assoc, skip_print noDouble]

theorem printFields_begins (field : Text × Json) (others : List (Text × Json)) :
    ∃ tail, printFields (field :: others) = '"' :: tail := by
  cases others with
  | nil => exact ⟨_, rfl⟩
  | cons next more => exact ⟨_, rfl⟩

theorem skip_printFields (field : Text × Json) (others : List (Text × Json)) (rest : Text) :
    skip (' ' :: (printFields (field :: others) ++ rest)) =
      printFields (field :: others) ++ rest := by
  obtain ⟨tail, begins⟩ := printFields_begins field others
  rw [begins]
  rfl

/-- The text of a value is read back as the value, wherever it stands. -/
def ReadsBack (value : Json) : Prop :=
  ∀ bound rest, (print value).length < bound → Follows rest →
    readValue bound (print value ++ rest) = .ok (value, rest)

/-- Items that are read back each are read back as a list, up to the closing bracket. -/
theorem readItems_print (items : List Json) (nonempty : items ≠ [])
    (noDouble : ∀ item ∈ items, NoDouble item) (each : ∀ item ∈ items, ReadsBack item)
    (bound : Nat) (rest : Text) (enough : (printItems items).length + 1 < bound) :
    readItems bound (printItems items ++ ']' :: rest) = .ok (items, rest) := by
  induction items generalizing bound with
  | nil => exact absurd rfl nonempty
  | cons item others inductionHypothesis =>
    obtain ⟨depth, rfl⟩ : ∃ depth, bound = depth + 1 := ⟨bound - 1, by omega⟩
    have first := each item List.mem_cons_self depth
    cases others with
    | nil =>
      rw [printItems] at enough ⊢
      rw [readItems, first _ (by omega) (by simp [Follows])]
      rfl
    | cons next more =>
      simp only [printItems, List.length_append, List.length_cons] at enough
      have behind := inductionHypothesis (List.cons_ne_nil _ _)
        (fun other member => noDouble other (List.mem_cons_of_mem item member))
        (fun other member => each other (List.mem_cons_of_mem item member)) depth (by omega)
      rw [printItems, List.append_assoc, readItems, first _ (by omega) (by simp [Follows])]
      -- The reader has taken the comma and skips the space in front of the next item.
      change (readItems depth (skip (' ' :: (printItems (next :: more) ++ ']' :: rest))) >>= _) = _
      rw [skip_printItems (noDouble next (by simp)), behind]
      rfl

/-- Fields whose values are read back are read back as a list, up to the closing brace. -/
theorem readFields_print (fields : List (Text × Json)) (nonempty : fields ≠ [])
    (noDouble : ∀ field ∈ fields, NoDouble field.2) (each : ∀ field ∈ fields, ReadsBack field.2)
    (bound : Nat) (rest : Text) (enough : (printFields fields).length + 1 < bound) :
    readFields bound (printFields fields ++ '}' :: rest) = .ok (fields, rest) := by
  induction fields generalizing bound with
  | nil => exact absurd rfl nonempty
  | cons field others inductionHypothesis =>
    obtain ⟨depth, rfl⟩ : ∃ depth, bound = depth + 1 := ⟨bound - 1, by omega⟩
    obtain ⟨name, value⟩ := field
    have first (after : Text) (fits : (print value).length < depth) (follows : Follows after) :
        readValue depth (skip (' ' :: (print value ++ after))) = .ok (value, after) := by
      rw [skip_print (noDouble _ List.mem_cons_self)]
      exact each _ List.mem_cons_self depth after fits follows
    cases others with
    | nil =>
      simp only [printFields, printString, List.length_append, List.length_cons] at enough
      simp only [printFields, printString, List.cons_append, List.append_assoc, List.nil_append]
      rw [readFields, readString_print]
      change (readValue depth (skip (' ' :: (print value ++ '}' :: rest))) >>= _) = _
      rw [first _ (by omega) (by simp [Follows])]
      rfl
    | cons next more =>
      simp only [printFields, printString, List.length_append, List.length_cons] at enough
      have behind := inductionHypothesis (List.cons_ne_nil _ _)
        (fun other member => noDouble other (List.mem_cons_of_mem _ member))
        (fun other member => each other (List.mem_cons_of_mem _ member)) depth (by omega)
      simp only [printFields, printString, List.cons_append, List.append_assoc, List.nil_append]
      rw [readFields, readString_print]
      -- Behind the name stands its value, and behind that a separator and the other fields.
      change (readValue depth (skip (' ' :: (print value ++
        ',' :: ' ' :: (printFields (next :: more) ++ '}' :: rest)))) >>= _) = _
      rw [first _ (by omega) (by simp [Follows])]
      change (readFields depth (skip (' ' :: (printFields (next :: more) ++ '}' :: rest)))
        >>= _) = _
      rw [skip_printFields, behind]
      rfl

/-- A value that begins with no quote and no opening bracket is a name or a number. -/
theorem readValue_plain {depth : Nat} {first : Char} {others : Text} (noQuote : first ≠ '"')
    (noBrace : first ≠ '{') (noBracket : first ≠ '[') :
    readValue (depth + 1) (first :: others) = readPlain (first :: others) := by
  rw [readValue]
  · rintro rest ⟨⟩
    exact noQuote rfl
  · rintro rest ⟨⟩
    exact noBrace rfl
  · rintro rest ⟨⟩
    exact noBracket rfl

/-- A whole number is not mistaken for one of the names. -/
theorem readPlain_signedNumeral {value : Int} {rest : Text} (follows : Follows rest)
    (short : (Text.numeral value.natAbs).length ≤ digitLimit) :
    readPlain (Text.signedNumeral value ++ rest) = .ok (.integer value, rest) := by
  have unnamed : names.find? (fun entry => entry.1.isPrefixOf (Text.signedNumeral value ++ rest)) =
      none := by
    cases value with
    | ofNat n =>
      obtain ⟨first, others, digits, digit⟩ := Text.numeral_begins n
      have apart (letter : Char) (other : Text.isDigit letter = false) : letter ≠ first :=
        Text.digit_ne other digit
      simp [names, Text.signedNumeral, digits, apart 'n' rfl, apart 't' rfl, apart 'f' rfl,
        apart 'N' rfl, apart 'I' rfl, apart '-' rfl]
    | negSucc n =>
      obtain ⟨first, others, digits, digit⟩ := Text.numeral_begins (n + 1)
      have apart : 'I' ≠ first := Text.digit_ne rfl digit
      simp [names, Text.signedNumeral, digits, apart]
  rw [readPlain, unnamed]
  exact readNumber_signedNumeral follows short

/-- No value is read with the bound zero, and none has a text that is so short. -/
theorem readsBack_of_succ {value : Json}
    (read : ∀ depth rest, (print value).length ≤ depth → Follows rest →
      readValue (depth + 1) (print value ++ rest) = .ok (value, rest)) : ReadsBack value := by
  intro bound rest enough follows
  obtain ⟨depth, rfl⟩ : ∃ depth, bound = depth + 1 := ⟨bound - 1, by omega⟩
  exact read depth rest (Nat.le_of_lt_succ enough) follows

theorem readsBack_integer {value : Int}
    (short : (Text.numeral value.natAbs).length ≤ digitLimit) : ReadsBack (.integer value) := by
  apply readsBack_of_succ
  intro depth rest _ follows
  have read := readPlain_signedNumeral follows short
  obtain ⟨first, others, begins, kind⟩ := Text.signedNumeral_begins value
  have other (c : Char) (noSign : '-' ≠ c) (noDigit : Text.isDigit c = false) : first ≠ c := by
    rcases kind with rfl | digit
    · exact noSign
    · exact (Text.digit_ne noDigit digit).symm
  rw [begins] at read
  rw [print, begins, List.cons_append, readValue_plain (other '"' (by decide) rfl)
    (other '{' (by decide) rfl) (other '[' (by decide) rfl)]
  exact read

theorem readsBack_string (text : Text) : ReadsBack (.string text) := by
  apply readsBack_of_succ
  intro depth rest _ _
  simp only [print, printString, List.cons_append, List.append_assoc, List.nil_append]
  rw [readValue, readString_print]
  rfl

/-- An array is read back if its items are. Its text does not look like that of an empty one,
since no value begins with the closing bracket. -/
theorem readsBack_array {items : List Json} (noDouble : ∀ item ∈ items, NoDouble item)
    (each : ∀ item ∈ items, ReadsBack item) : ReadsBack (.array items) := by
  apply readsBack_of_succ
  intro depth rest enough _
  simp only [print, List.length_cons, List.length_append, List.length_nil] at enough
  simp only [print, List.cons_append, List.append_assoc, List.nil_append]
  cases items with
  | nil => rfl
  | cons item others =>
    have read := readItems_print (item :: others) (List.cons_ne_nil _ _) noDouble each depth rest
      (by omega)
    obtain ⟨tail, items⟩ := printItems_begins item others
    obtain ⟨first, more, begins, noSpace, noEnd, -⟩ :=
      print_begins (noDouble item List.mem_cons_self)
    rw [items, begins] at read ⊢
    simp only [List.cons_append] at read ⊢
    rw [readValue]
    simp only [skip, List.dropWhile_cons, noSpace, Bool.false_eq_true, if_false]
    split
    · next found =>
      cases found
      exact absurd rfl noEnd
    · rw [read]
      rfl

/-- An object is read back if its values are and its names differ. -/
theorem readsBack_object {fields : List (Text × Json)}
    (distinct : (fields.map Prod.fst).Nodup) (noDouble : ∀ field ∈ fields, NoDouble field.2)
    (each : ∀ field ∈ fields, ReadsBack field.2) : ReadsBack (.object fields) := by
  apply readsBack_of_succ
  intro depth rest enough _
  simp only [print, List.length_cons, List.length_append, List.length_nil] at enough
  simp only [print, List.cons_append, List.append_assoc, List.nil_append]
  cases fields with
  | nil => rfl
  | cons field others =>
    have read := readFields_print (field :: others) (List.cons_ne_nil _ _) noDouble each depth rest
      (by omega)
    obtain ⟨tail, begins⟩ := printFields_begins field others
    rw [begins] at read ⊢
    simp only [List.cons_append] at read ⊢
    change (readFields depth _ >>= _) = _
    rw [read]
    change Except.ok (Json.object (Entries.ofPairs (field :: others)), rest) = _
    rw [Entries.ofPairs_distinct _ distinct]

/-- Every value without doubles whose names and numbers come through is read back. -/
theorem readsBack_print (value : Json) (regular : Everywhere Regular value)
    (noDouble : Everywhere NoDouble value) : ReadsBack value := by
  induction value using Document.value_induction with
  | null =>
    apply readsBack_of_succ
    intro depth rest _ _
    exact readValue_plain (by decide) (by decide) (by decide)
  | boolean value =>
    apply readsBack_of_succ
    intro depth rest _ _
    cases value with
    | true => exact readValue_plain (by decide) (by decide) (by decide)
    | false => exact readValue_plain (by decide) (by decide) (by decide)
  | integer value => exact readsBack_integer regular.here
  | real value => exact absurd noDouble.here id
  | string text => exact readsBack_string text
  | array items inductionHypothesis =>
    rw [everywhere_array_iff] at regular noDouble
    apply readsBack_array
    · intro item member
      exact (noDouble.2 item member).here
    · intro item member
      exact inductionHypothesis item member (regular.2 item member) (noDouble.2 item member)
  | object fields inductionHypothesis =>
    rw [everywhere_object_iff] at regular noDouble
    apply readsBack_object regular.1
    · intro field member
      exact (noDouble.2 field member).here
    · intro field member
      exact inductionHypothesis field member (regular.2 field member) (noDouble.2 field member)

/-- A whole text that is written for a value is read as the value. -/
theorem parse_print {value : Json} (regular : Everywhere Regular value)
    (noDouble : Everywhere NoDouble value) : parse (print value) = .ok value := by
  have read := readsBack_print value regular noDouble ((print value).length + 1) [] (by omega) nofun
  obtain ⟨first, others, begins, noSpace, -, noMark⟩ := print_begins noDouble.here
  have skipped : skip (first :: others) = first :: others :=
    List.dropWhile_cons_of_neg (by simp [noSpace])
  rw [List.append_nil] at read
  rw [begins] at read ⊢
  unfold parse
  split
  · next same =>
    cases same
    exact absurd rfl noMark
  · rw [skipped, read]
    rfl

end Values

end Json

end Manuscript
