import Manuscript.Json.Printer
import Manuscript.Proofs.ReadJson

/-!
# The characters of written JSON

The text of a value without doubles consists of the characters from the space to the tilde,
whatever characters its strings and names hold. So it comes through every encoding that has
ASCII as a part.
-/

namespace Manuscript

namespace Json

/-- A text of characters from the space to the tilde. -/
def Ascii (text : Text) : Prop := ∀ c ∈ text, ' ' ≤ c ∧ c ≤ '~'

@[simp]
theorem ascii_nil : Ascii [] := nofun

@[simp]
theorem ascii_cons_iff (c : Char) (text : Text) :
    Ascii (c :: text) ↔ (' ' ≤ c ∧ c ≤ '~') ∧ Ascii text := List.forall_mem_cons

@[simp]
theorem ascii_append_iff (front back : Text) :
    Ascii (front ++ back) ↔ Ascii front ∧ Ascii back := List.forall_mem_append

theorem ascii_unitEscape {unit : Nat} (bounded : unit < 0x10000) : Ascii (unitEscape unit) := by
  have digit : ∀ value < 16, ' ' ≤ value.digitChar ∧ value.digitChar ≤ '~' := by decide
  have remainder (value : Nat) := digit (value % 16) (Nat.mod_lt value (by decide))
  simp only [unitEscape, Text.hexadecimal_unit bounded, ascii_cons_iff, remainder, ascii_nil,
    and_true, digit (unit / 16 / 16 / 16) (by omega)]
  decide

theorem ascii_printChar (c : Char) : Ascii (printChar c) := by
  have scalar : c.toNat < 0xD800 ∨ 0xDFFF < c.toNat ∧ c.toNat < 0x110000 := c.valid
  unfold printChar
  split_ifs with quote backslash feed carriage tab backspace formFeed visible small
  iterate 7 simp
  · simpa using visible
  · exact ascii_unitEscape small
  · rw [ascii_append_iff]
    exact ⟨ascii_unitEscape (by omega), ascii_unitEscape (by omega)⟩

theorem ascii_printString (text : Text) : Ascii (printString text) := by
  simp only [printString, List.cons_append, ascii_cons_iff, ascii_append_iff]
  refine ⟨by decide, ?_, by decide, ascii_nil⟩
  intro c member
  obtain ⟨source, -, inside⟩ := List.mem_flatMap.mp member
  exact ascii_printChar source c inside

theorem ascii_signedNumeral (value : Int) : Ascii (Text.signedNumeral value) := by
  have digits (n : Nat) : Ascii (Text.numeral n) := by
    intro c member
    have digit := Text.isDigit_numeral member
    simp only [Text.isDigit, Bool.and_eq_true, decide_eq_true_eq] at digit
    exact ⟨Char.le_trans (by decide) digit.1, Char.le_trans digit.2 (by decide)⟩
  cases value with
  | ofNat n => exact digits n
  | negSucc n => exact (ascii_cons_iff _ _).mpr ⟨by decide, digits (n + 1)⟩

theorem ascii_printItems (items : List Json) (each : ∀ item ∈ items, Ascii (print item)) :
    Ascii (printItems items) := by
  induction items with
  | nil => exact ascii_nil
  | cons item others inductionHypothesis =>
    have first := each item List.mem_cons_self
    have behind := inductionHypothesis fun other member =>
      each other (List.mem_cons_of_mem _ member)
    cases others with
    | nil => exact first
    | cons next more =>
      simp only [printItems, ascii_append_iff, ascii_cons_iff]
      exact ⟨first, by decide, by decide, behind⟩

theorem ascii_printFields (fields : List (Text × Json))
    (each : ∀ field ∈ fields, Ascii (print field.2)) : Ascii (printFields fields) := by
  induction fields with
  | nil => exact ascii_nil
  | cons field others inductionHypothesis =>
    have first := each field List.mem_cons_self
    have name := ascii_printString field.1
    have behind := inductionHypothesis fun other member =>
      each other (List.mem_cons_of_mem _ member)
    cases others with
    | nil =>
      simp only [printFields, ascii_append_iff, ascii_cons_iff]
      exact ⟨name, by decide, by decide, first⟩
    | cons next more =>
      simp only [printFields, ascii_append_iff, ascii_cons_iff]
      exact ⟨⟨name, by decide, by decide, first⟩, by decide, by decide, behind⟩

/-- The text of a value without doubles consists of ASCII characters that print. -/
theorem ascii_print (value : Json) (noDouble : Everywhere NoDouble value) :
    Ascii (print value) := by
  induction value using Document.value_induction with
  | null => simp [print]
  | boolean value => cases value <;> simp [print]
  | integer value => exact ascii_signedNumeral value
  | real value => exact absurd noDouble.here id
  | string text => exact ascii_printString text
  | array items inductionHypothesis =>
    have each := ((everywhere_array_iff items).mp noDouble).2
    have inside := ascii_printItems items fun item member =>
      inductionHypothesis item member (each item member)
    simp only [print, List.cons_append, ascii_cons_iff, ascii_append_iff]
    exact ⟨by decide, inside, by decide, ascii_nil⟩
  | object fields inductionHypothesis =>
    have each := ((everywhere_object_iff fields).mp noDouble).2
    have inside := ascii_printFields fields fun field member =>
      inductionHypothesis field member (each field member)
    simp only [print, List.cons_append, ascii_cons_iff, ascii_append_iff]
    exact ⟨by decide, inside, by decide, ascii_nil⟩

end Json

end Manuscript
