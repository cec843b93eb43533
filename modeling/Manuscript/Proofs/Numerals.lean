import Manuscript.Number
import Manuscript.Text.Quoted
import Mathlib.Algebra.Group.Nat.Defs
import Mathlib.Data.List.Induction

/-!
# Numerals

The numeral of a number stands for it, consists of digits, and begins with a zero only where the
number is zero; so a reader that takes a zero alone reads every numeral whole. The other way
round digits stand for a number whose numeral is no longer than they are. A hexadecimal number
of four places has exactly its four digits.
-/

namespace Manuscript

namespace Text

/-- The numeral of a number stands for the number. -/
theorem valueOfDigits_numeral (n : Nat) : valueOfDigits (numeral n) = n := by
  have same : valueOfDigits (numeral n) = Nat.ofDigitChars 10 (numeral n) 0 := by
    rw [valueOfDigits, Nat.ofDigitChars_eq_foldl]
    simp only [Nat.mul_comm, Char.reduceToNat]
  rw [same, numeral, Nat.ofDigitChars_toDigits (by decide) (by decide)]

/-- A numeral consists of digits. -/
theorem isDigit_numeral {n : Nat} {c : Char} (member : c ∈ numeral n) : isDigit c = true := by
  have digit : c.isDigit = true := Nat.isDigit_of_mem_toDigits (by decide) (by decide) member
  simpa [isDigit, Char.isDigit, Char.le_def] using digit

/-- A numeral begins with a digit. -/
theorem numeral_begins (n : Nat) :
    ∃ first others, numeral n = first :: others ∧ isDigit first = true := by
  cases digits : numeral n with
  | nil => exact absurd digits Nat.toDigits_ne_nil
  | cons first others =>
    refine ⟨first, others, rfl, ?_⟩
    exact isDigit_numeral (digits ▸ List.mem_cons_self)

/-- The numeral of an integer begins with a hyphen or a digit. -/
theorem signedNumeral_begins (value : Int) :
    ∃ first others, signedNumeral value = first :: others ∧
      (first = '-' ∨ isDigit first = true) := by
  cases value with
  | ofNat n =>
    obtain ⟨first, others, digits, digit⟩ := numeral_begins n
    exact ⟨first, others, digits, .inr digit⟩
  | negSucc n => exact ⟨'-', _, rfl, .inl rfl⟩

/-- What is no digit is different from every digit. -/
theorem digit_ne {letter digit : Char} (other : isDigit letter = false)
    (holds : isDigit digit = true) : letter ≠ digit := by
  rintro rfl
  rw [other] at holds
  cases holds

/-- Only zero has a numeral that begins with a zero. -/
theorem numeral_head {n : Nat} {rest : Text} (begins : numeral n = '0' :: rest) : n = 0 := by
  induction n using Nat.strongRecOn generalizing rest with
  | ind n inductionHypothesis =>
    by_cases small : n < 10
    · rw [numeral, Nat.toDigits_of_lt_base small] at begins
      have zero : ∀ digit < 10, digit.digitChar = '0' → digit = 0 := by decide
      exact zero n small (List.cons.inj begins).1
    · rw [numeral, Nat.toDigits_of_base_le (by decide) (by omega)] at begins
      cases front : Nat.toDigits 10 (n / 10) with
      | nil => exact absurd front Nat.toDigits_ne_nil
      | cons first others =>
        rw [front] at begins
        obtain ⟨rfl, -⟩ := List.cons.inj begins
        have least := inductionHypothesis (n / 10) (by omega) front
        omega

/-- Digits stand for a number that has no more digits. -/
theorem valueOfDigits_lt {digits : Text} (each : ∀ c ∈ digits, isDigit c = true) :
    valueOfDigits digits < 10 ^ digits.length := by
  induction digits using List.reverseRecOn with
  | nil => decide
  | append_singleton digits last inductionHypothesis =>
    have front := inductionHypothesis fun c member => each c (List.mem_append_left _ member)
    have digit : last.toNat - 48 < 10 := by
      have range := each last (by simp)
      simp only [isDigit, Bool.and_eq_true, decide_eq_true_eq, Char.le_def,
        UInt32.le_iff_toNat_le] at range
      have high : last.toNat ≤ 57 := range.2
      omega
    have step : valueOfDigits (digits ++ [last]) =
        valueOfDigits digits * 10 + (last.toNat - 48) := by
      simp [valueOfDigits]
    rw [step, List.length_append, List.length_singleton, Nat.pow_succ]
    omega

/-- Each of the digits of a number in hexadecimal adds one behind those of its quotient. -/
theorem hexadecimal_succ (width n : Nat) (enough : 0 < width) :
    hexadecimal (width + 1) n = hexadecimal width (n / 16) ++ [(n % 16).digitChar] := by
  unfold hexadecimal
  by_cases small : n < 16
  · have none : n / 16 = 0 := by omega
    have all : n % 16 = n := by omega
    rw [none, all, Nat.toDigits_of_lt_base small, Nat.toDigits_of_lt_base (by decide : 0 < 16)]
    obtain ⟨others, rfl⟩ : ∃ others, width = others + 1 := ⟨width - 1, by omega⟩
    simp [List.replicate_succ']
  · rw [Nat.toDigits_of_base_le (by decide) (by omega)]
    simp [Nat.add_sub_add_right]

/-- A UTF-16 unit has four hexadecimal digits. -/
theorem hexadecimal_unit {unit : Nat} (bounded : unit < 0x10000) :
    hexadecimal 4 unit =
      [(unit / 16 / 16 / 16).digitChar, (unit / 16 / 16 % 16).digitChar,
        (unit / 16 % 16).digitChar, (unit % 16).digitChar] := by
  rw [hexadecimal_succ 3 _ (by decide), hexadecimal_succ 2 _ (by decide),
    hexadecimal_succ 1 _ (by decide)]
  have single : unit / 16 / 16 / 16 < 16 := by omega
  simp [hexadecimal, Nat.toDigits_of_lt_base single]

end Text

end Manuscript
