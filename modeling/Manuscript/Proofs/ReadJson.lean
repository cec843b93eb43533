import Manuscript.Proofs.Numerals
import Manuscript.Proofs.TreeParts
import Mathlib.Data.List.TakeWhile

/-!
# What is read from a text

Reading gives no arbitrary value. Whatever text a value is read from, a name occurs once in each
of its objects, since a name that occurs twice in the text keeps its place and takes the later
value, and a whole number has no more digits than are read. Doubles may occur.
-/

namespace Manuscript

namespace Json

/-- A value whose kind and names come through: a whole number of no more digits than are read,
an object without a name that occurs twice, and any value of another kind. -/
def Regular : Json → Prop
  | .integer value => (Text.numeral value.natAbs).length ≤ digitLimit
  | .object fields => (fields.map Prod.fst).Nodup
  | _ => True

/-- A value that is no double. -/
def NoDouble : Json → Prop
  | .real _ => False
  | _ => True

/-- The digits in front of the point are digits. -/
theorem wholeDigits_digits (text : Text) :
    ∀ c ∈ (wholeDigits text).1, Text.isDigit c = true := by
  unfold wholeDigits
  split
  · intro c member
    cases List.mem_singleton.mp member
    decide
  · intro c member
    exact List.mem_takeWhile_imp member

/-- A number that is read is regular. -/
theorem readNumber_regular {text rest : Text} {value : Json}
    (read : readNumber text = .ok (value, rest)) : Everywhere Regular value := by
  revert read
  fun_cases readNumber text with
  | case1 => nofun
  | case2 => nofun
  | case3 negative unsigned _ whole afterWhole found nonempty after _ limited number =>
    rintro ⟨⟩
    rw [everywhere_leaf_iff _ (by simp) (by simp)]
    have digits := wholeDigits_digits unsigned
    rw [found] at digits
    have places : 0 < whole.length := by
      rw [List.length_pos_iff]
      simpa using nonempty
    have short : (Text.numeral (Text.valueOfDigits whole)).length ≤ whole.length :=
      (Nat.length_toDigits_le_iff (by decide) places).mpr (Text.valueOfDigits_lt digits)
    have magnitude : (if negative = true then -number else number).natAbs =
        Text.valueOfDigits whole := by
      split <;> simp [number]
    rw [Regular, magnitude]
    omega
  | case4 =>
    rintro ⟨⟩
    exact (everywhere_leaf_iff _ (by simp) (by simp)).mpr trivial
  | case5 =>
    rintro ⟨⟩
    exact (everywhere_leaf_iff _ (by simp) (by simp)).mpr trivial

/-- A value that is a name or a number is regular. -/
theorem readPlain_regular {text rest : Text} {value : Json}
    (read : readPlain text = .ok (value, rest)) : Everywhere Regular value := by
  unfold readPlain at read
  split at read
  · next found =>
    cases read
    have listed := List.mem_of_find?_eq_some found
    have regular : ∀ entry ∈ names, Everywhere Regular entry.2 := by
      simp [names, Regular]
    exact regular _ listed
  · exact readNumber_regular read

/-- The values that are read with a bound are regular. -/
def ReadsRegular (bound : Nat) : Prop :=
  ∀ text value rest, readValue bound text = .ok (value, rest) → Everywhere Regular value

/-- The values of fields that are read with a bound are regular. -/
theorem readFields_regular (bound : Nat) (inside : ∀ depth < bound, ReadsRegular depth)
    (text rest : Text) (fields : List (Text × Json))
    (read : readFields bound text = .ok (fields, rest)) :
    ∀ field ∈ fields, Everywhere Regular field.2 := by
  -- Every field is read with a bound one smaller than the field before it, so the values of
  -- all fields are covered by the smaller bounds.
  induction bound generalizing text rest fields with
  | zero => cases read
  | succ depth inductionHypothesis =>
    rw [readFields.eq_def] at read
    simp only at read
    split at read
    · obtain ⟨⟨name, afterName⟩, -, read⟩ := bind_ok read
      simp only at read
      split at read
      · obtain ⟨⟨value, afterValue⟩, done, read⟩ := bind_ok read
        have regular := inside depth (Nat.lt_succ_self depth) _ _ _ done
        simp only at read
        split at read
        · cases read
          intro field member
          cases List.mem_singleton.mp member
          exact regular
        · obtain ⟨⟨others, after⟩, more, same⟩ := bind_ok read
          cases same
          have behind := inductionHypothesis
            (fun lower below => inside lower (Nat.lt_succ_of_lt below)) _ _ _ more
          exact List.forall_mem_cons.mpr ⟨regular, behind⟩
        · cases read
      · cases read
    · cases read

/-- The items that are read with a bound are regular. -/
theorem readItems_regular (bound : Nat) (inside : ∀ depth < bound, ReadsRegular depth)
    (text rest : Text) (items : List Json)
    (read : readItems bound text = .ok (items, rest)) :
    ∀ item ∈ items, Everywhere Regular item := by
  induction bound generalizing text rest items with
  | zero => cases read
  | succ depth inductionHypothesis =>
    rw [readItems.eq_def] at read
    obtain ⟨⟨value, afterValue⟩, done, read⟩ := bind_ok read
    have regular := inside depth (Nat.lt_succ_self depth) _ _ _ done
    simp only at read
    split at read
    · cases read
      intro item member
      cases List.mem_singleton.mp member
      exact regular
    · obtain ⟨⟨others, after⟩, more, same⟩ := bind_ok read
      cases same
      have behind := inductionHypothesis
        (fun lower below => inside lower (Nat.lt_succ_of_lt below)) _ _ _ more
      exact List.forall_mem_cons.mpr ⟨regular, behind⟩
    · cases read

/-- Whatever bound a value is read with, it is regular. -/
theorem readValue_regular (bound : Nat) : ReadsRegular bound := by
  induction bound using Nat.strongRecOn with
  | ind bound inductionHypothesis =>
    intro text value rest read
    cases bound with
    | zero => cases read
    | succ depth =>
      have inside : ∀ lower < depth, ReadsRegular lower :=
        fun lower below => inductionHypothesis lower (Nat.lt_succ_of_lt below)
      rw [readValue.eq_def] at read
      simp only at read
      split at read
      · obtain ⟨⟨characters, after⟩, -, same⟩ := bind_ok read
        cases same
        exact (everywhere_leaf_iff _ (by simp) (by simp)).mpr trivial
      · split at read
        · cases read
          exact (everywhere_object_iff []).mpr ⟨List.nodup_nil, nofun⟩
        · obtain ⟨⟨fields, after⟩, done, same⟩ := bind_ok read
          cases same
          obtain ⟨distinct, origin⟩ := Entries.ofPairs_entries fields
          refine (everywhere_object_iff _).mpr ⟨distinct, ?_⟩
          intro field member
          exact readFields_regular depth inside _ _ fields done field (origin field member)
      · split at read
        · cases read
          exact (everywhere_array_iff []).mpr ⟨trivial, nofun⟩
        · obtain ⟨⟨items, after⟩, done, same⟩ := bind_ok read
          cases same
          exact (everywhere_array_iff items).mpr
            ⟨trivial, readItems_regular depth inside _ _ items done⟩
      · exact readPlain_regular read

/-- Whatever a whole text is read as, its names are distinct and its whole numbers have no more
digits than are read. -/
theorem parse_regular {text : Text} {value : Json} (read : parse text = .ok value) :
    Everywhere Regular value := by
  unfold parse at read
  split at read
  · cases read
  · split at read
    · cases read
    · cases read
    · next done =>
      split at read
      · cases read
        exact readValue_regular _ _ _ _ done
      · cases read

end Json

end Manuscript
