import Manuscript.Proofs.Results
import Manuscript.Validation

/-!
# Checks that are passed

A check gives a value only if every check that it is made of gives one. The laws below say so for
each way in which checks are put together, and for the plain checks of a value they say which
values pass. Issues are not looked at: what they are is a matter of the check itself.
-/

namespace Manuscript

/-- Two checks are passed where both are. -/
theorem Checked.both_ok_iff {α β : Type} {first : Checked α} {second : Checked β} {a : α} {b : β} :
    Checked.both first second = .ok (a, b) ↔ first = .ok a ∧ second = .ok b := by
  cases first <;> cases second <;> simp [Checked.both]

/-- Placing the issues of a check does not change whether it is passed. -/
theorem Checked.within_ok_iff {α : Type} {name : Text} {check : Checked α} {value : α} :
    Checked.within name check = .ok value ↔ check = .ok value := mapError_ok_iff _ _ _

namespace Check

/-- A field that must be there passes where it is there and its value does. -/
theorem required_ok_iff {α : Type} {check : Json → Checked α} {name : Text}
    {fields : List (Text × Json)} {value : α} :
    required check name fields = .ok value ↔
      ∃ given, Json.field? name fields = some given ∧ check given = .ok value := by
  rw [required, Checked.within_ok_iff]
  cases Json.field? name fields with
  | none => simp [Checked.refuse]
  | some given => simp

theorem text_ok_iff {given : Json} {value : Text} :
    text given = .ok value ↔ given = .string value := by
  cases given <;> simp [text, Checked.refuse]

theorem nonemptyText_ok_iff {given : Json} {value : Text} :
    nonemptyText given = .ok value ↔ given = .string value ∧ value ≠ [] := by
  constructor
  · intro passed
    obtain ⟨found, read, checked⟩ := bind_ok passed
    by_cases empty : found.isEmpty = true
    · simp [empty, Checked.refuse] at checked
    · rw [if_neg empty] at checked
      cases checked
      exact ⟨text_ok_iff.mp read, by simpa using empty⟩
  · rintro ⟨rfl, nonempty⟩
    have filled : value.isEmpty = false := List.isEmpty_eq_false_iff.mpr nonempty
    simp [nonemptyText, text, bind, Except.bind, filled, pure, Except.pure]

end Check

end Manuscript
