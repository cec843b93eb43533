/-!
# Results of steps that may fail

Steps that may fail are run one after the other, and what fails is named where it is passed on.
A value at the end tells that every step has given one, and a failure that there was a first step
to fail. Readers, walks and operations are all taken apart with the laws below.
-/

namespace Manuscript

variable {ε ε' α β : Type}

/-- What succeeded in two steps has succeeded in both. -/
theorem bind_ok {first : Except ε α} {next : α → Except ε β} {result : β}
    (succeeded : (first >>= next) = .ok result) :
    ∃ value, first = .ok value ∧ next value = .ok result := by
  cases first with
  | error failure => cases succeeded
  | ok value => exact ⟨value, rfl, succeeded⟩

/-- A value is changed behind a step that has given one. -/
theorem map_ok_iff {change : α → β} {result : Except ε α} {value : β} :
    result.map change = .ok value ↔ ∃ found, result = .ok found ∧ change found = value := by
  cases result with
  | error failure => simp [Except.map]
  | ok found => simp [Except.map]

/-- Changing the value keeps the failure. -/
theorem map_error_iff {change : α → β} {result : Except ε α} {failure : ε} :
    result.map change = .error failure ↔ result = .error failure := by
  cases result with
  | error other => simp [Except.map]
  | ok found => simp [Except.map]

/-- A value is left alone where only the failure is renamed. -/
@[simp]
theorem mapError_ok (rename : ε → ε') (value : α) :
    (Except.ok value : Except ε α).mapError rename = .ok value := rfl

@[simp]
theorem mapError_error (rename : ε → ε') (failure : ε) :
    (Except.error failure : Except ε α).mapError rename = .error (rename failure) := rfl

/-- Renaming failures makes no value of one. -/
@[simp]
theorem mapError_ok_iff (rename : ε → ε') (result : Except ε α) (value : α) :
    result.mapError rename = .ok value ↔ result = .ok value := by
  cases result with
  | error failure =>
    constructor
    · rintro ⟨⟩
    · rintro ⟨⟩
  | ok other => rw [mapError_ok, Except.ok.injEq, Except.ok.injEq]

/-- Where failures are renamed, a failure has the name of one. -/
theorem mapError_error_iff {rename : ε → ε'} {result : Except ε α} {failure : ε'} :
    result.mapError rename = .error failure ↔
      ∃ found, result = .error found ∧ failure = rename found := by
  cases result with
  | error found => simp [eq_comm]
  | ok value => simp

/-- Of a list there is a first item that stops it, behind others that pass: it is the first item
of the list, or that one passes and the rest is stopped. -/
theorem exists_first_cons_iff {passes stops : α → Prop} {item : α} {rest : List α} :
    (∃ before failing after, item :: rest = before ++ failing :: after ∧
        (∀ earlier ∈ before, passes earlier) ∧ stops failing) ↔
      stops item ∨ passes item ∧ ∃ before failing after, rest = before ++ failing :: after ∧
        (∀ earlier ∈ before, passes earlier) ∧ stops failing := by
  constructor
  · rintro ⟨before, failing, after, split, passed, stopped⟩
    cases before with
    | nil =>
      cases split
      exact .inl stopped
    | cons first before =>
      cases split
      obtain ⟨passes, others⟩ := List.forall_mem_cons.mp passed
      exact .inr ⟨passes, before, failing, after, rfl, others, stopped⟩
  · rintro (stopped | ⟨passes, before, failing, after, rfl, others, stopped⟩)
    · exact ⟨[], item, rest, rfl, by simp, stopped⟩
    · exact ⟨item :: before, failing, after, rfl, List.forall_mem_cons.mpr ⟨passes, others⟩,
        stopped⟩

end Manuscript
