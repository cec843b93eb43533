import Mathlib.Data.List.TakeWhile
import Manuscript.Text.Blank

/-!
# Trimming

A trimmed text is what is left of a text between white space at its beginning and white space at
its end. It has none of it at its edges, and white space that is put around a text makes no
difference to the trimmed one.
-/

namespace Manuscript.Text

/-- Nothing of a text is left that is dropped as a whole. -/
theorem dropEndWhile_all {picked : Char → Bool} {text : Text}
    (all : ∀ c ∈ text, picked c = true) : dropEndWhile picked text = [] := by
  induction text with
  | nil => rfl
  | cons c rest inductionHypothesis =>
    obtain ⟨first, others⟩ := List.forall_mem_cons.mp all
    rw [dropEndWhile, inductionHypothesis others]
    simp [first]

/-- Characters that are dropped can be put behind a text. -/
theorem dropEndWhile_append {picked : Char → Bool} (front : Text) {back : Text}
    (all : ∀ c ∈ back, picked c = true) :
    dropEndWhile picked (front ++ back) = dropEndWhile picked front := by
  induction front with
  | nil => exact dropEndWhile_all all
  | cons c rest inductionHypothesis =>
    rw [List.cons_append, dropEndWhile, dropEndWhile, inductionHypothesis]

/-- A text is what is kept of it, up to a character that is not dropped, and what is dropped. -/
theorem dropEndWhile_split (picked : Char → Bool) (text : Text) :
    ∃ back, text = dropEndWhile picked text ++ back ∧ (∀ c ∈ back, picked c = true) ∧
      ∀ c ∈ (dropEndWhile picked text).getLast?, picked c = false := by
  induction text with
  | nil => exact ⟨[], rfl, by simp, by simp [dropEndWhile]⟩
  | cons c rest inductionHypothesis =>
    obtain ⟨back, split, all, last⟩ := inductionHypothesis
    rw [dropEndWhile]
    cases kept : dropEndWhile picked rest with
    | nil =>
      rw [kept, List.nil_append] at split
      subst split
      by_cases dropped : picked c = true
      · exact ⟨c :: rest, by simp [dropped], List.forall_mem_cons.mpr ⟨dropped, all⟩,
          by simp [dropped]⟩
      · exact ⟨rest, by simp [dropped], all, by simp [dropped]⟩
    | cons d more =>
      rw [kept] at split last
      exact ⟨back, by simp [← split], all, by simpa using last⟩

/-- White space in front of a text makes no difference to the trimmed text. -/
theorem trim_lead {lead : Text} (blank : ∀ c ∈ lead, isBlank c = true) (text : Text) :
    trim (lead ++ text) = trim text := by
  rw [trim, List.dropWhile_append_of_pos blank, trim]

/-- White space behind a text makes no difference to the trimmed text. -/
theorem trim_trail (text : Text) {trail : Text} (blank : ∀ c ∈ trail, isBlank c = true) :
    trim (text ++ trail) = trim text := by
  rw [trim, trim, trimEnd, trimEnd, List.dropWhile_append]
  split
  case isTrue none =>
    have nothing : trail.dropWhile isBlank = [] := List.dropWhile_eq_nil_iff.mpr blank
    rw [nothing, List.isEmpty_iff.mp none]
  case isFalse => exact dropEndWhile_append _ blank

/-- A text is its trimmed text between white space. -/
theorem trim_split (text : Text) :
    ∃ lead trail, text = lead ++ (trim text ++ trail) ∧ (∀ c ∈ lead, isBlank c = true) ∧
      ∀ c ∈ trail, isBlank c = true := by
  obtain ⟨trail, split, blank, -⟩ := dropEndWhile_split isBlank (text.dropWhile isBlank)
  refine ⟨text.takeWhile isBlank, trail, ?_, fun c member => List.mem_takeWhile_imp member, blank⟩
  rw [trim, trimEnd, ← split, List.takeWhile_append_dropWhile]

/-- A text without white space at its edges. -/
structure Trimmed (text : Text) : Prop where
  head : ∀ c ∈ text.head?, isBlank c = false
  last : ∀ c ∈ text.getLast?, isBlank c = false

theorem trim_trimmed (text : Text) : Trimmed (trim text) := by
  obtain ⟨trail, split, -, last⟩ := dropEndWhile_split isBlank (text.dropWhile isBlank)
  refine ⟨fun c first => ?_, last⟩
  have kept : (dropEndWhile isBlank (text.dropWhile isBlank)).head? = some c := first
  have begins : (text.dropWhile isBlank).head? = some c := by
    rw [split, List.head?_append, kept]
    rfl
  have outside := List.head?_dropWhile_not isBlank text
  rwa [begins] at outside

/-- A text without white space at its edges is left alone. -/
theorem Trimmed.trim_eq {text : Text} (trimmed : Trimmed text) : trim text = text := by
  have front : text.dropWhile isBlank = text := by
    cases text with
    | nil => rfl
    | cons c rest => rw [List.dropWhile_cons, trimmed.head c rfl]; rfl
  obtain ⟨back, split, blank, -⟩ := dropEndWhile_split isBlank text
  rw [trim, front, trimEnd]
  cases shape : back.getLast? with
  | none =>
    rw [List.getLast?_eq_none_iff.mp shape, List.append_nil] at split
    exact split.symm
  | some c =>
    have last : text.getLast? = some c := by
      rw [split, List.getLast?_append, shape]
      rfl
    have outside := trimmed.last c last
    rw [blank c (List.mem_of_getLast? shape)] at outside
    cases outside

/-- Trimming drops white space only. -/
theorem filter_trim (text : Text) :
    (trim text).filter (fun c => !isBlank c) = text.filter fun c => !isBlank c := by
  obtain ⟨lead, trail, split, blankLead, blankTrail⟩ := trim_split text
  have none : ∀ {space : Text}, (∀ c ∈ space, isBlank c = true) →
      space.filter (fun c => !isBlank c) = [] := by
    intro space blank
    rw [List.filter_eq_nil_iff]
    intro c member
    simp [blank c member]
  calc (trim text).filter (fun c => !isBlank c)
      = (lead ++ (trim text ++ trail)).filter (fun c => !isBlank c) := by
        rw [List.filter_append, List.filter_append, none blankLead, none blankTrail,
          List.nil_append, List.append_nil]
    _ = text.filter fun c => !isBlank c := by rw [← split]

end Manuscript.Text
