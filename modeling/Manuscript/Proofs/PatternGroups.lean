import Manuscript.Proofs.PatternNotation
import Mathlib.Tactic.Simproc.ExistsAndEq

/-!
# The groups of a pattern

The groups of a pattern keep what is matched in them. They are in the order of their opening
brackets: a group comes before the groups in it, and those of two expressions one behind the other
come one behind the other. The groups of a branch that is not taken keep nothing, which is not the
same as the empty text. A repetition keeps of every group what it has taken last.

What the groups keep is added to a match and never prevents one. Where there are no groups nothing is
added.
-/

namespace Manuscript.Pattern

/-- What the groups of an expression have taken. -/
abbrev Groups := List (Option Text)

/-- The number of groups in an expression. -/
def Expression.groupCount : Expression → Nat
  | .followed first second => first.groupCount + second.groupCount
  | .either first second => first.groupCount + second.groupCount
  | .group inner => inner.groupCount + 1
  | .repeated _ _ inner => inner.groupCount
  | _ => 0

/-- The groups of an expression that has no part in the match. -/
def Expression.untaken (expression : Expression) : Groups :=
  List.replicate expression.groupCount none

/-- A text that consists of a number of parts, each of them captured in its place. Of every group
the last part counts that it has taken something in. -/
def Rounds (part : Groups → Text → Text → Text → Prop) (untaken : Groups) :
    Nat → Groups → Text → Text → Text → Prop
  | 0, groups, _, text, _ => text = [] ∧ groups = untaken
  | count + 1, groups, before, text, behind => ∃ front back early late,
    text = front ++ back ∧ groups = List.zipWith Option.or late early ∧
    part early before front (back ++ behind) ∧
    Rounds part untaken count late (before ++ front) back behind

/-- An expression matches a text between what stands before and what stands behind it, and its
groups take parts of the text. -/
def Expression.Captures (multiline : Bool) : Expression → Groups → Text → Text → Text → Prop
  | .followed first second, groups, before, text, behind => ∃ front back early late,
    text = front ++ back ∧ groups = early ++ late ∧
    first.Captures multiline early before front (back ++ behind) ∧
    second.Captures multiline late (before ++ front) back behind
  | .either first second, groups, before, text, behind =>
    (∃ taken, groups = taken ++ second.untaken ∧
      first.Captures multiline taken before text behind) ∨
    (∃ taken, groups = first.untaken ++ taken ∧
      second.Captures multiline taken before text behind)
  | .group inner, groups, before, text, behind => ∃ taken, groups = some text :: taken ∧
    inner.Captures multiline taken before text behind
  | .repeated least most inner, groups, before, text, behind => ∃ count, least ≤ count ∧
    (∀ bound ∈ most, count ≤ bound) ∧
    Rounds (inner.Captures multiline) inner.untaken count groups before text behind
  | single, groups, before, text, behind =>
    groups = [] ∧ single.Matches multiline before text behind

/-! ## Matches -/

theorem repeats_iff_rounds (part : Groups → Text → Text → Text → Prop) (untaken : Groups)
    (count : Nat) (before text behind : Text) :
    Repeats (fun before text behind => ∃ groups, part groups before text behind) count before text
      behind ↔ ∃ groups, Rounds part untaken count groups before text behind := by
  induction count generalizing before text with
  | zero => simp [Repeats, Rounds]
  | succ count inductionHypothesis =>
    simp only [Repeats, Rounds, inductionHypothesis]
    constructor
    · rintro ⟨front, back, split, ⟨early, first⟩, late, further⟩
      exact ⟨_, front, back, early, late, split, rfl, first, further⟩
    · rintro ⟨_, front, back, early, late, split, -, first, further⟩
      exact ⟨front, back, split, ⟨early, first⟩, late, further⟩

/-- An expression matches exactly where its groups can take something. -/
theorem matches_iff_captures (multiline : Bool) (expression : Expression)
    (before text behind : Text) :
    expression.Matches multiline before text behind ↔
      ∃ groups, expression.Captures multiline groups before text behind := by
  induction expression generalizing before text behind with
  | followed first second firstHypothesis secondHypothesis =>
    simp only [Expression.Matches, Expression.Captures, firstHypothesis, secondHypothesis]
    constructor
    · rintro ⟨front, back, split, ⟨early, left⟩, late, right⟩
      exact ⟨_, front, back, early, late, split, rfl, left, right⟩
    · rintro ⟨_, front, back, early, late, split, -, left, right⟩
      exact ⟨front, back, split, ⟨early, left⟩, late, right⟩
  | either first second firstHypothesis secondHypothesis =>
    simp only [Expression.Matches, Expression.Captures, firstHypothesis, secondHypothesis]
    constructor
    · rintro (⟨taken, left⟩ | ⟨taken, right⟩)
      · exact ⟨_, .inl ⟨taken, rfl, left⟩⟩
      · exact ⟨_, .inr ⟨taken, rfl, right⟩⟩
    · rintro ⟨_, ⟨taken, -, left⟩ | ⟨taken, -, right⟩⟩
      · exact .inl ⟨taken, left⟩
      · exact .inr ⟨taken, right⟩
  | group inner inductionHypothesis =>
    simp [Expression.Matches, Expression.Captures, inductionHypothesis]
  | repeated least most inner inductionHypothesis =>
    have parts : inner.Matches multiline = fun before text behind =>
        ∃ groups, inner.Captures multiline groups before text behind := by
      funext before text behind
      exact propext (inductionHypothesis before text behind)
    simp only [Expression.Matches, Expression.Captures, parts,
      repeats_iff_rounds (inner.Captures multiline) inner.untaken]
    constructor
    · rintro ⟨count, enough, bounded, groups, rounds⟩
      exact ⟨groups, count, enough, bounded, rounds⟩
    · rintro ⟨groups, count, enough, bounded, rounds⟩
      exact ⟨count, enough, bounded, groups, rounds⟩
  | _ => simp [Expression.Captures]

/-! ## Every group has an entry -/

variable {multiline : Bool} {expression : Expression} {groups : Groups} {before text behind : Text}

theorem rounds_length {part : Groups → Text → Text → Text → Prop} {untaken : Groups} {count : Nat}
    (each : ∀ taken before text behind, part taken before text behind →
      taken.length = untaken.length)
    (rounds : Rounds part untaken count groups before text behind) :
    groups.length = untaken.length := by
  induction count generalizing groups before text with
  | zero => exact congrArg List.length rounds.2
  | succ count inductionHypothesis =>
    obtain ⟨front, back, early, late, -, rfl, first, further⟩ := rounds
    rw [List.length_zipWith, each early _ _ _ first, inductionHypothesis further, Nat.min_self]

theorem untaken_length (expression : Expression) :
    expression.untaken.length = expression.groupCount := List.length_replicate

/-- Of every group of an expression it is known what it has taken, or that it has taken nothing. -/
theorem captures_length (captured : expression.Captures multiline groups before text behind) :
    groups.length = expression.groupCount := by
  induction expression generalizing groups before text behind with
  | followed first second firstHypothesis secondHypothesis =>
    obtain ⟨front, back, early, late, -, rfl, left, right⟩ := captured
    rw [List.length_append, firstHypothesis left, secondHypothesis right, Expression.groupCount]
  | either first second firstHypothesis secondHypothesis =>
    rw [Expression.groupCount]
    rcases captured with ⟨taken, rfl, left⟩ | ⟨taken, rfl, right⟩
    · rw [List.length_append, firstHypothesis left, untaken_length]
    · rw [List.length_append, secondHypothesis right, untaken_length]
  | group inner inductionHypothesis =>
    obtain ⟨taken, rfl, within⟩ := captured
    rw [List.length_cons, inductionHypothesis within, Expression.groupCount]
  | repeated least most inner inductionHypothesis =>
    obtain ⟨count, -, -, rounds⟩ := captured
    rw [Expression.groupCount, ← untaken_length]
    apply rounds_length _ rounds
    intro taken before text behind part
    rw [inductionHypothesis part, untaken_length]
  | _ => exact congrArg List.length captured.1

/-- Where there are no groups a match is all that is captured. -/
theorem captures_groupless (groupless : expression.groupCount = 0) :
    expression.Captures multiline groups before text behind ↔
      groups = [] ∧ expression.Matches multiline before text behind := by
  have none {groups : Groups} (captured : expression.Captures multiline groups before text behind) :
      groups = [] := List.eq_nil_of_length_eq_zero ((captures_length captured).trans groupless)
  rw [matches_iff_captures]
  constructor
  · intro captured
    exact ⟨none captured, groups, captured⟩
  · rintro ⟨rfl, taken, captured⟩
    rwa [none captured] at captured

/-- A group without groups in it takes what is matched in it. -/
theorem captures_group {inner : Expression} (groupless : inner.groupCount = 0) :
    (Expression.group inner).Captures multiline groups before text behind ↔
      groups = [some text] ∧ inner.Matches multiline before text behind := by
  simp [Expression.Captures, captures_groupless groupless]

/-- Of expressions one behind the other the first ones capture the beginning of a text, and the
others the rest. -/
theorem captures_sequence_append (first second : List Expression) :
    (sequence (first ++ second)).Captures multiline groups before text behind ↔
      ∃ front back early late, text = front ++ back ∧ groups = early ++ late ∧
        (sequence first).Captures multiline early before front (back ++ behind) ∧
        (sequence second).Captures multiline late (before ++ front) back behind := by
  induction first generalizing groups before text with
  | nil => simp [sequence, Expression.Captures, Expression.Matches]
  | cons item rest inductionHypothesis =>
    simp only [List.cons_append, sequence, Expression.Captures, inductionHypothesis]
    constructor
    · rintro ⟨front, _, early, _, rfl, rfl, here, middle, back, between, late, rfl, rfl, inner,
        further⟩
      rw [List.append_assoc] at here further
      exact ⟨front ++ middle, back, early ++ between, late, by simp, by simp,
        ⟨front, middle, early, between, rfl, rfl, here, inner⟩, further⟩
    · rintro ⟨_, back, _, late, rfl, rfl, ⟨front, middle, early, between, rfl, rfl, here, inner⟩,
        further⟩
      rw [← List.append_assoc] at here further
      exact ⟨front, middle ++ back, early, between ++ late, by simp, by simp, here,
        middle, back, between, late, rfl, rfl, inner, further⟩

end Manuscript.Pattern
