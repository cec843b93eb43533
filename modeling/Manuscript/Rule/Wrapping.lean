import Manuscript.Latex
import Manuscript.Rule.Substitution

/-!
# Wrapped rules

All rules of a table can be put into one LaTeX command. Wrapping changes the replacement
only, which is LaTeX already and goes into the braces as it is. So a wrapped rule divides
a text as the rule does.
-/

namespace Manuscript.Rule

/-- The rule whose replacement is the argument of a command. -/
def wrap (command : Text) (rule : Rule) : Rule :=
  rule.withReplacement (Latex.command command [.latex rule.replace])

/-- A rule that is another one, wrapped in a command. -/
structure Wrapped (command : Text) (plain wrapped : Rule) : Prop where
  search : wrapped.search = plain.search
  mode : wrapped.mode = plain.mode
  replace : wrapped.replace = '\\' :: command ++ '{' :: plain.replace ++ ['}']

/-- Wrapping a rule puts its replacement into the braces as it is. -/
theorem wrapped_iff {command : Text} {plain wrapped : Rule} :
    Wrapped command plain wrapped ↔ plain.wrap command = wrapped := by
  have replaced :
      (plain.wrap command).replace = '\\' :: command ++ '{' :: plain.replace ++ ['}'] := by
    simp [wrap, withReplacement, Latex.command, Latex.Argument.toLatex]
  constructor
  · rintro ⟨search, mode, replace⟩
    cases wrapped
    cases search
    cases mode
    cases replace.trans replaced.symm
    rfl
  · rintro rfl
    exact ⟨rfl, rfl, replaced⟩

/-- A wrapped rule divides a text as the rule does. -/
theorem Wrapped.divide {command : Text} {plain wrapped : Rule}
    (wraps : Wrapped command plain wrapped) (text : Text) :
    wrapped.divide text = plain.divide text := by
  rw [Rule.divide, Rule.divide, wraps.search, wraps.mode]

end Manuscript.Rule
