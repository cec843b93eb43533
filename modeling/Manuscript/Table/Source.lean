import Manuscript.Validation

/-!
# Sources of macro tables

A source is the path of a table and, if its rules are to be wrapped, the name of the
command that they are wrapped in. Such a name consists of ASCII letters, of one at least,
and every source carries the proof that its command has such a name. So there is no source
with an empty command, which would leave open whether its rules are wrapped.
-/

namespace Manuscript

namespace Source

/-- Whether a text is the name of a command. -/
def isCommandName (name : Text) : Bool := !name.isEmpty && name.all Char.isAlpha

/-- A source without a command has nothing to show. -/
theorem named_none : ∀ command ∈ (none : Option Text), isCommandName command = true := nofun

/-- The command of a source may be any that has a proper name. -/
theorem named_some {name : Text} (proper : isCommandName name = true) :
    ∀ command ∈ some name, isCommandName command = true :=
  fun _ same => Option.some.inj same ▸ proper

end Source

/-- A macro table, and the command that its rules are wrapped in. -/
structure Source where
  path : Path
  wrap : Option Text
  named : ∀ command ∈ wrap, Source.isCommandName command = true
deriving DecidableEq, Repr

namespace Source

/-- The name of a wrapping command, or null. -/
def checkWrap :
    Json → Checked { wrap : Option Text // ∀ command ∈ wrap, isCommandName command = true }
  | .null => .ok ⟨none, named_none⟩
  | value => do
    let name ← Check.text value
    if proper : isCommandName name = true then
      return ⟨some name, named_some proper⟩
    else
      .refuse s!"Value error, Wrap command must be a LaTeX command name, got {String.ofList (Text.quoted name)}"

/-- Check the fields of a source. -/
def ofFields (fields : List (Text × Json)) : Checked Source := do
  let (path, wrap) ← Checked.both
    (Check.required Check.path "path".toList fields)
    (Check.optional checkWrap ⟨none, named_none⟩ "wrap".toList fields)
  return ⟨path, wrap.val, wrap.property⟩

/-- Check a value that should be a source. -/
def check (value : Json) : Checked Source := do
  ofFields (← Check.object "MacroSource" value)

end Source

end Manuscript
