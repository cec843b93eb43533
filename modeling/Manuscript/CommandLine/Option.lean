import Manuscript.Text.Alphanumeric
import Manuscript.Text.Quoted

/-!
# Options of a command line

Every parser knows a list of options by name. An argument is taken for an option by its
name, by a beginning of its name that no other option shares, or, for a name of one letter,
by that letter with more text behind it. Text behind an equals sign is attached to the
option. What begins with a dash and names no option is an unknown option, except negative
numbers and texts with a space, which are plain arguments.
-/

namespace Manuscript.CommandLine

/-- What an option is for. -/
inductive Flag where
  | help
  | version
  | input
  | outputDirectory
deriving DecidableEq, Repr

namespace Flag

/-- Whether the option needs a value. -/
def takesValue : Flag → Bool
  | .help | .version => false
  | .input | .outputDirectory => true

/-- How messages name the option. -/
def name : Flag → String
  | .help => "-h/--help"
  | .version => "--version"
  | .input => "--input"
  | .outputDirectory => "--output-dir"

end Flag

/-- Text attached to an option: behind an equals sign, or behind the letter of the option. -/
inductive Attached where
  | assigned (value : Text)
  | appended (value : Text)
deriving DecidableEq, Repr

/-- The text that is attached. -/
def Attached.value : Attached → Text
  | .assigned value | .appended value => value

/-- What an argument is for a parser. -/
inductive Argument where
  | plain
  | separator
  | unknown
  | option (flag : Flag) (attached : Option Attached)
deriving DecidableEq, Repr

/-- The names that a parser knows its options by. -/
abbrev Names := List (Text × Flag)

/-- Whether an argument is a number with a minus sign. A line feed may follow it. -/
def isNegativeNumber (argument : Text) : Bool :=
  match argument with
  | '-' :: rest =>
    let digits := if rest.getLast? = some '\n' then rest.dropLast else rest
    let whole := digits.takeWhile Text.isDecimalDigit
    match digits.drop whole.length with
    | [] => !whole.isEmpty
    | '.' :: fraction => !fraction.isEmpty && fraction.all Text.isDecimalDigit
    | _ => false
  | _ => false

/-- Split an argument at its first equals sign. -/
def splitAssigned (argument : Text) : Text × Option Attached :=
  let name := argument.takeWhile (· != '=')
  match argument.drop name.length with
  | _ :: value => (name, some (.assigned value))
  | [] => (name, none)

/-- The options that an argument may mean by a part of its text. -/
def candidates (names : Names) (argument : Text) : List (Text × Flag × Option Attached) :=
  match argument with
  | '-' :: '-' :: _ =>
    let (beginning, attached) := splitAssigned argument
    (names.filter fun entry => Text.startsWith beginning entry.1).map
      fun (name, flag) => (name, flag, attached)
  | _ =>
    names.filterMap fun (name, flag) =>
      if name = argument.take 2 then some (name, flag, some (.appended (argument.drop 2)))
      else if Text.startsWith argument name then some (name, flag, none)
      else none

/-- What an argument in front of the separator is for a parser; a list of names where it may
be more than one option. -/
def classifyOne (names : Names) (argument : Text) : Except (List Text) Argument :=
  if argument = "--".toList then .ok .separator
  else if argument.head? ≠ some '-' then .ok .plain
  else match names.lookup argument with
    | some flag => .ok (.option flag none)
    | none =>
      if argument.length = 1 then .ok .plain
      else
        let (beginning, attached) := splitAssigned argument
        match (if attached.isSome then names.lookup beginning else none) with
        | some flag => .ok (.option flag attached)
        | none =>
          match candidates names argument with
          | [(_, flag, attached)] => .ok (.option flag attached)
          | [] =>
            if isNegativeNumber argument || argument.contains ' ' then .ok .plain
            else .ok .unknown
          | several => .error (several.map fun candidate => candidate.1)

end Manuscript.CommandLine
