import Manuscript.Files.Path
import Manuscript.Json.Shown
import Manuscript.Number
import Manuscript.Text.Blank

/-!
# Validated values

Rows of macro tables and settings arrive as JSON values and are checked field by field.
A check collects everything that is wrong, each issue with the place where it is; the
places of a part are put behind the place of the whole.
-/

namespace Manuscript

/-- Something wrong with a value, and the names and numbers that lead to it. -/
structure Issue where
  place : List Text
  message : String
deriving DecidableEq, Repr

namespace Issue

/-- An issue as messages show it. -/
def describe (issue : Issue) : String :=
  String.intercalate "." (issue.place.map String.ofList) ++ ": " ++ issue.message

/-- All issues of a value. -/
def describeAll (issues : List Issue) : String :=
  String.intercalate "; " (issues.map describe)

/-- An issue of a part, seen from the whole. -/
def within (name : Text) (issue : Issue) : Issue := { issue with place := name :: issue.place }

end Issue

/-- The result of a check: a value, or the issues that were found. -/
abbrev Checked (α : Type) := Except (List Issue) α

namespace Checked

/-- A check that finds one issue with the value itself. -/
def refuse {α : Type} (message : String) : Checked α := .error [⟨[], message⟩]

/-- What a check has found wrong. -/
def issues {α : Type} : Checked α → List Issue
  | .ok _ => []
  | .error found => found

/-- The check of a part, seen from the whole. -/
def within {α : Type} (name : Text) (check : Checked α) : Checked α :=
  check.mapError fun issues => issues.map (Issue.within name)

/-- Two checks of which both are made: the issues of the first come first. -/
def both {α β : Type} (first : Checked α) (second : Checked β) : Checked (α × β) :=
  match first, second with
  | .ok a, .ok b => .ok (a, b)
  | .error issues, .ok _ => .error issues
  | .ok _, .error issues => .error issues
  | .error issues, .error more => .error (issues ++ more)

/-- Check all items of a list; each issue is placed at the number of its item. -/
def each {α β : Type} (check : α → Checked β) : Nat → List α → Checked (List β)
  | _, [] => .ok []
  | number, item :: rest =>
    (both (within (Text.numeral number) (check item)) (each check (number + 1) rest)).map
      fun (first, others) => first :: others

end Checked

namespace Check

/-- A text. -/
def text : Json → Checked Text
  | .string value => .ok value
  | _ => .refuse "Input should be a valid string"

/-- A text with at least one character. -/
def nonemptyText (value : Json) : Checked Text := do
  let found ← text value
  if found.isEmpty then .refuse "String should have at least 1 character" else return found

/-- A path. -/
def path : Json → Checked Path
  | .string value => .ok (Path.ofText value)
  | _ => .refuse "Input is not a valid path for <class 'pathlib.Path'>"

/-- The fields of an object that stands for a thing of a kind. -/
def object (kind : String) : Json → Checked (List (Text × Json))
  | .object fields => .ok fields
  | _ => .refuse s!"Input should be a valid dictionary or instance of {kind}"

/-- The items of a list. -/
def list : Json → Checked (List Json)
  | .array items => .ok items
  | _ => .refuse "Input should be a valid list"

/-- A field that must be there. -/
def required {α : Type} (check : Json → Checked α) (name : Text)
    (fields : List (Text × Json)) : Checked α :=
  Checked.within name <| match Json.field? name fields with
    | some value => check value
    | none => .refuse "Field required"

/-- A field that has a value of its own if it is not there. -/
def optional {α : Type} (check : Json → Checked α) (default : α) (name : Text)
    (fields : List (Text × Json)) : Checked α :=
  match Json.field? name fields with
  | some value => Checked.within name (check value)
  | none => .ok default

/-- Drop the zeros in front of a whole number; underscores among them go too. The zero
before a point stays. `none` where the text does not begin with a digit or its zeros are
followed by something that cannot follow them. -/
def dropLeadingZeros : Text → Option Text
  | '0' :: rest => go '0' rest
  | c :: rest => if Text.isDigit c then some (c :: rest) else none
  | [] => none
where
  go : Char → Text → Option Text
    | last, [] => some [last]
    | last, c :: rest =>
      if c = '0' ∨ c = '_' then go c rest
      else if Text.isDigit c then some (c :: rest)
      else if c = '.' then some (last :: c :: rest)
      else none

/-- Drop a point that zeros follow, at least one of them and nothing else. -/
def dropZeroFraction (digits : Text) : Text :=
  let before := digits.takeWhile (· != '.')
  match digits.drop before.length with
  | '.' :: '0' :: zeros => if zeros.all (· == '0') then before else digits
  | _ => digits

/-- Whether every underscore of a number stands alone between two digits. -/
def underscoresSeparate : Text → Bool
  | ['_'] => false
  | '_' :: '_' :: _ => false
  | _ :: rest => underscoresSeparate rest
  | [] => true

/-- The most characters that a number given as text may have. -/
def integerTextLimit : Nat := 4300

/-- The whole number that a text stands for: digits with a sign, white space around them,
single underscores between them and zeros behind a point. -/
def integerOfText? (given : Text) : Option Int := do
  let trimmed := Text.trimSpace given
  let (negative, unsigned) := match trimmed with
    | '+' :: rest => (false, rest)
    | '-' :: rest => (true, rest)
    | rest => (false, rest)
  let digits := dropZeroFraction (← dropLeadingZeros unsigned)
  if digits.isEmpty || digits.head? == some '_' || !underscoresSeparate digits then none
  else
    let plain := digits.filter (· != '_')
    if plain.all Text.isDigit then
      let value : Int := Text.valueOfDigits plain
      some (if negative then -value else value)
    else none

/-- A whole number: given as one, as a truth value, as a double without a fraction or as
a text. -/
def integer : Json → Checked Int
  | .integer value => .ok value
  | .boolean value => .ok (if value then 1 else 0)
  | .real (.finite negative significand scale) =>
    match Double.toInt? (.finite negative significand scale) with
    | some value =>
      if value.natAbs < Nat.pow 2 63 then .ok value
      else .refuse "Unable to parse input string as an integer, exceeded maximum size"
    | none => .refuse "Input should be a valid integer, got a number with a fractional part"
  | .real _ => .refuse "Input should be a finite number"
  | .string given =>
    if integerTextLimit < (Text.trimSpace given).length then
      .refuse "Unable to parse input string as an integer, exceeded maximum size"
    else match integerOfText? given with
      | some value => .ok value
      | none =>
        .refuse "Input should be a valid integer, unable to parse string as an integer"
  | _ => .refuse "Input should be a valid integer"

end Check

end Manuscript
