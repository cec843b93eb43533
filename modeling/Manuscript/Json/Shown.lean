import Manuscript.Json.Basic
import Manuscript.Text.Quoted

/-!
# Values in messages

A value that is not text may have to be shown inside one: in a message about a wrong
setting, or in a formula made of it. It is then written with quoted strings, with the
names `None`, `True` and `False`, and with `nan` and `inf` for the doubles that are no
finite number. A string that is itself placed into a text is placed there unquoted.
-/

namespace Manuscript.Json

/-- A double as messages show it. -/
def shownDouble : Double → Text
  | .notANumber => "nan".toList
  | .infinite false => "inf".toList
  | .infinite true => "-inf".toList
  | .finite negative significand scale => Double.finiteText negative significand scale

mutual

/-- A value as messages show it. -/
def shown : Json → Text
  | .null => "None".toList
  | .boolean true => "True".toList
  | .boolean false => "False".toList
  | .integer value => Text.signedNumeral value
  | .real value => shownDouble value
  | .string value => Text.quoted value
  | .array items => '[' :: shownItems items ++ [']']
  | .object fields => '{' :: shownFields fields ++ ['}']

/-- The items of an array as messages show them. -/
def shownItems : List Json → Text
  | [] => []
  | [item] => shown item
  | item :: next :: rest => shown item ++ ',' :: ' ' :: shownItems (next :: rest)

/-- The fields of an object as messages show them. -/
def shownFields : List (Text × Json) → Text
  | [] => []
  | [(name, value)] => Text.quoted name ++ ':' :: ' ' :: shown value
  | (name, value) :: next :: rest =>
    Text.quoted name ++ ':' :: ' ' :: shown value ++ ',' :: ' ' :: shownFields (next :: rest)

end

/-- A value placed into a text: a string as it is, any other value as messages show it. -/
def placed : Json → Text
  | .string value => value
  | other => shown other

end Manuscript.Json
