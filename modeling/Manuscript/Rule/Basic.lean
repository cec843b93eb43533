import Manuscript.Json.Shown
import Manuscript.Text.Alphanumeric

/-!
# Macro rules

A rule replaces a search text by a replacement, anywhere or only where the search text
is a whole word. A whole word begins and ends with a word character; every rule in word
mode carries the proof that its search text does, so a word rule that could never match
as a word does not exist.

A rule shows the pattern it searches for in the notation of regular expressions. The
search text stands in it literally: each character with a meaning of its own in that
notation has a backslash in front. Escaping replaces one such character after the other
in the whole text. The backslash comes first, because each later replacement inserts
backslashes that stay as they are.
-/

namespace Manuscript

namespace Pattern

/-- The characters with a meaning of their own, in the order of their replacement. -/
def metaCharacters : List Char :=
  ['\\', '|', '(', ')', '[', ']', '{', '}', '^', '$', '*', '+', '?', '.']

/-- Put a backslash before every occurrence of one character. -/
def escapeChar (text : Text) (special : Char) : Text :=
  text.flatMap fun c => if c = special then ['\\', c] else [c]

/-- The pattern that a text is matched by literally. -/
def escape (text : Text) : Text := metaCharacters.foldl escapeChar text

/-- The pattern of a whole word: a line edge or a character that is neither a line feed
nor a hyphen on both sides, and a word boundary between it and the word. -/
def wholeWord (text : Text) : Text :=
  "(^|[^\\n-])\\b".toList ++ escape text ++ "\\b([^\\n-]|$)".toList

end Pattern

/-- Where a search text may match. -/
inductive Mode where
  | word
  | anywhere
deriving DecidableEq, Repr

/-- The name of a mode in tables and answers. -/
def Mode.name : Mode → Text
  | .word => "Word".toList
  | .anywhere => "Anywhere".toList

/-- The mode that a name stands for; names are exact. -/
def Mode.ofName? (name : Text) : Option Mode :=
  if name = Mode.word.name then some .word
  else if name = Mode.anywhere.name then some .anywhere
  else none

/-- Whether a text begins and ends with a word character. -/
def isWordSearch (search : Text) : Bool :=
  search.head?.any Text.isWordChar && search.getLast?.any Text.isWordChar

/-- A rule of the macro list. -/
structure Rule where
  search : Text
  replace : Text
  mode : Mode
  wordEdges : mode = .word → isWordSearch search = true
deriving DecidableEq

/-- Why three values are no rule. -/
inductive RuleError where
  | unknownMode (given : Json)
  | notAWord (search : Text)
deriving DecidableEq

/-- The message of a refused rule. -/
def RuleError.message : RuleError → String
  | .unknownMode given => s!"{String.ofList given.shown} is not a valid MatchMode"
  | .notAWord search =>
    "Word mode needs search text that starts and ends with a letter, digit or underscore, got "
      ++ String.ofList (Text.quoted search)

namespace Rule

/-- Make a rule of its parts. -/
def make (search replace : Text) (mode : Mode) : Except RuleError Rule :=
  if edges : mode = .word → isWordSearch search = true then .ok ⟨search, replace, mode, edges⟩
  else .error (.notAWord search)

/-- The mode that a value names. -/
def modeOf (given : Json) : Except RuleError Mode :=
  match given with
  | .string name =>
    match Mode.ofName? name with
    | some mode => .ok mode
    | none => .error (.unknownMode given)
  | _ => .error (.unknownMode given)

/-- Make a rule whose mode is still a value; the mode is looked at first. -/
def ofParts (search replace : Text) (mode : Json) : Except RuleError Rule := do
  make search replace (← modeOf mode)

/-- The same rule with another replacement. -/
def withReplacement (rule : Rule) (replace : Text) : Rule := { rule with replace }

/-- The pattern that a rule searches for. -/
def pattern (rule : Rule) : Text :=
  match rule.mode with
  | .word => Pattern.wholeWord rule.search
  | .anywhere => Pattern.escape rule.search

end Rule

end Manuscript
