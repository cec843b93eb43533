import Manuscript.Rule.Basic

/-!
# Substitution

A rule divides a text into the characters that it keeps and the places where it hits.
The division depends on the search text and the mode alone; only writing the pieces out
again brings in the replacement, with a space on either side of it.

Anywhere, a hit is the leftmost occurrence that begins where the previous one ended or
later. An empty search text hits before every character and at the end.

As a whole word, a hit is an occurrence whose neighbours are line edges or characters
that are neither word characters nor hyphens. A neighbour that is no line edge is part of
the hit: it is written between the space and the replacement, and the next hit begins
behind it. So of two words with one character between them only the first is hit, and a
line feed is never part of a hit's neighbourhood.

The pattern that a rule shows is not read for this. That the hits are its matches is a
theorem, `Rule.divide_walk`.
-/

namespace Manuscript

/-- A part of a divided text: a kept character, or a hit with the neighbours that belong
to it. -/
inductive Piece where
  | kept (c : Char)
  | hit (lead trail : Text)
deriving DecidableEq, Repr

namespace Piece

/-- Write a piece out; a hit becomes the replacement between its neighbours and spaces. -/
def render (replace : Text) : Piece → Text
  | .kept c => [c]
  | .hit lead trail => ' ' :: lead ++ replace ++ trail ++ [' ']

end Piece

namespace Substitution

/-- What follows a search text at the beginning of a text. -/
def after? (search text : Text) : Option Text :=
  if search.isPrefixOf text then some (text.drop search.length) else none

/-- Divide a text at a search text that is not empty. `covered` counts the characters
that still belong to the hit before them. -/
def anywhereFrom (search : Text) : Nat → Text → List Piece
  | _, [] => []
  | covered + 1, _ :: rest => anywhereFrom search covered rest
  | 0, c :: rest =>
    if search.isPrefixOf (c :: rest) then
      .hit [] [] :: anywhereFrom search (search.length - 1) rest
    else .kept c :: anywhereFrom search 0 rest

/-- Divide a text at a search text, wherever it occurs. -/
def anywhere (search text : Text) : List Piece :=
  if search.isEmpty then text.flatMap (fun c => [.hit [] [], .kept c]) ++ [.hit [] []]
  else anywhereFrom search 0 text

/-- A character that may stand beside a whole word on its line. -/
def isBoundary (c : Char) : Bool := !Text.isWordChar c && c != '-' && c != '\n'

/-- The neighbour that belongs to a hit at its right side, given what follows the search
text; `none` if the word does not end there. -/
def trail? (following : Text) : Option Text :=
  match following with
  | [] => some []
  | c :: _ =>
    if c = '\n' then some []
    else if isBoundary c then some [c] else none

/-- The hit that begins with the first character of a text, with the number of its
characters. At a line start the word itself may come first; elsewhere, or where that is
no hit, the first character is the neighbour before the word. -/
def wordHit? (search : Text) (lineStart : Bool) (text : Text) : Option (Piece × Nat) :=
  let atStart :=
    if lineStart then
      ((after? search text).bind trail?).map fun trail =>
        (.hit [] trail, search.length + trail.length)
    else none
  match atStart, text with
  | some found, _ => some found
  | none, c :: rest =>
    if isBoundary c then
      ((after? search rest).bind trail?).map fun trail =>
        (.hit [c] trail, search.length + trail.length + 1)
    else none
  | none, [] => none

/-- Divide a text at a whole word. `lineStart` tells whether the text begins a line, and
`covered` counts the characters that still belong to the hit before them. -/
def wordFrom (search : Text) : Bool → Nat → Text → List Piece
  | _, _, [] => []
  | _, covered + 1, c :: rest => wordFrom search (c == '\n') covered rest
  | lineStart, 0, c :: rest =>
    match wordHit? search lineStart (c :: rest) with
    | some (piece, width) => piece :: wordFrom search (c == '\n') (width - 1) rest
    | none => .kept c :: wordFrom search (c == '\n') 0 rest

end Substitution

namespace Rule

/-- The division of a text by a rule. -/
def divide (rule : Rule) (text : Text) : List Piece :=
  match rule.mode with
  | .word => Substitution.wordFrom rule.search true 0 text
  | .anywhere => Substitution.anywhere rule.search text

/-- Replace every hit of a rule in a text. -/
def substitute (rule : Rule) (text : Text) : Text :=
  (rule.divide text).flatMap (Piece.render rule.replace)

end Rule

/-- Apply the rules of a macro list one after the other, each to what the one before it
has made of the text. -/
def applyRules (rules : List Rule) (text : Text) : Text :=
  rules.foldl (fun current rule => rule.substitute current) text

/-- The texts that the rules of a macro list make one after the other. -/
def applicationSteps : List Rule → Text → List Text
  | [], _ => []
  | rule :: rest, text =>
    let next := rule.substitute text
    next :: applicationSteps rest next

/-- There is one text for each beginning of the macro list, and it is what this beginning makes. -/
theorem applicationSteps_eq (rules : List Rule) (text : Text) :
    applicationSteps rules text =
      (List.range rules.length).map fun count => applyRules (rules.take (count + 1)) text := by
  induction rules generalizing text with
  | nil => rfl
  | cons rule rest inductionHypothesis =>
    rw [applicationSteps, inductionHypothesis, List.length_cons, List.range_succ_eq_map,
      List.map_cons, List.map_map]
    rfl

/-- So the last text is the one that the whole macro list makes. -/
theorem getLast_applicationSteps (rules : List Rule) (text : Text) :
    (text :: applicationSteps rules text).getLast (List.cons_ne_nil _ _) =
      applyRules rules text := by
  induction rules generalizing text with
  | nil => rfl
  | cons rule rest inductionHypothesis =>
    rw [List.getLast_cons (by simp [applicationSteps])]
    exact inductionHypothesis (rule.substitute text)

end Manuscript
