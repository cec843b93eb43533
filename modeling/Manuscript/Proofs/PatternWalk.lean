import Manuscript.Proofs.WordMatches

/-!
# Rules as patterns

A rule shows the pattern that it searches for, and divides a text without reading it. Here the two
are compared. A search walks through a text from left to right. Where a match begins it is taken,
with what the groups of the pattern have taken in it, and the walk goes on behind it; where none
begins a character is passed. A match without characters is taken as well, but not right behind
another one, or the walk would never leave the place. So an empty search text is found before every
character and at the end.

Where several matches begin at one place, an expression may prefer one of them, and the walk leaves
open which. The pattern of a rule has nothing to prefer: at most one match begins at a place, and
there is one way to take it. So the walk is determined. It is the division, and the replacement is
written between the first two groups of each match.
-/

namespace Manuscript

namespace Pattern

/-- A part of a text that a search has walked through: a character that was passed, or a match with
what the groups have taken. -/
inductive Part where
  | passed (c : Char)
  | found (text : Text) (groups : Groups)
deriving DecidableEq, Repr

/-- What a group has taken. A group that there is not has taken nothing. -/
def taken (groups : Groups) (number : Nat) : Text := (groups.getD number none).getD []

/-- Write a part out; a match becomes the replacement between its first two groups and spaces. -/
def Part.render (replace : Text) : Part → Text
  | .passed c => [c]
  | .found _ groups => ' ' :: taken groups 0 ++ replace ++ taken groups 1 ++ [' ']

section

variable (multiline : Bool) (expression : Expression)

/-- No match begins where a walk has come to. Where none without characters may be taken, such a
match does not count. -/
def NoneHere (mayBeEmpty : Bool) (before text : Text) : Prop :=
  ∀ front back, text = front ++ back → expression.Matches multiline before front back →
    front = [] ∧ mayBeEmpty = false

/-- A walk through the rest of a text, given what has been walked through and whether a match
without characters may be taken next. -/
inductive Walk : Bool → Text → Text → List Part → Prop where
  | done {mayBeEmpty : Bool} {before : Text}
      (nothing : NoneHere multiline expression mayBeEmpty before []) :
      Walk mayBeEmpty before [] []
  | pass {mayBeEmpty : Bool} {before rest : Text} {c : Char} {later : List Part}
      (nothing : NoneHere multiline expression mayBeEmpty before (c :: rest))
      (further : Walk true (before ++ [c]) rest later) :
      Walk mayBeEmpty before (c :: rest) (.passed c :: later)
  | take {mayBeEmpty : Bool} {before text : Text} {later : List Part} (front back : Text)
      (groups : Groups) (split : text = front ++ back)
      (captured : expression.Captures multiline groups before front back)
      (allowed : front = [] → mayBeEmpty = true)
      (further : Walk (!front.isEmpty) (before ++ front) back later) :
      Walk mayBeEmpty before text (.found front groups :: later)

/-- At most one match begins at a place, and there is one way to take it. -/
def Sole : Prop :=
  ∀ ⦃before front back otherFront otherBack : Text⦄ ⦃groups otherGroups : Groups⦄,
    front ++ back = otherFront ++ otherBack →
    expression.Captures multiline groups before front back →
    expression.Captures multiline otherGroups before otherFront otherBack →
    front = otherFront ∧ groups = otherGroups

end

variable {multiline mayBeEmpty : Bool} {expression : Expression} {before text : Text}
  {parts others : List Part}

/-- Where no match begins none is taken. -/
theorem NoneHere.absent {front back : Text} {groups : Groups}
    (nothing : NoneHere multiline expression mayBeEmpty before text) (split : text = front ++ back)
    (captured : expression.Captures multiline groups before front back)
    (allowed : front = [] → mayBeEmpty = true) : False := by
  have matched := (matches_iff_captures multiline expression before front back).mpr ⟨_, captured⟩
  obtain ⟨empty, forbidden⟩ := nothing front back split matched
  exact Bool.false_ne_true (forbidden.symm.trans (allowed empty))

/-- If matches are sole there is one walk at most. -/
theorem Walk.unique (sole : Sole multiline expression)
    (first : Walk multiline expression mayBeEmpty before text parts)
    (second : Walk multiline expression mayBeEmpty before text others) : parts = others := by
  induction first generalizing others with
  | done nothing =>
    cases second with
    | done => rfl
    | take front back groups split captured allowed =>
      exact (nothing.absent split captured allowed).elim
  | pass nothing further inductionHypothesis =>
    cases second with
    | pass _ otherFurther => exact congrArg _ (inductionHypothesis otherFurther)
    | take front back groups split captured allowed =>
      exact (nothing.absent split captured allowed).elim
  | take front back groups split captured allowed further inductionHypothesis =>
    cases second with
    | done nothing => exact (nothing.absent split captured allowed).elim
    | pass nothing => exact (nothing.absent split captured allowed).elim
    | take otherFront otherBack otherGroups otherSplit otherCaptured _ otherFurther =>
      have same := split.symm.trans otherSplit
      obtain ⟨rfl, rfl⟩ := sole same captured otherCaptured
      obtain rfl := List.append_cancel_left same
      exact congrArg _ (inductionHypothesis otherFurther)

/-- So where there is a walk it is the only one. -/
theorem Walk.iff_eq (walk : Walk multiline expression mayBeEmpty before text parts)
    (sole : Sole multiline expression) :
    Walk multiline expression mayBeEmpty before text others ↔ others = parts :=
  ⟨fun other => Walk.unique sole other walk, fun same => same ▸ walk⟩

/-- A text that is searched for literally is matched once at most at a place. -/
theorem sole_literals (search : Text) : Sole multiline (sequence (search.map .literal)) := by
  intro before front back otherFront otherBack groups otherGroups _ captured otherCaptured
  obtain ⟨rfl, rfl⟩ := (captures_literals search).mp captured
  obtain ⟨rfl, rfl⟩ := (captures_literals front).mp otherCaptured
  exact ⟨rfl, rfl⟩

/-- So is a whole word, because the division makes one hit of it there. -/
theorem sole_word {search : Text} (word : isWordSearch search = true) :
    Sole true (wordExpression search) := by
  intro before front back otherFront otherBack groups otherGroups same captured otherCaptured
  obtain ⟨lineStart, start⟩ : ∃ flag : Bool, flag = true ↔ Edge.lineStart.Holds true before [] := by
    by_cases begins : Edge.lineStart.Holds true before []
    · exact ⟨true, iff_of_true rfl begins⟩
    · exact ⟨false, iff_of_false Bool.false_ne_true begins⟩
  obtain ⟨lead, trail, rfl, rfl, hit⟩ := (Substitution.captures_word_iff_hit word start).mp captured
  obtain ⟨otherLead, otherTrail, rfl, rfl, otherHit⟩ :=
    (Substitution.captures_word_iff_hit word start).mp otherCaptured
  rw [same] at hit
  obtain ⟨rfl, rfl⟩ : lead = otherLead ∧ trail = otherTrail := by
    simpa using congrArg Prod.fst (Option.some.inj (hit.symm.trans otherHit))
  exact ⟨rfl, rfl⟩

end Pattern

/-! ## The division is a walk -/

open Pattern

/-- What the groups of a rule's pattern take in a hit with certain neighbours. -/
def Mode.groups (mode : Mode) (lead trail : Text) : Groups :=
  match mode with
  | .word => [some lead, some trail]
  | .anywhere => []

/-- The part of a walk that a piece of a division is. -/
def Piece.part (search : Text) (mode : Mode) : Piece → Part
  | .kept c => .passed c
  | .hit lead trail => .found (lead ++ search ++ trail) (mode.groups lead trail)

namespace Substitution

variable {multiline : Bool} {expression : Expression} {search : Text}

/-- A match with characters may be walked through like the division goes through a hit: its first
character is passed, and the others are covered. -/
theorem walk_covered {mayBeEmpty : Bool} {before front rest : Text} {c : Char} {groups : Groups}
    {later : List Part} (begins : front <+: c :: rest) (nonempty : front ≠ [])
    (captured : ∀ back, c :: rest = front ++ back →
      expression.Captures multiline groups before front back)
    (further : Walk multiline expression true (before ++ [c] ++ rest.take (front.length - 1))
      (rest.drop (front.length - 1)) later) :
    Walk multiline expression mayBeEmpty before (c :: rest) (.found front groups :: later) := by
  have split := covered_split begins nonempty
  have taken : front = [c] ++ rest.take (front.length - 1) := by
    have whole : front ++ rest.drop (front.length - 1) =
        [c] ++ rest.take (front.length - 1) ++ rest.drop (front.length - 1) := by
      rw [split, List.append_assoc, List.take_append_drop, List.singleton_append]
    exact List.append_cancel_right whole
  refine .take front _ groups split.symm (captured _ split.symm)
    (fun empty => (nonempty empty).elim) ?_
  rw [List.append_assoc, ← taken] at further
  rwa [List.isEmpty_eq_false_iff.mpr nonempty]

/-- Where the division makes no hit no whole word is matched. -/
theorem noneHere_word (word : isWordSearch search = true) {lineStart : Bool} {before : Text}
    (start : lineStart = true ↔ Edge.lineStart.Holds true before []) {text : Text}
    (absent : wordHit? search lineStart text = none) (mayBeEmpty : Bool) :
    NoneHere true (wordExpression search) mayBeEmpty before text := by
  intro front back split matched
  obtain ⟨groups, captured⟩ := (matches_iff_captures _ _ _ _ _).mp matched
  obtain ⟨lead, trail, -, -, hit⟩ := (captures_word_iff_hit word start).mp captured
  rw [← split, absent] at hit
  cases hit

/-- The division at a whole word is a walk. What is covered has been walked through. -/
theorem wordFrom_walk (word : isWordSearch search = true) (mayBeEmpty lineStart : Bool)
    (covered : Nat) (before text : Text)
    (start : lineStart = true ↔ Edge.lineStart.Holds true before []) :
    Walk true (wordExpression search) mayBeEmpty (before ++ text.take covered)
      (text.drop covered)
      ((wordFrom search lineStart covered text).map (Piece.part search .word)) := by
  obtain ⟨d, more, begins, -⟩ := word_begins word
  induction text generalizing mayBeEmpty lineStart covered before with
  | nil =>
    rw [List.take_nil, List.append_nil, List.drop_nil]
    have absent : wordHit? search lineStart [] = none := by simp [wordHit?, after?, begins]
    exact .done (noneHere_word word start absent mayBeEmpty)
  | cons c rest inductionHypothesis =>
    have next : (c == '\n') = true ↔ Edge.lineStart.Holds true (before ++ [c]) [] := by
      simp [Edge.Holds]
    cases covered with
    | succ covered =>
      have later := inductionHypothesis mayBeEmpty _ covered (before ++ [c]) next
      rwa [List.append_assoc] at later
    | zero =>
      rw [wordFrom, List.take_zero, List.append_nil, List.drop_zero]
      cases found : wordHit? search lineStart (c :: rest) with
      | none =>
        have later := inductionHypothesis true _ 0 (before ++ [c]) next
        rw [List.take_zero, List.append_nil] at later
        exact .pass (noneHere_word word start found mayBeEmpty) later
      | some hit =>
        obtain ⟨piece, width⟩ := hit
        obtain ⟨lead, trail, rfl, -⟩ := wordHit_lead found
        obtain ⟨stands, rfl⟩ := wordHit_source found
        refine walk_covered stands (by simp [begins]) (fun back split => ?_)
          (inductionHypothesis true _ _ (before ++ [c]) next)
        refine (captures_word_iff_hit word start).mpr ⟨lead, trail, rfl, rfl, ?_⟩
        exact split ▸ found

/-- Where a text does not begin with another one it is not matched literally. -/
theorem noneHere_literals {text : Text} (absent : ¬search <+: text) (mayBeEmpty : Bool)
    (before : Text) :
    NoneHere multiline (sequence (search.map .literal)) mayBeEmpty before text := by
  intro front back split matched
  obtain rfl := (matches_literals _ _ _ _ _).mp matched
  exact (absent ⟨back, split.symm⟩).elim

theorem part_literal (search : Text) :
    Piece.part search .anywhere (.hit [] []) = .found search [] := by
  simp [Piece.part, Mode.groups]

/-- The division at a text that is not empty is a walk. -/
theorem anywhereFrom_walk (nonempty : search ≠ []) (mayBeEmpty : Bool) (covered : Nat)
    (before text : Text) :
    Walk multiline (sequence (search.map .literal)) mayBeEmpty (before ++ text.take covered)
      (text.drop covered)
      ((anywhereFrom search covered text).map (Piece.part search .anywhere)) := by
  induction text generalizing mayBeEmpty covered before with
  | nil =>
    rw [List.take_nil, List.append_nil, List.drop_nil]
    exact .done (noneHere_literals (by simpa using nonempty) mayBeEmpty before)
  | cons c rest inductionHypothesis =>
    cases covered with
    | succ covered =>
      have later := inductionHypothesis mayBeEmpty covered (before ++ [c])
      rwa [List.append_assoc] at later
    | zero =>
      rw [anywhereFrom, List.take_zero, List.append_nil, List.drop_zero]
      by_cases stands : search <+: c :: rest
      · rw [if_pos (List.isPrefixOf_iff_prefix.mpr stands), List.map_cons, part_literal]
        apply walk_covered stands nonempty
        · intro back _
          exact (captures_literals search).mpr ⟨rfl, rfl⟩
        · exact inductionHypothesis true _ (before ++ [c])
      · rw [if_neg (mt List.isPrefixOf_iff_prefix.mp stands)]
        have later := inductionHypothesis true 0 (before ++ [c])
        rw [List.take_zero, List.append_nil] at later
        exact .pass (noneHere_literals stands mayBeEmpty before) later

/-- The empty text is matched before every character and at the end, and nowhere twice. -/
theorem empty_walk (before text : Text) :
    Walk multiline .empty true before text
      ((text.flatMap (fun c => [Piece.hit [] [], Piece.kept c]) ++ [Piece.hit [] []]).map
        (Piece.part [] .anywhere)) := by
  have once (before text : Text) : NoneHere multiline .empty false before text :=
    fun _ _ _ matched => ⟨matched, rfl⟩
  induction text generalizing before with
  | nil => exact .take [] [] [] rfl ⟨rfl, rfl⟩ (fun _ => rfl) (.done (once _ _))
  | cons c rest inductionHypothesis =>
    have later := inductionHypothesis (before ++ [] ++ [c])
    exact .take [] (c :: rest) [] rfl ⟨rfl, rfl⟩ (fun _ => rfl) (.pass (once _ _) later)

/-- The division at a text is a walk, wherever it occurs. -/
theorem anywhere_walk (search text : Text) :
    Walk multiline (sequence (search.map .literal)) true [] text
      ((anywhere search text).map (Piece.part search .anywhere)) := by
  by_cases empty : search = []
  · subst empty
    exact empty_walk [] text
  · rw [anywhere, if_neg (by simpa using empty)]
    exact anywhereFrom_walk empty true 0 [] text

theorem anywhereFrom_bare {covered : Nat} {text lead trail : Text}
    (found : .hit lead trail ∈ anywhereFrom search covered text) : lead = [] ∧ trail = [] := by
  fun_induction anywhereFrom search covered text with
  | case1 => cases found
  | case2 covered c rest inductionHypothesis => exact inductionHypothesis found
  | case3 c rest stands inductionHypothesis =>
    rcases List.mem_cons.mp found with same | later
    · exact Piece.hit.inj same
    · exact inductionHypothesis later
  | case4 c rest absent inductionHypothesis =>
    rcases List.mem_cons.mp found with same | later
    · cases same
    · exact inductionHypothesis later

/-- Anywhere, a hit takes nothing along. -/
theorem anywhere_bare {text lead trail : Text} (found : .hit lead trail ∈ anywhere search text) :
    lead = [] ∧ trail = [] := by
  unfold anywhere at found
  split at found
  · rcases List.mem_append.mp found with inner | last
    · obtain ⟨c, -, here⟩ := List.mem_flatMap.mp inner
      simpa using here
    · simpa using last
  · exact anywhereFrom_bare found

end Substitution

/-! ## Rules -/

namespace Rule

/-- Whether every line of a text has edges for the pattern of a rule. -/
def multiline (rule : Rule) : Bool :=
  match rule.mode with
  | .word => true
  | .anywhere => false

/-- A rule hits where its pattern matches. The pattern can be read, and for every text the division
is the walk that takes the matches of the pattern as they come, and the only one. A hit is a match
that consists of the search text and the neighbours of the hit, and in word mode these are what the
two groups of the pattern have taken. -/
theorem divide_walk (rule : Rule) : ∃ expression, read rule.pattern = some expression ∧
    ∀ text parts, Walk rule.multiline expression true [] text parts ↔
      parts = (rule.divide text).map (Piece.part rule.search rule.mode) := by
  unfold divide pattern Rule.multiline
  cases mode : rule.mode with
  | word =>
    have word := rule.wordEdges mode
    have start : true = true ↔ Edge.lineStart.Holds true [] [] := iff_of_true rfl (.inl rfl)
    refine ⟨wordExpression rule.search, read_wholeWord rule.search, fun text parts => ?_⟩
    exact (Substitution.wordFrom_walk word true true 0 [] text start).iff_eq (sole_word word)
  | anywhere =>
    refine ⟨_, read_escape rule.search, fun text parts => ?_⟩
    exact (Substitution.anywhere_walk rule.search text).iff_eq (sole_literals rule.search)

-- The first word takes the only character between them, and none is left to lead the second.
example : ((Rule.mk "so".toList "s".toList .word fun _ => by decide).divide "so so".toList).map
      (Piece.part "so".toList .word) =
    [.found "so ".toList [some [], some [' ']], .passed 's', .passed 'o'] := by
  decide

/-- So what a rule makes of a text is what the parts of the walk are written out as. -/
theorem substitute_walk (rule : Rule) {expression : Expression}
    (known : read rule.pattern = some expression) {text : Text} {parts : List Part}
    (walk : Walk rule.multiline expression true [] text parts) :
    rule.substitute text = parts.flatMap (Part.render rule.replace) := by
  obtain ⟨_, same, walks⟩ := rule.divide_walk
  cases known.symm.trans same
  obtain rfl := (walks text parts).mp walk
  rw [substitute, List.flatMap_map]
  apply List.flatMap_congr
  intro piece found
  rw [divide] at found
  cases piece with
  | kept c => rfl
  | hit lead trail =>
    cases mode : rule.mode with
    | word => rfl
    | anywhere =>
      rw [mode] at found
      obtain ⟨rfl, rfl⟩ := Substitution.anywhere_bare found
      rfl

end Rule

end Manuscript
