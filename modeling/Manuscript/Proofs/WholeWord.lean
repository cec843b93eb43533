import Manuscript.Rule.Substitution
import Mathlib.Data.List.Basic

/-!
# Whole words by position

A word rule is described by positions of a text alone: an occurrence of the search text
is eligible when nothing on either side of it is a word character or a hyphen, where a
line edge counts as nothing. A scan takes the least eligible occurrence that its cursor
leaves room for, goes on behind the neighbour that belongs to it, and stops when there is
none.

The division that `Substitution.wordFrom` makes one character after the other picks the
same occurrences, so the text that a word rule makes is the one that the scan describes.
A neighbour belongs to an occurrence unless it is a line feed; it is copied between the
space and the replacement, and it is not there any more for the next occurrence.
-/

namespace Manuscript.WholeWord

/-- The character before a position. A position at the beginning has none. -/
def before? (text : Text) (position : Nat) : Option Char := (text.take position).getLast?

/-- A position where a line begins: at the beginning of the text or behind a line feed. -/
def LineStart (text : Text) (position : Nat) : Prop := ∀ c ∈ before? text position, c = '\n'

/-- A character that may stand beside a whole word: a line feed, or one that is neither a
word character nor a hyphen. -/
def Separates (c : Char) : Prop := c = '\n' ∨ (Text.isWordChar c = false ∧ c ≠ '-')

/-- The search text stands at a position, and the character on either side of it, if there
is one, separates words. -/
structure Eligible (search text : Text) (position : Nat) : Prop where
  occurs : search <+: text.drop position
  left : ∀ c ∈ before? text position, Separates c
  right : ∀ c ∈ text[position + search.length]?, Separates c

/-- The neighbour that is taken along with a word. A line feed stays where it is, and so
does nothing at the ends of the text. -/
def carried (neighbour : Option Char) : Text := (neighbour.filter (· != '\n')).toList

/-- What is taken along from before a word. -/
def lead (text : Text) (position : Nat) : Text := carried (before? text position)

/-- What is taken along from behind a word that ends at a position. -/
def trail (text : Text) (position : Nat) : Text := carried text[position]?

/-- A cursor leaves room for a word at a position: at a line start the word itself may begin
at the cursor, elsewhere the character before it may. -/
def Reachable (text : Text) (cursor position : Nat) : Prop :=
  (LineStart text position ∧ cursor ≤ position) ∨
    (¬LineStart text position ∧ cursor + 1 ≤ position)

/-- The position behind a word and what is taken along from behind it. -/
def behind (search text : Text) (position : Nat) : Nat :=
  position + search.length + (trail text (position + search.length)).length

/-- The positions that a scan picks from a cursor on. -/
inductive Scan (search text : Text) : Nat → List Nat → Prop where
  | done (cursor : Nat)
      (exhausted : ∀ position, Eligible search text position → ¬Reachable text cursor position) :
      Scan search text cursor []
  | pick (cursor position : Nat) (later : List Nat)
      (eligible : Eligible search text position) (reachable : Reachable text cursor position)
      (least : ∀ other < position, Eligible search text other → ¬Reachable text cursor other)
      (rest : Scan search text (behind search text position) later) :
      Scan search text cursor (position :: later)

/-- Copy a text from a cursor on, but write each picked word with what is taken along from
its two sides in a way of its own. -/
def copyWith (write : Text → Text → Text) (search text : Text) : Nat → List Nat → Text
  | cursor, [] => text.drop cursor
  | cursor, position :: later =>
    (text.drop cursor).take (position - (lead text position).length - cursor) ++
      write (lead text position) (trail text (position + search.length)) ++
      copyWith write search text (behind search text position) later

/-- A replacement with the neighbours of the word around it and a space on either side. -/
def padded (replace lead trail : Text) : Text := ' ' :: lead ++ replace ++ trail ++ [' ']

instance (text : Text) (position : Nat) : Decidable (LineStart text position) :=
  inferInstanceAs (Decidable (∀ c ∈ before? text position, c = '\n'))

instance (c : Char) : Decidable (Separates c) :=
  inferInstanceAs (Decidable (c = '\n' ∨ (Text.isWordChar c = false ∧ c ≠ '-')))

instance (text : Text) (cursor position : Nat) : Decidable (Reachable text cursor position) :=
  inferInstanceAs (Decidable ((LineStart text position ∧ cursor ≤ position) ∨
    (¬LineStart text position ∧ cursor + 1 ≤ position)))

instance (search text : Text) (position : Nat) : Decidable (Eligible search text position) :=
  have : Decidable (∀ c ∈ before? text position, Separates c) := Option.decidableForallMem _
  have : Decidable (∀ c ∈ text[position + search.length]?, Separates c) :=
    Option.decidableForallMem _
  decidable_of_iff
    (search <+: text.drop position ∧ (∀ c ∈ before? text position, Separates c) ∧
      ∀ c ∈ text[position + search.length]?, Separates c)
    ⟨fun ⟨occurs, left, right⟩ => ⟨occurs, left, right⟩,
      fun eligible => ⟨eligible.occurs, eligible.left, eligible.right⟩⟩

/-- What stands at a position where the rest of a text has a first character. -/
theorem rest_cons (text rest : Text) (position : Nat) (c : Char)
    (split : text.drop position = c :: rest) :
    position < text.length ∧ text[position]? = some c ∧ text.drop (position + 1) = rest := by
  have inside : position < text.length := by
    have length := congrArg List.length split
    simp only [List.length_drop, List.length_cons] at length
    omega
  have found : text[position]? = some c := by
    have first : (text.drop position)[0]? = some c := by rw [split]; rfl
    simpa only [List.getElem?_drop, Nat.add_zero] using first
  have tail : text.drop (position + 1) = rest := by
    rw [← List.drop_drop, split]
    rfl
  exact ⟨inside, found, tail⟩

/-- The character before a position is the one that was read last. -/
theorem before_succ (text rest : Text) (position : Nat) (c : Char)
    (split : text.drop position = c :: rest) : before? text (position + 1) = some c := by
  obtain ⟨_, found, _⟩ := rest_cons text rest position c split
  simp [before?, List.take_add_one, found]

/-- A line begins behind a character exactly if that is a line feed. -/
theorem lineStart_succ_iff (text rest : Text) (position : Nat) (c : Char)
    (split : text.drop position = c :: rest) : LineStart text (position + 1) ↔ c = '\n' := by
  simp [LineStart, before_succ text rest position c split]

/-- Nothing is taken along from before a word that begins its line. -/
theorem lead_lineStart (text : Text) (position : Nat) (atStart : LineStart text position) :
    lead text position = [] := by
  unfold lead carried
  unfold LineStart at atStart
  cases neighbour : before? text position with
  | none => rfl
  | some c =>
    have feed : c = '\n' := atStart c neighbour
    simp [feed]

/-- The character before a word that does not begin its line is taken along. -/
theorem lead_succ (text rest : Text) (position : Nat) (c : Char)
    (split : text.drop position = c :: rest) (noFeed : c ≠ '\n') :
    lead text (position + 1) = [c] := by
  simp [lead, carried, before_succ text rest position c split, noFeed]

/-- No line feed is taken along. -/
theorem carried_no_feed (neighbour : Option Char) : '\n' ∉ carried neighbour := by
  cases neighbour <;> simp [carried, Option.filter]

/-- At most one character is taken along. -/
theorem carried_length (neighbour : Option Char) : (carried neighbour).length ≤ 1 := by
  unfold carried
  cases neighbour.filter (· != '\n') <;> simp

/-- A cursor leaves room for a word exactly if it has not passed the place where the word
and what is taken along from before it begin. -/
theorem reachable_iff (text : Text) (cursor position : Nat) :
    Reachable text cursor position ↔
      cursor + (lead text position).length ≤ position := by
  by_cases atStart : LineStart text position
  · simp [Reachable, atStart, lead_lineStart text position atStart]
  · have single : (lead text position).length = 1 := by
      unfold LineStart at atStart
      push Not at atStart
      obtain ⟨c, neighbour, noFeed⟩ := atStart
      have known : before? text position = some c := neighbour
      simp [lead, carried, known, noFeed]
    simp [Reachable, atStart, single]

/-- A boundary of the division is a character that separates words within a line. -/
theorem isBoundary_iff (c : Char) :
    Substitution.isBoundary c = true ↔ Separates c ∧ c ≠ '\n' := by
  by_cases feed : c = '\n'
  · simp [Substitution.isBoundary, feed]
  · simp [Substitution.isBoundary, Separates, feed]

/-- Nothing is taken along from before a word exactly if the word begins its line. -/
theorem lead_nil_iff (text : Text) (position : Nat) :
    lead text position = [] ↔ LineStart text position := by
  constructor
  · intro empty
    have reached : Reachable text position position := by simp [reachable_iff, empty]
    rcases reached with ⟨atStart, _⟩ | ⟨_, beyond⟩
    · exact atStart
    · omega
  · exact lead_lineStart text position

/-- A word begins where the cursor stands or one character further on. -/
theorem lead_length (text : Text) (position : Nat) : (lead text position).length ≤ 1 :=
  carried_length _

/-- An eligible occurrence of a text that is not empty lies within the text. -/
theorem eligible_inside (search text : Text) (position : Nat) (nonempty : search ≠ [])
    (eligible : Eligible search text position) :
    position + search.length ≤ text.length ∧ position < text.length := by
  have bound : search.length ≤ text.length - position := by
    simpa only [List.length_drop] using eligible.occurs.length_le
  have positive : 0 < search.length := List.length_pos_iff.mpr nonempty
  omega

/-- The search text stands at a position, and no word goes on behind it. -/
def Ends (search text : Text) (position : Nat) : Prop :=
  search <+: text.drop position ∧ ∀ c ∈ text[position + search.length]?, Separates c

instance (search text : Text) (position : Nat) : Decidable (Ends search text position) :=
  inferInstanceAs (Decidable (search <+: text.drop position ∧
    ∀ c ∈ text[position + search.length]?, Separates c))

/-- An eligible occurrence ends a word and has a separating character before it, if any. -/
theorem eligible_iff (search text : Text) (position : Nat) :
    Eligible search text position ↔
      Ends search text position ∧ ∀ c ∈ before? text position, Separates c :=
  ⟨fun eligible => ⟨⟨eligible.occurs, eligible.right⟩, eligible.left⟩,
    fun ⟨ends, left⟩ => ⟨ends.1, left, ends.2⟩⟩

/-- At a line start the end of the word decides alone. -/
theorem eligible_lineStart_iff (search text : Text) (position : Nat)
    (atStart : LineStart text position) :
    Eligible search text position ↔ Ends search text position := by
  rw [eligible_iff]
  exact and_iff_left fun c neighbour => .inl (atStart c neighbour)

/-- Behind a first character the word is eligible if it ends and that character separates. -/
theorem eligible_succ_iff (search text rest : Text) (position : Nat) (c : Char)
    (split : text.drop position = c :: rest) :
    Eligible search text (position + 1) ↔
      Ends search text (position + 1) ∧ Separates c := by
  simp [eligible_iff, before_succ text rest position c split]

/-- The division finds the end of a word, and what is taken along from behind it, exactly
where the search text stands and the character behind it separates words. -/
theorem ending_found (search text : Text) (position : Nat) :
    (Substitution.after? search (text.drop position)).bind Substitution.trail? =
      if Ends search text position then some (trail text (position + search.length))
      else none := by
  by_cases occurs : search <+: text.drop position
  · have found : Substitution.after? search (text.drop position) =
        some (text.drop (position + search.length)) := by
      simp [Substitution.after?, List.isPrefixOf_iff_prefix, occurs, List.drop_drop]
    rw [found, Option.bind_some]
    cases following : text.drop (position + search.length) with
    | nil =>
      have outside : text[position + search.length]? = none := by
        rw [List.drop_eq_nil_iff] at following
        exact List.getElem?_eq_none following
      simp [Substitution.trail?, Ends, trail, carried, occurs, outside]
    | cons c rest =>
      obtain ⟨_, known, _⟩ := rest_cons text rest (position + search.length) c following
      by_cases feed : c = '\n'
      · simp [Substitution.trail?, Ends, trail, carried, occurs, known, feed, Separates]
      · have boundary : Substitution.isBoundary c = true ↔ Separates c := by
          simp [isBoundary_iff, feed]
        simp [Substitution.trail?, Ends, trail, carried, occurs, known, feed, boundary,
          Option.filter]
  · simp [Substitution.after?, Ends, List.isPrefixOf_iff_prefix, occurs]

/-- The hit that the division makes of an eligible word, seen from where the hit begins. -/
def hitFrom (search text : Text) (start position : Nat) : Piece × Nat :=
  (.hit (lead text position) (trail text (position + search.length)),
    behind search text position - start)

/-- The division tries the word itself at a line start, and then the character there as the
neighbour before the word. -/
theorem wordHit_eq (search text rest : Text) (start : Nat) (c : Char) (lineStart : Bool)
    (split : text.drop start = c :: rest) (flag : lineStart = true ↔ LineStart text start) :
    Substitution.wordHit? search lineStart (c :: rest) =
      if LineStart text start ∧ Ends search text start then
        some (hitFrom search text start start)
      else if Substitution.isBoundary c = true ∧ Ends search text (start + 1) then
        some (hitFrom search text start (start + 1))
      else none := by
  obtain ⟨_, _, tail⟩ := rest_cons text rest start c split
  have here := ending_found search text start
  rw [split] at here
  have next := ending_found search text (start + 1)
  rw [tail] at next
  have widthHere : behind search text start - start =
      search.length + (trail text (start + search.length)).length := by
    unfold behind
    omega
  have widthNext : behind search text (start + 1) - start =
      search.length + (trail text (start + 1 + search.length)).length + 1 := by
    unfold behind
    omega
  have second : Substitution.isBoundary c = true → lead text (start + 1) = [c] := fun boundary =>
    lead_succ text rest start c split ((isBoundary_iff c).mp boundary).2
  unfold hitFrom
  rw [widthHere, widthNext]
  by_cases atStart : LineStart text start
  · have isStart : lineStart = true := flag.mpr atStart
    by_cases endsHere : Ends search text start
    · simp [Substitution.wordHit?, here, isStart, atStart, endsHere,
        lead_lineStart text start atStart]
    · by_cases boundary : Substitution.isBoundary c = true
      · by_cases endsNext : Ends search text (start + 1) <;>
          simp [Substitution.wordHit?, here, next, endsHere, boundary, endsNext,
            second boundary]
      · simp [Substitution.wordHit?, here, endsHere, boundary]
  · have isNoStart : lineStart = false := by
      cases lineStart with
      | true => exact absurd (flag.mp rfl) atStart
      | false => rfl
    by_cases boundary : Substitution.isBoundary c = true
    · by_cases endsNext : Ends search text (start + 1) <;>
        simp [Substitution.wordHit?, next, isNoStart, atStart, boundary, endsNext,
          second boundary]
    · simp [Substitution.wordHit?, isNoStart, atStart, boundary]

/-- An eligible word whose hit begins at a position stands there or one character further
on. It stands there only at a line start, and behind a boundary otherwise. -/
theorem eligible_cases (search text rest : Text) (start position : Nat) (c : Char)
    (split : text.drop start = c :: rest) (eligible : Eligible search text position)
    (begins : start + (lead text position).length = position) :
    (position = start ∧ LineStart text start ∧ Ends search text start) ∨
      (position = start + 1 ∧ Substitution.isBoundary c = true ∧
        Ends search text (start + 1)) := by
  have short : (lead text position).length ≤ 1 := lead_length text position
  by_cases empty : lead text position = []
  · have same : position = start := by simpa [empty] using begins.symm
    subst same
    have atStart : LineStart text position := (lead_nil_iff text position).mp empty
    exact .inl ⟨rfl, atStart, (eligible_lineStart_iff search text position atStart).mp eligible⟩
  · have positive : 0 < (lead text position).length := List.length_pos_iff.mpr empty
    have same : position = start + 1 := by omega
    subst same
    obtain ⟨ends, separates⟩ := (eligible_succ_iff search text rest start c split).mp eligible
    have noFeed : c ≠ '\n' := by
      intro feed
      exact empty ((lead_nil_iff text (start + 1)).mpr
        ((lineStart_succ_iff text rest start c split).mpr feed))
    exact .inr ⟨rfl, (isBoundary_iff c).mpr ⟨separates, noFeed⟩, ends⟩

/-- The division makes a hit of the least eligible word that can begin at a position, and
keeps the character there if there is none. Only two words can begin there: the one at the
position itself, at a line start, and the one behind its character. -/
theorem wordHit_exact (search text rest : Text) (start : Nat) (c : Char) (lineStart : Bool)
    (split : text.drop start = c :: rest) (flag : lineStart = true ↔ LineStart text start) :
    (Substitution.wordHit? search lineStart (c :: rest) = none ∧
        ∀ position, Eligible search text position →
          start + (lead text position).length ≠ position) ∨
      ∃ position, Eligible search text position ∧
        start + (lead text position).length = position ∧
        (∀ other < position, Eligible search text other →
          start + (lead text other).length ≠ other) ∧
        Substitution.wordHit? search lineStart (c :: rest) =
          some (hitFrom search text start position) := by
  rw [wordHit_eq search text rest start c lineStart split flag]
  by_cases here : LineStart text start ∧ Ends search text start
  · obtain ⟨atStart, ends⟩ := here
    refine .inr ⟨start, (eligible_lineStart_iff search text start atStart).mpr ends, ?_, ?_, ?_⟩
    · simp [lead_lineStart text start atStart]
    · intro other before _ begins
      omega
    · simp [atStart, ends]
  · rw [if_neg here]
    by_cases next : Substitution.isBoundary c = true ∧ Ends search text (start + 1)
    · obtain ⟨boundary, ends⟩ := next
      obtain ⟨separates, noFeed⟩ := (isBoundary_iff c).mp boundary
      refine .inr ⟨start + 1,
        (eligible_succ_iff search text rest start c split).mpr ⟨ends, separates⟩, ?_, ?_, ?_⟩
      · simp [lead_succ text rest start c split noFeed]
      · intro other before eligible begins
        rcases eligible_cases search text rest start other c split eligible begins with
          ⟨_, atStart, endsHere⟩ | ⟨same, _⟩
        · exact here ⟨atStart, endsHere⟩
        · omega
      · simp [boundary, ends]
    · refine .inl ⟨if_neg next, ?_⟩
      intro position eligible begins
      rcases eligible_cases search text rest start position c split eligible begins with
        ⟨_, found⟩ | ⟨_, found⟩
      · exact here found
      · exact next found

/-- What belongs to a hit from before its word stands between the two positions. -/
theorem lead_split (search text : Text) (start position : Nat) (nonempty : search ≠ [])
    (eligible : Eligible search text position)
    (begins : start + (lead text position).length = position) :
    text.drop start = lead text position ++ text.drop position := by
  obtain ⟨_, inside⟩ := eligible_inside search text position nonempty eligible
  cases split : text.drop start with
  | nil =>
    rw [List.drop_eq_nil_iff] at split
    omega
  | cons c rest =>
    obtain ⟨_, _, tail⟩ := rest_cons text rest start c split
    rcases eligible_cases search text rest start position c split eligible begins with
      ⟨rfl, atStart, _⟩ | ⟨rfl, boundary, _⟩
    · simp [lead_lineStart text position atStart, split]
    · have noFeed : c ≠ '\n' := ((isBoundary_iff c).mp boundary).2
      simp [lead_succ text rest start c split noFeed, tail]

/-- What belongs to a hit from behind its word stands there. -/
theorem trail_split (text : Text) (position : Nat) :
    text.drop position =
      trail text position ++ text.drop (position + (trail text position).length) := by
  cases split : text.drop position with
  | nil =>
    have outside : text.length ≤ position := List.drop_eq_nil_iff.mp split
    simp [trail, carried, List.getElem?_eq_none outside, split]
  | cons c rest =>
    obtain ⟨_, known, tail⟩ := rest_cons text rest position c split
    by_cases feed : c = '\n'
    · simp [trail, carried, known, feed, split, Option.filter]
    · simp [trail, carried, known, feed, tail, Option.filter]

/-- The characters of a hit are what it takes along, the search text and again what it
takes along; the scan goes on right behind them. -/
theorem hit_split (search text : Text) (start position : Nat) (nonempty : search ≠ [])
    (eligible : Eligible search text position)
    (begins : start + (lead text position).length = position) :
    text.drop start = lead text position ++ search ++
      trail text (position + search.length) ++ text.drop (behind search text position) := by
  have word : text.drop position = search ++ text.drop (position + search.length) := by
    obtain ⟨after, split⟩ := eligible.occurs
    have same : text.drop (position + search.length) = after := by
      rw [← List.drop_drop, ← split, List.drop_left]
    rw [same, split]
  rw [lead_split search text start position nonempty eligible begins, word,
    trail_split text (position + search.length)]
  simp only [behind, List.append_assoc]

/-- What belongs to a hit ends within the text. -/
theorem behind_inside (search text : Text) (position : Nat) (nonempty : search ≠ [])
    (eligible : Eligible search text position) :
    position < behind search text position ∧ behind search text position ≤ text.length := by
  obtain ⟨enough, _⟩ := eligible_inside search text position nonempty eligible
  have positive : 0 < search.length := List.length_pos_iff.mpr nonempty
  have counted := congrArg List.length (trail_split text (position + search.length))
  simp only [List.length_drop, List.length_append] at counted
  unfold behind
  omega

/-- The flag for the position behind a character. -/
theorem flag_succ (text rest : Text) (position : Nat) (c : Char)
    (split : text.drop position = c :: rest) :
    (c == '\n') = true ↔ LineStart text (position + 1) := by
  rw [lineStart_succ_iff text rest position c split, beq_iff_eq]

/-- Characters that belong to a hit are passed over, and the flag follows them. -/
theorem wordFrom_covered (search text : Text) (start covered : Nat) (lineStart : Bool)
    (flag : lineStart = true ↔ LineStart text start) (inside : start + covered ≤ text.length) :
    ∃ flagBehind : Bool, (flagBehind = true ↔ LineStart text (start + covered)) ∧
      Substitution.wordFrom search lineStart covered (text.drop start) =
        Substitution.wordFrom search flagBehind 0 (text.drop (start + covered)) := by
  induction covered generalizing start lineStart with
  | zero => exact ⟨lineStart, flag, rfl⟩
  | succ covered inductionHypothesis =>
    cases split : text.drop start with
    | nil =>
      rw [List.drop_eq_nil_iff] at split
      omega
    | cons c rest =>
      obtain ⟨_, _, tail⟩ := rest_cons text rest start c split
      obtain ⟨flagBehind, known, same⟩ := inductionHypothesis (start + 1) (c == '\n')
        (flag_succ text rest start c split) (by omega)
      refine ⟨flagBehind, ?_, ?_⟩
      · rwa [Nat.add_assoc, Nat.add_comm 1 covered] at known
      · rw [tail, Nat.add_assoc, Nat.add_comm 1 covered] at same
        simpa [Substitution.wordFrom] using same

/-- A cursor may be moved back over a character with which no hit begins. -/
theorem scan_back (search text : Text) (start : Nat) (hits : List Nat)
    (untouched : ∀ position, Eligible search text position →
      start + (lead text position).length ≠ position)
    (scan : Scan search text (start + 1) hits) : Scan search text start hits := by
  have later : ∀ position, Eligible search text position →
      Reachable text start position → Reachable text (start + 1) position := by
    intro position eligible reachable
    rw [reachable_iff] at reachable ⊢
    have apart := untouched position eligible
    omega
  cases scan with
  | done _ exhausted =>
    exact .done start fun position eligible reachable =>
      exhausted position eligible (later position eligible reachable)
  | pick _ position rest eligible reachable least remaining =>
    refine .pick start position rest eligible ?_ ?_ remaining
    · rw [reachable_iff] at reachable ⊢
      omega
    · intro other before otherEligible otherReachable
      exact least other before otherEligible (later other otherEligible otherReachable)

/-- Every picked position leaves room behind the cursor. -/
theorem scan_head (search text : Text) (cursor position : Nat) (later : List Nat)
    (scan : Scan search text cursor (position :: later)) :
    cursor + (lead text position).length ≤ position := by
  cases scan with
  | pick _ _ _ _ reachable => exact (reachable_iff text cursor position).mp reachable

/-- A character with which no hit begins is copied. -/
theorem copyWith_succ (write : Text → Text → Text) (search text rest : Text) (start : Nat)
    (c : Char) (hits : List Nat) (split : text.drop start = c :: rest)
    (scan : Scan search text (start + 1) hits) :
    copyWith write search text start hits = c :: copyWith write search text (start + 1) hits := by
  obtain ⟨_, _, tail⟩ := rest_cons text rest start c split
  cases hits with
  | nil => simp [copyWith, split, tail]
  | cons position later =>
    have room := scan_head search text (start + 1) position later scan
    obtain ⟨gap, enough⟩ : ∃ gap, position - (lead text position).length = start + 1 + gap :=
      ⟨position - (lead text position).length - (start + 1), by omega⟩
    have wide : start + 1 + gap - start = gap + 1 := by omega
    simp [copyWith, split, tail, enough, wide]

/-- The division of a text from a position on, written out, is the copy that a scan from
there describes. Either no hit begins at the position and its character is kept, or the
least eligible word there is picked and the division goes on behind what belongs to it. -/
theorem wordFrom_scan (search text : Text) (nonempty : search ≠ []) (start : Nat)
    (lineStart : Bool) (flag : lineStart = true ↔ LineStart text start) :
    ∃ hits, Scan search text start hits ∧ ∀ replace,
      (Substitution.wordFrom search lineStart 0 (text.drop start)).flatMap
          (Piece.render replace) =
        copyWith (padded replace) search text start hits := by
  induction remaining : text.length - start using Nat.strongRecOn
    generalizing start lineStart with
  | _ remaining inductionHypothesis =>
    cases split : text.drop start with
    | nil =>
      have outside : text.length ≤ start := List.drop_eq_nil_iff.mp split
      refine ⟨[], .done start ?_, fun replace => ?_⟩
      · intro position eligible reachable
        obtain ⟨_, inside⟩ := eligible_inside search text position nonempty eligible
        rw [reachable_iff] at reachable
        omega
      · simp [Substitution.wordFrom, copyWith, split]
    | cons c rest =>
      obtain ⟨inside, _, tail⟩ := rest_cons text rest start c split
      rcases wordHit_exact search text rest start c lineStart split flag with
        ⟨noHit, untouched⟩ | ⟨position, eligible, begins, least, found⟩
      · obtain ⟨hits, scan, same⟩ := inductionHypothesis (text.length - (start + 1)) (by omega)
          (start + 1) (c == '\n') (flag_succ text rest start c split) rfl
        refine ⟨hits, scan_back search text start hits untouched scan, fun replace => ?_⟩
        rw [copyWith_succ _ search text rest start c hits split scan, ← same replace, tail]
        simp [Substitution.wordFrom, noHit, Piece.render]
      · obtain ⟨advances, ends⟩ := behind_inside search text position nonempty eligible
        have width : start + 1 + (behind search text position - start - 1) =
            behind search text position := by
          omega
        obtain ⟨flagBehind, known, passed⟩ := wordFrom_covered search text (start + 1)
          (behind search text position - start - 1) (c == '\n')
          (flag_succ text rest start c split) (by omega)
        rw [width, tail] at passed
        rw [width] at known
        obtain ⟨hits, scan, same⟩ := inductionHypothesis
          (text.length - behind search text position) (by omega)
          (behind search text position) flagBehind known rfl
        refine ⟨position :: hits, .pick start position hits eligible ?_ ?_ scan,
          fun replace => ?_⟩
        · rw [reachable_iff]
          omega
        · intro other before otherEligible reachable
          rw [reachable_iff] at reachable
          have apart := least other before otherEligible
          have short := lead_length text position
          omega
        · have noGap : position - (lead text position).length - start = 0 := by omega
          rw [copyWith, noGap, ← same replace, ← passed]
          simp [Substitution.wordFrom, found, hitFrom, Piece.render, padded]

/-- A scan picks the same positions however it is carried out: at each cursor the least
eligible position is one and the same. -/
theorem scan_unique (search text : Text) (cursor : Nat) (hits others : List Nat)
    (scan : Scan search text cursor hits) (another : Scan search text cursor others) :
    others = hits := by
  induction scan generalizing others with
  | done cursor exhausted =>
    cases another with
    | done => rfl
    | pick _ position _ eligible reachable => exact absurd reachable (exhausted position eligible)
  | pick cursor position later eligible reachable least rest inductionHypothesis =>
    cases another with
    | done _ exhausted => exact absurd reachable (exhausted position eligible)
    | pick _ other others otherEligible otherReachable otherLeast otherRest =>
      have same : other = position := by
        rcases Nat.lt_trichotomy other position with before | same | after
        · exact absurd otherReachable (least other before otherEligible)
        · exact same
        · exact absurd reachable (otherLeast position after eligible)
      subst same
      rw [inductionHypothesis others otherRest]

/-- Writing every picked word as it stands gives the text back, so a copy loses, repeats and
moves nothing of what lies outside the words. -/
theorem copyWith_self (search text : Text) (nonempty : search ≠ []) (cursor : Nat)
    (hits : List Nat) (scan : Scan search text cursor hits) :
    copyWith (fun lead trail => lead ++ search ++ trail) search text cursor hits =
      text.drop cursor := by
  induction scan with
  | done => rfl
  | pick cursor position later eligible reachable least rest inductionHypothesis =>
    rw [reachable_iff] at reachable
    have begins : position - (lead text position).length + (lead text position).length =
        position := by
      omega
    have gap : cursor + (position - (lead text position).length - cursor) =
        position - (lead text position).length := by
      omega
    have hit := hit_split search text _ position nonempty eligible begins
    rw [copyWith, inductionHypothesis, List.append_assoc, ← hit]
    calc (text.drop cursor).take (position - (lead text position).length - cursor) ++
          text.drop (position - (lead text position).length)
        = (text.drop cursor).take (position - (lead text position).length - cursor) ++
          (text.drop cursor).drop (position - (lead text position).length - cursor) := by
          rw [List.drop_drop, gap]
      _ = text.drop cursor := List.take_append_drop _ _

/-- Every picked position is eligible. -/
theorem scan_eligible (search text : Text) (cursor : Nat) (hits : List Nat)
    (scan : Scan search text cursor hits) : ∀ position ∈ hits, Eligible search text position := by
  induction scan with
  | done => simp
  | pick _ _ _ eligible _ _ _ inductionHypothesis =>
    exact List.forall_mem_cons.mpr ⟨eligible, inductionHypothesis⟩

/-- An eligible word that a cursor leaves room for is picked, or an earlier word is picked
whose hit reaches into what belongs to it. -/
theorem scan_complete (search text : Text) (cursor : Nat) (hits : List Nat)
    (scan : Scan search text cursor hits) (position : Nat)
    (eligible : Eligible search text position) (room : Reachable text cursor position) :
    position ∈ hits ∨ ∃ hit ∈ hits, hit < position ∧
      position < behind search text hit + (lead text position).length := by
  induction scan with
  | done _ exhausted => exact absurd room (exhausted position eligible)
  | pick cursor hit later _ _ least _ inductionHypothesis =>
    rcases Nat.lt_trichotomy position hit with before | rfl | after
    · exact absurd room (least position before eligible)
    · exact .inl List.mem_cons_self
    · by_cases later : Reachable text (behind search text hit) position
      · rcases inductionHypothesis later with picked | ⟨other, picked, overlap⟩
        · exact .inl (List.mem_cons_of_mem hit picked)
        · exact .inr ⟨other, List.mem_cons_of_mem hit picked, overlap⟩
      · rw [reachable_iff] at later
        exact .inr ⟨hit, List.mem_cons_self, after, by omega⟩

/-- A cursor at the beginning leaves room for every word. -/
theorem reachable_zero (text : Text) (position : Nat) : Reachable text 0 position := by
  by_cases atStart : LineStart text position
  · exact .inl ⟨atStart, Nat.zero_le position⟩
  · refine .inr ⟨atStart, ?_⟩
    cases position with
    | zero => exact absurd (by simp [LineStart, before?]) atStart
    | succ position => omega

/-- The search text of a rule in word mode has a first character. -/
theorem word_search_nonempty (rule : Rule) (word : rule.mode = .word) : rule.search ≠ [] := by
  intro empty
  have edges : isWordSearch rule.search = true := rule.wordEdges word
  simp [isWordSearch, empty] at edges

/-- A word rule rewrites a text as the scan over its eligible occurrences says. The scan
picks exactly one list of positions; the text that the rule makes is the copy in which each
picked word is its replacement between its neighbours and spaces, and the copy that writes
each picked word as it stands is the text itself. No picked word touches a word character
or a hyphen, no line feed is taken along, and an eligible word that is not picked has lost
its place to an earlier hit. -/
theorem substitute_eq_scan (rule : Rule) (word : rule.mode = .word) (text : Text) :
    ∃ hits : List Nat,
      (∀ others, Scan rule.search text 0 others ↔ others = hits) ∧
      rule.substitute text = copyWith (padded rule.replace) rule.search text 0 hits ∧
      text = copyWith (fun lead trail => lead ++ rule.search ++ trail) rule.search text 0 hits ∧
      (∀ position ∈ hits, Eligible rule.search text position ∧
        '\n' ∉ lead text position ∧ '\n' ∉ trail text (position + rule.search.length)) ∧
      ∀ position, Eligible rule.search text position →
        position ∈ hits ∨ ∃ hit ∈ hits, hit < position ∧
          position < behind rule.search text hit + (lead text position).length := by
  have nonempty : rule.search ≠ [] := word_search_nonempty rule word
  obtain ⟨hits, scan, same⟩ := wordFrom_scan rule.search text nonempty 0 true
    (by simp [LineStart, before?])
  refine ⟨hits, ?_, ?_, ?_, ?_, ?_⟩
  · intro others
    exact ⟨scan_unique rule.search text 0 hits others scan, fun equal => equal ▸ scan⟩
  · rw [Rule.substitute, Rule.divide, word, ← same rule.replace, List.drop_zero]
  · exact (copyWith_self rule.search text nonempty 0 hits scan).symm
  · intro position picked
    exact ⟨scan_eligible rule.search text 0 hits scan position picked,
      carried_no_feed _, carried_no_feed _⟩
  · intro position eligible
    exact scan_complete rule.search text 0 hits scan position eligible
      (reachable_zero text position)

/-- A rule that replaces the word `an`. -/
def capitals : Rule := ⟨['a', 'n'], ['A', 'N'], .word, fun _ => by decide⟩

/-- The second `an` has lost its neighbour to the first, and the third touches a hyphen. -/
theorem capitals_scan :
    capitals.mode = .word ∧
      capitals.substitute "an an\nan-b (an)".toList = " AN  an\nan-b  (AN) ".toList ∧
      ∃ hits : List Nat, ∀ others,
        Scan capitals.search "an an\nan-b (an)".toList 0 others ↔ others = hits := by
  obtain ⟨hits, picked, _⟩ := substitute_eq_scan capitals rfl "an an\nan-b (an)".toList
  exact ⟨rfl, by decide, hits, picked⟩

end Manuscript.WholeWord
