import Manuscript.Alignment
import Manuscript.Proofs.Trimming

/-!
# The cells of an aligned line

The columns of an aligned line are separated by runs of two spaces or more, however wide they are.
A line is cut at every two spaces, from the left, so a run may leave empty pieces, and a run of
odd width leaves a space at the beginning of the next one. Trimming the pieces and leaving out the
empty ones removes both. White space of other kinds separates no columns; it is trimmed where it
stands beside a run, and kept within a cell.

The cut is followed through a line with what stands before it put in front of the first piece.
White space there, and at the end of the line, makes no difference to the cells.
-/

namespace Manuscript.Alignment

/-- A text without two spaces in a row. -/
def Single (text : Text) : Prop := ¬[' ', ' '] <:+: text

/-- The pieces of a line between its runs of two spaces or more. A run goes as far as there are
spaces. -/
inductive Between : List Text → Text → Prop where
  | last (piece : Text) (single : Single piece) : Between [piece] piece
  | run (piece : Text) (width : Nat) (rest : Text) (pieces : List Text) (single : Single piece)
      (ends : piece.getLast? ≠ some ' ') (wide : 2 ≤ width) (begins : rest.head? ≠ some ' ')
      (others : Between pieces rest) :
      Between (piece :: pieces) (piece ++ (List.replicate width ' ' ++ rest))

/-- A cell of an aligned line: there is something in it, but no white space at its edges and no
two spaces in a row. -/
structure Cell (cell : Text) : Prop where
  nonempty : cell ≠ []
  trimmed : Text.Trimmed cell
  single : Single cell

/-- The ways to lay cells out in a line, with two spaces or more between every two. -/
inductive Laid : List Text → Text → Prop where
  | none : Laid [] []
  | last (cell : Text) : Laid [cell] cell
  | next (cell : Text) (width : Nat) (next : Text) (cells : List Text) (rest : Text)
      (wide : 2 ≤ width) (others : Laid (next :: cells) rest) :
      Laid (cell :: next :: cells) (cell ++ (List.replicate width ' ' ++ rest))

/-- The pieces that are left when they have been trimmed. -/
def kept (pieces : List Text) : List Text :=
  (pieces.map Text.trim).filter fun cell => !cell.isEmpty

/-- Put a text in front of the first piece. -/
def extended (front : Text) : List Text → List Text
  | [] => [front]
  | first :: others => (front ++ first) :: others

/-! ## The cut -/

theorem cut_ne_nil (text : Text) : cutAtTwoSpaces text ≠ [] := by
  unfold cutAtTwoSpaces
  split
  · exact List.cons_ne_nil _ _
  · exact List.cons_ne_nil _ _
  · split <;> exact List.cons_ne_nil _ _

/-- A character that begins no two spaces belongs to the first piece. -/
theorem cut_cons {c : Char} {rest : Text} (apart : ¬(c = ' ' ∧ rest.head? = some ' ')) :
    cutAtTwoSpaces (c :: rest) = extended [c] (cutAtTwoSpaces rest) := by
  rw [cutAtTwoSpaces]
  · cases cutAtTwoSpaces rest <;> rfl
  · rintro more rfl rfl
    exact apart ⟨rfl, rfl⟩

theorem extended_nil {pieces : List Text} (nonempty : pieces ≠ []) :
    extended [] pieces = pieces := by
  cases pieces with
  | nil => exact absurd rfl nonempty
  | cons first others => rfl

theorem extended_append (front back : Text) (pieces : List Text) :
    extended front (extended back pieces) = extended (front ++ back) pieces := by
  cases pieces with
  | nil => rfl
  | cons first others => simp [extended]

/-- Of two neighbouring characters not both are spaces, at the beginning and further on. -/
theorem single_cons_iff {c : Char} {rest : Text} :
    Single (c :: rest) ↔ ¬(c = ' ' ∧ rest.head? = some ' ') ∧ Single rest := by
  have begins : [' ', ' '] <+: c :: rest ↔ c = ' ' ∧ rest.head? = some ' ' := by
    rw [List.cons_prefix_cons]
    cases rest with
    | nil => simp
    | cons d more => simp [List.cons_prefix_cons, eq_comm]
  rw [Single, List.infix_cons_iff, begins, not_or, Single]

/-- A piece without two spaces in a row is not cut. -/
theorem cut_append {piece rest : Text} (single : Single piece)
    (apart : ¬(piece.getLast? = some ' ' ∧ rest.head? = some ' ')) :
    cutAtTwoSpaces (piece ++ rest) = extended piece (cutAtTwoSpaces rest) := by
  induction piece with
  | nil => exact (extended_nil (cut_ne_nil rest)).symm
  | cons c piece inductionHypothesis =>
    obtain ⟨here, later⟩ := single_cons_iff.mp single
    have behind : ¬(piece.getLast? = some ' ' ∧ rest.head? = some ' ') := by
      rintro ⟨last, first⟩
      exact apart ⟨by rw [List.getLast?_cons, last]; rfl, first⟩
    have apartHere : ¬(c = ' ' ∧ (piece ++ rest).head? = some ' ') := by
      cases piece with
      | nil => simpa using apart
      | cons d more => exact here
    rw [List.cons_append, cut_cons apartHere, inductionHypothesis later behind, extended_append]
    rfl

/-! ## What is kept -/

theorem kept_cons (piece : Text) (pieces : List Text) :
    kept (piece :: pieces) = kept [piece] ++ kept pieces := by
  rw [kept, kept, kept, ← List.filter_append, ← List.map_append]
  rfl

/-- Only the trimmed first piece matters to what is kept. -/
theorem kept_first {first other : Text} (same : Text.trim first = Text.trim other)
    (pieces : List Text) : kept (first :: pieces) = kept (other :: pieces) := by
  simp [kept, same]

theorem kept_extended_lead {lead : Text} (blank : ∀ c ∈ lead, Text.isBlank c = true)
    {pieces : List Text} (nonempty : pieces ≠ []) : kept (extended lead pieces) = kept pieces := by
  cases pieces with
  | nil => exact absurd rfl nonempty
  | cons first others => exact kept_first (Text.trim_lead blank first) others

/-- White space in front of a text makes no difference to what is kept. The induction is on the
text: two spaces are one piece more, but behind the first of them the text is shorter. -/
theorem kept_cut_cons {c : Char} (blank : Text.isBlank c = true) (text : Text) :
    kept (cutAtTwoSpaces (c :: text)) = kept (cutAtTwoSpaces text) := by
  induction text with
  | nil =>
    rw [cut_cons (by simp), kept_extended_lead (by simpa using blank) (cut_ne_nil [])]
  | cons d rest inductionHypothesis =>
    by_cases pair : c = ' ' ∧ (d :: rest).head? = some ' '
    · obtain ⟨rfl, second⟩ := pair
      obtain rfl : d = ' ' := Option.some.inj second
      exact inductionHypothesis.symm
    · rw [cut_cons pair, kept_extended_lead (by simpa using blank) (cut_ne_nil _)]

theorem kept_cut_lead {lead : Text} (blank : ∀ c ∈ lead, Text.isBlank c = true) (text : Text) :
    kept (cutAtTwoSpaces (lead ++ text)) = kept (cutAtTwoSpaces text) := by
  induction lead with
  | nil => rfl
  | cons c rest inductionHypothesis =>
    obtain ⟨first, others⟩ := List.forall_mem_cons.mp blank
    rw [List.cons_append, kept_cut_cons first, inductionHypothesis others]

/-- White space behind a text makes no difference to what is kept, whatever stands in front of the
text. -/
theorem kept_cut_concat {c : Char} (blank : Text.isBlank c = true) (front text : Text) :
    kept (extended front (cutAtTwoSpaces (text ++ [c]))) =
      kept (extended front (cutAtTwoSpaces text)) := by
  induction size : text.length using Nat.strongRecOn generalizing front text with
  | _ size inductionHypothesis =>
    match text with
    | [] =>
      have alone : cutAtTwoSpaces [c] = [[c]] := cut_cons (by simp)
      rw [List.nil_append, alone]
      exact kept_first (by rw [Text.trim_trail front (by simpa using blank), List.append_nil]) []
    | [d] =>
      by_cases pair : d = ' ' ∧ c = ' '
      · obtain ⟨rfl, rfl⟩ := pair
        have two : kept (extended front [[], []]) = kept [front] := by
          rw [extended, kept_cons, List.append_nil]
          exact List.append_nil _
        have one : kept (extended front [[' ']]) = kept [front] :=
          kept_first (Text.trim_trail front (by simpa using blank)) []
        exact two.trans one.symm
      · have cut : cutAtTwoSpaces ([d] ++ [c]) = extended [d] (cutAtTwoSpaces ([] ++ [c])) :=
          cut_cons (by simpa using pair)
        have cutAlone : cutAtTwoSpaces [d] = extended [d] (cutAtTwoSpaces []) := cut_cons (by simp)
        rw [cut, cutAlone, extended_append, extended_append]
        exact inductionHypothesis 0 (by rw [← size]; exact Nat.zero_lt_one) _ [] rfl
    | d :: e :: rest =>
      rw [List.length_cons, List.length_cons] at size
      by_cases pair : d = ' ' ∧ e = ' '
      · obtain ⟨rfl, rfl⟩ := pair
        have later := inductionHypothesis rest.length (by omega) [] rest rfl
        rw [extended_nil (cut_ne_nil _), extended_nil (cut_ne_nil _)] at later
        change kept ((front ++ []) :: cutAtTwoSpaces (rest ++ [c])) =
          kept ((front ++ []) :: cutAtTwoSpaces rest)
        rw [kept_cons, later, ← kept_cons]
      · have cut : ∀ more, cutAtTwoSpaces (d :: e :: more) =
            extended [d] (cutAtTwoSpaces (e :: more)) := fun more => cut_cons (by simpa using pair)
        rw [List.cons_append, List.cons_append, cut, cut, extended_append, extended_append]
        exact inductionHypothesis (rest.length + 1) (by omega) _ (e :: rest) rfl

theorem kept_cut_trail (text : Text) {trail : Text}
    (blank : ∀ c ∈ trail, Text.isBlank c = true) :
    kept (cutAtTwoSpaces (text ++ trail)) = kept (cutAtTwoSpaces text) := by
  induction trail generalizing text with
  | nil => rw [List.append_nil]
  | cons c rest inductionHypothesis =>
    obtain ⟨first, others⟩ := List.forall_mem_cons.mp blank
    have here := kept_cut_concat first [] text
    rw [extended_nil (cut_ne_nil _), extended_nil (cut_ne_nil _)] at here
    rw [← List.singleton_append, ← List.append_assoc, inductionHypothesis _ others, here]

/-- The cells of a line are what is kept of it, with the white space around it or without. -/
theorem cells_eq_kept (line : Text) : cells line = kept (cutAtTwoSpaces line) := by
  obtain ⟨lead, trail, split, blankLead, blankTrail⟩ := Text.trim_split line
  calc cells line
      = kept (cutAtTwoSpaces (Text.trim line)) := rfl
    _ = kept (cutAtTwoSpaces (lead ++ (Text.trim line ++ trail))) := by
        rw [kept_cut_lead blankLead, kept_cut_trail _ blankTrail]
    _ = kept (cutAtTwoSpaces line) := by rw [← split]

/-- Trimming and leaving out empty pieces loses white space only. -/
theorem kept_filter (pieces : List Text) :
    (kept pieces).flatten.filter (fun c => !Text.isBlank c) =
      pieces.flatten.filter fun c => !Text.isBlank c := by
  induction pieces with
  | nil => rfl
  | cons piece rest inductionHypothesis =>
    have alone : (kept [piece]).flatten = Text.trim piece := by
      by_cases empty : Text.trim piece = []
      · simp [kept, empty]
      · simp [kept, empty]
    rw [kept_cons, List.flatten_append, List.filter_append, inductionHypothesis, alone,
      Text.filter_trim, List.flatten_cons, List.filter_append]

/-- Trimming brings no two spaces together. -/
theorem single_trim {piece : Text} (single : Single piece) : Single (Text.trim piece) := by
  intro occurs
  obtain ⟨lead, trail, split, -, -⟩ := Text.trim_split piece
  apply single
  rw [split]
  have inside := (List.prefix_append (Text.trim piece) trail).isInfix
  exact occurs.trans (inside.trans (List.suffix_append lead _).isInfix)

/-- What is kept of pieces without two spaces in a row are cells. -/
theorem kept_cells {pieces : List Text} (single : ∀ piece ∈ pieces, Single piece) :
    ∀ cell ∈ kept pieces, Cell cell := by
  intro cell member
  obtain ⟨inside, nonempty⟩ := List.mem_filter.mp member
  obtain ⟨piece, among, rfl⟩ := List.mem_map.mp inside
  exact ⟨by simpa using nonempty, Text.trim_trimmed piece, single_trim (single piece among)⟩

/-- Nothing is trimmed or left out of cells. -/
theorem kept_self {found : List Text} (complete : ∀ cell ∈ found, Cell cell) :
    kept found = found := by
  induction found with
  | nil => rfl
  | cons cell rest inductionHypothesis =>
    obtain ⟨first, others⟩ := List.forall_mem_cons.mp complete
    have alone : kept [cell] = [cell] := by simp [kept, first.trimmed.trim_eq, first.nonempty]
    rw [kept_cons, alone, inductionHypothesis others, List.singleton_append]

/-! ## The pieces between runs -/

namespace Between

variable {pieces : List Text} {line : Text}

theorem single (between : Between pieces line) : ∀ piece ∈ pieces, Single piece := by
  induction between with
  | last piece single => simpa using single
  | run piece width rest pieces single _ _ _ _ inductionHypothesis =>
    exact List.forall_mem_cons.mpr ⟨single, inductionHypothesis⟩

/-- A run of any width has no cell in it, so what is kept of a line are its pieces. -/
theorem kept_eq (between : Between pieces line) :
    kept (cutAtTwoSpaces line) = kept pieces := by
  induction between with
  | last piece single =>
    have cut : cutAtTwoSpaces (piece ++ []) = extended piece (cutAtTwoSpaces []) :=
      cut_append single (by simp)
    have whole : extended piece (cutAtTwoSpaces []) = [piece ++ []] := rfl
    rw [List.append_nil] at cut whole
    rw [cut, whole]
  | run piece width rest pieces single ends wide _ _ inductionHypothesis =>
    obtain ⟨more, rfl⟩ : ∃ more, width = more + 2 := ⟨width - 2, by omega⟩
    have blank : ∀ c ∈ List.replicate more ' ', Text.isBlank c = true := by
      intro c member
      rw [List.eq_of_mem_replicate member]
      decide
    calc kept (cutAtTwoSpaces (piece ++ (List.replicate (more + 2) ' ' ++ rest)))
        = kept (extended piece
            (cutAtTwoSpaces (' ' :: ' ' :: (List.replicate more ' ' ++ rest)))) :=
          congrArg kept (cut_append single fun both => ends both.1)
      _ = kept ((piece ++ []) :: cutAtTwoSpaces (List.replicate more ' ' ++ rest)) := rfl
      _ = kept [piece] ++ kept (cutAtTwoSpaces (List.replicate more ' ' ++ rest)) := by
          rw [List.append_nil, kept_cons]
      _ = kept [piece] ++ kept pieces := by rw [kept_cut_lead blank, inductionHypothesis]
      _ = kept (piece :: pieces) := (kept_cons piece pieces).symm

/-- The runs between the pieces are white space. -/
theorem filter_eq (between : Between pieces line) :
    pieces.flatten.filter (fun c => !Text.isBlank c) =
      line.filter fun c => !Text.isBlank c := by
  induction between with
  | last piece _ => simp
  | run piece width rest pieces _ _ _ _ _ inductionHypothesis =>
    have none : (List.replicate width ' ').filter (fun c => !Text.isBlank c) = [] := by
      rw [List.filter_replicate_of_neg (by decide)]
    rw [List.flatten_cons, List.filter_append, List.filter_append, List.filter_append, none,
      inductionHypothesis, List.nil_append]

end Between

theorem single_nil : Single [] := by simp [Single]

/-- A text either has no two spaces in a row, or there is a first run of them. The induction is on
the text: a space more in front makes a run of a space there, or goes into the first run. -/
theorem first_run (text : Text) :
    Single text ∨ ∃ piece width rest, text = piece ++ (List.replicate width ' ' ++ rest) ∧
      Single piece ∧ piece.getLast? ≠ some ' ' ∧ 2 ≤ width ∧ rest.head? ≠ some ' ' := by
  induction text with
  | nil => exact .inl single_nil
  | cons c text inductionHypothesis =>
    by_cases pair : c = ' ' ∧ text.head? = some ' '
    · obtain ⟨rfl, second⟩ := pair
      obtain ⟨rest, rfl⟩ := List.head?_eq_some_iff.mp second
      rcases inductionHypothesis with single |
        ⟨piece, width, behind, split, single, ends, wide, begins⟩
      · exact .inr ⟨[], 2, rest, rfl, single_nil, by simp, Nat.le_refl 2,
          fun third => (single_cons_iff.mp single).1 ⟨rfl, third⟩⟩
      · cases piece with
        | nil =>
          exact .inr ⟨[], width + 1, behind, by rw [split]; rfl, single_nil, by simp, by omega,
            begins⟩
        | cons d piece =>
          obtain ⟨rfl, rfl⟩ := List.cons.inj split
          refine .inr ⟨[], 2, _, rfl, single_nil, by simp, Nat.le_refl 2, fun third => ?_⟩
          cases piece with
          | nil => exact ends rfl
          | cons e more => exact (single_cons_iff.mp single).1 ⟨rfl, third⟩
    · rcases inductionHypothesis with single | ⟨piece, width, rest, rfl, single, ends, wide, begins⟩
      · exact .inl (single_cons_iff.mpr ⟨pair, single⟩)
      · refine .inr ⟨c :: piece, width, rest, rfl, single_cons_iff.mpr ⟨?_, single⟩, ?_, wide,
          begins⟩
        · rintro ⟨space, second⟩
          exact pair ⟨space, by rw [List.head?_append, second]; rfl⟩
        · cases piece with
          | nil =>
            obtain ⟨more, rfl⟩ : ∃ more, width = more + 2 := ⟨width - 2, by omega⟩
            rintro ⟨⟩
            exact pair ⟨rfl, rfl⟩
          | cons d more => exact ends

/-- Every line is divided into pieces. -/
theorem between_exists (line : Text) : ∃ pieces, Between pieces line := by
  induction size : line.length using Nat.strongRecOn generalizing line with
  | _ size inductionHypothesis =>
    rcases first_run line with single | ⟨piece, width, rest, rfl, single, ends, wide, begins⟩
    · exact ⟨[line], .last line single⟩
    · rw [List.length_append, List.length_append, List.length_replicate] at size
      obtain ⟨pieces, others⟩ := inductionHypothesis rest.length (by omega) rest rfl
      exact ⟨piece :: pieces, .run piece width rest pieces single ends wide begins others⟩

/-- Behind a run that goes as far as there are spaces, the rest begins. -/
theorem dropWhile_run (width : Nat) {rest : Text} (begins : rest.head? ≠ some ' ') :
    (List.replicate width ' ' ++ rest).dropWhile (· == ' ') = rest := by
  rw [List.dropWhile_append_of_pos]
  · cases rest with
    | nil => rfl
    | cons c more =>
      have other : c ≠ ' ' := by simpa using begins
      simp [other]
  · intro c member
    simp [List.eq_of_mem_replicate member]

/-- A text with a run in it has two spaces in a row. -/
theorem not_single_run (piece rest : Text) {width : Nat} (wide : 2 ≤ width) :
    ¬Single (piece ++ (List.replicate width ' ' ++ rest)) := by
  obtain ⟨more, rfl⟩ : ∃ more, width = more + 2 := ⟨width - 2, by omega⟩
  intro single
  exact single ⟨piece, List.replicate more ' ' ++ rest, by simp [List.replicate_succ]⟩

/-- A piece does not go on where a run begins. -/
theorem piece_stops {piece more rest behind : Text} {width : Nat} (single : Single (piece ++ more))
    (ends : (piece ++ more).getLast? ≠ some ' ') (wide : 2 ≤ width)
    (same : List.replicate width ' ' ++ rest = more ++ behind) : more = [] := by
  obtain ⟨others, rfl⟩ : ∃ others, width = others + 2 := ⟨width - 2, by omega⟩
  match more with
  | [] => rfl
  | [c] =>
    obtain ⟨rfl, -⟩ := List.cons.inj same
    exact absurd List.getLast?_concat ends
  | c :: d :: further =>
    obtain ⟨rfl, behindFirst⟩ := List.cons.inj same
    obtain ⟨rfl, -⟩ := List.cons.inj behindFirst
    exact absurd ⟨piece, further, by simp⟩ single

/-- Two ways to begin a line with a piece before a run are the same. -/
theorem run_unique {piece other rest behind : Text} {width number : Nat} (single : Single piece)
    (singleToo : Single other) (ends : piece.getLast? ≠ some ' ')
    (endsToo : other.getLast? ≠ some ' ') (wide : 2 ≤ width) (wideToo : 2 ≤ number)
    (begins : rest.head? ≠ some ' ') (beginsToo : behind.head? ≠ some ' ')
    (same : piece ++ (List.replicate width ' ' ++ rest) =
      other ++ (List.replicate number ' ' ++ behind)) :
    piece = other ∧ rest = behind := by
  have pieces : piece = other := by
    rcases List.append_eq_append_iff.mp same with ⟨more, rfl, follows⟩ | ⟨more, rfl, follows⟩
    · rw [piece_stops singleToo endsToo wide follows, List.append_nil]
    · rw [piece_stops single ends wideToo follows, List.append_nil]
  subst pieces
  refine ⟨rfl, ?_⟩
  rw [← dropWhile_run width begins, List.append_cancel_left same, dropWhile_run number beginsToo]

/-- A line is divided into pieces in one way only. -/
theorem between_unique {line : Text} {pieces others : List Text} (between : Between pieces line)
    (another : Between others line) : others = pieces := by
  induction between generalizing others with
  | last piece single =>
    cases another with
    | last => rfl
    | run first width rest _ _ _ wide => exact absurd single (not_single_run first rest wide)
  | run piece width rest pieces single ends wide begins _ inductionHypothesis =>
    generalize whole : piece ++ (List.replicate width ' ' ++ rest) = line at another
    cases another with
    | last _ singleToo =>
      rw [← whole] at singleToo
      exact absurd singleToo (not_single_run piece rest wide)
    | run other number behind others singleToo endsToo wideToo beginsToo later =>
      obtain ⟨rfl, rfl⟩ := run_unique single singleToo ends endsToo wide wideToo begins beginsToo
        whole
      rw [inductionHypothesis later]

/-! ## Laying out cells -/

namespace Laid

variable {found : List Text} {line : Text}

/-- Cells that are laid out are the pieces of the line. -/
theorem between (laid : Laid found line) (complete : ∀ cell ∈ found, Cell cell)
    (nonempty : found ≠ []) : Between found line := by
  induction laid with
  | none => exact absurd rfl nonempty
  | last cell => exact .last cell (complete cell List.mem_cons_self).single
  | next cell width next cells rest wide others inductionHypothesis =>
    obtain ⟨first, later⟩ := List.forall_mem_cons.mp complete
    have second : Cell next := later next List.mem_cons_self
    obtain ⟨c, more, shape⟩ := List.exists_cons_of_ne_nil second.nonempty
    have head : rest.head? = some c := by
      cases others with
      | last => rw [shape]; rfl
      | next => rw [shape]; rfl
    have edge : ∀ {d : Char}, Text.isBlank d = false → some d ≠ some ' ' := by
      rintro d visible ⟨⟩
      revert visible
      decide
    refine .run cell width rest _ first.single (fun last => ?_) wide ?_
      (inductionHypothesis later (List.cons_ne_nil next cells))
    · exact edge (first.trimmed.last ' ' last) rfl
    · rw [head]
      exact edge (second.trimmed.head c (by rw [shape]; rfl))

/-- The cells of a line are those that were laid out in it, whatever white space is around them. -/
theorem cells_eq (laid : Laid found line) (complete : ∀ cell ∈ found, Cell cell) {lead trail : Text}
    (blankLead : ∀ c ∈ lead, Text.isBlank c = true)
    (blankTrail : ∀ c ∈ trail, Text.isBlank c = true) :
    cells (lead ++ (line ++ trail)) = found := by
  rw [cells_eq_kept, kept_cut_lead blankLead, kept_cut_trail line blankTrail]
  by_cases empty : found = []
  · subst empty
    cases laid
    rfl
  · rw [(laid.between complete empty).kept_eq, kept_self complete]

end Laid

/-- Two spaces are enough between cells. -/
theorem laid_joinWith (found : List Text) : Laid found (Text.joinWith "  ".toList found) := by
  induction found with
  | nil => exact .none
  | cons cell rest inductionHypothesis =>
    cases rest with
    | nil =>
      rw [Text.joinWith, List.intercalate_singleton]
      exact .last cell
    | cons next others =>
      rw [Text.joinWith, List.intercalate_cons_cons, List.append_assoc]
      exact .next cell 2 next others _ (Nat.le_refl 2) inductionHypothesis

/-- An aligned line is formatted cell by cell. Its cells are the trimmed pieces between its runs of
two spaces or more, those that are not empty; nothing but white space is lost. Conversely, however
cells are laid out in a line, with runs of any width between them and white space around them, they
are its cells, and the line is formatted as if there were two spaces between them. -/
theorem formatLine_cells (rules : List Rule) :
    (∀ line, ∃ pieces, (∀ others, Between others line ↔ others = pieces) ∧
      ∃ found, found = (pieces.map Text.trim).filter (fun cell => !cell.isEmpty) ∧
        formatLine rules line = (found.length, joinCells (found.map (applyRules rules))) ∧
        (∀ cell ∈ found, Cell cell) ∧
        found.flatten.filter (fun c => !Text.isBlank c) =
          line.filter fun c => !Text.isBlank c) ∧
    ∀ found, (∀ cell ∈ found, Cell cell) → ∀ line, Laid found line → ∀ lead trail,
      (∀ c ∈ lead, Text.isBlank c = true) → (∀ c ∈ trail, Text.isBlank c = true) →
      formatLine rules (lead ++ (line ++ trail)) =
          (found.length, joinCells (found.map (applyRules rules))) ∧
        formatLine rules (lead ++ (line ++ trail)) =
          formatLine rules (Text.joinWith "  ".toList found) := by
  constructor
  · intro line
    obtain ⟨pieces, between⟩ := between_exists line
    refine ⟨pieces, fun others => ⟨between_unique between, fun same => same ▸ between⟩, kept pieces,
      rfl, ?_, kept_cells between.single, ?_⟩
    · rw [formatLine, cells_eq_kept, between.kept_eq]
    · rw [kept_filter, between.filter_eq]
  · intro found complete line laid lead trail blankLead blankTrail
    have canonical : cells (Text.joinWith "  ".toList found) = found := by
      have plain : cells ([] ++ (Text.joinWith "  ".toList found ++ [])) = found :=
        (laid_joinWith found).cells_eq complete (by simp) (by simp)
      rwa [List.nil_append, List.append_nil] at plain
    rw [formatLine, formatLine, laid.cells_eq complete blankLead blankTrail, canonical]
    exact ⟨rfl, rfl⟩

/-- Three cells with an odd run and an even one between them, and a tab beside each edge. -/
theorem uneven_cells :
    Laid [['x'], "if y".toList, ['z']] "x   if y    z".toList ∧
      formatLine [] ("\t ".toList ++ ("x   if y    z".toList ++ " \t".toList)) =
        (3, "x & if y && z".toList) := by
  have laid : Laid [['x'], "if y".toList, ['z']] "x   if y    z".toList :=
    .next ['x'] 3 "if y".toList [['z']] "if y    z".toList (by decide)
      (.next "if y".toList 4 ['z'] [] ['z'] (by decide) (.last ['z']))
  have complete : ∀ cell ∈ [['x'], "if y".toList, ['z']], Cell cell := by
    intro cell member
    have trimmed : Text.trim cell = cell ∧ cell ≠ [] ∧ ¬[' ', ' '] <:+: cell := by
      revert cell
      decide
    exact ⟨trimmed.2.1, trimmed.1 ▸ Text.trim_trimmed cell, trimmed.2.2⟩
  have formatted := ((formatLine_cells []).2 _ complete _ laid "\t ".toList " \t".toList
    (List.all_eq_true.mp (by decide)) (List.all_eq_true.mp (by decide))).1
  exact ⟨laid, formatted.trans (by decide)⟩

end Manuscript.Alignment
