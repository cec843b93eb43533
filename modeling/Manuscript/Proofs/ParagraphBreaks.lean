import Manuscript.Paragraph
import Manuscript.Proofs.Lines
import Mathlib.Data.List.Forall2
import Mathlib.Data.List.TakeWhile

/-!
# One break for every blank line

Without its comments a text is lines that are not blank, with blank lines before, between and
behind them. Preprocessing keeps the former as they are and in their order, and writes the five
lines of a break for each of the latter, but for the last blank line at the end of the text:
the two passes hand over a text, and there one empty line at the end is the end of the line
before it.

What white space a blank line holds is lost, and comments are gone before blank lines are
counted. So texts that differ in these alone are preprocessed to the same text.
-/

namespace Manuscript.Paragraph

/-- Two hyphens and white space behind any indentation. -/
def Comment (line : Text) : Prop :=
  ∃ indentation c rest, line = indentation ++ '-' :: '-' :: c :: rest ∧
    (∀ d ∈ indentation, Text.isBlank d = true) ∧ Text.isBlank c = true

/-- A line of nothing but white space. -/
def Blank (line : Text) : Prop := ∀ c ∈ line, Text.isBlank c = true

/-- The indentation that is skipped before the hyphens is all there can be, since a hyphen is
not blank. -/
theorem isComment_iff (line : Text) : isComment line = true ↔ Comment line := by
  constructor
  · intro found
    unfold isComment at found
    split at found
    · next c rest begins =>
      refine ⟨line.takeWhile Text.isBlank, c, rest, ?_, ?_, found⟩
      · rw [← begins, List.takeWhile_append_dropWhile]
      · exact fun d member => List.mem_takeWhile_imp member
    · cases found
  · rintro ⟨indentation, c, rest, rfl, blank, ends⟩
    have skipped : (indentation ++ '-' :: '-' :: c :: rest).dropWhile Text.isBlank =
        '-' :: '-' :: c :: rest := by
      rw [List.dropWhile_append_of_pos blank]
      rfl
    rw [isComment, skipped]
    exact ends

theorem isBlankLine_iff (line : Text) : isBlankLine line = true ↔ Blank line := List.all_eq_true

instance (line : Text) : Decidable (Comment line) := decidable_of_iff _ (isComment_iff line)

instance (line : Text) : Decidable (Blank line) := decidable_of_iff _ (isBlankLine_iff line)

/-- The lines of a text that are no comments. -/
def uncommented (text : Text) : List Text :=
  (Text.lines text).filter fun line => ¬Comment line

/-- A line as the first pass leaves it. -/
def emptied (line : Text) : Text := if Blank line then [] else line

/-- The lines of a break. -/
def breakLines : List Text :=
  [[], "<!-- -->".toList, "\\par".toList, "<!-- -->".toList, []]

/-- What the second pass writes for a line. -/
def broken (line : Text) : List Text := if line = [] then breakLines else [line]

/-- A number of breaks behind each other. -/
def breaks (count : Nat) : List Text := (List.replicate count breakLines).flatten

/-- Blank lines, and then lines that are not blank, each with the blank lines behind it. -/
structure Layout where
  leading : List Text
  body : List (Text × List Text)
  leading_blank : ∀ line ∈ leading, Blank line
  body_text : ∀ part ∈ body, ¬Blank part.1
  body_blank : ∀ part ∈ body, ∀ line ∈ part.2, Blank line

/-- Lines, each before the blank lines behind it. -/
def bodyLines (body : List (Text × List Text)) : List Text :=
  body.flatMap fun part => part.1 :: part.2

/-- Lines, each before the breaks for the blank lines behind it. At the end there is one break
less than there are blank lines. -/
def bodyWithBreaks : List (Text × List Text) → List Text
  | [] => []
  | [(line, gap)] => line :: breaks (gap.length - 1)
  | (line, gap) :: next :: rest => line :: breaks gap.length ++ bodyWithBreaks (next :: rest)

/-- The lines that have a layout. -/
def Layout.lines (layout : Layout) : List Text := layout.leading ++ bodyLines layout.body

/-- The lines of a layout with breaks in place of the blank ones. -/
def Layout.withBreaks (layout : Layout) : List Text :=
  match layout.body with
  | [] => breaks (layout.leading.length - 1)
  | body => breaks layout.leading.length ++ bodyWithBreaks body

/-- Lines that differ at most in the white space that blank ones hold. -/
def SameLine (line other : Text) : Prop := line = other ∨ (Blank line ∧ Blank other)

/-- All lines have a layout. -/
theorem layout_exists (lines : List Text) : ∃ layout : Layout, layout.lines = lines := by
  induction lines with
  | nil => exact ⟨⟨[], [], nofun, nofun, nofun⟩, rfl⟩
  | cons line rest inductionHypothesis =>
    obtain ⟨layout, same⟩ := inductionHypothesis
    by_cases blank : Blank line
    · refine ⟨⟨line :: layout.leading, layout.body, ?_, layout.body_text, layout.body_blank⟩, ?_⟩
      · exact List.forall_mem_cons.mpr ⟨blank, layout.leading_blank⟩
      · exact congrArg (line :: ·) same
    · refine ⟨⟨[], (line, layout.leading) :: layout.body, nofun, ?_, ?_⟩, ?_⟩
      · exact List.forall_mem_cons.mpr ⟨blank, layout.body_text⟩
      · exact List.forall_mem_cons.mpr ⟨layout.leading_blank, layout.body_blank⟩
      · exact congrArg (line :: ·) same

/-- The first pass drops the comments and empties the blank lines. -/
theorem keptLines_eq (text : Text) :
    keptLines (Text.lines text) = (uncommented text).map emptied := by
  have kept (line : Text) : (!isComment line) = decide (¬Comment line) := by
    simp only [← isComment_iff, Bool.not_eq_true, Bool.decide_eq_false]
  have left (line : Text) : (if isBlankLine line = true then [] else line) = emptied line := by
    simp only [emptied, isBlankLine_iff]
  simp only [keptLines, uncommented, kept, left]

/-- The parts of a break, cut at their line feeds, are its lines. -/
theorem breakMarker_pieces : breakMarker.flatMap Text.pieces = breakLines := by decide

/-- The second pass writes what it writes for each line, one below the other. -/
theorem addBreaks_eq (text : Text) :
    addBreaks text = Text.unlines ((Text.lines text).flatMap broken) := by
  have each (line : Text) (member : line ∈ Text.lines text) :
      (if line.isEmpty = true then breakMarker else [line]).flatMap Text.pieces =
        broken line := by
    unfold broken
    by_cases empty : line = []
    · rw [if_pos empty, if_pos (List.isEmpty_iff.mpr empty), breakMarker_pieces]
    · rw [if_neg empty, if_neg (mt List.isEmpty_iff.mp empty), List.flatMap_singleton,
        Text.pieces_plain line (Text.lines_no_feed text line member)]
  calc addBreaks text
      = Text.unlines ((Text.lines text).flatMap
          fun line => if line.isEmpty then breakMarker else [line]) := by
        rw [addBreaks, groups, Text.intercalate_splitOnP]
    _ = Text.unlines ((Text.lines text).flatMap
          fun line =>
            (if line.isEmpty = true then breakMarker else [line]).flatMap Text.pieces) := by
        rw [← Text.unlines_flatMap_pieces, List.flatMap_assoc]
    _ = Text.unlines ((Text.lines text).flatMap broken) := by
        rw [List.flatMap_congr each]

/-- A line that is emptied or kept holds no line feed if it held none. -/
theorem emptied_no_feed (line : Text) (plain : '\n' ∉ line) : '\n' ∉ emptied line := by
  unfold emptied
  split
  · exact List.not_mem_nil
  · exact plain

/-- The lines of a text without comments hold no line feeds, also emptied ones. -/
theorem emptied_lines_no_feed (text : Text) :
    ∀ line ∈ (uncommented text).map emptied, '\n' ∉ line := by
  intro line member
  obtain ⟨original, known, rfl⟩ := List.mem_map.mp member
  apply emptied_no_feed
  exact Text.lines_no_feed text original (List.mem_filter.mp known).1

/-- Both passes together: what the second pass writes for the lines that the first one left,
less one empty line at their end, which the text between the passes does not show. -/
theorem preprocess_eq (text : Text) :
    preprocess text =
      Text.unlines ((Text.dropFinalEmpty ((uncommented text).map emptied)).flatMap broken) := by
  rw [preprocess, addBreaks_eq, stripComments, keptLines_eq,
    Text.lines_unlines _ (emptied_lines_no_feed text)]

/-- For empty lines breaks are written. -/
theorem flatMap_broken_replicate (count : Nat) :
    (List.replicate count ([] : Text)).flatMap broken = breaks count := by
  rw [breaks, List.flatMap_replicate]
  rfl

/-- Blank lines are emptied one by one. -/
theorem map_emptied_blank (lines : List Text) (blank : ∀ line ∈ lines, Blank line) :
    lines.map emptied = List.replicate lines.length [] := by
  rw [List.map_eq_replicate_iff.mpr]
  intro line member
  exact if_pos (blank line member)

/-- Of empty lines at the end one is dropped, if there is any. -/
theorem dropFinalEmpty_blank (line : Text) (filled : line ≠ []) (count : Nat) :
    Text.dropFinalEmpty (line :: List.replicate count []) =
      line :: List.replicate (count - 1) [] := by
  cases count with
  | zero => simp [Text.dropFinalEmpty, filled]
  | succ count =>
    rw [List.replicate_succ', ← List.cons_append, Text.dropFinalEmpty_append _ _ (by simp)]
    exact List.append_nil _

/-- Of empty lines alone one is dropped, if there is any. -/
theorem dropFinalEmpty_replicate (count : Nat) :
    Text.dropFinalEmpty (List.replicate count []) = List.replicate (count - 1) [] := by
  cases count with
  | zero => rfl
  | succ count =>
    rw [List.replicate_succ', Text.dropFinalEmpty_append _ _ (by simp)]
    exact List.append_nil _

/-- A line that is not blank stays as it is, and is no empty line. -/
theorem emptied_text (line : Text) (text : ¬Blank line) : emptied line = line ∧ line ≠ [] := by
  refine ⟨if_neg text, ?_⟩
  rintro rfl
  exact text nofun

/-- Breaks take the places of the blank lines behind lines that are not blank. The induction
is on those lines; only the last of them is followed by the end. -/
theorem broken_body (body : List (Text × List Text)) (nonempty : body ≠ [])
    (text : ∀ part ∈ body, ¬Blank part.1)
    (blank : ∀ part ∈ body, ∀ line ∈ part.2, Blank line) :
    (Text.dropFinalEmpty ((bodyLines body).map emptied)).flatMap broken =
      bodyWithBreaks body := by
  induction body with
  | nil => exact absurd rfl nonempty
  | cons part rest inductionHypothesis =>
    obtain ⟨line, gap⟩ := part
    obtain ⟨lineText, restText⟩ := List.forall_mem_cons.mp text
    obtain ⟨gapBlank, restBlank⟩ := List.forall_mem_cons.mp blank
    obtain ⟨same, filled⟩ := emptied_text line lineText
    have first : (line :: gap).map emptied = line :: List.replicate gap.length [] := by
      rw [List.map_cons, same, map_emptied_blank gap gapBlank]
    have written : broken line = [line] := if_neg filled
    cases rest with
    | nil =>
      rw [bodyLines, List.flatMap_singleton, first, dropFinalEmpty_blank line filled,
        List.flatMap_cons, written, flatMap_broken_replicate]
      rfl
    | cons next later =>
      have more : (bodyLines (next :: later)).map emptied ≠ [] := by simp [bodyLines]
      have split : bodyLines ((line, gap) :: next :: later) =
          (line :: gap) ++ bodyLines (next :: later) := rfl
      rw [split, List.map_append, first, Text.dropFinalEmpty_append _ _ more,
        List.flatMap_append, inductionHypothesis (by simp) restText restBlank, List.flatMap_cons,
        written, flatMap_broken_replicate]
      rfl

/-- Breaks take the places of the blank lines of a layout. -/
theorem broken_layout (layout : Layout) :
    (Text.dropFinalEmpty (layout.lines.map emptied)).flatMap broken = layout.withBreaks := by
  have leading := map_emptied_blank layout.leading layout.leading_blank
  unfold Layout.lines Layout.withBreaks
  split
  · next empty =>
    rw [empty, bodyLines, List.flatMap_nil, List.append_nil, leading, dropFinalEmpty_replicate,
      flatMap_broken_replicate]
  · next body nonempty =>
    have more : (bodyLines layout.body).map emptied ≠ [] := by
      obtain ⟨part, rest, shape⟩ := List.exists_cons_of_ne_nil nonempty
      rw [shape]
      simp [bodyLines]
    rw [List.map_append, leading, Text.dropFinalEmpty_append _ _ more, List.flatMap_append,
      flatMap_broken_replicate, broken_body layout.body nonempty layout.body_text
        layout.body_blank]

/-- Lines that differ at most in the white space of blank ones are emptied alike. -/
theorem emptied_same {line other : Text} (same : SameLine line other) :
    emptied line = emptied other := by
  rcases same with rfl | ⟨blank, otherBlank⟩
  · rfl
  · rw [emptied, emptied, if_pos blank, if_pos otherBlank]

/-- Texts with such lines leave the first pass alike. -/
theorem map_emptied_same {lines others : List Text} (same : List.Forall₂ SameLine lines others) :
    lines.map emptied = others.map emptied := by
  induction same with
  | nil => rfl
  | cons first rest inductionHypothesis =>
    rw [List.map_cons, List.map_cons, emptied_same first, inductionHypothesis]

/-- Preprocessing writes the lines of a text that are neither comments nor blank, unchanged and
in their order, and five lines for each blank one: as many breaks as there are blank lines
before the first of them and between two neighbours, and one less than there are behind the
last, or in all where there is no other line. The text that is written has these lines, none
of them cut by a line feed of its own. Texts whose lines without comments differ at most in
the white space that blank ones hold are preprocessed to the same text. -/
theorem preprocess_layout (text : Text) :
    (∃ layout : Layout, layout.lines = uncommented text) ∧
    (∀ layout : Layout, layout.lines = uncommented text →
      preprocess text = Text.unlines layout.withBreaks ∧
      (layout.withBreaks ≠ [] → Text.pieces (preprocess text) = layout.withBreaks)) ∧
    ∀ other : Text, List.Forall₂ SameLine (uncommented text) (uncommented other) →
      preprocess other = preprocess text := by
  refine ⟨layout_exists _, ?_, ?_⟩
  · intro layout same
    have written : preprocess text = Text.unlines layout.withBreaks := by
      rw [preprocess_eq, ← same, broken_layout]
    refine ⟨written, ?_⟩
    intro nonempty
    rw [written]
    apply Text.pieces_unlines _ nonempty
    intro line member
    rw [← broken_layout, same] at member
    obtain ⟨original, known, inside⟩ := List.mem_flatMap.mp member
    have plain : '\n' ∉ original :=
      emptied_lines_no_feed text original ((Text.dropFinalEmpty_sublist _).subset known)
    unfold broken at inside
    split at inside
    · exact (by decide : ∀ line ∈ breakLines, '\n' ∉ line) line inside
    · exact List.mem_singleton.mp inside ▸ plain
  · intro other alike
    rw [preprocess_eq, preprocess_eq, map_emptied_same alike]

/-- Two lines with a comment between blank lines, and two blank lines at the end. -/
def draft : Text := "a\n \n-- b\n\n  c\n\n\n".toList

/-- The draft with its blank lines emptied and without its comment. -/
def cleaned : Text := "a\n\n\n  c\n\t\n\n".toList

/-- The blank lines of the draft. -/
def draftLayout : Layout where
  leading := []
  body := [(['a'], [[' '], []]), ("  c".toList, [[], []])]
  leading_blank := nofun
  body_text := by decide
  body_blank := by decide

/-- Two breaks in the middle of the draft, and one at its end. -/
theorem draft_layout :
    draftLayout.lines = uncommented draft ∧
      preprocess draft = Text.unlines draftLayout.withBreaks ∧
      Text.pieces (preprocess draft) =
        ['a'] :: breakLines ++ breakLines ++ "  c".toList :: breakLines ∧
      List.Forall₂ SameLine (uncommented draft) (uncommented cleaned) ∧
      preprocess cleaned = preprocess draft := by
  have laidOut : draftLayout.lines = uncommented draft := by decide
  have alike : List.Forall₂ SameLine (uncommented draft) (uncommented cleaned) := by
    have same (line : Text) : SameLine line line := .inl rfl
    have blank : SameLine [' '] [] ∧ SameLine [] ['\t'] := by
      constructor <;> exact .inr (by decide)
    exact .cons (same _) (.cons blank.1 (.cons (same _) (.cons (same _)
      (.cons blank.2 (.cons (same _) .nil)))))
  obtain ⟨-, written, others⟩ := preprocess_layout draft
  obtain ⟨joined, pieces⟩ := written draftLayout laidOut
  exact ⟨laidOut, joined, pieces (by decide), alike, others cleaned alike⟩

end Manuscript.Paragraph
