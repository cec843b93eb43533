import Manuscript.Proofs.Occurrences
import Manuscript.Proofs.WholeWord

/-!
# What a word rule leaves to its second pass

A word rule leaves a text alone exactly if no occurrence of its search text is eligible there,
because the space that it writes before a replacement differs from what stands in that place.

One pass can leave eligible occurrences behind: of two words with one character between them the
second has lost its neighbour to the first. Where the search text consists of word characters
only and does not occur in the replacement, these are the only ones. No eligible occurrence
reaches over one of the spaces around a replacement or lies between them, so what is eligible
after the pass stands in a stretch of text that was copied, and there it was eligible before. The
pass would have picked it unless it stands right at the cursor, behind a neighbour that the hit
before it has taken along.

After the pass such a word has two characters of its own before it, the space behind the hit and
the neighbour that was taken along. A second pass therefore picks all of them, and leaves none.
-/

namespace Manuscript.WholeWord

open Text (prefix_apart_iff infix_apart)

variable {search replace text : Text}

/-- A character that separates words is no word character. -/
theorem Separates.notWord {c : Char} (separates : Separates c) : Text.isWordChar c = false := by
  rcases separates with rfl | ⟨plain, -⟩
  · decide
  · exact plain

/-- The character at a position is the one before the next position. -/
theorem before_next {position : Nat} (inside : position < text.length) :
    before? text (position + 1) = text[position]? := by
  rw [before?, List.take_add_one, List.getElem?_eq_getElem inside, Option.toList_some,
    List.getLast?_concat]

/-- Before a position of the front there is what is there in the whole text. -/
theorem before_front (front back : Text) {position : Nat} (within : position ≤ front.length) :
    before? (front ++ back) position = before? front position := by
  rw [before?, List.take_append_of_le_length within, before?]

/-- Before a position behind a character there is that character or what comes after it. -/
theorem before_back (front back : Text) (c : Char) (offset : Nat) :
    before? (front ++ c :: back) (front.length + 1 + offset) =
      some ((before? back offset).getD c) := by
  have shape : (front ++ c :: back).take (front.length + 1 + offset) =
      front ++ c :: back.take offset := by
    rw [Nat.add_assoc, List.take_length_add_append, Nat.add_comm 1 offset, List.take_succ_cons]
  rw [before?, before?, shape, List.getLast?_append, List.getLast?_cons]
  rfl

/-- The characters of an occurrence are those of the search text. -/
theorem occurs_char {position offset : Nat} (occurs : search <+: text.drop position)
    (within : offset < search.length) : text[position + offset]? = some search[offset] := by
  have found := List.prefix_iff_getElem?.mp occurs offset within
  rwa [List.getElem?_drop] at found

/-- A separating character that the search text does not hold is an edge for the text on either
side of it. -/
theorem eligible_apart (nonempty : search ≠ []) {c : Char} (separates : Separates c)
    (apart : c ∉ search) (front back : Text) (position : Nat) :
    Eligible search (front ++ c :: back) position ↔
      Eligible search front position ∨
        ∃ offset, position = front.length + 1 + offset ∧ Eligible search back offset := by
  constructor
  · intro eligible
    rcases Nat.lt_or_ge front.length position with beyond | within
    · obtain ⟨offset, rfl⟩ := Nat.exists_eq_add_of_le beyond
      refine .inr ⟨offset, rfl, ?_, ?_, ?_⟩
      · have occurs := eligible.occurs
        rwa [Nat.succ_eq_add_one, Nat.add_assoc, List.drop_length_add_append, Nat.add_comm 1 offset,
          List.drop_succ_cons] at occurs
      · intro d neighbour
        refine eligible.left d ?_
        rw [Nat.succ_eq_add_one, before_back, Option.mem_def.mp neighbour]
        rfl
      · intro d neighbour
        refine eligible.right d ?_
        rw [Nat.succ_eq_add_one, Nat.add_assoc, Nat.add_assoc, Nat.add_comm 1,
          List.getElem?_append_right (Nat.le_add_right _ _), Nat.add_sub_cancel_left]
        exact neighbour
    · have occurs := eligible.occurs
      rw [List.drop_append_of_le_length within, prefix_apart_iff apart] at occurs
      refine .inl ⟨occurs, ?_, ?_⟩
      · rw [← before_front front (c :: back) within]
        exact eligible.left
      · intro d neighbour
        have inside : position + search.length < front.length :=
          (List.getElem?_eq_some_iff.mp neighbour).1
        refine eligible.right d ?_
        rw [List.getElem?_append_left inside]
        exact neighbour
  · rintro (eligible | ⟨offset, rfl, eligible⟩)
    · obtain ⟨enough, inside⟩ := eligible_inside search front position nonempty eligible
      refine ⟨?_, ?_, ?_⟩
      · rw [List.drop_append_of_le_length inside.le, prefix_apart_iff apart]
        exact eligible.occurs
      · rw [before_front front (c :: back) inside.le]
        exact eligible.left
      · intro d neighbour
        rcases Nat.lt_or_ge (position + search.length) front.length with before | atEnd
        · rw [List.getElem?_append_left before] at neighbour
          exact eligible.right d neighbour
        · have last : position + search.length = front.length := Nat.le_antisymm enough atEnd
          rw [last, List.getElem?_append_right (Nat.le_refl _), Nat.sub_self] at neighbour
          obtain rfl : c = d := Option.some.inj neighbour
          exact separates
    · refine ⟨?_, ?_, ?_⟩
      · rw [Nat.add_assoc, List.drop_length_add_append, Nat.add_comm 1 offset, List.drop_succ_cons]
        exact eligible.occurs
      · intro d neighbour
        rw [before_back] at neighbour
        cases previous : before? back offset with
        | none =>
          rw [previous] at neighbour
          obtain rfl : c = d := Option.some.inj neighbour
          exact separates
        | some e =>
          rw [previous] at neighbour
          obtain rfl : e = d := Option.some.inj neighbour
          exact eligible.left e previous
      · intro d neighbour
        refine eligible.right d ?_
        rwa [Nat.add_assoc, Nat.add_assoc, Nat.add_comm 1,
          List.getElem?_append_right (Nat.le_add_right _ _), Nat.add_sub_cancel_left] at neighbour

/-- A search text of word characters only. -/
structure WordsOnly (search : Text) : Prop where
  nonempty : search ≠ []
  words : ∀ c ∈ search, Text.isWordChar c = true

/-- Such a search text holds no character that separates words. -/
theorem WordsOnly.apart (only : WordsOnly search) {c : Char} (separates : Separates c) :
    c ∉ search := by
  intro member
  have word : Text.isWordChar c = true := only.words c member
  rw [separates.notWord] at word
  cases word

/-- No character of an occurrence of it separates words. -/
theorem WordsOnly.inside (only : WordsOnly search) {position other : Nat} {c : Char}
    (occurs : search <+: text.drop position) (lower : position ≤ other)
    (upper : other < position + search.length) (found : text[other]? = some c) :
    ¬Separates c := by
  obtain ⟨offset, rfl⟩ := Nat.exists_eq_add_of_le lower
  have within : offset < search.length := by omega
  rw [occurs_char occurs within] at found
  obtain rfl : search[offset] = c := Option.some.inj found
  exact fun separates => only.apart separates (List.getElem_mem within)

/-- Two eligible words have a character between them. -/
theorem WordsOnly.gap (only : WordsOnly search) {first second : Nat}
    (one : Eligible search text first) (other : Eligible search text second)
    (before : first < second) : first + search.length + 1 ≤ second := by
  by_contra near
  obtain ⟨_, inside⟩ := eligible_inside search text second only.nonempty other
  obtain ⟨previous, rfl⟩ : ∃ previous, second = previous + 1 := ⟨second - 1, by omega⟩
  have found : text[previous]? = some text[previous] := List.getElem?_eq_getElem (by omega)
  have neighbour : before? text (previous + 1) = some text[previous] := by
    rw [before_next (by omega), found]
  exact only.inside one.occurs (by omega) (by omega) found (other.left _ neighbour)

/-- Where the search text stands right behind a hit, the hit has taken a neighbour along. -/
theorem WordsOnly.consumed (only : WordsOnly search) {hit : Nat}
    (stands : search <+: text.drop (behind search text hit)) :
    ∃ c, text[hit + search.length]? = some c ∧ trail text (hit + search.length) = [c] := by
  cases found : text[hit + search.length]? with
  | none =>
    have ends : behind search text hit = hit + search.length := by
      simp [behind, trail, carried, found]
    rw [ends, List.drop_eq_nil_of_le (List.getElem?_eq_none_iff.mp found)] at stands
    exact absurd (List.prefix_nil.mp stands) only.nonempty
  | some c =>
    by_cases feed : c = '\n'
    · subst feed
      have ends : behind search text hit = hit + search.length := by
        simp [behind, trail, carried, found]
      rw [ends] at stands
      have positive : 0 < search.length := List.length_pos_iff.mpr only.nonempty
      exact absurd (.inl rfl) (only.inside stands (Nat.le_refl _) (by omega) found)
    · exact ⟨c, rfl, by simp [trail, carried, found, feed, Option.filter]⟩

/-- The search text does not stand at a cursor behind a character that belongs to a word. -/
def Clear (search text : Text) (cursor : Nat) : Prop :=
  search <+: text.drop cursor → ∀ c ∈ before? text cursor, Separates c

/-- A scan goes on at a clear cursor behind each of its hits. -/
theorem WordsOnly.clear_behind (only : WordsOnly search) {hit : Nat}
    (eligible : Eligible search text hit) : Clear search text (behind search text hit) := by
  intro stands c neighbour
  obtain ⟨d, found, taken⟩ := only.consumed stands
  have inside : hit + search.length < text.length := (List.getElem?_eq_some_iff.mp found).1
  have ends : behind search text hit = hit + search.length + 1 := by simp [behind, taken]
  rw [ends, before_next inside] at neighbour
  exact eligible.right c neighbour

/-- A cursor leaves room for a word right behind it only at a line start. -/
theorem reachable_self_iff (text : Text) (cursor : Nat) :
    Reachable text cursor cursor ↔ LineStart text cursor := by
  constructor
  · rintro (⟨atStart, -⟩ | ⟨-, beyond⟩)
    · exact atStart
    · omega
  · exact fun atStart => .inl ⟨atStart, Nat.le_refl cursor⟩

/-- What is eligible in a stretch of copied text was eligible before and stands where the cursor
left no room for it, provided that the stretch ends where a word may end. -/
theorem WordsOnly.segment_iff (only : WordsOnly search) {cursor width : Nat}
    (clear : Clear search text cursor)
    (passed : ∀ position, position + search.length ≤ cursor + width →
      Eligible search text position → ¬Reachable text cursor position)
    (edge : ∀ position, position + search.length = cursor + width →
      search <+: text.drop position → ∀ c ∈ text[cursor + width]?, Separates c) (place : Nat) :
    Eligible search ((text.drop cursor).take width) place ↔
      place = 0 ∧ search.length ≤ width ∧ Eligible search text cursor ∧
        ¬LineStart text cursor := by
  constructor
  · intro eligible
    obtain ⟨enough, inside⟩ := eligible_inside search _ place only.nonempty eligible
    have short : ((text.drop cursor).take width).length ≤ width := List.length_take_le _ _
    have stands : search <+: text.drop (cursor + place) := by
      have occurs := eligible.occurs
      rw [List.drop_take, List.drop_drop] at occurs
      exact occurs.trans (List.take_prefix _ _)
    have known : ∀ other < width, ((text.drop cursor).take width)[other]? =
        text[cursor + other]? := by
      intro other before
      rw [List.getElem?_take_of_lt before, List.getElem?_drop]
    have before : Eligible search text (cursor + place) := by
      refine ⟨stands, ?_, ?_⟩
      · cases place with
        | zero => exact clear stands
        | succ previous =>
          intro c neighbour
          have within : cursor + previous < text.length := by
            have bound := List.length_take_le' width (text.drop cursor)
            rw [List.length_drop] at bound
            omega
          rw [← Nat.add_assoc, before_next within] at neighbour
          refine eligible.left c ?_
          rwa [before_next (by omega), known previous (by omega)]
      · intro c neighbour
        rcases Nat.lt_or_ge (place + search.length) width with within | beyond
        · refine eligible.right c ?_
          rwa [known _ within, ← Nat.add_assoc]
        · have last : cursor + place + search.length = cursor + width := by omega
          rw [last] at neighbour
          exact edge (cursor + place) last stands c neighbour
    have unreached := passed (cursor + place) (by omega) before
    rw [reachable_iff] at unreached
    have atCursor : place = 0 := by
      have single := lead_length text (cursor + place)
      omega
    subst atCursor
    rw [← reachable_iff, Nat.add_zero, reachable_self_iff] at unreached
    exact ⟨rfl, by omega, before, unreached⟩
  · rintro ⟨rfl, enough, eligible, -⟩
    refine ⟨?_, by simp [before?], ?_⟩
    · rw [List.drop_zero]
      exact List.prefix_take_iff.mpr ⟨eligible.occurs, enough⟩
    · intro c neighbour
      rw [Nat.zero_add] at neighbour
      have within : search.length < width := by
        have inside := (List.getElem?_eq_some_iff.mp neighbour).1
        have short := List.length_take_le width (text.drop cursor)
        omega
      rw [List.getElem?_take_of_lt within, List.getElem?_drop] at neighbour
      exact eligible.right c neighbour

/-- A cursor leaves room for every word that a scan from it picks. -/
theorem scan_room {cursor : Nat} {hits : List Nat} (only : WordsOnly search)
    (scan : Scan search text cursor hits) : ∀ hit ∈ hits, Reachable text cursor hit := by
  induction scan with
  | done => simp
  | pick cursor hit later eligible reachable _ _ inductionHypothesis =>
    refine List.forall_mem_cons.mpr ⟨reachable, ?_⟩
    intro other member
    have further := inductionHypothesis other member
    obtain ⟨advances, -⟩ := behind_inside search text hit only.nonempty eligible
    rw [reachable_iff] at reachable further ⊢
    omega

/-- Behind the last hit nothing is left but a word that stands right there. -/
theorem eligible_rest_iff (only : WordsOnly search) {cursor : Nat}
    (clear : Clear search text cursor)
    (exhausted : ∀ position, Eligible search text position → ¬Reachable text cursor position)
    (place : Nat) :
    Eligible search (text.drop cursor) place ↔ place = 0 ∧ Eligible search text cursor := by
  have whole : (text.drop cursor).take text.length = text.drop cursor :=
    List.take_of_length_le (by rw [List.length_drop]; omega)
  rw [← whole, only.segment_iff clear (fun position _ => exhausted position) (by simp)]
  constructor
  · rintro ⟨rfl, -, eligible, -⟩
    exact ⟨rfl, eligible⟩
  · rintro ⟨rfl, eligible⟩
    obtain ⟨enough, -⟩ := eligible_inside search text cursor only.nonempty eligible
    have unreached := exhausted cursor eligible
    rw [reachable_self_iff] at unreached
    exact ⟨rfl, by omega, eligible, unreached⟩

/-- What is taken along from beside a word is nothing or its neighbour. -/
theorem carried_cases (neighbour : Option Char) :
    carried neighbour = [] ∨ ∃ c, neighbour = some c ∧ carried neighbour = [c] := by
  cases neighbour with
  | none => exact .inl rfl
  | some c =>
    by_cases feed : c = '\n'
    · exact .inl (by simp [carried, feed])
    · exact .inr ⟨c, rfl, by simp [carried, feed, Option.filter]⟩

/-- A separating character is no part of an occurrence, so the search text does not occur in a
replacement between two of them either. -/
theorem WordsOnly.absent_between (only : WordsOnly search) (fresh : ¬search <:+: replace)
    {before after : Option Char} (left : ∀ c ∈ before, Separates c)
    (right : ∀ c ∈ after, Separates c) :
    ¬search <:+: carried before ++ replace ++ carried after := by
  have absentBefore : ¬search <:+: carried before ++ replace := by
    rcases carried_cases before with empty | ⟨c, rfl, single⟩
    · rwa [empty]
    · rw [single]
      intro occurs
      rcases infix_apart (only.apart (left c rfl)) [] replace occurs with nowhere | inside
      · exact only.nonempty (List.infix_nil.mp nowhere)
      · exact fresh inside
  rcases carried_cases after with empty | ⟨c, rfl, single⟩
  · rwa [empty, List.append_nil]
  · rw [single]
    intro occurs
    rcases infix_apart (only.apart (right c rfl)) _ [] occurs with inside | nowhere
    · exact absentBefore inside
    · exact only.nonempty (List.infix_nil.mp nowhere)

/-- The stretch before a picked word ends before a neighbour that separates words, or behind a
line feed, where no word ends. -/
theorem WordsOnly.stretch_edge (only : WordsOnly search) {hit : Nat}
    (eligible : Eligible search text hit) (inside : hit ≤ text.length) {position : Nat}
    (occurs : search <+: text.drop position)
    (ends : position + search.length = hit - (lead text hit).length) :
    ∀ c ∈ text[hit - (lead text hit).length]?, Separates c := by
  intro c found
  have positive : 0 < search.length := List.length_pos_iff.mpr only.nonempty
  obtain ⟨previous, rfl⟩ : ∃ previous, hit = previous + 1 := ⟨hit - 1, by omega⟩
  have here : text[previous]? = some text[previous] := List.getElem?_eq_getElem (by omega)
  have neighbour : before? text (previous + 1) = some text[previous] := by
    rw [before_next (by omega), here]
  rcases carried_cases (before? text (previous + 1)) with empty | ⟨d, known, single⟩
  · have atStart := (lead_nil_iff text (previous + 1)).mp empty
    rw [lead_lineStart text _ atStart, List.length_nil, Nat.sub_zero] at ends
    have feed : Separates text[previous] := .inl (atStart _ neighbour)
    exact absurd feed (only.inside occurs (by omega) (by omega) here)
  · rw [lead, single, List.length_singleton, Nat.add_sub_cancel] at found
    exact eligible.left c (neighbour.trans (here.symm.trans found))

/-- What a scan writes between its cursor and the rest behind a picked word: the stretch before
the word, its replacement, the neighbour behind it and two spaces. -/
def pickedWidth (search replace text : Text) (cursor hit : Nat) : Nat :=
  hit - cursor + replace.length + (trail text (hit + search.length)).length + 2

/-- What is eligible in a copy with a picked word is a word at its cursor that lost its neighbour,
or it is eligible in the copy of the rest. -/
theorem eligible_pick_iff (only : WordsOnly search) (fresh : ¬search <:+: replace)
    {cursor hit : Nat} {later : List Nat} (clear : Clear search text cursor)
    (eligible : Eligible search text hit) (reachable : Reachable text cursor hit)
    (least : ∀ other < hit, Eligible search text other → ¬Reachable text cursor other)
    (place : Nat) :
    Eligible search (copyWith (padded replace) search text cursor (hit :: later)) place ↔
      (place = 0 ∧ Eligible search text cursor ∧ ¬LineStart text cursor) ∨
        ∃ offset, place = pickedWidth search replace text cursor hit + offset ∧
          Eligible search
            (copyWith (padded replace) search text (behind search text hit) later) offset := by
  rw [reachable_iff] at reachable
  obtain ⟨-, inside⟩ := eligible_inside search text hit only.nonempty eligible
  obtain ⟨width, starts⟩ : ∃ width, cursor + width = hit - (lead text hit).length :=
    ⟨hit - (lead text hit).length - cursor, by omega⟩
  have same : hit - (lead text hit).length - cursor = width := by omega
  have space : Separates ' ' := by decide
  have spaceless : ' ' ∉ search := only.apart space
  have positive : 0 < search.length := List.length_pos_iff.mpr only.nonempty
  have stretch : ∀ place, Eligible search ((text.drop cursor).take width) place ↔
      place = 0 ∧ search.length ≤ width ∧ Eligible search text cursor ∧ ¬LineStart text cursor :=
    only.segment_iff clear (fun position bound => least position (by omega))
      (fun position ends occurs =>
        starts ▸ only.stretch_edge eligible inside.le occurs (starts ▸ ends))
  have middle := only.absent_between fresh eligible.left eligible.right
  have shape : copyWith (padded replace) search text cursor (hit :: later) =
      (text.drop cursor).take width ++
        ' ' :: ((lead text hit ++ replace ++ trail text (hit + search.length)) ++
          ' ' :: copyWith (padded replace) search text (behind search text hit) later) := by
    simp [copyWith, padded, same]
  have written : ((text.drop cursor).take width).length + 1 +
      ((lead text hit ++ replace ++ trail text (hit + search.length)).length + 1) =
        pickedWidth search replace text cursor hit := by
    simp only [List.length_take, List.length_drop, List.length_append, pickedWidth]
    omega
  rw [shape, eligible_apart only.nonempty space spaceless, stretch]
  constructor
  · rintro (⟨rfl, -, here, lost⟩ | ⟨offset, rfl, further⟩)
    · exact .inl ⟨rfl, here, lost⟩
    · rcases (eligible_apart only.nonempty space spaceless _ _ _).mp further with
        between | ⟨offset, rfl, later⟩
      · exact absurd (between.occurs.isInfix.trans (List.drop_suffix _ _).isInfix) middle
      · exact .inr ⟨offset, by omega, later⟩
  · rintro (⟨rfl, here, lost⟩ | ⟨offset, rfl, later⟩)
    · have apart : cursor ≠ hit := by
        rintro rfl
        exact lost ((lead_nil_iff text cursor).mp (List.length_eq_zero_iff.mp (by omega)))
      have gap := only.gap here eligible (by omega)
      have short := lead_length text hit
      exact .inl ⟨rfl, by omega, here, lost⟩
    · exact .inr ⟨_, by rw [← written]; omega,
        (eligible_apart only.nonempty space spaceless _ _ _).mpr (.inr ⟨offset, rfl, later⟩)⟩

/-- Every hit before a position has been written as its replacement with two spaces, which moves
what stands there by the difference. -/
def Moved (search replace : Text) (hits : List Nat) (position place : Nat) : Prop :=
  place + hits.countP (· < position) * search.length =
    position + hits.countP (· < position) * (replace.length + 2)

/-- What stands before all hits is not moved. -/
theorem moved_self {hits : List Nat} {position : Nat}
    (first : ∀ hit ∈ hits, position ≤ hit) : Moved search replace hits position position := by
  have none : hits.countP (· < position) = 0 := by
    rw [List.countP_eq_zero]
    intro hit member
    rw [decide_eq_true_eq, Nat.not_lt]
    exact first hit member
  simp [Moved, none]

/-- One more hit before a position moves it once more. -/
theorem moved_cons {hit position place moved : Nat} {later : List Nat} (before : hit < position)
    (behind : Moved search replace later position place)
    (further : moved + search.length = place + (replace.length + 2)) :
    Moved search replace (hit :: later) position moved := by
  unfold Moved at behind ⊢
  rw [List.countP_cons_of_pos (by simpa using before), Nat.succ_mul, Nat.succ_mul]
  omega

/-- Nothing is moved to two places. -/
theorem moved_unique {hits : List Nat} {position place other : Nat}
    (one : Moved search replace hits position place)
    (another : Moved search replace hits position other) : place = other := by
  unfold Moved at one another
  omega

/-- The room of a picked word, for the places behind it. -/
theorem pickedWidth_moved {cursor hit : Nat} (reachable : Reachable text cursor hit)
    (offset : Nat) :
    cursor + (pickedWidth search replace text cursor hit + offset) + search.length =
      behind search text hit + offset + (replace.length + 2) := by
  rw [reachable_iff] at reachable
  unfold pickedWidth behind
  omega

/-- A place behind a space that follows a character which belongs to no word. -/
def BehindPadding (text : Text) (place : Nat) : Prop :=
  ∃ front c, text.take place = front ++ [c, ' '] ∧ Text.isWordChar c = false

/-- The neighbour behind a picked word and a space stand before the copy of the rest. -/
theorem copyWith_pick {cursor hit : Nat} (later : List Nat) (inside : hit ≤ text.length)
    (reachable : Reachable text cursor hit) :
    ∃ front, copyWith (padded replace) search text cursor (hit :: later) =
        front ++ trail text (hit + search.length) ++ [' '] ++
          copyWith (padded replace) search text (behind search text hit) later ∧
      (front ++ trail text (hit + search.length) ++ [' ']).length =
        pickedWidth search replace text cursor hit := by
  refine ⟨(text.drop cursor).take (hit - (lead text hit).length - cursor) ++
    ' ' :: (lead text hit ++ replace), ?_, ?_⟩
  · simp [copyWith, padded]
  · rw [reachable_iff] at reachable
    simp only [List.length_append, List.length_take, List.length_drop, List.length_cons,
      List.length_nil, pickedWidth]
    omega

/-- What is eligible in a copy is what the scan has skipped, moved by the hits before it. Each
such word stands at the cursor of the scan, or behind the padding of a hit. The induction is on
the scan; the word at the cursor behind a hit is the one that the hit has cost its neighbour. -/
theorem eligible_copy (only : WordsOnly search) (fresh : ¬search <:+: replace) {cursor : Nat}
    {hits : List Nat} (scan : Scan search text cursor hits) (clear : Clear search text cursor)
    {place : Nat}
    (eligible : Eligible search (copyWith (padded replace) search text cursor hits) place) :
    ∃ position, cursor ≤ position ∧ Eligible search text position ∧ position ∉ hits ∧
      Moved search replace hits position (cursor + place) ∧
      ((place = 0 ∧ position = cursor ∧ ¬LineStart text cursor) ∨
        BehindPadding (copyWith (padded replace) search text cursor hits) place) := by
  induction scan generalizing place with
  | done cursor exhausted =>
    obtain ⟨rfl, here⟩ := (eligible_rest_iff only clear exhausted place).mp eligible
    have lost := exhausted cursor here
    rw [reachable_self_iff] at lost
    exact ⟨cursor, Nat.le_refl _, here, List.not_mem_nil, moved_self (by simp),
      .inl ⟨rfl, rfl, lost⟩⟩
  | pick cursor hit later picked reachable least rest inductionHypothesis =>
    have room := scan_room only (.pick cursor hit later picked reachable least rest)
    rcases (eligible_pick_iff only fresh clear picked reachable least place).mp eligible with
      ⟨rfl, here, lost⟩ | ⟨offset, rfl, further⟩
    · refine ⟨cursor, Nat.le_refl _, here, ?_, moved_self ?_, .inl ⟨rfl, rfl, lost⟩⟩
      · exact fun member => lost ((reachable_self_iff text cursor).mp (room cursor member))
      · intro other member
        have beyond := (reachable_iff text cursor other).mp (room other member)
        omega
    · obtain ⟨position, lower, skipped, unpicked, moved, standing⟩ :=
        inductionHypothesis (only.clear_behind picked) further
      obtain ⟨advances, -⟩ := behind_inside search text hit only.nonempty picked
      obtain ⟨-, inside⟩ := eligible_inside search text hit only.nonempty picked
      obtain ⟨front, shape, width⟩ := copyWith_pick later inside.le reachable
      have cut : (copyWith (padded replace) search text cursor (hit :: later)).take
          (pickedWidth search replace text cursor hit + offset) =
          front ++ trail text (hit + search.length) ++ [' '] ++
            (copyWith (padded replace) search text (behind search text hit) later).take offset := by
        rw [shape, ← width, List.take_length_add_append]
      have beyond := (reachable_iff text cursor hit).mp reachable
      refine ⟨position, by omega, skipped, ?_, ?_, .inr ?_⟩
      · rw [List.mem_cons, not_or]
        exact ⟨by omega, unpicked⟩
      · exact moved_cons (by omega) moved (pickedWidth_moved reachable offset)
      · rcases standing with ⟨rfl, rfl, -⟩ | ⟨before, c, taken, plain⟩
        · obtain ⟨c, found, single⟩ := only.consumed skipped.occurs
          refine ⟨front, c, ?_, (picked.right c found).notWord⟩
          rw [cut, single, List.take_zero, List.append_nil, List.append_assoc]
          rfl
        · refine ⟨front ++ trail text (hit + search.length) ++ [' '] ++ before, c, ?_, plain⟩
          rw [cut, taken, List.append_assoc _ before]

/-- Every skipped word is eligible in the copy. -/
theorem skipped_kept (only : WordsOnly search) (fresh : ¬search <:+: replace) {cursor : Nat}
    {hits : List Nat} (scan : Scan search text cursor hits) (clear : Clear search text cursor)
    {position : Nat} (lower : cursor ≤ position) (eligible : Eligible search text position)
    (unpicked : position ∉ hits) :
    ∃ place, Eligible search (copyWith (padded replace) search text cursor hits) place ∧
      Moved search replace hits position (cursor + place) := by
  induction scan with
  | done cursor exhausted =>
    have unreached := exhausted position eligible
    rw [reachable_iff] at unreached
    have short := lead_length text position
    obtain rfl : position = cursor := by omega
    exact ⟨0, (eligible_rest_iff only clear exhausted 0).mpr ⟨rfl, eligible⟩, moved_self (by simp)⟩
  | pick cursor hit later picked reachable least rest inductionHypothesis =>
    obtain ⟨other, unpickedLater⟩ := not_or.mp (mt List.mem_cons.mpr unpicked)
    have room := scan_room only (.pick cursor hit later picked reachable least rest)
    rcases Nat.lt_or_gt_of_ne other with before | after
    · have unreached := least position before eligible
      have short := lead_length text position
      obtain rfl : position = cursor := by
        rw [reachable_iff] at unreached
        omega
      rw [reachable_self_iff] at unreached
      refine ⟨0, (eligible_pick_iff only fresh clear picked reachable least 0).mpr
        (.inl ⟨rfl, eligible, unreached⟩), moved_self ?_⟩
      intro other member
      have beyond := (reachable_iff text position other).mp (room other member)
      omega
    · have gap := only.gap picked eligible after
      have short : (trail text (hit + search.length)).length ≤ 1 := carried_length _
      obtain ⟨offset, further, moved⟩ := inductionHypothesis (only.clear_behind picked)
        (by unfold behind; omega) unpickedLater
      exact ⟨_, (eligible_pick_iff only fresh clear picked reachable least _).mpr
        (.inr ⟨offset, rfl, further⟩), moved_cons after moved (pickedWidth_moved reachable offset)⟩

/-- A scan picks every eligible word that stands behind padding: what could have taken its
neighbour would have to end in the character before the space. -/
theorem padding_picked (only : WordsOnly search) {hits : List Nat}
    (scan : Scan search text 0 hits) {place : Nat} (eligible : Eligible search text place)
    (padding : BehindPadding text place) : place ∈ hits := by
  obtain ⟨front, c, taken, plain⟩ := padding
  obtain ⟨-, inside⟩ := eligible_inside search text place only.nonempty eligible
  have width : front.length + 2 = place := by
    have length := congrArg List.length taken
    simp only [List.length_take, List.length_append, List.length_cons, List.length_nil] at length
    omega
  have known : ∀ other < place, text[other]? = (front ++ [c, ' '])[other]? := by
    intro other before
    rw [← taken, List.getElem?_take_of_lt before]
  rcases scan_complete search text 0 hits scan place eligible (reachable_zero text place) with
    picked | ⟨hit, picked, before, near⟩
  · exact picked
  · exfalso
    have earlier := scan_eligible search text 0 hits scan hit picked
    have gap := only.gap earlier eligible before
    have found : text[front.length]? = some c := by
      rw [known _ (by omega), List.getElem?_append_right (Nat.le_refl _), Nat.sub_self]
      rfl
    have positive : 0 < search.length := List.length_pos_iff.mpr only.nonempty
    have shortTrail : (trail text (hit + search.length)).length ≤ 1 := carried_length _
    have shortLead := lead_length text place
    unfold behind at near
    obtain ⟨offset, same⟩ := Nat.exists_eq_add_of_le (show hit ≤ front.length by omega)
    have within : offset < search.length := by omega
    rw [same, occurs_char earlier.occurs within] at found
    obtain rfl : search[offset] = c := Option.some.inj found
    rw [only.words _ (List.getElem_mem within)] at plain
    cases plain

/-- A word that a scan over a text skips stands right behind a hit, which has taken its neighbour
along. -/
theorem skipped_behind (only : WordsOnly search) {hits : List Nat}
    (scan : Scan search text 0 hits) {position : Nat} (eligible : Eligible search text position)
    (unpicked : position ∉ hits) : ∃ hit ∈ hits, position = behind search text hit := by
  rcases scan_complete search text 0 hits scan position eligible (reachable_zero text position)
    with picked | ⟨hit, picked, before, near⟩
  · exact absurd picked unpicked
  · have gap := only.gap (scan_eligible search text 0 hits scan hit picked) eligible before
    have shortTrail : (trail text (hit + search.length)).length ≤ 1 := carried_length _
    have shortLead := lead_length text position
    unfold behind at near
    exact ⟨hit, picked, by unfold behind; omega⟩

/-- One pass of a word rule over a text: the positions that it picks, and what it writes. -/
structure Pass (rule : Rule) (text : Text) (hits : List Nat) : Prop where
  picks : ∀ others, Scan rule.search text 0 others ↔ others = hits
  writes : rule.substitute text = copyWith (padded rule.replace) rule.search text 0 hits

section

variable {rule : Rule} {first second : List Nat}

/-- The scan of a pass. -/
theorem Pass.scan (pass : Pass rule text first) : Scan rule.search text 0 first :=
  (pass.picks first).mpr rfl

/-- A word rule makes a pass over every text. -/
theorem pass_exists (word : rule.mode = .word) (text : Text) : ∃ hits, Pass rule text hits := by
  obtain ⟨hits, scan, same⟩ := wordFrom_scan rule.search text (word_search_nonempty rule word) 0
    true (by simp [LineStart, before?])
  refine ⟨hits, fun others => ⟨scan_unique rule.search text 0 hits others scan, fun equal =>
    equal ▸ scan⟩, ?_⟩
  rw [Rule.substitute, Rule.divide, word, ← same rule.replace, List.drop_zero]

/-- The search text of a word rule does not begin with a space. -/
theorem word_search_unspaced (word : rule.mode = .word) (rest : Text) :
    rule.search ≠ ' ' :: rest := by
  intro spaced
  have edges : isWordSearch rule.search = true := rule.wordEdges word
  rw [spaced] at edges
  have blank : Text.isWordChar ' ' = false := by decide
  simp [isWordSearch, blank] at edges

/-- The space before a replacement is nowhere where a hit begins, neither in its neighbour, which
would have to be a space before the search text, nor in the search text itself. -/
theorem padded_differs (word : rule.mode = .word) (neighbour : Option Char) (rest other : Text) :
    ' ' :: (carried neighbour ++ rest) ≠ carried neighbour ++ (rule.search ++ other) := by
  have differs : ∀ written, ' ' :: written ≠ rule.search ++ other := by
    intro written equal
    cases search : rule.search with
    | nil => exact word_search_nonempty rule word search
    | cons c later =>
      rw [search, List.cons_append, List.cons.injEq] at equal
      exact word_search_unspaced word later (equal.1 ▸ search)
  rcases carried_cases neighbour with empty | ⟨c, -, single⟩
  · rw [empty]
    exact differs rest
  · rw [single]
    intro equal
    obtain ⟨rfl, behindSpace⟩ := List.cons.inj equal
    exact differs rest behindSpace

/-- A word rule leaves a text alone exactly if nothing is eligible there: the copies with the
replacement and with the search text part at the first picked word. -/
theorem untouched_iff (word : rule.mode = .word) (text : Text) :
    rule.substitute text = text ↔ ∀ position, ¬Eligible rule.search text position := by
  have nonempty : rule.search ≠ [] := word_search_nonempty rule word
  obtain ⟨hits, pass⟩ := pass_exists word text
  constructor
  · intro untouched
    have same : copyWith (padded rule.replace) rule.search text 0 hits =
        copyWith (fun lead trail => lead ++ rule.search ++ trail) rule.search text 0 hits := by
      rw [← pass.writes, untouched, copyWith_self rule.search text nonempty 0 hits pass.scan,
        List.drop_zero]
    cases hits with
    | nil =>
      intro position eligible
      cases pass.scan with
      | done _ exhausted => exact exhausted position eligible (reachable_zero text position)
    | cons hit later =>
      simp only [copyWith, padded, List.append_assoc, List.cons_append,
        List.append_cancel_left_eq] at same
      exact absurd same (padded_differs word (before? text hit) _ _)
  · intro nowhere
    have none : hits = [] := List.eq_nil_iff_forall_not_mem.mpr fun position picked =>
      nowhere position (scan_eligible rule.search text 0 hits pass.scan position picked)
    rw [pass.writes, none, copyWith, List.drop_zero]

/-- What is eligible after a pass was skipped by it, and stands behind the padding of a hit. -/
theorem Pass.leaves (only : WordsOnly rule.search) (fresh : ¬rule.search <:+: rule.replace)
    (pass : Pass rule text first) {place : Nat}
    (eligible : Eligible rule.search (rule.substitute text) place) :
    ∃ position, Eligible rule.search text position ∧ position ∉ first ∧
      Moved rule.search rule.replace first position place ∧
      BehindPadding (rule.substitute text) place := by
  rw [pass.writes] at eligible ⊢
  have clear : Clear rule.search text 0 := by simp [Clear, before?]
  obtain ⟨position, -, before, skipped, moved, ⟨-, rfl, lost⟩ | padding⟩ :=
    eligible_copy only fresh pass.scan clear eligible
  · exact absurd (by simp [LineStart, before?]) lost
  · rw [Nat.zero_add] at moved
    exact ⟨position, before, skipped, moved, padding⟩

/-- The hits of the second pass are the words that the first has skipped, each where the hits
before it have moved it to. -/
theorem Pass.second_iff (only : WordsOnly rule.search) (fresh : ¬rule.search <:+: rule.replace)
    (one : Pass rule text first) (two : Pass rule (rule.substitute text) second) (place : Nat) :
    place ∈ second ↔ ∃ position, Eligible rule.search text position ∧ position ∉ first ∧
      Moved rule.search rule.replace first position place := by
  constructor
  · intro picked
    obtain ⟨position, before, skipped, moved, -⟩ :=
      one.leaves only fresh (scan_eligible rule.search _ 0 second two.scan place picked)
    exact ⟨position, before, skipped, moved⟩
  · rintro ⟨position, before, skipped, moved⟩
    have clear : Clear rule.search text 0 := by simp [Clear, before?]
    obtain ⟨other, kept, movedOther⟩ :=
      skipped_kept only fresh one.scan clear (Nat.zero_le position) before skipped
    rw [Nat.zero_add] at movedOther
    obtain rfl : place = other := moved_unique moved movedOther
    rw [← one.writes] at kept
    obtain ⟨-, -, -, -, padding⟩ := one.leaves only fresh kept
    exact padding_picked only two.scan kept padding

/-- Nothing is eligible after two passes: it would have been skipped by the second, but what the
first has left stands behind padding, where it is picked. -/
theorem Pass.settled (only : WordsOnly rule.search) (fresh : ¬rule.search <:+: rule.replace)
    (one : Pass rule text first) (two : Pass rule (rule.substitute text) second) (place : Nat) :
    ¬Eligible rule.search (rule.substitute (rule.substitute text)) place := by
  intro eligible
  obtain ⟨position, before, skipped, -, -⟩ := two.leaves only fresh eligible
  obtain ⟨-, -, -, -, padding⟩ := one.leaves only fresh before
  exact skipped (padding_picked only two.scan before padding)

end

/-- A word rule is at its fixed point after two passes. It leaves a text alone exactly if no
occurrence of its search text is eligible there. Where the search text consists of word characters
and does not occur in the replacement, nothing is eligible after two passes, so a third changes
nothing. A word that the first pass skips stands right behind a hit that has taken its neighbour
along, and the second pass picks exactly these words, each where the first has moved it to. -/
theorem substitute_twice_final (rule : Rule) (word : rule.mode = .word) (text : Text) :
    (rule.substitute text = text ↔ ∀ position, ¬Eligible rule.search text position) ∧
      ((∀ c ∈ rule.search, Text.isWordChar c = true) → ¬rule.search <:+: rule.replace →
        (∀ place, ¬Eligible rule.search (rule.substitute (rule.substitute text)) place) ∧
        rule.substitute (rule.substitute (rule.substitute text)) =
          rule.substitute (rule.substitute text) ∧
        ∃ first second : List Nat,
          Pass rule text first ∧ Pass rule (rule.substitute text) second ∧
          (∀ position, Eligible rule.search text position →
            position ∈ first ∨ ∃ hit ∈ first, position = behind rule.search text hit) ∧
          ∀ place, place ∈ second ↔ ∃ position, Eligible rule.search text position ∧
            position ∉ first ∧ Moved rule.search rule.replace first position place) := by
  refine ⟨untouched_iff word text, fun words fresh => ?_⟩
  have only : WordsOnly rule.search := ⟨word_search_nonempty rule word, words⟩
  obtain ⟨first, one⟩ := pass_exists word text
  obtain ⟨second, two⟩ := pass_exists word (rule.substitute text)
  have settled := one.settled only fresh two
  refine ⟨settled, (untouched_iff word _).mpr settled, first, second, one, two, ?_,
    one.second_iff only fresh two⟩
  intro position eligible
  by_cases picked : position ∈ first
  · exact .inl picked
  · exact .inr (skipped_behind only one.scan eligible picked)

/-- A rule that spells out the word `no`. -/
def spelled : Rule := ⟨"no".toList, "number".toList, .word, fun _ => by decide⟩

/-- The second word is skipped by the first pass and rewritten by the second. Neither touches the
words beside a hyphen. -/
theorem spelled_twice :
    spelled.mode = .word ∧ (∀ c ∈ spelled.search, Text.isWordChar c = true) ∧
      ¬spelled.search <:+: spelled.replace ∧
      spelled.substitute "no no,no\nno-no".toList = " number  no ,number \nno-no".toList ∧
      spelled.substitute (spelled.substitute "no no,no\nno-no".toList) =
        " number   number  ,number \nno-no".toList ∧
      ∀ place, ¬Eligible spelled.search
        (spelled.substitute (spelled.substitute "no no,no\nno-no".toList)) place := by
  have words : ∀ c ∈ spelled.search, Text.isWordChar c = true := List.all_eq_true.mp (by decide)
  have fresh : ¬spelled.search <:+: spelled.replace := by decide
  obtain ⟨settled, -⟩ :=
    (substitute_twice_final spelled rfl "no no,no\nno-no".toList).2 words fresh
  exact ⟨rfl, words, fresh, by decide +kernel, by decide +kernel, settled⟩

end Manuscript.WholeWord
