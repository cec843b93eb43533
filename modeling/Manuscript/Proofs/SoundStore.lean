import Manuscript.Proofs.Growth
import Mathlib.Data.List.Induction

/-!
# Stores as file systems are

In a file system everything is in a directory. A store says this of none of its entries, so
it is stated here: it holds of the stores that are built up from an empty one, it is what
makes two dots at the end of a path lead to a directory, and making directories and writing
files keep it.
-/

namespace Manuscript.Store

variable {before after : Store} {path : Path}

/-- A store as file systems are: paths start from a directory, and what is somewhere is in a
directory. -/
structure Sound (store : Store) : Prop where
  workingDirectory : store.entry? store.workingDirectory = some .directory
  above : ∀ location entry, store.entry? location = some entry →
    store.entry? location.dropLast = some .directory

/-- It is enough to look at the entries that are listed. -/
theorem sound_of_entries (store : Store)
    (workingDirectory : store.entry? store.workingDirectory = some .directory)
    (above : ∀ pair ∈ store.entries, store.entry? pair.1.dropLast = some .directory) :
    store.Sound := by
  refine ⟨workingDirectory, ?_⟩
  intro location entry held
  cases location with
  | nil => rfl
  | cons part rest =>
    have listed : store.entries.lookup (part :: rest) = some entry := held
    obtain ⟨front, back, shape, -⟩ := List.lookup_eq_some_iff.mp listed
    exact above (part :: rest, entry) (by rw [shape]; simp)

/-- The store that holds nothing but its working directory is sound. -/
theorem empty_sound : empty.Sound := sound_of_entries empty (by decide) (by decide)

/-- An entry that is put into a directory, and not in the place of one, keeps a store sound. -/
theorem Sound.set {store : Store} {location : Location} (sound : store.Sound) (entry : Entry)
    (vacant : store.entry? location ≠ some .directory)
    (above : store.entry? location.dropLast = some .directory) :
    (store.set location entry).Sound := by
  have kept : KeepsDirectories store (store.set location entry) :=
    (set_extends store (Path.ofText []) entry vacant).kept
  have named : location ≠ [] := by
    rintro rfl
    exact vacant rfl
  refine ⟨kept _ sound.workingDirectory, ?_⟩
  intro other found held
  rw [entry_set store named] at held
  by_cases same : other = location
  · subst same
    exact kept _ above
  · rw [if_neg same] at held
    exact kept _ (sound.above other found held)

/-- Writing a file keeps a store sound. -/
theorem write_sound {store : Store} {bytes : List UInt8} (sound : store.Sound)
    (written : store.write path bytes = .ok after) : after.Sound := by
  unfold write at written
  split at written
  · rename_i location contents held
    have present : store.entry? location = some (.file contents) :=
      follow_entry store _ path.parts held
    rw [← Except.ok.inj written]
    exact sound.set _ (by simp [present]) (sound.above _ _ present)
  · rename_i location held
    obtain ⟨missing, above⟩ := follow_free store _ path.parts held
    rw [← Except.ok.inj written]
    exact sound.set _ (by simp [missing]) above
  all_goals cases written

/-- Trying a directory keeps a store sound. -/
theorem tryDirectory_sound {store : Store} (sound : store.Sound) (path : Path) :
    (store.tryDirectory path).1.Sound := by
  unfold tryDirectory makeDirectory
  cases held : store.find path with
  | entry location entry => cases entry <;> exact sound
  | nowhere => exact sound
  | blocked => exact sound
  | free location =>
    obtain ⟨missing, above⟩ := follow_free store _ path.parts held
    exact sound.set _ (by simp [missing]) above

/-- Making directories keeps a store sound, also where it is refused in the end. -/
theorem makeLeading_sound {store : Store} (sound : store.Sound) (path : Path) (count : Nat) :
    (store.makeLeading path count).1.Sound := by
  induction count with
  | zero => exact tryDirectory_sound sound _
  | succ count inductionHypothesis =>
    cases ended : store.makeLeading path count with
    | mk made refusal =>
      rw [ended] at inductionHypothesis
      simp only [makeLeading, ended]
      cases store.find (path.leading (count + 1)) with
      | nowhere =>
        cases refusal with
        | none => exact tryDirectory_sound inductionHypothesis _
        | some error => exact inductionHypothesis
      | entry location entry => exact tryDirectory_sound sound _
      | free location => exact tryDirectory_sound sound _
      | blocked => exact tryDirectory_sound sound _

/-- Making the directories of a path keeps a store sound. -/
theorem makeDirectories_sound {store : Store} (sound : store.Sound) (path : Path) :
    (store.makeDirectories path).1.Sound := by
  unfold makeDirectories
  split
  · exact sound
  · exact makeLeading_sound sound path path.parts.length

/-- What is below a place has a directory there. -/
theorem Sound.ancestor {store : Store} (sound : store.Sound) (here : Location) (part : Text)
    (rest : List Text) {entry : Entry} (held : store.entry? (here ++ part :: rest) = some entry) :
    store.entry? here = some .directory := by
  induction rest using List.reverseRecOn generalizing entry with
  | nil =>
    have above := sound.above _ _ held
    rw [List.dropLast_concat] at above
    exact above
  | append_singleton rest last inductionHypothesis =>
    have above := sound.above _ _ held
    rw [← List.cons_append, ← List.append_assoc, List.dropLast_concat] at above
    exact inductionHypothesis above

/-- Names without double dots lead to the place that they spell. -/
theorem follow_plain (store : Store) (parts : List Text) (here : Location)
    (plain : ['.', '.'] ∉ parts) {location : Location}
    (ends : (store.follow here parts).location? = some location) : location = here ++ parts := by
  induction parts generalizing here with
  | nil =>
    cases held : store.entry? here with
    | none => simp [follow, held, Found.location?] at ends
    | some entry => simpa [follow, held, Found.location?] using ends.symm
  | cons part rest inductionHypothesis =>
    rw [List.mem_cons, not_or] at plain
    cases held : store.entry? here with
    | none => simp [follow, held, Found.location?] at ends
    | some entry =>
      cases entry with
      | file bytes => simp [follow, held, Found.location?] at ends
      | directory =>
        simp only [follow, held, Ne.symm plain.1, if_false] at ends
        cases rest with
        | nil =>
          simp only [List.isEmpty_nil, if_true] at ends
          cases next : store.entry? (here ++ [part]) with
          | none => simpa [next, Found.location?] using ends.symm
          | some entry => simpa [next, Found.location?] using ends.symm
        | cons second others =>
          rw [List.append_cons]
          exact inductionHypothesis (here ++ [part]) plain.2 ends

/-- Names without double dots lead to what there is at the place that they spell. -/
theorem follow_present {store : Store} (sound : store.Sound) (parts : List Text)
    (here : Location) (some : parts ≠ []) (plain : ['.', '.'] ∉ parts) {entry : Entry}
    (held : store.entry? (here ++ parts) = .some entry) :
    store.follow here parts = .entry (here ++ parts) entry := by
  induction parts generalizing here with
  | nil => exact absurd rfl some
  | cons part rest inductionHypothesis =>
    rw [List.mem_cons, not_or] at plain
    have heldHere : store.entry? here = .some .directory := sound.ancestor here part rest held
    simp only [follow, heldHere, Ne.symm plain.1, if_false]
    cases rest with
    | nil => simp [held]
    | cons second others =>
      have shift : here ++ part :: second :: others = here ++ [part] ++ second :: others := by simp
      rw [shift] at held ⊢
      exact inductionHypothesis (here ++ [part]) (List.cons_ne_nil _ _) plain.2 held

/-- Two dots at the end of a path lead to a directory. -/
theorem follow_above {store : Store} (sound : store.Sound) (here : Location)
    (front : List Text) {location : Location} {entry : Entry}
    (found : store.follow here (front ++ [['.', '.']]) = .entry location entry) :
    entry = .directory := by
  induction front generalizing here with
  | nil =>
    cases held : store.entry? here with
    | none => simp [follow, held] at found
    | some entry =>
      cases entry with
      | file bytes => simp [follow, held] at found
      | directory =>
        have aboveHeld : store.entry? here.dropLast = some .directory :=
          sound.above here .directory held
        simp only [List.nil_append, follow, held, if_true, aboveHeld] at found
        exact (Found.entry.inj found).2.symm
  | cons part rest inductionHypothesis =>
    have more : (rest ++ [['.', '.']]).isEmpty = false := by simp
    cases held : store.entry? here with
    | none => simp [follow, held] at found
    | some entry =>
      cases entry with
      | file bytes => simp [follow, held] at found
      | directory =>
        by_cases above : part = ['.', '.']
        · simp only [List.cons_append, follow, held, above, if_true] at found
          exact inductionHypothesis here.dropLast found
        · simp only [List.cons_append, follow, held, above, if_false, more,
            Bool.false_eq_true] at found
          exact inductionHypothesis (here ++ [part]) found

/-- A file that can be read is found under the last name of its path. -/
theorem read_named {store : Store} (sound : store.Sound) {bytes : List UInt8}
    (readable : store.read path = .ok bytes) :
    ∃ above, store.find path = .entry (above ++ [path.name]) (.file bytes) := by
  have found : ∃ location, store.find path = .entry location (.file bytes) := by
    unfold read at readable
    split at readable
    · rename_i location contents held
      exact ⟨location, by rw [held, Except.ok.inj readable]⟩
    all_goals cases readable
  obtain ⟨location, found⟩ := found
  have ends : (store.find path).location? = some location := by rw [found]; rfl
  rcases List.eq_nil_or_concat path.parts with empty | ⟨front, last, shape⟩
  · have started : (store.find path) =
        .entry (if path.isAbsolute then [] else store.workingDirectory) .directory := by
      unfold find
      rw [empty, follow]
      cases path.isAbsolute with
      | true => rfl
      | false => simp [sound.workingDirectory]
    rw [started] at found
    cases (Found.entry.inj found).2
  · -- The last part is a name: behind two dots there would be a directory.
    rw [List.concat_eq_append] at shape
    have named : path.name = last := by simp [Path.name, shape]
    have proper : last ≠ ['.', '.'] := by
      intro dots
      unfold find at found
      rw [shape, dots] at found
      cases follow_above sound _ front found
    unfold find at ends
    rw [shape] at ends
    obtain ⟨above, same⟩ := follow_named store _ front proper ends
    exact ⟨above, by rw [found, same, named]⟩

/-- A file is still read as before if nothing under its name has been written. -/
theorem Extends.read_kept {along : Path} {written : List Location} {bytes : List UInt8}
    (extended : Extends along written before after) (sound : before.Sound)
    (readable : before.read path = .ok bytes)
    (unwritten : ∀ above, above ++ [path.name] ∉ written) : after.read path = .ok bytes := by
  obtain ⟨above, found⟩ := read_named sound readable
  have held : before.entry? (above ++ [path.name]) = some (.file bytes) :=
    follow_entry before _ path.parts found
  have ends : (before.find path).location? = some (above ++ [path.name]) := by
    rw [found]
    rfl
  have foundStill : after.find path = .entry (above ++ [path.name]) (.file bytes) :=
    find_kept extended.kept extended.sameStart ends
      (extended.entry_kept (unwritten above) held)
  unfold read
  rw [foundStill]

end Manuscript.Store
