import Manuscript.Failure
import Manuscript.Proofs.SoundStore

/-!
# Paths whose directories were made

Making the directories of a path can be refused for many reasons, but never because something
is missing, since what is missing is what is made. Where it is not refused the path leads to a
directory. A file one name behind it can be refused again, and again not because something is
missing.

This takes a store as file systems are. Along a path that starts from no directory nothing could
be made.
-/

namespace Manuscript.Store

variable {store : Store} {path longer : Path} {name : Text} {location : Location}

/-- Behind parts that lead to a directory the others are followed from there. -/
theorem follow_append (store : Store) (here : Location) (front rest : List Text)
    (led : store.follow here front = .entry location .directory) (more : rest ≠ []) :
    store.follow here (front ++ rest) = store.follow location rest := by
  induction front generalizing here with
  | nil =>
    cases held : store.entry? here with
    | none => simp [follow, held] at led
    | some entry =>
      obtain ⟨rfl, -⟩ : here = location ∧ entry = .directory := by simpa [follow, held] using led
      rw [List.nil_append]
  | cons part tail inductionHypothesis =>
    cases held : store.entry? here with
    | none => simp [follow, held] at led
    | some entry =>
      cases entry with
      | file bytes => simp [follow, held] at led
      | directory =>
        have goesOn : (tail ++ rest).isEmpty = false := by simp [more]
        by_cases above : part = ['.', '.']
        · simp only [List.cons_append, follow, held, above, if_true] at led ⊢
          exact inductionHypothesis here.dropLast led
        · simp only [List.cons_append, follow, held, above, if_false, goesOn,
            Bool.false_eq_true] at led ⊢
          cases tail with
          | cons second others => exact inductionHypothesis (here ++ [part]) led
          | nil =>
            -- The last part leads to the directory that is listed under its name.
            have ends : here ++ [part] = location := by
              simp only [List.isEmpty_nil, if_true] at led
              cases next : store.entry? (here ++ [part]) with
              | none => simp [next] at led
              | some entry => exact (by simpa [next] using led : _ ∧ _).1
            rw [ends, List.nil_append]

/-- One name behind a directory a path does not lead nowhere. -/
theorem Sound.find_beyond (sound : store.Sound) (beyond : path.Beyond name longer)
    (led : store.find path = .entry location .directory) : store.find longer ≠ .nowhere := by
  have held : store.entry? location = some .directory := follow_entry store _ path.parts led
  have behind : store.find longer = store.follow location [name] := by
    rw [find, Path.isAbsolute, beyond.root, beyond.parts]
    exact follow_append store _ path.parts [name] led (List.cons_ne_nil name [])
  rw [behind]
  by_cases above : name = ['.', '.']
  · simp [follow, held, above, sound.above location .directory held]
  · simp only [follow, held, above, if_false, List.isEmpty_nil, if_true]
    cases store.entry? (location ++ [name]) <;> simp

/-- How the making of a directory may end: its path leads to a directory, or it is refused, but
not because something is missing. -/
inductive Made (path : Path) : Store × Option FileError → Prop where
  | led (after : Store) (location : Location)
      (found : after.find path = .entry location .directory) : Made path (after, none)
  | refused (after : Store) (error : FileError)
      (present : (Failure.file error).isMissing = false) : Made path (after, some error)

/-- A path that does not lead nowhere can be tried. -/
theorem tryDirectory_made (somewhere : store.find path ≠ .nowhere) :
    Made path (store.tryDirectory path) := by
  unfold tryDirectory makeDirectory
  cases held : store.find path with
  | nowhere => exact absurd held somewhere
  | blocked => exact .refused store _ rfl
  | entry location entry =>
    cases entry with
    | file bytes => exact .refused store _ rfl
    | directory => exact .led store location held
  | free location =>
    have missing : store.entry? location = none := (follow_free store _ path.parts held).1
    exact .led _ location (find_set store .directory (by rw [held]; rfl) (by simp [missing]))

/-- The directories are made from the root on, so each is tried behind one that was made. -/
theorem makeLeading_made (sound : store.Sound) (path : Path) {count : Nat}
    (within : count ≤ path.parts.length) :
    Made (path.leading count) (store.makeLeading path count) := by
  induction count with
  | zero =>
    refine tryDirectory_made ?_
    unfold find
    split
    · simp [follow]
    · simp [follow, sound.workingDirectory]
  | succ count inductionHypothesis =>
    have kept := makeLeading_sound sound path count
    have before := inductionHypothesis (Nat.le_of_succ_le within)
    simp only [makeLeading]
    cases held : store.find (path.leading (count + 1)) with
    | nowhere =>
      generalize store.makeLeading path count = ended at before kept
      cases before with
      | refused after error present => exact .refused after error present
      | led after location found =>
        exact tryDirectory_made (kept.find_beyond (path.beyond_leading within) found)
    | entry location entry => exact tryDirectory_made (ne_of_eq_of_ne held (by simp))
    | free location => exact tryDirectory_made (ne_of_eq_of_ne held (by simp))
    | blocked => exact tryDirectory_made (ne_of_eq_of_ne held (by simp))

/-- Making the directories of a path makes them or is refused for another reason than that
something is missing. -/
theorem makeDirectories_made (sound : store.Sound) (path : Path) :
    Made path (store.makeDirectories path) := by
  unfold makeDirectories
  split
  · exact .refused store _ rfl
  · have made := makeLeading_made sound path (Nat.le_refl _)
    rwa [path.leading_length] at made

/-- A file is not refused because something is missing if its path goes one name behind one that
leads to a directory. -/
theorem Sound.write_beyond (sound : store.Sound) (beyond : path.Beyond name longer)
    (led : store.find path = .entry location .directory) {bytes : List UInt8} {error : FileError}
    (refused : store.write longer bytes = .error error) :
    (Failure.file error).isMissing = false := by
  have somewhere := sound.find_beyond beyond led
  unfold write at refused
  cases held : store.find longer with
  | nowhere => exact absurd held somewhere
  | blocked =>
    rw [held] at refused
    cases refused
    rfl
  | free location =>
    rw [held] at refused
    cases refused
  | entry location entry =>
    rw [held] at refused
    cases entry with
    | file contents => cases refused
    | directory =>
      cases refused
      rfl

end Manuscript.Store
