import Manuscript.Proofs.SoundStore
import Manuscript.Settings.Basic

/-!
# Where the outputs are written

The outputs are called like the input with an extension behind its name. Neither the name of a
path nor an extension holds a slash, so the path of an output goes one name beyond that of the
output directory. The places that the paths lead to are told apart by these names: from each
other by the extension, and from the input by their lengths.
-/

namespace Manuscript

/-- A name with an extension is not the one that leads to the directory above. -/
theorem Path.extended_ne (name extension : Text) (long : 3 ≤ extension.length) :
    name ++ extension ≠ ['.', '.'] := by
  intro dots
  have length := congrArg List.length dots
  simp only [List.length_append, List.length_cons, List.length_nil] at length
  omega

namespace Path.Beyond

variable {path longer : Path} {name extension : Text} {location : Location}

/-- A path that goes a name with an extension beyond another one leads to a place of that name. -/
theorem place (beyond : path.Beyond (name ++ extension) longer) (long : 3 ≤ extension.length)
    (store : Store) (ends : (store.find longer).location? = some location) :
    ∃ above, location = above ++ [name ++ extension] := by
  unfold Store.find at ends
  rw [beyond.parts] at ends
  exact store.follow_named _ path.parts (extended_ne name extension long) ends

/-- It is not the place of anything that is called by the name alone. -/
theorem ne_name (beyond : path.Beyond (name ++ extension) longer) (long : 3 ≤ extension.length)
    (store : Store) (ends : (store.find longer).location? = some location) (above : Location) :
    above ++ [name] ≠ location := by
  obtain ⟨aboveLonger, rfl⟩ := beyond.place long store ends
  intro same
  obtain ⟨-, sameName⟩ := List.append_inj' same rfl
  have length := congrArg List.length (List.cons.inj sameName).1
  rw [List.length_append] at length
  omega

end Path.Beyond

namespace PathSettings

variable (paths : PathSettings) (store : Store) {location : Location}

theorem beyond_preprocessedPath :
    paths.outputDirectory.Beyond (paths.input.name ++ ".pre".toList) paths.preprocessedPath :=
  paths.outputDirectory.beyond_child
    (.extended paths.input.name_noSlash (by decide) (by decide))

theorem beyond_latexPath :
    paths.outputDirectory.Beyond (paths.input.name ++ ".tex".toList) paths.latexPath :=
  paths.outputDirectory.beyond_child
    (.extended paths.input.name_noSlash (by decide) (by decide))

/-- The preprocessed document is not written over the input. -/
theorem preprocessedPath_ne_input
    (ends : (store.find paths.preprocessedPath).location? = some location) (above : Location) :
    above ++ [paths.input.name] ≠ location :=
  paths.beyond_preprocessedPath.ne_name (by decide) store ends above

/-- The document as LaTeX is not written over the input. -/
theorem latexPath_ne_input
    (ends : (store.find paths.latexPath).location? = some location) (above : Location) :
    above ++ [paths.input.name] ≠ location :=
  paths.beyond_latexPath.ne_name (by decide) store ends above

/-- The name of the LaTeX adds no double dots to a path. -/
theorem latexPath_plain (plain : ['.', '.'] ∉ paths.outputDirectory.parts) :
    ['.', '.'] ∉ paths.latexPath.parts := by
  have named := Path.extended_ne paths.input.name ".tex".toList (by decide)
  rw [paths.beyond_latexPath.parts, List.mem_append, List.mem_singleton, not_or]
  exact ⟨plain, Ne.symm named⟩

/-- Without double dots no part of the path of the output directory leads to the place of the
LaTeX. -/
theorem latexPath_not_led (plain : ['.', '.'] ∉ paths.outputDirectory.parts)
    (ends : (store.find paths.latexPath).location? = some location) (count : Nat) :
    (store.find (paths.outputDirectory.leading count)).location? ≠ some location := by
  intro led
  have far := store.follow_plain _ _ (paths.latexPath_plain plain) ends
  have near := store.follow_plain _ _ (fun member => plain (List.mem_of_mem_take member)) led
  rw [Path.isAbsolute, paths.beyond_latexPath.root, paths.beyond_latexPath.parts] at far
  have same := congrArg List.length (List.append_cancel_left (near.symm.trans far))
  rw [List.length_take, List.length_append, List.length_singleton] at same
  omega

/-- Without double dots the path of the LaTeX leads to what there is at its place, also in a
store in which it is looked up later. -/
theorem latexPath_present {before after : Store} {entry : Entry} (sound : before.Sound)
    (sameStart : after.workingDirectory = before.workingDirectory)
    (plain : ['.', '.'] ∉ paths.outputDirectory.parts)
    (ends : (after.find paths.latexPath).location? = some location)
    (held : before.entry? location = some entry) :
    before.find paths.latexPath = .entry location entry := by
  have place := after.follow_plain _ _ (paths.latexPath_plain plain) ends
  have some : paths.latexPath.parts ≠ [] := by
    rw [paths.beyond_latexPath.parts]
    simp
  rw [sameStart] at place
  unfold Store.find
  rw [place] at held ⊢
  exact Store.follow_present sound _ _ some (paths.latexPath_plain plain) held

/-- The outputs are not written over each other, whatever stores their paths are looked up
in. -/
theorem outputs_apart (other : Store) {preprocessed latex : Location}
    (endsFirst : (store.find paths.preprocessedPath).location? = some preprocessed)
    (endsSecond : (other.find paths.latexPath).location? = some latex) :
    preprocessed ≠ latex := by
  obtain ⟨above, rfl⟩ := paths.beyond_preprocessedPath.place (by decide) store endsFirst
  obtain ⟨aboveLatex, rfl⟩ := paths.beyond_latexPath.place (by decide) other endsSecond
  intro same
  obtain ⟨-, sameName⟩ := List.append_inj' same rfl
  have sameExtension := List.append_cancel_left (List.cons.inj sameName).1
  exact absurd sameExtension (by decide)

end PathSettings

end Manuscript
