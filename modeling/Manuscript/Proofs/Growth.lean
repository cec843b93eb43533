import Mathlib.Data.List.Basic
import Manuscript.Files.Store

/-!
# How a store grows

Making directories and writing files never takes a directory away and never puts one in the
place of a file. So what a path leads to can change only at the place where it ends: the
looking up passes through directories only, and they stay. This is stated as a relation
between the store before and the store after, which also says where the two may differ. A
place that differs has been written to, or it is a directory that was not there before, and
then a leading part of the path whose directories were made leads to it.
-/

namespace Manuscript

namespace Store

variable {before between after : Store} {path : Path}

@[simp] theorem entry_root (store : Store) : store.entry? [] = some .directory := rfl

/-- Setting an entry changes no other one. -/
theorem entry_set (store : Store) {location : Location} (named : location ≠ [])
    (entry : Entry) (other : Location) :
    Store.entry? (store.set location entry) other =
      if other = location then some entry else store.entry? other := by
  cases other with
  | nil => simp [Ne.symm named]
  | cons part rest =>
    unfold entry? set
    simp [Entries.lookup_put]

end Store

/-- The place at which a looking up ends, where it is one that can be written to or read. -/
def Found.location? : Found → Option Location
  | .entry location _ => some location
  | .free location => some location
  | .nowhere => none
  | .blocked => none

namespace Store

/-- Each directory is still one. -/
def KeepsDirectories (before after : Store) : Prop :=
  ∀ location, before.entry? location = some .directory →
    after.entry? location = some .directory

/-- Looking up passes through directories only. Where they are kept it ends at the same
place, and finds what is there now. -/
theorem follow_kept (kept : KeepsDirectories before after) (parts : List Text)
    (here : Location) {location : Location} {entry : Entry}
    (ends : (before.follow here parts).location? = some location)
    (present : after.entry? location = some entry) :
    after.follow here parts = .entry location entry := by
  induction parts generalizing here with
  | nil =>
    cases held : before.entry? here with
    | none => simp [follow, held, Found.location?] at ends
    | some old =>
      have same : here = location := by simpa [follow, held, Found.location?] using ends
      subst same
      simp [follow, present]
  | cons part rest inductionHypothesis =>
    cases held : before.entry? here with
    | none => simp [follow, held, Found.location?] at ends
    | some old =>
      cases old with
      | file bytes => simp [follow, held, Found.location?] at ends
      | directory =>
        have heldStill : after.entry? here = some .directory := kept here held
        by_cases above : part = ['.', '.']
        · simp only [follow, held, heldStill, above, if_true] at ends ⊢
          exact inductionHypothesis here.dropLast ends
        · by_cases last : rest.isEmpty
          · have same : here ++ [part] = location := by
              simp only [follow, held, above, if_false, last, if_true] at ends
              cases next : before.entry? (here ++ [part]) with
              | none => simpa [next, Found.location?] using ends
              | some found => simpa [next, Found.location?] using ends
            subst same
            simp [follow, heldStill, above, last, present]
          · simp only [follow, held, heldStill, above, if_false, last] at ends ⊢
            exact inductionHypothesis (here ++ [part]) ends

/-- What a looking up finds is what is at the place where it ends. -/
theorem follow_entry (store : Store) (here : Location) (parts : List Text)
    {location : Location} {entry : Entry}
    (found : store.follow here parts = .entry location entry) :
    store.entry? location = some entry := by
  fun_induction follow store here parts with
  | case1 here entry held =>
    obtain ⟨rfl, rfl⟩ := Found.entry.inj found
    exact held
  | case2 here missing => cases found
  | case3 here part rest missing => cases found
  | case4 here part rest bytes held => cases found
  | case5 here rest held inductionHypothesis => exact inductionHypothesis found
  | case6 here part rest held named last entry next =>
    obtain ⟨rfl, rfl⟩ := Found.entry.inj found
    exact next
  | case7 here part rest held named last next => cases found
  | case8 here part rest held named more inductionHypothesis => exact inductionHypothesis found

/-- A free place holds nothing, and it is in a directory. -/
theorem follow_free (store : Store) (here : Location) (parts : List Text)
    {location : Location} (found : store.follow here parts = .free location) :
    store.entry? location = none ∧ store.entry? location.dropLast = some .directory := by
  fun_induction follow store here parts with
  | case1 here entry held => cases found
  | case2 here missing => cases found
  | case3 here part rest missing => cases found
  | case4 here part rest bytes held => cases found
  | case5 here rest held inductionHypothesis => exact inductionHypothesis found
  | case6 here part rest held named last entry next => cases found
  | case7 here part rest held named last next =>
    obtain rfl := Found.free.inj found
    exact ⟨next, by rw [List.dropLast_concat]; exact held⟩
  | case8 here part rest held named more inductionHypothesis => exact inductionHypothesis found

/-- A path that ends in a name leads to a place of that name. -/
theorem follow_named (store : Store) (here : Location) (front : List Text) {name : Text}
    (proper : name ≠ ['.', '.']) {location : Location}
    (ends : (store.follow here (front ++ [name])).location? = some location) :
    ∃ above, location = above ++ [name] := by
  induction front generalizing here with
  | nil =>
    cases held : store.entry? here with
    | none => simp [follow, held, Found.location?] at ends
    | some entry =>
      cases entry with
      | file bytes => simp [follow, held, Found.location?] at ends
      | directory =>
        refine ⟨here, ?_⟩
        simp only [List.nil_append, follow, held, proper, if_false, List.isEmpty_nil,
          if_true] at ends
        cases next : store.entry? (here ++ [name]) with
        | none => simpa [next, Found.location?] using ends.symm
        | some entry => simpa [next, Found.location?] using ends.symm
  | cons part rest inductionHypothesis =>
    have more : (rest ++ [name]).isEmpty = false := by simp
    cases held : store.entry? here with
    | none => simp [follow, held, Found.location?] at ends
    | some entry =>
      cases entry with
      | file bytes => simp [follow, held, Found.location?] at ends
      | directory =>
        by_cases above : part = ['.', '.']
        · simp only [List.cons_append, follow, held, above, if_true] at ends
          exact inductionHypothesis here.dropLast ends
        · simp only [List.cons_append, follow, held, above, if_false, more,
            Bool.false_eq_true] at ends
          exact inductionHypothesis (here ++ [part]) ends

/-- Looking a path up ends at the same place where directories are kept. -/
theorem find_kept (kept : KeepsDirectories before after)
    (sameStart : after.workingDirectory = before.workingDirectory) {location : Location}
    {entry : Entry} (ends : (before.find path).location? = some location)
    (present : after.entry? location = some entry) :
    after.find path = .entry location entry := by
  unfold find at ends ⊢
  rw [sameStart]
  exact follow_kept kept path.parts _ ends present

/-- A place where nothing was, and a leading part of the path leads to a directory there. -/
structure Added (path : Path) (before after : Store) (location : Location) : Prop where
  missing : before.entry? location = none
  led : ∃ count, after.find (path.leading count) = .entry location .directory

/-- What an added place holds is a directory. -/
theorem Added.directory {location : Location} (added : Added path before after location) :
    after.entry? location = some .directory := by
  obtain ⟨count, found⟩ := added.led
  exact follow_entry after _ _ found

/-- Between two stores nothing has changed but the places listed as written, and directories
have been added along a path. -/
structure Extends (path : Path) (written : List Location) (before after : Store) : Prop where
  sameStart : after.workingDirectory = before.workingDirectory
  kept : KeepsDirectories before after
  elsewhere : ∀ location, location ∉ written →
    after.entry? location = before.entry? location ∨ Added path before after location

theorem Extends.refl (path : Path) (store : Store) : Extends path [] store store :=
  ⟨rfl, fun _ held => held, fun _ _ => .inl rfl⟩

/-- An added directory stays one, and the same part of the path leads to it. -/
theorem Added.later {location : Location} (added : Added path before between location)
    (kept : KeepsDirectories between after)
    (sameStart : after.workingDirectory = between.workingDirectory) :
    Added path before after location := by
  obtain ⟨count, found⟩ := added.led
  have ends : (between.find (path.leading count)).location? = some location := by
    rw [found]
    rfl
  exact ⟨added.missing, count, find_kept kept sameStart ends (kept location added.directory)⟩

/-- What is added along the beginning of a path is added along the path. -/
theorem Extends.widen {count : Nat} {written : List Location}
    (extended : Extends (path.leading count) written before after) :
    Extends path written before after := by
  refine ⟨extended.sameStart, extended.kept, ?_⟩
  intro location unwritten
  rcases extended.elsewhere location unwritten with same | added
  · exact .inl same
  · obtain ⟨fewer, found⟩ := added.led
    rw [Path.leading_leading] at found
    exact .inr ⟨added.missing, _, found⟩

/-- One extension after the other. A directory that the first has added holds something, so
the second cannot add it again. -/
theorem Extends.trans {first second : List Location}
    (earlier : Extends path first before between) (later : Extends path second between after) :
    Extends path (first ++ second) before after := by
  refine ⟨later.sameStart.trans earlier.sameStart,
    fun location held => later.kept location (earlier.kept location held), ?_⟩
  intro location unwritten
  rw [List.mem_append, not_or] at unwritten
  rcases earlier.elsewhere location unwritten.1 with same | added
  · rcases later.elsewhere location unwritten.2 with sameLater | addedLater
    · exact .inl (sameLater.trans same)
    · exact .inr ⟨same ▸ addedLater.missing, addedLater.led⟩
  · exact .inr (added.later later.kept later.sameStart)

/-- What was at a place that is not written to is still there. -/
theorem Extends.entry_kept {written : List Location} {location : Location} {entry : Entry}
    (extended : Extends path written before after) (unwritten : location ∉ written)
    (held : before.entry? location = some entry) : after.entry? location = some entry := by
  rcases extended.elsewhere location unwritten with same | added
  · rw [same, held]
  · rw [added.missing] at held
    cases held

/-- Putting an entry where no directory is changes that place only. -/
theorem set_extends (store : Store) (path : Path) {location : Location} (entry : Entry)
    (vacant : store.entry? location ≠ some .directory) :
    Extends path [location] store (store.set location entry) := by
  have named : location ≠ [] := by
    rintro rfl
    exact vacant rfl
  refine ⟨rfl, ?_, ?_⟩
  · intro other held
    have apart : other ≠ location := by
      rintro rfl
      exact vacant held
    rw [entry_set store named, if_neg apart, held]
  · intro other unwritten
    rw [List.mem_singleton] at unwritten
    exact .inl (by rw [entry_set store named, if_neg unwritten])

/-- A path that led to a place without a directory leads to what is put there. -/
theorem find_set (store : Store) {location : Location} (entry : Entry)
    (ends : (store.find path).location? = some location)
    (vacant : store.entry? location ≠ some .directory) :
    (store.set location entry).find path = .entry location entry := by
  have extended : Extends path [location] store (store.set location entry) :=
    set_extends store path entry vacant
  have named : location ≠ [] := by
    rintro rfl
    exact vacant rfl
  exact find_kept extended.kept extended.sameStart ends
    (by rw [entry_set store named, if_pos rfl])

/-- A path that can be read leads to something. -/
theorem holds_of_read {store : Store} {bytes : List UInt8}
    (readable : store.read path = .ok bytes) : store.holds path = true := by
  unfold read at readable
  unfold holds
  split at readable
  · rename_i location contents found
    rw [found]
  all_goals cases readable

/-- Writing a file puts its bytes where the path leads, and nothing else changes. -/
theorem write_ok {store : Store} {bytes : List UInt8}
    (written : store.write path bytes = .ok after) :
    ∃ location, after.find path = .entry location (.file bytes) ∧
      (store.find path).location? = some location ∧
      ∀ along, Extends along [location] store after := by
  have put : ∃ location, (store.find path).location? = some location ∧
      store.entry? location ≠ some .directory ∧ after = store.set location (.file bytes) := by
    unfold write at written
    split at written
    · rename_i location contents held
      refine ⟨location, by rw [held]; rfl, ?_, (Except.ok.inj written).symm⟩
      rw [follow_entry store _ path.parts held]
      simp
    · rename_i location held
      refine ⟨location, by rw [held]; rfl, ?_, (Except.ok.inj written).symm⟩
      rw [(follow_free store _ path.parts held).1]
      simp
    all_goals cases written
  obtain ⟨location, ends, vacant, rfl⟩ := put
  exact ⟨location, find_set store (.file bytes) ends vacant, ends,
    fun along => set_extends store along (.file bytes) vacant⟩

/-- Trying a directory adds it or changes nothing. -/
theorem tryDirectory_extends (store : Store) (path : Path) :
    Extends path [] store (store.tryDirectory path).1 := by
  unfold tryDirectory makeDirectory
  cases held : store.find path with
  | entry location entry => cases entry <;> exact Extends.refl path store
  | nowhere => exact Extends.refl path store
  | blocked => exact Extends.refl path store
  | free location =>
    have missing : store.entry? location = none := (follow_free store _ path.parts held).1
    have vacant : store.entry? location ≠ some .directory := by simp [missing]
    have ends : (store.find path).location? = some location := by rw [held]; rfl
    have extended : Extends path [location] store (store.set location .directory) :=
      set_extends store path .directory vacant
    refine ⟨extended.sameStart, extended.kept, ?_⟩
    intro other _
    by_cases same : other = location
    · subst same
      exact .inr ⟨missing, path.parts.length, by
        rw [path.leading_length]
        exact find_set store .directory ends vacant⟩
    · exact extended.elsewhere other (by rw [List.mem_singleton]; exact same)

/-- Making directories only adds them, also where it is refused in the end. -/
theorem makeLeading_extends (store : Store) (path : Path) (count : Nat) :
    Extends path [] store (store.makeLeading path count).1 := by
  induction count with
  | zero => exact (tryDirectory_extends store (path.leading 0)).widen
  | succ count inductionHypothesis =>
    have tried (start : Store) := (tryDirectory_extends start (path.leading (count + 1))).widen
    cases ended : store.makeLeading path count with
    | mk made refusal =>
      rw [ended] at inductionHypothesis
      simp only [makeLeading, ended]
      cases store.find (path.leading (count + 1)) with
      | nowhere =>
        cases refusal with
        | none => exact inductionHypothesis.trans (tried made)
        | some error => exact inductionHypothesis
      | entry location entry => exact tried store
      | free location => exact tried store
      | blocked => exact tried store

/-- Making the directories of a path only adds some along the path. -/
theorem makeDirectories_extends (store : Store) (path : Path) :
    Extends path [] store (store.makeDirectories path).1 := by
  unfold makeDirectories
  split
  · exact Extends.refl path store
  · exact makeLeading_extends store path path.parts.length

end Store

end Manuscript
