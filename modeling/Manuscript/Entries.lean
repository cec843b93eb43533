/-!
# Entries

The fields of an object, the variables of an environment and the files of a store are
entries with keys. Entries are listed in the order in which their keys first came, because
the order is visible in what is written; giving a key another value keeps its place.

So the other keys have the entries that they had, and no key gets a second entry. Entries
with keys that all differ come out as they went in.
-/

namespace Manuscript.Entries

variable {κ α : Type} [DecidableEq κ]

/-- Give a key a value: in its place if it has an entry, at the end if not. -/
def put (key : κ) (value : α) : List (κ × α) → List (κ × α)
  | [] => [(key, value)]
  | (other, old) :: rest =>
    if other = key then (key, value) :: rest else (other, old) :: put key value rest

/-- Keep one entry per key: it stands where the key first occurs and has the value that the
key last has. -/
def ofPairs (pairs : List (κ × α)) : List (κ × α) :=
  pairs.foldl (fun kept pair => put pair.1 pair.2 kept) []

/-- Another key has the entry that it had. -/
theorem lookup_put [BEq κ] [LawfulBEq κ] (key other : κ) (value : α) (entries : List (κ × α)) :
    (put key value entries).lookup other =
      if other = key then some value else entries.lookup other := by
  induction entries with
  | nil =>
    by_cases same : other = key
    · simp [put, same]
    · simp [put, same, List.lookup_cons, beq_eq_false_iff_ne.mpr same]
  | cons first rest inductionHypothesis =>
    obtain ⟨firstKey, old⟩ := first
    by_cases placed : firstKey = key
    · subst placed
      by_cases same : other = firstKey
      · simp [put, same]
      · simp [put, same, List.lookup_cons, beq_eq_false_iff_ne.mpr same]
    · by_cases same : other = key
      · subst same
        have apart : (other == firstKey) = false := beq_eq_false_iff_ne.mpr (Ne.symm placed)
        simp [put, placed, List.lookup_cons, apart, inductionHypothesis]
      · simp only [put, placed, if_false, List.lookup_cons, inductionHypothesis, same]

/-- A key without an entry gets one at the end. -/
theorem put_fresh (key : κ) (value : α) (entries : List (κ × α))
    (fresh : key ∉ entries.map Prod.fst) :
    put key value entries = entries ++ [(key, value)] := by
  induction entries with
  | nil => rfl
  | cons entry rest inductionHypothesis =>
    rw [List.map_cons, List.mem_cons, not_or] at fresh
    rw [put, if_neg (Ne.symm fresh.1), inductionHypothesis fresh.2, List.cons_append]

/-- A key that has an entry keeps its place. -/
theorem keys_put (key : κ) (value : α) (entries : List (κ × α))
    (known : key ∈ entries.map Prod.fst) :
    (put key value entries).map Prod.fst = entries.map Prod.fst := by
  induction entries with
  | nil => cases known
  | cons entry rest inductionHypothesis =>
    obtain ⟨other, old⟩ := entry
    by_cases same : other = key
    · simp [put, same]
    · have later : key ∈ rest.map Prod.fst := by
        rcases List.mem_cons.mp known with here | later
        · exact absurd here.symm same
        · exact later
      simp [put, same, inductionHypothesis later]

theorem nodup_put (key : κ) (value : α) (entries : List (κ × α))
    (distinct : (entries.map Prod.fst).Nodup) :
    ((put key value entries).map Prod.fst).Nodup := by
  by_cases known : key ∈ entries.map Prod.fst
  · rw [keys_put key value entries known]
    exact distinct
  · rw [put_fresh key value entries known, List.map_append, List.nodup_append]
    refine ⟨distinct, List.pairwise_singleton _ key, ?_⟩
    rintro other member _ (_ | ⟨_, ⟨⟩⟩) rfl
    exact known member

theorem mem_put {key : κ} {value : α} {entries : List (κ × α)} {entry : κ × α}
    (member : entry ∈ put key value entries) : entry = (key, value) ∨ entry ∈ entries := by
  induction entries with
  | nil => exact .inl (List.mem_singleton.mp member)
  | cons first rest inductionHypothesis =>
    unfold put at member
    split at member
    · rcases List.mem_cons.mp member with same | later
      · exact .inl same
      · exact .inr (List.mem_cons_of_mem first later)
    · rcases List.mem_cons.mp member with same | later
      · exact .inr (same ▸ List.mem_cons_self)
      · exact (inductionHypothesis later).imp_right (List.mem_cons_of_mem first)

/-- Putting in entries one after the other keeps the keys apart, and brings nothing in that was
neither there nor put in. -/
theorem foldl_put_entries (kept others : List (κ × α)) (distinct : (kept.map Prod.fst).Nodup) :
    ((others.foldl (fun kept pair => put pair.1 pair.2 kept) kept).map Prod.fst).Nodup ∧
      ∀ pair ∈ others.foldl (fun kept pair => put pair.1 pair.2 kept) kept,
        pair ∈ kept ∨ pair ∈ others := by
  induction others generalizing kept with
  | nil => exact ⟨distinct, fun pair member => .inl member⟩
  | cons first rest inductionHypothesis =>
    obtain ⟨apart, origin⟩ := inductionHypothesis (put first.1 first.2 kept)
      (nodup_put first.1 first.2 kept distinct)
    refine ⟨apart, ?_⟩
    intro pair member
    rcases origin pair member with earlier | later
    · rcases mem_put earlier with same | old
      · exact .inr (same ▸ List.mem_cons_self)
      · exact .inl old
    · exact .inr (List.mem_cons_of_mem first later)

/-- One entry per key has every key once, and every entry from the pairs. -/
theorem ofPairs_entries (pairs : List (κ × α)) :
    ((ofPairs pairs).map Prod.fst).Nodup ∧ ∀ pair ∈ ofPairs pairs, pair ∈ pairs := by
  obtain ⟨apart, origin⟩ := foldl_put_entries [] pairs List.nodup_nil
  refine ⟨apart, ?_⟩
  intro pair member
  exact (origin pair member).resolve_left List.not_mem_nil

/-- Entries whose keys are new are all appended. -/
theorem foldl_put_fresh (kept others : List (κ × α))
    (distinct : ((kept ++ others).map Prod.fst).Nodup) :
    others.foldl (fun kept pair => put pair.1 pair.2 kept) kept = kept ++ others := by
  induction others generalizing kept with
  | nil => rw [List.foldl_nil, List.append_nil]
  | cons first rest inductionHypothesis =>
    have fresh : first.1 ∉ kept.map Prod.fst := by
      rw [List.map_append, List.nodup_append] at distinct
      intro member
      exact distinct.2.2 _ member _ List.mem_cons_self rfl
    rw [List.foldl_cons, put_fresh first.1 first.2 kept fresh, inductionHypothesis]
    · rw [List.append_assoc, List.singleton_append]
    · rwa [List.append_assoc, List.singleton_append]

/-- Pairs whose keys differ are one entry per key already. -/
theorem ofPairs_distinct (pairs : List (κ × α)) (distinct : (pairs.map Prod.fst).Nodup) :
    ofPairs pairs = pairs :=
  foldl_put_fresh [] pairs distinct

end Manuscript.Entries
