import Manuscript.Proofs.Positions

/-!
# A walk in post-order

A walk calls its rewrite for the nodes of a value one after the other, in post-order, and nowhere
else: it is the run of one visit for each position of a node, which rewrites what is there in its
place. This holds in every lawful monad, so also for a rewrite that fails or that keeps a state
from one call to the next.

When a node is visited, all nodes inside it have been, and none around it. So the rewrite is given
the names of its fields as they were, in their order, and the values that a walk gives for theirs.
-/

namespace Manuscript.Document

open Json

variable {m : Type → Type} [Monad m]

/-- Rewrite the object at a position, in its place. -/
def visit (rewrite : List (Text × Json) → m Json) (tree : Json) (position : Position) : m Json :=
  match tree.at? position with
  | some (.object fields) => do
    let reply ← rewrite fields
    return tree.put position reply
  | _ => return tree

/-- Rewrite a value if it is a node. -/
def settle (rewrite : List (Text × Json) → m Json) : Json → m Json
  | .object fields => if isNode fields then rewrite fields else return .object fields
  | other => return other

/-- Whether an object is a node is a matter of its names. -/
theorem isNode_iff (fields : List (Text × Json)) :
    isNode fields = true ↔ kindField ∈ fields.map Prod.fst := by
  rw [isNode, field?, List.lookup_isSome_iff, List.mem_map]
  constructor
  · rintro ⟨field, member, same⟩
    exact ⟨field, member, (beq_iff_eq.mp same).symm⟩
  · rintro ⟨field, member, same⟩
    exact ⟨field, member, beq_iff_eq.mpr same.symm⟩

theorem isNode_zip {fields : List (Text × Json)} {values : List Json}
    (same : values.length = fields.length) :
    isNode ((fields.map Prod.fst).zip values) = isNode fields := by
  rw [Bool.eq_iff_iff, isNode_iff, isNode_iff, names_zip same]

theorem ownPosition_holding {value : Json} {values : List Json}
    (same : values.length = value.held.length) :
    ownPosition (value.holding values) = ownPosition value := by
  cases value with
  | object fields =>
    have sameLength : values.length = fields.length := by simpa [held] using same
    rw [holding, ownPosition, ownPosition, isNode_zip sameLength]
  | _ => rfl

section Lawful

variable [LawfulMonad m] (rewrite : List (Text × Json) → m Json)

theorem walkItems_eq (items : List Json) : walkItems rewrite items = items.mapM (walk rewrite) := by
  induction items with
  | nil => rfl
  | cons item rest inductionHypothesis => rw [walkItems, inductionHypothesis, List.mapM_cons]

/-- The values of fields are walked from the first to the last, and the names stay with them. -/
theorem walkFields_eq (fields : List (Text × Json)) :
    walkFields rewrite fields = do
      let values ← (fields.map Prod.snd).mapM (walk rewrite)
      return (fields.map Prod.fst).zip values := by
  induction fields with
  | nil => simp [walkFields]
  | cons field rest inductionHypothesis =>
    rw [walkFields, inductionHypothesis]
    simp

/-- A walk walks the values that are held, and then rewrites what holds them now. -/
theorem walk_eq (value : Json) :
    walk rewrite value = (do
      let values ← value.held.mapM (walk rewrite)
      settle rewrite (value.holding values)) := by
  cases value with
  | array items =>
    rw [walk, walkItems_eq]
    rfl
  | object fields =>
    rw [walk, walkFields_eq, bind_assoc]
    simp only [pure_bind]
    rfl
  | _ => simp [walk, held, holding, settle]

/-- What is done with results may depend on their number. -/
theorem mapM_bind_congr {α : Type} {step : Json → m Json} {items : List Json}
    {next another : List Json → m α}
    (same : ∀ values, values.length = items.length → next values = another values) :
    items.mapM step >>= next = items.mapM step >>= another := by
  induction items generalizing next another with
  | nil => simp [same []]
  | cons item rest inductionHypothesis =>
    simp only [List.mapM_cons, bind_assoc, pure_bind]
    congr 1
    funext first
    exact inductionHypothesis fun values length => same (first :: values) (by simp [length])

/-- The last visit to a value is the one to itself, if it is a node. -/
theorem visit_own {tree value : Json} {position : Position}
    (there : tree.at? position = some value) :
    ((ownPosition value).map (position ++ ·)).foldlM (visit rewrite) tree = do
      let reply ← settle rewrite value
      return tree.put position reply := by
  have kept : (return tree.put position value) = (pure tree : m Json) := by rw [put_self there]
  cases value with
  | object fields =>
    rw [ownPosition, settle]
    by_cases node : isNode fields = true
    · simp [node, visit, there]
    · simp [node, kept]
  | _ => simp [ownPosition, settle, kept]

/-- The visits to the nodes in items are the walks of the items, one after the other. The items
before them have been walked already. -/
theorem visits_items (value : Json) (position : Position) {rest : List Json}
    (each : ∀ inner ∈ rest, ∀ (tree : Json) (place : Position), tree.at? place = some inner →
      ((nodePositions inner).map (place ++ ·)).foldlM (visit rewrite) tree = do
        let reply ← walk rewrite inner
        return tree.put place reply)
    (done : List Json) (tree : Json) (whole : (done ++ rest).length = value.held.length)
    (there : tree.at? position = some (value.holding (done ++ rest))) :
    ((itemPositions done.length rest).map (position ++ ·)).foldlM (visit rewrite) tree = do
      let values ← rest.mapM (walk rewrite)
      return tree.put position (value.holding (done ++ values)) := by
  induction rest generalizing done tree with
  | nil =>
    rw [List.append_nil] at there
    simp [itemPositions, put_self there]
  | cons item others inductionHypothesis =>
    obtain ⟨first, later⟩ := List.forall_mem_cons.mp each
    have here : tree.at? (position ++ [done.length]) = some item := by
      rw [at?_append, there, Option.bind_some, at?, held_holding whole]
      simp [at?]
    have split : (itemPositions done.length (item :: others)).map (position ++ ·) =
        (nodePositions item).map ((position ++ [done.length]) ++ ·) ++
          (itemPositions (done.length + 1) others).map (position ++ ·) := by
      simp [itemPositions]
    have placed (reply : Json) : tree.put (position ++ [done.length]) reply =
        tree.put position (value.holding (done ++ reply :: others)) := by
      rw [put_append there, put, held_holding whole, holding_holding whole]
      simp [put, List.modify_eq_take_cons_drop]
    rw [split, List.foldlM_append, first tree _ here, List.mapM_cons, bind_assoc, bind_assoc]
    congr 1
    funext reply
    have longer : ((done ++ [reply]) ++ others).length = value.held.length := by
      simpa using whole
    have behind := inductionHypothesis later (done ++ [reply])
      (tree.put position (value.holding ((done ++ [reply]) ++ others))) longer (at?_put there _)
    rw [pure_bind, placed, bind_assoc]
    simp only [pure_bind]
    simpa [put_put] using behind

/-- The visits to the nodes in a value, wherever it is, are the walk of the value. The induction is
on the value: what it holds is walked first. -/
theorem visits_value (value tree : Json) (position : Position)
    (there : tree.at? position = some value) :
    ((nodePositions value).map (position ++ ·)).foldlM (visit rewrite) tree = do
      let reply ← walk rewrite value
      return tree.put position reply := by
  induction value using held_induction generalizing tree position with
  | step value inductionHypothesis =>
    have inside := visits_items rewrite value position
      (fun inner member tree place => inductionHypothesis inner member tree place) [] tree rfl
      (by rw [List.nil_append, holding_held, there])
    rw [nodePositions_eq, List.map_append, List.foldlM_append]
    rw [List.length_nil] at inside
    rw [inside, walk_eq, bind_assoc, bind_assoc]
    apply mapM_bind_congr
    intro values same
    have now := at?_put there (value.holding values)
    have own := visit_own rewrite now
    rw [ownPosition_holding same] at own
    rw [pure_bind, List.nil_append, own]
    simp only [put_put]

/-- A walk is a visit to each node in post-order. -/
theorem walk_eq_visits (value : Json) :
    walk rewrite value = (nodePositions value).foldlM (visit rewrite) value := by
  have visits := visits_value rewrite value value [] rfl
  simpa [put] using visits.symm

/-- Visits elsewhere leave what is at a position as it is. -/
theorem visits_apart {α : Type} {position : Position} {kept : Json} {others : List Position}
    (apart : ∀ other ∈ others, Apart other position) {tree : Json}
    (there : tree.at? position = some kept) {next another : Json → m α}
    (same : ∀ changed, changed.at? position = some kept → next changed = another changed) :
    others.foldlM (visit rewrite) tree >>= next =
      others.foldlM (visit rewrite) tree >>= another := by
  induction others generalizing tree with
  | nil => simpa using same tree there
  | cons other rest inductionHypothesis =>
    obtain ⟨first, later⟩ := List.forall_mem_cons.mp apart
    simp only [List.foldlM_cons, bind_assoc]
    unfold visit
    split
    · simp only [bind_assoc, pure_bind]
      congr 1
      funext reply
      exact inductionHypothesis later ((at?_put_apart first tree reply).trans there)
    · simp only [pure_bind]
      exact inductionHypothesis later there

/-- A node is rewritten when its values have been walked, with its names in their order. -/
theorem walk_node {fields : List (Text × Json)} (node : isNode fields = true) :
    walk rewrite (.object fields) = (do
      let values ← (fields.map Prod.snd).mapM (walk rewrite)
      rewrite ((fields.map Prod.fst).zip values)) := by
  rw [walk_eq]
  apply mapM_bind_congr
  intro values same
  have kept : isNode ((fields.map Prod.fst).zip values) = true := by
    rw [isNode_zip (by simpa [held] using same), node]
  rw [holding, settle, if_pos kept]

/-- A walk from the point of view of one node: first the visits to the nodes that come before it
and are not inside it, then the walk of its values, the rewrite of the node, and the visits to the
nodes behind it. -/
theorem walk_around {value : Json} {position : Position} {fields : List (Text × Json)}
    (there : value.at? position = some (.object fields)) (node : isNode fields = true)
    {beside behind : List Position}
    (split : nodePositions value =
      beside ++ ((nodePositions (.object fields)).map (position ++ ·) ++ behind))
    (apart : ∀ other ∈ beside, Apart other position) :
    walk rewrite value = (do
      let tree ← beside.foldlM (visit rewrite) value
      let values ← (fields.map Prod.snd).mapM (walk rewrite)
      let reply ← rewrite ((fields.map Prod.fst).zip values)
      behind.foldlM (visit rewrite) (tree.put position reply)) := by
  rw [walk_eq_visits, split, List.foldlM_append]
  apply visits_apart rewrite apart there
  intro tree kept
  rw [List.foldlM_append, visits_value rewrite _ tree position kept, walk_node rewrite node]
  simp only [bind_assoc, pure_bind]

/-- A rewrite that gives back what it is given leaves every value as it is. -/
theorem walk_unchanged (value : Json) :
    walk (fun fields => pure (.object fields)) value = (pure value : m Json) := by
  induction value using held_induction with
  | step value inductionHypothesis =>
    have inside := walkItems_pure (m := m) _ id value.held inductionHypothesis
    rw [walk_eq, ← walkItems_eq, inside, pure_bind, List.map_id, holding_held]
    cases value with
    | object fields => exact ite_self _
    | _ => rfl

end Lawful

/-- A walk sees no more of a state than its rewrite does. -/
theorem walk_coarse {σ τ : Type} (coarse : σ → τ) {rewrite : List (Text × Json) → StateM σ Json}
    {another : List (Text × Json) → StateM τ Json}
    (same : ∀ fields state,
      ((rewrite fields).run state).map id coarse = (another fields).run (coarse state))
    (value : Json) (state : σ) :
    ((walk rewrite value).run state).map id coarse = (walk another value).run (coarse state) := by
  rw [walk_eq_visits, walk_eq_visits]
  induction nodePositions value generalizing value state with
  | nil => rfl
  | cons position rest inductionHypothesis =>
    have first : ((visit rewrite value position).run state).map id coarse =
        (visit another value position).run (coarse state) := by
      unfold visit
      split
      · rw [StateT.run_bind, StateT.run_bind, ← same]
        rfl
      · rfl
    rw [List.foldlM_cons, List.foldlM_cons, StateT.run_bind, StateT.run_bind, ← first]
    exact inductionHypothesis _ _

end Manuscript.Document
