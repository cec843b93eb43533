import Manuscript.Proofs.Tree
import Mathlib.Data.List.Infix

/-!
# Positions in a tree

A value is reached from a whole tree by a position, which says at each step the number of an item
or a field. What is at a position can be exchanged, with all around it left as it is: the names of
fields, their order, and everything that is not on the way.

The nodes of a tree are listed by their positions in post-order, each of them once: what is inside
a node comes before it, and of two that are not inside each other the one comes first that is in
the item or field with the smaller number where their ways part.
-/

namespace Manuscript.Json

/-- The way to a value inside another one: at each step the number of an item or of a field. -/
abbrev Position := List Nat

/-- The values that a value directly holds, in their order. -/
def held : Json → List Json
  | .array items => items
  | .object fields => fields.map Prod.snd
  | _ => []

/-- A value with others in place of those that it holds. The names of fields stay. -/
def holding : Json → List Json → Json
  | .array _, values => .array values
  | .object fields, values => .object ((fields.map Prod.fst).zip values)
  | leaf, _ => leaf

/-- What is at a position. -/
def at? : Json → Position → Option Json
  | value, [] => some value
  | value, number :: rest => value.held[number]?.bind fun inner => at? inner rest

/-- Put a value at a position, in place of what is there. -/
def put : Json → Position → Json → Json
  | _, [], new => new
  | value, number :: rest, new =>
    value.holding (value.held.modify number fun inner => put inner rest new)

/-! ## What a value holds -/

theorem held_holding {value : Json} {values : List Json}
    (same : values.length = value.held.length) : (value.holding values).held = values := by
  cases value with
  | array items => rfl
  | object fields =>
    have enough : values.length ≤ (fields.map Prod.fst).length := by
      simpa [held] using Nat.le_of_eq same
    exact List.map_snd_zip enough
  | _ => exact (List.eq_nil_of_length_eq_zero same).symm

theorem holding_held (value : Json) : value.holding value.held = value := by
  cases value with
  | object fields => exact congrArg Json.object (List.zip_of_prod rfl rfl).symm
  | _ => rfl

/-- The names of fields do not depend on the values. -/
theorem names_zip {fields : List (Text × Json)} {values : List Json}
    (same : values.length = fields.length) :
    ((fields.map Prod.fst).zip values).map Prod.fst = fields.map Prod.fst := by
  apply List.map_fst_zip
  rw [List.length_map, same]

theorem holding_holding {value : Json} {values others : List Json}
    (same : values.length = value.held.length) :
    (value.holding values).holding others = value.holding others := by
  cases value with
  | object fields =>
    have sameLength : values.length = fields.length := by simpa [held] using same
    exact congrArg (fun found => Json.object (found.zip others)) (names_zip sameLength)
  | _ => rfl

/-- What holds of a value whenever it holds of the values that it directly holds, holds of every
value. -/
theorem held_induction {P : Json → Prop}
    (step : ∀ value, (∀ inner ∈ value.held, P inner) → P value) : ∀ value, P value := by
  intro value
  induction value using Document.value_induction with
  | array items inductionHypothesis => exact step _ inductionHypothesis
  | object fields inductionHypothesis =>
    apply step
    intro inner member
    obtain ⟨field, known, rfl⟩ := List.mem_map.mp member
    exact inductionHypothesis field known
  | _ => exact step _ nofun

/-! ## What is at a position -/

theorem at?_append (value : Json) (position further : Position) :
    value.at? (position ++ further) = (value.at? position).bind fun inner => inner.at? further := by
  induction position generalizing value with
  | nil => rfl
  | cons number rest inductionHypothesis =>
    rw [List.cons_append, at?, at?, Option.bind_assoc]
    exact Option.bind_congr fun inner _ => inductionHypothesis inner

/-- Putting a value into one that is held puts it into the list of those. -/
theorem held_put_cons (value : Json) (number : Nat) (rest : Position) (new : Json) :
    (value.put (number :: rest) new).held =
      value.held.modify number fun inner => inner.put rest new :=
  held_holding (List.length_modify ..)

theorem at?_put {value old : Json} {position : Position} (there : value.at? position = some old)
    (new : Json) : (value.put position new).at? position = some new := by
  induction position generalizing value with
  | nil => rfl
  | cons number rest inductionHypothesis =>
    obtain ⟨inner, found, deeper⟩ := Option.bind_eq_some_iff.mp there
    rw [at?, held_put_cons, List.getElem?_modify_eq, found]
    exact inductionHypothesis deeper

/-- Of two values put at a position the second one stays. -/
theorem put_put (value first second : Json) (position : Position) :
    (value.put position first).put position second = value.put position second := by
  induction position generalizing value with
  | nil => rfl
  | cons number rest inductionHypothesis =>
    rw [put, held_put_cons, List.modify_modify_eq, put, put,
      holding_holding (List.length_modify ..)]
    congr 2
    funext inner
    exact inductionHypothesis inner

/-- Only the value at the place of a change matters to it. -/
theorem modify_congr {values : List Json} {number : Nat} {inner : Json}
    (found : values[number]? = some inner) {change another : Json → Json}
    (same : change inner = another inner) :
    values.modify number change = values.modify number another := by
  apply List.ext_getElem?
  intro other
  by_cases here : number = other
  · subst here
    rw [List.getElem?_modify_eq, List.getElem?_modify_eq, found]
    exact congrArg some same
  · rw [List.getElem?_modify_ne _ _ here, List.getElem?_modify_ne _ _ here]

/-- Putting a value where it is changes nothing. -/
theorem put_self {value inner : Json} {position : Position}
    (there : value.at? position = some inner) : value.put position inner = value := by
  induction position generalizing value with
  | nil => exact (Option.some.inj there).symm
  | cons number rest inductionHypothesis =>
    obtain ⟨outer, found, deeper⟩ := Option.bind_eq_some_iff.mp there
    have same : value.held.modify number (fun other => other.put rest inner) =
        value.held.modify number id := modify_congr found (inductionHypothesis deeper)
    rw [put, same, List.modify_id, holding_held]

/-- Putting a value further inside is putting what holds it. -/
theorem put_append {value inner : Json} {position : Position}
    (there : value.at? position = some inner) (further : Position) (new : Json) :
    value.put (position ++ further) new = value.put position (inner.put further new) := by
  induction position generalizing value with
  | nil =>
    cases there
    rfl
  | cons number rest inductionHypothesis =>
    obtain ⟨outer, found, deeper⟩ := Option.bind_eq_some_iff.mp there
    rw [List.cons_append, put, put]
    exact congrArg value.holding (modify_congr found (inductionHypothesis deeper))

/-- Neither position leads on from the other one. -/
def Apart (position other : Position) : Prop := ¬position <+: other ∧ ¬other <+: position

theorem apart_cons_iff (number : Nat) (position other : Position) :
    Apart (number :: position) (number :: other) ↔ Apart position other := by
  simp [Apart, List.cons_prefix_cons]

theorem apart_of_ne {number another : Nat} (differs : number ≠ another)
    (position other : Position) : Apart (number :: position) (another :: other) := by
  simp [Apart, List.cons_prefix_cons, differs, differs.symm]

/-- What is elsewhere stays where a value is put. -/
theorem at?_put_apart {position other : Position} (apart : Apart position other)
    (value new : Json) : (value.put position new).at? other = value.at? other := by
  induction position generalizing other value with
  | nil => exact absurd List.nil_prefix apart.1
  | cons number rest inductionHypothesis =>
    cases other with
    | nil => exact absurd List.nil_prefix apart.2
    | cons another further =>
      rw [at?, at?, held_put_cons]
      by_cases same : number = another
      · subst same
        have deeper := (apart_cons_iff number rest further).mp apart
        rw [List.getElem?_modify_eq]
        cases value.held[number]? with
        | none => rfl
        | some inner => exact inductionHypothesis deeper inner
      · rw [List.getElem?_modify_ne _ _ same]

end Manuscript.Json

namespace Manuscript.Document

open Json

/-- There is a node at a position. -/
def NodeAt (value : Json) (position : Position) : Prop :=
  ∃ fields, value.at? position = some (.object fields) ∧ isNode fields = true

/-- One position comes before another one in post-order: it leads on from the other one, or has the
smaller number where their ways part. -/
inductive Before : Position → Position → Prop where
  | inside (number : Nat) (rest : Position) : Before (number :: rest) []
  | earlier {number another : Nat} (smaller : number < another) (rest further : Position) :
      Before (number :: rest) (another :: further)
  | later (number : Nat) {rest further : Position} (before : Before rest further) :
      Before (number :: rest) (number :: further)

/-- No two positions come before each other. -/
theorem Before.asymm {position other : Position} (before : Before position other) :
    ¬Before other position := by
  induction before with
  | inside number rest => nofun
  | earlier smaller rest further =>
    intro reversed
    cases reversed with
    | earlier larger => exact absurd smaller (Nat.lt_asymm larger)
    | later => exact absurd smaller (Nat.lt_irrefl _)
  | later number before inductionHypothesis =>
    intro reversed
    cases reversed with
    | earlier smaller => exact absurd smaller (Nat.lt_irrefl _)
    | later _ deeper => exact inductionHypothesis deeper

/-- What is inside comes first. -/
theorem inner_before {outer inner : Position} (inside : outer <+: inner)
    (differs : outer ≠ inner) : Before inner outer := by
  obtain ⟨further, rfl⟩ := inside
  have longer : further ≠ [] := by
    rintro rfl
    exact differs (List.append_nil outer).symm
  obtain ⟨number, rest, rfl⟩ := List.exists_cons_of_ne_nil longer
  induction outer with
  | nil => exact .inside number rest
  | cons step outer inductionHypothesis =>
    exact .later step (inductionHypothesis (by simp))

mutual

/-- The positions of the nodes of a value in post-order. -/
def nodePositions : Json → List Position
  | .array items => itemPositions 0 items
  | .object fields => fieldPositions 0 fields ++ if isNode fields then [[]] else []
  | .null | .boolean _ | .integer _ | .real _ | .string _ => []

/-- The positions of the nodes of items, which are counted from a number on. -/
def itemPositions : Nat → List Json → List Position
  | _, [] => []
  | number, item :: rest =>
    (nodePositions item).map (number :: ·) ++ itemPositions (number + 1) rest

/-- The positions of the nodes of fields, which are counted from a number on. -/
def fieldPositions : Nat → List (Text × Json) → List Position
  | _, [] => []
  | number, (_, value) :: rest =>
    (nodePositions value).map (number :: ·) ++ fieldPositions (number + 1) rest

end

/-- The position of a value itself, if it is a node. -/
def ownPosition : Json → List Position
  | .object fields => if isNode fields then [[]] else []
  | _ => []

theorem fieldPositions_eq (number : Nat) (fields : List (Text × Json)) :
    fieldPositions number fields = itemPositions number (fields.map Prod.snd) := by
  induction fields generalizing number with
  | nil => rfl
  | cons field rest inductionHypothesis =>
    rw [fieldPositions, inductionHypothesis, List.map_cons, itemPositions]

/-- The nodes inside a value come before the value. -/
theorem nodePositions_eq (value : Json) :
    nodePositions value = itemPositions 0 value.held ++ ownPosition value := by
  cases value with
  | array items => simp [nodePositions, held, ownPosition]
  | object fields => rw [nodePositions, fieldPositions_eq, held, ownPosition]
  | _ => rfl

theorem mem_ownPosition_iff (value : Json) (position : Position) :
    position ∈ ownPosition value ↔ position = [] ∧ NodeAt value [] := by
  cases value with
  | object fields =>
    by_cases node : isNode fields = true
    · simp [ownPosition, node, NodeAt, at?]
    · simp [ownPosition, node, NodeAt, at?]
  | _ => simp [ownPosition, NodeAt, at?]

/-- The positions of items begin with their numbers. -/
theorem mem_itemPositions_iff (start : Nat) (items : List Json) (position : Position) :
    position ∈ itemPositions start items ↔
      ∃ number inner rest, items[number]? = some inner ∧ position = (start + number) :: rest ∧
        rest ∈ nodePositions inner := by
  induction items generalizing start with
  | nil => simp [itemPositions]
  | cons item others inductionHypothesis =>
    rw [itemPositions, List.mem_append, inductionHypothesis, List.mem_map]
    constructor
    · rintro (⟨rest, known, rfl⟩ | ⟨number, inner, rest, found, rfl, known⟩)
      · exact ⟨0, item, rest, rfl, rfl, known⟩
      · exact ⟨number + 1, inner, rest, found, by rw [Nat.add_right_comm, Nat.add_assoc], known⟩
    · rintro ⟨number, inner, rest, found, rfl, known⟩
      cases number with
      | zero =>
        cases found
        exact .inl ⟨rest, known, rfl⟩
      | succ number =>
        exact .inr ⟨number, inner, rest, found, by rw [Nat.add_right_comm, Nat.add_assoc], known⟩

/-- Exactly the positions of nodes are listed. -/
theorem mem_nodePositions_iff (value : Json) (position : Position) :
    position ∈ nodePositions value ↔ NodeAt value position := by
  induction value using held_induction generalizing position with
  | step value inductionHypothesis =>
    rw [nodePositions_eq, List.mem_append, mem_ownPosition_iff, mem_itemPositions_iff]
    constructor
    · rintro (⟨number, inner, rest, found, rfl, known⟩ | ⟨rfl, node⟩)
      · obtain ⟨fields, there, node⟩ :=
          (inductionHypothesis inner (List.mem_of_getElem? found) rest).mp known
        exact ⟨fields, by rw [at?, Nat.zero_add, found]; exact there, node⟩
      · exact node
    · rintro ⟨fields, there, node⟩
      cases position with
      | nil => exact .inr ⟨rfl, fields, there, node⟩
      | cons number rest =>
        obtain ⟨inner, found, deeper⟩ := Option.bind_eq_some_iff.mp there
        have known := (inductionHypothesis inner (List.mem_of_getElem? found) rest).mpr
          ⟨fields, deeper, node⟩
        exact .inl ⟨number, inner, rest, found, by rw [Nat.zero_add], known⟩

/-- The positions of items are in order if those of each item are. -/
theorem pairwise_itemPositions (start : Nat) (items : List Json)
    (each : ∀ item ∈ items, (nodePositions item).Pairwise Before) :
    (itemPositions start items).Pairwise Before := by
  induction items generalizing start with
  | nil => exact .nil
  | cons item others inductionHypothesis =>
    obtain ⟨first, rest⟩ := List.forall_mem_cons.mp each
    rw [itemPositions, List.pairwise_append]
    refine ⟨List.pairwise_map.mpr (first.imp (.later start)), inductionHypothesis _ rest, ?_⟩
    intro position here another there
    obtain ⟨inner, -, rfl⟩ := List.mem_map.mp here
    obtain ⟨number, _, further, -, rfl, -⟩ := (mem_itemPositions_iff _ others another).mp there
    exact .earlier (by omega) inner further

/-- The positions of nodes are listed in post-order. -/
theorem pairwise_nodePositions (value : Json) : (nodePositions value).Pairwise Before := by
  induction value using held_induction with
  | step value inductionHypothesis =>
    rw [nodePositions_eq, List.pairwise_append]
    refine ⟨pairwise_itemPositions 0 _ inductionHypothesis, ?_, ?_⟩
    · cases value with
      | object fields =>
        rw [ownPosition]
        split
        · exact List.pairwise_singleton _ _
        · exact .nil
      | _ => exact .nil
    · intro position here another own
      obtain ⟨number, _, rest, -, rfl, -⟩ := (mem_itemPositions_iff _ _ position).mp here
      obtain ⟨rfl, -⟩ := (mem_ownPosition_iff value another).mp own
      exact .inside _ rest

/-- The positions of items are those of the items before one, its own and those of the items
behind it. -/
theorem itemPositions_split {items : List Json} {number : Nat} {inner : Json}
    (found : items[number]? = some inner) (start : Nat) :
    ∃ behind, itemPositions start items = itemPositions start (items.take number) ++
      ((nodePositions inner).map ((start + number) :: ·) ++ behind) := by
  induction items generalizing number start with
  | nil => simp at found
  | cons item others inductionHypothesis =>
    cases number with
    | zero =>
      cases found
      exact ⟨_, rfl⟩
    | succ number =>
      obtain ⟨behind, split⟩ := inductionHypothesis found (start + 1)
      refine ⟨behind, ?_⟩
      rw [itemPositions, split, List.take_succ_cons, itemPositions, List.append_assoc,
        Nat.add_right_comm, Nat.add_assoc]

/-- The nodes in a value that is at some position are listed one behind the other, and those that
are listed before them are elsewhere. -/
theorem nodePositions_split {value inner : Json} {position : Position}
    (there : value.at? position = some inner) :
    ∃ beside behind, nodePositions value =
        beside ++ ((nodePositions inner).map (position ++ ·) ++ behind) ∧
      ∀ other ∈ beside, Apart other position := by
  induction position generalizing value with
  | nil =>
    cases there
    exact ⟨[], [], by simp, nofun⟩
  | cons number rest inductionHypothesis =>
    obtain ⟨outer, found, deeper⟩ := Option.bind_eq_some_iff.mp there
    obtain ⟨beside, behind, split, apart⟩ := inductionHypothesis deeper
    obtain ⟨others, around⟩ := itemPositions_split found 0
    refine ⟨itemPositions 0 (value.held.take number) ++ beside.map (number :: ·),
      behind.map (number :: ·) ++ (others ++ ownPosition value), ?_, ?_⟩
    · rw [nodePositions_eq, around, split, Nat.zero_add]
      simp
    · intro other member
      rcases List.mem_append.mp member with before | within
      · obtain ⟨index, _, further, early, rfl, -⟩ := (mem_itemPositions_iff _ _ other).mp before
        have smaller : index < number := by
          have bounded := (List.getElem?_eq_some_iff.mp early).1
          rw [List.length_take] at bounded
          omega
        exact apart_of_ne (by omega) further rest
      · obtain ⟨further, known, rfl⟩ := List.mem_map.mp within
        exact (apart_cons_iff number further rest).mpr (apart further known)

end Manuscript.Document
