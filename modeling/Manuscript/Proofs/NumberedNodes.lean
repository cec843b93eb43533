import Manuscript.Document.Numbering
import Manuscript.Proofs.PostOrder
import Manuscript.Proofs.ReadJson

/-!
# Numbering the nodes of a tree

A rewrite that counts its calls, and puts the number of each into the node that it is made for,
makes the order of a walk visible. Under a name that no object has, the number is a field behind
the others, so nothing that was there changes its position, and what the walk was given is left
when the numbers are taken out again.

The numbers go up from one in post-order without a gap. The proof goes through a value with the
number of calls that came before: what it holds is numbered from there on, and it itself last.
-/

namespace Manuscript.Document

open Json

/-- Put into a node, under a name, the number of the call that is made for it. -/
def numberUnder (name : Text) (fields : List (Text × Json)) : StateM Nat Json := do
  let calls ← get
  set (calls + 1)
  return .object (Entries.put name (.integer (calls + 1)) fields)

/-- What a value has under a name. -/
def numberHere (name : Text) : Json → Option Json
  | .object fields => field? name fields
  | _ => none

/-- What the value at a position has under a name. -/
def numberOf (name : Text) (tree : Json) (position : Position) : Option Json :=
  (tree.at? position).bind (numberHere name)

mutual

/-- A value without the fields of a name. -/
def without (name : Text) : Json → Json
  | .array items => .array (withoutItems name items)
  | .object fields => .object (withoutFields name fields)
  | .null => .null
  | .boolean value => .boolean value
  | .integer value => .integer value
  | .real value => .real value
  | .string value => .string value

/-- Items without the fields of a name. -/
def withoutItems (name : Text) : List Json → List Json
  | [] => []
  | item :: rest => without name item :: withoutItems name rest

/-- Fields without those of a name, at any depth. -/
def withoutFields (name : Text) : List (Text × Json) → List (Text × Json)
  | [] => []
  | (other, value) :: rest =>
    if other = name then withoutFields name rest
    else (other, without name value) :: withoutFields name rest

end

/-- No object in a value has a field of a name. -/
def Fresh (name : Text) (value : Json) : Prop :=
  Throughout (fun fields => name ∉ fields.map Prod.fst) value

/-- The nodes of a value are numbered from a number of calls on, and nothing else is changed. -/
structure Numbered (name : Text) (calls : Nat) (value result : Json) : Prop where
  removed : without name result = value
  numbers : (nodePositions value).map (numberOf name result) =
    (List.range' (calls + 1) (nodePositions value).length).map fun number =>
      some (.integer number)

/-- What the value at a position has under a name, where the first step leads into a list. -/
def numberIn (name : Text) (values : List Json) : Position → Option Json
  | [] => none
  | number :: rest => values[number]?.bind fun inner => numberOf name inner rest

/-- Items, counted from one number on, are numbered from a number of calls on, and nothing else is
changed. They may stand among other values. -/
structure NumberedItems (name : Text) (start calls : Nat) (items results : List Json) : Prop where
  removed : results.map (without name) = items
  numbers (before after : List Json) (placed : before.length = start) :
    (itemPositions start items).map (numberIn name (before ++ (results ++ after))) =
      (List.range' (calls + 1) (itemPositions start items).length).map fun number =>
        some (.integer number)

theorem Fresh.inside {name : Text} {value : Json} (fresh : Fresh name value) :
    ∀ inner ∈ value.held, Fresh name inner := by
  cases value with
  | array items => exact (throughout_array_iff _ items).mp fresh
  | object fields =>
    intro inner member
    obtain ⟨field, known, rfl⟩ := List.mem_map.mp member
    exact ((throughout_object_iff _ fields).mp fresh).2 field known
  | _ => exact nofun

/-! ## Taking the numbers out -/

theorem withoutItems_eq (name : Text) (items : List Json) :
    withoutItems name items = items.map (without name) := by
  induction items with
  | nil => rfl
  | cons item rest inductionHypothesis => rw [withoutItems, inductionHypothesis, List.map_cons]

theorem withoutFields_eq (name : Text) (fields : List (Text × Json)) :
    withoutFields name fields =
      (fields.filter fun field => field.1 ≠ name).map fun field =>
        (field.1, without name field.2) := by
  induction fields with
  | nil => rfl
  | cons field rest inductionHypothesis =>
    by_cases same : field.1 = name
    · simp [withoutFields, inductionHypothesis, same]
    · simp [withoutFields, inductionHypothesis, same]

/-- An object whose values are numbered, with or without a number of its own, is the object that
it was when the numbers have been taken out. -/
theorem without_object {name : Text} {fields extra : List (Text × Json)} {results : List Json}
    (fresh : name ∉ fields.map Prod.fst) (added : ∀ field ∈ extra, field.1 = name)
    (removed : results.map (without name) = fields.map Prod.snd) :
    without name (.object ((fields.map Prod.fst).zip results ++ extra)) = .object fields := by
  have kept : ((fields.map Prod.fst).zip results).filter (fun field => field.1 ≠ name) =
      (fields.map Prod.fst).zip results := by
    rw [List.filter_eq_self]
    intro field member
    have known : field.1 ∈ fields.map Prod.fst := (List.of_mem_zip member).1
    simpa using ne_of_mem_of_not_mem known fresh
  have dropped : extra.filter (fun field => field.1 ≠ name) = [] := by
    rw [List.filter_eq_nil_iff]
    intro field member
    simpa using added field member
  have values : ((fields.map Prod.fst).zip results).map
      (fun field => (field.1, without name field.2)) =
        (fields.map Prod.fst).zip (results.map (without name)) := List.zip_map_right.symm
  rw [without, withoutFields_eq, List.filter_append, kept, dropped, List.append_nil, values,
    removed]
  exact congrArg Json.object (List.zip_of_prod rfl rfl).symm

/-! ## The numbers of a walk -/

/-- The numbers inside a value are those in what it holds. -/
theorem numberOf_inside (name : Text) (tree : Json) (start : Nat) (items : List Json) :
    (itemPositions start items).map (numberOf name tree) =
      (itemPositions start items).map (numberIn name tree.held) := by
  apply List.map_congr_left
  intro position member
  obtain ⟨number, _, rest, -, rfl, -⟩ := (mem_itemPositions_iff start items position).mp member
  rw [numberOf, at?, Option.bind_assoc]
  rfl

section Walk

variable {name : Text} {calls : Nat}

/-- Items are numbered from the number on that the item before them has reached. -/
theorem Numbered.cons {start : Nat} {item result : Json} {rest results : List Json}
    (first : Numbered name calls item result)
    (others : NumberedItems name (start + 1) (calls + (nodePositions item).length) rest results) :
    NumberedItems name start calls (item :: rest) (result :: results) := by
  refine ⟨by rw [List.map_cons, first.removed, others.removed], fun before after placed => ?_⟩
  have here (position : Position) :
      numberIn name (before ++ (result :: results ++ after)) (start :: position) =
        numberOf name result position := by
    subst placed
    simp [numberIn]
  have behind := others.numbers (before ++ [result]) after (by simp [placed])
  have shifted : before ++ [result] ++ (results ++ after) =
      before ++ (result :: results ++ after) := by simp
  have ranges : List.range' (calls + 1) (nodePositions item).length ++
      List.range' (calls + (nodePositions item).length + 1)
        (itemPositions (start + 1) rest).length =
      List.range' (calls + 1) (itemPositions start (item :: rest)).length := by
    rw [Nat.add_right_comm, List.range'_append_1, itemPositions, List.length_append,
      List.length_map]
  rw [shifted] at behind
  rw [← ranges, itemPositions, List.map_append, List.map_map, List.map_append, behind,
    ← first.numbers]
  congr 1
  exact List.map_congr_left fun position _ => here position

theorem NumberedItems.array {items results : List Json}
    (numbered : NumberedItems name 0 calls items results) :
    Numbered name calls (.array items) (.array results) := by
  have inside := numbered.numbers [] [] rfl
  rw [List.nil_append, List.append_nil] at inside
  refine ⟨?_, ?_⟩
  · rw [without, withoutItems_eq, numbered.removed]
  · rw [nodePositions, numberOf_inside]
    exact inside

section Object

variable {fields : List (Text × Json)} {results : List Json}
  (numbered : NumberedItems name 0 calls (fields.map Prod.snd) results)

include numbered

theorem NumberedItems.same_length : results.length = fields.length := by
  have lengths := congrArg List.length numbered.removed
  rwa [List.length_map, List.length_map] at lengths

/-- A field more behind the others changes no number inside an object. -/
theorem NumberedItems.inside (extra : List (Text × Json)) :
    (itemPositions 0 (fields.map Prod.snd)).map
        (numberOf name (.object ((fields.map Prod.fst).zip results ++ extra))) =
      (List.range' (calls + 1) (itemPositions 0 (fields.map Prod.snd)).length).map fun number =>
        some (.integer number) := by
  have values : ((fields.map Prod.fst).zip results).map Prod.snd = results :=
    List.map_snd_zip (by rw [List.length_map, numbered.same_length])
  have placed := numbered.numbers [] (extra.map Prod.snd) rfl
  rw [numberOf_inside, held, List.map_append, values]
  exact placed

variable (fresh : name ∉ fields.map Prod.fst)

include fresh

/-- An object that is no node has no number of its own. -/
theorem NumberedItems.plain (node : isNode fields = false) :
    Numbered name calls (.object fields) (.object ((fields.map Prod.fst).zip results)) := by
  have positions : nodePositions (.object fields) = itemPositions 0 (fields.map Prod.snd) := by
    simp [nodePositions_eq, ownPosition, node, held]
  have inside := numbered.inside []
  rw [← List.append_nil ((fields.map Prod.fst).zip results)]
  exact ⟨without_object fresh (by simp) numbered.removed, by rw [positions, inside]⟩

/-- A node has the number behind those of the nodes inside it. -/
theorem NumberedItems.node (node : isNode fields = true) :
    Numbered name calls (.object fields) (.object ((fields.map Prod.fst).zip results ++
      [(name, .integer (calls + (itemPositions 0 (fields.map Prod.snd)).length + 1 : Nat))])) := by
  have positions : nodePositions (.object fields) =
      itemPositions 0 (fields.map Prod.snd) ++ [[]] := by
    simp [nodePositions_eq, ownPosition, node, held]
  have absent : ((fields.map Prod.fst).zip results).lookup name = none := by
    rw [List.lookup_eq_none_iff]
    intro field member
    have known : field.1 ∈ fields.map Prod.fst := (List.of_mem_zip member).1
    exact bne_iff_ne.mpr (ne_of_mem_of_not_mem known fresh).symm
  have own (number : Json) : numberOf name
      (.object ((fields.map Prod.fst).zip results ++ [(name, number)])) [] = some number := by
    rw [numberOf, at?, Option.bind_some, numberHere, field?, List.lookup_append, absent]
    simp
  refine ⟨without_object fresh (by simp) numbered.removed, ?_⟩
  rw [positions, List.length_append, List.length_singleton, List.range'_1_concat, List.map_append,
    List.map_append, numbered.inside, List.map_singleton, List.map_singleton, own,
    Nat.add_right_comm]

end Object

/-- The number is a new field behind the others. -/
theorem numberUnder_run {fields : List (Text × Json)} (fresh : name ∉ fields.map Prod.fst) :
    (numberUnder name fields).run calls =
      pure (.object (fields ++ [(name, .integer (calls + 1 : Nat))]), calls + 1) := by
  rw [← Entries.put_fresh name _ fields fresh]
  rfl

/-- A walk of items numbers them one after the other. -/
theorem items_numbered (items : List Json)
    (each : ∀ item ∈ items, ∀ calls, ∃ result,
      (walk (numberUnder name) item).run calls =
          pure (result, calls + (nodePositions item).length) ∧
        Numbered name calls item result) (start calls : Nat) :
    ∃ results, (items.mapM (walk (numberUnder name))).run calls =
        pure (results, calls + (itemPositions start items).length) ∧
      NumberedItems name start calls items results := by
  induction items generalizing start calls with
  | nil => exact ⟨[], rfl, rfl, fun _ _ _ => rfl⟩
  | cons item rest inductionHypothesis =>
    obtain ⟨first, others⟩ := List.forall_mem_cons.mp each
    obtain ⟨result, ran, numbered⟩ := first calls
    obtain ⟨results, ranOthers, numberedOthers⟩ :=
      inductionHypothesis others (start + 1) (calls + (nodePositions item).length)
    refine ⟨result :: results, ?_, numbered.cons numberedOthers⟩
    rw [List.mapM_cons, StateT.run_bind, ran, pure_bind, StateT.run_bind, ranOthers, pure_bind,
      StateT.run_pure, itemPositions, List.length_append, List.length_map, Nat.add_assoc]

/-- A walk numbers the nodes of a value. -/
theorem walk_numbered {value : Json} (fresh : Fresh name value) (calls : Nat) :
    ∃ result, (walk (numberUnder name) value).run calls =
        pure (result, calls + (nodePositions value).length) ∧ Numbered name calls value result := by
  induction value using held_induction generalizing calls with
  | step value inductionHypothesis =>
    obtain ⟨results, ran, numbered⟩ := items_numbered value.held
      (fun item member => inductionHypothesis item member (fresh.inside item member)) 0 calls
    rw [walk_eq, StateT.run_bind, ran, pure_bind]
    cases value with
    | array items =>
      refine ⟨.array results, ?_, numbered.array⟩
      rw [nodePositions]
      rfl
    | object fields =>
      have names : name ∉ fields.map Prod.fst := ((throughout_object_iff _ fields).mp fresh).1
      have zipped : name ∉ ((fields.map Prod.fst).zip results).map Prod.fst := by
        rwa [names_zip numbered.same_length]
      rw [holding, settle, isNode_zip numbered.same_length, nodePositions_eq, List.length_append]
      cases node : isNode fields with
      | true =>
        refine ⟨_, ?_, numbered.node names node⟩
        rw [if_pos rfl, numberUnder_run zipped, ownPosition, if_pos node]
        rfl
      | false =>
        refine ⟨_, ?_, numbered.plain names node⟩
        rw [if_neg Bool.false_ne_true, ownPosition, if_neg (by simp [node])]
        rfl
    | _ => exact ⟨_, rfl, rfl, rfl⟩

/-- A walk that lists the kinds of the nodes besides numbers them alike. -/
theorem numbered_numbers {value : Json} (fresh : Fresh numberField value) :
    Numbered numberField 0 value (numbered none value).2 := by
  have counts (fields : List (Text × Json)) (visits : Visits) :
      ((numberNode none fields).run visits).map id Visits.calls =
        (numberUnder numberField fields).run visits.calls := rfl
  have same := walk_coarse Visits.calls counts value ⟨0, []⟩
  obtain ⟨result, ran, holds⟩ := walk_numbered fresh 0
  have given : (numbered none value).2 = result := congrArg Prod.fst (same.trans ran)
  rwa [given]

/-- The node that is listed at some place has the number of that place, counted from the calls on
that came before. -/
theorem Numbered.number {value result : Json} (numbered : Numbered name calls value result)
    {place : Nat} {position : Position} (listed : (nodePositions value)[place]? = some position) :
    numberOf name result position = some (.integer (calls + 1 + place : Nat)) := by
  have inside := (List.getElem?_eq_some_iff.mp listed).1
  have there := congrArg (fun numbers => numbers[place]?) numbered.numbers
  simp only [List.getElem?_map, listed, List.getElem?_range' inside, Option.map_some,
    Nat.one_mul] at there
  exact Option.some.inj there

/-- A node has a larger number than every node inside it. -/
theorem Numbered.above {value result : Json} (numbered : Numbered name calls value result)
    {outer inner : Position} (node : NodeAt value outer) (nodeInside : NodeAt value inner)
    (inside : outer <+: inner) (differs : outer ≠ inner) :
    ∃ below above : Nat, numberOf name result inner = some (.integer below) ∧
      numberOf name result outer = some (.integer above) ∧ below < above := by
  have known := (mem_nodePositions_iff value inner).mpr nodeInside
  have knownOuter := (mem_nodePositions_iff value outer).mpr node
  obtain ⟨place, listed⟩ := List.mem_iff_getElem?.mp known
  obtain ⟨another, listedOuter⟩ := List.mem_iff_getElem?.mp knownOuter
  refine ⟨_, _, numbered.number listed, numbered.number listedOuter, ?_⟩
  -- The other order would put the outer node before the inner one.
  by_contra reversed
  obtain ⟨bounded, here⟩ := List.getElem?_eq_some_iff.mp listed
  obtain ⟨boundedOuter, there⟩ := List.getElem?_eq_some_iff.mp listedOuter
  by_cases same : another = place
  · subst same
    exact differs (there.symm.trans here)
  · have ordered := List.pairwise_iff_getElem.mp (pairwise_nodePositions value) another place
      boundedOuter bounded (by omega)
    rw [there, here] at ordered
    exact ordered.asymm (inner_before inside differs)

end Walk

/-- A walk calls its rewrite once for each node of a value, in post-order. It is the visits to the
positions of the nodes, one after the other, whatever monad the rewrite runs in. For a single node
these are the visits to the nodes before it that are not inside it, the walk of its values, the
rewrite of its names with the walked values, and the visits to the nodes behind it. A rewrite that
puts the number of its call under a new name numbers the nodes from one on, each one above the nodes
inside it, and leaves the rest as it was; one that changes nothing leaves the value as it was. -/
theorem walk_in_post_order (value : Json) :
    ((∀ position, position ∈ nodePositions value ↔ NodeAt value position) ∧
      (nodePositions value).Nodup ∧ (nodePositions value).Pairwise Before) ∧
    (∀ {m : Type → Type} [Monad m] [LawfulMonad m] (rewrite : List (Text × Json) → m Json),
      walk rewrite value = (nodePositions value).foldlM (visit rewrite) value) ∧
    (∀ position fields, value.at? position = some (.object fields) → isNode fields = true →
      ∃ beside inside behind, nodePositions value = beside ++ (inside ++ position :: behind) ∧
        (∀ other ∈ beside, ¬position <+: other) ∧ (∀ other ∈ inside, position <+: other) ∧
        ∀ {m : Type → Type} [Monad m] [LawfulMonad m] (rewrite : List (Text × Json) → m Json),
          walk rewrite value = (do
            let tree ← beside.foldlM (visit rewrite) value
            let values ← (fields.map Prod.snd).mapM (walk rewrite)
            let reply ← rewrite ((fields.map Prod.fst).zip values)
            behind.foldlM (visit rewrite) (tree.put position reply))) ∧
    (∀ name, Fresh name value →
      ∃ result, (walk (numberUnder name) value).run 0 = (result, (nodePositions value).length) ∧
        (nodePositions value).map (numberOf name result) =
          (List.range' 1 (nodePositions value).length).map (fun number => some (.integer number)) ∧
        (∀ outer inner, NodeAt value outer → NodeAt value inner → outer <+: inner →
          outer ≠ inner → ∃ below above : Nat, numberOf name result inner = some (.integer below) ∧
            numberOf name result outer = some (.integer above) ∧ below < above) ∧
        without name result = value) ∧
    ∀ {m : Type → Type} [Monad m] [LawfulMonad m],
      walk (fun fields => pure (.object fields)) value = (pure value : m Json) := by
  have ordered := pairwise_nodePositions value
  have distinct : (nodePositions value).Nodup :=
    ordered.imp fun before same => (same ▸ before).asymm (same ▸ before)
  refine ⟨⟨mem_nodePositions_iff value, distinct, ordered⟩,
    fun rewrite => walk_eq_visits rewrite value, ?_, ?_, walk_unchanged value⟩
  · intro position fields there node
    obtain ⟨beside, behind, split, apart⟩ := nodePositions_split there
    refine ⟨beside, (itemPositions 0 (fields.map Prod.snd)).map (position ++ ·), behind, ?_,
      fun other member => (apart other member).2, ?_,
      fun rewrite => walk_around rewrite there node split apart⟩
    · rw [split, nodePositions_eq, ownPosition, if_pos node, held]
      simp
    · intro other member
      obtain ⟨further, -, rfl⟩ := List.mem_map.mp member
      exact List.prefix_append position further
  · intro name fresh
    obtain ⟨result, ran, numbered⟩ := walk_numbered fresh 0
    rw [Nat.zero_add] at ran
    exact ⟨result, ran, numbered.numbers, fun _ _ node nodeInside inside differs =>
      numbered.above node nodeInside inside differs, numbered.removed⟩

/-- A node with nodes in an array, in an object that is none, and in a field behind its content. -/
def nested : Json :=
  .object [(['t'], .string "Div".toList),
    (['c'], .array [.object [(['t'], .string "Str".toList)],
      .object [(['x'], .object [(['t'], .string "Code".toList), (['c'], .array [])])]]),
    (['m'], .object [(['t'], .null)])]

/-- The nodes of the example are numbered in their order, and the code in it is rewritten second. -/
theorem nested_in_post_order :
    Fresh ['n'] nested ∧ nodePositions nested = [[1, 0], [1, 1, 0], [2], []] ∧
      nested.at? [1, 1, 0] =
        some (.object [(['t'], .string "Code".toList), (['c'], .array [])]) ∧
      (∃ result, (walk (numberUnder ['n']) nested).run 0 = (result, 4) ∧
        numberOf ['n'] result [1, 1, 0] = some (.integer 2) ∧
        (∃ below above : Nat, numberOf ['n'] result [1, 1, 0] = some (.integer below) ∧
          numberOf ['n'] result [] = some (.integer above) ∧ below < above) ∧
        without ['n'] result = nested) ∧
      ∃ beside inside behind, nodePositions nested = beside ++ (inside ++ [1, 1, 0] :: behind) ∧
        walk (numberUnder ['n']) nested = (do
          let tree ← beside.foldlM (visit (numberUnder ['n'])) nested
          let values ← [Json.string "Code".toList, .array []].mapM (walk (numberUnder ['n']))
          let reply ← numberUnder ['n'] ([['t'], ['c']].zip values)
          behind.foldlM (visit (numberUnder ['n'])) (tree.put [1, 1, 0] reply)) := by
  have text (holds : List (Text × Json) → Prop) (found : Text) :
      Throughout holds (.string found) := fun _ inside => nomatch inside
  have null (holds : List (Text × Json) → Prop) : Throughout holds .null :=
    fun _ inside => nomatch inside
  have fresh : Fresh ['n'] nested := by
    simp [Fresh, nested, throughout_object_iff, throughout_array_iff, text, null]
  have positions : nodePositions nested = [[1, 0], [1, 1, 0], [2], []] := by decide
  obtain ⟨-, -, around, numbers, -⟩ := walk_in_post_order nested
  obtain ⟨result, ran, listed, above, removed⟩ := numbers ['n'] fresh
  obtain ⟨beside, inside, behind, split, -, -, calls⟩ := around [1, 1, 0] _ rfl rfl
  rw [positions] at ran listed
  have second := congrArg (fun found => found[1]?) listed
  have code : NodeAt nested [1, 1, 0] := ⟨_, rfl, rfl⟩
  have whole : NodeAt nested [] := ⟨_, rfl, rfl⟩
  exact ⟨fresh, positions, rfl, ⟨result, ran, Option.some.inj second,
    above [] [1, 1, 0] whole code List.nil_prefix (by simp), removed⟩,
    beside, inside, behind, split, calls (numberUnder ['n'])⟩

end Manuscript.Document
