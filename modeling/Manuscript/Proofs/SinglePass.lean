import Manuscript.Document.Passes
import Manuscript.Proofs.Tree
import Mathlib.Data.List.Basic

/-!
# The four passes as one walk

A pass over a document looks at nodes of code only, and of a node only at its kind, its one
class and its text. Walking a tree changes none of these: the content of well-formed code is
made of strings and arrays, in which there is nothing to rewrite, and what a pass has written
is a raw node, which is no code. So two walks after each other are one walk that asks the
first pass and, where that leaves the code alone, the second.

The four passes in their order, and in every other order in which raw inlines come before
formulas, therefore do what one rewrite of each node does from the leaves up.
-/

namespace Manuscript.Document

/-- Where code stands. -/
inductive CodeKind where
  | block
  | inline
deriving DecidableEq, Repr

/-- Code as the passes see it: its only class, if it has exactly one, and its text. -/
structure Code where
  kind : CodeKind
  tag : Option Text
  text : Text
deriving DecidableEq, Repr

/-- The kind of code that the kind of a node names. -/
def CodeKind.ofNode? (kind : Json) : Option CodeKind :=
  if kind = codeBlockKind then some .block
  else if kind = codeKind then some .inline
  else none

/-- The class of code that has exactly one. -/
def onlyClass : List Json → Option Text
  | [.string tag] => some tag
  | _ => none

/-- The code that an object is, if it is one. -/
def code? (fields : List (Text × Json)) : Option Code :=
  match (Json.field? kindField fields).bind CodeKind.ofNode?, Json.field? contentField fields with
  | some kind, some (.array [.array [_, .array classes, _], .string text]) =>
    some ⟨kind, onlyClass classes, text⟩
  | _, _ => none

/-- The content of code: an identifier, classes and attributes, and the text. -/
def codeContent (identifier : Text) (classes : List Text) (attributes : List (Text × Text))
    (text : Text) : Json :=
  .array
    [.array
      [.string identifier, .array (classes.map .string),
        .array (attributes.map fun (name, value) => .array [.string name, .string value])],
      .string text]

/-- An object that is code by its kind has the content of code. -/
def WellFormedNode (fields : List (Text × Json)) : Prop :=
  Json.field? kindField fields = some codeBlockKind ∨
      Json.field? kindField fields = some codeKind →
    ∃ identifier classes attributes text,
      Json.field? contentField fields = some (codeContent identifier classes attributes text)

/-- All code in a value has the content of code. -/
def WellFormed (value : Json) : Prop := ∀ fields, Contains value fields → WellFormedNode fields

/-- The raw node that takes the place of code. -/
def CodeKind.raw (kind : CodeKind) (latex : Text) : Json :=
  match kind with
  | .block => rawBlock (.string latex)
  | .inline => rawInline (.string latex)

/-- Rewrite nodes of code by a choice of their LaTeX, and leave code alone for which none is
chosen, and all that is no code. -/
def setWith (choose : Code → Option Text) (fields : List (Text × Json)) : Json :=
  match code? fields with
  | some code =>
    match choose code with
    | some latex => code.kind.raw latex
    | none => .object fields
  | none => .object fields

/-- The LaTeX of a code block with one class. -/
def blockLatex (rules : List Rule) (tag text : Text) : Option Text :=
  if Text.startsWith "verb".toList tag then
    some (Text.unlines ["\\begin\x7bverbatim\x7d".toList, applyRules rules text,
      "\\end\x7bverbatim\x7d".toList])
  else if Text.startsWith "rawmacro".toList tag then some (applyRules rules text)
  else if Text.startsWith "raw".toList tag then some text
  else if Text.startsWith "align".toList tag then some (Alignment.alignedBlock rules text)
  else if Text.startsWith "indent".toList tag then some (Alignment.indentedBlock rules text)
  else none

/-- The LaTeX of code within a line; it always has some. -/
def inlineLatex (rules : List Rule) (tag : Option Text) (text : Text) : Text :=
  if tag.any (Text.startsWith "raw".toList) then text else '$' :: applyRules rules text ++ ['$']

/-- The LaTeX of code, and nothing for code that stays as it is. -/
def codeLatex (rules : List Rule) (code : Code) : Option Text :=
  match code.kind with
  | .block => code.tag.bind fun tag => blockLatex rules tag code.text
  | .inline => some (inlineLatex rules code.tag code.text)

/-- One of the four passes. -/
inductive Pass where
  | rawBlocks
  | rawInlines
  | layouts
  | formulas
deriving DecidableEq, Repr

namespace Pass

/-- Run a pass over a document. -/
def run (rules : List Rule) : Pass → Json → Except NodeError Json
  | .rawBlocks => setRawBlocks rules
  | .rawInlines => setRawInlines
  | .layouts => setLayouts rules
  | .formulas => setFormulas rules

/-- The rewrite of a pass. -/
def rewrite (rules : List Rule) : Pass → List (Text × Json) → Except NodeError Json
  | .rawBlocks => rewriteRawBlock rules
  | .rawInlines => rewriteRawInline
  | .layouts => rewriteLayout rules
  | .formulas => rewriteFormula rules

/-- The LaTeX that the pass over raw blocks has for a block with one class. -/
def rawLatex (rules : List Rule) (tag text : Text) : Option Text :=
  if Text.startsWith "verb".toList tag then
    some (Text.unlines ["\\begin\x7bverbatim\x7d".toList, applyRules rules text,
      "\\end\x7bverbatim\x7d".toList])
  else if Text.startsWith "rawmacro".toList tag then some (applyRules rules text)
  else if Text.startsWith "raw".toList tag then some text
  else none

/-- The LaTeX that the pass over layouts has for a block with one class. -/
def layoutLatex (rules : List Rule) (tag text : Text) : Option Text :=
  if Text.startsWith "align".toList tag then some (Alignment.alignedBlock rules text)
  else if Text.startsWith "indent".toList tag then some (Alignment.indentedBlock rules text)
  else none

/-- The LaTeX that a pass has for code. -/
def latex (rules : List Rule) (pass : Pass) (code : Code) : Option Text :=
  match pass, code with
  | .rawBlocks, ⟨.block, some tag, text⟩ => rawLatex rules tag text
  | .layouts, ⟨.block, some tag, text⟩ => layoutLatex rules tag text
  | .rawInlines, ⟨.inline, some tag, text⟩ =>
    if Text.startsWith "raw".toList tag then some text else none
  | .formulas, ⟨.inline, _, text⟩ => some ('$' :: applyRules rules text ++ ['$'])
  | _, _ => none

end Pass

/-- The kinds of raw nodes are not the kinds of code. -/
theorem raw_kinds : CodeKind.ofNode? (.string "RawBlock".toList) = none ∧
    CodeKind.ofNode? (.string "RawInline".toList) = none := by
  decide

/-- An object of no kind of code is no code. -/
theorem code_none (fields : List (Text × Json))
    (other : (Json.field? kindField fields).bind CodeKind.ofNode? = none) :
    code? fields = none := by
  simp [code?, other]

/-- A raw node is an object that is no code by its kind, and has nothing inside to be
walked. -/
theorem raw_object (kind : CodeKind) (latex : Text) :
    ∃ fields, kind.raw latex = .object fields ∧ isNode fields = true ∧
      (Json.field? kindField fields).bind CodeKind.ofNode? = none ∧
      (∀ rewrite, mapFields rewrite fields = fields) ∧
      ∀ inner, Contains (.object fields) inner → inner = fields := by
  have content (name : String) (inner : List (Text × Json))
      (inside : Contains (rawNode name (.string latex)) inner) :
      inner = [(kindField, .string name.toList),
        (contentField, .array [rawFormat, .string latex])] := by
    cases inside with
    | here => rfl
    | field _ _ _ member deeper =>
      -- The two fields hold a string and an array of two strings.
      simp only [List.mem_cons, List.not_mem_nil, or_false] at member
      rcases member with rfl | rfl
      · cases deeper
      · cases deeper with
        | item _ _ _ within deepest =>
          simp only [rawFormat, List.mem_cons, List.not_mem_nil, or_false] at within
          rcases within with rfl | rfl <;> cases deepest
  have walked (name : String) (rewrite : List (Text × Json) → Json) :
      mapFields rewrite
          [(kindField, .string name.toList), (contentField, .array [rawFormat, .string latex])] =
        [(kindField, .string name.toList), (contentField, .array [rawFormat, .string latex])] := by
    simp [mapFields, mapNodes_array, rawFormat]
  cases kind with
  | block => exact ⟨_, rfl, rfl, raw_kinds.1, walked "RawBlock", content "RawBlock"⟩
  | inline => exact ⟨_, rfl, rfl, raw_kinds.2, walked "RawInline", content "RawInline"⟩

/-- What holds of all objects that are no code holds throughout a raw node. -/
theorem raw_throughout {holds : List (Text × Json) → Prop}
    (noCode : ∀ fields, (Json.field? kindField fields).bind CodeKind.ofNode? = none →
      holds fields)
    (kind : CodeKind) (latex : Text) : Throughout holds (kind.raw latex) := by
  obtain ⟨fields, same, _, other, _, alone⟩ := raw_object kind latex
  intro inner inside
  rw [same] at inside
  rw [alone inner inside]
  exact noCode fields other

/-- A rewrite of code gives an object for every object. -/
theorem setWith_object (choose : Code → Option Text) (fields : List (Text × Json)) :
    ∃ others, setWith choose fields = .object others := by
  unfold setWith
  split
  · split
    · obtain ⟨others, same, _⟩ := raw_object _ _
      exact ⟨others, same⟩
    · exact ⟨fields, rfl⟩
  · exact ⟨fields, rfl⟩

/-- A walk makes no value the name of a kind that was not one. -/
theorem ofNode_mapNodes (choose : Code → Option Text) (kind : Json) :
    CodeKind.ofNode? (mapNodes (setWith choose) kind) = CodeKind.ofNode? kind := by
  cases kind with
  | object fields =>
    have walked : ∃ others, mapNodes (setWith choose) (.object fields) = .object others := by
      rw [mapNodes_object]
      split
      · exact setWith_object choose _
      · exact ⟨_, rfl⟩
    obtain ⟨others, same⟩ := walked
    rw [same]
    rfl
  | array items =>
    rw [mapNodes_array]
    rfl
  | _ => rfl

/-- In the content of code there is nothing to rewrite. -/
theorem mapNodes_codeContent (rewrite : List (Text × Json) → Json) (identifier : Text)
    (classes : List Text) (attributes : List (Text × Text)) (text : Text) :
    mapNodes rewrite (codeContent identifier classes attributes text) =
      codeContent identifier classes attributes text := by
  simp [codeContent, mapNodes_array, Function.comp_def]

/-- The kind of well-formed code decides whether its content is known. -/
theorem wellFormedNode_iff (fields : List (Text × Json)) :
    WellFormedNode fields ↔
      ∀ kind, (Json.field? kindField fields).bind CodeKind.ofNode? = some kind →
        ∃ identifier classes attributes text, Json.field? contentField fields =
          some (codeContent identifier classes attributes text) := by
  have named : (Json.field? kindField fields = some codeBlockKind ∨
      Json.field? kindField fields = some codeKind) ↔
      ∃ kind, (Json.field? kindField fields).bind CodeKind.ofNode? = some kind := by
    cases Json.field? kindField fields with
    | none => simp
    | some value =>
      simp only [Option.some.injEq, Option.bind_some, CodeKind.ofNode?]
      split
      · simp_all
      · split <;> simp_all
  rw [WellFormedNode, named]
  exact ⟨fun known kind found => known ⟨kind, found⟩, fun known ⟨kind, found⟩ => known kind found⟩

/-- The kind of a node that is looked up behind a walk of its fields is the one before. -/
theorem kind_mapFields (choose : Code → Option Text) (fields : List (Text × Json)) :
    (Json.field? kindField (mapFields (setWith choose) fields)).bind CodeKind.ofNode? =
      (Json.field? kindField fields).bind CodeKind.ofNode? := by
  rw [field_mapFields]
  cases Json.field? kindField fields with
  | none => rfl
  | some value => exact ofNode_mapNodes choose value

/-- Walking the fields of well-formed code leaves its content as it is. -/
theorem wellFormedNode_mapFields (choose : Code → Option Text) (fields : List (Text × Json))
    (wellFormed : WellFormedNode fields) :
    WellFormedNode (mapFields (setWith choose) fields) := by
  rw [wellFormedNode_iff] at wellFormed ⊢
  intro kind found
  rw [kind_mapFields] at found
  obtain ⟨identifier, classes, attributes, text, content⟩ := wellFormed kind found
  refine ⟨identifier, classes, attributes, text, ?_⟩
  rw [field_mapFields, content, Option.map_some, mapNodes_codeContent]

/-- Walking the fields of a well-formed node changes nothing of the code that it is. -/
theorem code_mapFields (choose : Code → Option Text) (fields : List (Text × Json))
    (wellFormed : WellFormedNode fields) :
    code? (mapFields (setWith choose) fields) = code? fields := by
  rw [wellFormedNode_iff] at wellFormed
  unfold code?
  rw [kind_mapFields]
  cases found : (Json.field? kindField fields).bind CodeKind.ofNode? with
  | none => rfl
  | some kind =>
    obtain ⟨identifier, classes, attributes, text, content⟩ := wellFormed kind found
    rw [field_mapFields, content, Option.map_some, mapNodes_codeContent]

/-- The parts of a well-formed value are well-formed. -/
theorem wellFormed_item (items : List Json) (wellFormed : WellFormed (.array items))
    (item : Json) (member : item ∈ items) : WellFormed item :=
  (throughout_array_iff WellFormedNode items).mp wellFormed item member

/-- The values of the fields of a well-formed object are well-formed. -/
theorem wellFormed_field (fields : List (Text × Json)) (wellFormed : WellFormed (.object fields))
    (field : Text × Json) (member : field ∈ fields) : WellFormed field.2 :=
  ((throughout_object_iff WellFormedNode fields).mp wellFormed).2 field member

/-- An array is well-formed if its items are. -/
theorem wellFormed_array (items : List Json) (inside : ∀ item ∈ items, WellFormed item) :
    WellFormed (.array items) :=
  (throughout_array_iff WellFormedNode items).mpr inside

/-- A string holds no objects. -/
theorem wellFormed_string (text : Text) : WellFormed (.string text) := by
  intro inner contained
  cases contained

/-- An object is well-formed if it is so as a node and in the values of its fields. -/
theorem wellFormed_object (fields : List (Text × Json)) (node : WellFormedNode fields)
    (inside : ∀ field ∈ fields, WellFormed field.2) : WellFormed (.object fields) :=
  (throughout_object_iff WellFormedNode fields).mpr ⟨node, inside⟩

/-- A raw node is well-formed, since it is no code. -/
theorem wellFormed_raw (kind : CodeKind) (latex : Text) : WellFormed (kind.raw latex) := by
  apply raw_throughout
  intro fields other
  rw [wellFormedNode_iff, other]
  intro kind found
  cases found

/-- A rewrite of code gives a well-formed value for a well-formed object. -/
theorem wellFormed_setWith (choose : Code → Option Text) (fields : List (Text × Json))
    (wellFormed : WellFormed (.object fields)) : WellFormed (setWith choose fields) := by
  unfold setWith
  split
  · split
    · exact wellFormed_raw _ _
    · exact wellFormed
  · exact wellFormed

/-- A walk that rewrites code keeps a value well-formed. -/
theorem wellFormed_mapNodes (choose : Code → Option Text) (value : Json)
    (wellFormed : WellFormed value) : WellFormed (mapNodes (setWith choose) value) := by
  induction value using value_induction with
  | array items inductionHypothesis =>
    rw [mapNodes_array]
    apply wellFormed_array
    intro walked member
    obtain ⟨item, original, rfl⟩ := List.mem_map.mp member
    exact inductionHypothesis item original (wellFormed_item items wellFormed item original)
  | object fields inductionHypothesis =>
    have walked : WellFormed (.object (mapFields (setWith choose) fields)) := by
      apply wellFormed_object
      · exact wellFormedNode_mapFields choose fields (wellFormed fields (.here fields))
      · intro field member
        obtain ⟨original, known, rfl⟩ := List.mem_map.mp member
        exact inductionHypothesis original known
          (wellFormed_field fields wellFormed original known)
    rw [mapNodes_object]
    split
    · exact wellFormed_setWith choose _ walked
    · exact walked
  | _ => exact wellFormed

/-- The code of an object decides what becomes of it. -/
theorem setWith_code (choose : Code → Option Text) (fields : List (Text × Json)) :
    setWith choose fields =
      match (code? fields).bind fun code => (choose code).map code.kind.raw with
      | some raw => raw
      | none => .object fields := by
  unfold setWith
  cases code? fields with
  | none => rfl
  | some code => cases chosen : choose code <;> simp [chosen]

/-- Two walks after each other are one walk that asks the second choice where the first
leaves code alone.

The induction is on the value. At a node both walks see the code that the node is, since
walking its fields changes none of that. If the first one writes a raw node, the second one
finds no code there; if not, the second one decides about the same code. -/
theorem mapNodes_after (first second : Code → Option Text) (value : Json)
    (wellFormed : WellFormed value) :
    mapNodes (setWith second) (mapNodes (setWith first) value) =
      mapNodes (setWith fun code => (first code).or (second code)) value := by
  induction value using value_induction with
  | array items inductionHypothesis =>
    have each : ∀ item ∈ items, mapNodes (setWith second) (mapNodes (setWith first) item) =
        mapNodes (setWith fun code => (first code).or (second code)) item :=
      fun item member =>
        inductionHypothesis item member (wellFormed_item items wellFormed item member)
    simpa [mapNodes_array] using each
  | object fields inductionHypothesis =>
    have node : WellFormedNode fields := wellFormed fields (.here fields)
    have nodeAgain := wellFormedNode_mapFields first fields node
    have together : mapFields (setWith second) (mapFields (setWith first) fields) =
        mapFields (setWith fun code => (first code).or (second code)) fields := by
      simp only [mapFields, List.map_map, List.map_inj_left, Function.comp_apply]
      intro field member
      rw [inductionHypothesis field member (wellFormed_field fields wellFormed field member)]
    by_cases isOne : isNode fields = true
    · rw [mapNodes_object, isNode_mapFields, if_pos isOne, mapNodes_object, isNode_mapFields,
        if_pos isOne, setWith_code, code_mapFields first fields node, setWith_code,
        code_mapFields _ fields node]
      have kept : mapNodes (setWith second) (.object (mapFields (setWith first) fields)) =
          setWith second
            (mapFields (setWith fun code => (first code).or (second code)) fields) := by
        rw [mapNodes_object, together, isNode_mapFields, if_pos isOne]
      have sameCode : code? (mapFields (setWith fun code => (first code).or (second code)) fields)
          = code? fields := code_mapFields _ fields node
      cases found : code? fields with
      | none =>
        rw [Option.bind_none, kept, setWith_code, sameCode, found]
        rfl
      | some code =>
        cases chosen : first code with
        | none =>
          simp only [Option.bind_some, chosen, Option.map_none, Option.none_or]
          rw [kept, setWith_code, sameCode, found]
          rfl
        | some latex =>
          obtain ⟨others, same, isRaw, other, alone, _⟩ := raw_object code.kind latex
          simp only [Option.bind_some, chosen, Option.map_some, Option.some_or]
          rw [same, mapNodes_object, alone, if_pos isRaw, setWith_code, code_none others other]
          rfl
    · rw [mapNodes_object, isNode_mapFields, if_neg isOne, mapNodes_object, isNode_mapFields,
        isNode_mapFields, if_neg isOne, mapNodes_object, isNode_mapFields, if_neg isOne, together]
  | _ => rfl

/-- A walk that leaves all code alone changes nothing. -/
theorem mapNodes_none (value : Json) : mapNodes (setWith fun _ => none) value = value := by
  induction value using value_induction with
  | array items inductionHypothesis =>
    have same : items.map (mapNodes (setWith fun _ => none)) = items := by
      calc items.map (mapNodes (setWith fun _ => none))
          = items.map id := List.map_congr_left inductionHypothesis
        _ = items := List.map_id items
    rw [mapNodes_array, same]
  | object fields inductionHypothesis =>
    have same : mapFields (setWith fun _ => none) fields = fields := by
      calc mapFields (setWith fun _ => none) fields
          = fields.map id := List.map_congr_left fun field member => by
            rw [inductionHypothesis field member]
            rfl
        _ = fields := List.map_id fields
    have kept : setWith (fun _ => none) fields = .object fields := by
      unfold setWith
      split <;> rfl
    rw [mapNodes_object, same, kept, ite_self]
  | _ => rfl

/-- A rewrite that may fail but does what a choice says on well-formed nodes makes a walk
that does not fail on a well-formed value. -/
theorem walk_ok (rewrite : List (Text × Json) → Except NodeError Json)
    (choose : Code → Option Text)
    (exact : ∀ fields, WellFormedNode fields → rewrite fields = .ok (setWith choose fields))
    (value : Json) (wellFormed : WellFormed value) :
    walk rewrite value = .ok (mapNodes (setWith choose) value) := by
  induction value using value_induction with
  | array items inductionHypothesis =>
    have walked := walkItems_pure rewrite (mapNodes (setWith choose)) items fun item member =>
      inductionHypothesis item member (wellFormed_item items wellFormed item member)
    rw [walk, walked, mapNodes_array]
    rfl
  | object fields inductionHypothesis =>
    have walked := walkFields_pure rewrite (mapNodes (setWith choose)) fields
      fun field member =>
        inductionHypothesis field member (wellFormed_field fields wellFormed field member)
    have node : WellFormedNode (mapFields (setWith choose) fields) :=
      wellFormedNode_mapFields choose fields (wellFormed fields (.here fields))
    have rewritten := exact _ node
    rw [walk, walked, pure_bind, mapNodes_object]
    change (if isNode (mapFields (setWith choose) fields) then _ else _) = _
    split
    · exact rewritten
    · rfl
  | _ => rfl

/-- The name of a kind of code in a document. -/
def CodeKind.node (kind : CodeKind) : Json :=
  match kind with
  | .block => codeBlockKind
  | .inline => codeKind

/-- The tag of code as a value: null where it has none. -/
def tagValue (tag : Option Text) : Json := (tag.map Json.string).getD .null

/-- Of an object that is no code the passes see only that; of one that is they read the tag
and the text that it has. -/
theorem code_read (fields : List (Text × Json)) (wellFormed : WellFormedNode fields) :
    (code? fields = none ∧ Json.field? kindField fields ≠ some codeBlockKind ∧
        Json.field? kindField fields ≠ some codeKind) ∨
      ∃ kind tag text, code? fields = some ⟨kind, tag, text⟩ ∧
        Json.field? kindField fields = some kind.node ∧
        codeTag (.object fields) = .ok (tagValue tag) ∧
        codeText (.object fields) = .ok (.string text) := by
  have read (kind : CodeKind) (named : Json.field? kindField fields = some kind.node)
      (content : ∃ identifier classes attributes text, Json.field? contentField fields =
        some (codeContent identifier classes attributes text)) :
      ∃ kind tag text, code? fields = some ⟨kind, tag, text⟩ ∧
        Json.field? kindField fields = some kind.node ∧
        codeTag (.object fields) = .ok (tagValue tag) ∧
        codeText (.object fields) = .ok (.string text) := by
    obtain ⟨identifier, classes, attributes, text, known⟩ := content
    have ofNode : CodeKind.ofNode? kind.node = some kind := by cases kind <;> decide
    refine ⟨kind, onlyClass (classes.map .string), text, ?_, named, ?_, ?_⟩
    · simp [code?, named, ofNode, known, codeContent]
    · unfold codeTag content
      simp only [known, codeContent]
      match classes with
      | [] => rfl
      | [_] => rfl
      | _ :: _ :: _ => simp [parts, onlyClass, tagValue, bind, Except.bind, pure, Except.pure]
    · unfold codeText content
      simp only [known, codeContent]
      rfl
  by_cases block : Json.field? kindField fields = some codeBlockKind
  · exact .inr (read .block block (wellFormed (.inl block)))
  · by_cases inline : Json.field? kindField fields = some codeKind
    · exact .inr (read .inline inline (wellFormed (.inr inline)))
    · refine .inl ⟨code_none fields ?_, block, inline⟩
      cases named : Json.field? kindField fields with
      | none => rfl
      | some kind =>
        rw [named, Option.some.injEq] at block inline
        simp [CodeKind.ofNode?, block, inline]

/-- The passes look at the beginning of a tag. -/
theorem tagBegins_string (name : String) (tag : Text) :
    tagBegins name (.string tag) = .ok (Text.startsWith name.toList tag) := rfl

/-- Applying a macro list to the text of code does not fail. -/
theorem applyToValue_string (rules : List Rule) (text : Text) :
    applyToValue rules (.string text) = .ok (.string (applyRules rules text)) := by
  cases rules <;> rfl

/-- A step that does not fail hands its value on. -/
theorem ok_bind {α β : Type} (value : α) (next : α → Except NodeError β) :
    (Except.ok value >>= next) = next value := rfl

/-- The passes do on a tagged block what their choices say. -/
theorem rewrite_tagged_block (rules : List Rule) (pass : Pass) (fields : List (Text × Json))
    (tag text : Text) (code : code? fields = some ⟨.block, some tag, text⟩)
    (named : Json.field? kindField fields = some codeBlockKind)
    (tagged : codeTag (.object fields) = .ok (tagValue (some tag)))
    (texts : codeText (.object fields) = .ok (.string text)) :
    pass.rewrite rules fields = .ok (setWith (pass.latex rules) fields) := by
  have noInline : (some codeBlockKind ≠ some codeKind) = True := by decide
  cases pass with
  | rawBlocks =>
    simp only [Pass.rewrite, rewriteRawBlock, setWith, code, named, tagged, texts, Pass.latex,
      Pass.rawLatex, ne_eq, not_true, if_false, ok_bind, tagValue, Option.map_some,
      Option.getD_some, tagBegins_string, applyToValue_string]
    by_cases verb : Text.startsWith "verb".toList tag = true
    · simp only [verb, if_true]
      rfl
    · by_cases macros : Text.startsWith "rawmacro".toList tag = true
      · simp only [verb, macros, if_true]
        rfl
      · by_cases raws : Text.startsWith "raw".toList tag = true
        · simp only [verb, macros, raws, if_true]
          rfl
        · simp only [verb, macros, raws]
          rfl
  | layouts =>
    simp only [Pass.rewrite, rewriteLayout, setWith, code, named, tagged, texts, Pass.latex,
      Pass.layoutLatex, ne_eq, not_true, if_false, ok_bind, tagValue, Option.map_some,
      Option.getD_some, tagBegins_string]
    by_cases aligned : Text.startsWith "align".toList tag = true
    · simp only [aligned, if_true]
      rfl
    · by_cases indented : Text.startsWith "indent".toList tag = true
      · simp only [aligned, indented, if_true]
        rfl
      · simp only [aligned, indented]
        rfl
  | rawInlines =>
    simp only [Pass.rewrite, rewriteRawInline, setWith, code, named, noInline, if_true]
    rfl
  | formulas =>
    simp only [Pass.rewrite, rewriteFormula, setWith, code, named, noInline, if_true]
    rfl

/-- The passes do on code within a line what their choices say. -/
theorem rewrite_inline (rules : List Rule) (pass : Pass) (fields : List (Text × Json))
    (tag : Option Text) (text : Text) (code : code? fields = some ⟨.inline, tag, text⟩)
    (named : Json.field? kindField fields = some codeKind)
    (tagged : codeTag (.object fields) = .ok (tagValue tag))
    (texts : codeText (.object fields) = .ok (.string text)) :
    pass.rewrite rules fields = .ok (setWith (pass.latex rules) fields) := by
  have noBlock : (some codeKind ≠ some codeBlockKind) = True := by decide
  cases pass with
  | rawBlocks =>
    simp only [Pass.rewrite, rewriteRawBlock, setWith, code, named, noBlock, if_true]
    rfl
  | layouts =>
    simp only [Pass.rewrite, rewriteLayout, setWith, code, named, noBlock, if_true]
    rfl
  | rawInlines =>
    cases tag with
    | none =>
      simp only [Pass.rewrite, rewriteRawInline, setWith, code, named, tagged, ne_eq, not_true,
        if_false]
      rfl
    | some tag =>
      simp only [Pass.rewrite, rewriteRawInline, setWith, code, named, tagged, texts, Pass.latex,
        ne_eq, not_true, if_false, ok_bind, tagValue, Option.map_some, Option.getD_some,
        tagBegins_string]
      by_cases raws : Text.startsWith "raw".toList tag = true
      · simp only [raws, if_true]
        rfl
      · simp only [raws]
        rfl
  | formulas =>
    simp only [Pass.rewrite, rewriteFormula, setWith, code, named, texts, Pass.latex, ne_eq,
      not_true, if_false, ok_bind, applyToValue_string]
    rfl

/-- Every pass does on a well-formed node what its choice says. -/
theorem rewrite_ok (rules : List Rule) (pass : Pass) (fields : List (Text × Json))
    (wellFormed : WellFormedNode fields) :
    pass.rewrite rules fields = .ok (setWith (pass.latex rules) fields) := by
  rcases code_read fields wellFormed with
    ⟨noCode, block, inline⟩ | ⟨kind, tag, text, code, named, tagged, texts⟩
  · cases pass
    all_goals
      simp only [Pass.rewrite, rewriteRawBlock, rewriteRawInline, rewriteLayout, rewriteFormula,
        setWith, noCode, block, inline, ne_eq, not_false_eq_true, if_true]
      rfl
  · cases kind with
    | inline => exact rewrite_inline rules pass fields tag text code named tagged texts
    | block =>
      cases tag with
      | some tag => exact rewrite_tagged_block rules pass fields tag text code named tagged texts
      | none =>
        have noInline : (some codeBlockKind ≠ some codeKind) = True := by decide
        cases pass
        all_goals
          simp only [Pass.rewrite, rewriteRawBlock, rewriteRawInline, rewriteLayout,
            rewriteFormula, setWith, code, named, tagged, CodeKind.node, noInline, ne_eq,
            not_true, if_false, if_true]
          rfl

/-- A pass over a well-formed document is the walk of its choice. -/
theorem run_ok (rules : List Rule) (pass : Pass) (document : Json)
    (wellFormed : WellFormed document) :
    pass.run rules document = .ok (mapNodes (setWith (pass.latex rules)) document) := by
  have walked := walk_ok (pass.rewrite rules) (pass.latex rules) (rewrite_ok rules pass) document
    wellFormed
  cases pass <;> exact walked

/-- Passes after each other over a well-formed document are one walk, whose choice for code
is the first that one of them makes. -/
theorem runs_ok (rules : List Rule) (order : List Pass) (document : Json)
    (wellFormed : WellFormed document) :
    order.foldlM (fun current pass => pass.run rules current) document =
      .ok (mapNodes (setWith fun code => order.findSome? fun pass => pass.latex rules code)
        document) := by
  induction order generalizing document with
  | nil => exact congrArg Except.ok (mapNodes_none document).symm
  | cons pass rest inductionHypothesis =>
    have next := wellFormed_mapNodes (pass.latex rules) document wellFormed
    have choice : (fun code => (pass :: rest).findSome? fun pass => pass.latex rules code) =
        fun code => (pass.latex rules code).or
          (rest.findSome? fun pass => pass.latex rules code) := by
      funext code
      rw [List.findSome?_cons]
      cases pass.latex rules code <;> rfl
    rw [List.foldlM_cons, run_ok rules pass document wellFormed, ok_bind,
      inductionHypothesis _ next, choice, mapNodes_after _ _ document wellFormed]

/-- The first pass of an order that has LaTeX for code, if all passes before it have none. -/
theorem findSome_of_first (order : List Pass) (choice : Pass → Option Text) (wanted : Pass)
    (latex : Text) (member : wanted ∈ order) (chosen : choice wanted = some latex)
    (earlier : ∀ other ∈ order, order.idxOf other < order.idxOf wanted → choice other = none) :
    order.findSome? choice = some latex := by
  induction order with
  | nil => cases member
  | cons pass rest inductionHypothesis =>
    by_cases same : pass = wanted
    · subst same
      rw [List.findSome?_cons, chosen]
    · have later : wanted ∈ rest := (List.mem_cons.mp member).resolve_left (Ne.symm same)
      have position : (pass :: rest).idxOf wanted = rest.idxOf wanted + 1 := by
        rw [List.idxOf_cons_ne rest same]
      have silent : choice pass = none := by
        apply earlier pass List.mem_cons_self
        rw [List.idxOf_cons_self, position]
        exact Nat.succ_pos _
      rw [List.findSome?_cons, silent]
      apply inductionHypothesis later
      intro other known before
      apply earlier other (List.mem_cons_of_mem pass known)
      by_cases again : pass = other
      · rw [← again, List.idxOf_cons_self, position]
        exact Nat.succ_pos _
      · rw [List.idxOf_cons_ne rest again, position]
        exact Nat.succ_lt_succ before

/-- A text has no two beginnings whose first characters differ. -/
theorem startsWith_apart (tag first second : Text) (c d : Char)
    (firstHead : first.head? = some c) (secondHead : second.head? = some d) (different : c ≠ d)
    (begins : Text.startsWith first tag = true) : Text.startsWith second tag = false := by
  rw [Bool.eq_false_iff]
  intro alsoBegins
  unfold Text.startsWith at begins alsoBegins
  rw [List.isPrefixOf_iff_prefix] at begins alsoBegins
  obtain ⟨_, rfl⟩ := begins
  cases first with
  | nil => cases firstHead
  | cons head others =>
    cases second with
    | nil => cases secondHead
    | cons other more =>
      rw [List.cons_append, List.cons_prefix_cons] at alsoBegins
      rw [List.head?_cons, Option.some.injEq] at firstHead secondHead
      exact different (firstHead ▸ secondHead ▸ alsoBegins.1.symm)

/-- A block that is laid out is no raw block: the names of their tags begin differently. -/
theorem rawLatex_layout (rules : List Rule) (tag text laid : Text)
    (layout : Pass.layoutLatex rules tag text = some laid) :
    Pass.rawLatex rules tag text = none := by
  have begins : Text.startsWith "align".toList tag = true ∨
      Text.startsWith "indent".toList tag = true := by
    by_contra neither
    rw [not_or] at neither
    simp only [Pass.layoutLatex, neither.1, neither.2] at layout
    cases layout
  have silent (name : Text) (c : Char) (head : name.head? = some c) (noA : c ≠ 'a')
      (noI : c ≠ 'i') : Text.startsWith name tag = false := by
    rcases begins with aligned | indented
    · exact startsWith_apart tag _ name 'a' c (by decide) head noA.symm aligned
    · exact startsWith_apart tag _ name 'i' c (by decide) head noI.symm indented
  have verb := silent "verb".toList 'v' (by decide) (by decide) (by decide)
  have macros := silent "rawmacro".toList 'r' (by decide) (by decide) (by decide)
  have raws := silent "raw".toList 'r' (by decide) (by decide) (by decide)
  simp only [Pass.rawLatex, verb, macros, raws, Bool.false_eq_true, if_false]

/-- The LaTeX of a tagged block is that of the one pass that has some. -/
theorem blockLatex_eq (rules : List Rule) (tag text : Text) :
    blockLatex rules tag text =
      (Pass.rawLatex rules tag text).or (Pass.layoutLatex rules tag text) := by
  unfold blockLatex Pass.rawLatex Pass.layoutLatex
  by_cases verb : Text.startsWith "verb".toList tag = true
  · simp only [verb, if_true, Option.some_or]
  · by_cases macros : Text.startsWith "rawmacro".toList tag = true
    · simp only [verb, macros, if_true]
      rfl
    · by_cases raws : Text.startsWith "raw".toList tag = true
      · simp only [verb, macros, raws, if_true]
        rfl
      · simp only [verb, macros, raws]
        rfl

/-- In an order that runs every pass, and raw inlines before formulas, the first pass that
has LaTeX for code has the LaTeX that the code is to have. Of the two passes over blocks at
most one has some, so their order does not matter; a formula is made of all code within a
line, so it may not come before the raw inlines. -/
theorem first_latex (rules : List Rule) (order : List Pass) (complete : ∀ pass, pass ∈ order)
    (rawFirst : order.idxOf .rawInlines < order.idxOf .formulas) (code : Code) :
    (order.findSome? fun pass => pass.latex rules code) = codeLatex rules code := by
  obtain ⟨kind, tag, text⟩ := code
  cases kind with
  | block =>
    cases tag with
    | none =>
      rw [codeLatex, Option.bind_none, List.findSome?_eq_none_iff]
      intro pass _
      cases pass <;> rfl
    | some tag =>
      rw [codeLatex, Option.bind_some, blockLatex_eq]
      cases raw : Pass.rawLatex rules tag text with
      | some latex =>
        apply findSome_of_first order _ .rawBlocks latex (complete .rawBlocks) raw
        intro other _ before
        cases other with
        | rawBlocks => omega
        | layouts =>
          cases layout : Pass.layoutLatex rules tag text with
          | none => exact layout
          | some laid => simp [rawLatex_layout rules tag text laid layout] at raw
        | rawInlines => rfl
        | formulas => rfl
      | none =>
        cases layout : Pass.layoutLatex rules tag text with
        | some latex =>
          apply findSome_of_first order _ .layouts latex (complete .layouts) layout
          intro other _ before
          cases other with
          | rawBlocks => exact raw
          | layouts => omega
          | rawInlines => rfl
          | formulas => rfl
        | none =>
          rw [Option.or_none, List.findSome?_eq_none_iff]
          intro pass _
          cases pass with
          | rawBlocks => exact raw
          | layouts => exact layout
          | rawInlines => rfl
          | formulas => rfl
  | inline =>
    have noBlock (other : Pass) (isRaw : other = .rawBlocks ∨ other = .layouts) :
        other.latex rules ⟨.inline, tag, text⟩ = none := by
      rcases isRaw with rfl | rfl <;> rfl
    by_cases raws : tag.any (Text.startsWith "raw".toList) = true
    · obtain ⟨name, rfl, begins⟩ := (Option.any_eq_true _ _).mp raws
      have latex : Pass.latex rules .rawInlines ⟨.inline, some name, text⟩ = some text := by
        simp only [Pass.latex, begins, if_true]
      rw [codeLatex, inlineLatex, if_pos raws]
      apply findSome_of_first order _ .rawInlines text (complete .rawInlines) latex
      intro other _ before
      cases other with
      | rawBlocks => exact noBlock .rawBlocks (.inl rfl)
      | layouts => exact noBlock .layouts (.inr rfl)
      | rawInlines => omega
      | formulas => omega
    · have silent : Pass.latex rules .rawInlines ⟨.inline, tag, text⟩ = none := by
        cases tag with
        | none => rfl
        | some name =>
          rw [Option.any_some] at raws
          simp only [Pass.latex, raws]
          rfl
      rw [codeLatex, inlineLatex, if_neg raws]
      apply findSome_of_first order _ .formulas _ (complete .formulas) rfl
      intro other _ before
      cases other with
      | rawBlocks => exact noBlock .rawBlocks (.inl rfl)
      | layouts => exact noBlock .layouts (.inr rfl)
      | rawInlines => exact silent
      | formulas => omega

/-- The passes of a document are the four passes in their order. -/
theorem passes_eq (rules : List Rule) :
    passes rules = [.rawBlocks, .rawInlines, .layouts, .formulas].map (Pass.run rules) := rfl

/-- The passes over a well-formed document do not fail, and their result is that of a single
walk that sets each node of code from the leaves up and leaves everything else as it is. So
it is with the passes in any other order, and with passes run again, as long as the raw
inlines come before the formulas. -/
theorem postprocess_eq_walk (rules : List Rule) (document : Json)
    (wellFormed : WellFormed document) :
    postprocess rules document = .ok (mapNodes (setWith (codeLatex rules)) document) ∧
      ∀ order : List Pass, (∀ pass, pass ∈ order) →
        order.idxOf .rawInlines < order.idxOf .formulas →
        order.foldlM (fun current pass => pass.run rules current) document =
          .ok (mapNodes (setWith (codeLatex rules)) document) := by
  have every (order : List Pass) (complete : ∀ pass, pass ∈ order)
      (rawFirst : order.idxOf .rawInlines < order.idxOf .formulas) :
      order.foldlM (fun current pass => pass.run rules current) document =
        .ok (mapNodes (setWith (codeLatex rules)) document) := by
    have choice : (fun code => order.findSome? fun pass => pass.latex rules code) =
        codeLatex rules := funext (first_latex rules order complete rawFirst)
    rw [runs_ok rules order document wellFormed, choice]
  refine ⟨?_, every⟩
  rw [postprocess, passes_eq, List.foldlM_map]
  exact every _ (fun pass => by cases pass <;> decide) (by decide)

/-- A list item that holds verbatim code, and raw code beside a formula. -/
def sample : Json :=
  .array
    [.object
      [(kindField, .string "Div".toList),
        (contentField, .array
          [.object
            [(kindField, codeBlockKind),
              (contentField, codeContent [] ["verbose".toList] [] "a".toList)]])],
      .object
        [(kindField, codeKind), (contentField, codeContent [] ["raw".toList] [] "a".toList)],
      .object [(kindField, codeKind), (contentField, codeContent [] [] [] "a".toList)]]

/-- The code of the sample has the content of code. -/
theorem sample_wellFormed : WellFormed sample := by
  have content (classes : List Text) : WellFormed (codeContent [] classes [] "a".toList) := by
    refine wellFormed_array _ (List.forall_mem_cons.mpr ⟨wellFormed_array _ ?_, ?_⟩)
    · refine List.forall_mem_cons.mpr ⟨wellFormed_string [], ?_⟩
      refine List.forall_mem_cons.mpr ⟨wellFormed_array _ ?_, ?_⟩
      · intro item member
        obtain ⟨name, _, rfl⟩ := List.mem_map.mp member
        exact wellFormed_string name
      · exact List.forall_mem_singleton.mpr (wellFormed_array [] nofun)
    · exact List.forall_mem_singleton.mpr (wellFormed_string _)
  have code (kind : Json) (named : Text) (same : kind = .string named) (classes : List Text) :
      WellFormed (.object
        [(kindField, kind), (contentField, codeContent [] classes [] "a".toList)]) := by
    refine wellFormed_object _ (fun _ => ⟨[], classes, [], _, rfl⟩)
      (List.forall_mem_cons.mpr ⟨?_, List.forall_mem_singleton.mpr (content classes)⟩)
    rw [same]
    exact wellFormed_string named
  have division : WellFormed (.object
      [(kindField, .string "Div".toList),
        (contentField, .array
          [.object
            [(kindField, codeBlockKind),
              (contentField, codeContent [] ["verbose".toList] [] "a".toList)]])]) := by
    refine wellFormed_object _ (fun isCode => absurd isCode (by decide))
      (List.forall_mem_cons.mpr ⟨wellFormed_string _, List.forall_mem_singleton.mpr ?_⟩)
    exact wellFormed_array _ (List.forall_mem_singleton.mpr (code codeBlockKind _ rfl _))
  exact wellFormed_array _ (List.forall_mem_cons.mpr ⟨division,
    List.forall_mem_cons.mpr ⟨code codeKind _ rfl _,
      List.forall_mem_singleton.mpr (code codeKind _ rfl _)⟩⟩)

/-- Nested and inline code of the sample, set with one rule. -/
theorem postprocess_sample :
    WellFormed sample ∧
      postprocess [⟨['a'], ['b'], .anywhere, nofun⟩] sample =
        .ok (mapNodes (setWith (codeLatex [⟨['a'], ['b'], .anywhere, nofun⟩])) sample) ∧
      mapNodes (setWith (codeLatex [⟨['a'], ['b'], .anywhere, nofun⟩])) sample =
        .array
          [.object
            [(kindField, .string "Div".toList),
              (contentField, .array
                [rawBlock (.string "\\begin\x7bverbatim\x7d\n b \n\\end\x7bverbatim\x7d".toList)])],
            rawInline (.string "a".toList), rawInline (.string "$ b $".toList)] :=
  ⟨sample_wellFormed, (postprocess_eq_walk _ sample sample_wellFormed).1, by decide⟩

end Manuscript.Document
