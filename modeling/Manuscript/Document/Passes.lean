import Manuscript.Alignment
import Manuscript.Document.Code
import Manuscript.Json.Shown

/-!
# Setting the code of a document

The tag of a code block selects how it is set. A tag that begins with `verb` makes it a
verbatim environment around its text with the macro list applied, `rawmacro` LaTeX with
the macro list applied, `raw` LaTeX as it is, `align` a layout in columns and `indent` a
layout with indentation. Code within a line is LaTeX as it is when its tag begins with
`raw`, and a formula otherwise.

Four passes over the tree do this one after the other. What a pass has made LaTeX is code
no longer, so no later pass applies macros to it or wraps it again.
-/

namespace Manuscript.Document

/-- The kind of code blocks. -/
def codeBlockKind : Json := .string "CodeBlock".toList

/-- The kind of code within a line. -/
def codeKind : Json := .string "Code".toList

/-- Whether a tag begins with a name. Only texts have a beginning. -/
def tagBegins (name : String) : Json → Except NodeError Bool
  | .string tag => .ok (name.toList.isPrefixOf tag)
  | _ => .error .notText

/-- Apply a macro list to the text of code. An empty list leaves any value alone; a rule
needs text. -/
def applyToValue (rules : List Rule) (value : Json) : Except NodeError Json :=
  match rules, value with
  | [], _ => .ok value
  | _, .string text => .ok (.string (applyRules rules text))
  | _, _ => .error .wrongKind

/-- A verbatim environment around a text. -/
def verbatimBlock (text : Json) : Except NodeError Json :=
  match text with
  | .string text =>
    .ok (rawBlock (.string (Text.unlines
      ["\\begin\x7bverbatim\x7d".toList, text, "\\end\x7bverbatim\x7d".toList])))
  | _ => .error .wrongKind

/-- Set a block from its text, which is cut into lines. -/
def blockOfLines (set : Text → Text) (text : Json) : Except NodeError Json :=
  match text with
  | .string text => .ok (rawBlock (.string (set text)))
  | _ => .error .notText

/-- The first pass rewrites the blocks that are verbatim or LaTeX already. -/
def rewriteRawBlock (rules : List Rule) (fields : List (Text × Json)) :
    Except NodeError Json := do
  let node := Json.object fields
  if Json.field? kindField fields ≠ some codeBlockKind then return node
  let tag ← codeTag node
  if tag = .null then return node
  let text ← codeText node
  if ← tagBegins "verb" tag then
    verbatimBlock (← applyToValue rules text)
  else if ← tagBegins "rawmacro" tag then
    return rawBlock (← applyToValue rules text)
  else if ← tagBegins "raw" tag then
    return rawBlock text
  else return node

/-- The second pass rewrites the code within lines that is LaTeX already. -/
def rewriteRawInline (fields : List (Text × Json)) : Except NodeError Json := do
  let node := Json.object fields
  if Json.field? kindField fields ≠ some codeKind then return node
  let tag ← codeTag node
  if tag = .null then return node
  if ← tagBegins "raw" tag then
    return rawInline (← codeText node)
  else return node

/-- The third pass rewrites the blocks that are laid out. -/
def rewriteLayout (rules : List Rule) (fields : List (Text × Json)) : Except NodeError Json := do
  let node := Json.object fields
  if Json.field? kindField fields ≠ some codeBlockKind then return node
  let tag ← codeTag node
  if tag = .null then return node
  if ← tagBegins "align" tag then
    blockOfLines (Alignment.alignedBlock rules) (← codeText node)
  else if ← tagBegins "indent" tag then
    blockOfLines (Alignment.indentedBlock rules) (← codeText node)
  else return node

/-- The last pass makes all other code within lines a formula. -/
def rewriteFormula (rules : List Rule) (fields : List (Text × Json)) : Except NodeError Json := do
  let node := Json.object fields
  if Json.field? kindField fields ≠ some codeKind then return node
  let text ← applyToValue rules (← codeText node)
  return rawInline (.string ('$' :: Json.placed text ++ ['$']))

/-- Pass over the blocks that are verbatim or LaTeX. -/
def setRawBlocks (rules : List Rule) : Json → Except NodeError Json :=
  walk (rewriteRawBlock rules)

/-- Pass over the code within lines that is LaTeX. -/
def setRawInlines : Json → Except NodeError Json := walk rewriteRawInline

/-- Pass over the blocks that are laid out. -/
def setLayouts (rules : List Rule) : Json → Except NodeError Json := walk (rewriteLayout rules)

/-- Pass over the formulas. -/
def setFormulas (rules : List Rule) : Json → Except NodeError Json :=
  walk (rewriteFormula rules)

/-- The passes in their order. -/
def passes (rules : List Rule) : List (Json → Except NodeError Json) :=
  [setRawBlocks rules, setRawInlines, setLayouts rules, setFormulas rules]

/-- Set all code of a document. -/
def postprocess (rules : List Rule) (document : Json) : Except NodeError Json :=
  (passes rules).foldlM (fun current pass => pass current) document

/-- Run passes one after the other, and tell of each whether it changed the tree that it
was given. -/
def runPasses : List (Json → Except NodeError Json) → Json → Except NodeError (Json × List Bool)
  | [], document => .ok (document, [])
  | pass :: rest, document => do
    let next ← pass document
    let (result, changed) ← runPasses rest next
    return (result, decide (next ≠ document) :: changed)

/-- What passes make of a tree is what each makes of the tree before it, and this fails where
they do. -/
theorem runPasses_result (passes : List (Json → Except NodeError Json)) (document : Json) :
    (runPasses passes document).map Prod.fst =
      passes.foldlM (fun current pass => pass current) document := by
  induction passes generalizing document with
  | nil => rfl
  | cons pass rest inductionHypothesis =>
    rw [runPasses, List.foldlM_cons]
    cases passed : pass document with
    | error error => rfl
    | ok next =>
      change Except.map Prod.fst (runPasses rest next >>= _) = rest.foldlM _ next
      rw [← inductionHypothesis next]
      cases runPasses rest next <;> rfl

/-- So running the passes in their order sets all code. -/
theorem postprocess_eq_runPasses (rules : List Rule) (document : Json) :
    postprocess rules document = (runPasses (passes rules) document).map Prod.fst :=
  (runPasses_result (passes rules) document).symm

/-- What is told of a pass is whether it changed the tree that the passes before it have made. -/
theorem runPasses_changed {passes : List (Json → Except NodeError Json)} {document result : Json}
    {changed : List Bool} (ran : runPasses passes document = .ok (result, changed)) :
    changed.length = passes.length ∧
      ∀ count pass, passes[count]? = some pass → ∃ before after,
        (passes.take count).foldlM (fun current pass => pass current) document = .ok before ∧
        pass before = .ok after ∧ changed[count]? = some (decide (after ≠ before)) := by
  induction passes generalizing document changed with
  | nil =>
    cases ran
    exact ⟨rfl, fun count pass here => nomatch here⟩
  | cons first rest inductionHypothesis =>
    rw [runPasses] at ran
    cases passed : first document with
    | error error => simp [passed, bind, Except.bind] at ran
    | ok next =>
      cases later : runPasses rest next with
      | error error => simp [passed, later, bind, Except.bind] at ran
      | ok ended =>
        obtain ⟨final, flags⟩ := ended
        simp only [passed, later, bind, Except.bind, pure, Except.pure] at ran
        cases ran
        obtain ⟨length, told⟩ := inductionHypothesis later
        refine ⟨congrArg (· + 1) length, fun count pass here => ?_⟩
        cases count with
        | zero =>
          cases here
          exact ⟨document, next, rfl, passed, rfl⟩
        | succ count =>
          obtain ⟨before, after, made, changes, flag⟩ := told count pass here
          refine ⟨before, after, ?_, changes, flag⟩
          rw [List.take_succ_cons, List.foldlM_cons, passed]
          exact made

end Manuscript.Document
