import Manuscript.Document.Passes
import Manuscript.Json.Printer
import Manuscript.Paragraph
import Manuscript.Table.Load

/-!
# Building a document

A document is preprocessed, read by the converter into a tree, set, and written by the
converter as LaTeX. A build does this with the input of its settings: first the macro list
is loaded, then the input is read, then the converter runs twice. Only when all of that has
succeeded the outputs are written, the preprocessed text before the LaTeX.
-/

namespace Manuscript

namespace Converter

/-- Read a document into its tree. -/
def read (converter : Converter) (text : Text) : Action Json := do
  let output ← converter.run converter.readArguments text
  Action.ofExcept Failure.json (Json.parse output)

/-- Write the tree of a document. -/
def write (converter : Converter) (document : Json) : Action Text :=
  converter.run converter.writeArguments document.print

end Converter

/-- What a conversion makes of a text. -/
structure Conversion where
  preprocessed : Text
  latex : Text
deriving DecidableEq, Repr

/-- What a build has written, and how many rules it applied. -/
structure BuildResult where
  preprocessedPath : Path
  latexPath : Path
  ruleCount : Nat
deriving DecidableEq, Repr

namespace Build

/-- The name of the field that holds the blocks of a document. -/
def blocksField : Text := "blocks".toList

/-- The number of blocks at the top of a document. -/
def blockCount : Json → Except Document.NodeError Nat
  | .object fields =>
    match Json.field? blocksField fields with
    | some blocks => (Document.parts blocks).map List.length
    | none => .ok 0
  | _ => .error .notText

/-- Convert a text. -/
def convertText (converter : Converter) (rules : List Rule) (text : Text) :
    Action Conversion := do
  let preprocessed := Paragraph.preprocess text
  let document ← converter.read preprocessed
  let blocks ← Action.ofExcept Failure.node (blockCount document)
  Action.log .debug s!"Parsed {blocks} top-level blocks"
  let finished ← Action.ofExcept Failure.node (Document.postprocess rules document)
  Action.log .debug s!"Post-processed document with {rules.length} macros"
  let latex ← converter.write finished
  return ⟨preprocessed, latex⟩

/-- The text of the input document. -/
def inputText (store : Store) (path : Path) : Except Failure Text :=
  if store.holds path then
    match store.read path with
    | .ok bytes => (Utf8.decode bytes).mapError Failure.notUtf8 |>.map Text.unifyLineEnds
    | .error error => .error (.file error)
  else .error (.noDocument path)

/-- Write the outputs of a build. -/
def writeOutputs (paths : PathSettings) (conversion : Conversion) : Action Unit := do
  Action.makeDirectories paths.outputDirectory
  Action.changeStore fun store =>
    store.writeText paths.preprocessedPath conversion.preprocessed
  Action.log .info s!"Wrote pre-processed markdown to {paths.preprocessedPath}"
  Action.changeStore fun store => store.writeText paths.latexPath conversion.latex
  Action.log .info s!"Wrote LaTeX to {paths.latexPath}"

/-- Build the document of settings with a macro list, or with the one of the settings. -/
def convertDocument (settings : Settings) (given : Option (List Rule)) :
    Action BuildResult := do
  let rules ← match given with
    | some rules => pure rules
    | none => Table.load settings.tables.resolved
  let text ← Action.ofExcept id (inputText (← get).store settings.paths.input)
  let conversion ← convertText settings.converter rules text
  writeOutputs settings.paths conversion
  return ⟨settings.paths.preprocessedPath, settings.paths.latexPath, rules.length⟩

end Build

end Manuscript
