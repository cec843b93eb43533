import Manuscript.Proofs.Growth
import Manuscript.Proofs.Outcome

/-!
# The course of a build

A build goes through the same points in every run: the macro list, the input, the first call
of the converter, what comes of its reply, the second call, and the outputs. It ends at the
first point that fails. The ways in which a run can end are the constructors of one relation,
and each carries what has succeeded before and what then failed. What is known of all runs
follows from it by cases.
-/

namespace Manuscript

namespace Build

/-- The macro list of a build: the one that is given, or the one of the settings. -/
def rulesOf (settings : Settings) (given : Option (List Rule)) (store : Store) :
    Except Failure (List Rule) :=
  match given with
  | some rules => .ok rules
  | none => Table.rulesOfSources store settings.tables.resolved

/-- A path leads to a file with a text: its bytes are UTF-8, and its line ends are unified. -/
def Reads (store : Store) (path : Path) (text : Text) : Prop :=
  ∃ bytes decoded, store.read path = .ok bytes ∧ Utf8.decode bytes = .ok decoded ∧
    text = Text.unifyLineEnds decoded

/-- The call that has the converter read a text. -/
def readingCall (converter : Converter) (text : Text) : Call :=
  ⟨converter.executable :: converter.readArguments, Paragraph.preprocess text,
    converter.timeout⟩

/-- The call that has the converter write a document. -/
def writingCall (converter : Converter) (document : Json) : Call :=
  ⟨converter.executable :: converter.writeArguments, document.print, converter.timeout⟩

/-- The finished document that the first of the replies leads to. -/
def finishedDocument (converter : Converter) (rules : List Rule) (replies : List Reply) :
    Except Failure Json := do
  let output ← converter.answer (converter.executable :: converter.readArguments)
    (replies.headD .notFound)
  let document ← (Json.parse output).mapError Failure.json
  let _ ← (blockCount document).mapError Failure.node
  (Document.postprocess rules document).mapError Failure.node

/-- How the outputs come out: the result, and the store that is left. -/
inductive Outputs (paths : PathSettings) (conversion : Conversion) (before : Store) :
    Except Failure Unit → Store → Prop where
  | refused (made : Store) (error : FileError)
      (ended : before.makeDirectories paths.outputDirectory = (made, some error)) :
      Outputs paths conversion before (.error (.file error)) made
  | unwritten (made : Store) (error : FileError)
      (ended : before.makeDirectories paths.outputDirectory = (made, none))
      (first : made.writeText paths.preprocessedPath conversion.preprocessed = .error error) :
      Outputs paths conversion before (.error (.file error)) made
  | halfWritten (made written : Store) (error : FileError)
      (ended : before.makeDirectories paths.outputDirectory = (made, none))
      (first : made.writeText paths.preprocessedPath conversion.preprocessed = .ok written)
      (second : written.writeText paths.latexPath conversion.latex = .error error) :
      Outputs paths conversion before (.error (.file error)) written
  | done (made written after : Store)
      (ended : before.makeDirectories paths.outputDirectory = (made, none))
      (first : made.writeText paths.preprocessedPath conversion.preprocessed = .ok written)
      (second : written.writeText paths.latexPath conversion.latex = .ok after) :
      Outputs paths conversion before (.ok ()) after

/-- How a build goes: its result, the calls it makes and the store it leaves. -/
inductive Course (settings : Settings) (given : Option (List Rule)) (start : Workspace) :
    Except Failure BuildResult → List Call → Store → Prop where
  | unloaded (failure : Failure)
      (loading : rulesOf settings given start.store = .error failure) :
      Course settings given start (.error failure) [] start.store
  | unread (rules : List Rule) (failure : Failure)
      (loading : rulesOf settings given start.store = .ok rules)
      (reading : inputText start.store settings.paths.input = .error failure) :
      Course settings given start (.error failure) [] start.store
  | unfinished (rules : List Rule) (text : Text) (failure : Failure)
      (loading : rulesOf settings given start.store = .ok rules)
      (reading : inputText start.store settings.paths.input = .ok text)
      (finishing : finishedDocument settings.converter rules start.replies = .error failure) :
      Course settings given start (.error failure) [readingCall settings.converter text]
        start.store
  | unanswered (rules : List Rule) (text : Text) (document : Json) (failure : Failure)
      (loading : rulesOf settings given start.store = .ok rules)
      (reading : inputText start.store settings.paths.input = .ok text)
      (finishing : finishedDocument settings.converter rules start.replies = .ok document)
      (answering : settings.converter.answer (writingCall settings.converter document).command
        ((start.replies.drop 1).headD .notFound) = .error failure) :
      Course settings given start (.error failure)
        [readingCall settings.converter text, writingCall settings.converter document]
        start.store
  | answered (rules : List Rule) (text latex : Text) (document : Json)
      (result : Except Failure Unit) (after : Store)
      (loading : rulesOf settings given start.store = .ok rules)
      (reading : inputText start.store settings.paths.input = .ok text)
      (finishing : finishedDocument settings.converter rules start.replies = .ok document)
      (answering : settings.converter.answer (writingCall settings.converter document).command
        ((start.replies.drop 1).headD .notFound) = .ok latex)
      (outputs : Outputs settings.paths ⟨Paragraph.preprocess text, latex⟩ start.store result
        after) :
      Course settings given start
        (result.map fun _ => ⟨settings.paths.preprocessedPath, settings.paths.latexPath,
          rules.length⟩)
        [readingCall settings.converter text, writingCall settings.converter document] after

/-- The input has a text exactly where it can be read and decoded. -/
theorem inputText_ok_iff (store : Store) (path : Path) (text : Text) :
    inputText store path = .ok text ↔ Reads store path text := by
  unfold inputText Reads
  cases readable : store.read path with
  | error error =>
    constructor
    · intro found
      split at found <;> cases found
    · rintro ⟨bytes, decoded, contents, -⟩
      cases contents
  | ok bytes =>
    rw [if_pos (Store.holds_of_read readable)]
    cases decoding : Utf8.decode bytes with
    | error fault =>
      simp only [decoding, mapError_error, Except.map]
      constructor
      · intro found
        cases found
      · rintro ⟨contents, decoded, same, valid, -⟩
        cases same
        rw [decoding] at valid
        cases valid
    | ok decoded =>
      simp only [decoding, mapError_ok, Except.map]
      constructor
      · intro found
        exact ⟨bytes, decoded, rfl, decoding, (Except.ok.inj found).symm⟩
      · rintro ⟨contents, decodedAgain, same, valid, shape⟩
        cases same
        rw [decoding] at valid
        cases valid
        rw [shape]

/-- A finished document comes from a reply of a run that exited with zero, whose output is a
tree with a number of blocks that every pass goes through. -/
theorem finishedDocument_ok_iff (converter : Converter) (rules : List Rule)
    (replies : List Reply) (finished : Json) :
    finishedDocument converter rules replies = .ok finished ↔
      ∃ output errors document count, replies[0]? = some (.finished 0 output errors) ∧
        Json.parse output = .ok document ∧ blockCount document = .ok count ∧
        Document.postprocess rules document = .ok finished := by
  unfold finishedDocument
  constructor
  · intro done
    obtain ⟨output, answering, done⟩ := bind_ok done
    obtain ⟨document, parsing, done⟩ := bind_ok done
    obtain ⟨count, counting, setting⟩ := bind_ok done
    rw [mapError_ok_iff] at parsing counting setting
    obtain ⟨errors, answered⟩ := (converter.answer_next_iff _ replies output).mp answering
    exact ⟨output, errors, document, count, answered, parsing, counting, setting⟩
  · rintro ⟨output, errors, document, count, answered, parsing, counting, setting⟩
    have answering : converter.answer (converter.executable :: converter.readArguments)
        (replies.headD .notFound) = .ok output :=
      (converter.answer_next_iff _ replies output).mpr ⟨errors, answered⟩
    rw [answering]
    simp [bind, Except.bind, parsing, counting, setting]

/-- Writing the outputs comes out in one of the four ways. -/
theorem outcome_writeOutputs (paths : PathSettings) (conversion : Conversion)
    (start : Workspace) :
    ∃ result after log, (writeOutputs paths conversion).outcome start =
        (result, { start with store := after, log }) ∧
      Outputs paths conversion start.store result after := by
  cases made : start.store.makeDirectories paths.outputDirectory with
  | mk prepared refusal =>
    cases refusal with
    | some error =>
      refine ⟨_, _, start.log, ?_, .refused prepared error made⟩
      rw [writeOutputs, Action.outcome_bind, Action.outcome_makeDirectories, made]
    | none =>
      rw [writeOutputs, Action.outcome_bind, Action.outcome_makeDirectories, made]
      simp only [Action.outcome_bind, Action.outcome_changeStore]
      cases first : prepared.writeText paths.preprocessedPath conversion.preprocessed with
      | error error => exact ⟨_, _, start.log, rfl, .unwritten prepared error made first⟩
      | ok written =>
        simp only [Action.outcome_log]
        cases second : written.writeText paths.latexPath conversion.latex with
        | error error =>
          exact ⟨_, _, _, rfl, .halfWritten prepared written error made first second⟩
        | ok after => exact ⟨_, _, _, rfl, .done prepared written after made first second⟩

/-- Up to the finished document only the first call is made. -/
theorem outcome_convertText_error {converter : Converter} {rules : List Rule}
    {failure : Failure} (start : Workspace) (text : Text)
    (finishing : finishedDocument converter rules start.replies = .error failure) :
    ∃ log, (convertText converter rules text).outcome start = (.error failure,
      { start with
        calls := start.calls ++ [readingCall converter text]
        replies := start.replies.drop 1
        log }) := by
  obtain ⟨log, ran⟩ := converter.outcome_run converter.readArguments
    (Paragraph.preprocess text) start
  unfold finishedDocument at finishing
  unfold convertText Converter.read
  simp only [Action.outcome_bind, ran]
  cases answering : converter.answer (converter.executable :: converter.readArguments)
      (start.replies.headD .notFound) with
  | error refusal =>
    rw [answering] at finishing
    cases finishing
    exact ⟨log, rfl⟩
  | ok output =>
    rw [answering] at finishing
    simp only [bind, Except.bind] at finishing
    simp only [Action.outcome_ofExcept]
    cases parsing : Json.parse output with
    | error refusal =>
      rw [parsing] at finishing
      cases finishing
      exact ⟨log, rfl⟩
    | ok document =>
      rw [parsing] at finishing
      simp only [mapError_ok] at finishing ⊢
      cases counting : blockCount document with
      | error error =>
        rw [counting] at finishing
        cases finishing
        exact ⟨log, rfl⟩
      | ok count =>
        rw [counting] at finishing
        simp only [Action.outcome_log] at finishing ⊢
        cases setting : Document.postprocess rules document with
        | error error =>
          rw [setting] at finishing
          cases finishing
          exact ⟨_, rfl⟩
        | ok finished =>
          rw [setting] at finishing
          cases finishing

/-- Behind the finished document the second call is made, and its answer ends the
conversion. -/
theorem outcome_convertText_ok {converter : Converter} {rules : List Rule}
    {finished : Json} (start : Workspace) (text : Text)
    (finishing : finishedDocument converter rules start.replies = .ok finished) :
    ∃ log, (convertText converter rules text).outcome start =
      ((converter.answer (writingCall converter finished).command
          ((start.replies.drop 1).headD .notFound)).map
        fun latex => ⟨Paragraph.preprocess text, latex⟩,
      { start with
        calls := start.calls ++ [readingCall converter text, writingCall converter finished]
        replies := start.replies.drop 2
        log }) := by
  obtain ⟨log, ran⟩ := converter.outcome_run converter.readArguments
    (Paragraph.preprocess text) start
  obtain ⟨output, errors, document, count, answered, parsing, counting, setting⟩ :=
    (finishedDocument_ok_iff converter rules _ finished).mp finishing
  have answering : converter.answer (converter.executable :: converter.readArguments)
      (start.replies.headD .notFound) = .ok output :=
    (converter.answer_next_iff _ _ output).mpr ⟨errors, answered⟩
  rw [answering] at ran
  unfold convertText Converter.read
  simp only [Action.outcome_bind, ran, Action.outcome_ofExcept, parsing, counting, setting,
    mapError_ok, Action.outcome_log]
  obtain ⟨laterLog, wrote⟩ := converter.outcome_run converter.writeArguments finished.print
    { start with
      calls := start.calls ++ [readingCall converter text]
      replies := start.replies.drop 1
      log := log ++ [⟨.debug, s!"Parsed {count} top-level blocks"⟩] ++
        [⟨.debug, s!"Post-processed document with {rules.length} macros"⟩] }
  refine ⟨laterLog, ?_⟩
  rw [Converter.write]
  simp only [readingCall] at wrote
  rw [wrote]
  simp only [writingCall, readingCall, List.append_assoc, List.drop_drop]
  cases converter.answer (converter.executable :: converter.writeArguments)
    ((start.replies.drop 1).headD .notFound) <;> rfl

/-- The first step of a build: get the macro list. -/
def macroList (settings : Settings) (given : Option (List Rule)) : Action (List Rule) :=
  match given with
  | some rules => pure rules
  | none => Table.load settings.tables.resolved

/-- The other steps of a build, with the macro list. -/
def convertWith (settings : Settings) (rules : List Rule) : Action BuildResult := do
  let text ← Action.ofExcept id (inputText (← get).store settings.paths.input)
  let conversion ← convertText settings.converter rules text
  writeOutputs settings.paths conversion
  return ⟨settings.paths.preprocessedPath, settings.paths.latexPath, rules.length⟩

theorem convertDocument_eq (settings : Settings) (given : Option (List Rule)) :
    convertDocument settings given = macroList settings given >>= convertWith settings := by
  cases given <;> rfl

/-- Getting the macro list is looking at the store, where none is given. -/
theorem outcome_macroList (settings : Settings) (given : Option (List Rule))
    (start : Workspace) :
    ∃ log, (macroList settings given).outcome start =
      (rulesOf settings given start.store, { start with log }) := by
  cases given with
  | some rules => exact ⟨start.log, rfl⟩
  | none => exact Table.outcome_load settings.tables.resolved start

/-- Every run of a build takes its course. -/
theorem outcome_course (settings : Settings) (given : Option (List Rule)) (start : Workspace) :
    ∃ result finish made, (convertDocument settings given).outcome start = (result, finish) ∧
      finish.calls = start.calls ++ made ∧
      Course settings given start result made finish.store := by
  obtain ⟨log, loaded⟩ := outcome_macroList settings given start
  rw [convertDocument_eq, Action.outcome_bind, loaded]
  cases loading : rulesOf settings given start.store with
  | error failure =>
    exact ⟨_, _, [], rfl, (List.append_nil start.calls).symm, .unloaded failure loading⟩
  | ok rules =>
    simp only [convertWith, Action.outcome_bind, Action.outcome_get, Action.outcome_ofExcept]
    cases reading : inputText start.store settings.paths.input with
    | error failure =>
      exact ⟨_, _, [], rfl, (List.append_nil start.calls).symm,
        .unread rules failure loading reading⟩
    | ok text =>
      simp only [mapError_ok]
      cases finishing : finishedDocument settings.converter rules start.replies with
      | error failure =>
        obtain ⟨laterLog, converted⟩ :=
          outcome_convertText_error { start with log } text finishing
        rw [converted]
        exact ⟨_, _, _, rfl, rfl, .unfinished rules text failure loading reading finishing⟩
      | ok document =>
        obtain ⟨laterLog, converted⟩ :=
          outcome_convertText_ok { start with log } text finishing
        rw [converted]
        cases answering : settings.converter.answer
            (writingCall settings.converter document).command
            ((start.replies.drop 1).headD .notFound) with
        | error failure =>
          exact ⟨_, _, _, rfl, rfl,
            .unanswered rules text document failure loading reading finishing answering⟩
        | ok latex =>
          simp only [Except.map]
          obtain ⟨result, after, lastLog, wrote, outputs⟩ := outcome_writeOutputs settings.paths
            ⟨Paragraph.preprocess text, latex⟩
            { start with
              calls := start.calls ++ [readingCall settings.converter text,
                writingCall settings.converter document]
              replies := start.replies.drop 2
              log := laterLog }
          rw [wrote]
          have course := Course.answered rules text latex document result after loading reading
            finishing answering outputs
          cases result with
          | error failure => exact ⟨_, _, _, rfl, rfl, course⟩
          | ok written => exact ⟨_, _, _, rfl, rfl, course⟩

end Build

end Manuscript
