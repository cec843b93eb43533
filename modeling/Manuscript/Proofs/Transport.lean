import Manuscript.Proofs.AsciiJson
import Manuscript.Proofs.BuildCourse
import Manuscript.Proofs.WrittenJson

/-!
# Documents on their way

Documents go to the converter and come from it as text. A document without doubles comes through
unchanged: the text that it is handed over as is ASCII, and a run of the converter that gives
this very text is read as the document. In a conversion nothing has to be known of the document
but that the first run gave no doubles. What is read is regular, and the passes keep regular what
they set, so the second call has an input that is the finished document.
-/

namespace Manuscript

namespace Build

open Json

/-- A text brings a document across: it consists of ASCII characters that print, it is the text
of the document, and reading returns the document where the converter gives this text. -/
def Carries (input : Text) (document : Json) : Prop :=
  Ascii input ∧ parse input = .ok document ∧
    ∀ (reader : Converter) (text : Text) (start : Workspace) (errors : Option Text),
      start.replies[0]? = some (.finished 0 input errors) →
      ((reader.read text).outcome start).1 = .ok document

/-- Reading a document returns what the output of the converter is parsed as. -/
theorem outcome_read_ok {reader : Converter} {text output : Text} {start : Workspace}
    {errors : Option Text} {document : Json}
    (answered : start.replies[0]? = some (.finished 0 output errors))
    (parsing : parse output = .ok document) :
    ((reader.read text).outcome start).1 = .ok document := by
  obtain ⟨log, ran⟩ := reader.outcome_run reader.readArguments text start
  have answering : reader.answer (reader.executable :: reader.readArguments)
      (start.replies.headD .notFound) = .ok output :=
    (reader.answer_next_iff _ _ output).mpr ⟨errors, answered⟩
  rw [answering] at ran
  rw [Converter.read, Action.outcome_bind_ok ran, Action.outcome_ofExcept, parsing]
  rfl

/-- The text of a document carries it. -/
theorem carries_print {document : Json} (regular : Everywhere Regular document)
    (noDouble : Everywhere NoDouble document) : Carries document.print document := by
  have parsing := parse_print regular noDouble
  refine ⟨ascii_print document noDouble, parsing, ?_⟩
  intro reader text start errors answered
  exact outcome_read_ok answered parsing

theorem regular_ofNames : Document.OfNames Regular where
  string _ := trivial
  array _ := trivial
  object fields others names known := by
    rw [Regular] at known ⊢
    rwa [← names]
  raw _ _ := (by decide : [Document.kindField, Document.contentField].Nodup)

theorem noDouble_ofNames : Document.OfNames NoDouble where
  string _ := trivial
  array _ := trivial
  object _ _ _ _ := trivial
  raw _ _ := trivial

/-- What a document without doubles is set as is carried by its text. -/
theorem carries_finished {rules : List Rule} {output : Text} {decoded finished : Json}
    (parsing : parse output = .ok decoded) (noDouble : Everywhere NoDouble decoded)
    (setting : Document.postprocess rules decoded = .ok finished) :
    Carries finished.print finished :=
  carries_print
    (Document.postprocess_everywhere regular_ofNames rules decoded finished
      (parse_regular parsing) setting)
    (Document.postprocess_everywhere noDouble_ofNames rules decoded finished noDouble setting)

/-- A conversion makes two calls exactly if there is a finished document for the second one. -/
theorem convertText_calls_iff (converter : Converter) (rules : List Rule) (text : Text)
    (start : Workspace) (first second : Call) :
    ((convertText converter rules text).outcome start).2.calls = start.calls ++ [first, second] ↔
      ∃ finished, finishedDocument converter rules start.replies = .ok finished ∧
        first = readingCall converter text ∧ second = writingCall converter finished := by
  cases finishing : finishedDocument converter rules start.replies with
  | error failure =>
    obtain ⟨log, ran⟩ := outcome_convertText_error start text finishing
    rw [ran]
    constructor
    · intro called
      cases List.append_cancel_left called
    · rintro ⟨finished, ⟨⟩, -⟩
  | ok finished =>
    obtain ⟨log, ran⟩ := outcome_convertText_ok start text finishing
    rw [ran]
    constructor
    · intro called
      cases List.append_cancel_left called
      exact ⟨finished, rfl, rfl, rfl⟩
    · rintro ⟨other, ⟨⟩, rfl, rfl⟩
      rfl

/-- A document without doubles comes through the converter unchanged. The call that writes it
has an input that carries it. In a conversion the input of the second call carries what the
document that the first reply was decoded to is set as, and the second call is made wherever the
blocks can be counted and the passes succeed. -/
theorem documents_carried (converter : Converter) :
    (∀ document, Everywhere Regular document → Everywhere NoDouble document →
      ∀ start : Workspace, ∃ input,
        ((converter.write document).outcome start).2.calls = start.calls ++
          [⟨converter.executable :: converter.writeArguments, input, converter.timeout⟩] ∧
        Carries input document) ∧
    ∀ (rules : List Rule) (text : Text) (start : Workspace) (output : Text)
      (errors : Option Text) (decoded : Json),
      start.replies[0]? = some (.finished 0 output errors) → parse output = .ok decoded →
      Everywhere NoDouble decoded →
      (∀ count finished, blockCount decoded = .ok count →
        Document.postprocess rules decoded = .ok finished →
        ∃ second, ((convertText converter rules text).outcome start).2.calls =
            start.calls ++ [readingCall converter text, second] ∧
          Carries second.input finished) ∧
      ∀ first second, ((convertText converter rules text).outcome start).2.calls =
          start.calls ++ [first, second] →
        ∃ finished, Document.postprocess rules decoded = .ok finished ∧
          Carries second.input finished := by
  constructor
  · intro document regular noDouble start
    obtain ⟨log, ran⟩ := converter.outcome_run converter.writeArguments document.print start
    refine ⟨document.print, ?_, carries_print regular noDouble⟩
    rw [Converter.write, ran]
  · intro rules text start output errors decoded answered parsing noDouble
    constructor
    · intro count finished counting setting
      have finishing : finishedDocument converter rules start.replies = .ok finished :=
        (finishedDocument_ok_iff converter rules _ finished).mpr
          ⟨output, errors, decoded, count, answered, parsing, counting, setting⟩
      refine ⟨writingCall converter finished, ?_, carries_finished parsing noDouble setting⟩
      exact (convertText_calls_iff converter rules text start _ _).mpr
        ⟨finished, finishing, rfl, rfl⟩
    · intro first second called
      obtain ⟨finished, finishing, -, rfl⟩ :=
        (convertText_calls_iff converter rules text start first second).mp called
      obtain ⟨outputAgain, errorsAgain, document, count, answer, read, -, setting⟩ :=
        (finishedDocument_ok_iff converter rules _ finished).mp finishing
      cases answered.symm.trans answer
      cases parsing.symm.trans read
      exact ⟨finished, setting, carries_finished parsing noDouble setting⟩

/-- A document with what has to be escaped: quotes, a backslash, controls, a delete character and
characters beyond ASCII, one of them beyond the first plane. -/
def letter : Json :=
  .object
    [(blocksField, .array
      [.object
        [(Document.kindField, Document.codeKind),
          (Document.contentField, .array
            [.array [.string [], .array [], .array []],
              .string "a \"\\\n\t\x08\x0c\x00\x7f\u00e9\u2028".toList])]]),
      ("\"𝒳".toList, .array [.integer (-120), .integer 0, .boolean true, .null, .object []])]

/-- A workspace whose converter gives the text of the letter. -/
def letterStart : Workspace where
  store := ⟨[], []⟩
  environment := []
  settings := none
  replies := [.finished 0 letter.print none]
  calls := []
  log := []
  console := []
  workingDirectory := Path.ofText "/".toList
  process := "manuscript".toList

theorem letter_regular : Everywhere Regular letter := by
  have names : blocksField ≠ "\"𝒳".toList ∧ Document.kindField ≠ Document.contentField := by decide
  have digits : (Text.numeral 120).length ≤ digitLimit ∧ (Text.numeral 0).length ≤ digitLimit := by
    decide
  simpa [letter, Regular, Document.codeKind, digits] using names

theorem letter_noDouble : Everywhere NoDouble letter := by
  simp [letter, NoDouble, Document.codeKind]

/-- The letter is carried to the converter, and so is what it is set as when it was read. -/
theorem letter_carried :
    Everywhere Regular letter ∧ Everywhere NoDouble letter ∧
    (∃ input, ((Converter.standard.write letter).outcome letterStart).2.calls =
        [⟨"pandoc".toList :: Converter.standard.writeArguments, input, 60⟩] ∧
      Carries input letter) ∧
    parse letter.print = .ok letter ∧
    ∃ finished second,
      Document.postprocess [⟨['a'], ['b'], .anywhere, nofun⟩] letter = .ok finished ∧
      ((convertText Converter.standard [⟨['a'], ['b'], .anywhere, nofun⟩] []).outcome
        letterStart).2.calls = [readingCall Converter.standard [], second] ∧
      Carries second.input finished := by
  obtain ⟨writing, converting⟩ := documents_carried Converter.standard
  have parsing := parse_print letter_regular letter_noDouble
  obtain ⟨forward, -⟩ := converting [⟨['a'], ['b'], .anywhere, nofun⟩] [] letterStart
    letter.print none letter rfl parsing letter_noDouble
  have set : ∃ finished,
      Document.postprocess [⟨['a'], ['b'], .anywhere, nofun⟩] letter = .ok finished := ⟨_, rfl⟩
  obtain ⟨finished, setting⟩ := set
  obtain ⟨second, called, carries⟩ := forward 1 finished rfl setting
  exact ⟨letter_regular, letter_noDouble, writing letter letter_regular letter_noDouble letterStart,
    parsing, finished, second, setting, called, carries⟩

end Build

end Manuscript
