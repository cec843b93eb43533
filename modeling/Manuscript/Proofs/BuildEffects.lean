import Manuscript.Proofs.BuildCourse
import Manuscript.Proofs.OutputPaths
import Manuscript.Proofs.SoundStore

/-!
# What a build does to the files

A build makes two calls of the converter at most, and it writes only behind the second. Up to
there a failure leaves the store as it was. Behind it the directories of the outputs are made,
the preprocessed document is written, and the LaTeX last; so a failure there never leaves a
new or changed file at the place of the LaTeX. What it can leave there is a directory: where
the path of the output directory leads through that place and back out of it, making the
directories along the path makes that one too, and the LaTeX is then refused.
-/

namespace Manuscript

namespace Build

variable {paths : PathSettings} {conversion : Conversion} {before after : Store}

/-- Where the outputs fail, nothing is written but the preprocessed document. -/
theorem Outputs.failed {failure : Failure}
    (outputs : Outputs paths conversion before (.error failure) after) :
    ∃ written, Store.Extends paths.outputDirectory written before after ∧
      ∀ location ∈ written, ∃ store : Store,
        (store.find paths.preprocessedPath).location? = some location := by
  have extended := before.makeDirectories_extends paths.outputDirectory
  cases outputs with
  | refused made error ended =>
    rw [ended] at extended
    exact ⟨[], extended, by simp⟩
  | unwritten made error ended first =>
    rw [ended] at extended
    exact ⟨[], extended, by simp⟩
  | halfWritten made written error ended first second =>
    rw [ended] at extended
    obtain ⟨location, -, ends, firstExtends⟩ := Store.write_ok first
    refine ⟨[location], extended.trans (firstExtends paths.outputDirectory), ?_⟩
    intro other member
    rw [List.mem_singleton] at member
    subst member
    exact ⟨made, ends⟩

/-- Where the outputs are written, they hold what they should, and nothing else is written. -/
theorem Outputs.returned (outputs : Outputs paths conversion before (.ok ()) after) :
    ∃ preprocessed latex,
      after.find paths.preprocessedPath =
        .entry preprocessed (.file (Utf8.encode conversion.preprocessed)) ∧
      after.find paths.latexPath = .entry latex (.file (Utf8.encode conversion.latex)) ∧
      Store.Extends paths.outputDirectory [preprocessed, latex] before after := by
  have extended := before.makeDirectories_extends paths.outputDirectory
  cases outputs with
  | done made written after ended first second =>
    rw [ended] at extended
    obtain ⟨preprocessed, found, ends, firstExtends⟩ := Store.write_ok first
    obtain ⟨latex, foundLatex, endsLatex, secondExtends⟩ := Store.write_ok second
    have apart : preprocessed ≠ latex := paths.outputs_apart made written ends endsLatex
    have both := (extended.trans (firstExtends paths.outputDirectory)).trans
      (secondExtends paths.outputDirectory)
    refine ⟨preprocessed, latex, ?_, foundLatex, both⟩
    have last := secondExtends paths.outputDirectory
    have held : written.entry? preprocessed =
        some (.file (Utf8.encode conversion.preprocessed)) :=
      Store.follow_entry written _ _ found
    have endsStill : (written.find paths.preprocessedPath).location? = some preprocessed := by
      rw [found]
      rfl
    exact Store.find_kept last.kept last.sameStart endsStill
      (last.entry_kept (by rw [List.mem_singleton]; exact apart) held)

/-- However the outputs come out, a sound store stays sound. -/
theorem Outputs.sound {result : Except Failure Unit} (sound : before.Sound)
    (outputs : Outputs paths conversion before result after) : after.Sound := by
  have prepared := Store.makeDirectories_sound sound paths.outputDirectory
  cases outputs with
  | refused made error ended =>
    rw [ended] at prepared
    exact prepared
  | unwritten made error ended first =>
    rw [ended] at prepared
    exact prepared
  | halfWritten made written error ended first second =>
    rw [ended] at prepared
    exact Store.write_sound prepared first
  | done made written after ended first second =>
    rw [ended] at prepared
    exact Store.write_sound (Store.write_sound prepared first) second

/-- The second call was made and has returned successfully. -/
def Answered (start : Workspace) (made : List Call) : Prop :=
  made.length = 2 ∧ ∃ latex errors, start.replies[1]? = some (.finished 0 latex errors)

/-- Which calls a build makes. -/
structure Calling (settings : Settings) (given : Option (List Rule)) (start : Workspace)
    (result : Except Failure BuildResult) (made : List Call) : Prop where
  /-- There are two calls at most. -/
  few : made.length ≤ 2
  /-- Without a macro list the build fails before any call. -/
  unloaded : ∀ failure, rulesOf settings given start.store = .error failure →
    result = .error failure ∧ made = []
  /-- Without the text of the input the build fails before any call. -/
  unread : (∀ text, ¬ Reads start.store settings.paths.input text) →
    (∃ failure, result = .error failure) ∧ made = []
  /-- Otherwise the first call has the preprocessed text read. -/
  first : ∀ rules text, rulesOf settings given start.store = .ok rules →
    Reads start.store settings.paths.input text →
    made[0]? = some (readingCall settings.converter text)
  /-- The second call has the finished document written, where there is one. -/
  second : ∀ rules text call, rulesOf settings given start.store = .ok rules →
    Reads start.store settings.paths.input text →
    (made[1]? = some call ↔
      ∃ output errors document count finished,
        start.replies[0]? = some (.finished 0 output errors) ∧
        Json.parse output = .ok document ∧ blockCount document = .ok count ∧
        Document.postprocess rules document = .ok finished ∧
        call = writingCall settings.converter finished)

/-- What a build does to the files. -/
structure Filing (settings : Settings) (given : Option (List Rule)) (start : Workspace)
    (result : Except Failure BuildResult) (made : List Call) (after : Store) : Prop where
  /-- A failure before the second call has returned successfully leaves the store alone. -/
  untouched : ∀ failure, result = .error failure → ¬ Answered start made → after = start.store
  /-- Through any failure the path of the LaTeX leads to what it led to. -/
  latexKept : ∀ failure, result = .error failure → ∀ location entry,
    start.store.find settings.paths.latexPath = .entry location entry →
    after.find settings.paths.latexPath = .entry location entry
  /-- What it leads to after a failure was there before, unless it is a directory that was
  made because the path of the output directory leads through that place. -/
  latexFound : ∀ failure, result = .error failure → ∀ location entry,
    after.find settings.paths.latexPath = .entry location entry →
    start.store.entry? location = some entry ∨
      entry = .directory ∧
        Store.Added settings.paths.outputDirectory start.store after location
  /-- Without double dots in the path of the output directory there is no such directory, and
  the path of the LaTeX leads to nothing that it did not lead to. -/
  latexPlain : ∀ failure, result = .error failure → start.store.Sound →
    ['.', '.'] ∉ settings.paths.outputDirectory.parts →
    ∀ location entry, after.find settings.paths.latexPath = .entry location entry →
    start.store.find settings.paths.latexPath = .entry location entry
  /-- A build that returns has written its two outputs, and otherwise it has only made
  directories along the path of the output directory. -/
  returned : ∀ build, result = .ok build →
    ∃ rules text latex errors preprocessedPlace latexPlace,
      rulesOf settings given start.store = .ok rules ∧
      Reads start.store settings.paths.input text ∧
      start.replies[1]? = some (.finished 0 latex errors) ∧
      build = ⟨settings.paths.preprocessedPath, settings.paths.latexPath, rules.length⟩ ∧
      after.find settings.paths.preprocessedPath =
        .entry preprocessedPlace (.file (Utf8.encode (Paragraph.preprocess text))) ∧
      after.find settings.paths.latexPath = .entry latexPlace (.file (Utf8.encode latex)) ∧
      Store.Extends settings.paths.outputDirectory [preprocessedPlace, latexPlace] start.store
        after
  /-- Every build leaves the input as it was. -/
  inputKept : start.store.Sound → ∀ bytes, start.store.read settings.paths.input = .ok bytes →
    after.read settings.paths.input = .ok bytes
  /-- Every build leaves a file system. -/
  soundKept : start.store.Sound → after.Sound

variable {settings : Settings} {given : Option (List Rule)} {start : Workspace}

/-- With the macro list and the text the first call is made, and the second one is made where
the first leads to a finished document. -/
theorem calling_read {rules : List Rule} {text : Text} {later : List Call}
    (result : Except Failure BuildResult)
    (loading : rulesOf settings given start.store = .ok rules)
    (reading : inputText start.store settings.paths.input = .ok text)
    (few : later.length ≤ 1)
    (continued : ∀ call, later[0]? = some call ↔ ∃ finished,
      finishedDocument settings.converter rules start.replies = .ok finished ∧
        call = writingCall settings.converter finished) :
    Calling settings given start result (readingCall settings.converter text :: later) := by
  have sameRules : ∀ other, rulesOf settings given start.store = .ok other → other = rules := by
    intro other loaded
    exact Except.ok.inj (loaded.symm.trans loading)
  have sameText : ∀ other, Reads start.store settings.paths.input other → other = text := by
    intro other read
    exact Except.ok.inj (((inputText_ok_iff _ _ _).mpr read).symm.trans reading)
  constructor
  case few =>
    rw [List.length_cons]
    omega
  case unloaded =>
    intro failure broken
    rw [loading] at broken
    cases broken
  case unread =>
    intro unread
    exact absurd ((inputText_ok_iff _ _ _).mp reading) (unread text)
  case first =>
    intro otherRules other loaded read
    rw [sameText other read]
    rfl
  case second =>
    intro otherRules other call loaded read
    rw [sameRules otherRules loaded, List.getElem?_cons_succ, continued call]
    constructor
    · rintro ⟨finished, finishing, rfl⟩
      obtain ⟨output, errors, document, count, answered, parsing, counting, setting⟩ :=
        (finishedDocument_ok_iff _ _ _ _).mp finishing
      exact ⟨output, errors, document, count, finished, answered, parsing, counting, setting, rfl⟩
    · rintro ⟨output, errors, document, count, finished, answered, parsing, counting, setting, rfl⟩
      exact ⟨finished, (finishedDocument_ok_iff _ _ _ _).mpr
        ⟨output, errors, document, count, answered, parsing, counting, setting⟩, rfl⟩

/-- The calls of every course are those that a build makes. -/
theorem Course.calling {result : Except Failure BuildResult} {made : List Call}
    (course : Course settings given start result made after) :
    Calling settings given start result made := by
  cases course with
  | unloaded failure loading =>
    have broken : ∀ rules, rulesOf settings given start.store ≠ .ok rules := by simp [loading]
    constructor
    case few => simp
    case unloaded =>
      intro other same
      have sameFailure : failure = other := Except.error.inj (loading.symm.trans same)
      exact ⟨by rw [sameFailure], rfl⟩
    case unread => exact fun _ => ⟨⟨failure, rfl⟩, rfl⟩
    case first => exact fun rules _ loaded => absurd loaded (broken rules)
    case second => exact fun rules _ _ loaded => absurd loaded (broken rules)
  | unread rules failure loading reading =>
    have broken : ∀ text, ¬ Reads start.store settings.paths.input text := by
      intro text read
      rw [← inputText_ok_iff, reading] at read
      cases read
    constructor
    case few => simp
    case unloaded =>
      intro other same
      rw [loading] at same
      cases same
    case unread => exact fun _ => ⟨⟨failure, rfl⟩, rfl⟩
    case first => exact fun _ text _ read => absurd read (broken text)
    case second => exact fun _ text _ _ read => absurd read (broken text)
  | unfinished rules text failure loading reading finishing =>
    exact calling_read _ loading reading (by simp) (by simp [finishing])
  | unanswered rules text document failure loading reading finishing answering =>
    exact calling_read _ loading reading (by simp) (by simp [finishing, eq_comm])
  | answered rules text latex document result after loading reading finishing answering outputs =>
    exact calling_read _ loading reading (by simp) (by simp [finishing, eq_comm])

/-- A failure that leaves the store alone has no effect on any file. -/
theorem filing_untouched (failure : Failure) (made : List Call) :
    Filing settings given start (.error failure) made start.store := by
  constructor
  case untouched => exact fun _ _ _ => rfl
  case latexKept => exact fun _ _ _ _ found => found
  case latexFound => exact fun _ _ _ _ found => .inl (Store.follow_entry _ _ _ found)
  case latexPlain => exact fun _ _ _ _ _ _ found => found
  case returned => exact fun _ returned => nomatch returned
  case inputKept => exact fun _ _ readable => readable
  case soundKept => exact fun sound => sound

/-- A failure of the outputs writes neither to the LaTeX nor to the input. -/
theorem filing_failed {failure : Failure} {made : List Call} (answered : Answered start made)
    (outputs : Outputs settings.paths conversion start.store (.error failure) after) :
    Filing settings given start (.error failure) made after := by
  obtain ⟨written, extended, places⟩ := outputs.failed
  have latexUnwritten : ∀ (store : Store) location,
      (store.find settings.paths.latexPath).location? = some location → location ∉ written := by
    intro store location ends member
    obtain ⟨other, endsOther⟩ := places location member
    exact settings.paths.outputs_apart other store endsOther ends rfl
  have latexFound : ∀ location entry,
      after.find settings.paths.latexPath = .entry location entry →
      start.store.entry? location = some entry ∨
        entry = .directory ∧
          Store.Added settings.paths.outputDirectory start.store after location := by
    intro location entry found
    have held : after.entry? location = some entry := Store.follow_entry _ _ _ found
    have ends : (after.find settings.paths.latexPath).location? = some location := by
      rw [found]
      rfl
    -- Nothing was written there, so what is new there was made as a directory.
    rcases extended.elsewhere location (latexUnwritten _ _ ends) with same | added
    · exact .inl (by rw [← same, held])
    · exact .inr ⟨Option.some.inj (held.symm.trans added.directory), added⟩
  constructor
  case untouched => exact fun _ _ unanswered => absurd answered unanswered
  case latexKept =>
    intro _ _ location entry found
    have ends : (start.store.find settings.paths.latexPath).location? = some location := by
      rw [found]
      rfl
    exact Store.find_kept extended.kept extended.sameStart ends
      (extended.entry_kept (latexUnwritten _ _ ends) (Store.follow_entry _ _ _ found))
  case latexFound => exact fun _ _ => latexFound
  case latexPlain =>
    intro _ _ sound plain location entry found
    have ends : (after.find settings.paths.latexPath).location? = some location := by
      rw [found]
      rfl
    rcases latexFound location entry found with held | ⟨-, added⟩
    · exact settings.paths.latexPath_present sound extended.sameStart plain ends held
    · obtain ⟨count, led⟩ := added.led
      refine absurd ?_ (settings.paths.latexPath_not_led after plain ends count)
      rw [led]
      rfl
  case returned => exact fun _ returned => nomatch returned
  case inputKept =>
    intro sound bytes readable
    refine extended.read_kept sound readable ?_
    intro above member
    obtain ⟨store, ends⟩ := places _ member
    exact settings.paths.preprocessedPath_ne_input store ends above rfl
  case soundKept => exact fun sound => outputs.sound sound

/-- Outputs that are written are what a build returns. -/
theorem filing_returned {rules : List Rule} {text latex : Text} {errors : Option Text}
    (made : List Call) (loading : rulesOf settings given start.store = .ok rules)
    (read : Reads start.store settings.paths.input text)
    (answer : start.replies[1]? = some (.finished 0 latex errors))
    (outputs : Outputs settings.paths ⟨Paragraph.preprocess text, latex⟩ start.store (.ok ())
      after) :
    Filing settings given start
      (.ok ⟨settings.paths.preprocessedPath, settings.paths.latexPath, rules.length⟩) made
      after := by
  obtain ⟨preprocessedPlace, latexPlace, found, foundLatex, extended⟩ := outputs.returned
  constructor
  case untouched => exact fun _ failed => nomatch failed
  case latexKept => exact fun _ failed => nomatch failed
  case latexFound => exact fun _ failed => nomatch failed
  case latexPlain => exact fun _ failed => nomatch failed
  case returned =>
    intro build returned
    exact ⟨rules, text, latex, errors, preprocessedPlace, latexPlace, loading, read, answer,
      (Except.ok.inj returned).symm, found, foundLatex, extended⟩
  case inputKept =>
    intro sound bytes readable
    refine extended.read_kept sound readable ?_
    intro above member
    have ends : (after.find settings.paths.preprocessedPath).location? =
        some preprocessedPlace := by
      rw [found]
      rfl
    have endsLatex : (after.find settings.paths.latexPath).location? = some latexPlace := by
      rw [foundLatex]
      rfl
    rcases List.mem_pair.mp member with same | same
    · exact settings.paths.preprocessedPath_ne_input after ends above same
    · exact settings.paths.latexPath_ne_input after endsLatex above same
  case soundKept => exact fun sound => outputs.sound sound

/-- The effects of every course on the files are those of a build. -/
theorem Course.filing {result : Except Failure BuildResult} {made : List Call}
    (course : Course settings given start result made after) :
    Filing settings given start result made after := by
  cases course with
  | unloaded failure loading => exact filing_untouched failure []
  | unread rules failure loading reading => exact filing_untouched failure []
  | unfinished rules text failure loading reading finishing => exact filing_untouched failure _
  | unanswered rules text document failure loading reading finishing answering =>
    exact filing_untouched failure _
  | answered rules text latex document result after loading reading finishing answering outputs =>
    have read : Reads start.store settings.paths.input text :=
      (inputText_ok_iff _ _ _).mp reading
    obtain ⟨errors, answer⟩ := (Converter.answer_next_iff _ _ _ _).mp answering
    rw [List.getElem?_drop] at answer
    cases result with
    | error failure => exact filing_failed ⟨rfl, latex, errors, answer⟩ outputs
    | ok written => exact filing_returned _ loading read answer outputs

/-- Every run of a build, whatever the files, the settings, the macro list and the replies of
the converter are, makes the calls of a build and has its effects on the files. -/
theorem convertDocument_effects (settings : Settings) (given : Option (List Rule))
    (start : Workspace) :
    ∃ result finish made, (convertDocument settings given).outcome start = (result, finish) ∧
      finish.calls = start.calls ++ made ∧
      Calling settings given start result made ∧
      Filing settings given start result made finish.store := by
  obtain ⟨result, finish, made, ended, called, course⟩ := outcome_course settings given start
  exact ⟨result, finish, made, ended, called, course.calling, course.filing⟩

/-- Settings whose output directory leads through the place of the LaTeX and back. -/
def loopSettings : Settings :=
  { Settings.standard with paths := ⟨Path.ofText "x".toList, Path.ofText "d/x.tex/..".toList⟩ }

/-- A workspace with an input, and a converter that answers both calls. -/
def loopStart : Workspace where
  store := ⟨[(["CWD".toList], .directory), (["CWD".toList, "x".toList], .file [97])],
    ["CWD".toList]⟩
  environment := []
  settings := none
  replies := [.finished 0 "{}".toList none, .finished 0 "L".toList none]
  calls := []
  log := []
  console := []
  workingDirectory := Path.ofText "/CWD".toList
  process := "manuscript".toList

theorem loopStart_sound : loopStart.store.Sound :=
  Store.sound_of_entries _ (by decide) (by decide)

/-- A failing build can leave a directory at the place of the LaTeX where nothing was. -/
theorem latexPath_can_appear :
    ¬ ∀ (settings : Settings) (given : Option (List Rule)) (start finish : Workspace)
      (failure : Failure), start.store.Sound →
      (convertDocument settings given).outcome start = (.error failure, finish) →
      finish.store.holds settings.paths.latexPath =
        start.store.holds settings.paths.latexPath := by
  intro unchanged
  have failed : ((convertDocument loopSettings (some [])).outcome loopStart).1 =
      .error (.file (.isDirectory loopSettings.paths.latexPath)) := by decide +kernel
  have appeared : ((convertDocument loopSettings (some [])).outcome loopStart).2.store.holds
      loopSettings.paths.latexPath ≠ loopStart.store.holds loopSettings.paths.latexPath := by
    decide +kernel
  exact appeared (unchanged loopSettings (some []) loopStart _ _ loopStart_sound
    (Prod.ext failed rfl))

end Build

end Manuscript
