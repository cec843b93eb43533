import Manuscript.CommandLine.Run
import Manuscript.Proofs.BuildEffects
import Manuscript.Proofs.GivenOptions
import Manuscript.Proofs.MadeDirectories

/-!
# What the exit of the program says

A run that has its settings and its log does its command, and its exit tells how that has ended:
with status 0 if it has returned, with status 1 if it has failed in one of five ways, and
otherwise with the failure itself. The status is also true of the files. After status 0 a build
has left its two outputs. After status 1 the command has changed nothing, because the outputs
cannot fail in any of the five ways: a store refuses them in only one of these, where something
is missing, and nothing is missing on the way to a file in a directory that was just made.

The store holds the log file but not what is logged into it, which is kept apart. So the log
file counts as written by every run.
-/

namespace Manuscript

namespace Build

variable {paths : PathSettings} {conversion : Conversion} {before after : Store}

/-- Where the outputs fail, the failure is one of the store, and nothing is missing in it. -/
theorem Outputs.failed_present {failure : Failure} (sound : before.Sound)
    (outputs : Outputs paths conversion before (.error failure) after) :
    ∃ error, failure = .file error ∧ failure.isMissing = false := by
  have making := Store.makeDirectories_made sound paths.outputDirectory
  have kept := Store.makeDirectories_sound sound paths.outputDirectory
  cases outputs with
  | refused made error ended =>
    rw [ended] at making
    cases making with
    | refused _ _ present => exact ⟨error, rfl, present⟩
  | unwritten made error ended first =>
    rw [ended] at making kept
    cases making with
    | led _ location found =>
      exact ⟨error, rfl, kept.write_beyond paths.beyond_preprocessedPath found first⟩
  | halfWritten made written error ended first second =>
    rw [ended] at making kept
    cases making with
    | led _ location found =>
      obtain ⟨_, -, -, extended⟩ := Store.write_ok first
      have grown := extended paths.outputDirectory
      have held : made.entry? location = some .directory := Store.follow_entry made _ _ found
      have foundStill : after.find paths.outputDirectory = .entry location .directory :=
        Store.find_kept grown.kept grown.sameStart (by rw [found]; rfl) (grown.kept location held)
      exact ⟨error, rfl,
        (Store.write_sound kept first).write_beyond paths.beyond_latexPath foundStill second⟩

/-- A build that fails has left the store alone, unless a file was refused, and not because
something was missing. -/
theorem Course.failed {settings : Settings} {given : Option (List Rule)} {start : Workspace}
    {result : Except Failure BuildResult} {made : List Call} {failure : Failure}
    (sound : start.store.Sound) (course : Course settings given start result made after)
    (ended : result = .error failure) :
    after = start.store ∨ ∃ error, failure = .file error ∧ failure.isMissing = false := by
  cases course with
  | unloaded => exact .inl rfl
  | unread => exact .inl rfl
  | unfinished => exact .inl rfl
  | unanswered => exact .inl rfl
  | answered rules text latex document written after loading reading finishing answering outputs =>
    cases written with
    | ok done => cases ended
    | error refusal =>
      cases ended
      exact .inr (outputs.failed_present sound)

end Build

namespace CommandLine

/-- The failures that are told on the console and end a run with status 1: of a table that is
none, of something that is missing, of a converter that fails or takes too long, and of a text
that is not UTF-8. -/
inductive Told : Failure → Prop where
  | badTable (path : Path) (fault : TableFault) : Told (.table path fault)
  | missing (failure : Failure) (absent : failure.isMissing = true) : Told failure
  | converterFailed (code : Int) (command : List Text) (output : Text) (errors : Option Text) :
      Told (.converterFailed code command output errors)
  | converterTimedOut (command : List Text) (timeout : Int) :
      Told (.converterTimedOut command timeout)
  | notUtf8 (fault : Utf8.Fault) : Told (.notUtf8 fault)

/-- A refused file is not told unless something is missing. -/
theorem untold_file {error : FileError} (present : (Failure.file error).isMissing = false) :
    ¬Told (.file error) := by
  intro told
  cases told with
  | missing _ absent =>
    rw [present] at absent
    cases absent

/-- How a run exits after its command. -/
inductive Exits : Except Failure Unit → Exit → Prop where
  | returned : Exits (.ok ()) (.status 0)
  | told (failure : Failure) (told : Told failure) : Exits (.error failure) (.status 1)
  | escaped (failure : Failure) (untold : ¬Told failure) :
      Exits (.error failure) (.escaped failure)

/-- A failure is told or passed on. Telling it changes the log and the console only. -/
theorem outcome_report (failure : Failure) (start : Workspace) :
    ∃ exit log console, (report failure).outcome start =
      (.ok exit, { start with log, console }) ∧ Exits (.error failure) exit := by
  cases failure with
  | table path fault =>
    exact ⟨_, _, _, rfl, .told _ (.badTable path fault)⟩
  | converterFailed code command output errors =>
    exact ⟨_, _, _, rfl, .told _ (.converterFailed code command output errors)⟩
  | converterTimedOut command timeout =>
    exact ⟨_, _, _, rfl, .told _ (.converterTimedOut command timeout)⟩
  | notUtf8 fault => exact ⟨_, _, _, rfl, .told _ (.notUtf8 fault)⟩
  | noTable path => exact ⟨_, _, _, rfl, .told _ (.missing _ rfl)⟩
  | noDocument path => exact ⟨_, _, _, rfl, .told _ (.missing _ rfl)⟩
  | noConverter executable => exact ⟨_, _, _, rfl, .told _ (.missing _ rfl)⟩
  | file error =>
    cases error with
    | missing path => exact ⟨_, _, _, rfl, .told _ (.missing _ rfl)⟩
    | occupied path => exact ⟨_, _, _, rfl, .escaped _ (untold_file rfl)⟩
    | notDirectory path => exact ⟨_, _, _, rfl, .escaped _ (untold_file rfl)⟩
    | isDirectory path => exact ⟨_, _, _, rfl, .escaped _ (untold_file rfl)⟩
    | unnamable path => exact ⟨_, _, _, rfl, .escaped _ (untold_file rfl)⟩
  | oversizeCell => exact ⟨_, _, _, rfl, .escaped _ nofun⟩
  | json refusal => exact ⟨_, _, _, rfl, .escaped _ nofun⟩
  | node error => exact ⟨_, _, _, rfl, .escaped _ nofun⟩
  | rule error => exact ⟨_, _, _, rfl, .escaped _ nofun⟩
  | invalid issues => exact ⟨_, _, _, rfl, .escaped _ nofun⟩
  | settings error => exact ⟨_, _, _, rfl, .escaped _ nofun⟩

/-- A run exits as its command has ended. What it tells of a failure changes no file. -/
theorem outcome_performOrReport (settings : Settings) (request : Request) (start : Workspace) :
    ∃ exit finish, (performOrReport settings request).outcome start = (.ok exit, finish) ∧
      finish.store = ((perform settings request).outcome start).2.store ∧
      Exits ((perform settings request).outcome start).1 exit := by
  rw [performOrReport, Action.outcome_bind, Action.outcome_tryCatch, Action.outcome_bind]
  cases (perform settings request).outcome start with
  | mk result between =>
    cases result with
    | ok done => exact ⟨_, _, rfl, rfl, .returned⟩
    | error failure =>
      obtain ⟨exit, log, console, reported, exits⟩ := outcome_report failure between
      simp only [Action.outcome_bind, reported]
      exact ⟨exit, _, rfl, rfl, exits⟩

/-- A build command ends as its build does, and leaves the files that the build has left. -/
theorem outcome_perform_build (settings : Settings) (input outputDirectory : Option Path)
    (start : Workspace) :
    ∃ result made, ((perform settings (.build input outputDirectory)).outcome start).1 =
        result.map (fun _ => ()) ∧
      Build.Course settings none start result made
        ((perform settings (.build input outputDirectory)).outcome start).2.store := by
  obtain ⟨result, finish, made, ended, -, course⟩ := Build.outcome_course settings none start
  rw [perform, Action.outcome_bind, ended]
  cases result with
  | error failure => exact ⟨_, _, rfl, course⟩
  | ok build => exact ⟨_, _, rfl, course⟩

/-- Listing the macro list changes no file. -/
theorem outcome_perform_list (settings : Settings) (start : Workspace) :
    ((perform settings .listRules).outcome start).2.store = start.store := by
  obtain ⟨log, ended⟩ := Table.outcome_load settings.tables.resolved start
  rw [perform, Action.outcome_bind, ended]
  cases Table.rulesOfSources start.store settings.tables.resolved <;> rfl

/-- Setting the log up writes its file, makes directories along the path of its directory and
changes nothing else of the store. -/
theorem outcome_setUpLog {settings : LogSettings} {start ready : Workspace}
    (succeeded : (setUpLog settings).outcome start = (.ok (), ready)) :
    ∃ place store log, (store.find (logFile settings start.process)).location? = some place ∧
      Store.Extends settings.directory [place] start.store store ∧
      (start.store.Sound → store.Sound) ∧ ready = { start with store, log } := by
  have extended := start.store.makeDirectories_extends settings.directory
  have kept : start.store.Sound → (start.store.makeDirectories settings.directory).1.Sound :=
    fun sound => Store.makeDirectories_sound sound settings.directory
  rw [setUpLog, Action.outcome_bind, Action.outcome_makeDirectories] at succeeded
  cases making : start.store.makeDirectories settings.directory with
  | mk made refusal =>
    rw [making] at succeeded extended kept
    cases refusal with
    | some error => cases succeeded
    | none =>
      simp only [Action.outcome_bind, Action.outcome_get, Action.outcome_changeStore,
        Store.writeText] at succeeded
      cases writing : made.write (logFile settings start.process) (Utf8.encode []) with
      | error error =>
        rw [writing] at succeeded
        cases succeeded
      | ok store =>
        rw [writing] at succeeded
        simp only [Action.outcome_modify, Action.outcome_log] at succeeded
        obtain ⟨-, rfl⟩ := Prod.mk.inj succeeded
        obtain ⟨place, found, -, grown⟩ := Store.write_ok writing
        exact ⟨place, store, _, by rw [found]; rfl, extended.trans (grown settings.directory),
          fun sound => Store.write_sound (kept sound) writing, rfl⟩

/-- A run that has its settings and its log does its command and exits. -/
theorem run_ready {arguments : List Text} {request : Request} {start between ready : Workspace}
    {loaded : Settings} (asked : read arguments = .ok request)
    (loading : Action.settings.outcome start = (.ok loaded, between))
    (logging : (setUpLog (request.override loaded).log).outcome between = (.ok (), ready)) :
    ∃ ended finish, (run arguments).run start = (ended, finish) ∧
      finish.store = ((perform (request.override loaded) request).outcome ready).2.store ∧
      Exits ((perform (request.override loaded) request).outcome ready).1 ended.exit := by
  obtain ⟨exit, finish, ended, store, exits⟩ :=
    outcome_performOrReport (request.override loaded) request ready
  have prepared : Action.outcome (do
      let settings := request.override (← Action.settings)
      setUpLog settings.log
      return settings) start = (.ok (request.override loaded), ready) := by
    rw [Action.outcome_bind_ok loading, Action.outcome_bind_ok logging, Action.outcome_pure]
  unfold Action.outcome at prepared ended
  refine ⟨⟨exit, "", LogLevel.shown (request.override loaded).log.level finish.log⟩, finish, ?_,
    store, exits⟩
  rw [run, asked]
  simp only [runRequest]
  rw [StateT.run_bind, prepared]
  change StateT.run (ExceptT.run (performOrReport (request.override loaded) request) >>= _)
    ready = _
  rw [StateT.run_bind, ended]
  rfl

section

variable {result : Except Failure Unit} {exit : Exit}

/-- The status is 0 exactly after a command that has returned. -/
theorem Exits.returned_iff (exits : Exits result exit) : exit = .status 0 ↔ result = .ok () := by
  cases exits <;> simp

/-- The status is 1 exactly after a failure that is told. -/
theorem Exits.told_iff (exits : Exits result exit) :
    exit = .status 1 ↔ ∃ failure, result = .error failure ∧ Told failure := by
  cases exits with
  | returned => simp
  | told failure told => simp [told]
  | escaped failure untold => simp [untold]

/-- Exactly the other failures are passed on. -/
theorem Exits.escaped_iff (exits : Exits result exit) (failure : Failure) :
    exit = .escaped failure ↔ result = .error failure ∧ ¬Told failure := by
  cases exits with
  | returned => simp
  | told other told =>
    constructor
    · exact nofun
    · rintro ⟨same, untold⟩
      cases same
      exact absurd told untold
  | escaped other untold =>
    constructor
    · rintro ⟨⟩
      exact ⟨rfl, untold⟩
    · rintro ⟨same, -⟩
      rw [Except.error.inj same]

end

/-- A command that lists the macro list, or whose failure is told, changes no file. -/
theorem perform_untouched {settings : Settings} {request : Request} {ready : Workspace}
    (sound : ready.store.Sound)
    (quiet : (∃ failure, ((perform settings request).outcome ready).1 = .error failure ∧
      Told failure) ∨ request = .listRules) :
    ((perform settings request).outcome ready).2.store = ready.store := by
  cases request with
  | listRules => exact outcome_perform_list settings ready
  | build input outputDirectory =>
    obtain ⟨result, made, ended, course⟩ :=
      outcome_perform_build settings input outputDirectory ready
    rcases quiet with ⟨failure, failed, told⟩ | listing
    · rw [ended] at failed
      cases result with
      | ok build => cases failed
      | error refusal =>
        cases failed
        rcases course.failed sound rfl with same | ⟨error, rfl, present⟩
        · exact same
        · exact absurd told (untold_file present)
    · cases listing

/-- The input that is given on the command line. -/
def Request.input : Request → Option Path
  | .build input _ => input
  | .listRules => none

/-- The output directory that is given on the command line. -/
def Request.outputDirectory : Request → Option Path
  | .build _ outputDirectory => outputDirectory
  | .listRules => none

/-- The settings of a run are the loaded ones, but for an input and an output directory that its
arguments give. -/
structure Overridden (arguments : List Text) (request : Request) (loaded settings : Settings) :
    Prop where
  input : settings.paths.input = request.input.getD loaded.paths.input
  outputDirectory :
    settings.paths.outputDirectory = request.outputDirectory.getD loaded.paths.outputDirectory
  others : settings = { loaded with paths := settings.paths }
  /-- Of the options behind the command the last value of each counts. -/
  given : ∀ options : List Given, arguments = "build".toList :: options.flatMap Given.written →
    request.input = lastValue .input (options.map Given.entry) ∧
    request.outputDirectory = lastValue .outputDirectory (options.map Given.entry)

/-- What the exit of a run says about its command, which it does with settings in a workspace
where the log has been set up, and about the files that it leaves. -/
structure Truthful (settings : Settings) (request : Request) (start ready : Workspace)
    (exit : Exit) (finish : Workspace) : Prop where
  /-- The status is 0 exactly if the command has returned. -/
  returned : exit = .status 0 ↔ ((perform settings request).outcome ready).1 = .ok ()
  /-- It is 1 exactly if the command has failed in one of the five ways. -/
  told : exit = .status 1 ↔
    ∃ failure, ((perform settings request).outcome ready).1 = .error failure ∧ Told failure
  /-- Any other failure is passed on as it is. -/
  escaped : ∀ failure, exit = .escaped failure ↔
    ((perform settings request).outcome ready).1 = .error failure ∧ ¬Told failure
  /-- Before the command the log file has been written, and directories have been made along the
  path of the log directory. -/
  logged : ∃ place, (ready.store.find (logFile settings.log start.process)).location? = some place ∧
    Store.Extends settings.log.directory [place] start.store ready.store
  /-- After status 0 a build has written the preprocessed text of its input and what the second
  run of the converter gave, and nothing else. -/
  built : exit = .status 0 → request ≠ .listRules →
    ∃ text latex errors preprocessedPlace latexPlace,
      Build.Reads ready.store settings.paths.input text ∧
      start.replies[1]? = some (.finished 0 latex errors) ∧
      finish.store.find settings.paths.preprocessedPath =
        .entry preprocessedPlace (.file (Utf8.encode (Paragraph.preprocess text))) ∧
      finish.store.find settings.paths.latexPath =
        .entry latexPlace (.file (Utf8.encode latex)) ∧
      Store.Extends settings.paths.outputDirectory [preprocessedPlace, latexPlace] ready.store
        finish.store
  /-- After status 1, and whenever the macro list is listed, the command has changed nothing. -/
  untouched : exit = .status 1 ∨ request = .listRules → finish.store = ready.store

/-- The options of a request override the settings as its arguments say. -/
theorem overridden {arguments : List Text} {request : Request}
    (asked : read arguments = .ok request) (loaded : Settings) :
    Overridden arguments request loaded (request.override loaded) := by
  have given : ∀ options : List Given, arguments = "build".toList :: options.flatMap Given.written →
      request.input = lastValue .input (options.map Given.entry) ∧
      request.outputDirectory = lastValue .outputDirectory (options.map Given.entry) := by
    rintro options rfl
    rw [read_given options] at asked
    cases asked
    exact ⟨rfl, rfl⟩
  cases request with
  | build input outputDirectory => exact ⟨rfl, rfl, rfl, given⟩
  | listRules => exact ⟨rfl, rfl, rfl, given⟩

/-- Whatever the arguments ask for, and whatever the settings, the files and the replies of the
converter are: once the settings are loaded and the log is set up, the run exits, and its exit is
true of the command and of the files. -/
theorem run_truthful (arguments : List Text) (request : Request) (start between ready : Workspace)
    (loaded : Settings) (asked : read arguments = .ok request) (sound : start.store.Sound)
    (loading : Action.settings.outcome start = (.ok loaded, between))
    (logging : (setUpLog (request.override loaded).log).outcome between = (.ok (), ready)) :
    Overridden arguments request loaded (request.override loaded) ∧
      ∃ ended finish, (run arguments).run start = (ended, finish) ∧
        Truthful (request.override loaded) request start ready ended.exit finish := by
  obtain ⟨ended, finish, ran, store, exits⟩ := run_ready asked loading logging
  obtain rfl := Action.outcome_settings loading
  obtain ⟨place, prepared, log, found, extended, soundReady, rfl⟩ := outcome_setUpLog logging
  refine ⟨overridden asked loaded, ended, finish, ran, ?_⟩
  constructor
  case returned => exact exits.returned_iff
  case told => exact exits.told_iff
  case escaped => exact exits.escaped_iff
  case logged => exact ⟨place, found, extended⟩
  case untouched =>
    intro quiet
    rw [store]
    exact perform_untouched (soundReady sound) (quiet.imp_left exits.told_iff.mp)
  case built =>
    intro zero building
    have returned := exits.returned_iff.mp zero
    cases request with
    | listRules => exact absurd rfl building
    | build input outputDirectory =>
      obtain ⟨result, made, same, course⟩ := outcome_perform_build
        ((Request.build input outputDirectory).override loaded) input outputDirectory
        { start with store := prepared, settings := some loaded, log }
      rw [same] at returned
      cases result with
      | error failure => cases returned
      | ok build =>
        obtain ⟨rules, text, latex, errors, preprocessedPlace, latexPlace, -, reads, answered, -,
          preprocessed, written, grown⟩ := course.filing.returned build rfl
        rw [store]
        exact ⟨text, latex, errors, preprocessedPlace, latexPlace, reads, answered, preprocessed,
          written, grown⟩

/-- Arguments that give an input, in a workspace where it is, without macro tables and with a
converter that answers both calls. -/
def draftArguments : List Text := ["build".toList, "--input".toList, "x".toList]

def draftRequest : Request := .build (some (Path.ofText "x".toList)) none

def draftStart : Workspace where
  store := ⟨[(["CWD".toList], .directory), (["CWD".toList, "x".toList], .file [97])],
    ["CWD".toList]⟩
  environment := [("MACROS__SOURCES".toList, "[]".toList)]
  settings := none
  replies := [.finished 0 "\x7b\x7d".toList none, .finished 0 "L".toList none]
  calls := []
  log := []
  console := []
  workingDirectory := Path.ofText "/CWD".toList
  process := "1".toList

/-- The settings of the draft, which has no macro tables. -/
def draftSettings : Settings :=
  { Settings.standard with tables := { MacroSettings.standard with sources := [] } }

/-- The draft with its settings and its log. -/
def draftReady : Workspace :=
  ((setUpLog draftSettings.log).outcome { draftStart with settings := some draftSettings }).2

theorem draft_truthful :
    read draftArguments = .ok draftRequest ∧ draftStart.store.Sound ∧
      (Action.settings.outcome draftStart).1 = .ok draftSettings ∧
      ((run draftArguments).run draftStart).1.exit = .status 0 ∧
      ∃ ended finish, (run draftArguments).run draftStart = (ended, finish) ∧
        Truthful (draftRequest.override draftSettings) draftRequest draftStart draftReady ended.exit
          finish := by
  have asked : read draftArguments = .ok draftRequest := by decide +kernel
  have sound : draftStart.store.Sound := Store.sound_of_entries _ (by decide) (by decide)
  have loaded : (Action.settings.outcome draftStart).1 = .ok draftSettings := by decide +kernel
  have loading : Action.settings.outcome draftStart =
      (.ok draftSettings, { draftStart with settings := some draftSettings }) :=
    Prod.ext loaded (Action.outcome_settings (Prod.ext loaded rfl))
  have logged : ((setUpLog draftSettings.log).outcome
      { draftStart with settings := some draftSettings }).1 = .ok () := by decide +kernel
  obtain ⟨-, truthful⟩ := run_truthful draftArguments draftRequest draftStart _ draftReady
    draftSettings asked sound loading (Prod.ext logged rfl)
  exact ⟨asked, sound, loaded, by decide +kernel, truthful⟩

end CommandLine

end Manuscript
