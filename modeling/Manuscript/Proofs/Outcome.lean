import Manuscript.Build
import Manuscript.Proofs.Results

/-!
# The outcome of an action

An action is read here as what it does to a workspace: it ends with a value or a failure, and
it leaves a workspace. The equations below run the steps that operations are made of, and the
two laws behind them say what loading tables and asking the converter come to. Both of these
write to the log on their way. No other rule looks at the log, so the laws only say that some
log is left.
-/

namespace Manuscript

namespace Action

variable {α β : Type}

/-- How an action ends in a workspace, and the workspace that it leaves. -/
def outcome (action : Action α) (start : Workspace) : Except Failure α × Workspace :=
  StateT.run (ExceptT.run action) start

@[simp] theorem outcome_pure (value : α) (start : Workspace) :
    outcome (pure value) start = (.ok value, start) := rfl

@[simp] theorem outcome_fail (failure : Failure) (start : Workspace) :
    outcome (fail failure : Action α) start = (.error failure, start) := rfl

@[simp] theorem outcome_get (start : Workspace) :
    outcome (get : Action Workspace) start = (.ok start, start) := rfl

@[simp] theorem outcome_log (severity : Severity) (text : String) (start : Workspace) :
    outcome (log severity text) start =
      (.ok (), { start with log := start.log ++ [⟨severity, text⟩] }) := rfl

@[simp] theorem outcome_modify (change : Workspace → Workspace) (start : Workspace) :
    outcome (modify change : Action Unit) start = (.ok (), change start) := rfl

@[simp] theorem outcome_reply (call : Call) (start : Workspace) :
    outcome (reply call) start = (.ok (start.replies.headD .notFound),
      { start with calls := start.calls ++ [call], replies := start.replies.drop 1 }) := rfl

/-- What follows a failure is not run, and what was done before it stays done. -/
theorem outcome_bind (action : Action α) (next : α → Action β) (start : Workspace) :
    outcome (action >>= next) start = match outcome action start with
      | (.ok value, between) => outcome (next value) between
      | (.error failure, between) => (.error failure, between) := by
  simp only [outcome, bind, ExceptT.bind, ExceptT.mk, ExceptT.run, StateT.run, StateT.bind,
    ExceptT.bindCont]
  generalize (action start : Except Failure α × Workspace) = ended
  obtain ⟨result, between⟩ := ended
  cases result <;> rfl

/-- Behind a value the next action runs in the workspace that was left. -/
theorem outcome_bind_ok {action : Action α} {next : α → Action β} {start between : Workspace}
    {value : α} (ended : outcome action start = (.ok value, between)) :
    outcome (action >>= next) start = outcome (next value) between := by
  rw [outcome_bind, ended]

/-- A failure is the end of all that follows. -/
theorem outcome_bind_error {action : Action α} {next : α → Action β} {start between : Workspace}
    {failure : Failure} (ended : outcome action start = (.error failure, between)) :
    outcome (action >>= next) start = (.error failure, between) := by
  rw [outcome_bind, ended]

/-- A failure that is caught is handled in the workspace that it has left. -/
theorem outcome_tryCatch (action : Action α) (handle : Failure → Action α) (start : Workspace) :
    outcome (tryCatch action handle) start = match outcome action start with
      | (.ok value, between) => (.ok value, between)
      | (.error failure, between) => outcome (handle failure) between := by
  simp only [outcome, tryCatch, tryCatchThe, MonadExceptOf.tryCatch, ExceptT.tryCatch, ExceptT.mk,
    ExceptT.run, StateT.run, bind, StateT.bind]
  generalize (action start : Except Failure α × Workspace) = ended
  obtain ⟨result, between⟩ := ended
  cases result <;> rfl

/-- Computing outside the workspace leaves it alone. -/
@[simp] theorem outcome_ofExcept {ε : Type} (failure : ε → Failure) (result : Except ε α)
    (start : Workspace) :
    outcome (ofExcept failure result) start = (result.mapError failure, start) := by
  cases result <;> rfl

/-- A store is changed as a whole or kept. -/
theorem outcome_changeStore (change : Store → Except FileError Store) (start : Workspace) :
    outcome (changeStore change) start = match change start.store with
      | .ok store => (.ok (), { start with store })
      | .error error => (.error (.file error), start) := by
  cases changed : change start.store with
  | error error => simp [changeStore, outcome_bind, changed]
  | ok store =>
    simp only [changeStore, outcome_bind, outcome_get, outcome_ofExcept, changed, mapError_ok]
    rfl

/-- Directories are made also where the making fails. -/
theorem outcome_makeDirectories (path : Path) (start : Workspace) :
    outcome (makeDirectories path) start =
      ((match (start.store.makeDirectories path).2 with
        | none => .ok ()
        | some error => .error (.file error)),
      { start with store := (start.store.makeDirectories path).1 }) := by
  cases made : start.store.makeDirectories path with
  | mk store refusal =>
    simp only [makeDirectories, outcome_bind, outcome_get, made]
    cases refusal with
    | none => rfl
    | some error => rfl

/-- Settings that are asked for are kept, and nothing else changes. -/
theorem outcome_settings {start between : Workspace} {loaded : Settings}
    (succeeded : outcome settings start = (.ok loaded, between)) :
    between = { start with settings := some loaded } := by
  unfold settings at succeeded
  rw [outcome_bind_ok (outcome_get start)] at succeeded
  cases known : start.settings with
  | some settings =>
    rw [known] at succeeded
    obtain ⟨same, rfl⟩ := Prod.mk.inj succeeded
    cases same
    rw [← known]
  | none =>
    rw [known] at succeeded
    cases loading : Settings.load [] start.store start.environment with
    | error failure => simp [outcome_bind, loading] at succeeded
    | ok settings =>
      simp only [outcome_bind, outcome_ofExcept, loading, mapError_ok] at succeeded
      cases succeeded
      rfl

end Action

namespace Table

/-- The rules of the table of a source, wrapped. -/
def rulesOfSource (store : Store) (source : Source) : Except Failure (List Rule) :=
  (rulesAt store source.path).map fun rules =>
    match source.wrap with
    | none => rules
    | some command => rules.map (Rule.wrap command)

/-- The rules of the tables of sources, those of the first table first. -/
def rulesOfSources (store : Store) : List Source → Except Failure (List Rule)
  | [] => .ok []
  | source :: rest => do
    let rules ← rulesOfSource store source
    let others ← rulesOfSources store rest
    return rules ++ others

/-- Reading a table is looking at the store. -/
theorem outcome_read (path : Path) (start : Workspace) :
    ∃ log, (read path).outcome start = (rulesAt start.store path, { start with log }) := by
  cases found : rulesAt start.store path with
  | error failure =>
    refine ⟨start.log, ?_⟩
    simp [read, Action.outcome_bind, found]
  | ok rules =>
    simp only [read, Action.outcome_bind, Action.outcome_get, Action.outcome_ofExcept, found,
      mapError_ok, Action.outcome_log, Action.outcome_pure]
    exact ⟨_, rfl⟩

/-- Reading the table of a source is looking at the store. -/
theorem outcome_readSource (source : Source) (start : Workspace) :
    ∃ log, (readSource source).outcome start =
      (rulesOfSource start.store source, { start with log }) := by
  obtain ⟨log, ended⟩ := outcome_read source.path start
  cases found : rulesAt start.store source.path with
  | error failure =>
    rw [found] at ended
    refine ⟨log, ?_⟩
    rw [readSource, Action.outcome_bind_error ended, rulesOfSource, found]
    rfl
  | ok rules =>
    rw [found] at ended
    cases wrapped : source.wrap with
    | none =>
      refine ⟨log, ?_⟩
      rw [readSource, Action.outcome_bind_ok ended, rulesOfSource, found, wrapped]
      rfl
    | some command =>
      rw [readSource, Action.outcome_bind_ok ended, rulesOfSource, found, wrapped]
      simp only [Action.outcome_bind, Action.outcome_log, Action.outcome_pure]
      exact ⟨_, rfl⟩

/-- The first table that cannot be read stops the others from being read. -/
theorem outcome_readSources (sources : List Source) (start : Workspace) :
    ∃ log, (readSources sources).outcome start =
      (rulesOfSources start.store sources, { start with log }) := by
  induction sources generalizing start with
  | nil => exact ⟨start.log, rfl⟩
  | cons source rest inductionHypothesis =>
    obtain ⟨log, ended⟩ := outcome_readSource source start
    cases found : rulesOfSource start.store source with
    | error failure =>
      rw [found] at ended
      refine ⟨log, ?_⟩
      rw [readSources, Action.outcome_bind_error ended, rulesOfSources, found]
      rfl
    | ok rules =>
      rw [found] at ended
      obtain ⟨restLog, restEnded⟩ := inductionHypothesis { start with log }
      refine ⟨restLog, ?_⟩
      rw [readSources, Action.outcome_bind_ok ended, rulesOfSources, found, Action.outcome_bind,
        restEnded]
      cases rulesOfSources start.store rest <;> rfl

/-- Loading the macro list is looking at the store. -/
theorem outcome_load (sources : List Source) (start : Workspace) :
    ∃ log, (load sources).outcome start =
      (rulesOfSources start.store sources, { start with log }) := by
  obtain ⟨log, ended⟩ := outcome_readSources sources start
  cases found : rulesOfSources start.store sources with
  | error failure =>
    rw [found] at ended
    exact ⟨log, by rw [load, Action.outcome_bind_error ended]⟩
  | ok rules =>
    rw [found] at ended
    rw [load, Action.outcome_bind_ok ended]
    simp only [Action.outcome_bind, Action.outcome_log, Action.outcome_pure]
    exact ⟨_, rfl⟩

end Table

namespace Converter

/-- What a reply comes to: only a run that exits with zero gives a text. -/
def answer (converter : Converter) (command : List Text) : Reply → Except Failure Text
  | .finished code output errors =>
    if code = 0 then .ok output else .error (.converterFailed code command output errors)
  | .timedOut => .error (.converterTimedOut command converter.timeout)
  | .notFound => .error (.noConverter converter.executable)

theorem answer_ok_iff (converter : Converter) (command : List Text) (reply : Reply)
    (text : Text) :
    converter.answer command reply = .ok text ↔ ∃ errors, reply = .finished 0 text errors := by
  cases reply with
  | finished code output errors =>
    by_cases zero : code = 0
    · simp [answer, zero]
    · simp [answer, zero]
  | timedOut => simp [answer]
  | notFound => simp [answer]

/-- The next reply gives a text where it is one of a run that exited with zero. -/
theorem answer_next_iff (converter : Converter) (command : List Text) (replies : List Reply)
    (text : Text) :
    converter.answer command (replies.headD .notFound) = .ok text ↔
      ∃ errors, replies[0]? = some (.finished 0 text errors) := by
  rw [answer_ok_iff]
  cases replies with
  | nil => simp
  | cons reply rest => simp

/-- A run of the converter is one call, and takes one reply. -/
theorem outcome_run (converter : Converter) (arguments : List Text) (input : Text)
    (start : Workspace) :
    ∃ log, (converter.run arguments input).outcome start =
      (converter.answer (converter.executable :: arguments) (start.replies.headD .notFound),
        { start with
          calls := start.calls ++ [⟨converter.executable :: arguments, input, converter.timeout⟩]
          replies := start.replies.drop 1
          log }) := by
  rw [run, Action.outcome_bind_ok (Action.outcome_log _ _ _),
    Action.outcome_bind_ok (Action.outcome_reply _ _)]
  cases start.replies.headD .notFound with
  | finished code output errors =>
    by_cases zero : code = 0
    · simp only [answer, zero, if_true, Action.outcome_pure]
      exact ⟨_, rfl⟩
    · simp only [answer, zero, if_false, Action.outcome_fail]
      exact ⟨_, rfl⟩
  | timedOut => exact ⟨_, rfl⟩
  | notFound => exact ⟨_, rfl⟩

end Converter

end Manuscript
