import Manuscript.Build
import Manuscript.CommandLine.Arguments

/-!
# Running a command

A command runs with the settings, in which its own options replace the input and the output
directory. First the log is set up, then the command does its work. A macro table that is
none, a missing file, a converter that fails or takes too long, and a text that is not UTF-8
are told on the console, and the program exits with status 1. Any other failure is passed on
to whoever runs the program.

The log file is in the store, but its lines, which carry the time, are not. So the file stands
empty there, also one that was there before, although its lines are kept and the new ones go
behind them. Left out as well is that a log file of 10 MiB is put aside under another name and a
new one is begun.
-/

namespace Manuscript.CommandLine

/-- How a run of the program ends. -/
inductive Exit where
  | status (code : Nat)
  | escaped (failure : Failure)
deriving DecidableEq

/-- How a run ends, and what it has written to its two outputs. -/
structure Outcome where
  exit : Exit
  output : String
  errors : String
deriving DecidableEq

/-- The settings with the options of a request. -/
def Request.override (request : Request) (settings : Settings) : Settings :=
  match request with
  | .build input outputDirectory =>
    { settings with
      paths := ⟨input.getD settings.paths.input,
        outputDirectory.getD settings.paths.outputDirectory⟩ }
  | .listRules => settings

/-- The log file of the process. -/
def logFile (settings : LogSettings) (process : Text) : Path :=
  settings.directory.child ("texmacro.".toList ++ process ++ ".log".toList)

/-- Set the log up: its directory and file exist afterwards, the file without its lines, and
what was logged before is not shown. -/
def setUpLog (settings : LogSettings) : Action Unit := do
  Action.makeDirectories settings.directory
  let workspace ← get
  let file := logFile settings workspace.process
  Action.changeStore fun store => store.writeText file []
  modify fun workspace => { workspace with log := [] }
  Action.log .debug s!"Logging configured. Log file: {workspace.workingDirectory.join file}"

/-- The columns of the printed macro list. -/
def listColumns : List Column :=
  [⟨.markup ['#'], .right⟩, ⟨.markup Row.searchColumn, .left⟩,
   ⟨.markup Row.replaceColumn, .left⟩, ⟨.markup Row.modeColumn, .left⟩]

/-- The rows of the printed macro list, numbered from a number on. -/
def listRows : Nat → List Rule → List (List Caption)
  | _, [] => []
  | number, rule :: rest =>
    [.markup (Text.numeral number), .plain rule.search, .plain rule.replace,
      .markup rule.mode.name] :: listRows (number + 1) rest

/-- The printed macro list. -/
def ruleTable (rules : List Rule) : Item :=
  .table (.markup s!"Macro list ({rules.length} rules)".toList) listColumns (listRows 1 rules)

/-- The panel that reports a build. -/
def buildPanel (result : BuildResult) : Item :=
  .panel
    (.markup (s!"[bold]Macros:[/] {result.ruleCount}\n"
      ++ s!"[bold]Pre-processed:[/] {result.preprocessedPath}\n"
      ++ s!"[bold]LaTeX:[/] {result.latexPath}").toList)
    (.markup versionText.toList) "blue".toList

/-- Do the work of a request. -/
def perform (settings : Settings) : Request → Action Unit
  | .build _ _ => do
    let result ← Build.convertDocument settings none
    Action.print [buildPanel result]
  | .listRules => do
    let rules ← Table.load settings.tables.resolved
    Action.print [ruleTable rules]

/-- Tell a failure on the console, and exit with status 1; other failures are passed on. -/
def report (failure : Failure) : Action Exit := do
  match failure with
  | .table _ _ =>
    Action.print [.markup "[red]Macro table error:[/]", .plain failure.message]
    return .status 1
  | .converterFailed code _ _ errors =>
    let told := match errors with
      | some text => String.ofList text
      | none => "None"
    Action.log .error s!"Pandoc failed (exit {code}): {told}"
    Action.print [.markup s!"[red]Pandoc failed (exit {code}):[/]"]
    Action.print [.caption (.plain (errors.getD []))]
    return .status 1
  | .converterTimedOut _ timeout =>
    Action.log .error s!"Pandoc timed out after {timeout} seconds"
    Action.print [.markup s!"[red]Pandoc timed out after {timeout} seconds[/]"]
    return .status 1
  | .notUtf8 _ =>
    Action.print [.markup "[red]Not valid UTF-8:[/]", .plain failure.message]
    return .status 1
  | _ =>
    if failure.isMissing then
      Action.print [.markup "[red]Error:[/]", .plain failure.message]
      return .status 1
    else return .escaped failure

/-- Do the work of a request and report a failure of it. -/
def performOrReport (settings : Settings) (request : Request) : Action Exit := do
  try
    perform settings request
    return .status 0
  catch failure => report failure

/-- Run a request. What is logged at the level of the settings is written as errors; where
the settings or the log cannot be set up nothing is. -/
def runRequest (request : Request) : StateM Workspace Outcome := do
  let prepared ← ExceptT.run do
    let settings := request.override (← Action.settings)
    setUpLog settings.log
    return settings
  match prepared with
  | .error failure => return ⟨.escaped failure, "", ""⟩
  | .ok settings =>
    let ended ← ExceptT.run (performOrReport settings request)
    let exit := match ended with
      | .ok exit => exit
      | .error failure => .escaped failure
    return ⟨exit, "", LogLevel.shown settings.log.level (← get).log⟩

/-- Run the program with arguments. -/
def run (arguments : List Text) : StateM Workspace Outcome :=
  match read arguments with
  | .ok request => runRequest request
  | .error (.help parser) => return ⟨.status 0, parser.help, ""⟩
  | .error .version => return ⟨.status 0, versionText ++ "\n", ""⟩
  | .error (.refused parser refusal) =>
    return ⟨.status 2, "", parser.errorText refusal.message⟩

end Manuscript.CommandLine
