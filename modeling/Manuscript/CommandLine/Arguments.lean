import Manuscript.CommandLine.Option
import Manuscript.CommandLine.Usage
import Manuscript.Files.Path

/-!
# Arguments of the command line

The first plain argument is a command, and everything behind it belongs to that command.
Options in front of it are options of the program. Arguments that nothing asks for are kept
until the end and refused together, after everything else that can be wrong. Asking for help
or for the version ends the reading at once.
-/

namespace Manuscript.CommandLine

/-- What the program is asked to do. -/
inductive Request where
  | build (input outputDirectory : Option Path)
  | listRules
deriving DecidableEq, Repr

/-- Why the arguments ask for nothing to be done. -/
inductive Refusal where
  | ambiguous (argument : Text) (names : List Text)
  | ignoredValue (flag : Flag) (value : Text)
  | missingValue (flag : Flag)
  | missingCommand
  | unknownCommand (given : Text)
  | unrecognized (arguments : List Text)
deriving DecidableEq, Repr

/-- The message of refused arguments. -/
def Refusal.message : Refusal → String
  | .ambiguous argument names =>
    s!"ambiguous option: {String.ofList argument} could match "
      ++ String.intercalate ", " (names.map String.ofList)
  | .ignoredValue flag value =>
    s!"argument {flag.name}: ignored explicit argument {String.ofList (Text.quoted value)}"
  | .missingValue flag => s!"argument {flag.name}: expected one argument"
  | .missingCommand => "the following arguments are required: command"
  | .unknownCommand given =>
    s!"argument command: invalid choice: {String.ofList (Text.quoted given)} "
      ++ "(choose from 'build', 'macros')"
  | .unrecognized arguments =>
    "unrecognized arguments: " ++ String.intercalate " " (arguments.map String.ofList)

/-- What ends the reading of arguments early: a parser has help to show, the version is
asked for, or a parser refuses the arguments. -/
inductive Stop where
  | help (parser : Parser)
  | version
  | refused (parser : Parser) (refusal : Refusal)
deriving DecidableEq, Repr

/-- The names of the options of a parser. -/
def Parser.names : Parser → Names
  | .program => [("-h".toList, .help), ("--help".toList, .help), ("--version".toList, .version)]
  | .build =>
    [("-h".toList, .help), ("--help".toList, .help), ("--input".toList, .input),
     ("--output-dir".toList, .outputDirectory)]
  | .listRules => [("-h".toList, .help), ("--help".toList, .help)]

/-- Classify arguments; behind the separator all of them are plain. -/
def classify (parser : Parser) : List Text → Except Stop (List (Text × Argument))
  | [] => .ok []
  | argument :: rest =>
    match classifyOne parser.names argument with
    | .error names => .error (.refused parser (.ambiguous argument names))
    | .ok .separator =>
      .ok ((argument, .separator) :: rest.map fun other => (other, .plain))
    | .ok kind => (classify parser rest).map ((argument, kind) :: ·)

/-- The text behind a row of one-letter options that cannot belong to the last of them. An
unknown letter ends the row. -/
def clusterTail (letters : Text) : Option Text :=
  match letters with
  | [] => none
  | '-' :: _ => some letters
  | 'h' :: '=' :: rest => some rest
  | 'h' :: rest => clusterTail rest
  | _ => none

/-- What an option without a value does, given the text attached to it. -/
def stopAt (parser : Parser) (flag : Flag) (attached : Option Attached) : Stop :=
  let answer := if flag = .version then Stop.version else .help parser
  match attached with
  | none => answer
  | some (.assigned value) => .refused parser (.ignoredValue flag value)
  | some (.appended letters) =>
    match clusterTail letters with
    | some value => .refused parser (.ignoredValue flag value)
    | none => answer

/-- Read the options of a command: their values, and the arguments that it does not know. -/
def readOptions (parser : Parser) :
    List (Text × Argument) → Except Stop (List (Flag × Text) × List Text)
  | [] => .ok ([], [])
  | (_, .option flag none) :: rest =>
    if flag.takesValue then
      match rest with
      | (value, .plain) :: others =>
        (readOptions parser others).map fun (values, extra) => ((flag, value) :: values, extra)
      | _ => .error (.refused parser (.missingValue flag))
    else .error (stopAt parser flag none)
  | (_, .option flag (some attached)) :: rest =>
    if flag.takesValue then
      (readOptions parser rest).map fun (values, extra) =>
        ((flag, attached.value) :: values, extra)
    else .error (stopAt parser flag (some attached))
  | (argument, _) :: rest =>
    (readOptions parser rest).map fun (values, extra) => (values, argument :: extra)

/-- The value that an option was given last. -/
def lastValue (flag : Flag) (values : List (Flag × Text)) : Option Path :=
  ((values.filter fun entry => entry.1 = flag).getLast?).map fun entry => Path.ofText entry.2

/-- Read a command and its arguments: the request, and the arguments that it does not know. -/
def readCommand (command : Text) (arguments : List Text) :
    Except Stop (Request × List Text) := do
  if command = "build".toList then
    let (values, extra) ← readOptions .build (← classify .build arguments)
    return (.build (lastValue .input values) (lastValue .outputDirectory values), extra)
  else if command = "macros".toList then
    let (_, extra) ← readOptions .listRules (← classify .listRules arguments)
    return (.listRules, extra)
  else .error (.refused .program (.unknownCommand command))

/-- Read the arguments of the program up to its command, and then the command. A separator in
front of the command stands for the command itself, where anything follows it. -/
def readProgram : List (Text × Argument) → Except Stop (Request × List Text)
  | [] => .error (.refused .program .missingCommand)
  | (_, .option flag attached) :: _ => .error (stopAt .program flag attached)
  | (argument, .unknown) :: rest =>
    (readProgram rest).map fun (request, extra) => (request, argument :: extra)
  | (argument, .plain) :: rest => readCommand argument (rest.map Prod.fst)
  | (argument, .separator) :: rest =>
    if rest.isEmpty then .error (.refused .program .missingCommand)
    else readCommand argument (rest.map Prod.fst)

/-- Read all arguments. -/
def read (arguments : List Text) : Except Stop Request := do
  let (request, extra) ← readProgram (← classify .program arguments)
  if extra.isEmpty then return request
  else .error (.refused .program (.unrecognized extra))

end Manuscript.CommandLine
