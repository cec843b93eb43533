import Manuscript.Converter
import Manuscript.Logging
import Manuscript.Table.Source

/-!
# Settings

The settings say which document is converted and where its outputs go, which macro tables
are applied in which order, which converter is run, and where and how much is logged.
Each part has values of its own where nothing else is set. Settings are checked as JSON
values, field by field; fields that are not known are left out.
-/

namespace Manuscript

/-- The input document and the directory of the outputs. -/
structure PathSettings where
  input : Path
  outputDirectory : Path
deriving DecidableEq, Repr

namespace PathSettings

/-- The paths where nothing else is set. -/
def standard : PathSettings :=
  ⟨Path.ofText "paper.markdown".toList, Path.ofText "tmp/autogen".toList⟩

/-- The output that holds the preprocessed document. -/
def preprocessedPath (paths : PathSettings) : Path :=
  paths.outputDirectory.child (paths.input.name ++ ".pre".toList)

/-- The output that holds the document as LaTeX. -/
def latexPath (paths : PathSettings) : Path :=
  paths.outputDirectory.child (paths.input.name ++ ".tex".toList)

/-- Check the fields of paths. -/
def check (value : Json) : Checked PathSettings := do
  let fields ← Check.object "PathsConfig" value
  let (input, outputDirectory) ← Checked.both
    (Check.optional Check.path standard.input "input".toList fields)
    (Check.optional Check.path standard.outputDirectory "output_dir".toList fields)
  return ⟨input, outputDirectory⟩

end PathSettings

/-- The directory of the macro tables, and the tables in the order of their application. -/
structure MacroSettings where
  directory : Path
  sources : List Source
deriving DecidableEq, Repr

namespace MacroSettings

/-- The tables where nothing else is set: base rules first, then operators in two
typefaces, then rules that see the result of all others. -/
def standard : MacroSettings where
  directory := Path.ofText "macros".toList
  sources :=
    [⟨Path.ofText "pre_macros.csv".toList, none, Source.named_none⟩,
     ⟨Path.ofText "ttbf_op.csv".toList, some "ttbfop".toList, Source.named_some rfl⟩,
     ⟨Path.ofText "it_op.csv".toList, some "itop".toList, Source.named_some rfl⟩,
     ⟨Path.ofText "post_macros.csv".toList, none, Source.named_none⟩]

/-- The tables with their paths taken from the directory. -/
def resolved (settings : MacroSettings) : List Source :=
  settings.sources.map fun source => { source with path := settings.directory.join source.path }

/-- Check the sources of a list. -/
def checkSources (value : Json) : Checked (List Source) := do
  Checked.each Source.check 0 (← Check.list value)

/-- Check the fields of the macro tables. -/
def check (value : Json) : Checked MacroSettings := do
  let fields ← Check.object "MacroConfig" value
  let (directory, sources) ← Checked.both
    (Check.optional Check.path standard.directory "directory".toList fields)
    (Check.optional checkSources standard.sources "sources".toList fields)
  return ⟨directory, sources⟩

end MacroSettings

/-- Check the fields of a converter. -/
def Converter.check (value : Json) : Checked Converter := do
  let fields ← Check.object "PandocConfig" value
  let (((executable, reader), writer), timeout) ←
    Checked.both
      (Checked.both
        (Checked.both
          (Check.optional Check.text standard.executable "executable".toList fields)
          (Check.optional Check.text standard.reader "reader".toList fields))
        (Check.optional Check.text standard.writer "writer".toList fields))
      (Check.optional Check.integer standard.timeout "timeout".toList fields)
  return ⟨executable, reader, writer, timeout⟩

/-- The directory of the log file, and the least level that the console shows. -/
structure LogSettings where
  directory : Path
  level : LogLevel
deriving DecidableEq, Repr

namespace LogSettings

/-- The log where nothing else is set. -/
def standard : LogSettings := ⟨Path.ofText "logs".toList, .info⟩

/-- A level, given by its name in letters of either case. -/
def checkLevel (value : Json) : Checked LogLevel := do
  let name ← Check.text value
  match LogLevel.ofName? name with
  | some level => return level
  | none => .refuse s!"Value error, Unknown log level: {String.ofList (Text.quoted name)}"

/-- Check the fields of the log. -/
def check (value : Json) : Checked LogSettings := do
  let fields ← Check.object "LogConfig" value
  let (directory, level) ← Checked.both
    (Check.optional Check.path standard.directory "dir".toList fields)
    (Check.optional checkLevel standard.level "level".toList fields)
  return ⟨directory, level⟩

end LogSettings

/-- The settings of a run. -/
structure Settings where
  paths : PathSettings
  tables : MacroSettings
  converter : Converter
  log : LogSettings
deriving DecidableEq, Repr

namespace Settings

/-- The settings where nothing else is set. -/
def standard : Settings :=
  ⟨PathSettings.standard, MacroSettings.standard, Converter.standard, LogSettings.standard⟩

/-- Check the fields of settings. -/
def ofFields (fields : List (Text × Json)) : Checked Settings := do
  let (((paths, tables), converter), log) ←
    Checked.both
      (Checked.both
        (Checked.both
          (Check.optional PathSettings.check standard.paths "paths".toList fields)
          (Check.optional MacroSettings.check standard.tables "macros".toList fields))
        (Check.optional Converter.check standard.converter "pandoc".toList fields))
      (Check.optional LogSettings.check standard.log "log".toList fields)
  return ⟨paths, tables, converter, log⟩

end Settings

end Manuscript
