import Manuscript.Alignment
import Manuscript.Build
import Manuscript.CommandLine.Arguments
import Manuscript.CommandLine.Option
import Manuscript.CommandLine.Run
import Manuscript.CommandLine.Usage
import Manuscript.Console
import Manuscript.Converter
import Manuscript.Document.Code
import Manuscript.Document.Numbering
import Manuscript.Document.Passes
import Manuscript.Document.Walk
import Manuscript.Entries
import Manuscript.Failure
import Manuscript.Files.Path
import Manuscript.Files.Store
import Manuscript.Json.Basic
import Manuscript.Json.Parser
import Manuscript.Json.Printer
import Manuscript.Json.Shown
import Manuscript.Latex
import Manuscript.Logging
import Manuscript.Main
import Manuscript.Number
import Manuscript.Paragraph
import Manuscript.Proofs.Growth
import Manuscript.Proofs.Outcome
import Manuscript.Proofs.OutputPaths
import Manuscript.Proofs.SinglePass
import Manuscript.Proofs.SoundStore
import Manuscript.Proofs.Tree
import Manuscript.Proofs.WholeWord
import Manuscript.Rule.Basic
import Manuscript.Rule.Substitution
import Manuscript.Rule.Wrapping
import Manuscript.Settings.Basic
import Manuscript.Settings.Environment
import Manuscript.Settings.EnvironmentFile
import Manuscript.Settings.Load
import Manuscript.Table.Load
import Manuscript.Table.Record
import Manuscript.Table.Row
import Manuscript.Table.Source
import Manuscript.Text.Alphanumeric
import Manuscript.Text.Basic
import Manuscript.Text.Blank
import Manuscript.Text.Quoted
import Manuscript.Text.Utf8
import Manuscript.Validation
import Manuscript.Workspace
import Manuscript.Proofs.BuildCourse
import Manuscript.Proofs.BuildEffects
import Manuscript.Proofs.Encoding
import Manuscript.Proofs.TableRows
import Manuscript.Proofs.LineByLine
import Manuscript.Proofs.ParagraphBreaks
import Manuscript.Proofs.FinalTree
import Manuscript.Proofs.TreeParts
import Manuscript.Proofs.AsciiJson
import Manuscript.Proofs.WrittenJson
import Manuscript.Proofs.Transport
import Manuscript.Proofs.Occurrences
import Manuscript.Proofs.RuleOrder
import Manuscript.Proofs.SecondPass
import Manuscript.Proofs.MadeDirectories
import Manuscript.Proofs.GivenOptions
import Manuscript.Proofs.ExitStatus
import Manuscript.Proofs.LineCount
import Manuscript.Proofs.ReadRecords
import Manuscript.Proofs.AcceptedTable
import Manuscript.Proofs.AlignedCells
import Manuscript.Proofs.FailingRow
import Manuscript.Proofs.SourceLists
import Manuscript.Proofs.BlockRows
import Manuscript.Proofs.IndentedRows
import Manuscript.Proofs.AlignedRows
import Manuscript.Proofs.RecoveredLines
import Manuscript.Proofs.Positions
import Manuscript.Proofs.PostOrder
import Manuscript.Proofs.NumberedNodes
import Manuscript.Proofs.FinalFeed
import Manuscript.Proofs.AddedSpaces
import Manuscript.Proofs.BraceGroups
import Manuscript.Proofs.LiteralPatterns
import Manuscript.Proofs.PatternGroups
import Manuscript.Proofs.WordMatches
import Manuscript.Proofs.PatternWalk
