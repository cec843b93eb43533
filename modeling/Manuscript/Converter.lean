import Manuscript.Text.Quoted

/-!
# The document converter

Reading and writing documents is done by another program. It is run with arguments, a text
on its standard input and a time limit, and what it answers is one of three replies: it
finished, it ran out of time, or it was not there to be run.

The outputs of a run that finished are texts, and a converter that is there can be run. There
is no reply for an output that is not UTF-8, nor for a file that may not be executed.
-/

namespace Manuscript

/-- A run of the converter, as it was asked for. -/
structure Call where
  command : List Text
  input : Text
  timeout : Int
deriving DecidableEq, Repr

/-- What a run of the converter gave. Its output, where it finished, is UTF-8. -/
inductive Reply where
  | finished (code : Int) (output : Text) (errors : Option Text)
  | timedOut
  | notFound
deriving DecidableEq, Repr

/-- Which converter is run, which formats it reads and writes, and how many seconds it may
take. -/
structure Converter where
  executable : Text
  reader : Text
  writer : Text
  timeout : Int
deriving DecidableEq, Repr

namespace Converter

/-- The converter that is run where nothing else is set. -/
def standard : Converter := ⟨"pandoc".toList, "markdown".toList, "latex".toList, 60⟩

/-- The arguments that read a document. -/
def readArguments (converter : Converter) : List Text :=
  ["-f".toList, converter.reader, "-t".toList, "json".toList]

/-- The arguments that write a document, without colours in its code. -/
def writeArguments (converter : Converter) : List Text :=
  ["-f".toList, "json".toList, "-t".toList, converter.writer, "--no-highlight".toList]

end Converter

end Manuscript
