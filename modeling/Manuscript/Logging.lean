import Manuscript.Text.Basic

/-!
# The log

What the program does is told in entries of three severities. A console has a level, and
shows the entries whose severity has at least the rank of that level.
-/

namespace Manuscript

/-- How much an entry matters. -/
inductive Severity where
  | debug
  | info
  | error
deriving DecidableEq, Repr

namespace Severity

/-- The name of a severity. -/
def name : Severity → String
  | .debug => "DEBUG"
  | .info => "INFO"
  | .error => "ERROR"

/-- The rank of a severity. -/
def rank : Severity → Nat
  | .debug => 10
  | .info => 20
  | .error => 40

end Severity

/-- An entry of the log. -/
structure LogEntry where
  severity : Severity
  text : String
deriving DecidableEq, Repr

/-- The line that a console shows for an entry. -/
def LogEntry.line (entry : LogEntry) : String :=
  s!"{entry.severity.name}: {entry.text}\n"

/-- What a console shows: the entries of a level and above. Some levels have two names, and
a name that was chosen is kept. -/
inductive LogLevel where
  | critical
  | fatal
  | error
  | warn
  | warning
  | info
  | debug
  | notSet
deriving DecidableEq, Repr

namespace LogLevel

/-- All levels. -/
def all : List LogLevel := [critical, fatal, error, warn, warning, info, debug, notSet]

/-- The name of a level. -/
def name : LogLevel → Text
  | critical => "CRITICAL".toList
  | fatal => "FATAL".toList
  | error => "ERROR".toList
  | warn => "WARN".toList
  | warning => "WARNING".toList
  | info => "INFO".toList
  | debug => "DEBUG".toList
  | notSet => "NOTSET".toList

/-- The least rank of the entries that a level shows. -/
def rank : LogLevel → Nat
  | critical | fatal => 50
  | error => 40
  | warn | warning => 30
  | info => 20
  | debug => 10
  | notSet => 0

/-- A capital letter for a letter, as far as the names of levels need it: the dotless i
and the long s have the capitals I and S. -/
def capital (c : Char) : Char :=
  if c = 'ı' then 'I' else if c = 'ſ' then 'S' else c.toUpper

/-- The level of a name in letters of either case. -/
def ofName? (name : Text) : Option LogLevel :=
  all.find? fun level => level.name == name.map capital

/-- What a console at a level shows of a log. -/
def shown (level : LogLevel) (log : List LogEntry) : String :=
  String.join ((log.filter fun entry => decide (level.rank ≤ entry.severity.rank)).map
    LogEntry.line)

end LogLevel

end Manuscript
