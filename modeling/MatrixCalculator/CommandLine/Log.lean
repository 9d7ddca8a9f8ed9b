import MatrixCalculator.CommandLine.Files
import MatrixCalculator.CommandLine.Options
import MatrixCalculator.Session

/-!
# The log

The program tells a log what it does. What of it becomes a line, and what this line looks like, is
up to a `Logger`; lines of the log go to the error output, between those that the program writes
there itself. A usual logger shows warnings, of which there is one for every command whose result is
null.
-/

set_option autoImplicit false

namespace MatrixCalculator

/-- How fine a record is. -/
inductive LogLevel where
  | warning
  | info
  | debug
  deriving DecidableEq, Repr

/-- The word for a level. -/
def LogLevel.name : LogLevel → String
  | .warning => "WARN"
  | .info => "INFO"
  | .debug => "DEBUG"

/-- Whether a record of a level is shown where records are shown up to another level. -/
def LogLevel.isShown (finest : LogLevel) : LogLevel → Bool
  | .warning => true
  | .info => finest != .warning
  | .debug => finest == .debug

/-- What the log is told. -/
structure LogRecord where
  level : LogLevel
  text : String
  deriving DecidableEq, Repr

/-- What becomes of records. The records about loading values and about the steps of an evaluation
are part of a logger too: nothing but the log depends on them. -/
structure Logger where
  /-- The line for a record, with its end, if there is one. -/
  line? : LogRecord → Option String
  /-- The records about opening a session. -/
  opening : CommandLine.Files → Limits → List CommandLine.Load → List LogRecord
  /-- The records about the steps of an evaluation. -/
  steps : Registry → Store → String → List LogRecord

namespace Logger

/-- The lines for records. -/
def lines (logger : Logger) (records : List LogRecord) : List String :=
  records.filterMap logger.line?

/-- Shows nothing. -/
def silent : Logger where
  line? _ := none
  opening _ _ _ := []
  steps _ _ _ := []

/-- Shows records up to a level, but no steps. -/
def upTo (finest : LogLevel) : Logger where
  line? r := if finest.isShown r.level then some s!"[{r.level.name}] {r.text}\n" else none
  opening _ _ _ := []
  steps _ _ _ := []

end Logger

/-- The warning about a command whose result is null. -/
def Command.warnings (c : Command) : List LogRecord :=
  if c.state = .warning then [⟨.warning, s!"'{c.expression}' evaluated to null"⟩] else []

/-- What the log is told about the outcome of a command. A result that is too wide to be shown is
the last that happens. -/
def Session.outcomeRecords (s : Session) (c : Command) : List LogRecord :=
  match c.output with
  | .error _ => []
  | .ok _ =>
    ⟨.info, s!"'{c.expression}' -> {c.state.name}: {c.message}"⟩ ::
      if c.isCleanUp then [⟨.debug, s!"clearing {s.history.length} history entries"⟩] else []

/-- What the log is told while a session evaluates a line to a command. -/
def Session.records (logger : Logger) (s : Session) (c : Command) : List LogRecord :=
  ⟨.debug, s!"evaluating '{c.expression}'"⟩ :: logger.steps s.registry s.store c.expression ++
    c.warnings ++ s.outcomeRecords c

end MatrixCalculator
