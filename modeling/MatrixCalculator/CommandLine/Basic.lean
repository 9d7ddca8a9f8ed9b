import MatrixCalculator.CommandLine.Log
import MatrixCalculator.CommandLine.Manual

/-!
# What the program does

`CommandLine.run` is the whole program as a function of its logger, its arguments, the text of its
input and the files that can be read. Its answer is a `Report`: how the program ends and what is
written to the two outputs.
-/

set_option autoImplicit false

namespace MatrixCalculator.CommandLine

/-- What is written to an output, a line with its end. -/
inductive Line where
  | out (text : String)
  | err (text : String)
  /-- A line of the log. It goes to the error output. -/
  | log (text : String)
  deriving DecidableEq, Repr

/-- Whether a line comes from the log. -/
def Line.isLog : Line → Bool
  | .log _ => true
  | .out _ | .err _ => false

/-- How the program ends. -/
inductive Ending where
  | success
  | failure
  /-- By a result that is too wide to be shown. -/
  | crash
  deriving DecidableEq, Repr

/-- What the program leaves behind. -/
structure Report where
  lines : List Line
  ending : Ending
  deriving DecidableEq, Repr

namespace Report

/-- The text written to the standard output. -/
def stdout (r : Report) : String :=
  String.join (r.lines.map fun line ↦ match line with | .out text => text | .err _ | .log _ => "")

/-- The text written to the error output. -/
def stderr (r : Report) : String :=
  String.join (r.lines.map fun line ↦
    match line with
    | .err text | .log text => text
    | .out _ => "")

/-- The exit code, if the program ends in its own way. -/
def code? (r : Report) : Option Nat :=
  match r.ending with
  | .success => some 0
  | .failure => some 1
  | .crash => none

/-- The lines that the program writes itself. -/
def printed (r : Report) : List Line :=
  r.lines.filter fun line ↦ !line.isLog

/-- The report with lines before its own. -/
def after (lines : List Line) (r : Report) : Report :=
  { r with lines := lines ++ r.lines }

end Report

/-- Reads a file and binds its value. -/
def loadInto (files : Files) (s : Session) (load : Load) : Except CommandLineError Session := do
  let text ← (files load.path).mapError .file
  let some document := Json.read? text | .error .noJson
  let value ← (Value.ofDocument document).mapError .data
  match s.bind load.name value with
  | (.ok _, s) => .ok s
  | (.error error, _) => .error (.store error)

/-- A session with the built-in functions and the loaded values. -/
def openSession (files : Files) (limits : Limits) (loads : List Load) :
    Except CommandLineError Session :=
  loads.foldlM (loadInto files) (.start .builtin limits)

/-- What the log shows. -/
def logLines (logger : Logger) (records : List LogRecord) : List Line :=
  (logger.lines records).map .log

/-- What the program writes about a command. -/
def commandLines (o : Options) (c : Command) : Except Display.TooWide (List Line) :=
  if o.json then
    c.toJson.map fun document ↦
      [.out ((if o.pretty then document.pretty else document.compact) ++ "\n")]
  else
    c.output.map fun output ↦
      match c.state with
      | .error => [.err s!"Error: {c.message}\n"]
      | .warning => [.err s!"Warning: {c.message}\n", .out (output ++ "\n")]
      | _ => if output.isEmpty then [] else [.out (output ++ "\n")]

/-- Evaluates commands in order: what the log shows meanwhile, and the commands unless a result is
too wide to be shown. -/
def evaluateAll (logger : Logger) (s : Session) :
    List String → List Line × Except Display.TooWide (List Command)
  | [] => ([], .ok [])
  | text :: rest =>
    let (after, command) := s.run text
    let log := logLines logger (s.records logger command)
    match command.output with
    | .error tooWide => (log, .error tooWide)
    | .ok _ =>
      let (logOfRest, commands) := evaluateAll logger after rest
      (log ++ logOfRest, commands.map (command :: ·))

/-- Evaluates commands in order and then writes about all of them; success is that none of them
fails. -/
def runEval (logger : Logger) (files : Files) (o : Options) (commands : List String) :
    Except CommandLineError Report := do
  let s ← openSession files o.limits o.loads
  let (log, evaluated) := evaluateAll logger s commands
  let written : Except Display.TooWide Report := do
    let commands ← evaluated
    let lines ← commands.mapM (commandLines o)
    return ⟨lines.flatten, if commands.all fun c ↦ c.state != .error then .success else .failure⟩
  return match written with
    | .ok report => report.after log
    | .error _ => ⟨log, .crash⟩

/-- The lines of the input that are not blank. -/
def inputLines (input : String) : List (List Char) :=
  (Text.lines input.toList).filter fun line ↦ !Text.isEmptyOrBlank line

/-- Whether a line ends the reading of commands. -/
def isStop (line : List Char) : Bool :=
  let word := String.ofList line
  word == "exit" || word == "quit"

/-- Evaluates lines one by one as they are read, trimmed, up to one that says to stop, and writes
about each command before the next line is read. Blank lines are skipped. -/
def interact (logger : Logger) (o : Options) (s : Session) : List (List Char) → Report
  | [] => ⟨[], .success⟩
  | line :: rest =>
    let text := Text.trim line
    if text.isEmpty then interact logger o s rest
    else if isStop text then ⟨[], .success⟩
    else
      let (after, command) := s.run (String.ofList text)
      let log := logLines logger (s.records logger command)
      match commandLines o command with
      | .error _ => ⟨log, .crash⟩
      | .ok lines => (interact logger o after rest).after (log ++ lines)

/-- Evaluates the lines of the input one by one. -/
def runRepl (logger : Logger) (files : Files) (o : Options) (input : String) :
    Except CommandLineError Report := do
  let s ← openSession files o.limits o.loads
  return interact logger o s (Text.lines input.toList)

/-- The page or the help text under a name. -/
def runDoc (name : String) : Except CommandLineError Report :=
  match Manual.find .builtin name with
  | .ok text => .ok ⟨[.out (String.ofList (Text.trimEnd text.toList) ++ "\n")], .success⟩
  | .error name => .error (.unknownTopic name)

/-- The values that a task loads into a session, if it opens one. -/
def loads? (o : Options) : Task → Option (List Load)
  | .eval _ | .repl => some o.loads
  | .functions | .doc (some _) => some []
  | .doc none => none

/-- Carries out a task. -/
def runTask (logger : Logger) (files : Files) (o : Options) (input : String) :
    Task → Except CommandLineError Report
  | .eval [] => runEval logger files o ((inputLines input).map String.ofList)
  | .eval commands => runEval logger files o commands
  | .repl => runRepl logger files o input
  | .functions => .ok ⟨[.out (Help.overview .builtin)], .success⟩
  | .doc none => .ok ⟨[.out Manual.contents], .success⟩
  | .doc (some name) => runDoc name

/-- The line that tells the version. -/
def versionLine : String := "mxe 0.1.0\n"

/-- The exit code for arguments that make no sense. -/
def misuseCode : Nat := 2

/-- Runs the program; none is the answer for arguments that make no sense. There is one logger for
runs that shall tell more and one for the others. -/
def run (loggers : Bool → Logger) (arguments : List String) (input : String) (files : Files) :
    Option Report :=
  match Request.ofArguments arguments with
  | .misuse => none
  | .version => some ⟨[.out versionLine], .success⟩
  | .help => some ⟨[.out Manual.contents], .success⟩
  | .run o task =>
    let logger := loggers o.verbose
    let opened := ((loads? o task).map (logger.opening files o.limits)).getD []
    let report := match runTask logger files o input task with
      | .ok report => report
      | .error error => ⟨[.err (error.message ++ "\n")], .failure⟩
    some (report.after (logLines logger opened))

end MatrixCalculator.CommandLine
