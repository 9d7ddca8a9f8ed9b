import MatrixCalculator.CommandLine.Error
import MatrixCalculator.Limits
import MatrixCalculator.Number.Reading
import MatrixCalculator.Text.Blank

/-!
# Arguments of the program

The arguments name one of the program's tasks. Options may stand before the task and behind it; one
that is given in both places has the value from behind. An option takes its value from behind an
equals sign or from the next argument, and every option but `--load` may be given once in each
place. After `--`, arguments are no options any more.
-/

set_option autoImplicit false

namespace MatrixCalculator.CommandLine

/-- A value to bind before the first command: a name and the file to read. -/
structure Load where
  name : String
  path : String
  deriving DecidableEq, Repr

/-- Reads `NAME=PATH`. -/
def Load.ofArgument (argument : String) : Except CommandLineError Load :=
  match Text.splitOnce (· == '=') argument.toList with
  | some (name, path) =>
    let name := Text.trim name
    let path := Text.trim path
    if name.isEmpty || path.isEmpty then
      .error (.malformedLoad argument)
    else
      .ok ⟨String.ofList name, String.ofList path⟩
  | none => .error (.malformedLoad argument)

/-- What the program is asked to do. -/
inductive Task where
  /-- Evaluate commands in order, or the lines of the input if there are none. -/
  | eval (commands : List String)
  /-- Evaluate the lines of the input until one says to stop. -/
  | repl
  | functions
  | doc (name : Option String)
  deriving DecidableEq, Repr

/-- The options given in one place. -/
structure Options where
  maxMatrices : Option Nat := none
  maxTables : Option Nat := none
  maxNameLength : Option Nat := none
  maxDimension : Option Nat := none
  decimals : Option Nat := none
  loads : List Load := []
  json : Bool := false
  pretty : Bool := false
  verbose : Bool := false
  deriving DecidableEq, Repr

namespace Options

/-- The options of two places, the second of which comes first. -/
def merge (before behind : Options) : Options where
  maxMatrices := behind.maxMatrices.or before.maxMatrices
  maxTables := behind.maxTables.or before.maxTables
  maxNameLength := behind.maxNameLength.or before.maxNameLength
  maxDimension := behind.maxDimension.or before.maxDimension
  decimals := behind.decimals.or before.decimals
  loads := if behind.loads.isEmpty then before.loads else behind.loads
  json := before.json || behind.json
  pretty := before.pretty || behind.pretty
  verbose := before.verbose || behind.verbose

/-- The limits, with the usual ones where no option says otherwise. -/
def limits (o : Options) : Limits :=
  let usual : Limits := {}
  { maxMatrices := o.maxMatrices.getD usual.maxMatrices
    maxTables := o.maxTables.getD usual.maxTables
    maxNameLength := o.maxNameLength.getD usual.maxNameLength
    maxDimension := o.maxDimension.getD usual.maxDimension
    decimals := o.decimals.getD usual.decimals }

/-- A count below a bound, in digits with or without a plus sign. -/
def count? (bound : Nat) (text : List Char) : Option Nat :=
  let digits := match text with
    | '+' :: rest => rest
    | _ => text
  if digits.isEmpty || !digits.all Char.isDigit then
    none
  else
    let n := Number.ofDigits digits
    if n < bound then some n else none

/-- The text of a number, without its minus sign if only zeros follow: zero has no sign. -/
def dropZeroSign : List Char → List Char
  | '-' :: '0' :: zeros => if zeros.all (· == '0') then '0' :: zeros else '-' :: '0' :: zeros
  | text => text

example : dropZeroSign ['-', '0', '0'] = ['0', '0'] := rfl

example : dropZeroSign ['-', '0', '1'] = ['-', '0', '1'] := rfl

/-- Sets an option that takes a value. It fails if there is no such option, if it is set already, or
if the value is none for it. -/
def setValue? (o : Options) (name value : List Char) : Option Options :=
  let once (slot : Option Nat) (bound : Nat) (text : List Char) : Option Nat :=
    if slot.isSome then none else count? bound text
  match String.ofList name with
  | "max-matrices" =>
    (once o.maxMatrices (1 <<< 64) value).map fun n ↦ { o with maxMatrices := some n }
  | "max-tables" => (once o.maxTables (1 <<< 64) value).map fun n ↦ { o with maxTables := some n }
  | "max-name-length" =>
    (once o.maxNameLength (1 <<< 64) value).map fun n ↦ { o with maxNameLength := some n }
  | "max-dimension" =>
    (once o.maxDimension (1 <<< 64) value).map fun n ↦ { o with maxDimension := some n }
  | "decimals" =>
    (once o.decimals (1 <<< 32) (dropZeroSign value)).map fun n ↦ { o with decimals := some n }
  | "load" =>
    match Load.ofArgument (String.ofList value) with
    | .ok load => some { o with loads := o.loads ++ [load] }
    | .error _ => none
  | _ => none

/-- Sets an option that takes no value. It fails if there is no such option or if it is set
already. -/
def setFlag? (o : Options) (name : String) : Option Options :=
  match name with
  | "json" => if o.json then none else some { o with json := true }
  | "pretty" => if o.pretty then none else some { o with pretty := true }
  | "verbose" => if o.verbose then none else some { o with verbose := true }
  | _ => none

/-- Whether an option of this name takes a value. -/
def takesValue (name : List Char) : Bool :=
  ["max-matrices", "max-tables", "max-name-length", "max-dimension", "decimals", "load"].contains
    (String.ofList name)

/-- The long name of an option of one letter. -/
def longName? : Char → Option String
  | 'p' => some "pretty"
  | 'v' => some "verbose"
  | _ => none

end Options

/-- What the arguments amount to. -/
inductive Request where
  | run (options : Options) (task : Task)
  | version
  | help
  /-- The arguments are not understood. -/
  | misuse
  deriving DecidableEq, Repr

/-- The arguments read so far. Before a task is named, `behind` stays empty. -/
structure Progress where
  before : Options := {}
  behind : Options := {}
  task : Option Task := none

namespace Progress

/-- The options of the place that is being read. -/
def current (p : Progress) : Options :=
  if p.task.isNone then p.before else p.behind

/-- Changes the options of the place that is being read. -/
def withCurrent (p : Progress) (o : Options) : Progress :=
  if p.task.isNone then { p with before := o } else { p with behind := o }

/-- Takes an argument that is no option: the task, or what the task takes. -/
def takeWord? (p : Progress) (word : String) (escaped : Bool) : Option Progress :=
  let task? : Option Task := match p.task with
    | none =>
      if escaped then none
      else match word with
        | "eval" => some (.eval [])
        | "repl" => some .repl
        | "functions" => some .functions
        | "doc" => some (.doc none)
        | _ => none
    | some (.eval commands) => some (.eval (commands ++ [word]))
    | some (.doc none) => some (.doc (some word))
    | some _ => none
  task?.map fun task ↦ { p with task := some task }

/-- Sets the options that the letters behind one hyphen stand for. The answer is a request if one of
them settles what to do. -/
def takeLetters (p : Progress) : List Char → Except Request Progress
  | [] => .ok p
  | c :: rest =>
    if c = 'h' then .error .help
    else if c = 'V' ∧ p.task.isNone then .error .version
    else
      match (Options.longName? c).bind p.current.setFlag? with
      | some o => (p.withCurrent o).takeLetters rest
      | none => .error .misuse

/-- Takes an option without its value, by its long name. -/
def takeFlag (p : Progress) (name : List Char) : Except Request Progress :=
  match String.ofList name with
  | "help" => .error .help
  | "version" => .error (if p.task.isNone then .version else .misuse)
  | name =>
    match p.current.setFlag? name with
    | some o => .ok (p.withCurrent o)
    | none => .error .misuse

/-- Takes an option and its value. -/
def takeValue (p : Progress) (name value : List Char) : Except Request Progress :=
  match p.current.setValue? name value with
  | some o => .ok (p.withCurrent o)
  | none => .error .misuse

/-- What all arguments together amount to. -/
def finish (p : Progress) : Request :=
  match p.task with
  | some task => .run (p.before.merge p.behind) task
  | none => .misuse

end Progress

/-- Whether an argument can be the value of the option before it: it is no option itself. -/
def isValue : List Char → Bool
  | '-' :: _ :: _ => false
  | _ => true

/-- Reads the arguments behind `--`. -/
def readWords (p : Progress) : List String → Request
  | [] => p.finish
  | word :: rest =>
    match p.takeWord? word true with
    | some p => readWords p rest
    | none => .misuse

/-- Reads arguments from left to right. The first one that settles what to do, or that makes no
sense, decides. -/
def readArguments (p : Progress) : List String → Request
  | [] => p.finish
  | argument :: rest =>
    match argument.toList with
    | ['-', '-'] => readWords p rest
    | '-' :: '-' :: option =>
      match Text.splitOnce (· == '=') option with
      | some (name, value) =>
        match p.takeValue name value with
        | .ok p => readArguments p rest
        | .error request => request
      | none =>
        if Options.takesValue option then
          match rest with
          | value :: rest =>
            if isValue value.toList then
              match p.takeValue option value.toList with
              | .ok p => readArguments p rest
              | .error request => request
            else
              .misuse
          | [] => .misuse
        else
          match p.takeFlag option with
          | .ok p => readArguments p rest
          | .error request => request
    | '-' :: letter :: letters =>
      match p.takeLetters (letter :: letters) with
      | .ok p => readArguments p rest
      | .error request => request
    | _ =>
      match p.takeWord? argument false with
      | some p => readArguments p rest
      | none => .misuse

/-- What the program is asked to do. -/
def Request.ofArguments (arguments : List String) : Request :=
  readArguments {} arguments

end MatrixCalculator.CommandLine
