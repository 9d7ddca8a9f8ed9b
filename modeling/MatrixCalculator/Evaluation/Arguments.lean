import MatrixCalculator.Evaluation.Error
import MatrixCalculator.Help
import MatrixCalculator.Registry.Builtin

/-!
# Arguments of a call

The arguments of a call are tokens, given by position or with the name of the parameter they are
meant for. `bindArguments` finds the parameter of each, converts it to the type of that parameter,
and fills in defaults, so that a service receives one argument for every parameter.
-/

set_option autoImplicit false

namespace MatrixCalculator

namespace Token

/-- The value that a token refers to: what the store binds to its name, or else what it carries. -/
def resolve (t : Token) (store : Store) : Except EvalError Value :=
  let bound := if t.name.isEmpty then none else store.get? t.name
  match bound, t.payload with
  | some value, _ => .ok value
  | none, .matrix value => .ok value
  | none, _ => .error (.unknownVariable t.name)

/-- The number that a token stands for: its own, or the only cell of the matrix it refers to. -/
def numeric? (t : Token) (store : Store) : Option Float :=
  match t.kind, t.payload with
  | .number, .number x => some x
  | .matrixRef, _ =>
    match t.resolve store with
    | .ok value => value.scalar?
    | .error _ => none
  | _, _ => none

end Token

/-- The nearest whole number that sixty-four bits with a sign can hold. -/
def clampToWord (n : Int) : Int :=
  max (-0x8000000000000000) (min 0x7fffffffffffffff n)

/-- Converts an argument to the type of its parameter. -/
def coerce (store : Store) (t : Token) (type : ParameterType) : Except EvalError Argument :=
  let mismatch := EvalError.argumentType t.describe type
  match type with
  | .int =>
    match (t.numeric? store).bind fun x ↦ (Binary.ofFloat? x).bind Binary.toInt? with
    | some n => .ok (.int (clampToWord n))
    | none => .error mismatch
  | .float =>
    match t.numeric? store with
    | some x => .ok (.float x)
    | none => .error mismatch
  | .matrix =>
    if t.kind = .matrixRef ∧ !t.holdsMatrices then
      (t.resolve store).map .matrix
    else
      .error mismatch
  | .dynamic =>
    match t.kind, t.payload with
    | .number, .number x => .ok (.float x)
    | .string, .text s => .ok (.text s)
    | .null, _ => .ok .null
    | .matrixRef, .matrices _ => .error mismatch
    | .matrixRef, _ => (t.resolve store).map .matrix
    | _, _ => .error mismatch

namespace Call

/-- The arguments bound so far, one place for every parameter, and whether a named one was among
them. -/
structure Slots where
  filled : List (Option Argument)
  named : Bool

/-- No argument bound yet. -/
def Slots.start (d : Descriptor) : Slots :=
  ⟨d.parameters.map fun _ ↦ none, false⟩

/-- The position of the parameter that an argument is meant for. No argument by position may follow
a named one. -/
def targetIndex (d : Descriptor) (named : Bool) (t : Token) (position : Nat) :
    Except EvalError Nat :=
  match t.hint with
  | some hint =>
    match d.parameterIndex? hint with
    | some index => .ok index
    | none => .error (.unknownParameter d.name hint)
  | none => if named then .error (.positionalAfterHint d.name) else .ok position

/-- Binds one argument. -/
def bindOne (store : Store) (d : Descriptor) (slots : Slots) (argument : Token × Nat) :
    Except EvalError Slots := do
  let (t, position) := argument
  let index ← targetIndex d slots.named t position
  match d.parameters[index]?, slots.filled[index]? with
  | some p, some none =>
    let value ← coerce store t p.type
    return ⟨slots.filled.set index (some value), slots.named || t.hint.isSome⟩
  | some p, some (some _) => .error (.duplicateParameter d.name p.name)
  | _, _ => .error (.tooManyArguments d.name d.parameters.length)

/-- What a service receives for a parameter: the argument given, or else the default, or else null
if the parameter may be left out. -/
def complete (d : Descriptor) (place : Parameter × Option Argument) : Except EvalError Argument :=
  match place with
  | (_, some argument) => .ok argument
  | (p, none) =>
    match p.default? with
    | some argument => .ok argument
    | none => if p.required then .error (.missingParameter d.name p.name) else .ok .null

end Call

/-- The arguments for a service, one for every parameter. -/
def bindArguments (store : Store) (d : Descriptor) (args : List Token) :
    Except EvalError (List Argument) := do
  let slots ← args.zipIdx.foldlM (Call.bindOne store d) (.start d)
  (d.parameters.zip slots.filled).mapM (Call.complete d)

/-- The result of a service as a token, if it is of the declared type. -/
def wrapOutput (d : Descriptor) (output : ServiceOutput) : Except EvalError Token :=
  match d.returns, output with
  | .matrix, .value v => .ok (.matrix v)
  | .matrices, .values vs => .ok (.matrices vs)
  | .float, .number x => .ok (.number x)
  | .int, .number x => .ok (.number x)
  | .void, .void => .ok (.void d.name)
  | .null, .null => .ok .null
  | .void, .null => .ok .null
  | expected, _ => .error (.returnType d.name expected)

/-- Calls a function: binds the arguments, runs the handler and checks its result. Two functions act
on the session and take no arguments; the answer to one of them is the overview of all functions. -/
def callFunction (registry : Registry) (store : Store) (t : Token) (args : List Token) :
    Except EvalError Token :=
  match t.function with
  | none => .error (.unknownFunction t.name)
  | some d =>
    if d.name = Registry.cleanUpName ∨ d.name = Registry.helpName then
      if !args.isEmpty then
        .error (.tooManyArguments d.name 0)
      else if d.name = Registry.cleanUpName then
        .ok (.output Registry.cleanUpName "History cleared")
      else
        .ok (.docs Registry.helpName (Help.overview registry))
    else do
      let bound ← bindArguments store d args
      match registry.handler? d.service d.name with
      | none => .error (.unknownService d.service d.name)
      | some handler =>
        match handler bound store.limits with
        | .ok output => wrapOutput d output
        | .error error => .error (.service d.name error)

end MatrixCalculator
