import MatrixCalculator.Evaluation.Arguments
import MatrixCalculator.Evaluation.Arithmetic

/-!
# Evaluation

Tokens in postfix order are evaluated on a stack. An operator or a function takes its operands off
the stack and leaves its result; any other token is put on it. What remains at the end is the value
of the expression.

Only an assignment changes the store. An `Evaluation` is a computation that may fail and that
carries the store along; the store keeps what was assigned before a failure, and it is for the
session to take that back.
-/

set_option autoImplicit false

namespace MatrixCalculator

/-- A computation over a store that may fail. A failure leaves the store as it was at that point. -/
abbrev Evaluation (α : Type) := ExceptT EvalError (StateM Store) α

namespace Evaluation

/-- A result that is computed from the store without changing it. -/
def reading {α : Type} (f : Store → Except EvalError α) : Evaluation α := do
  ofExcept (f (← get))

/-- The result and the store that is left. -/
def runOn {α : Type} (e : Evaluation α) (store : Store) : Except EvalError α × Store :=
  StateT.run e.run store

end Evaluation

open Evaluation

/-! ### Assignment -/

/-- Binds a name in the store. -/
def bindName (name : String) (value : Value) : Evaluation Unit :=
  ExceptT.adapt .store (Store.enter name value)

/-- The value that an assignment binds: a number as a matrix of one cell, a matrix as it stands. -/
def assignedValue (store : Store) (t : Token) : Except EvalError Value :=
  match t.kind, t.payload with
  | .number, .number x => .ok (.matrix (.scalar x))
  | .matrixRef, .matrices _ => .error (.assignmentValue t.describe)
  | .matrixRef, _ => t.resolve store
  | _, .matrix value => .ok value
  | _, _ => .error (.assignmentValue t.describe)

/-- Binds the name on the left to the value on the right. The result refers to the binding. -/
def assign (left right : Token) : Evaluation Token := do
  if left.kind ≠ .matrixRef ∨ left.name.isEmpty then
    throw (.assignmentFormat left.describe)
  let value ← reading fun store ↦ assignedValue store right
  bindName left.name value
  return .boundRef left.name value

/-- Binds each name to the matrix at its place among the results. -/
def assignMany (names : List String) (result : Token) : Evaluation Token := do
  match result.payload with
  | .matrices values =>
    if values.length ≠ names.length then
      throw (.multiAssignment names.length values.length)
    (names.zip values).forM fun (name, value) ↦ bindName name value
    return .matrices values
  | _ => throw (.multiAssignment names.length 1)

/-! ### Operators -/

/-- What a token is as an operand. -/
def operand (store : Store) (symbol : String) (t : Token) : Except EvalError Operand :=
  match t.kind, t.payload with
  | .null, _ => .error (.nullOperand symbol)
  | .number, .number x => .ok (.scalar x)
  | .number, _ => .error (.nullOperand symbol)
  | .matrixRef, .matrices _ => .error (.invalidOperand symbol t.describe)
  | .matrixRef, _ => (t.resolve store).map .grid
  | _, _ => .error (.invalidOperand symbol t.describe)

/-- Marks a value as meant for the parameter with the name on the left. -/
def attachHint (left right : Token) : Except EvalError Token :=
  if left.kind = .matrixRef ∧ left.payload.isNull ∧ Name.isIdentifier left.name.toList then
    .ok { right with hint := some left.name }
  else
    .error (.invalidHint left.describe)

/-- An operator on two operands. The signs have only one. -/
def binaryResult (op : Operator) (a b : Operand) : Except EvalError Token :=
  match op with
  | .add => Arithmetic.add.evaluate a b
  | .subtract => Arithmetic.subtract.evaluate a b
  | .multiply => Arithmetic.multiply.evaluate a b
  | .divide => Arithmetic.divide.evaluate a b
  | .modulo => moduloOperands a b
  | .power => powerOperands a b
  | .matrixPower => matrixPowerOperands a b
  | .matrixMultiply => matrixProductOperands a b
  | .matrixDivide => matrixQuotientOperands a b
  | .assign | .hint | .negate | .identity => .error (.argumentCount op.symbol op.arity 2)

/-- An operator between two tokens. -/
def applyBinary (op : Operator) (left right : Token) : Evaluation Token :=
  match op with
  | .assign => assign left right
  | .hint => ofExcept (attachHint left right)
  | op => reading fun store ↦ do
    let a ← operand store op.symbol left
    let b ← operand store op.symbol right
    binaryResult op a b

/-- A sign before a token. -/
def applyUnary (op : Operator) (t : Token) : Evaluation Token :=
  match op with
  | .negate => reading fun store ↦ (operand store op.symbol t).map negateOperand
  | .identity => reading fun store ↦ (operand store op.symbol t).map keepOperand
  | op => throw (.argumentCount op.symbol op.arity 1)

/-- Applies an operator to its operands, of which the last two count. -/
def applyOperator (t : Token) (operands : List Token) : Evaluation Token :=
  match t.operator, operands.reverse with
  | none, _ => throw (.invalidOperand "?" t.describe)
  | some op, [] => throw (.argumentCount op.symbol op.arity 0)
  | some op, [x] => applyUnary op x
  | some op, right :: left :: _ => applyBinary op left right

/-! ### The stack -/

/-- Takes operands off a stack, whose top comes first; they are listed as they stand in the
expression. -/
def takeOperands (stack : List Token) (count : Nat) (what : String) :
    Except EvalError (List Token × List Token) :=
  if stack.length < count then
    .error (.argumentCount what count stack.length)
  else
    .ok ((stack.take count).reverse, stack.drop count)

/-- Evaluates one token. -/
def evaluateToken (registry : Registry) (stack : List Token) (t : Token) :
    Evaluation (List Token) :=
  match t.kind with
  | .operator => do
    let (operands, stack) ← ofExcept (takeOperands stack t.paramCount t.symbol)
    return (← applyOperator t operands) :: stack
  | .function => do
    let (args, stack) ← ofExcept (takeOperands stack t.argCount t.name)
    return (← reading fun store ↦ callFunction registry store t args) :: stack
  | _ => return t :: stack

/-- Evaluates tokens from left to right, the stack going along. -/
def evaluateTokens (registry : Registry) (stack : List Token) :
    List Token → Evaluation (List Token)
  | [] => return stack
  | t :: rest => do evaluateTokens registry (← evaluateToken registry stack t) rest

/-- A bare name with the value that the store binds to it; any other token as it stands. -/
def lookUp (store : Store) (t : Token) : Except EvalError Token :=
  if t.kind = .matrixRef ∧ t.payload.isNull then
    (t.resolve store).map (.boundRef t.name)
  else
    .ok t

/-- The value of a stack: the one token on it, looked up in the store if it is a bare name. -/
def stackResult (store : Store) : List Token → Except EvalError Token
  | [] => .error .loneOperator
  | [t] => lookUp store t
  | stack => .error (.missingOperator stack.length)

/-- Evaluates tokens in postfix order to a single token. -/
def evaluate (registry : Registry) (postfixTokens : List Token) : Evaluation Token := do
  if postfixTokens.isEmpty then
    throw .emptyExpression
  let stack ← evaluateTokens registry [] postfixTokens
  reading fun store ↦ stackResult store stack

end MatrixCalculator
