import MatrixCalculator.Evaluation.Error
import MatrixCalculator.Number.Decimal

/-!
# Arithmetic on operands

An operand is a number or a value with rows and columns. A number meets every cell of a matrix, and
so does a matrix of one cell; two matrices of one shape meet cell by cell. Two numbers are added,
subtracted, multiplied and divided as decimals where decimals can hold them, cells always as
doubles. A result is a number or a matrix without labels.
-/

set_option autoImplicit false

namespace MatrixCalculator

/-- What an operator works on. -/
inductive Operand where
  | scalar (x : Float)
  | grid (value : Value)

namespace Operand

/-- A number, or the only cell of a matrix. -/
def scalar? : Operand → Option Float
  | scalar x => some x
  | grid value => value.scalar?

/-- The operand as a matrix; a number becomes a matrix of one cell. -/
def toMatrix : Operand → Matrix Float
  | scalar x => .scalar x
  | grid value => value.toMatrix

end Operand

/-- A matrix without labels as a token. -/
def Token.plainMatrix (m : Matrix Float) : Token :=
  .matrix (.matrix m)

/-- The four operations that work cell by cell. -/
inductive Arithmetic where
  | add
  | subtract
  | multiply
  | divide
  deriving DecidableEq, Repr

namespace Arithmetic

/-- The word for the operation. -/
def name : Arithmetic → String
  | add => "addition"
  | subtract => "subtraction"
  | multiply => "multiplication"
  | divide => "division"

/-- The operation on doubles. -/
def apply : Arithmetic → Float → Float → Float
  | add, x, y => x + y
  | subtract, x, y => x - y
  | multiply, x, y => x * y
  | divide, x, y => x / y

/-- The operation on decimals. -/
def applyDecimal? : Arithmetic → Decimal → Decimal → Option Decimal
  | add, x, y => x.add? y
  | subtract, x, y => x.subtract? y
  | multiply, x, y => x.multiply? y
  | divide, x, y => x.divide? y

/-- Whether a decimal has a decimal place to spare, so that nothing was rounded off it. -/
def hasRoom (d : Decimal) : Bool :=
  d.scale < Decimal.maxScale

/-- The result in decimals, none if a number or the result is beyond them, or if a result vanishes
in decimals that does not vanish in doubles. -/
def decimalResult? (op : Arithmetic) (x y : Float) : Option Decimal := do
  let a ← Decimal.ofFloat? x
  let b ← Decimal.ofFloat? y
  if !hasRoom a || !hasRoom b then none
  let d ← op.applyDecimal? a b
  if hasRoom d && (d.mantissa != 0 || op.apply x y == 0.0) then some d else none

/-- The operation on two numbers: as decimals if they hold, as doubles otherwise. -/
def applyNumbers (op : Arithmetic) (x y : Float) : Float :=
  match op.decimalResult? x y with
  | some d => d.toFloat
  | none => op.apply x y

/-- The operation on two matrices. A matrix of one cell stands for its number if the other has
another shape. -/
def applyMatrices (op : Arithmetic) (a b : Matrix Float) : Except MatrixError (Matrix Float) :=
  if a.shape = b.shape then
    a.zipWith op.name op.apply b
  else
    match a.scalar?, b.scalar? with
    | _, some y => .ok (a.map fun x ↦ op.apply x y)
    | some x, none => .ok (b.map fun y ↦ op.apply x y)
    | none, none => a.zipWith op.name op.apply b

/-- The operation on two operands. -/
def evaluate (op : Arithmetic) : Operand → Operand → Except EvalError Token
  | .scalar x, .scalar y => .ok (.number (op.applyNumbers x y))
  | .grid v, .scalar y => .ok (.plainMatrix (v.toMatrix.map fun x ↦ op.apply x y))
  | .scalar x, .grid w => .ok (.plainMatrix (w.toMatrix.map fun y ↦ op.apply x y))
  | .grid v, .grid w =>
    match op.applyMatrices v.toMatrix w.toMatrix with
    | .ok m => .ok (.plainMatrix m)
    | .error error => .error (.matrix error)

end Arithmetic

/-! ### Remainders and powers -/

/-- The remainder of a number or of every cell. The divisor must be a number, or a matrix of one
cell if the dividend is a matrix. -/
def moduloOperands : Operand → Operand → Except EvalError Token
  | .scalar x, .scalar y => .ok (.number (remainder x y))
  | .grid v, .scalar y => .ok (.plainMatrix (v.toMatrix.map fun x ↦ remainder x y))
  | .grid v, .grid w =>
    match w.scalar? with
    | some y => .ok (.plainMatrix (v.toMatrix.map fun x ↦ remainder x y))
    | none => .error .invalidModulo
  | .scalar _, .grid _ => .error .invalidModulo

/-- A power. Of zero, the power zero is not a number, a negative power is infinite and any other is
zero. -/
def power (base exponent : Float) : Float :=
  if base == 0.0 then
    if exponent == 0.0 then 0.0 / 0.0
    else if exponent < 0.0 then 1.0 / 0.0
    else 0.0
  else
    base.pow exponent

/-- The power of a number or of every cell. -/
def powerOperands (base exponent : Operand) : Except EvalError Token :=
  match exponent.scalar? with
  | none => .error (.invalidExponent .notScalar)
  | some e =>
    match base with
    | .scalar x => .ok (.number (power x e))
    | .grid v => .ok (.plainMatrix (v.toMatrix.map fun x ↦ power x e))

/-- The largest exponent of a matrix power. -/
def maxExponent : Nat := 0xffffffff

/-- The product of as many copies of a square matrix as the exponent says. Of no copies it is the
number one, of one copy the matrix as it stands. -/
def matrixPowerOperands (base exponent : Operand) : Except EvalError Token :=
  let base := base.toMatrix
  if base.rows ≠ base.cols then
    .error (.matrix (.notSquare base.rows base.cols))
  else
    match exponent.scalar? with
    | none => .error (.invalidExponent .notScalar)
    | some e =>
      if e < 0.0 then
        .error (.invalidExponent (.negative e))
      else
        match (Binary.ofFloat? e).bind Binary.toInt? with
        | some 0 => .ok (.number 1.0)
        | some 1 => .ok (.plainMatrix base)
        | some n =>
          if n ≤ maxExponent then
            match base.power n.toNat with
            | .ok m => .ok (.plainMatrix m)
            | .error error => .error (.matrix error)
          else
            .error (.invalidExponent (.notWhole e))
        | none => .error (.invalidExponent (.notWhole e))

/-- The matrix product. -/
def matrixProductOperands (left right : Operand) : Except EvalError Token :=
  match left.toMatrix.multiply right.toMatrix with
  | .ok m => .ok (.plainMatrix m)
  | .error error => .error (.matrix error)

/-- The matrix product with the inverse of the right operand. -/
def matrixQuotientOperands (left right : Operand) : Except EvalError Token :=
  match right.toMatrix.inverse with
  | .ok inverse => matrixProductOperands left (.grid (.matrix inverse))
  | .error error => .error (.matrix error)

/-- The operand with its sign changed. -/
def negateOperand : Operand → Token
  | .scalar x => .number (-x)
  | .grid v => .plainMatrix (v.toMatrix.map fun x ↦ -x)

/-- The operand as it stands; a table keeps its labels. -/
def keepOperand : Operand → Token
  | .scalar x => .number x
  | .grid v => .matrix v

end MatrixCalculator
