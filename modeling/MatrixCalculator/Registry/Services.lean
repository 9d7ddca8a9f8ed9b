import MatrixCalculator.Number.Decimal
import MatrixCalculator.Registry.Basic

/-!
# The built-in services

The service `matrix` builds matrices and computes with them, the service `table` labels columns and
sums them up. Arguments arrive checked against the parameters of the function and in their order, so
a handler picks them out by position.
-/

set_option autoImplicit false

namespace MatrixCalculator.Services

/-! ### Picking arguments -/

/-- The whole number at a position. -/
def intAt (args : List Argument) (index : Nat) : Except ServiceError Int :=
  match args[index]? with
  | some (.int n) => .ok n
  | found => .error (.expected "an integer" found)

/-- The number at a position. -/
def floatAt (args : List Argument) (index : Nat) : Except ServiceError Float :=
  match args[index]? with
  | some (.float x) => .ok x
  | some (.int n) => .ok (Float.ofInt n)
  | found => .error (.expected "a number" found)

/-- The matrix or table at a position. -/
def valueAt (args : List Argument) (index : Nat) : Except ServiceError Value :=
  match args[index]? with
  | some (.matrix v) => .ok v
  | found => .error (.expected "a matrix" found)

/-- The numbers of the matrix or table at a position. -/
def matrixAt (args : List Argument) (index : Nat) : Except ServiceError (Matrix Float) :=
  (valueAt args index).map Value.toMatrix

/-- A number of rows or columns within the limits. -/
def dimension (n : Int) (what : String) (limits : Limits) : Except ServiceError Nat :=
  if n < 1 then .error (.dimensionTooSmall what n)
  else if (limits.maxDimension : Int) < n then
    .error (.dimensionTooLarge what limits.maxDimension n)
  else .ok n.toNat

/-- The index at a position. -/
def indexAt (args : List Argument) (index : Nat) (what : String) : Except ServiceError Nat := do
  let n ← intAt args index
  if n < 0 then .error (.negativeIndex what n) else .ok n.toNat

/-! ### The service `matrix` -/

/-- A matrix that was asked for, or why there is none. -/
def answer (result : Except MatrixError (Matrix Float)) : Except ServiceError ServiceOutput :=
  match result with
  | .ok m => .ok (.value (.matrix m))
  | .error error => .error (.matrix error)

/-- A number that was asked for, or why there is none. -/
def answerNumber (result : Except MatrixError Float) : Except ServiceError ServiceOutput :=
  match result with
  | .ok x => .ok (.number x)
  | .error error => .error (.matrix error)

/-- The identity matrix of a size. -/
def identity : Handler := fun args limits ↦ do
  answer (Matrix.identity (← dimension (← intAt args 0) "Size" limits))

/-- A matrix of a shape with one number in every cell. -/
def fill : Handler := fun args limits ↦ do
  let rows ← dimension (← intAt args 0) "Row count" limits
  let cols ← dimension (← intAt args 1) "Column count" limits
  answer (Matrix.filled rows cols (← floatAt args 2))

/-- Rows become columns. -/
def transpose : Handler := fun args _ ↦ do
  answer (.ok (← matrixAt args 0).transpose)

/-- The determinant. -/
def determinant : Handler := fun args _ ↦ do
  answerNumber (← matrixAt args 0).determinant

/-- The inverse. -/
def inverse : Handler := fun args _ ↦ do
  answer (← matrixAt args 0).inverse

/-- The rank. -/
def rank : Handler := fun args _ ↦ do
  answerNumber (.ok (Float.ofNat (← matrixAt args 0).rank))

/-- The sum of the diagonal. -/
def trace : Handler := fun args _ ↦ do
  answerNumber (← matrixAt args 0).trace

/-- The number of rows and the number of columns, side by side. -/
def shape : Handler := fun args _ ↦ do
  let (rows, cols) := (← valueAt args 0).shape
  answer (Matrix.ofCells 1 2 #[Float.ofNat rows, Float.ofNat cols])

/-- The cells in a range of rows and a range of columns. -/
def subMatrix : Handler := fun args _ ↦ do
  let value ← valueAt args 0
  let top ← indexAt args 1 "r1"
  let bottom ← indexAt args 2 "r2"
  let left ← indexAt args 3 "c1"
  let right ← indexAt args 4 "c2"
  match value.subRange ⟨top, bottom⟩ ⟨left, right⟩ with
  | .ok selected => .ok (.value selected)
  | .error error => .error (.matrix error)

/-- The two triangular factors. -/
def factors : Handler := fun args _ ↦ do
  match (← matrixAt args 0).factors with
  | .ok (lower, upper) => .ok (.values [.matrix lower, .matrix upper])
  | .error error => .error (.matrix error)

/-- The magnitude of every cell. -/
def absolute : Handler := fun args _ ↦ do
  answer (.ok ((← matrixAt args 0).map Float.abs))

/-- A number rounded to decimal places in base ten, a half going away from zero. A number beyond the
range of decimals has no decimal places to round off. -/
def roundNumber (places : Nat) (x : Float) : Float :=
  match Decimal.ofFloat? x with
  | some d => (d.rounded places).toFloat
  | none => x

/-- Every cell rounded. -/
def round : Handler := fun args _ ↦ do
  let places ← intAt args 1
  if places < 0 ∨ 28 < places then
    .error (.decimalsOutOfRange places)
  else
    answer (.ok ((← matrixAt args 0).map (roundNumber places.toNat)))

/-! ### The service `table` -/

/-- Labels the columns of a matrix; a table has its labels already. -/
def toTable : Handler := fun args _ ↦ do
  match ← valueAt args 0 with
  | .table t => .ok (.value (.table t))
  | .matrix m => .ok (.value (.table (.ofMatrix m)))

/-- Takes the labels off. -/
def toMatrix : Handler := fun args _ ↦ do
  answer (.ok (← matrixAt args 0))

/-- The sum of a column. -/
def columnSum (column : List Float) : Float :=
  column.foldl (· + ·) Cell.sumStart

/-- The mean of a column. -/
def columnMean (column : List Float) : Float :=
  columnSum column / Float.ofNat column.length

/-- The mean of every column. -/
def mean : Handler := fun args _ ↦ do
  return .value ((← valueAt args 0).summarizeColumns columnMean)

/-- The sum of every column. -/
def sum : Handler := fun args _ ↦ do
  return .value ((← valueAt args 0).summarizeColumns columnSum)

/-- The handlers, each under its service and its function. -/
def handlers : List ((String × String) × Handler) :=
  [(("matrix", "Identity"), identity),
    (("matrix", "Fill"), fill),
    (("matrix", "Transpose"), transpose),
    (("matrix", "Determinant"), determinant),
    (("matrix", "Inverse"), inverse),
    (("matrix", "Rank"), rank),
    (("matrix", "Trace"), trace),
    (("matrix", "Shape"), shape),
    (("matrix", "SubMatrix"), subMatrix),
    (("matrix", "LU"), factors),
    (("matrix", "Abs"), absolute),
    (("matrix", "Round"), round),
    (("table", "ToTable"), toTable),
    (("table", "ToMatrix"), toMatrix),
    (("table", "Mean"), mean),
    (("table", "Sum"), sum)]

end MatrixCalculator.Services
