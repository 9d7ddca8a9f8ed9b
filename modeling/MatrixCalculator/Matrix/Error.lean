/-!
# What can go wrong with a matrix
-/

set_option autoImplicit false

namespace MatrixCalculator

/-- The indices from `start` up to, and without, `stop`. -/
structure Span where
  start : Nat
  stop : Nat
  deriving DecidableEq, Repr

namespace Span

/-- The number of indices in the span. -/
def length (s : Span) : Nat :=
  s.stop - s.start

end Span

/-- Why data do not make up a matrix or a table. -/
inductive Malformation where
  | noCells
  | cellCount (rows cols found : Nat)
  | rowLength (row found expected : Nat)
  | labelCount (labels columns : Nat)
  /-- A triangular factorization meets a zero on the diagonal. -/
  | zeroLeadingPivot
  deriving DecidableEq, Repr

/-- Why an operation on matrices has no answer. -/
inductive MatrixError where
  /-- The shapes do not fit together for the named operation. -/
  | sizeMismatch (operation : String) (left right : Nat × Nat)
  | notSquare (rows cols : Nat)
  | singular
  | malformed (reason : Malformation)
  | outOfRange (rows cols : Span) (shape : Nat × Nat)
  deriving DecidableEq, Repr

/-- The message for data that make up no matrix. Rows are counted from one. -/
def Malformation.message : Malformation → String
  | .noCells => "matrix can't be empty"
  | .cellCount rows cols found =>
    s!"expected {rows * cols} values for a {rows}x{cols} matrix, got {found}"
  | .rowLength row found expected => s!"row {row + 1} has {found} values, expected {expected}"
  | .labelCount labels columns => s!"{labels} column names for {columns} columns"
  | .zeroLeadingPivot => "LU decomposition needs non-zero leading pivots"

/-- The message for an operation without an answer. -/
def MatrixError.message : MatrixError → String
  | .sizeMismatch operation (leftRows, leftCols) (rightRows, rightCols) =>
    s!"Matrix sizes don't match for {operation}: {leftRows}x{leftCols} and {rightRows}x{rightCols}"
  | .notSquare rows cols => s!"Matrix must be square, got {rows}x{cols}"
  | .singular => "Matrix is singular and has no inverse"
  | .malformed reason => "Malformed matrix: " ++ reason.message
  | .outOfRange rows cols (height, width) =>
    s!"Range out of bounds: rows {rows.start}..{rows.stop} and columns " ++
      s!"{cols.start}..{cols.stop} of a {height}x{width} matrix"

end MatrixCalculator
