import MatrixCalculator.Matrix.Basic

/-!
# Matrices and tables

A `Value` is what a name can be bound to: a matrix of doubles, or a table, which is a matrix with a
label for each of its columns. Arithmetic works on the numbers alone; selecting cells and summing up
columns keep the labels.
-/

set_option autoImplicit false

namespace MatrixCalculator

/-- A matrix with labelled columns. -/
structure Table where
  columns : List String
  matrix : Matrix Float
  labelled : columns.length = matrix.cols
  deriving DecidableEq

namespace Table

/-- The table with these labels and numbers. -/
def ofLabels (columns : List String) (matrix : Matrix Float) : Except MatrixError Table :=
  if labelled : columns.length = matrix.cols then
    .ok ⟨columns, matrix, labelled⟩
  else
    .error (.malformed (.labelCount columns.length matrix.cols))

/-- The table whose columns are labelled `col1`, `col2` and so on. -/
def ofMatrix (matrix : Matrix Float) : Table where
  columns := (List.range matrix.cols).map fun index ↦ s!"col{index + 1}"
  matrix := matrix
  labelled := by simp

/-- The position of the first column with a label. -/
def columnIndex? (t : Table) (label : String) : Option Nat :=
  t.columns.findIdx? (· == label)

/-- The cells in a span of rows and a span of columns, under the labels of those columns. -/
def subRange (t : Table) (rows cols : Span) : Except MatrixError Table := do
  let matrix ← t.matrix.subRange rows cols
  ofLabels ((t.columns.drop cols.start).take cols.length) matrix

end Table

/-- What a name can be bound to. -/
inductive Value where
  | matrix (m : Matrix Float)
  | table (t : Table)
  deriving DecidableEq

namespace Value

/-- The numbers, without labels. -/
def toMatrix : Value → Matrix Float
  | .matrix m => m
  | .table t => t.matrix

/-- Whether the columns are labelled. -/
def isTable : Value → Bool
  | .matrix _ => false
  | .table _ => true

/-- The word for the kind of value. -/
def typeName : Value → String
  | .matrix _ => "matrix"
  | .table _ => "table"

/-- The labels of the columns, none for a matrix. -/
def labels : Value → List String
  | .matrix _ => []
  | .table t => t.columns

/-- The number of rows and of columns. -/
def shape (v : Value) : Nat × Nat :=
  v.toMatrix.shape

/-- The only number of a value with one row and one column. -/
def scalar? (v : Value) : Option Float :=
  v.toMatrix.scalar?

/-- Values are the same when they have one kind, one shape, the same labels and equal numbers. A NaN
equals no number, and the two zeros are equal. -/
def same (v w : Value) : Bool :=
  v.isTable == w.isTable && v.labels == w.labels && v.shape == w.shape &&
    v.toMatrix.cells == w.toMatrix.cells

/-- The cells in a span of rows and a span of columns; a table keeps the labels. -/
def subRange (v : Value) (rows cols : Span) : Except MatrixError Value :=
  match v with
  | .matrix m => (m.subRange rows cols).map .matrix
  | .table t => (t.subRange rows cols).map .table

/-- One row with what `f` makes of every column, read from the top. -/
def columnSummary (f : List Float → Float) (m : Matrix Float) : Matrix Float :=
  ⟨1, m.cols, .ofCells fun _ j ↦ f (m.grid.column j), Nat.one_pos, m.cols_pos⟩

/-- One row with what `f` makes of every column. A table keeps its labels. -/
def summarizeColumns (f : List Float → Float) : Value → Value
  | .matrix m => .matrix (columnSummary f m)
  | .table t => .table ⟨t.columns, columnSummary f t.matrix, t.labelled⟩

end Value

end MatrixCalculator
