import MatrixCalculator.Matrix.Elimination
import MatrixCalculator.Matrix.Error
import MatrixCalculator.Matrix.Product

/-!
# Matrices

A `Matrix` is a grid of any size that has at least one cell. Building one from rows or from a flat
list of cells can fail, and so can the operations that need a square matrix or two matrices whose
shapes fit; whatever comes out is again a grid with at least one cell.
-/

set_option autoImplicit false

namespace MatrixCalculator

/-- A grid together with its size, which is not empty. -/
structure Matrix (α : Type) where
  rows : Nat
  cols : Nat
  grid : Grid α rows cols
  rows_pos : 0 < rows
  cols_pos : 0 < cols
  deriving DecidableEq

namespace Matrix

variable {α β : Type}

/-- The number of rows and of columns. -/
def shape (m : Matrix α) : Nat × Nat :=
  (m.rows, m.cols)

/-- The rows as lists. -/
def toRows (m : Matrix α) : List (List α) :=
  m.grid.toRows

/-- The cells, row by row. -/
def cells (m : Matrix α) : List α :=
  m.toRows.flatten

/-- The cell at a position, if the position lies inside. -/
def get? (m : Matrix α) (row col : Nat) : Option α :=
  if inside : row < m.rows ∧ col < m.cols then
    some (m.grid.cell ⟨row, inside.1⟩ ⟨col, inside.2⟩)
  else
    none

/-- The only cell of a matrix with one row and one column. -/
def scalar? (m : Matrix α) : Option α :=
  if m.rows = 1 ∧ m.cols = 1 then some (m.grid.cell ⟨0, m.rows_pos⟩ ⟨0, m.cols_pos⟩) else none

/-! ### Building -/

/-- A position in a grid, counted row by row, lies below the number of cells. -/
theorem position_lt {rows cols : Nat} (i : Fin rows) (j : Fin cols) :
    i.val * cols + j.val < rows * cols := by
  have below : (i.val + 1) * cols ≤ rows * cols := Nat.mul_le_mul_right cols i.isLt
  have inRow := j.isLt
  rw [Nat.succ_mul] at below
  omega

/-- The matrix with these cells, row by row. -/
def ofCells (rows cols : Nat) (cells : Array α) : Except MatrixError (Matrix α) :=
  if positive : 0 < rows ∧ 0 < cols then
    if complete : cells.size = rows * cols then
      .ok {
        rows, cols
        grid := .ofCells fun i j ↦
          have inside : i.val * cols + j.val < cells.size := complete ▸ position_lt i j
          cells[i.val * cols + j.val]
        rows_pos := positive.1
        cols_pos := positive.2 }
    else
      .error (.malformed (.cellCount rows cols cells.size))
  else
    .error (.malformed .noCells)

/-- The matrix with these rows, which must be of one length. -/
def ofRows (rows : List (List α)) : Except MatrixError (Matrix α) :=
  let width := (rows.head?.map List.length).getD 0
  match rows.zipIdx.find? fun (row, _) ↦ row.length != width with
  | some (row, index) => .error (.malformed (.rowLength index row.length width))
  | none => ofCells rows.length width rows.flatten.toArray

/-- The matrix with one cell. -/
def scalar (x : α) : Matrix α :=
  ⟨1, 1, .filled 1 1 x, by decide, by decide⟩

/-- The matrix of a shape with the same cell everywhere. -/
def filled (rows cols : Nat) (x : α) : Except MatrixError (Matrix α) :=
  if positive : 0 < rows ∧ 0 < cols then
    .ok ⟨rows, cols, .filled rows cols x, positive.1, positive.2⟩
  else
    .error (.malformed .noCells)

/-- The identity matrix of a size. -/
def identity [Zero α] [One α] (size : Nat) : Except MatrixError (Matrix α) :=
  if positive : 0 < size then
    .ok ⟨size, size, .identity size, positive, positive⟩
  else
    .error (.malformed .noCells)

/-! ### Cell by cell -/

/-- The matrix with every cell changed by `f`. -/
def map (f : α → β) (m : Matrix α) : Matrix β :=
  { m with grid := m.grid.map f }

/-- Two matrices of one shape, combined cell by cell. -/
def zipWith (operation : String) (f : α → α → α) (left right : Matrix α) :
    Except MatrixError (Matrix α) :=
  if same : left.rows = right.rows ∧ left.cols = right.cols then
    let aligned : Grid α left.rows left.cols :=
      .ofCells fun i j ↦ right.grid.cell (i.cast same.1) (j.cast same.2)
    .ok { left with grid := left.grid.zipWith f aligned }
  else
    .error (.sizeMismatch operation left.shape right.shape)

/-- Rows become columns. -/
def transpose (m : Matrix α) : Matrix α :=
  ⟨m.cols, m.rows, m.grid.transpose, m.cols_pos, m.rows_pos⟩

/-- The cells in a span of rows and a span of columns. -/
def subRange (m : Matrix α) (rows cols : Span) : Except MatrixError (Matrix α) :=
  if inside : (rows.start < rows.stop ∧ rows.stop ≤ m.rows) ∧
      cols.start < cols.stop ∧ cols.stop ≤ m.cols then
    .ok {
      rows := rows.length
      cols := cols.length
      grid := .ofCells fun i j ↦
        m.grid.cell ⟨rows.start + i, by have := i.isLt; simp only [Span.length] at this; omega⟩
          ⟨cols.start + j, by have := j.isLt; simp only [Span.length] at this; omega⟩
      rows_pos := by simp only [Span.length]; omega
      cols_pos := by simp only [Span.length]; omega }
  else
    .error (.outOfRange rows cols m.shape)

/-! ### Products and elimination -/

/-- The product, if the left matrix has as many columns as the right one has rows. -/
def multiply [Add α] [Mul α] [Zero α] (left right : Matrix α) : Except MatrixError (Matrix α) :=
  if fits : left.cols = right.rows then
    let grid : Grid α left.rows right.rows := fits ▸ left.grid
    .ok ⟨left.rows, right.cols, grid.multiply right.grid, left.rows_pos, right.cols_pos⟩
  else
    .error (.sizeMismatch "matrix multiplication" left.shape right.shape)

/-- The grid of a square matrix. -/
def square (m : Matrix α) : Except MatrixError (Grid α m.rows m.rows) :=
  if isSquare : m.cols = m.rows then .ok (isSquare ▸ m.grid) else .error (.notSquare m.rows m.cols)

/-- A grid of the size of the matrix's rows, as a matrix. -/
def ofSquare (m : Matrix α) (grid : Grid α m.rows m.rows) : Matrix α :=
  ⟨m.rows, m.rows, grid, m.rows_pos, m.rows_pos⟩

variable [Cell α]

/-- The sum of the diagonal of a square matrix. -/
def trace (m : Matrix α) : Except MatrixError α :=
  m.square.map Grid.trace

/-- The determinant of a square matrix. -/
def determinant (m : Matrix α) : Except MatrixError α :=
  m.square.map Grid.determinant

/-- The number of pivots that elimination finds. -/
def rank (m : Matrix α) : Nat :=
  m.grid.rank

/-- The inverse of a square matrix. -/
def inverse (m : Matrix α) : Except MatrixError (Matrix α) := do
  match (← m.square).inverse? with
  | some grid => .ok (m.ofSquare grid)
  | none => .error .singular

/-- The lower and the upper triangular factor of a square matrix. -/
def factors (m : Matrix α) : Except MatrixError (Matrix α × Matrix α) := do
  match (← m.square).factors? with
  | some (lower, upper) => .ok (m.ofSquare lower, m.ofSquare upper)
  | none => .error (.malformed .zeroLeadingPivot)

/-- The product of `exponent` copies of a square matrix. -/
def power (m : Matrix α) (exponent : Nat) : Except MatrixError (Matrix α) :=
  m.square.map fun grid ↦ m.ofSquare (grid.power exponent)

end Matrix

end MatrixCalculator
