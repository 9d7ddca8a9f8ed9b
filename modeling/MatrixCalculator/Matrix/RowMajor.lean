import MatrixCalculator.Matrix.Basic

/-!
# Matrices as one list of cells

In memory a matrix is two numbers and one list of cells, row by row: the cell in row `i` and column
`j` is at the position `i * cols + j`. Nothing in the type says that there are as many cells as the
numbers tell. The kernels work on such a list in place, with loops over rows and columns, and work
out the position of every cell that they touch; an access outside of the list ends the computation
with `Fault.outOfBounds`.

The matrices of `Matrix` cannot be malformed and their cells cannot be missed, so that the kernels
there have no such failure. That both compute the same is shown in `Proofs.FlatKernels` and
`Proofs.FlatElimination`.
-/

set_option autoImplicit false

namespace MatrixCalculator

/-- A number of rows, a number of columns, and cells. -/
structure RowMajor (α : Type) where
  rows : Nat
  cols : Nat
  cells : List α

/-- Why a computation on a list of cells stops. -/
inductive Fault where
  /-- There is nothing at the position. -/
  | outOfBounds (position size : Nat)
  | refused (error : MatrixError)

namespace RowMajor

variable {α β σ : Type}

/-! ### Access -/

/-- What is at a position. -/
def read (items : List α) (position : Nat) : Except Fault α :=
  match items[position]? with
  | some x => .ok x
  | none => .error (.outOfBounds position items.length)

/-- The list with something else at a position. -/
def write (items : List α) (position : Nat) (x : α) : Except Fault (List α) :=
  if position < items.length then .ok (items.set position x)
  else .error (.outOfBounds position items.length)

/-- The list with what is at two positions exchanged. -/
def swap (items : List α) (p q : Nat) : Except Fault (List α) := do
  let x ← read items p
  let y ← read items q
  write (← write items p y) q x

/-- What is at the positions of a span. -/
def slice (items : List α) (span : Span) : Except Fault (List α) :=
  if span.start ≤ span.stop ∧ span.stop ≤ items.length then
    .ok ((items.drop span.start).take span.length)
  else
    .error (.outOfBounds span.stop items.length)

/-- Does a step for every number from `start` up to, and without, `stop`. -/
def loop (start stop : Nat) (state : σ) (step : σ → Nat → Except Fault σ) : Except Fault σ :=
  (List.range' start (stop - start)).foldlM step state

/-- Lists what `value` gives for the rows and columns of two spans, row by row. -/
def collect (rows cols : Span) (value : Nat → Nat → Except Fault α) : Except Fault (List α) :=
  loop rows.start rows.stop [] fun items i ↦
    loop cols.start cols.stop items fun items j ↦ do return items ++ [← value i j]

/-! ### Building -/

/-- The matrix with these cells. -/
def new (rows cols : Nat) (cells : List α) : Except Fault (RowMajor α) :=
  if rows = 0 ∨ cols = 0 then
    .error (.refused (.malformed .noCells))
  else if cells.length ≠ rows * cols then
    .error (.refused (.malformed (.cellCount rows cols cells.length)))
  else
    .ok ⟨rows, cols, cells⟩

/-- The matrix with these rows, which must be of one length. -/
def ofRows (rows : List (List α)) : Except Fault (RowMajor α) :=
  let width := (rows.head?.map List.length).getD 0
  match rows.zipIdx.find? fun (row, _) ↦ row.length != width with
  | some (row, index) => .error (.refused (.malformed (.rowLength index row.length width)))
  | none => new rows.length width rows.flatten

/-- The matrix with one cell. -/
def scalar (x : α) : RowMajor α :=
  ⟨1, 1, [x]⟩

/-- The matrix of a shape with the same cell everywhere. -/
def filled (rows cols : Nat) (x : α) : Except Fault (RowMajor α) :=
  new rows cols (List.replicate (rows * cols) x)

/-- The identity matrix of a size: ones are written over zeros. -/
def identity [Zero α] [One α] (size : Nat) : Except Fault (RowMajor α) := do
  let m ← filled size size 0
  let cells ← loop 0 size m.cells fun cells i ↦ write cells (i * size + i) 1
  return { m with cells }

/-! ### Cell by cell -/

/-- The number of rows and of columns. -/
def shape (m : RowMajor α) : Nat × Nat :=
  (m.rows, m.cols)

/-- The cells of a row. -/
def row (m : RowMajor α) (i : Nat) : Except Fault (List α) :=
  slice m.cells ⟨i * m.cols, (i + 1) * m.cols⟩

/-- The matrix with every cell changed by `f`. -/
def map (f : α → β) (m : RowMajor α) : RowMajor β :=
  ⟨m.rows, m.cols, m.cells.map f⟩

/-- Two matrices of one shape, combined cell by cell. -/
def zipWith (operation : String) (f : α → α → α) (left right : RowMajor α) :
    Except Fault (RowMajor α) :=
  if left.shape = right.shape then
    .ok ⟨left.rows, left.cols, left.cells.zipWith f right.cells⟩
  else
    .error (.refused (.sizeMismatch operation left.shape right.shape))

/-- Rows become columns. -/
def transpose (m : RowMajor α) : Except Fault (RowMajor α) := do
  let cells ← collect ⟨0, m.cols⟩ ⟨0, m.rows⟩ fun j i ↦ read m.cells (i * m.cols + j)
  return ⟨m.cols, m.rows, cells⟩

/-- The cells in a span of rows and a span of columns. -/
def subRange (m : RowMajor α) (rows cols : Span) : Except Fault (RowMajor α) :=
  if rows.stop ≤ rows.start ∨ m.rows < rows.stop ∨ cols.stop ≤ cols.start ∨ m.cols < cols.stop then
    .error (.refused (.outOfRange rows cols m.shape))
  else do
    let cells ← collect rows cols fun i j ↦ read m.cells (i * m.cols + j)
    new rows.length cols.length cells

/-- One row with what `f` makes of every column, which are the rows of the transpose. -/
def columnSummary (f : List α → α) (m : RowMajor α) : Except Fault (RowMajor α) := do
  let columns ← m.transpose
  let summaries ← (List.range columns.rows).mapM fun j ↦ return f (← columns.row j)
  new 1 summaries.length summaries

/-! ### Products -/

/-- The product: every cell of the left factor meets a row of the right one. -/
def multiply [Add α] [Mul α] [Zero α] (left right : RowMajor α) : Except Fault (RowMajor α) :=
  if left.cols ≠ right.rows then
    .error (.refused (.sizeMismatch "matrix multiplication" left.shape right.shape))
  else do
    let zeros := List.replicate (left.rows * right.cols) 0
    let cells ← loop 0 left.rows zeros fun cells i ↦
      loop 0 left.cols cells fun cells k ↦ do
        let x ← read left.cells (i * left.cols + k)
        loop 0 right.cols cells fun cells j ↦ do
          let total ← read cells (i * right.cols + j)
          let y ← read right.cells (k * right.cols + j)
          write cells (i * right.cols + j) (total + x * y)
    new left.rows right.cols cells

/-- Whether the matrix is square. -/
def requireSquare (m : RowMajor α) : Except Fault Unit :=
  if m.rows = m.cols then .ok () else .error (.refused (.notSquare m.rows m.cols))

/-- Multiplies `result` by the powers of `base` that the binary digits of `exponent` call for, the
last digit first. -/
def powerFrom [Add α] [Mul α] [Zero α] (exponent : Nat) (base result : RowMajor α) :
    Except Fault (RowMajor α) :=
  if exponent = 0 then
    .ok result
  else do
    let result ← if exponent % 2 = 1 then result.multiply base else .ok result
    let base ← if exponent / 2 = 0 then .ok base else base.multiply base
    powerFrom (exponent / 2) base result
termination_by exponent

/-- The product of `exponent` copies of a square matrix. -/
def power [Add α] [Mul α] [Zero α] [One α] (m : RowMajor α) (exponent : Nat) :
    Except Fault (RowMajor α) := do
  m.requireSquare
  powerFrom exponent m (← identity m.rows)

variable [Cell α]

/-- The sum of `term 0`, `term 1`, … below a bound. -/
def sumOf (bound : Nat) (term : Nat → Except Fault α) : Except Fault α :=
  loop 0 bound Cell.sumStart fun total j ↦ do return total + (← term j)

/-- The sum of the diagonal of a square matrix. -/
def trace (m : RowMajor α) : Except Fault α := do
  m.requireSquare
  sumOf m.rows fun i ↦ read m.cells (i * m.cols + i)

/-! ### Steps of elimination -/

/-- The row at or below `top` whose cell in the column has the largest magnitude, the lowest one of
several. -/
def pivotRow (cells : List α) (rows cols top col : Nat) : Except Fault Nat :=
  loop (top + 1) rows top fun best i ↦ do
    let x ← read cells (best * cols + col)
    let y ← read cells (i * cols + col)
    return if Cell.magnitudeLE x y then i else best

/-- The pivot row, unless the largest magnitude of the column is negligible. -/
def pivotRow? (cells : List α) (rows cols top col : Nat) : Except Fault (Option Nat) := do
  let pivot ← pivotRow cells rows cols top col
  return if Cell.negligible (← read cells (pivot * cols + col)) then none else some pivot

omit [Cell α] in
/-- Exchanges two rows. -/
def swapRows (cells : List α) (cols a b : Nat) : Except Fault (List α) :=
  if a = b then
    .ok cells
  else
    loop 0 cols cells fun cells k ↦ swap cells (a * cols + k) (b * cols + k)

/-- Subtracts from a cell the multiple of another cell. -/
def subtractAt (cells : List α) (target source : Nat) (factor : α) : Except Fault (List α) := do
  let x ← read cells target
  let y ← read cells source
  write cells target (x - factor * y)

/-- Subtracts from a row the multiple of another row, from a column on. -/
def subtractRow (cells : List α) (cols start target source : Nat) (factor : α) :
    Except Fault (List α) :=
  loop start cols cells fun cells k ↦
    subtractAt cells (target * cols + k) (source * cols + k) factor

/-- Divides a cell. -/
def divideAt (cells : List α) (position : Nat) (divisor : α) : Except Fault (List α) := do
  let x ← read cells position
  write cells position (x / divisor)

/-! ### Determinant, rank and inverse -/

/-- Clears the remaining columns and multiplies their pivots into `det`. -/
def determinantFrom (n : Nat) : (remaining : Nat) → List α → α → Except Fault α
  | 0, _, det => .ok det
  | remaining + 1, cells, det => do
    let col := n - (remaining + 1)
    match ← pivotRow? cells n n col col with
    | none => return 0
    | some pivot =>
      let cells ← swapRows cells n pivot col
      let det := if pivot = col then det else -det
      let p ← read cells (col * n + col)
      let cells ← loop (col + 1) n cells fun cells row ↦ do
        let x ← read cells (row * n + col)
        subtractRow cells n col row col (x / p)
      determinantFrom n remaining cells (det * p)

/-- The determinant of a square matrix. -/
def determinant (m : RowMajor α) : Except Fault α := do
  m.requireSquare
  determinantFrom m.rows m.rows m.cells 1

/-- Clears the remaining columns below the row `top`, which moves down past every pivot found. -/
def rankFrom (rows cols : Nat) : (remaining : Nat) → List α → Nat → Except Fault Nat
  | 0, _, top => .ok top
  | remaining + 1, cells, top =>
    if top = rows then
      .ok top
    else do
      let col := cols - (remaining + 1)
      match ← pivotRow? cells rows cols top col with
      | none => rankFrom rows cols remaining cells top
      | some pivot =>
        let cells ← swapRows cells cols pivot top
        let cells ← loop (top + 1) rows cells fun cells row ↦ do
          let x ← read cells (row * cols + col)
          let p ← read cells (top * cols + col)
          subtractRow cells cols col row top (x / p)
        rankFrom rows cols remaining cells (top + 1)

/-- The number of pivots. -/
def rank (m : RowMajor α) : Except Fault Nat :=
  rankFrom m.rows m.cols m.cols m.cells 0

/-- Turns the remaining columns of the left cells into those of the identity, and does to the right
cells what it does to the left. -/
def inverseFrom (n : Nat) : (remaining : Nat) → List α → List α → Except Fault (List α)
  | 0, _, right => .ok right
  | remaining + 1, left, right => do
    let col := n - (remaining + 1)
    match ← pivotRow? left n n col col with
    | none => .error (.refused .singular)
    | some pivot =>
      let left ← swapRows left n pivot col
      let right ← swapRows right n pivot col
      let p ← read left (col * n + col)
      let sides ← loop 0 n (left, right) fun sides k ↦ do
        let left ← divideAt sides.1 (col * n + k) p
        let right ← divideAt sides.2 (col * n + k) p
        return (left, right)
      let sides ← loop 0 n sides fun sides row ↦
        if row = col then
          .ok sides
        else do
          let factor ← read sides.1 (row * n + col)
          if Cell.isZero factor then
            return sides
          else
            loop 0 n sides fun sides k ↦ do
              let left ← subtractAt sides.1 (row * n + k) (col * n + k) factor
              let right ← subtractAt sides.2 (row * n + k) (col * n + k) factor
              return (left, right)
      inverseFrom n remaining sides.1 sides.2

/-- The inverse of a square matrix. -/
def inverse (m : RowMajor α) : Except Fault (RowMajor α) := do
  m.requireSquare
  let unit ← identity m.rows
  new m.rows m.rows (← inverseFrom m.rows m.rows m.cells unit.cells)

/-! ### Triangular factors -/

/-- Finds the next row of the upper factor and then the next column of the lower one. -/
def factorsFrom (n : Nat) (cells : List α) :
    (remaining : Nat) → List α → List α → Except Fault (List α × List α)
  | 0, lower, upper => .ok (lower, upper)
  | remaining + 1, lower, upper => do
    let i := n - (remaining + 1)
    let upper ← loop i n upper fun upper k ↦ do
      let sum ← sumOf i fun j ↦ return (← read lower (i * n + j)) * (← read upper (j * n + k))
      let x ← read cells (i * n + k)
      write upper (i * n + k) (x - sum)
    let p ← read upper (i * n + i)
    if Cell.negligible p then
      .error (.refused (.malformed .zeroLeadingPivot))
    else
      let lower ← loop (i + 1) n lower fun lower k ↦ do
        let sum ← sumOf i fun j ↦ return (← read lower (k * n + j)) * (← read upper (j * n + i))
        let x ← read cells (k * n + i)
        let p ← read upper (i * n + i)
        write lower (k * n + i) ((x - sum) / p)
      factorsFrom n cells remaining lower upper

/-- The lower and the upper triangular factor of a square matrix. -/
def factors (m : RowMajor α) : Except Fault (RowMajor α × RowMajor α) := do
  m.requireSquare
  let lower ← identity m.rows
  let upper ← filled m.rows m.rows 0
  let sides ← factorsFrom m.rows m.cells m.rows lower.cells upper.cells
  return ({ lower with cells := sides.1 }, { upper with cells := sides.2 })

end RowMajor

end MatrixCalculator
