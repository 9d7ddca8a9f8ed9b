import MatrixCalculator.Matrix.Grid

/-!
# Gaussian elimination

The determinant, the inverse and the rank are found by clearing columns from left to right. The
pivot of a column is the cell of largest magnitude at or below the row that is next in turn; a
column without a pivot worth the name makes the matrix singular. The factorization into a lower and
an upper triangle takes the pivots as they stand on the diagonal.

Every loop runs over the columns that remain: with `m + 1` of them left, the column in turn is the
one with the index `n - (m + 1)`.
-/

set_option autoImplicit false

namespace MatrixCalculator.Grid

variable {α : Type} [Cell α] {r c n : Nat}

/-! ### Steps -/

/-- The row at or below `top` whose cell in the column has the largest magnitude, the lowest one of
several. -/
def pivotRow (g : Grid α r c) (top : Fin r) (col : Fin c) : Fin r :=
  Fin.foldl r
    (fun best i ↦
      if top < i ∧ Cell.magnitudeLE (g.cell best col) (g.cell i col) then i else best)
    top

/-- The pivot row, unless the largest magnitude of the column is negligible. -/
def pivotRow? (g : Grid α r c) (top : Fin r) (col : Fin c) : Option (Fin r) :=
  let pivot := g.pivotRow top col
  if Cell.negligible (g.cell pivot col) then none else some pivot

/-- Clears a column below the row of its pivot, by subtracting multiples of that row. Columns
further left are clear already and stay as they are. -/
def clearBelow (g : Grid α r c) (pivot : Fin r) (col : Fin c) : Grid α r c :=
  ofRows fun i ↦
    if pivot < i then
      let factor := g.cell i col / g.cell pivot col
      Vector.ofFn fun j ↦
        if col ≤ j then g.cell i j - factor * g.cell pivot j else g.cell i j
    else
      g.row i

/-- Divides a row by a cell. -/
def divideRow (g : Grid α r c) (i : Fin r) (divisor : α) : Grid α r c :=
  ofRows fun k ↦ if k = i then (g.row k).map (· / divisor) else g.row k

/-- Subtracts from every other row the multiple of the row `source` that `factor` gives for it. A
row whose factor is zero is left alone. -/
def subtractFromOthers (g : Grid α r c) (source : Fin r) (factor : Fin r → α) : Grid α r c :=
  ofRows fun i ↦
    if i = source ∨ Cell.isZero (factor i) then
      g.row i
    else
      let factor := factor i
      Vector.ofFn fun j ↦ g.cell i j - factor * g.cell source j

/-! ### Determinant, rank and inverse -/

/-- Clears the remaining columns and multiplies their pivots into `det`, whose sign changes with
every exchange of rows. -/
def determinantFrom : (remaining : Nat) → remaining ≤ n → Grid α n n → α → α
  | 0, _, _, det => det
  | remaining + 1, bound, g, det =>
    let k : Fin n := ⟨n - (remaining + 1), by omega⟩
    match g.pivotRow? k k with
    | none => 0
    | some pivot =>
      let g := g.swapRows pivot k
      let det := if pivot = k then det else -det
      determinantFrom remaining (by omega) (g.clearBelow k k) (det * g.cell k k)

/-- The determinant, zero as soon as a column has no pivot. -/
def determinant (g : Grid α n n) : α :=
  determinantFrom n (Nat.le_refl n) g 1

/-- Clears the remaining columns below the row `top`, which moves down past every pivot found. -/
def rankFrom : (remaining : Nat) → remaining ≤ c → Grid α r c → Nat → Nat
  | 0, _, _, top => top
  | remaining + 1, bound, g, top =>
    if inside : top < r then
      let row : Fin r := ⟨top, inside⟩
      let col : Fin c := ⟨c - (remaining + 1), by omega⟩
      match g.pivotRow? row col with
      | none => rankFrom remaining (by omega) g top
      | some pivot =>
        rankFrom remaining (by omega) ((g.swapRows pivot row).clearBelow row col) (top + 1)
    else
      top

/-- The number of pivots. -/
def rank (g : Grid α r c) : Nat :=
  rankFrom c (Nat.le_refl c) g 0

/-- Turns the remaining columns of the left grid into those of the identity, and does to the right
grid what it does to the left. -/
def inverseFrom : (remaining : Nat) → remaining ≤ n → Grid α n n → Grid α n n → Option (Grid α n n)
  | 0, _, _, right => some right
  | remaining + 1, bound, left, right =>
    let k : Fin n := ⟨n - (remaining + 1), by omega⟩
    match left.pivotRow? k k with
    | none => none
    | some pivot =>
      let left := left.swapRows pivot k
      let right := right.swapRows pivot k
      let divisor := left.cell k k
      let left := left.divideRow k divisor
      let right := right.divideRow k divisor
      let factor := fun i ↦ left.cell i k
      inverseFrom remaining (by omega) (left.subtractFromOthers k factor)
        (right.subtractFromOthers k factor)

/-- The inverse, none if a column has no pivot. -/
def inverse? (g : Grid α n n) : Option (Grid α n n) :=
  inverseFrom n (Nat.le_refl n) g (identity n)

/-! ### Triangular factors -/

/-- The sum over the indices below `bound`. -/
def sumBelow (bound : Fin n) (term : Fin n → α) : α :=
  sumOf bound fun j ↦ term ⟨j, by omega⟩

/-- Finds the next row of the upper factor and then the next column of the lower one. -/
def factorsFrom (g : Grid α n n) :
    (remaining : Nat) → remaining ≤ n → Grid α n n → Grid α n n → Option (Grid α n n × Grid α n n)
  | 0, _, lower, upper => some (lower, upper)
  | remaining + 1, bound, lower, upper =>
    let i : Fin n := ⟨n - (remaining + 1), by omega⟩
    let upper := ofRows fun k ↦
      if k = i then
        Vector.ofFn fun j ↦
          if i ≤ j then g.cell i j - sumBelow i fun m ↦ lower.cell i m * upper.cell m j
          else upper.cell i j
      else
        upper.row k
    if Cell.negligible (upper.cell i i) then
      none
    else
      let lower := ofRows fun k ↦
        if i < k then
          (lower.row k).set i
            ((g.cell k i - sumBelow i fun m ↦ lower.cell k m * upper.cell m i) / upper.cell i i)
        else
          lower.row k
      factorsFrom g remaining (by omega) lower upper

/-- A lower triangle with ones on its diagonal and an upper triangle whose product is the grid, none
if a diagonal cell of the upper one is negligible. -/
def factors? (g : Grid α n n) : Option (Grid α n n × Grid α n n) :=
  factorsFrom g n (Nat.le_refl n) (identity n) (filled n n 0)

end MatrixCalculator.Grid
