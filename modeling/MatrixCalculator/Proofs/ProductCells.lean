import MatrixCalculator.Proofs.FlatKernels
import MatrixCalculator.Proofs.RowOperations

/-!
# Products cell by cell

A product is computed row by row, and within a row the cells of the left factor are taken one after
the other, each with a whole row of the right factor, so that all cells of the row grow together.
Every one of them ends as the products of a row and a column added up from the first to the last
(`Matrix.rowTimesColumn`), whatever addition and multiplication are: nothing is assumed of them, so
that this holds of doubles, where another order would give other sums. `Matrix.multiply_exact` says
it of matrices and of the loops that write to one list of cells in place.
-/

set_option autoImplicit false

namespace MatrixCalculator.Matrix

variable {α : Type} [Add α] [Mul α] [Zero α]

/-- A row of the left matrix times a column of the right one: the products of their cells, added up
from the first to the last, starting from zero. -/
def rowTimesColumn (left right : Matrix α) (fits : left.cols = right.rows) (i : Fin left.rows)
    (j : Fin right.cols) : α :=
  Fin.foldl left.cols
    (fun total k ↦ total + left.grid.cell i k * right.grid.cell (k.cast fits) j) 0

theorem multiply_of_cols_ne {left right : Matrix α} (differ : left.cols ≠ right.rows) :
    left.multiply right =
      .error (.sizeMismatch "matrix multiplication" left.shape right.shape) :=
  dif_neg differ

/-- Two matrices that fit have a product, whose cells are rows times columns. -/
theorem exists_multiply {left right : Matrix α} (fits : left.cols = right.rows) :
    ∃ grid : Grid α left.rows right.cols,
      left.multiply right =
          .ok ⟨left.rows, right.cols, grid, left.rows_pos, right.cols_pos⟩ ∧
        ∀ i j, grid.cell i j = left.rowTimesColumn right fits i j := by
  obtain ⟨rows, n, g, _, _⟩ := left
  obtain ⟨m, cols, h, _, _⟩ := right
  obtain rfl : n = m := fits
  exact ⟨g.multiply h, dif_pos rfl, Grid.cell_multiply g h⟩

/-- Two matrices are refused iff the left has not as many columns as the right has rows. Otherwise
their product has the rows of the left and the columns of the right, and its cells are rows times
columns. The loops over one list of cells refuse the same matrices and leave the cells of the same
product, each at its position. -/
theorem multiply_exact (left right : Matrix α) :
    (left.multiply right =
        .error (.sizeMismatch "matrix multiplication" left.shape right.shape) ↔
      left.cols ≠ right.rows) ∧
    (left.rowMajor.multiply right.rowMajor =
        .error (.refused (.sizeMismatch "matrix multiplication" left.shape right.shape)) ↔
      left.cols ≠ right.rows) ∧
    ∀ fits : left.cols = right.rows, ∃ product : Matrix α, ∃ cells : List α,
      left.multiply right = .ok product ∧ product.shape = (left.rows, right.cols) ∧
      left.rowMajor.multiply right.rowMajor = .ok ⟨left.rows, right.cols, cells⟩ ∧
      cells.length = left.rows * right.cols ∧
      ∀ (i : Fin left.rows) (j : Fin right.cols),
        product.get? i j = some (left.rowTimesColumn right fits i j) ∧
        cells[i.val * right.cols + j.val]? = some (left.rowTimesColumn right fits i j) := by
  rw [RowMajor.multiply_eq]
  by_cases fits : left.cols = right.rows
  · obtain ⟨grid, made, same⟩ := exists_multiply fits
    rw [made]
    refine ⟨iff_of_false (by simp) (not_not.mpr fits),
      iff_of_false (by simp [RowMajor.laidOut, Except.map, Except.mapError]) (not_not.mpr fits),
      fun _ ↦ ⟨_, grid.flat, rfl, rfl, rfl, grid.length_flat, fun i j ↦ ⟨?_, ?_⟩⟩⟩
    · rw [get?, dif_pos ⟨i.isLt, j.isLt⟩, ← same]
    · rw [grid.getElem?_flat i.isLt j.isLt, ← same]
  · rw [multiply_of_cols_ne fits]
    exact ⟨iff_of_true rfl fits, iff_of_true rfl fits, fun equal ↦ absurd equal fits⟩

/-- The last of three doubles is kept because the two before it are added first; the other way round
it would be lost. A column times itself is refused. -/
theorem multiply_exact_kept_unit :
    let row : Matrix Float := ⟨1, 3, ⟨#v[#v[1e16, -1e16, 1.0]]⟩, by decide, by decide⟩
    let column : Matrix Float := ⟨3, 1, ⟨#v[#v[1.0], #v[1.0], #v[1.0]]⟩, by decide, by decide⟩
    row.cols = column.rows ∧
      (∃ product, row.multiply column = .ok product ∧ product.get? 0 0 = some 1.0) ∧
      (1.0 + -1e16) + 1e16 = (0.0 : Float) ∧
      column.multiply column = .error (.sizeMismatch "matrix multiplication" (3, 1) (3, 1)) := by
  intro row column
  have sum : row.rowTimesColumn column rfl 0 0 = 1.0 := by decide +kernel
  obtain ⟨-, -, fitting⟩ := multiply_exact row column
  obtain ⟨product, cells, made, -, -, -, each⟩ := fitting rfl
  refine ⟨rfl, ⟨product, made, ?_⟩, by decide +kernel, (multiply_exact column column).1.mpr ?_⟩
  · rw [← sum]
    exact (each 0 0).1
  · decide

end MatrixCalculator.Matrix
