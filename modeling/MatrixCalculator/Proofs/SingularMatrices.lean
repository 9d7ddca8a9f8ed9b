import MatrixCalculator.Proofs.Inverses

/-!
# Tests for singular matrices

The inverse, the determinant and the rank of a matrix come from three eliminations. With exact cells
they find the same pivots in a square matrix. Determinant and rank differ in nothing as long as
every column has a pivot (`determinantFrom_eq_zero_iff`). The inverse clears the rows above a pivot
too and divides the row of the pivot, but from the next row and the next column on it has the same
cells (`AgreeFrom.step`), and no pivot is looked for elsewhere (`inverseFrom_eq_none_iff`). So a
matrix has no inverse, the determinant zero or too small a rank, all three or none of them
(`Matrix.singular_tests_agree`), however small a pivot must be to count as none.
-/

set_option autoImplicit false

namespace MatrixCalculator

namespace Grid

variable {n : Nat}

/-! ### The inverse and the determinant -/

/-- Whether two grids have the same cells from row `k` and column `k` on. -/
def AgreeFrom (k : Nat) (g h : Grid Rat n n) : Prop :=
  ∀ i j : Fin n, k ≤ i.val → k ≤ j.val → g.cell i j = h.cell i j

/-- Turning a column into one of the identity and clearing it below its pivot make the same of the
rows below the pivot. -/
theorem AgreeFrom.step {left g : Grid Rat n n} {k pivot : Fin n} (agree : AgreeFrom k left g)
    (le : k ≤ pivot) :
    AgreeFrom (k + 1) (left.reduceColumn k pivot left) ((g.swapRows pivot k).clearBelow k k) := by
  intro i j below right
  have notHere : i ≠ k := by omega
  have inTurn : k < i ∧ k ≤ j := by omega
  have source : k ≤ if i = pivot then k else i := by split_ifs <;> omega
  rw [cell_reduceColumn, if_neg notHere, cell_clearBelow, if_pos inTurn, cell_swapRows_second,
    cell_swapRows_second, cell_swapRows, cell_swapRows, if_neg notHere,
    agree _ j source inTurn.2, agree _ k source le_rfl, agree pivot j le inTurn.2,
    agree pivot k le le_rfl]
  ring

/-- The product of the pivots is not zero as long as each column has one. -/
theorem mul_pivot_ne_zero {g : Grid Rat n n} {k pivot : Fin n} {det : Rat} (nonzero : det ≠ 0)
    (found : g.pivotRow? k k = some pivot) :
    (if pivot = k then det else -det) * (g.swapRows pivot k).cell k k ≠ 0 := by
  rw [cell_swapRows_second]
  refine mul_ne_zero ?_ (ne_zero_of_pivotRow? found)
  split_ifs
  · exact nonzero
  · exact neg_ne_zero.mpr nonzero

/-- From grids that agree where pivots are still looked for, an inverse is missing iff a
determinant is zero. -/
theorem inverseFrom_eq_none_iff (remaining : Nat) (bound : remaining ≤ n)
    {left right g : Grid Rat n n} {det : Rat} (agree : AgreeFrom (n - remaining) left g)
    (nonzero : det ≠ 0) :
    inverseFrom remaining bound left right = none ↔ determinantFrom remaining bound g det = 0 := by
  induction remaining generalizing left right g det with
  | zero => exact iff_of_false (Option.some_ne_none right) nonzero
  | succ remaining ih =>
    have inside : n - (remaining + 1) < n := by omega
    have same : left.pivotRow? ⟨_, inside⟩ ⟨_, inside⟩ = g.pivotRow? ⟨_, inside⟩ ⟨_, inside⟩ :=
      pivotRow?_congr fun i le ↦ agree i _ le (le_refl _)
    rw [inverseFrom_succ bound inside, determinantFrom, same]
    dsimp only
    rcases found : g.pivotRow? ⟨_, inside⟩ ⟨_, inside⟩ with _ | pivot
    · exact iff_of_true rfl rfl
    · have next := agree.step (top_le_of_pivotRow? found)
      have counted : n - (remaining + 1) + 1 = n - remaining := by omega
      rw [counted] at next
      exact ih (Nat.le_of_succ_le bound) next (mul_pivot_ne_zero nonzero found)

/-! ### The determinant and the rank -/

/-- Each column that is left adds one to the rank at most. -/
theorem rankFrom_le {r c : Nat} (remaining : Nat) (bound : remaining ≤ c) (g : Grid Rat r c)
    (top : Nat) : rankFrom remaining bound g top ≤ top + remaining := by
  induction remaining generalizing g top with
  | zero => exact Nat.le_refl top
  | succ remaining ih =>
    rw [rankFrom]
    split
    · dsimp only
      split
      · exact (ih _ g top).trans (by omega)
      · exact (ih _ _ (top + 1)).trans (by omega)
    · omega

/-- A column without a pivot makes the determinant zero, and the columns behind it cannot make up
for the row that it leaves. -/
theorem determinantFrom_eq_zero_iff (remaining : Nat) (bound : remaining ≤ n) {g : Grid Rat n n}
    {det : Rat} (nonzero : det ≠ 0) :
    determinantFrom remaining bound g det = 0 ↔ rankFrom remaining bound g (n - remaining) < n := by
  induction remaining generalizing g det with
  | zero => exact iff_of_false nonzero (Nat.lt_irrefl n)
  | succ remaining ih =>
    have inside : n - (remaining + 1) < n := by omega
    rw [determinantFrom, rankFrom, dif_pos inside]
    dsimp only
    rcases found : g.pivotRow? ⟨_, inside⟩ ⟨_, inside⟩ with _ | pivot
    · have few := rankFrom_le remaining (Nat.le_of_succ_le bound) g (n - (remaining + 1))
      exact iff_of_true rfl (few.trans_lt (by omega))
    · have counted : n - (remaining + 1) + 1 = n - remaining := by omega
      dsimp only
      rw [counted]
      exact ih (Nat.le_of_succ_le bound) (mul_pivot_ne_zero nonzero found)

/-! ### The tests -/

theorem inverse?_eq_none_iff (g : Grid Rat n n) : g.inverse? = none ↔ g.determinant = 0 :=
  inverseFrom_eq_none_iff n (Nat.le_refl n) (fun _ _ _ _ ↦ rfl) one_ne_zero

theorem determinant_eq_zero_iff (g : Grid Rat n n) : g.determinant = 0 ↔ g.rank < n := by
  have whole := determinantFrom_eq_zero_iff n (Nat.le_refl n) (g := g) one_ne_zero
  rwa [Nat.sub_self] at whole

end Grid

namespace Matrix

open RowMajor (square_cases square_grid)

variable {n : Nat}

theorem inverse_grid_eq_singular_iff (g : Grid Rat n n) (pos : 0 < n) :
    (⟨n, n, g, pos, pos⟩ : Matrix Rat).inverse = .error .singular ↔ g.inverse? = none := by
  rw [inverse_grid]
  cases g.inverse? with
  | none => exact iff_of_true rfl rfl
  | some b => exact iff_of_false (fun same ↦ by cases same) (Option.some_ne_none b)

theorem determinant_grid (g : Grid Rat n n) (pos : 0 < n) :
    (⟨n, n, g, pos, pos⟩ : Matrix Rat).determinant = .ok g.determinant := by
  rw [determinant, square_grid]
  rfl

/-- The three tests for a singular matrix agree. -/
theorem singular_tests_agree {m : Matrix Rat} (isSquare : m.cols = m.rows) :
    (m.inverse = .error .singular ↔ m.determinant = .ok 0) ∧
      (m.determinant = .ok 0 ↔ m.rank < m.rows) := by
  rcases square_cases m with ⟨n, g, pos, rfl⟩ | ⟨-, refused⟩
  · have zero : (⟨n, n, g, pos, pos⟩ : Matrix Rat).determinant = .ok 0 ↔ g.determinant = 0 := by
      rw [determinant_grid]
      exact ⟨Except.ok.inj, congrArg Except.ok⟩
    rw [zero, inverse_grid_eq_singular_iff, g.inverse?_eq_none_iff]
    exact ⟨Iff.rfl, g.determinant_eq_zero_iff⟩
  · rw [square, dif_pos isSquare] at refused
    cases refused

/-- The rows differ by less than what counts as a pivot, so that a matrix counts as singular whose
determinant is not zero in truth. -/
theorem singular_of_near_rows :
    let m : Matrix Rat :=
      ⟨2, 2, ⟨#v[#v[1, 1], #v[1, 1 + 1 / 100000000000]]⟩, by decide, by decide⟩
    m.cols = m.rows ∧ m.inverse = .error .singular ∧ m.determinant = .ok 0 ∧ m.rank < m.rows := by
  intro m
  have agree := singular_tests_agree (m := m) rfl
  have few : m.rank < m.rows := by decide +kernel
  exact ⟨rfl, agree.1.mpr (agree.2.mpr few), agree.2.mpr few, few⟩

end Matrix

end MatrixCalculator
