import Mathlib
import MatrixCalculator.Proofs.FlatKernels
import MatrixCalculator.Proofs.RowOperations

/-!
# Inverses of exact matrices

Gauss-Jordan elimination takes a grid and the identity through the same row operations
(`reduceColumn`). Its invariant is `Reduced`: the right grid times the grid at the start is the left
grid, and the columns that are done are columns of the identity. A pivot that is found keeps it for
one more column (`Reduced.step`), so that at the end the right grid is an inverse from the left, and
with rational cells that is an inverse from the right as well. What `Matrix.inverse` returns is
therefore inverse to the matrix on both sides (`Matrix.inverse_exact`).
-/

set_option autoImplicit false

namespace MatrixCalculator

namespace Grid

variable {n : Nat}

/-! ### One column -/

/-- What Gauss-Jordan elimination does to a grid when it turns column `k` of the grid `left` into a
column of the identity, with its pivot in the row `pivot`. -/
def reduceColumn (left : Grid Rat n n) (k pivot : Fin n) (g : Grid Rat n n) : Grid Rat n n :=
  let divisor := (left.swapRows pivot k).cell k k
  let scaled := (left.swapRows pivot k).divideRow k divisor
  ((g.swapRows pivot k).divideRow k divisor).subtractFromOthers k fun i ↦ scaled.cell i k

/-- Reducing a column can be done before or after a multiplication from the right. -/
theorem reduceColumn_multiply (left : Grid Rat n n) (k pivot : Fin n) (g h : Grid Rat n n) :
    (left.reduceColumn k pivot g).multiply h = left.reduceColumn k pivot (g.multiply h) := by
  rw [reduceColumn, subtractFromOthers_multiply, divideRow_multiply, swapRows_multiply,
    reduceColumn]

theorem cell_reduceColumn (left : Grid Rat n n) (k pivot : Fin n) (g : Grid Rat n n) (i j : Fin n) :
    (left.reduceColumn k pivot g).cell i j =
      if i = k then g.cell pivot j / left.cell pivot k
      else g.cell (if i = pivot then k else i) j -
        left.cell (if i = pivot then k else i) k * (g.cell pivot j / left.cell pivot k) := by
  rw [reduceColumn, cell_subtractFromOthers]
  simp only [cell_divideRow, if_true, cell_swapRows_second]
  by_cases here : i = k
  · rw [here, if_pos rfl, if_pos rfl, if_pos rfl, cell_swapRows_second]
  · simp only [cell_swapRows, if_neg here]

theorem inverseFrom_succ {remaining : Nat} (bound : remaining + 1 ≤ n)
    (inside : n - (remaining + 1) < n) (left right : Grid Rat n n) :
    inverseFrom (remaining + 1) bound left right =
      (left.pivotRow? ⟨_, inside⟩ ⟨_, inside⟩).bind fun pivot ↦
        inverseFrom remaining (Nat.le_of_succ_le bound)
          (left.reduceColumn ⟨_, inside⟩ pivot left)
          (left.reduceColumn ⟨_, inside⟩ pivot right) := by
  rw [inverseFrom]
  dsimp only
  split <;> rename_i found <;> rw [found] <;> rfl

/-! ### All columns -/

/-- The state of the elimination of `a` when some columns have been reduced. -/
structure Reduced (a left right : Grid Rat n n) (done : Nat) : Prop where
  product : right.multiply a = left
  unit : ∀ i j : Fin n, j.val < done → left.cell i j = if i = j then 1 else 0

theorem Reduced.start (a : Grid Rat n n) : Reduced a a (identity n) 0 :=
  ⟨identity_multiply a, fun _ j below ↦ absurd below (Nat.not_lt_zero j)⟩

theorem Reduced.step {a left right : Grid Rat n n} {k pivot : Fin n}
    (reduced : Reduced a left right k) (found : left.pivotRow? k k = some pivot) :
    Reduced a (left.reduceColumn k pivot left) (left.reduceColumn k pivot right) (k + 1) := by
  obtain ⟨product, unit⟩ := reduced
  refine ⟨by rw [reduceColumn_multiply, product], fun i j below ↦ ?_⟩
  have le := top_le_of_pivotRow? found
  have nonzero := ne_zero_of_pivotRow? found
  rw [cell_reduceColumn]
  rcases Nat.lt_succ_iff_lt_or_eq.mp below with before | now
  · -- In a column that is done, the row of the pivot is zero: it is not above the row in turn.
    have off : left.cell pivot j = 0 := by rw [unit pivot j before, if_neg (by omega)]
    rw [off, zero_div, mul_zero, sub_zero, unit _ j before]
    split_ifs <;> first | rfl | omega
  · obtain rfl : j = k := Fin.ext now
    rw [div_self nonzero, mul_one, sub_self]

theorem Reduced.eq_identity {a left right : Grid Rat n n} (reduced : Reduced a left right n) :
    left = identity n := by
  ext i j
  rw [reduced.unit i j j.isLt, cell_identity]

theorem Reduced.multiply_of_inverseFrom {a b : Grid Rat n n} (remaining : Nat)
    (bound : remaining ≤ n) {left right : Grid Rat n n}
    (reduced : Reduced a left right (n - remaining))
    (found : inverseFrom remaining bound left right = some b) : b.multiply a = identity n := by
  induction remaining generalizing left right with
  | zero =>
    obtain rfl := Option.some.inj found
    rw [reduced.product]
    exact reduced.eq_identity
  | succ remaining ih =>
    have inside : n - (remaining + 1) < n := by omega
    rw [inverseFrom_succ bound inside] at found
    obtain ⟨pivot, isPivot, found⟩ := Option.bind_eq_some_iff.mp found
    have next := reduced.step isPivot
    have counted : n - (remaining + 1) + 1 = n - remaining := by omega
    rw [counted] at next
    exact ih (Nat.le_of_succ_le bound) next found

theorem multiply_of_inverse? {a b : Grid Rat n n} (found : a.inverse? = some b) :
    a.multiply b = identity n ∧ b.multiply a = identity n := by
  have started : Reduced a a (identity n) (n - n) := by
    rw [Nat.sub_self]
    exact .start a
  have left := started.multiply_of_inverseFrom n (Nat.le_refl n) found
  exact ⟨(multiply_eq_identity_comm b a).mp left, left⟩

end Grid

namespace Matrix

open RowMajor (square_cases square_grid)

theorem inverse_grid {n : Nat} (g : Grid Rat n n) (pos : 0 < n) :
    (⟨n, n, g, pos, pos⟩ : Matrix Rat).inverse =
      match g.inverse? with
      | some b => .ok ⟨n, n, b, pos, pos⟩
      | none => .error .singular := by
  rw [inverse, square_grid, ok_bind]
  cases g.inverse? <;> rfl

theorem multiply_grid {n : Nat} (g h : Grid Rat n n) (pos : 0 < n) :
    (⟨n, n, g, pos, pos⟩ : Matrix Rat).multiply ⟨n, n, h, pos, pos⟩ =
      .ok ⟨n, n, g.multiply h, pos, pos⟩ :=
  dif_pos rfl

/-- A matrix is inverted on both sides, or has an error; one that is not square always has. -/
theorem inverse_exact (m : Matrix Rat) :
    (m.cols ≠ m.rows → m.inverse = .error (.notSquare m.rows m.cols)) ∧
      ∀ b, m.inverse = .ok b → m.cols = m.rows ∧ b.rows = m.rows ∧ b.cols = m.rows ∧
        ∃ one, identity m.rows = .ok one ∧ m.multiply b = .ok one ∧ b.multiply m = .ok one := by
  rcases square_cases m with ⟨n, g, pos, rfl⟩ | ⟨-, refused⟩
  · refine ⟨fun notSquare ↦ absurd rfl notSquare, fun b inverted ↦ ?_⟩
    rw [inverse_grid] at inverted
    rcases found : g.inverse? with _ | other
    · rw [found] at inverted
      cases inverted
    · rw [found] at inverted
      obtain rfl := Except.ok.inj inverted
      obtain ⟨right, left⟩ := Grid.multiply_of_inverse? found
      refine ⟨rfl, rfl, rfl, ⟨n, n, .identity n, pos, pos⟩, dif_pos pos, ?_, ?_⟩
      · rw [multiply_grid, right]
      · rw [multiply_grid, left]
  · rw [inverse, refused]
    exact ⟨fun _ ↦ rfl, fun b inverted ↦ by cases inverted⟩

/-- Elimination exchanges the rows of the first matrix. The second one is not square. -/
theorem inverse_exact_exchange :
    let m : Matrix Rat := ⟨2, 2, ⟨#v[#v[0, 2], #v[3, 4]]⟩, by decide, by decide⟩
    let b : Matrix Rat := ⟨2, 2, ⟨#v[#v[-2 / 3, 1 / 3], #v[1 / 2, 0]]⟩, by decide, by decide⟩
    let wide : Matrix Rat := ⟨1, 2, ⟨#v[#v[1, 2]]⟩, by decide, by decide⟩
    (m.inverse = .ok b ∧ ∃ one, identity 2 = .ok one ∧ m.multiply b = .ok one ∧
      b.multiply m = .ok one) ∧ wide.inverse = .error (.notSquare 1 2) := by
  intro m b wide
  have inverted : m.inverse = .ok b := by decide +kernel
  exact ⟨⟨inverted, ((inverse_exact m).2 b inverted).2.2.2⟩, (inverse_exact wide).1 (by decide)⟩

end Matrix

end MatrixCalculator
