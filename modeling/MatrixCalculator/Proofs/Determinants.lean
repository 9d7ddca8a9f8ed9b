import Mathlib
import MatrixCalculator.Proofs.EliminationStages
import MatrixCalculator.Proofs.SingularMatrices

/-!
# Determinants of exact matrices

Elimination keeps a determinant but for its sign (`det_pivoted`). So as long as every column has a
pivot, the determinant of the grid at the start is that of the grid that has become of it, times the
same sign that the product of the pivots so far has taken on (`Triangulated`). It ends in one of two
ways. All columns are done: the grid is triangular, and the product of its diagonal is the product
of the pivots. Or a column has no pivot: if it is zero below the rows that are done, then so is the
determinant (`Triangulated.det_eq_zero`). `Matrix.determinant_exact` puts this together for a matrix
in which each column that is reached can be told from a zero column.
-/

set_option autoImplicit false

namespace MatrixCalculator

namespace Grid

variable {n : Nat}

/-! ### One column -/

/-- A column with its pivot changes the sign of the determinant if rows are exchanged. -/
theorem det_pivoted {g : Grid Rat n n} {k pivot : Fin n} (le : k ≤ pivot)
    (zero : ∀ i j, k ≤ i → j < k → g.cell i j = 0) :
    (g.pivoted k k pivot).entries.det = (if pivot = k then 1 else -1) * g.entries.det := by
  have exchanged : (g.swapRows pivot k).entries.det =
      (if pivot = k then 1 else -1) * g.entries.det := by
    rw [entries_swapRows, Matrix.det_permute, Equiv.Perm.sign_swap']
    split_ifs <;> simp
  rw [← exchanged]
  refine Matrix.det_eq_of_forall_row_eq_smul_add_const
    (fun i ↦ -if k < i then (g.swapRows pivot k).cell i k / g.cell pivot k else 0) k ?_ ?_
  · rw [if_neg (lt_irrefl k), neg_zero]
  · intro i j
    exact (cell_pivoted_of_zero le zero i j).trans (by rw [sub_eq_add_neg, ← neg_mul]; rfl)

/-! ### The columns that are done -/

theorem filter_lt_succ (k : Fin n) :
    Finset.univ.filter (fun j : Fin n ↦ j.val < k.val + 1) =
      insert k (Finset.univ.filter fun j : Fin n ↦ j.val < k.val) := by
  ext j
  rw [Finset.mem_insert, Finset.mem_filter_univ, Finset.mem_filter_univ, Nat.lt_succ_iff_lt_or_eq,
    Fin.ext_iff, or_comm]

/-- The elimination of `a` when some columns are done, each with a pivot: they are zero below the
diagonal, and `det` is the product of the pivots with the sign by which the determinants differ. -/
structure Triangulated (a g : Grid Rat n n) (det : Rat) (done : Nat) : Prop where
  below : ∀ i j : Fin n, j.val < done → j < i → g.cell i j = 0
  signed : ∃ sign, det = sign * ∏ j : Fin n with j.val < done, g.cell j j ∧
    a.entries.det = sign * g.entries.det

theorem Triangulated.start (a : Grid Rat n n) : Triangulated a a 1 0 := by
  refine ⟨fun i j none ↦ absurd none (Nat.not_lt_zero j), 1, ?_, (one_mul _).symm⟩
  simp

/-- The columns before the one in turn are zero from the row in turn on. -/
theorem Triangulated.cell_eq_zero {a g : Grid Rat n n} {det : Rat} {k : Fin n}
    (state : Triangulated a g det k) (i j : Fin n) (le : k ≤ i) (before : j < k) :
    g.cell i j = 0 :=
  state.below i j before (before.trans_le le)

theorem Triangulated.next {a g : Grid Rat n n} {det : Rat} {k pivot : Fin n}
    (state : Triangulated a g det k) (found : g.pivotRow? k k = some pivot) :
    Triangulated a (g.pivoted k k pivot) ((if pivot = k then det else -det) * g.cell pivot k)
      (k + 1) := by
  have le := top_le_of_pivotRow? found
  have nonzero := ne_zero_of_pivotRow? found
  obtain ⟨sign, product, whole⟩ := state.signed
  constructor
  · intro i j done under
    rcases lt_or_ge i k with above | fromTop
    · rw [cell_pivoted_above g k j le above]
      exact state.below i j (lt_trans under above) under
    · rcases fromTop.eq_or_lt with rfl | lower
      · rw [cell_pivoted_top]
        exact state.cell_eq_zero pivot j le under
      · exact cell_pivoted_below le nonzero state.cell_eq_zero lower (Nat.lt_succ_iff.mp done)
  · have pivots : ∏ j : Fin n with j.val < k.val + 1, (g.pivoted k k pivot).cell j j =
        g.cell pivot k * ∏ j : Fin n with j.val < k.val, g.cell j j := by
      rw [filter_lt_succ, Finset.prod_insert (by simp), cell_pivoted_top]
      refine congrArg _ (Finset.prod_congr rfl fun j among ↦ ?_)
      exact cell_pivoted_above g k j le ((Finset.mem_filter_univ j).mp among)
    refine ⟨sign * if pivot = k then 1 else -1, ?_, ?_⟩
    · rw [pivots, product]
      split_ifs <;> ring
    · rw [whole, det_pivoted le state.cell_eq_zero]
      split_ifs <;> ring

/-- When all columns are done, the grid is a triangle. -/
theorem Triangulated.det_eq {a g : Grid Rat n n} {det : Rat} (state : Triangulated a g det n) :
    a.entries.det = det := by
  obtain ⟨sign, product, whole⟩ := state.signed
  have triangle : g.entries.det = ∏ j, g.cell j j :=
    Matrix.det_of_isUpperTriangular fun i j under ↦ state.below i j j.isLt under
  have all : Finset.univ.filter (fun j : Fin n ↦ j.val < n) = Finset.univ :=
    Finset.filter_true_of_mem fun j _ ↦ j.isLt
  rw [whole, triangle, product, all]

/-- A column that is zero below the rows that are done leaves a block without a determinant. -/
theorem Triangulated.det_eq_zero {a g : Grid Rat n n} {det : Rat} {k : Fin n}
    (state : Triangulated a g det k) (zero : ∀ i, k ≤ i → g.cell i k = 0) : a.entries.det = 0 := by
  obtain ⟨sign, -, whole⟩ := state.signed
  have block := g.entries.twoBlockTriangular_det (· < k) fun i notAbove j before ↦
    state.cell_eq_zero i j (not_lt.mp notAbove) before
  have corner : (g.entries.toSquareBlockProp fun i ↦ ¬i < k).det = 0 :=
    Matrix.det_eq_zero_of_column_eq_zero ⟨k, lt_irrefl k⟩ fun i ↦ zero i (not_lt.mp i.2)
  rw [whole, block, corner, mul_zero, mul_zero]

/-! ### All columns -/

theorem determinantFrom_succ {remaining : Nat} (bound : remaining + 1 ≤ n)
    (inside : n - (remaining + 1) < n) (g : Grid Rat n n) (det : Rat) :
    determinantFrom (remaining + 1) bound g det =
      match g.pivotRow? ⟨_, inside⟩ ⟨_, inside⟩ with
      | none => 0
      | some pivot =>
        determinantFrom remaining (Nat.le_of_succ_le bound)
          (g.pivoted ⟨_, inside⟩ ⟨_, inside⟩ pivot)
          ((if pivot = ⟨_, inside⟩ then det else -det) * g.cell pivot ⟨_, inside⟩) := by
  rw [determinantFrom]
  dsimp only
  cases g.pivotRow? ⟨_, inside⟩ ⟨_, inside⟩ with
  | none => rfl
  | some pivot => simp only [cell_swapRows_second, pivoted]

/-- From any stage that is reached with a pivot in every column, what is computed from there on is
the determinant. -/
theorem determinantFrom_eq_det {a : Grid Rat n n} (remaining : Nat) (bound : remaining ≤ n)
    {det : Rat} (reached : (a.stage (n - remaining)).top = n - remaining)
    (state : Triangulated a (a.stage (n - remaining)).grid det (n - remaining))
    (decided : ∀ k : Fin n, (a.stage k).top = k → (a.stage k).Decided k) :
    determinantFrom remaining bound (a.stage (n - remaining)).grid det = a.entries.det := by
  induction remaining generalizing det with
  | zero => exact state.det_eq.symm
  | succ remaining ih =>
    obtain ⟨k, here⟩ : ∃ k : Fin n, k.val = n - (remaining + 1) := ⟨⟨_, by omega⟩, rfl⟩
    have inside : n - (remaining + 1) < n := here ▸ k.isLt
    have counted : n - remaining = k + 1 := by omega
    rw [determinantFrom_succ bound inside]
    simp only [← here] at reached state ⊢
    rw [counted, a.stage_succ k.isLt] at ih
    rcases found : (a.stage k).grid.pivotRow? k k with _ | pivot
    · exact (state.det_eq_zero fun i le ↦
        (decided k reached).cell_eq_zero reached found le).symm
    · rw [Stage.next_of_pivot reached found] at ih
      exact ih (Nat.le_of_succ_le bound) rfl (state.next found)

end Grid

namespace Matrix

variable {n : Nat}

/-- The determinant is the signed sum over permutations, where each column that is reached, that is,
with a pivot in every column before it, can be told from a zero column. -/
theorem determinant_exact (g : Grid Rat n n) (pos : 0 < n)
    (decided : ∀ k : Fin n, (g.stage k).top = k → (g.stage k).Decided k) :
    (⟨n, n, g, pos, pos⟩ : Matrix Rat).determinant = .ok g.entries.det := by
  have reached : (g.stage (n - n)).top = n - n := by
    rw [Nat.sub_self]
    rfl
  have state : Grid.Triangulated g (g.stage (n - n)).grid 1 (n - n) := by
    rw [Nat.sub_self]
    exact .start g
  have whole := Grid.determinantFrom_eq_det n (Nat.le_refl n) reached state decided
  rw [Nat.sub_self] at whole
  rw [determinant_grid]
  exact congrArg Except.ok whole

/-- Elimination exchanges rows twice. -/
theorem determinant_exact_exchanges :
    let g : Grid Rat 3 3 := ⟨#v[#v[0, 2, 1], #v[3, 1, 4], #v[1, 5, 2]]⟩
    let m : Matrix Rat := ⟨3, 3, g, by decide, by decide⟩
    (∀ k : Fin 3, (g.stage k).top = k → (g.stage k).Decided k) ∧
      m.determinant = .ok g.entries.det ∧ m.determinant = .ok 10 := by
  intro g m
  have decided : ∀ k : Fin 3, (g.stage k).top = k → (g.stage k).Decided k := by decide +kernel
  exact ⟨decided, determinant_exact g (by decide) decided, by decide +kernel⟩

end Matrix

end MatrixCalculator
