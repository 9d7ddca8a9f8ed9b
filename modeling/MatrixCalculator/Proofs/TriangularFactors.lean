import Mathlib
import MatrixCalculator.Proofs.EliminationStages
import MatrixCalculator.Proofs.FlatElimination
import MatrixCalculator.Proofs.Inverses

/-!
# Triangular factors of exact matrices

The factorization finds a row of the upper factor and then a column of the lower one, in turn, each
from what both have of the rows and columns before (`nextUpper`, `nextLower`). Its invariant is
`Factored`: the factors are triangles throughout, because what is not found yet is zero or one as in
the identity, and a cell of their product is right as soon as its row of the upper factor or its
column of the lower one has been found. A further row and column leave those cells alone, since the
terms that change are zero there (`Factored.multiply_kept`), and the cells that come to be right are
those that the new row and the new column have been solved for (`Factored.multiply_row`,
`Factored.multiply_column`). When all are found, the product is the grid (`Matrix.factors_exact`).
-/

set_option autoImplicit false

namespace MatrixCalculator

namespace Grid

open RowMajor (nextUpper nextLower)

variable {n : Nat}

/-! ### Sums -/

theorem sumBelow_eq_sum (i : Fin n) (term : Fin n → Rat) :
    sumBelow i term = ∑ m ∈ Finset.Iio i, term m := by
  refine (foldl_add_eq_sum i fun j ↦ term ⟨j, j.isLt.trans i.isLt⟩).trans ?_
  refine Finset.sum_bij (fun j _ ↦ ⟨j, j.isLt.trans i.isLt⟩) (fun j _ ↦ ?_) (fun j _ k _ same ↦ ?_)
    (fun m below ↦ ?_) fun j _ ↦ rfl
  · exact Finset.mem_Iio.mpr j.isLt
  · exact Fin.ext (Fin.mk.inj same)
  · have inside : m < i := Finset.mem_Iio.mp below
    exact ⟨⟨m, inside⟩, Finset.mem_univ _, rfl⟩

/-- A sum whose terms behind index `i` are zero. -/
theorem sum_eq_sumBelow_add {term : Fin n → Rat} {i : Fin n} (zero : ∀ m, i < m → term m = 0) :
    ∑ m, term m = sumBelow i term + term i := by
  rw [sumBelow_eq_sum, Finset.sum_Iio_add_eq_sum_Iic]
  refine (Finset.sum_subset (Finset.subset_univ _) fun m _ behind ↦ zero m ?_).symm
  rwa [Finset.mem_Iic, not_le] at behind

theorem sumBelow_congr {i : Fin n} {term term' : Fin n → Rat}
    (same : ∀ m, m < i → term m = term' m) : sumBelow i term = sumBelow i term' := by
  rw [sumBelow_eq_sum, sumBelow_eq_sum]
  exact Finset.sum_congr rfl fun m below ↦ same m (Finset.mem_Iio.mp below)

/-! ### A row and a column -/

theorem cell_nextUpper (g lower upper : Grid Rat n n) (i k j : Fin n) :
    (nextUpper g lower upper i).cell k j =
      if k = i ∧ i ≤ j then g.cell i j - sumBelow i fun m ↦ lower.cell i m * upper.cell m j
      else upper.cell k j := by
  rw [nextUpper, cell_setRow]
  by_cases inRow : k = i
  · rw [if_pos inRow, inRow, Vector.get_eq_getElem, Vector.getElem_ofFn]
    simp only [true_and]
  · rw [if_neg inRow, if_neg fun both ↦ inRow both.1]

theorem cell_nextLower (g lower upper : Grid Rat n n) (i k j : Fin n) :
    (nextLower g lower upper i).cell k j =
      if i < k ∧ j = i then
        (g.cell k i - sumBelow i fun m ↦ lower.cell k m * upper.cell m i) / upper.cell i i
      else lower.cell k j := by
  rw [nextLower, cell_ofRows]
  by_cases below : i < k
  · rw [if_pos below]
    by_cases inColumn : j = i
    · rw [if_pos ⟨below, inColumn⟩, inColumn, Fin.getElem_fin, Vector.getElem_set_self]
    · have elsewhere : i.val ≠ j.val := fun same ↦ inColumn (Fin.ext same.symm)
      rw [if_neg fun both ↦ inColumn both.2, Fin.getElem_fin, Vector.getElem_set_ne _ _ elsewhere]
      rfl
  · rw [if_neg below, if_neg fun both ↦ below both.1]
    rfl

theorem factorsFrom_succ (g : Grid Rat n n) {remaining : Nat} (bound : remaining + 1 ≤ n)
    (inside : n - (remaining + 1) < n) (lower upper : Grid Rat n n) :
    g.factorsFrom (remaining + 1) bound lower upper =
      if Cell.negligible ((nextUpper g lower upper ⟨_, inside⟩).cell ⟨_, inside⟩ ⟨_, inside⟩) then
        none
      else
        g.factorsFrom remaining (Nat.le_of_succ_le bound)
          (nextLower g lower (nextUpper g lower upper ⟨_, inside⟩) ⟨_, inside⟩)
          (nextUpper g lower upper ⟨_, inside⟩) := rfl

/-- The factorization of `g` when some rows of the upper factor and as many columns of the lower one
have been found. -/
structure Factored (g lower upper : Grid Rat n n) (done : Nat) : Prop where
  unit : ∀ i, lower.cell i i = 1
  lowerZero : ∀ i j, i < j → lower.cell i j = 0
  upperZero : ∀ i j, j < i → upper.cell i j = 0
  pivots : ∀ i : Fin n, i.val < done → 1 / 10000000000 ≤ |upper.cell i i|
  product : ∀ i j : Fin n, i.val < done ∨ j.val < done →
    (lower.multiply upper).cell i j = g.cell i j

theorem Factored.start (g : Grid Rat n n) : Factored g (identity n) (filled n n 0) 0 := by
  refine ⟨fun i ↦ ?_, fun i j right ↦ ?_, fun i j _ ↦ cell_filled 0 i j,
    fun i none ↦ absurd none (Nat.not_lt_zero i), fun i j none ↦ ?_⟩
  · rw [cell_identity, if_pos rfl]
  · rw [cell_identity, if_neg right.ne]
  · exact absurd none (not_or_intro (Nat.not_lt_zero i) (Nat.not_lt_zero j))

section Next

variable {g lower upper : Grid Rat n n} {k : Fin n}

/-- The lower factor stays a triangle with ones on its diagonal. -/
theorem Factored.nextLower_triangle (state : Factored g lower upper k) (upper' : Grid Rat n n)
    (i j : Fin n) (notBelow : i ≤ j) :
    (nextLower g lower upper' k).cell i j = if i = j then 1 else 0 := by
  have kept : ¬(k < i ∧ j = k) := fun both ↦ absurd (both.2 ▸ notBelow) both.1.not_ge
  rw [cell_nextLower, if_neg kept]
  split_ifs with same
  · rw [same, state.unit]
  · exact state.lowerZero i j (lt_of_le_of_ne notBelow same)

/-- The upper factor stays a triangle. -/
theorem Factored.nextUpper_triangle (state : Factored g lower upper k) (i j : Fin n)
    (below : j < i) : (nextUpper g lower upper k).cell i j = 0 := by
  have kept : ¬(i = k ∧ k ≤ j) := fun both ↦ absurd both.2 (both.1 ▸ below).not_ge
  rw [cell_nextUpper, if_neg kept]
  exact state.upperZero i j below

/-- A cell that is right stays right: where its row and its column meet the new column and the new
row, one of the two is zero before and after. -/
theorem Factored.multiply_kept (state : Factored g lower upper k) (i j : Fin n)
    (found : i < k ∨ j < k) :
    ((nextLower g lower (nextUpper g lower upper k) k).multiply
      (nextUpper g lower upper k)).cell i j = (lower.multiply upper).cell i j := by
  rw [cell_multiply_eq_sum, cell_multiply_eq_sum]
  refine Finset.sum_congr rfl fun m _ ↦ ?_
  by_cases inTurn : m = k
  · subst inTurn
    rcases found with above | left
    · rw [state.nextLower_triangle _ i m above.le, if_neg above.ne, state.lowerZero i m above,
        zero_mul, zero_mul]
    · rw [state.nextUpper_triangle m j left, state.upperZero m j left, mul_zero, mul_zero]
  · rw [cell_nextLower, if_neg fun both ↦ inTurn both.2, cell_nextUpper,
      if_neg fun both ↦ inTurn both.1]

/-- The new row is solved for the cells of its row of the product. -/
theorem Factored.multiply_row (state : Factored g lower upper k) {j : Fin n} (le : k ≤ j) :
    ((nextLower g lower (nextUpper g lower upper k) k).multiply
      (nextUpper g lower upper k)).cell k j = g.cell k j := by
  rw [cell_multiply_eq_sum, sum_eq_sumBelow_add (i := k) fun m behind ↦ by
    rw [state.nextLower_triangle _ k m behind.le, if_neg behind.ne, zero_mul]]
  have terms : (sumBelow k fun m ↦ (nextLower g lower (nextUpper g lower upper k) k).cell k m *
      (nextUpper g lower upper k).cell m j) =
        sumBelow k fun m ↦ lower.cell k m * upper.cell m j :=
    sumBelow_congr fun m before ↦ by
      rw [cell_nextLower, if_neg fun both ↦ lt_irrefl k both.1, cell_nextUpper,
        if_neg fun both ↦ before.ne both.1]
  rw [terms, state.nextLower_triangle _ k k le_rfl, if_pos rfl, one_mul, cell_nextUpper,
    if_pos ⟨rfl, le⟩, add_sub_cancel]

/-- The new column is solved for the cells of its column of the product below the diagonal. -/
theorem Factored.multiply_column (state : Factored g lower upper k)
    (nonzero : (nextUpper g lower upper k).cell k k ≠ 0) {i : Fin n} (below : k < i) :
    ((nextLower g lower (nextUpper g lower upper k) k).multiply
      (nextUpper g lower upper k)).cell i k = g.cell i k := by
  rw [cell_multiply_eq_sum, sum_eq_sumBelow_add (i := k) fun m behind ↦ by
    rw [state.nextUpper_triangle m k behind, mul_zero]]
  have terms : (sumBelow k fun m ↦ (nextLower g lower (nextUpper g lower upper k) k).cell i m *
      (nextUpper g lower upper k).cell m k) =
        sumBelow k fun m ↦ lower.cell i m * (nextUpper g lower upper k).cell m k :=
    sumBelow_congr fun m before ↦ by rw [cell_nextLower, if_neg fun both ↦ before.ne both.2]
  rw [terms, cell_nextLower, if_pos ⟨below, rfl⟩, div_mul_cancel₀ _ nonzero, add_sub_cancel]

theorem Factored.next (state : Factored g lower upper k)
    (large : 1 / 10000000000 ≤ |(nextUpper g lower upper k).cell k k|) :
    Factored g (nextLower g lower (nextUpper g lower upper k) k) (nextUpper g lower upper k)
      (k + 1) := by
  have nonzero : (nextUpper g lower upper k).cell k k ≠ 0 := by
    intro isZero
    rw [isZero, abs_zero] at large
    exact absurd large (by norm_num)
  constructor
  · intro i
    rw [state.nextLower_triangle _ i i le_rfl, if_pos rfl]
  · intro i j right
    rw [state.nextLower_triangle _ i j right.le, if_neg right.ne]
  · exact state.nextUpper_triangle
  · intro i found
    rcases Nat.lt_succ_iff_lt_or_eq.mp found with before | now
    · rw [cell_nextUpper, if_neg fun both ↦ before.ne (congrArg Fin.val both.1)]
      exact state.pivots i before
    · rwa [Fin.ext now]
  · intro i j found
    by_cases before : i < k ∨ j < k
    · rw [state.multiply_kept i j before]
      exact state.product i j before
    · rw [not_or, not_lt, not_lt] at before
      rcases before.1.eq_or_lt with rfl | below
      · exact state.multiply_row before.2
      · obtain rfl : j = k := by omega
        exact state.multiply_column nonzero below

end Next

/-! ### All rows and columns -/

theorem factored_of_factorsFrom {g : Grid Rat n n} (remaining : Nat) (bound : remaining ≤ n)
    {lower upper : Grid Rat n n} (state : Factored g lower upper (n - remaining))
    {sides : Grid Rat n n × Grid Rat n n}
    (found : g.factorsFrom remaining bound lower upper = some sides) :
    Factored g sides.1 sides.2 n := by
  induction remaining generalizing lower upper with
  | zero =>
    obtain rfl := Option.some.inj found
    exact state
  | succ remaining ih =>
    have inside : n - (remaining + 1) < n := by omega
    have counted : n - (remaining + 1) + 1 = n - remaining := by omega
    rw [factorsFrom_succ g bound inside] at found
    split_ifs at found with small
    have next := state.next (k := ⟨_, inside⟩) (not_lt.mp fun below ↦
      small ((negligible_iff _).mpr below))
    dsimp only at next
    rw [counted] at next
    exact ih (Nat.le_of_succ_le bound) next found

theorem factored_of_factors? {g : Grid Rat n n} {sides : Grid Rat n n × Grid Rat n n}
    (found : g.factors? = some sides) : Factored g sides.1 sides.2 n := by
  refine factored_of_factorsFrom n (Nat.le_refl n) ?_ found
  rw [Nat.sub_self]
  exact .start g

theorem Factored.multiply_eq {g lower upper : Grid Rat n n} (state : Factored g lower upper n) :
    lower.multiply upper = g :=
  ext fun i j ↦ state.product i j (.inl i.isLt)

end Grid

namespace Matrix

open RowMajor (square_cases square_grid)

theorem factors_grid {n : Nat} (g : Grid Rat n n) (pos : 0 < n) :
    (⟨n, n, g, pos, pos⟩ : Matrix Rat).factors =
      match g.factors? with
      | some sides => .ok (⟨n, n, sides.1, pos, pos⟩, ⟨n, n, sides.2, pos, pos⟩)
      | none => .error (.malformed .zeroLeadingPivot) := by
  rw [factors, square_grid, ok_bind]
  cases g.factors? <;> rfl

theorem get?_grid {n : Nat} (g : Grid Rat n n) (pos : 0 < n) (i j : Fin n) :
    (⟨n, n, g, pos, pos⟩ : Matrix Rat).get? i j = some (g.cell i j) :=
  dif_pos ⟨i.isLt, j.isLt⟩

/-- Of a square matrix the factors are a lower triangle with ones on its diagonal and an upper
triangle without a negligible cell on its diagonal, and their product is the matrix. -/
theorem factors_exact {m lower upper : Matrix Rat} (factored : m.factors = .ok (lower, upper)) :
    m.cols = m.rows ∧ lower.shape = m.shape ∧ upper.shape = m.shape ∧
      (∀ i j, i < j → j < m.rows → lower.get? i j = some 0 ∧ upper.get? j i = some 0) ∧
      (∀ i, i < m.rows → lower.get? i i = some 1 ∧
        ∃ x, upper.get? i i = some x ∧ 1 / 10000000000 ≤ |x|) ∧
      lower.multiply upper = .ok m := by
  rcases square_cases m with ⟨n, g, pos, rfl⟩ | ⟨-, refused⟩
  · rw [factors_grid] at factored
    rcases found : g.factors? with _ | sides
    · rw [found] at factored
      cases factored
    · rw [found] at factored
      cases factored
      have state := Grid.factored_of_factors? found
      refine ⟨rfl, rfl, rfl, fun i j right inside ↦ ?_, fun i inside ↦ ?_, ?_⟩
      · let row : Fin n := ⟨i, right.trans inside⟩
        let col : Fin n := ⟨j, inside⟩
        exact ⟨(get?_grid sides.1 pos row col).trans (congrArg some (state.lowerZero row col right)),
          (get?_grid sides.2 pos col row).trans (congrArg some (state.upperZero col row right))⟩
      · let row : Fin n := ⟨i, inside⟩
        exact ⟨(get?_grid sides.1 pos row row).trans (congrArg some (state.unit row)),
          _, get?_grid sides.2 pos row row, state.pivots row inside⟩
      · rw [multiply_grid, state.multiply_eq]
  · rw [factors, refused] at factored
    cases factored

/-- The second pivot differs from the cell that stood there, and all cells of the lower factor below
its diagonal are fractions. -/
theorem factors_exact_fractions :
    let m : Matrix Rat :=
      ⟨3, 3, ⟨#v[#v[4, 3, 2], #v[2, 1, 3], #v[3, 4, 1]]⟩, by decide, by decide⟩
    let lower : Matrix Rat :=
      ⟨3, 3, ⟨#v[#v[1, 0, 0], #v[1 / 2, 1, 0], #v[3 / 4, -7 / 2, 1]]⟩, by decide, by decide⟩
    let upper : Matrix Rat :=
      ⟨3, 3, ⟨#v[#v[4, 3, 2], #v[0, -1 / 2, 2], #v[0, 0, 13 / 2]]⟩, by decide, by decide⟩
    m.factors = .ok (lower, upper) ∧ lower.multiply upper = .ok m ∧
      ∃ x, upper.get? 1 1 = some x ∧ 1 / 10000000000 ≤ |x| := by
  intro m lower upper
  have factored : m.factors = .ok (lower, upper) := by decide +kernel
  obtain ⟨-, -, -, -, diagonal, product⟩ := factors_exact factored
  exact ⟨factored, product, (diagonal 1 (by decide)).2⟩

end Matrix

end MatrixCalculator
