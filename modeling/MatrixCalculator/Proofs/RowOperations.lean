import Mathlib
import MatrixCalculator.Matrix.Basic

/-!
# Row operations on exact cells

Over rational cells the steps of elimination are the row operations of linear algebra. Each of them
is described by its cells (`cell_divideRow`, `cell_subtractFromOthers`, `cell_clearBelow`), and each
of those that Gauss-Jordan elimination takes can be done before or after a multiplication from the
right (`swapRows_multiply`, `divideRow_multiply`, `subtractFromOthers_multiply`). Of a pivot it
matters that it is found at or below the row in turn, that it is not zero, and that nothing above
that row has a say in it (`top_le_of_pivotRow?`, `ne_zero_of_pivotRow?`, `pivotRow?_congr`).

`Grid.entries` is a grid as a matrix in the sense of linear algebra.
-/

set_option autoImplicit false

namespace MatrixCalculator.Grid

variable {r c n : Nat}

/-! ### Products -/

section Products

variable {α : Type}

theorem getElem_addMultiple [Add α] [Mul α] (total : Vector α c) (factor : α) (row : Vector α c)
    {j : Nat} (inside : j < c) : (addMultiple total factor row)[j] = total[j] + factor * row[j] := by
  simp [addMultiple]

/-- A cell of a product adds up the products of a row and a column, in the order of the columns of
the left factor. -/
theorem cell_multiply [Add α] [Mul α] [Zero α] (g : Grid α r n) (h : Grid α n c) (i : Fin r)
    (j : Fin c) :
    (g.multiply h).cell i j = Fin.foldl n (fun total k ↦ total + g.cell i k * h.cell k j) 0 := by
  have step (count : Nat) (le : count ≤ n) :
      (Fin.foldl count (fun total k ↦ addMultiple total (g.cell i (k.castLE le))
        (h.row (k.castLE le))) (Vector.replicate c 0))[j] =
      Fin.foldl count
        (fun total k ↦ total + g.cell i (k.castLE le) * h.cell (k.castLE le) j) 0 := by
    induction count with
    | zero => simp
    | succ count ih =>
      rw [Fin.foldl_succ_last, Fin.foldl_succ_last, Fin.getElem_fin, getElem_addMultiple]
      exact congrArg (· + _) (ih (Nat.le_of_succ_le le))
  rw [multiply, cell_ofRows]
  exact step n (Nat.le_refl n)

end Products

theorem foldl_add_eq_sum (count : Nat) (term : Fin count → Rat) :
    Fin.foldl count (fun total k ↦ total + term k) 0 = ∑ k, term k := by
  induction count with
  | zero => rfl
  | succ count ih => rw [Fin.foldl_succ_last, Fin.sum_univ_castSucc, ih]

/-- A cell of an exact product is a sum of products. -/
theorem cell_multiply_eq_sum (g : Grid Rat r n) (h : Grid Rat n c) (i : Fin r) (j : Fin c) :
    (g.multiply h).cell i j = ∑ k, g.cell i k * h.cell k j :=
  (cell_multiply g h i j).trans (foldl_add_eq_sum n fun k ↦ g.cell i k * h.cell k j)

/-- The grid as a matrix in the sense of linear algebra. -/
def entries (g : Grid Rat r c) :=
  Matrix.of g.cell

theorem entries_injective {g h : Grid Rat r c} (same : g.entries = h.entries) : g = h :=
  ext fun i j ↦ congrFun (congrFun same i) j

theorem entries_multiply (g : Grid Rat r n) (h : Grid Rat n c) :
    (g.multiply h).entries = g.entries * h.entries := by
  funext i j
  exact cell_multiply_eq_sum g h i j

theorem entries_identity : (identity n : Grid Rat n n).entries = 1 := by
  funext i j
  exact (cell_identity i j).trans (Matrix.one_apply (i := i)).symm

/-- Of two square grids one is inverse to the other on both sides, or on neither. -/
theorem multiply_eq_identity_comm (g h : Grid Rat n n) :
    g.multiply h = identity n ↔ h.multiply g = identity n := by
  have as_entries (a b : Grid Rat n n) :
      a.multiply b = identity n ↔ a.entries * b.entries = 1 := by
    rw [← entries_multiply, ← entries_identity]
    exact ⟨congrArg entries, fun same ↦ entries_injective same⟩
  rw [as_entries, as_entries, mul_eq_one_comm]

theorem identity_multiply (g : Grid Rat n c) : (identity n).multiply g = g := by
  refine entries_injective ?_
  rw [entries_multiply, entries_identity, Matrix.one_mul]

/-! ### The steps of elimination -/

theorem cell_divideRow (g : Grid Rat r c) (i k : Fin r) (divisor : Rat) (j : Fin c) :
    (g.divideRow i divisor).cell k j =
      if k = i then g.cell k j / divisor else g.cell k j := by
  rw [divideRow, cell_ofRows]
  split_ifs
  · simp [cell]
  · rfl

theorem cell_subtractFromOthers (g : Grid Rat r c) (source i : Fin r) (factor : Fin r → Rat)
    (j : Fin c) :
    (g.subtractFromOthers source factor).cell i j =
      if i = source then g.cell i j else g.cell i j - factor i * g.cell source j := by
  rw [subtractFromOthers, cell_ofRows]
  by_cases isSource : i = source
  · rw [if_pos (Or.inl isSource), if_pos isSource]
    rfl
  · by_cases isZero : factor i = 0
    · have skipped : Cell.isZero (factor i) = true := by simp [Cell.isZero, isZero]
      rw [if_pos (Or.inr skipped), if_neg isSource, isZero, zero_mul, sub_zero]
      rfl
    · have taken : ¬(i = source ∨ Cell.isZero (factor i) = true) := by
        simp [Cell.isZero, isZero, isSource]
      rw [if_neg taken, if_neg isSource, Fin.getElem_fin, Vector.getElem_ofFn]

theorem cell_clearBelow (g : Grid Rat r c) (pivot i : Fin r) (col j : Fin c) :
    (g.clearBelow pivot col).cell i j =
      if pivot < i ∧ col ≤ j then
        g.cell i j - g.cell i col / g.cell pivot col * g.cell pivot j
      else g.cell i j := by
  rw [clearBelow, cell_ofRows]
  by_cases below : pivot < i
  · rw [if_pos below]
    simp only [below, true_and]
    rw [Fin.getElem_fin, Vector.getElem_ofFn]
  · rw [if_neg below]
    simp only [below, false_and, if_false]
    rfl

/-- The second of two rows that are exchanged becomes the first. -/
theorem cell_swapRows_second (g : Grid Rat r c) (a b : Fin r) (j : Fin c) :
    (g.swapRows a b).cell b j = g.cell a j := by
  rw [cell_swapRows]
  by_cases same : b = a
  · rw [if_pos same, same]
  · rw [if_neg same, if_pos rfl]

theorem swapRows_multiply (g : Grid Rat r n) (h : Grid Rat n c) (a b : Fin r) :
    (g.swapRows a b).multiply h = (g.multiply h).swapRows a b := by
  ext i j
  simp only [cell_multiply_eq_sum, cell_swapRows]

theorem divideRow_multiply (g : Grid Rat r n) (h : Grid Rat n c) (i : Fin r) (divisor : Rat) :
    (g.divideRow i divisor).multiply h = (g.multiply h).divideRow i divisor := by
  ext k j
  rw [cell_divideRow, cell_multiply_eq_sum, cell_multiply_eq_sum]
  simp only [cell_divideRow]
  split_ifs
  · rw [Finset.sum_div]
    exact Finset.sum_congr rfl fun l _ ↦ div_mul_eq_mul_div _ _ _
  · rfl

theorem subtractFromOthers_multiply (g : Grid Rat r n) (h : Grid Rat n c) (source : Fin r)
    (factor : Fin r → Rat) :
    (g.subtractFromOthers source factor).multiply h =
      (g.multiply h).subtractFromOthers source factor := by
  ext i j
  rw [cell_subtractFromOthers, cell_multiply_eq_sum, cell_multiply_eq_sum, cell_multiply_eq_sum]
  simp only [cell_subtractFromOthers]
  split_ifs
  · rfl
  · rw [Finset.mul_sum, ← Finset.sum_sub_distrib]
    exact Finset.sum_congr rfl fun l _ ↦ by ring

/-! ### Pivots -/

section Pivots

variable {α : Type} [Cell α] {g h : Grid α r c} {top : Fin r} {col : Fin c}

/-- Of the best row so far and the next one, the one that the search for a pivot goes on with. -/
def better (g : Grid α r c) (top : Fin r) (col : Fin c) (best i : Fin r) : Fin r :=
  if top < i ∧ Cell.magnitudeLE (g.cell best col) (g.cell i col) then i else best

theorem pivotRow_eq (g : Grid α r c) (top : Fin r) (col : Fin c) :
    g.pivotRow top col = (List.finRange r).foldl (g.better top col) top :=
  Fin.foldl_eq_foldl_finRange (g.better top col) top

/-- The search stays at or below the row in turn, and looks at nothing above it. -/
theorem foldl_better (same : ∀ i, top ≤ i → g.cell i col = h.cell i col) (rows : List (Fin r))
    {best : Fin r} (le : top ≤ best) :
    rows.foldl (g.better top col) best = rows.foldl (h.better top col) best ∧
      top ≤ rows.foldl (g.better top col) best := by
  induction rows generalizing best with
  | nil => exact ⟨rfl, le⟩
  | cons i rows ih =>
    rw [List.foldl_cons, List.foldl_cons]
    have next : g.better top col best i = h.better top col best i := by
      by_cases below : top < i
      · rw [better, better, same best le, same i below.le]
      · simp [better, below]
    have stays : top ≤ g.better top col best i := by
      rw [better]
      split_ifs with moves
      · exact moves.1.le
      · exact le
    rw [← next]
    exact ih stays

theorem top_le_pivotRow (g : Grid α r c) (top : Fin r) (col : Fin c) :
    top ≤ g.pivotRow top col := by
  rw [pivotRow_eq]
  exact (foldl_better (fun _ _ ↦ rfl) _ (le_refl top)).2

/-- A pivot depends on its column at and below the row in turn alone. -/
theorem pivotRow?_congr (same : ∀ i, top ≤ i → g.cell i col = h.cell i col) :
    g.pivotRow? top col = h.pivotRow? top col := by
  have sameRow : g.pivotRow top col = h.pivotRow top col := by
    rw [pivotRow_eq, pivotRow_eq]
    exact (foldl_better same _ (le_refl top)).1
  rw [pivotRow?, pivotRow?, ← sameRow, same _ (top_le_pivotRow g top col)]

theorem top_le_of_pivotRow? {pivot : Fin r} (found : g.pivotRow? top col = some pivot) :
    top ≤ pivot := by
  rw [pivotRow?] at found
  split_ifs at found
  obtain rfl := Option.some.inj found
  exact top_le_pivotRow g top col

end Pivots

/-- A pivot is not zero. -/
theorem ne_zero_of_pivotRow? {g : Grid Rat r c} {top pivot : Fin r} {col : Fin c}
    (found : g.pivotRow? top col = some pivot) : g.cell pivot col ≠ 0 := by
  rw [pivotRow?] at found
  split_ifs at found with negligible
  obtain rfl := Option.some.inj found
  intro isZero
  rw [isZero] at negligible
  exact negligible (by simp [Cell.negligible, magnitude])

end MatrixCalculator.Grid
