import Mathlib
import MatrixCalculator.Proofs.RowOperations

/-!
# The stages of an elimination

The determinant and the rank clear the columns of a grid from left to right. `Grid.stage` is where
this stands when some columns are done: what has become of the grid, and the row that is next in
turn. A column takes one stage to the next (`Stage.next`), either by its pivot (`pivoted`) or, if it
has none, by leaving all as it is.

A pivot is the candidate of largest magnitude (`abs_le_pivotRow`). One below `1e-10` counts as zero,
and that is harmless where a column is `Decided`: its largest candidate is no smaller than that, or
all of its candidates are zero in truth. Then a column without a pivot is zero from the row in turn
on (`Decided.cell_eq_zero`).
-/

set_option autoImplicit false

namespace MatrixCalculator

/-- Where the elimination of a grid stands: what has become of it, and the row next in turn. -/
structure Stage (r c : Nat) where
  grid : Grid Rat r c
  top : Nat
  deriving DecidableEq

namespace Grid

variable {r c : Nat}

/-! ### The largest candidate -/

theorem magnitude_eq_abs (x : Rat) : magnitude x = |x| := by
  rw [magnitude]
  split_ifs with negative
  · exact (abs_of_neg negative).symm
  · exact (abs_of_nonneg (not_lt.mp negative)).symm

theorem magnitudeLE_iff (x y : Rat) : Cell.magnitudeLE x y = true ↔ |x| ≤ |y| := by
  rw [← magnitude_eq_abs, ← magnitude_eq_abs]
  exact decide_eq_true_iff

theorem negligible_iff (x : Rat) : Cell.negligible x = true ↔ |x| < 1 / 10000000000 := by
  rw [← magnitude_eq_abs]
  exact decide_eq_true_iff

/-- Of two rows the search for a pivot goes on with the one whose cell is larger. -/
theorem abs_le_better (g : Grid Rat r c) (top : Fin r) (col : Fin c) (best i : Fin r) :
    |g.cell best col| ≤ |g.cell (g.better top col best i) col| ∧
      (top < i → |g.cell i col| ≤ |g.cell (g.better top col best i) col|) := by
  rw [better]
  by_cases larger : Cell.magnitudeLE (g.cell best col) (g.cell i col) = true
  · by_cases below : top < i
    · rw [if_pos ⟨below, larger⟩]
      exact ⟨(magnitudeLE_iff _ _).mp larger, fun _ ↦ le_rfl⟩
    · rw [if_neg fun both ↦ below both.1]
      exact ⟨le_rfl, fun below' ↦ absurd below' below⟩
  · rw [if_neg fun both ↦ larger both.2]
    have smaller := not_le.mp fun le ↦ larger ((magnitudeLE_iff _ _).mpr le)
    exact ⟨le_rfl, fun _ ↦ smaller.le⟩

theorem abs_le_foldl_better (g : Grid Rat r c) (top : Fin r) (col : Fin c) (rows : List (Fin r))
    (best : Fin r) :
    |g.cell best col| ≤ |g.cell (rows.foldl (g.better top col) best) col| ∧
      ∀ i ∈ rows, top < i → |g.cell i col| ≤ |g.cell (rows.foldl (g.better top col) best) col| := by
  induction rows generalizing best with
  | nil => exact ⟨le_rfl, fun i inNone ↦ absurd inNone List.not_mem_nil⟩
  | cons next rows ih =>
    obtain ⟨kept, seen⟩ := abs_le_better g top col best next
    obtain ⟨keptByRest, seenByRest⟩ := ih (g.better top col best next)
    rw [List.foldl_cons]
    refine ⟨kept.trans keptByRest, fun i among below ↦ ?_⟩
    rcases List.mem_cons.mp among with rfl | among
    · exact (seen below).trans keptByRest
    · exact seenByRest i among below

/-- No candidate for a pivot is larger than the one that is chosen. -/
theorem abs_le_pivotRow (g : Grid Rat r c) {top i : Fin r} (col : Fin c) (le : top ≤ i) :
    |g.cell i col| ≤ |g.cell (g.pivotRow top col) col| := by
  rw [pivotRow_eq]
  obtain ⟨first, others⟩ := abs_le_foldl_better g top col (List.finRange r) top
  rcases le.eq_or_lt with rfl | below
  · exact first
  · exact others i (List.mem_finRange i) below

/-- Whether a column can be told from a zero column: from the row `top` on, its largest magnitude is
at least the least one of a pivot, or all of its cells are zero. -/
def Decided (g : Grid Rat r c) (top : Fin r) (col : Fin c) : Prop :=
  (∃ i, top ≤ i ∧ 1 / 10000000000 ≤ |g.cell i col|) ∨ ∀ i, top ≤ i → g.cell i col = 0

instance (g : Grid Rat r c) (top : Fin r) (col : Fin c) : Decidable (g.Decided top col) :=
  inferInstanceAs (Decidable (_ ∨ _))

theorem Decided.cell_eq_zero {g : Grid Rat r c} {top i : Fin r} {col : Fin c}
    (decided : g.Decided top col) (missing : g.pivotRow? top col = none) (le : top ≤ i) :
    g.cell i col = 0 := by
  rcases decided with ⟨large, below, least⟩ | zero
  · rw [pivotRow?] at missing
    split_ifs at missing with small
    have largest := least.trans (g.abs_le_pivotRow col below)
    exact absurd ((negligible_iff _).mp small) (not_lt.mpr largest)
  · exact zero i le

/-! ### A column with its pivot -/

/-- What a column makes of a grid by its pivot: the row of the pivot is exchanged for the row in
turn, and the column is cleared below it. -/
def pivoted (g : Grid Rat r c) (top : Fin r) (col : Fin c) (pivot : Fin r) : Grid Rat r c :=
  (g.swapRows pivot top).clearBelow top col

theorem cell_pivoted (g : Grid Rat r c) (top pivot i : Fin r) (col j : Fin c) :
    (g.pivoted top col pivot).cell i j =
      if top < i ∧ col ≤ j then
        (g.swapRows pivot top).cell i j -
          (g.swapRows pivot top).cell i col / g.cell pivot col * g.cell pivot j
      else (g.swapRows pivot top).cell i j := by
  rw [pivoted, cell_clearBelow, cell_swapRows_second, cell_swapRows_second]

/-- The rows above the row in turn are done. -/
theorem cell_pivoted_above (g : Grid Rat r c) {top pivot i : Fin r} (col j : Fin c)
    (le : top ≤ pivot) (above : i < top) : (g.pivoted top col pivot).cell i j = g.cell i j := by
  have notCleared : ¬(top < i ∧ col ≤ j) := fun both ↦ absurd both.1 above.not_gt
  rw [cell_pivoted, if_neg notCleared, cell_swapRows, if_neg (above.trans_le le).ne,
    if_neg above.ne]

/-- The row in turn becomes the row of the pivot. -/
theorem cell_pivoted_top (g : Grid Rat r c) (top pivot : Fin r) (col j : Fin c) :
    (g.pivoted top col pivot).cell top j = g.cell pivot j := by
  have notCleared : ¬(top < top ∧ col ≤ j) := fun both ↦ lt_irrefl top both.1
  rw [cell_pivoted, if_neg notCleared, cell_swapRows_second]

/-- Columns that are zero from the row in turn on stay so, and the column in turn becomes one below
its pivot. -/
theorem cell_pivoted_below {g : Grid Rat r c} {top pivot i : Fin r} {col j : Fin c}
    (le : top ≤ pivot) (nonzero : g.cell pivot col ≠ 0)
    (zero : ∀ k j, top ≤ k → j < col → g.cell k j = 0) (below : top < i) (done : j ≤ col) :
    (g.pivoted top col pivot).cell i j = 0 := by
  rw [cell_pivoted]
  rcases done.eq_or_lt with rfl | before
  · rw [if_pos ⟨below, le_rfl⟩, div_mul_cancel₀ _ nonzero, sub_self]
  · rw [if_neg fun both ↦ absurd both.2 before.not_ge, cell_swapRows]
    refine zero _ j ?_ before
    split_ifs
    · exact le_rfl
    · exact le
    · exact below.le

/-- Where the columns before it are zero from the row in turn on, clearing a column takes a multiple
of the row of the pivot off every row below, from the first column to the last. -/
theorem cell_pivoted_of_zero {g : Grid Rat r c} {top pivot : Fin r} {col : Fin c}
    (le : top ≤ pivot) (zero : ∀ k j, top ≤ k → j < col → g.cell k j = 0) (i : Fin r) (j : Fin c) :
    (g.pivoted top col pivot).cell i j = (g.swapRows pivot top).cell i j -
      (if top < i then (g.swapRows pivot top).cell i col / g.cell pivot col else 0) *
        (g.swapRows pivot top).cell top j := by
  rw [cell_pivoted, cell_swapRows_second]
  by_cases below : top < i
  · rw [if_pos below]
    by_cases right : col ≤ j
    · rw [if_pos ⟨below, right⟩]
    · rw [if_neg fun both ↦ right both.2, zero pivot j le (not_le.mp right), mul_zero, sub_zero]
  · rw [if_neg below, if_neg fun both ↦ below both.1, zero_mul, sub_zero]

/-- An exchange of rows is a permutation of them. -/
theorem entries_swapRows (g : Grid Rat r c) (a b : Fin r) :
    (g.swapRows a b).entries = g.entries.submatrix (Equiv.swap a b) id := by
  funext i j
  exact (cell_swapRows g a b i j).trans (congrArg (g.cell · j) (Equiv.swap_apply_def a b i).symm)

end Grid

/-! ### Columns in turn -/

namespace Stage

variable {r c : Nat}

/-- The stage after one more column. When the rows are used up, nothing is left to do. -/
def next (s : Stage r c) (col : Fin c) : Stage r c :=
  if inside : s.top < r then
    match s.grid.pivotRow? ⟨s.top, inside⟩ col with
    | none => s
    | some pivot => ⟨s.grid.pivoted ⟨s.top, inside⟩ col pivot, s.top + 1⟩
  else
    s

/-- Whether the column in turn can be told from a zero column, if a row is left. -/
def Decided (s : Stage r c) (col : Fin c) : Prop :=
  ∀ inside : s.top < r, s.grid.Decided ⟨s.top, inside⟩ col

instance (s : Stage r c) (col : Fin c) : Decidable (s.Decided col) :=
  inferInstanceAs (Decidable (∀ _ : s.top < r, _))

theorem next_of_pivot {s : Stage r c} {row pivot : Fin r} {col : Fin c} (inTurn : s.top = row)
    (found : s.grid.pivotRow? row col = some pivot) :
    s.next col = ⟨s.grid.pivoted row col pivot, row + 1⟩ := by
  obtain ⟨g, top⟩ := s
  obtain rfl : top = row := inTurn
  rw [next, dif_pos row.isLt, found]

theorem next_of_missing {s : Stage r c} {row : Fin r} {col : Fin c} (inTurn : s.top = row)
    (missing : s.grid.pivotRow? row col = none) : s.next col = s := by
  obtain ⟨g, top⟩ := s
  obtain rfl : top = row := inTurn
  rw [next, dif_pos row.isLt, missing]

theorem next_of_not_lt {s : Stage r c} (col : Fin c) (usedUp : ¬s.top < r) : s.next col = s :=
  dif_neg usedUp

theorem Decided.cell_eq_zero {s : Stage r c} {row i : Fin r} {col : Fin c}
    (decided : s.Decided col) (inTurn : s.top = row)
    (missing : s.grid.pivotRow? row col = none) (le : row ≤ i) : s.grid.cell i col = 0 := by
  obtain ⟨g, top⟩ := s
  obtain rfl : top = row := inTurn
  exact (decided row.isLt).cell_eq_zero missing le

end Stage

namespace Grid

variable {r c : Nat}

/-- The stage of the elimination of a grid when as many of its columns are done. -/
def stage (g : Grid Rat r c) : Nat → Stage r c
  | 0 => ⟨g, 0⟩
  | col + 1 => if inside : col < c then (g.stage col).next ⟨col, inside⟩ else g.stage col

theorem stage_succ (g : Grid Rat r c) {col : Nat} (inside : col < c) :
    g.stage (col + 1) = (g.stage col).next ⟨col, inside⟩ :=
  dif_pos inside

end Grid

end MatrixCalculator
