import Mathlib
import MatrixCalculator.Proofs.EliminationStages

/-!
# Ranks of exact matrices

The rank counts the rows that elimination finds a pivot for. Its invariant is `Echelon`: the rows
span what they did at the start, each row that has its pivot has it further to the right than the
rows above it and nothing but zeros below, and the rows that wait for one are zero in the columns
that are done. A column keeps it, with a pivot or, where it can be told from a zero column, without
(`Echelon.next`). In the end all columns are done or all rows have their pivots. Either way the grid
is in row echelon form, and the rows with a pivot are those that are not zero (`Echelon.rank_eq`). So
what `Matrix.rank` counts is the dimension of the row space (`Matrix.rank_exact`).
-/

set_option autoImplicit false

namespace MatrixCalculator

namespace Grid

variable {r c : Nat}

/-- The space that the rows span. -/
def rowSpace (g : Grid Rat r c) : Submodule Rat (Fin c → Rat) :=
  Submodule.span Rat (Set.range g.entries.row)

theorem row_mem_rowSpace (g : Grid Rat r c) (i : Fin r) : g.entries.row i ∈ g.rowSpace :=
  Submodule.subset_span ⟨i, rfl⟩

theorem rowSpace_le {g h : Grid Rat r c} (rows : ∀ i, g.entries.row i ∈ h.rowSpace) :
    g.rowSpace ≤ h.rowSpace := by
  rw [rowSpace, Submodule.span_le]
  rintro _ ⟨i, rfl⟩
  exact rows i

theorem rowSpace_swapRows (g : Grid Rat r c) (a b : Fin r) :
    (g.swapRows a b).rowSpace = g.rowSpace := by
  have rows : (g.swapRows a b).entries.row = g.entries.row ∘ Equiv.swap a b := by
    rw [entries_swapRows]
    rfl
  rw [rowSpace, rows, (Equiv.swap a b).surjective.range_comp, rowSpace]

/-- A column with its pivot leaves the row space as it is. -/
theorem rowSpace_pivoted {g : Grid Rat r c} {top pivot : Fin r} {col : Fin c} (le : top ≤ pivot)
    (zero : ∀ i j, top ≤ i → j < col → g.cell i j = 0) :
    (g.pivoted top col pivot).rowSpace = g.rowSpace := by
  let factor (i : Fin r) : Rat :=
    if top < i then (g.swapRows pivot top).cell i col / g.cell pivot col else 0
  have taken (i : Fin r) : (g.pivoted top col pivot).entries.row i =
      (g.swapRows pivot top).entries.row i -
        factor i • (g.swapRows pivot top).entries.row top :=
    funext fun j ↦ cell_pivoted_of_zero le zero i j
  have kept : (g.pivoted top col pivot).entries.row top =
      (g.swapRows pivot top).entries.row top := by
    rw [taken, show factor top = 0 from if_neg (lt_irrefl top), zero_smul, sub_zero]
  rw [← rowSpace_swapRows g pivot top]
  refine le_antisymm (rowSpace_le fun i ↦ ?_) (rowSpace_le fun i ↦ ?_)
  · rw [taken]
    exact sub_mem (row_mem_rowSpace _ i) (Submodule.smul_mem _ _ (row_mem_rowSpace _ top))
  · have back := sub_add_cancel ((g.swapRows pivot top).entries.row i)
      (factor i • (g.swapRows pivot top).entries.row top)
    rw [← taken, ← kept] at back
    rw [← back]
    exact add_mem (row_mem_rowSpace _ i) (Submodule.smul_mem _ _ (row_mem_rowSpace _ top))

/-- Row `i` has its pivot in column `lead`: it is zero before that column, and the rows below it are
zero up to that column. -/
structure Leads (g : Grid Rat r c) (i : Fin r) (lead : Fin c) : Prop where
  nonzero : g.cell i lead ≠ 0
  before : ∀ j, j < lead → g.cell i j = 0
  below : ∀ k j, i < k → j ≤ lead → g.cell k j = 0

/-- The elimination of `a` when some columns are done. -/
structure Echelon (a : Grid Rat r c) (s : Stage r c) (done : Nat) : Prop where
  top_le : s.top ≤ r
  rowSpace_eq : s.grid.rowSpace = a.rowSpace
  waiting : ∀ (i : Fin r) (j : Fin c), s.top ≤ i → j.val < done → s.grid.cell i j = 0
  leads : ∀ i : Fin r, i.val < s.top → ∃ lead : Fin c, lead.val < done ∧ s.grid.Leads i lead

theorem Echelon.start (a : Grid Rat r c) : Echelon a (a.stage 0) 0 :=
  ⟨Nat.zero_le r, rfl, fun _ j _ none ↦ absurd none (Nat.not_lt_zero j),
    fun i none ↦ absurd none (Nat.not_lt_zero i)⟩

/-- A row that waits is zero in a further column. -/
theorem Echelon.succ {a : Grid Rat r c} {s : Stage r c} {col : Fin c} (echelon : Echelon a s col)
    (zero : ∀ i : Fin r, s.top ≤ i → s.grid.cell i col = 0) : Echelon a s (col + 1) := by
  refine ⟨echelon.top_le, echelon.rowSpace_eq, fun i j waits done ↦ ?_, fun i above ↦ ?_⟩
  · rcases Nat.lt_succ_iff_lt_or_eq.mp done with before | now
    · exact echelon.waiting i j waits before
    · obtain rfl : j = col := Fin.ext now
      exact zero i waits
  · obtain ⟨lead, before, leads⟩ := echelon.leads i above
    exact ⟨lead, Nat.lt_succ_of_lt before, leads⟩

theorem Leads.pivoted {g : Grid Rat r c} {top pivot i : Fin r} {col lead : Fin c}
    (leads : g.Leads i lead) (above : i < top) (left : lead < col) (le : top ≤ pivot) :
    (g.pivoted top col pivot).Leads i lead := by
  constructor
  · rw [cell_pivoted_above g col lead le above]
    exact leads.nonzero
  · intro j before
    rw [cell_pivoted_above g col j le above]
    exact leads.before j before
  · intro k j below upTo
    have notCleared : ¬(top < k ∧ col ≤ j) := fun both ↦ absurd both.2 (upTo.trans_lt left).not_ge
    rw [cell_pivoted, if_neg notCleared, cell_swapRows]
    refine leads.below _ j ?_ upTo
    split_ifs
    · exact above
    · exact above.trans_le le
    · exact below

theorem Echelon.next_of_pivot {a : Grid Rat r c} {s : Stage r c} {row pivot : Fin r} {col : Fin c}
    (echelon : Echelon a s col) (inTurn : s.top = row)
    (found : s.grid.pivotRow? row col = some pivot) : Echelon a (s.next col) (col + 1) := by
  have le := top_le_of_pivotRow? found
  have nonzero := ne_zero_of_pivotRow? found
  have zero (i : Fin r) (j : Fin c) (waits : row ≤ i) (before : j < col) :
      s.grid.cell i j = 0 := echelon.waiting i j (inTurn ▸ waits) before
  have below (k : Fin r) (j : Fin c) (lower : row < k) (upTo : j ≤ col) :
      (s.grid.pivoted row col pivot).cell k j = 0 :=
    cell_pivoted_below le nonzero zero lower upTo
  rw [Stage.next_of_pivot inTurn found]
  refine ⟨row.isLt, (rowSpace_pivoted le zero).trans echelon.rowSpace_eq,
    fun k j waits done ↦ ?_, fun i above ↦ ?_⟩
  · exact below k j waits (Nat.lt_succ_iff.mp done)
  · rcases Nat.lt_succ_iff_lt_or_eq.mp above with before | now
    · obtain ⟨lead, left, leads⟩ := echelon.leads i (inTurn ▸ before)
      exact ⟨lead, Nat.lt_succ_of_lt left, leads.pivoted before left le⟩
    · obtain rfl : i = row := Fin.ext now
      refine ⟨col, Nat.lt_succ_self col, ?_, fun j before ↦ ?_, below⟩
      · rwa [cell_pivoted_top]
      · rw [cell_pivoted_top]
        exact zero pivot j le before

/-- A column keeps the echelon, if it can be told from a zero column. -/
theorem Echelon.next {a : Grid Rat r c} {s : Stage r c} {col : Fin c} (echelon : Echelon a s col)
    (decided : s.Decided col) : Echelon a (s.next col) (col + 1) := by
  by_cases inside : s.top < r
  · rcases found : s.grid.pivotRow? ⟨s.top, inside⟩ col with _ | pivot
    · rw [Stage.next_of_missing rfl found]
      exact echelon.succ fun i waits ↦ decided.cell_eq_zero rfl found waits
    · exact echelon.next_of_pivot rfl found
  · rw [Stage.next_of_not_lt col inside]
    exact echelon.succ fun i waits ↦ absurd (waits.trans_lt i.isLt) inside

theorem echelon_stage {a : Grid Rat r c} (decided : ∀ col : Fin c, (a.stage col).Decided col)
    {done : Nat} (le : done ≤ c) : Echelon a (a.stage done) done := by
  induction done with
  | zero => exact .start a
  | succ done ih =>
    rw [stage_succ a le]
    exact Echelon.next (ih (Nat.le_of_succ_le le)) (decided ⟨done, le⟩)

/-! ### All columns -/

/-- Once no row is left, the count stays. -/
theorem rankFrom_of_not_lt (remaining : Nat) (bound : remaining ≤ c) (g : Grid Rat r c) {top : Nat}
    (usedUp : ¬top < r) : rankFrom remaining bound g top = top := by
  cases remaining with
  | zero => rfl
  | succ remaining => rw [rankFrom, dif_neg usedUp]

/-- What is counted from any stage on is the row that is next in turn at the end. -/
theorem rankFrom_stage (a : Grid Rat r c) (remaining : Nat) (bound : remaining ≤ c) :
    rankFrom remaining bound (a.stage (c - remaining)).grid (a.stage (c - remaining)).top =
      (a.stage c).top := by
  induction remaining with
  | zero => rfl
  | succ remaining ih =>
    obtain ⟨col, here⟩ : ∃ col : Fin c, col.val = c - (remaining + 1) := ⟨⟨_, by omega⟩, rfl⟩
    have counted : c - remaining = col + 1 := by omega
    have following := ih (Nat.le_of_succ_le bound)
    rw [counted, a.stage_succ col.isLt] at following
    rw [← following, rankFrom]
    simp only [← here]
    by_cases inside : (a.stage col).top < r
    · rw [dif_pos inside]
      rcases found : (a.stage col).grid.pivotRow? ⟨_, inside⟩ col with _ | pivot
      · rw [Stage.next_of_missing rfl found]
      · rw [Stage.next_of_pivot rfl found]
        rfl
    · rw [dif_neg inside, Stage.next_of_not_lt col inside, rankFrom_of_not_lt _ _ _ inside]

theorem rank_eq_top (a : Grid Rat r c) : a.rank = (a.stage c).top := by
  have whole := a.rankFrom_stage c (Nat.le_refl c)
  rwa [Nat.sub_self] at whole

/-- Of each row it is known where its pivot is, or that it has none. -/
theorem Echelon.exists_lead {a : Grid Rat r c} {s : Stage r c} (echelon : Echelon a s c)
    (i : Fin r) : ∃ lead : WithTop (Fin c), (lead ≠ ⊤ ↔ i.val < s.top) ∧
      (∀ j : Fin c, (j : WithTop (Fin c)) < lead → s.grid.entries i j = 0) ∧
        ∀ j : Fin c, lead = j → s.grid.entries i j ≠ 0 := by
  by_cases above : i.val < s.top
  · obtain ⟨lead, -, leads⟩ := echelon.leads i above
    refine ⟨lead, iff_of_true (WithTop.coe_ne_top) above, fun j before ↦ ?_, fun j same ↦ ?_⟩
    · exact leads.before j (WithTop.coe_lt_coe.mp before)
    · rw [← WithTop.coe_inj.mp same]
      exact leads.nonzero
  · refine ⟨⊤, iff_of_false (fun notTop ↦ notTop rfl) above, fun j _ ↦ ?_, fun j same ↦ ?_⟩
    · exact echelon.waiting i j (not_lt.mp above) j.isLt
    · exact absurd same WithTop.top_ne_coe

theorem Echelon.isRowEchelon {a : Grid Rat r c} {s : Stage r c} (echelon : Echelon a s c) :
    s.grid.entries.IsRowEchelon := by
  intro i k lower j zero
  by_cases above : i.val < s.top
  · obtain ⟨lead, -, leads⟩ := echelon.leads i above
    exact leads.below k j lower (not_lt.mp fun left ↦ leads.nonzero (zero lead left))
  · exact echelon.waiting k j ((not_lt.mp above).trans lower.le) j.isLt

/-- At the end the rows with a pivot are as many as the dimension of the row space. -/
theorem Echelon.rank_eq {a : Grid Rat r c} {s : Stage r c} (echelon : Echelon a s c) :
    Module.finrank Rat a.rowSpace = s.top := by
  choose lead isLead before nonzero using echelon.exists_lead
  have pivoted : s.grid.entries.IsPivotedBy lead :=
    ⟨echelon.isRowEchelon, fun i ↦ ⟨before i, nonzero i⟩⟩
  rw [← echelon.rowSpace_eq, rowSpace, ← Matrix.rank_eq_finrank_span_row, pivoted.rank_eq]
  simp only [isLead]
  rw [Fin.card_filter_val_lt, min_eq_right echelon.top_le]

end Grid

namespace Matrix

/-- The rank of a matrix is the dimension of its row space, where each column that elimination
comes to can be told from a zero column. -/
theorem rank_exact (m : Matrix Rat)
    (decided : ∀ col : Fin m.cols, (m.grid.stage col).Decided col) :
    m.rank = Module.finrank Rat (Submodule.span Rat (Set.range m.grid.entries.row)) := by
  rw [rank, m.grid.rank_eq_top]
  exact (Grid.echelon_stage decided (Nat.le_refl m.cols)).rank_eq.symm

/-- The second column has no pivot, and the last row is the sum of the others. -/
theorem rank_exact_skipped_column :
    let m : Matrix Rat :=
      ⟨3, 4, ⟨#v[#v[0, 0, 1, 2], #v[3, 6, 1, 4], #v[3, 6, 2, 6]]⟩, by decide, by decide⟩
    (∀ col : Fin 4, (m.grid.stage col).Decided col) ∧
      m.rank = Module.finrank Rat (Submodule.span Rat (Set.range m.grid.entries.row)) ∧
        m.rank = 2 := by
  intro m
  have decided : ∀ col : Fin 4, (m.grid.stage col).Decided col := by decide +kernel
  exact ⟨decided, rank_exact m decided, by decide +kernel⟩

end Matrix

end MatrixCalculator
