import MatrixCalculator.Matrix.RowMajor
import MatrixCalculator.Proofs.TokenReading
import Mathlib.Data.List.Basic
import Mathlib.Tactic.Ring

/-!
# Kernels on one list of cells

The kernels of `RowMajor` compute on the cells of a matrix, laid out row by row (`Matrix.rowMajor`),
what the operations of `Matrix` compute, and no access is out of bounds. Reading and writing a
position of the layout is reading and writing a cell (`read_flat`, `write_flat`), and a loop is
described by what it has reached before each of its steps (`loop_eq`), or by the fold that it
computes (`loop_foldl`). Most loops fill a row or put one row after the other in place
(`loop_columns`, `loop_rows`).
-/

set_option autoImplicit false

namespace MatrixCalculator

/-! ### The layout -/

namespace Grid

variable {α : Type} {r c : Nat}

/-- The cells, row by row. -/
def flat (g : Grid α r c) : List α :=
  g.toRows.flatten

/-- The grid with another cell in a row and a column. -/
def update (g : Grid α r c) (i : Fin r) (j : Fin c) (x : α) : Grid α r c :=
  ofCells fun a b ↦ if a = i ∧ b = j then x else g.cell a b

/-- The grid with another row. -/
def setRow (g : Grid α r c) (i : Fin r) (row : Vector α c) : Grid α r c :=
  ofRows fun a ↦ if a = i then row else g.row a

@[simp] theorem cell_update (g : Grid α r c) (i a : Fin r) (j b : Fin c) (x : α) :
    (g.update i j x).cell a b = if a = i ∧ b = j then x else g.cell a b :=
  cell_ofCells _ a b

@[simp] theorem cell_setRow (g : Grid α r c) (i a : Fin r) (row : Vector α c) (b : Fin c) :
    (g.setRow i row).cell a b = if a = i then row.get b else g.cell a b := by
  rw [setRow, cell_ofRows]
  split_ifs <;> rfl

@[simp] theorem row_setRow (g : Grid α r c) (i : Fin r) (row : Vector α c) :
    (g.setRow i row).row i = row := by
  rw [setRow, row_ofRows, if_pos rfl]

@[simp] theorem setRow_setRow (g : Grid α r c) (i : Fin r) (row row' : Vector α c) :
    (g.setRow i row).setRow i row' = g.setRow i row' := by
  ext a b
  simp only [cell_setRow]
  split_ifs <;> rfl

/-- The grid with the rows from `start` up to `stop` taken from another grid. -/
def splice (g new : Grid α r c) (start stop : Nat) : Grid α r c :=
  ofRows fun a ↦ if start ≤ a.val ∧ a.val < stop then new.row a else g.row a

@[simp] theorem cell_splice (g new : Grid α r c) (start stop : Nat) (a : Fin r) (b : Fin c) :
    (g.splice new start stop).cell a b =
      if start ≤ a.val ∧ a.val < stop then new.cell a b else g.cell a b := by
  rw [splice, cell_ofRows]
  split_ifs <;> rfl

theorem splice_start (g new : Grid α r c) (start : Nat) : g.splice new start start = g := by
  ext a b
  rw [cell_splice, if_neg (by omega)]

theorem splice_all {g new : Grid α r c} {start : Nat}
    (same : ∀ a b, a.val < start → new.cell a b = g.cell a b) : g.splice new start r = new := by
  ext a b
  rw [cell_splice]
  split_ifs with inside
  · rfl
  · exact (same a b (by omega)).symm

theorem splice_succ (g new : Grid α r c) {start : Nat} {i : Fin r} (le : start ≤ i.val) :
    g.splice new start (i.val + 1) = (g.splice new start i.val).setRow i (new.row i) := by
  ext a b
  rw [cell_splice, cell_setRow, cell_splice]
  by_cases here : a = i
  · subst here
    rw [if_pos ⟨le, Nat.lt_succ_self _⟩, if_pos rfl]
    rfl
  · have same : a.val < i.val + 1 ↔ a.val < i.val := by omega
    simp only [if_neg here, same]

theorem splice_succ_of_row {g new : Grid α r c} {i : Fin r} (same : new.row i = g.row i)
    (start : Nat) : g.splice new start (i.val + 1) = g.splice new start i.val := by
  ext a b
  rw [cell_splice, cell_splice]
  by_cases here : a = i
  · have kept : new.cell a b = g.cell a b := by rw [here, cell, same, cell]
    rw [kept, ite_self, ite_self]
  · have before : a.val < i.val + 1 ↔ a.val < i.val := by omega
    simp only [before]

/-- Where all parts are of one length, a position falls into the part that the length tells. -/
theorem getElem?_flatten {rows : List (List α)} (sameLength : ∀ row ∈ rows, row.length = c)
    (i : Nat) {j : Nat} (inRow : j < c) :
    rows.flatten[i * c + j]? = rows[i]?.bind fun row ↦ row[j]? := by
  induction rows generalizing i with
  | nil => simp
  | cons row rest ih =>
    rw [List.forall_mem_cons] at sameLength
    rw [List.flatten_cons]
    cases i with
    | zero =>
      rw [Nat.zero_mul, Nat.zero_add, List.getElem?_append_left (sameLength.1 ▸ inRow)]
      rfl
    | succ i =>
      have behind : row.length ≤ (i + 1) * c + j := by
        rw [sameLength.1, Nat.succ_mul]
        omega
      have position : (i + 1) * c + j - row.length = i * c + j := by
        rw [sameLength.1, Nat.succ_mul]
        omega
      rw [List.getElem?_append_right behind, position, ih sameLength.2]
      rfl

theorem length_of_mem_toRows (g : Grid α r c) : ∀ row ∈ g.toRows, row.length = c := by
  simp [toRows]

theorem length_flat (g : Grid α r c) : g.flat.length = r * c := by
  have rowLengths : g.toRows.map List.length = List.replicate r c := by
    rw [List.eq_replicate_iff]
    refine ⟨by simp [toRows], fun length isMem ↦ ?_⟩
    obtain ⟨row, isRow, rfl⟩ := List.mem_map.mp isMem
    exact g.length_of_mem_toRows row isRow
  rw [flat, List.length_flatten, rowLengths, List.sum_replicate_nat]

theorem getElem?_flat (g : Grid α r c) {i j : Nat} (inRows : i < r) (inCols : j < c) :
    g.flat[i * c + j]? = some (g.cell ⟨i, inRows⟩ ⟨j, inCols⟩) := by
  rw [flat, getElem?_flatten g.length_of_mem_toRows i inCols]
  simp [toRows, cell, row, inRows, inCols]

/-- A list of as many cells, each in its place, is the layout. -/
theorem eq_flat {g : Grid α r c} {cells : List α} (length : cells.length = r * c)
    (same : ∀ (i : Fin r) (j : Fin c), cells[i.val * c + j.val]? = some (g.cell i j)) :
    cells = g.flat := by
  refine List.ext_getElem? fun p ↦ ?_
  by_cases inside : p < r * c
  · have some : 0 < c := Nat.pos_of_mul_pos_left (Nat.zero_lt_of_lt inside)
    have inRows : p / c < r := Nat.div_lt_of_lt_mul (Nat.mul_comm r c ▸ inside)
    have inCols : p % c < c := Nat.mod_lt p some
    have position : p = p / c * c + p % c := by
      rw [Nat.mul_comm]
      exact (Nat.div_add_mod p c).symm
    rw [position, same ⟨p / c, inRows⟩ ⟨p % c, inCols⟩, getElem?_flat g inRows inCols]
  · rw [List.getElem?_eq_none (by omega), List.getElem?_eq_none (by rw [length_flat]; omega)]

/-- Two positions are the same only in the same row and the same column. -/
theorem position_inj {i a j b : Nat} (inCols : j < c) (inColsToo : b < c) :
    a * c + b = i * c + j ↔ a = i ∧ b = j := by
  refine ⟨fun same ↦ ?_, fun ⟨row, col⟩ ↦ by rw [row, col]⟩
  have ofRow : a = i := by
    have divided := congrArg (· / c) same
    have some : 0 < c := Nat.zero_lt_of_lt inCols
    simpa [Nat.mul_comm _ c, Nat.mul_add_div some, Nat.div_eq_of_lt inCols,
      Nat.div_eq_of_lt inColsToo] using divided
  subst ofRow
  exact ⟨rfl, by omega⟩

theorem flat_filled (r c : Nat) (x : α) : List.replicate (r * c) x = (filled r c x).flat := by
  refine eq_flat (List.length_replicate) fun i j ↦ ?_
  rw [List.getElem?_replicate, if_pos (Matrix.position_lt i j), cell_filled]

theorem flat_map {β : Type} (f : α → β) (g : Grid α r c) : g.flat.map f = (g.map f).flat := by
  refine eq_flat (by rw [List.length_map, length_flat]) fun i j ↦ ?_
  rw [List.getElem?_map, g.getElem?_flat i.isLt j.isLt, cell_map, Option.map_some]

theorem flat_zipWith (f : α → α → α) (g h : Grid α r c) :
    g.flat.zipWith f h.flat = (g.zipWith f h).flat := by
  refine eq_flat (by rw [List.length_zipWith, length_flat, length_flat, min_self]) fun i j ↦ ?_
  rw [List.getElem?_zipWith, g.getElem?_flat i.isLt j.isLt, h.getElem?_flat i.isLt j.isLt,
    cell_zipWith]

theorem flat_aligned {r' c' : Nat} (g : Grid α r' c') (rows : r = r') (cols : c = c') :
    (ofCells fun i j ↦ g.cell (i.cast rows) (j.cast cols)).flat = g.flat := by
  subst rows cols
  exact congrArg flat (ext fun i j ↦ cell_ofCells _ i j)

end Grid

/-- The layout of a matrix in one list. -/
def Matrix.rowMajor {α : Type} (m : Matrix α) : RowMajor α :=
  ⟨m.rows, m.cols, m.cells⟩

namespace RowMajor

variable {α β σ τ : Type} {r c n : Nat}

/-! ### Access -/

theorem read_flat (g : Grid α r c) {i j : Nat} (inRows : i < r) (inCols : j < c) :
    read g.flat (i * c + j) = .ok (g.cell ⟨i, inRows⟩ ⟨j, inCols⟩) := by
  rw [read, g.getElem?_flat inRows inCols]

theorem write_flat (g : Grid α r c) {i j : Nat} (inRows : i < r) (inCols : j < c) (x : α) :
    write g.flat (i * c + j) x = .ok (g.update ⟨i, inRows⟩ ⟨j, inCols⟩ x).flat := by
  have inside : i * c + j < r * c := Matrix.position_lt ⟨i, inRows⟩ ⟨j, inCols⟩
  rw [write, if_pos (g.length_flat ▸ inside)]
  refine congrArg Except.ok (Grid.eq_flat ?_ fun a b ↦ ?_)
  · rw [List.length_set, g.length_flat]
  · have same := Grid.position_inj (i := i) (a := a.val) inCols b.isLt
    rw [List.getElem?_set, Grid.cell_update, g.length_flat]
    by_cases here : i * c + j = a.val * c + b.val
    · have place := same.mp here.symm
      rw [if_pos here, if_pos inside, if_pos ⟨Fin.ext place.1, Fin.ext place.2⟩]
    · have elsewhere : ¬(a = ⟨i, inRows⟩ ∧ b = ⟨j, inCols⟩) := by
        rintro ⟨rfl, rfl⟩
        exact here rfl
      rw [if_neg here, if_neg elsewhere, g.getElem?_flat a.isLt b.isLt]

/-! ### Loops -/

theorem loop_of_le {start stop : Nat} (le : stop ≤ start) (init : σ)
    (step : σ → Nat → Except Fault σ) : loop start stop init step = .ok init := by
  rw [loop, Nat.sub_eq_zero_of_le le]
  rfl

theorem loop_last {start stop : Nat} (le : start ≤ stop) (init : σ)
    (step : σ → Nat → Except Fault σ) :
    loop start (stop + 1) init step =
      loop start stop init step >>= fun state ↦ step state stop := by
  have more : stop + 1 - start = stop - start + 1 := by omega
  have last : start + 1 * (stop - start) = stop := by omega
  rw [loop, loop, more, List.range'_concat, List.foldlM_append, last]
  simp

/-- A loop goes through the states `f start`, `f (start + 1)` and so on, if each of its steps leads
from one to the next. -/
theorem loop_eq (f : Nat → σ) {start stop : Nat} {init result : σ}
    {step : σ → Nat → Except Fault σ} (le : start ≤ stop) (first : init = f start)
    (last : f stop = result)
    (steps : ∀ k, start ≤ k → k < stop → step (f k) k = .ok (f (k + 1))) :
    loop start stop init step = .ok result := by
  subst first last
  induction stop, le using Nat.le_induction with
  | base => exact loop_of_le (le_refl start) _ _
  | succ stop le ih =>
    rw [loop_last le, ih fun k first last ↦ steps k first (by omega)]
    exact steps stop le (Nat.lt_succ_self stop)

theorem foldl_of_idle {move : τ → Fin n → τ} (idle : ∀ t k, move t k = t) (init : τ) :
    Fin.foldl n move init = init := by
  induction n with
  | zero => exact Fin.foldl_zero move init
  | succ n ih => rw [Fin.foldl_succ_last, ih fun t k ↦ idle t k.castSucc, idle]

/-- A loop computes a fold, if each of its steps does what the fold does there and the fold does
nothing below the start of the loop. -/
theorem loop_foldl (layout : τ → σ) {move : τ → Fin n → τ} {step : σ → Nat → Except Fault σ}
    {start : Nat} (idle : ∀ t (k : Fin n), k.val < start → move t k = t)
    (steps : ∀ t (k : Fin n), start ≤ k.val →
      step (layout t) k.val = .ok (layout (move t k))) (init : τ) :
    loop start n (layout init) step = .ok (layout (Fin.foldl n move init)) := by
  induction n with
  | zero => rw [Fin.foldl_zero, loop_of_le (Nat.zero_le start)]
  | succ n ih =>
    by_cases inside : start ≤ n
    · rw [loop_last inside, ih (fun t k ↦ idle t k.castSucc) fun t k ↦ steps t k.castSucc,
        Fin.foldl_succ_last]
      exact steps _ (Fin.last n) inside
    · have still : Fin.foldl (n + 1) move init = init :=
        foldl_of_idle (fun t k ↦ idle t k (by have := k.isLt; omega)) init
      rw [still, loop_of_le (by omega)]

/-- A loop over the columns from `start` on writes one cell of a row after the other, if each of
its steps does so wherever the cells to the right and those of the other rows are still as they
were. -/
theorem loop_columns {g : Grid α r c} (i : Fin r) {start : Nat} (le : start ≤ c)
    {step : List α → Nat → Except Fault (List α)} (value : Fin c → α)
    (steps : ∀ (h : Grid α r c) (k : Fin c), start ≤ k.val →
      (∀ a b, a ≠ i ∨ k.val ≤ b.val → h.cell a b = g.cell a b) →
      step h.flat k = write h.flat (i * c + k) (value k)) :
    loop start c g.flat step = .ok (g.setRow i
      (Vector.ofFn fun j ↦ if start ≤ j.val then value j else g.cell i j)).flat := by
  refine loop_eq (fun k ↦ (g.setRow i (Vector.ofFn fun j ↦
    if start ≤ j.val ∧ j.val < k then value j else g.cell i j)).flat) le
    (congrArg Grid.flat ?_) (congrArg Grid.flat ?_) fun k first inside ↦ ?_
  · ext a b
    rw [Grid.cell_setRow]
    split_ifs with here
    · subst here
      have none : ¬(start ≤ b.val ∧ b.val < start) := by omega
      simp [none]
    · rfl
  · ext a b
    simp [Grid.cell_setRow]
  · rw [steps _ ⟨k, inside⟩ first fun a b away ↦ ?_, write_flat _ i.isLt inside]
    · refine congrArg Except.ok (congrArg Grid.flat ?_)
      ext a b
      rw [Grid.cell_update, Grid.cell_setRow, Grid.cell_setRow]
      by_cases here : a = i
      · subst here
        by_cases now : b = ⟨k, inside⟩
        · simp [now, first]
        · have notNow : b.val ≠ k := fun same ↦ now (Fin.ext same)
          have same : b.val < k + 1 ↔ b.val < k := by omega
          simp only [now, and_false, if_false, if_true, Vector.get_ofFn, same]
      · have elsewhere : ¬(a = ⟨i.val, i.isLt⟩ ∧ b = ⟨k, inside⟩) := fun place ↦ here place.1
        rw [if_neg elsewhere, if_neg here, if_neg here]
    · rw [Grid.cell_setRow]
      split_ifs with here
      · subst here
        have later : ¬b.val < k := Nat.not_lt.mpr (away.resolve_left (not_not.mpr rfl))
        simp [later]
      · rfl

/-- A loop over the rows from `start` on puts one row of a grid after the other in place, if each of
its steps does so wherever the rows further down are still as they were. -/
theorem loop_rows {g new : Grid α r c} {start : Nat} (le : start ≤ r)
    {step : List α → Nat → Except Fault (List α)}
    (same : ∀ a b, a.val < start → new.cell a b = g.cell a b)
    (steps : ∀ (h : Grid α r c) (i : Fin r), start ≤ i.val →
      (∀ a b, i.val ≤ a.val ∨ a.val < start → h.cell a b = g.cell a b) →
      step h.flat i = .ok (h.setRow i (new.row i)).flat) :
    loop start r g.flat step = .ok new.flat := by
  refine loop_eq (fun i ↦ (g.splice new start i).flat) le
    (congrArg Grid.flat (g.splice_start new start).symm)
    (congrArg Grid.flat (Grid.splice_all same)) fun i first inside ↦ ?_
  rw [steps _ ⟨i, inside⟩ first fun a b away ↦ ?_]
  · refine congrArg Except.ok (congrArg Grid.flat ?_)
    exact (g.splice_succ new (i := ⟨i, inside⟩) first).symm
  · rw [Grid.cell_splice, if_neg (by change i ≤ a.val ∨ _ at away; omega)]

/-- What is listed row by row is a layout, if each value is the cell of a grid. -/
theorem collect_eq {g : Grid α r c} {rows cols : Span} {value : Nat → Nat → Except Fault α}
    (height : rows.stop = rows.start + r) (width : cols.stop = cols.start + c)
    (values : ∀ (i : Fin r) (j : Fin c),
      value (rows.start + i.val) (cols.start + j.val) = .ok (g.cell i j)) :
    collect rows cols value = .ok g.flat := by
  refine loop_eq (fun i ↦ g.flat.take ((i - rows.start) * c)) (by omega) (by simp) ?_ ?_
  · rw [height, Nat.add_sub_cancel_left, List.take_of_length_le (le_of_eq g.length_flat)]
  · intro i first last
    obtain ⟨a, rfl⟩ := Nat.exists_eq_add_of_le first
    have inRows : a < r := by omega
    rw [Nat.add_sub_cancel_left]
    refine loop_eq (fun j ↦ g.flat.take (a * c + (j - cols.start))) (by omega) (by simp) ?_ ?_
    · have next : rows.start + a + 1 - rows.start = a + 1 := by omega
      rw [width, Nat.add_sub_cancel_left, next, Nat.succ_mul]
    · intro j first last
      obtain ⟨b, rfl⟩ := Nat.exists_eq_add_of_le first
      have inCols : b < c := by omega
      have next : a * c + (cols.start + b + 1 - cols.start) = a * c + b + 1 := by omega
      rw [values ⟨a, inRows⟩ ⟨b, inCols⟩, Nat.add_sub_cancel_left, next, List.take_add_one,
        g.getElem?_flat inRows inCols]
      rfl

/-! ### Building -/

/-- The layout of a matrix, or the reason for which there is no matrix. -/
def laidOut (result : Except MatrixError (Matrix α)) : Except Fault (RowMajor α) :=
  (result.map Matrix.rowMajor).mapError .refused

theorem new_eq (rows cols : Nat) (cells : List α) :
    new rows cols cells = laidOut (Matrix.ofCells rows cols cells.toArray) := by
  unfold new Matrix.ofCells
  by_cases none : rows = 0 ∨ cols = 0
  · have notPositive : ¬(0 < rows ∧ 0 < cols) := by omega
    rw [if_pos none, dif_neg notPositive]
    rfl
  · have positive : 0 < rows ∧ 0 < cols := by omega
    rw [if_neg none, dif_pos positive]
    by_cases complete : cells.length = rows * cols
    · have completeToo : cells.toArray.size = rows * cols := complete
      rw [if_neg (not_not.mpr complete), dif_pos completeToo]
      refine congrArg Except.ok (congrArg (RowMajor.mk rows cols) (Grid.eq_flat complete ?_))
      intro i j
      rw [Grid.cell_ofCells]
      exact List.getElem?_eq_getElem _
    · have incomplete : ¬cells.toArray.size = rows * cols := complete
      rw [if_pos complete, dif_neg incomplete]
      rfl

theorem new_flat (g : Grid α r c) (rows_pos : 0 < r) (cols_pos : 0 < c) :
    new r c g.flat = .ok (Matrix.rowMajor ⟨r, c, g, rows_pos, cols_pos⟩) := by
  have some : ¬(r = 0 ∨ c = 0) := by omega
  rw [new, if_neg some, if_neg (not_not.mpr g.length_flat)]
  rfl

theorem ofRows_eq (rows : List (List α)) : ofRows rows = laidOut (Matrix.ofRows rows) := by
  unfold ofRows Matrix.ofRows
  dsimp only
  generalize rows.zipIdx.find? (fun row ↦ row.1.length != (rows.head?.map List.length).getD 0) =
    found
  rcases found with _ | ⟨row, index⟩
  · exact new_eq _ _ _
  · rfl

theorem scalar_eq (x : α) : scalar x = (Matrix.scalar x).rowMajor := by
  have same : [x] = (Grid.filled 1 1 x).flat := Grid.flat_filled 1 1 x
  rw [scalar, same]
  rfl

theorem filled_eq (rows cols : Nat) (x : α) :
    filled rows cols x = laidOut (Matrix.filled rows cols x) := by
  unfold filled Matrix.filled
  split_ifs with positive
  · rw [Grid.flat_filled, new_flat _ positive.1 positive.2]
    rfl
  · have none : rows = 0 ∨ cols = 0 := by omega
    rw [new, if_pos none]
    rfl

theorem identity_eq [Zero α] [One α] (size : Nat) :
    identity (α := α) size = laidOut (Matrix.identity size) := by
  unfold identity Matrix.identity
  split_ifs with positive
  · rw [filled_eq, Matrix.filled, dif_pos ⟨positive, positive⟩]
    change (loop 0 size (Grid.filled size size (0 : α)).flat fun cells i ↦
      write cells (i * size + i) 1) >>= _ = _
    have ones : (loop 0 size (Grid.filled size size (0 : α)).flat fun cells i ↦
        write cells (i * size + i) 1) = .ok (Grid.identity size : Grid α size size).flat := by
      refine loop_eq
        (fun k ↦ (Grid.ofCells fun i j : Fin size ↦ if i = j ∧ i.val < k then (1 : α) else 0).flat)
        (Nat.zero_le size) (congrArg Grid.flat ?_) (congrArg Grid.flat ?_) fun k _ inside ↦ ?_
      · ext i j
        simp
      · ext i j
        simp
      · rw [write_flat _ inside inside]
        refine congrArg Except.ok (congrArg Grid.flat ?_)
        ext i j
        rw [Grid.cell_update, Grid.cell_ofCells, Grid.cell_ofCells]
        by_cases diagonal : i = j
        · subst diagonal
          by_cases here : i.val = k
          · simp [Fin.ext_iff, here]
          · have same : i.val < k + 1 ↔ i.val < k := by omega
            simp [Fin.ext_iff, here, same]
        · have elsewhere : ¬(i = ⟨k, inside⟩ ∧ j = ⟨k, inside⟩) :=
            fun place ↦ diagonal (place.1.trans place.2.symm)
          simp [diagonal, elsewhere]
    rw [ones]
    rfl
  · have none : ¬(0 < size ∧ 0 < size) := by omega
    rw [filled_eq, Matrix.filled, dif_neg none]
    rfl

theorem identity_flat [Zero α] [One α] (pos : 0 < n) :
    identity (α := α) n = .ok ⟨n, n, (Grid.identity n : Grid α n n).flat⟩ := by
  rw [identity_eq, Matrix.identity, dif_pos pos]
  rfl

/-! ### Cell by cell -/

variable (m : Matrix α)

theorem slice_of_row {i : Nat} (inRows : i < m.rows) :
    m.rowMajor.row i = .ok (m.grid.row ⟨i, inRows⟩).toList := by
  have whole : (i + 1) * m.cols ≤ m.rows * m.cols := Nat.mul_le_mul_right _ inRows
  have length : m.rowMajor.cells.length = m.rows * m.cols := m.grid.length_flat
  have width : (i + 1) * m.cols - i * m.cols = m.cols := by
    rw [Nat.succ_mul, Nat.add_sub_cancel_left]
  unfold row slice
  rw [if_pos ⟨Nat.mul_le_mul_right _ (Nat.le_succ i), by rw [length]; exact whole⟩]
  refine congrArg Except.ok (List.ext_getElem? fun j ↦ ?_)
  rw [Span.length, List.getElem?_take, List.getElem?_drop]
  change (if j < (i + 1) * m.cols - i * m.cols then m.grid.flat[i * m.cols + j]? else none) = _
  rw [width]
  split_ifs with inCols
  · rw [m.grid.getElem?_flat inRows inCols]
    simp [Grid.cell, inCols]
  · simp [inCols]

theorem map_eq (f : α → β) : m.rowMajor.map f = (m.map f).rowMajor :=
  congrArg (RowMajor.mk m.rows m.cols) (m.grid.flat_map f)

theorem zipWith_eq (operation : String) (f : α → α → α) (left right : Matrix α) :
    zipWith operation f left.rowMajor right.rowMajor =
      laidOut (left.zipWith operation f right) := by
  unfold zipWith Matrix.zipWith
  by_cases same : left.rows = right.rows ∧ left.cols = right.cols
  · have shapes : left.rowMajor.shape = right.rowMajor.shape := Prod.ext same.1 same.2
    rw [if_pos shapes, dif_pos same]
    refine congrArg Except.ok (congrArg (RowMajor.mk left.rows left.cols) ?_)
    have cells : right.rowMajor.cells = _ := (right.grid.flat_aligned same.1 same.2).symm
    rw [cells]
    exact left.grid.flat_zipWith f _
  · have shapes : ¬left.rowMajor.shape = right.rowMajor.shape :=
      fun shapes ↦ same (Prod.mk.inj shapes)
    rw [if_neg shapes, dif_neg same]
    rfl

theorem transpose_eq : m.rowMajor.transpose = .ok m.transpose.rowMajor := by
  have turned : collect ⟨0, m.cols⟩ ⟨0, m.rows⟩
      (fun j i ↦ read m.rowMajor.cells (i * m.cols + j)) = .ok m.grid.transpose.flat := by
    refine collect_eq (Nat.zero_add _).symm (Nat.zero_add _).symm fun j i ↦ ?_
    rw [Nat.zero_add, Nat.zero_add, Grid.cell_transpose]
    exact read_flat m.grid i.isLt j.isLt
  unfold transpose
  change collect ⟨0, m.cols⟩ ⟨0, m.rows⟩
    (fun j i ↦ read m.rowMajor.cells (i * m.cols + j)) >>= _ = _
  rw [turned]
  rfl

theorem subRange_eq (rows cols : Span) :
    m.rowMajor.subRange rows cols = laidOut (m.subRange rows cols) := by
  unfold subRange Matrix.subRange
  by_cases inside : (rows.start < rows.stop ∧ rows.stop ≤ m.rows) ∧
      cols.start < cols.stop ∧ cols.stop ≤ m.cols
  · have allowed : ¬(rows.stop ≤ rows.start ∨ m.rowMajor.rows < rows.stop ∨
        cols.stop ≤ cols.start ∨ m.rowMajor.cols < cols.stop) := by
      change ¬(_ ∨ m.rows < _ ∨ _ ∨ m.cols < _)
      omega
    rw [if_neg allowed, dif_pos inside]
    have height : rows.stop = rows.start + rows.length := by
      rw [Span.length]
      omega
    have width : cols.stop = cols.start + cols.length := by
      rw [Span.length]
      omega
    rw [collect_eq (g := Grid.ofCells fun i j ↦ m.grid.cell ⟨rows.start + i.val, by omega⟩
      ⟨cols.start + j.val, by omega⟩) height width fun i j ↦ ?_]
    · exact new_flat _ (by omega) (by omega)
    · rw [Grid.cell_ofCells]
      exact read_flat m.grid _ _
  · have refused : rows.stop ≤ rows.start ∨ m.rowMajor.rows < rows.stop ∨
        cols.stop ≤ cols.start ∨ m.rowMajor.cols < cols.stop := by
      change _ ∨ m.rows < _ ∨ _ ∨ m.cols < _
      omega
    rw [if_pos refused, dif_neg inside]
    rfl

theorem toList_row_transpose (g : Grid α r c) (j : Fin c) :
    (g.transpose.row j).toList = g.column j := by
  refine List.ext_getElem (by simp [Grid.column]) fun i inRow inColumn ↦ ?_
  simp [Grid.transpose, Grid.ofCells, Grid.ofRows, Grid.column, Grid.cell, Grid.row]

theorem row_transpose {j : Nat} (inCols : j < m.cols) :
    m.transpose.rowMajor.row j = .ok (m.grid.column ⟨j, inCols⟩) :=
  (slice_of_row m.transpose inCols).trans (congrArg Except.ok (toList_row_transpose m.grid _))

theorem columnSummary_eq (f : List α → α) :
    m.rowMajor.columnSummary f =
      .ok ⟨1, m.cols, (Grid.ofCells fun (_ : Fin 1) j ↦ f (m.grid.column j)).flat⟩ := by
  have summaries : ((List.range m.cols).mapM fun j ↦ do
      return f (← m.transpose.rowMajor.row j)) =
        .ok (Grid.ofCells fun (_ : Fin 1) j ↦ f (m.grid.column j)).flat := by
    refine mapM_eq_ok_iff.mpr (List.forall₂_iff_get.mpr ⟨?_, fun j inRange inCells ↦ ?_⟩)
    · rw [List.length_range, Grid.length_flat, Nat.one_mul]
    · have inCols : j < m.cols := by rwa [List.length_range] at inRange
      have summary := (Grid.ofCells fun (_ : Fin 1) j ↦ f (m.grid.column j)).getElem?_flat
        Nat.one_pos inCols
      rw [Nat.zero_mul, Nat.zero_add, Grid.cell_ofCells] at summary
      rw [List.get_eq_getElem, List.get_eq_getElem, List.getElem_range, row_transpose m inCols,
        (List.getElem?_eq_some_iff.mp summary).2]
      rfl
  unfold columnSummary
  rw [transpose_eq]
  change ((List.range m.cols).mapM fun j ↦ do return f (← m.transpose.rowMajor.row j)) >>= _ = _
  rw [summaries]
  change new 1 (Grid.flat _).length _ = _
  rw [Grid.length_flat, Nat.one_mul]
  exact new_flat _ Nat.one_pos m.cols_pos

/-! ### Products -/

/-- The innermost loop adds to a row a multiple of a row of the right factor. -/
theorem loop_addMultiple [Add α] [Mul α] (g : Grid α r c) (right : Grid α n c) (i : Fin r)
    (k : Fin n) (factor : α) :
    (loop 0 c g.flat fun cells j ↦ do
      let total ← read cells (i * c + j)
      let y ← read right.flat (k * c + j)
      write cells (i * c + j) (total + factor * y)) =
        .ok (g.setRow i (Grid.addMultiple (g.row i) factor (right.row k))).flat := by
  rw [loop_columns i (Nat.zero_le c) fun j ↦ g.cell i j + factor * right.cell k j]
  · refine congrArg Except.ok (congrArg Grid.flat (Grid.ext fun a b ↦ ?_))
    rw [Grid.cell_setRow, Grid.cell_setRow]
    split_ifs
    · simp [Grid.addMultiple, Grid.cell, Vector.get_eq_getElem]
    · rfl
  · intro h j _ still
    rw [read_flat h i.isLt j.isLt, read_flat right k.isLt j.isLt, still i j (.inr (le_refl _))]
    rfl

/-- The loop over the columns of the left factor makes a row of zeros a row of the product. -/
theorem loop_productRow [Add α] [Mul α] [Zero α] (g : Grid α r c) (left : Grid α r n)
    (right : Grid α n c) (i : Fin r) :
    (loop 0 n (g.setRow i (Vector.replicate c 0)).flat fun cells k ↦ do
      let x ← read left.flat (i * n + k)
      loop 0 c cells fun cells j ↦ do
        let total ← read cells (i * c + j)
        let y ← read right.flat (k * c + j)
        write cells (i * c + j) (total + x * y)) =
          .ok (g.setRow i ((left.multiply right).row i)).flat := by
  rw [Grid.multiply, Grid.row_ofRows]
  refine loop_foldl (fun total ↦ (g.setRow i total).flat)
    (fun _ k none ↦ absurd none (Nat.not_lt_zero _)) (fun total k _ ↦ ?_) _
  rw [read_flat left i.isLt k.isLt, ok_bind, loop_addMultiple, Grid.row_setRow, Grid.setRow_setRow]

theorem multiply_flat [Add α] [Mul α] [Zero α] (left : Grid α r n) (right : Grid α n c)
    (rows_pos : 0 < r) (cols_pos : 0 < c) :
    multiply ⟨r, n, left.flat⟩ ⟨n, c, right.flat⟩ = .ok ⟨r, c, (left.multiply right).flat⟩ := by
  have products : (loop 0 r (Grid.filled r c (0 : α)).flat fun cells i ↦
      loop 0 n cells fun cells k ↦ do
        let x ← read left.flat (i * n + k)
        loop 0 c cells fun cells j ↦ do
          let total ← read cells (i * c + j)
          let y ← read right.flat (k * c + j)
          write cells (i * c + j) (total + x * y)) = .ok (left.multiply right).flat := by
    refine loop_rows (Nat.zero_le r) (fun a b none ↦ absurd none (Nat.not_lt_zero _))
      fun h i _ still ↦ ?_
    -- The row in turn has not been touched, so the sums of its cells start from zeros.
    have zeros : h = h.setRow i (Vector.replicate c 0) := by
      ext a b
      rw [Grid.cell_setRow]
      split_ifs with here
      · rw [still a b (.inl (by rw [here])), Grid.cell_filled]
        simp
      · rfl
    conv_lhs => rw [zeros]
    exact loop_productRow h left right i
  rw [multiply, if_neg (not_not.mpr rfl)]
  change loop 0 r (List.replicate (r * c) 0) _ >>= _ = _
  rw [Grid.flat_filled, products]
  exact new_flat _ rows_pos cols_pos

theorem multiply_eq [Add α] [Mul α] [Zero α] (left right : Matrix α) :
    left.rowMajor.multiply right.rowMajor = laidOut (left.multiply right) := by
  obtain ⟨rows, n, g, rows_pos, _⟩ := left
  obtain ⟨n', cols, h, _, cols_pos⟩ := right
  by_cases fits : n = n'
  · subst fits
    rw [Matrix.multiply, dif_pos (by rfl)]
    exact multiply_flat g h rows_pos cols_pos
  · rw [Matrix.multiply, dif_neg fits]
    exact if_pos fits

theorem powerFrom_flat [Add α] [Mul α] [Zero α] (exponent : Nat) (base result : Grid α n n)
    (pos : 0 < n) :
    powerFrom exponent ⟨n, n, base.flat⟩ ⟨n, n, result.flat⟩ =
      .ok ⟨n, n, (Grid.powerFrom exponent base result).flat⟩ := by
  induction exponent using Nat.strongRecOn generalizing base result with
  | ind exponent ih =>
    rw [powerFrom, Grid.powerFrom, multiply_flat result base pos pos,
      multiply_flat base base pos pos]
    by_cases done : exponent = 0
    · rw [if_pos done, if_pos done]
    · rw [if_neg done, if_neg done]
      have less : exponent / 2 < exponent := by omega
      split_ifs <;> exact ih _ less _ _

/-- A matrix is square, or both kinds of kernels refuse it. -/
theorem square_cases (m : Matrix α) :
    (∃ (n : Nat) (g : Grid α n n) (pos : 0 < n), m = ⟨n, n, g, pos, pos⟩) ∨
      m.rowMajor.requireSquare = .error (.refused (.notSquare m.rows m.cols)) ∧
        m.square = .error (.notSquare m.rows m.cols) := by
  obtain ⟨rows, cols, g, rows_pos, cols_pos⟩ := m
  by_cases same : rows = cols
  · subst same
    exact .inl ⟨rows, g, rows_pos, rfl⟩
  · exact .inr ⟨if_neg same, dif_neg (Ne.symm same)⟩

theorem requireSquare_grid (g : Grid α n n) (pos : 0 < n) :
    (⟨n, n, g, pos, pos⟩ : Matrix α).rowMajor.requireSquare = .ok () :=
  if_pos rfl

theorem square_grid (g : Grid α n n) (pos : 0 < n) :
    (⟨n, n, g, pos, pos⟩ : Matrix α).square = .ok g :=
  dif_pos rfl

theorem power_eq [Cell α] (exponent : Nat) :
    m.rowMajor.power exponent = laidOut (m.power exponent) := by
  rcases square_cases m with ⟨n, g, pos, rfl⟩ | ⟨refused, refusedToo⟩
  · rw [Matrix.power, square_grid, power, requireSquare_grid, ok_bind]
    change (identity n >>= fun unit ↦ powerFrom exponent ⟨n, n, g.flat⟩ unit) = _
    rw [identity_flat pos]
    exact powerFrom_flat exponent g _ pos
  · rw [power, refused, Matrix.power, refusedToo]
    rfl

/-! ### Sums -/

variable [Cell α]

theorem sumOf_eq {bound : Nat} {term : Nat → Except Fault α} (value : Fin bound → α)
    (terms : ∀ j : Fin bound, term j = .ok (value j)) :
    sumOf bound term = .ok (MatrixCalculator.sumOf bound value) :=
  loop_foldl id (fun _ j none ↦ absurd none (Nat.not_lt_zero _)) (fun total j _ ↦ by
    rw [terms j]
    rfl) _

theorem trace_eq : m.rowMajor.trace = m.trace.mapError .refused := by
  rcases square_cases m with ⟨n, g, pos, rfl⟩ | ⟨refused, refusedToo⟩
  · rw [Matrix.trace, square_grid, trace, requireSquare_grid, ok_bind]
    have sum : sumOf n (fun i ↦ read g.flat (i * n + i)) = .ok g.trace :=
      sumOf_eq (fun i ↦ g.cell i i) fun i ↦ read_flat g i.isLt i.isLt
    exact sum
  · rw [trace, refused, Matrix.trace, refusedToo]
    rfl

end RowMajor

end MatrixCalculator
