import MatrixCalculator.Proofs.FlatKernels

/-!
# Elimination on one list of cells

The pivot search, the exchange of rows and the loops that clear a column or divide a row do to the
layout of a grid what the steps of `Matrix.Elimination` do to the grid. Determinant, rank, inverse
and triangular factors follow by induction on the number of columns that remain, so that elimination
in place never leaves the list of cells.
-/

set_option autoImplicit false

namespace MatrixCalculator.RowMajor

variable {α : Type} {r c n : Nat}

/-! ### Exchanging rows -/

theorem swap_flat (g : Grid α r c) (a b : Fin r) (k : Fin c) :
    swap g.flat (a * c + k) (b * c + k) =
      .ok ((g.update a k (g.cell b k)).update b k (g.cell a k)).flat := by
  rw [swap, read_flat g a.isLt k.isLt, ok_bind, read_flat g b.isLt k.isLt, ok_bind,
    write_flat g a.isLt k.isLt, ok_bind]
  exact write_flat _ b.isLt k.isLt _

theorem swapRows_flat (g : Grid α r c) (a b : Fin r) :
    swapRows g.flat c a b = .ok (g.swapRows a b).flat := by
  unfold swapRows
  by_cases same : a = b
  · rw [if_pos (congrArg Fin.val same), same]
    refine congrArg Except.ok (congrArg Grid.flat (Grid.ext fun i j ↦ ?_))
    rw [Grid.cell_swapRows]
    split_ifs with here
    · rw [here]
    · rfl
  · rw [if_neg (mt Fin.ext same)]
    refine loop_eq (fun k ↦ (Grid.ofCells fun i j ↦
      if j.val < k then (g.swapRows a b).cell i j else g.cell i j).flat) (Nat.zero_le c)
      (congrArg Grid.flat ?_) (congrArg Grid.flat ?_) fun k _ inside ↦ ?_
    · ext i j
      simp
    · ext i j
      simp
    · refine (swap_flat _ a b ⟨k, inside⟩).trans (congrArg Except.ok (congrArg Grid.flat ?_))
      ext i j
      simp only [Grid.cell_update, Grid.cell_ofCells, Grid.cell_swapRows, Fin.ext_iff,
        Nat.lt_irrefl, if_false]
      by_cases now : j.val = k
      · obtain rfl : j = ⟨k, inside⟩ := Fin.ext now
        have differ : a.val ≠ b.val := mt Fin.ext same
        simp only [Nat.lt_succ_self, if_true, and_true, Nat.lt_irrefl, if_false]
        split_ifs with ofB ofA
        · exact absurd (ofA.symm.trans ofB) differ
        all_goals rfl
      · have before : j.val < k + 1 ↔ j.val < k := by omega
        simp only [now, before, and_false, if_false]

variable [Cell α]

/-! ### Searching a pivot -/

theorem pivotRow_flat (g : Grid α r c) (top : Fin r) (col : Fin c) :
    pivotRow g.flat r c top col = .ok (g.pivotRow top col).val := by
  refine loop_foldl Fin.val (fun best i above ↦ if_neg fun below ↦ ?_) (fun best i below ↦ ?_) top
  · have := below.1
    omega
  · have inTurn : top < i := below
    rw [read_flat g best.isLt col.isLt, ok_bind, read_flat g i.isLt col.isLt, ok_bind,
      apply_ite Fin.val]
    simp only [inTurn, true_and]
    rfl

theorem pivotRow?_flat (g : Grid α r c) (top : Fin r) (col : Fin c) :
    pivotRow? g.flat r c top col = .ok ((g.pivotRow? top col).map Fin.val) := by
  rw [pivotRow?, pivotRow_flat, ok_bind, read_flat g (g.pivotRow top col).isLt col.isLt, ok_bind,
    Grid.pivotRow?]
  split_ifs <;> rfl

/-! ### Clearing and dividing -/

theorem subtractAt_flat (g : Grid α r c) (target source : Fin r) (k : Fin c) (factor : α) :
    subtractAt g.flat (target * c + k) (source * c + k) factor =
      write g.flat (target * c + k) (g.cell target k - factor * g.cell source k) := by
  rw [subtractAt, read_flat g target.isLt k.isLt, read_flat g source.isLt k.isLt]
  rfl

theorem subtractRow_flat (g : Grid α r c) {target source : Fin r} (apart : source ≠ target)
    {start : Nat} (le : start ≤ c) (factor : α) :
    subtractRow g.flat c start target source factor = .ok (g.setRow target (Vector.ofFn fun j ↦
      if start ≤ j.val then g.cell target j - factor * g.cell source j
      else g.cell target j)).flat := by
  refine loop_columns target le _ fun h k _ still ↦ ?_
  rw [subtractAt_flat, still target k (.inr (le_refl _)), still source k (.inl apart)]

/-- A loop clears a column, if each of its steps subtracts the row of the pivot. -/
theorem clearBelow_flat (g : Grid α r c) (pivot : Fin r) (col : Fin c)
    {step : List α → Nat → Except Fault (List α)}
    (steps : ∀ (h : Grid α r c) (i : Fin r), h.cell pivot col = g.cell pivot col →
      step h.flat i = subtractRow h.flat c col i pivot (h.cell i col / g.cell pivot col)) :
    loop (pivot + 1) r g.flat step = .ok (g.clearBelow pivot col).flat := by
  refine loop_rows pivot.isLt (fun a b above ↦ ?_) fun h i below still ↦ ?_
  · have notBelow : ¬pivot < a := by omega
    rw [Grid.clearBelow, Grid.cell_ofRows, if_neg notBelow]
    rfl
  · have apart : pivot ≠ i := by omega
    rw [steps h i (still pivot col (.inr (by omega))), subtractRow_flat h apart col.isLt.le]
    refine congrArg Except.ok (congrArg (fun row ↦ (h.setRow i row).flat) ?_)
    have inTurn : pivot < i := below
    rw [Grid.clearBelow, Grid.row_ofRows, if_pos inTurn]
    refine Vector.ext fun j inCols ↦ ?_
    simp only [Vector.getElem_ofFn]
    rw [still i ⟨j, inCols⟩ (.inl (le_refl _)), still i col (.inl (le_refl _)),
      still pivot ⟨j, inCols⟩ (.inr (by omega))]
    rfl

theorem divideRow_flat (g : Grid α r c) (i : Fin r) (divisor : α) :
    loop 0 c g.flat (fun cells k ↦ divideAt cells (i * c + k) divisor) =
      .ok (g.divideRow i divisor).flat := by
  rw [loop_columns i (Nat.zero_le c) fun j ↦ g.cell i j / divisor]
  · refine congrArg Except.ok (congrArg Grid.flat (Grid.ext fun a b ↦ ?_))
    rw [Grid.cell_setRow, Grid.divideRow, Grid.cell_ofRows]
    split_ifs with here
    · subst here
      simp [Grid.cell]
    · rfl
  · intro h k _ still
    rw [divideAt, read_flat h i.isLt k.isLt, still i k (.inr (le_refl _))]
    rfl

/-! ### Determinant and rank -/

theorem determinantFrom_flat (remaining : Nat) (bound : remaining ≤ n) (g : Grid α n n) (det : α) :
    determinantFrom n remaining g.flat det = .ok (Grid.determinantFrom remaining bound g det) := by
  induction remaining generalizing g det with
  | zero => rfl
  | succ remaining ih =>
    have inRange : n - (remaining + 1) < n := by omega
    rw [determinantFrom, Grid.determinantFrom]
    have found := pivotRow?_flat g ⟨_, inRange⟩ ⟨_, inRange⟩
    dsimp only at found ⊢
    rw [found]
    rcases g.pivotRow? ⟨_, inRange⟩ ⟨_, inRange⟩ with _ | pivot
    · rfl
    · change (swapRows g.flat n pivot (n - (remaining + 1)) >>= _) = _
      rw [swapRows_flat g pivot ⟨_, inRange⟩, ok_bind, read_flat _ inRange inRange, ok_bind,
        clearBelow_flat _ ⟨_, inRange⟩ ⟨_, inRange⟩]
      · have sign : (if pivot.val = n - (remaining + 1) then det else -det) =
            if pivot = ⟨_, inRange⟩ then det else -det := by simp only [Fin.ext_iff]
        rw [sign]
        exact ih _ _ _
      · intro h i _
        rw [read_flat h i.isLt inRange]
        rfl

theorem determinant_eq (m : Matrix α) :
    m.rowMajor.determinant = m.determinant.mapError .refused := by
  rcases square_cases m with ⟨n, g, pos, rfl⟩ | ⟨refused, refusedToo⟩
  · rw [Matrix.determinant, square_grid, determinant, requireSquare_grid, ok_bind]
    exact determinantFrom_flat n (le_refl n) g 1
  · rw [determinant, refused, Matrix.determinant, refusedToo]
    rfl

theorem rankFrom_flat (remaining : Nat) (bound : remaining ≤ c) (g : Grid α r c) {top : Nat}
    (inRows : top ≤ r) :
    rankFrom r c remaining g.flat top = .ok (Grid.rankFrom remaining bound g top) := by
  induction remaining generalizing g top with
  | zero => rfl
  | succ remaining ih =>
    have inCols : c - (remaining + 1) < c := by omega
    rw [rankFrom, Grid.rankFrom]
    by_cases done : top = r
    · rw [if_pos done, dif_neg (by omega)]
    · have inside : top < r := by omega
      rw [if_neg done, dif_pos inside]
      have found := pivotRow?_flat g ⟨top, inside⟩ ⟨_, inCols⟩
      dsimp only at found ⊢
      rw [found]
      rcases g.pivotRow? ⟨top, inside⟩ ⟨_, inCols⟩ with _ | pivot
      · exact ih _ g inRows
      · change (swapRows g.flat c pivot top >>= _) = _
        rw [swapRows_flat g pivot ⟨top, inside⟩, ok_bind,
          clearBelow_flat _ ⟨top, inside⟩ ⟨_, inCols⟩]
        · exact ih _ _ inside
        · intro h i pivotStays
          rw [read_flat h i.isLt inCols, read_flat h inside inCols, pivotStays]
          rfl

theorem rank_eq (m : Matrix α) : m.rowMajor.rank = .ok m.rank :=
  rankFrom_flat m.cols (le_refl m.cols) m.grid (Nat.zero_le m.rows)

/-! ### Inverse -/

omit [Cell α] in
/-- Two loops side by side. -/
theorem loop_pair {start stop : Nat} {left right left' right' : List α}
    {ofLeft ofRight : List α → Nat → Except Fault (List α)}
    (leftRun : loop start stop left ofLeft = .ok left')
    (rightRun : loop start stop right ofRight = .ok right') :
    (loop start stop (left, right) fun sides k ↦ do
      let left ← ofLeft sides.1 k
      let right ← ofRight sides.2 k
      return (left, right)) = .ok (left', right') := by
  by_cases le : start ≤ stop
  · induction stop, le using Nat.le_induction generalizing left' right' with
    | base =>
      rw [loop_of_le (le_refl start)] at leftRun rightRun ⊢
      rw [Except.ok.inj leftRun, Except.ok.inj rightRun]
    | succ stop le ih =>
      rw [loop_last le] at leftRun rightRun ⊢
      obtain ⟨left₀, leftSoFar, leftLast⟩ := exists_of_bind_eq_ok leftRun
      obtain ⟨right₀, rightSoFar, rightLast⟩ := exists_of_bind_eq_ok rightRun
      rw [ih leftSoFar rightSoFar]
      dsimp only [ok_bind]
      rw [leftLast, ok_bind, rightLast]
      rfl
  · rw [loop_of_le (by omega)] at leftRun rightRun ⊢
    rw [Except.ok.inj leftRun, Except.ok.inj rightRun]

/-- The step for one row, while the rows further down are still as they were. -/
theorem subtractFromOthers_row {g h : Grid α n n} {source i : Fin n} {factor : Fin n → α}
    (apart : i ≠ source) (factor_ne : ¬Cell.isZero (factor i) = true)
    (ofTarget : ∀ b, h.cell i b = g.cell i b) (ofSource : ∀ b, h.cell source b = g.cell source b) :
    subtractRow h.flat n 0 i source (factor i) =
      .ok (h.setRow i ((g.subtractFromOthers source factor).row i)).flat := by
  rw [subtractRow_flat h (Ne.symm apart) (Nat.zero_le n)]
  refine congrArg Except.ok (congrArg (fun row ↦ (h.setRow i row).flat) ?_)
  have subtracted : ¬(i = source ∨ Cell.isZero (factor i) = true) := not_or.mpr ⟨apart, factor_ne⟩
  rw [Grid.subtractFromOthers, Grid.row_ofRows, if_neg subtracted]
  refine Vector.ext fun j inCols ↦ ?_
  simp only [Vector.getElem_ofFn, Nat.zero_le, if_true]
  rw [ofTarget, ofSource]

theorem subtractFromOthers_flat (left right : Grid α n n) (source : Fin n) :
    (loop 0 n (left.flat, right.flat) fun sides row ↦
      if row = source then
        .ok sides
      else do
        let factor ← read sides.1 (row * n + source)
        if Cell.isZero factor then
          return sides
        else
          loop 0 n sides fun sides k ↦ do
            let left ← subtractAt sides.1 (row * n + k) (source * n + k) factor
            let right ← subtractAt sides.2 (row * n + k) (source * n + k) factor
            return (left, right)) =
      .ok ((left.subtractFromOthers source fun i ↦ left.cell i source).flat,
        (right.subtractFromOthers source fun i ↦ left.cell i source).flat) := by
  have skipped (g : Grid α n n) {i : Fin n} {factor : Fin n → α}
      (skip : i = source ∨ Cell.isZero (factor i) = true) :
      (g.subtractFromOthers source factor).row i = g.row i := by
    rw [Grid.subtractFromOthers, Grid.row_ofRows, if_pos skip]
  -- A row takes its factor from the left side before either side of the row changes, and the row
  -- that is subtracted never changes. So all factors are those of the grids at the start.
  generalize isFactor : (fun i ↦ left.cell i source) = factor
  have still (g : Grid α n n) {i : Nat} {a : Fin n} (away : i ≤ a.val ∨ a = source) (b : Fin n) :
      (g.splice (g.subtractFromOthers source factor) 0 i).cell a b = g.cell a b := by
    rw [Grid.cell_splice]
    split_ifs with inside
    · have ofSource : a = source := away.resolve_left (by omega)
      rw [Grid.cell, skipped g (.inl ofSource), Grid.cell]
    · rfl
  refine loop_eq (fun i ↦ ((left.splice (left.subtractFromOthers source factor) 0 i).flat,
    (right.splice (right.subtractFromOthers source factor) 0 i).flat)) (Nat.zero_le n)
    (Prod.ext (congrArg Grid.flat (left.splice_start _ 0).symm)
      (congrArg Grid.flat (right.splice_start _ 0).symm))
    (Prod.ext (congrArg Grid.flat (Grid.splice_all fun _ _ none ↦ absurd none (Nat.not_lt_zero _)))
      (congrArg Grid.flat (Grid.splice_all fun _ _ none ↦ absurd none (Nat.not_lt_zero _))))
    fun i _ inside ↦ ?_
  have advance (skip : (⟨i, inside⟩ : Fin n) = source ∨ Cell.isZero (factor ⟨i, inside⟩) = true)
      (g : Grid α n n) : g.splice (g.subtractFromOthers source factor) 0 (i + 1) =
        g.splice (g.subtractFromOthers source factor) 0 i :=
    Grid.splice_succ_of_row (i := ⟨i, inside⟩) (skipped g skip) 0
  by_cases isSource : i = source.val
  · rw [if_pos isSource, advance (.inl (Fin.ext isSource)), advance (.inl (Fin.ext isSource))]
  · rw [if_neg isSource, read_flat _ inside source.isLt,
      still left (a := ⟨i, inside⟩) (.inl (le_refl i)), congrFun isFactor ⟨i, inside⟩]
    change (if Cell.isZero (factor ⟨i, inside⟩) = true then _ else _) = _
    split_ifs with zero
    · rw [advance (.inr zero), advance (.inr zero)]
      rfl
    · have apart : (⟨i, inside⟩ : Fin n) ≠ source := fun same ↦ isSource (congrArg Fin.val same)
      have row (g : Grid α n n) :
          subtractRow (g.splice (g.subtractFromOthers source factor) 0 i).flat n 0 i source
              (factor ⟨i, inside⟩) =
            .ok (g.splice (g.subtractFromOthers source factor) 0 (i + 1)).flat := by
        have next := g.splice_succ (g.subtractFromOthers source factor) (i := ⟨i, inside⟩)
          (Nat.zero_le i)
        rw [next]
        exact subtractFromOthers_row apart zero (still g (.inl (le_refl i))) (still g (.inr rfl))
      exact loop_pair (row left) (row right)

theorem inverseFrom_flat (remaining : Nat) (bound : remaining ≤ n) (left right : Grid α n n) :
    inverseFrom n remaining left.flat right.flat =
      ((Grid.inverseFrom remaining bound left right).map fun g ↦ g.flat).elim
        (.error (.refused .singular)) .ok := by
  induction remaining generalizing left right with
  | zero => rfl
  | succ remaining ih =>
    have inRange : n - (remaining + 1) < n := by omega
    rw [inverseFrom, Grid.inverseFrom]
    have found := pivotRow?_flat left ⟨_, inRange⟩ ⟨_, inRange⟩
    dsimp only at found ⊢
    rw [found]
    rcases left.pivotRow? ⟨_, inRange⟩ ⟨_, inRange⟩ with _ | pivot
    · rfl
    · change (swapRows left.flat n pivot (n - (remaining + 1)) >>= _) = _
      rw [swapRows_flat left pivot ⟨_, inRange⟩, ok_bind,
        swapRows_flat right pivot ⟨_, inRange⟩, ok_bind, read_flat _ inRange inRange, ok_bind,
        loop_pair (divideRow_flat _ ⟨_, inRange⟩ _) (divideRow_flat _ ⟨_, inRange⟩ _), ok_bind,
        subtractFromOthers_flat _ _ ⟨_, inRange⟩]
      exact ih _ _ _

theorem inverse_eq (m : Matrix α) : m.rowMajor.inverse = laidOut m.inverse := by
  rcases square_cases m with ⟨n, g, pos, rfl⟩ | ⟨refused, refusedToo⟩
  · rw [Matrix.inverse, square_grid, inverse, requireSquare_grid, ok_bind]
    change (identity n >>= fun unit ↦ inverseFrom n n g.flat unit.cells >>= new n n) = _
    rw [identity_flat pos, ok_bind, inverseFrom_flat n (le_refl n)]
    have start : Grid.inverseFrom n (le_refl n) g (Grid.identity n) = g.inverse? := rfl
    rw [start, ok_bind]
    rcases g.inverse? with _ | inverted
    · rfl
    · exact new_flat inverted pos pos
  · rw [inverse, refused, Matrix.inverse, refusedToo]
    rfl

/-! ### Triangular factors -/

theorem sumBelow_eq (i : Fin n) {term : Nat → Except Fault α} (value : Fin n → α)
    (terms : ∀ j : Fin n, j < i → term j = .ok (value j)) :
    sumOf i term = .ok (Grid.sumBelow i value) :=
  sumOf_eq (fun j ↦ value ⟨j, by omega⟩) fun j ↦ terms ⟨j, by omega⟩ j.isLt

/-- The upper factor with its row `i`. -/
def nextUpper (g lower upper : Grid α n n) (i : Fin n) : Grid α n n :=
  upper.setRow i (Vector.ofFn fun j ↦
    if i ≤ j then g.cell i j - Grid.sumBelow i fun m ↦ lower.cell i m * upper.cell m j
    else upper.cell i j)

/-- The lower factor with its column `i`. -/
def nextLower (g lower upper : Grid α n n) (i : Fin n) : Grid α n n :=
  .ofRows fun k ↦
    if i < k then
      (lower.row k).set i ((g.cell k i - Grid.sumBelow i fun m ↦ lower.cell k m * upper.cell m i) /
        upper.cell i i) i.isLt
    else
      lower.row k

theorem nextUpper_flat (g lower upper : Grid α n n) (i : Fin n) :
    (loop i n upper.flat fun cells k ↦ do
      let sum ← sumOf i fun j ↦
        return (← read lower.flat (i * n + j)) * (← read cells (j * n + k))
      let x ← read g.flat (i * n + k)
      write cells (i * n + k) (x - sum)) = .ok (nextUpper g lower upper i).flat := by
  refine loop_columns i i.isLt.le _ fun h k _ still ↦ ?_
  rw [sumBelow_eq i (fun m ↦ lower.cell i m * upper.cell m k) fun m before ↦ ?_]
  · rw [ok_bind, read_flat g i.isLt k.isLt]
    rfl
  · rw [read_flat lower i.isLt m.isLt, read_flat h m.isLt k.isLt, still m k (.inl (by omega))]
    rfl

theorem nextLower_flat (g lower upper : Grid α n n) (i : Fin n) :
    (loop (i + 1) n lower.flat fun cells k ↦ do
      let sum ← sumOf i fun j ↦
        return (← read cells (k * n + j)) * (← read upper.flat (j * n + i))
      let x ← read g.flat (k * n + i)
      let p ← read upper.flat (i * n + i)
      write cells (k * n + i) ((x - sum) / p)) = .ok (nextLower g lower upper i).flat := by
  refine loop_rows i.isLt (fun a b above ↦ ?_) fun h k below still ↦ ?_
  · have notBelow : ¬i < a := by omega
    rw [nextLower, Grid.cell_ofRows, if_neg notBelow]
    rfl
  · rw [sumBelow_eq i (fun m ↦ lower.cell k m * upper.cell m i) fun m before ↦ ?_]
    · rw [ok_bind, read_flat g k.isLt i.isLt, ok_bind, read_flat upper i.isLt i.isLt, ok_bind,
        write_flat h k.isLt i.isLt]
      refine congrArg Except.ok (congrArg Grid.flat (Grid.ext fun a b ↦ ?_))
      have inTurn : i < k := below
      rw [Grid.cell_update, Grid.cell_setRow, nextLower, Grid.row_ofRows, if_pos inTurn]
      by_cases ofRow : a = k
      · subst ofRow
        by_cases ofColumn : b = i
        · simp [ofColumn, Vector.get_eq_getElem]
        · have elsewhere : i.val ≠ b.val := fun same ↦ ofColumn (Fin.ext same.symm)
          have kept := still a b (.inl (le_refl _))
          rw [Grid.cell, Grid.cell] at kept
          simpa [ofColumn, elsewhere, Grid.cell, Vector.get_eq_getElem] using kept
      · simp [ofRow]
    · rw [read_flat h k.isLt m.isLt, read_flat upper m.isLt i.isLt,
        still k m (.inl (le_refl _))]
      rfl

theorem factorsFrom_flat (g : Grid α n n) (remaining : Nat) (bound : remaining ≤ n)
    (lower upper : Grid α n n) :
    factorsFrom n g.flat remaining lower.flat upper.flat =
      ((Grid.factorsFrom g remaining bound lower upper).map fun sides ↦
        (sides.1.flat, sides.2.flat)).elim
          (.error (.refused (.malformed .zeroLeadingPivot))) .ok := by
  induction remaining generalizing lower upper with
  | zero => rfl
  | succ remaining ih =>
    have inRange : n - (remaining + 1) < n := by omega
    have upperRun := nextUpper_flat g lower upper ⟨_, inRange⟩
    have lowerRun := nextLower_flat g lower (nextUpper g lower upper ⟨_, inRange⟩) ⟨_, inRange⟩
    rw [factorsFrom, Grid.factorsFrom]
    dsimp only at upperRun lowerRun ⊢
    have pivot := read_flat (nextUpper g lower upper ⟨_, inRange⟩) inRange inRange
    rw [pivot] at lowerRun
    rw [upperRun, ok_bind, pivot, ok_bind]
    change _ = ((if Cell.negligible ((nextUpper g lower upper ⟨_, inRange⟩).cell ⟨_, inRange⟩
      ⟨_, inRange⟩) then none else _).map _).elim _ _
    split_ifs
    · rfl
    · rw [lowerRun]
      exact ih _ _ _

theorem factors_eq (m : Matrix α) :
    m.rowMajor.factors =
      (m.factors.map fun sides ↦ (sides.1.rowMajor, sides.2.rowMajor)).mapError .refused := by
  rcases square_cases m with ⟨n, g, pos, rfl⟩ | ⟨refused, refusedToo⟩
  · rw [Matrix.factors, square_grid, factors, requireSquare_grid, ok_bind]
    change (identity n >>= fun lower ↦ filled n n 0 >>= fun upper ↦
      factorsFrom n g.flat n lower.cells upper.cells >>= fun sides ↦
        .ok ({ lower with cells := sides.1 }, { upper with cells := sides.2 })) = _
    have zeros : filled n n (0 : α) = .ok ⟨n, n, (Grid.filled n n 0).flat⟩ := by
      rw [filled_eq, Matrix.filled, dif_pos ⟨pos, pos⟩]
      rfl
    rw [identity_flat pos, zeros, ok_bind, ok_bind, ok_bind, factorsFrom_flat g n (le_refl n)]
    have start : Grid.factorsFrom g n (le_refl n) (Grid.identity n) (Grid.filled n n 0) =
      g.factors? := rfl
    rw [start]
    rcases g.factors? with _ | sides
    · rfl
    · rfl
  · rw [factors, refused, Matrix.factors, refusedToo]
    rfl

end MatrixCalculator.RowMajor
