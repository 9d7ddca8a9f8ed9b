import MatrixCalculator.Proofs.ResultSizes
import MatrixCalculator.Proofs.RowMajorValues

/-!
# Cutting out rows and columns

A value can be cut to a span of rows and a span of columns if neither is empty and both end inside
its shape. What comes out is known from its kind, its shape, its cells and its labels
(`Value.IsCut.unique`), and these are those of the value, counted from where the spans start
(`Value.isCut_of_subRange`). So what is cut out of a cut is cut out of the value as well, at spans
that are moved on by the starts of the outer ones (`Value.IsCut.trans`). `Value.subRange_exact` sums
this up, also for values that are laid out in one list.
-/

set_option autoImplicit false

namespace MatrixCalculator

namespace Span

/-- Whether a span is not empty and ends within a size. -/
def Fits (s : Span) (size : Nat) : Prop :=
  s.start < s.stop ∧ s.stop ≤ size

/-- The span of the same indices, counted from another one. -/
def shift (s : Span) (origin : Nat) : Span :=
  ⟨origin + s.start, origin + s.stop⟩

theorem length_shift (s : Span) (origin : Nat) : (s.shift origin).length = s.length :=
  Nat.add_sub_add_left origin s.stop s.start

/-- An index within a span that fits is an index below the size. -/
theorem Fits.add_lt {s : Span} {size i : Nat} (fits : s.Fits size) (inside : i < s.length) :
    s.start + i < size := by
  rw [length] at inside
  rw [Fits] at fits
  omega

/-- A span within a span that fits does so too. -/
theorem Fits.shift {inner outer : Span} {size : Nat} (innerFits : inner.Fits outer.length)
    (fits : outer.Fits size) : (inner.shift outer.start).Fits size := by
  have start : outer.start + inner.start < outer.start + inner.stop :=
    Nat.add_lt_add_left innerFits.1 outer.start
  have stop : outer.start + inner.stop ≤ outer.start + outer.length :=
    Nat.add_le_add_left innerFits.2 outer.start
  rw [length, Nat.add_sub_cancel' fits.1.le] at stop
  exact ⟨start, stop.trans fits.2⟩

end Span

namespace Matrix

variable {α : Type} {m n : Matrix α} {rows cols : Span}

/-- A matrix is known from its shape and what is at its positions. -/
theorem eq_of_get? (sameShape : m.shape = n.shape)
    (same : ∀ i j, i < m.rows → j < m.cols → m.get? i j = n.get? i j) : m = n := by
  obtain ⟨r, c, grid, rowsPos, colsPos⟩ := m
  obtain ⟨r', c', grid', rowsPos', colsPos'⟩ := n
  obtain ⟨rfl, rfl⟩ := Prod.mk.inj sameShape
  congr
  refine Grid.ext fun i j ↦ ?_
  have found := same i j i.isLt j.isLt
  rw [get?, get?, dif_pos ⟨i.isLt, j.isLt⟩, dif_pos ⟨i.isLt, j.isLt⟩] at found
  exact Option.some.inj found

theorem exists_subRange (rowsFit : rows.Fits m.rows) (colsFit : cols.Fits m.cols) :
    ∃ n, m.subRange rows cols = .ok n := by
  rw [subRange, dif_pos ⟨rowsFit, colsFit⟩]
  exact ⟨_, rfl⟩

theorem subRange_of_not_fits (outside : ¬(rows.Fits m.rows ∧ cols.Fits m.cols)) :
    m.subRange rows cols = .error (.outOfRange rows cols m.shape) :=
  dif_neg outside

theorem fits_of_subRange (made : m.subRange rows cols = .ok n) :
    rows.Fits m.rows ∧ cols.Fits m.cols := by
  by_contra outside
  rw [subRange_of_not_fits outside] at made
  cases made

/-- The cells of a part are counted from where its spans start. -/
theorem get?_of_subRange (made : m.subRange rows cols = .ok n) {i j : Nat}
    (inRows : i < rows.length) (inCols : j < cols.length) :
    n.get? i j = m.get? (rows.start + i) (cols.start + j) := by
  have fits := fits_of_subRange made
  unfold subRange at made
  split_ifs at made
  obtain rfl := Except.ok.inj made
  rw [get?, dif_pos ⟨inRows, inCols⟩, get?,
    dif_pos ⟨fits.1.add_lt inRows, fits.2.add_lt inCols⟩, Grid.cell_ofCells]

end Matrix

namespace Value

variable {v w u : Value} {rows cols : Span}

/-! ### Parts of values -/

/-- A table has a label for each of its columns, and a matrix has none. -/
theorem length_labels (v : Value) : v.labels.length = if v.isTable then v.shape.2 else 0 := by
  cases v with
  | matrix m => rfl
  | table t => exact t.labelled

/-- A value is known from its kind, its numbers and its labels. -/
theorem eq_of_parts (sameKind : v.isTable = w.isTable) (sameNumbers : v.toMatrix = w.toMatrix)
    (sameLabels : v.labels = w.labels) : v = w := by
  rcases v with m | ⟨columns, m, labelled⟩ <;> rcases w with n | ⟨others, n, othersLabelled⟩
  · exact congrArg matrix sameNumbers
  · cases sameKind
  · cases sameKind
  · obtain rfl : m = n := sameNumbers
    obtain rfl : columns = others := sameLabels
    rfl

/-- What is cut out of a value is cut out of its numbers, under the labels of the columns. -/
theorem parts_of_subRange (made : v.subRange rows cols = .ok w) :
    v.toMatrix.subRange rows cols = .ok w.toMatrix ∧ w.isTable = v.isTable ∧
      w.labels = (v.labels.drop cols.start).take cols.length := by
  cases v with
  | matrix m =>
    obtain ⟨part, ofMatrix, rfl⟩ := exists_of_map_eq_ok made
    refine ⟨ofMatrix, rfl, ?_⟩
    rw [labels, labels, List.drop_nil, List.take_nil]
  | table t =>
    obtain ⟨part, ofTable, rfl⟩ := exists_of_map_eq_ok made
    obtain ⟨numbers, ofMatrix, labelled⟩ := exists_of_bind_eq_ok ofTable
    unfold Table.ofLabels at labelled
    split_ifs at labelled
    obtain rfl := Except.ok.inj labelled
    exact ⟨ofMatrix, rfl, rfl⟩

/-- There is a label for each column that is cut out. -/
theorem exists_subRange (rowsFit : rows.Fits v.shape.1) (colsFit : cols.Fits v.shape.2) :
    ∃ w, v.subRange rows cols = .ok w := by
  obtain ⟨numbers, found⟩ := Matrix.exists_subRange rowsFit colsFit
  cases v with
  | matrix m =>
    have ofMatrix : m.subRange rows cols = .ok numbers := found
    rw [subRange, ofMatrix]
    exact ⟨_, rfl⟩
  | table t =>
    have ofMatrix : t.matrix.subRange rows cols = .ok numbers := found
    have enough : cols.start + cols.length ≤ t.columns.length := by
      rw [Span.length, Nat.add_sub_cancel' colsFit.1.le, t.labelled]
      exact colsFit.2
    have labelled : ((t.columns.drop cols.start).take cols.length).length = numbers.cols := by
      have columns := (Prod.mk.inj (Matrix.shape_of_subRange ofMatrix).1).2
      rw [List.length_take, List.length_drop, columns]
      omega
    rw [subRange, Table.subRange, ofMatrix, ok_bind, Table.ofLabels, dif_pos labelled]
    exact ⟨_, rfl⟩

theorem subRange_of_not_fits (outside : ¬(rows.Fits v.shape.1 ∧ cols.Fits v.shape.2)) :
    v.subRange rows cols = .error (.outOfRange rows cols v.shape) := by
  have refused := Matrix.subRange_of_not_fits outside
  cases v with
  | matrix m =>
    have ofMatrix : m.subRange rows cols = _ := refused
    rw [subRange, ofMatrix]
    rfl
  | table t =>
    have ofMatrix : t.matrix.subRange rows cols = _ := refused
    rw [subRange, Table.subRange, ofMatrix]
    rfl

/-! ### Cuts -/

/-- Whether a value is what another one holds in a span of rows and a span of columns. -/
structure IsCut (v : Value) (rows cols : Span) (w : Value) : Prop where
  isTable : w.isTable = v.isTable
  shape : w.shape = (rows.length, cols.length)
  cell : ∀ i j, i < rows.length → j < cols.length →
    w.toMatrix.get? i j = v.toMatrix.get? (rows.start + i) (cols.start + j)
  /-- The labels of a table are those of the columns. A matrix has none. -/
  label : ∀ j, j < cols.length → w.labels[j]? = v.labels[cols.start + j]?

/-- A value comes out of a cut at most once. -/
theorem IsCut.unique (first : v.IsCut rows cols w) (second : v.IsCut rows cols u) : w = u := by
  have sameKind : w.isTable = u.isTable := first.isTable.trans second.isTable.symm
  have sameShape : w.shape = u.shape := first.shape.trans second.shape.symm
  obtain ⟨height, width⟩ : w.toMatrix.rows = rows.length ∧ w.toMatrix.cols = cols.length :=
    Prod.mk.inj first.shape
  refine eq_of_parts sameKind (Matrix.eq_of_get? sameShape fun i j inRows inCols ↦ ?_) ?_
  · rw [height] at inRows
    rw [width] at inCols
    rw [first.cell i j inRows inCols, second.cell i j inRows inCols]
  · have sameLength : w.labels.length = u.labels.length := by
      rw [length_labels, length_labels, sameKind, sameShape]
    have atMost : w.labels.length ≤ cols.length := by
      rw [length_labels, first.shape]
      split_ifs
      · exact le_rfl
      · exact Nat.zero_le _
    refine List.ext_getElem? fun j ↦ ?_
    by_cases inCols : j < cols.length
    · rw [first.label j inCols, second.label j inCols]
    · rw [List.getElem?_eq_none (atMost.trans (not_lt.mp inCols)),
        List.getElem?_eq_none (sameLength ▸ atMost.trans (not_lt.mp inCols))]

/-- What is cut out of a cut is cut out of the value, at spans that are moved on. -/
theorem IsCut.trans {innerRows innerCols : Span} (outer : v.IsCut rows cols w)
    (inner : w.IsCut innerRows innerCols u) (rowsFit : innerRows.Fits rows.length)
    (colsFit : innerCols.Fits cols.length) :
    v.IsCut (innerRows.shift rows.start) (innerCols.shift cols.start) u where
  isTable := inner.isTable.trans outer.isTable
  shape := by rw [Span.length_shift, Span.length_shift, inner.shape]
  cell i j inRows inCols := by
    rw [Span.length_shift] at inRows inCols
    rw [inner.cell i j inRows inCols,
      outer.cell _ _ (rowsFit.add_lt inRows) (colsFit.add_lt inCols), Span.shift, Span.shift,
      Nat.add_assoc, Nat.add_assoc]
  label j inCols := by
    rw [Span.length_shift] at inCols
    rw [inner.label j inCols, outer.label _ (colsFit.add_lt inCols), Span.shift, Nat.add_assoc]

theorem isCut_of_subRange (made : v.subRange rows cols = .ok w) : v.IsCut rows cols w := by
  obtain ⟨numbers, sameKind, labels⟩ := parts_of_subRange made
  refine ⟨sameKind, (Matrix.shape_of_subRange numbers).1,
    fun i j ↦ Matrix.get?_of_subRange numbers, fun j inCols ↦ ?_⟩
  rw [labels, List.getElem?_take_of_lt inCols, List.getElem?_drop]

theorem fits_of_subRange (made : v.subRange rows cols = .ok w) :
    rows.Fits v.shape.1 ∧ cols.Fits v.shape.2 :=
  Matrix.fits_of_subRange (parts_of_subRange made).1

/-- The operation gives a cut if it gives anything, and no other value is one. -/
theorem subRange_eq_ok_iff : v.subRange rows cols = .ok w ↔
    rows.Fits v.shape.1 ∧ cols.Fits v.shape.2 ∧ v.IsCut rows cols w := by
  constructor
  · intro made
    obtain ⟨rowsFit, colsFit⟩ := fits_of_subRange made
    exact ⟨rowsFit, colsFit, isCut_of_subRange made⟩
  · rintro ⟨rowsFit, colsFit, isCut⟩
    obtain ⟨u, made⟩ := exists_subRange rowsFit colsFit
    rw [made, (isCut_of_subRange made).unique isCut]

/-- A value can be cut to two spans exactly if both are not empty and end inside its shape;
otherwise the error names the spans and the shape. The cells of a cut are those of the value,
counted from where the spans start, and so are the labels of a table; the value in one list is cut
to the list of the cut. What can be cut out of a cut comes out of the value as well, at the spans
moved on by the starts of the outer ones. -/
theorem subRange_exact (v : Value) (rows cols : Span) :
    ((∃ w, v.subRange rows cols = .ok w) ↔ rows.Fits v.shape.1 ∧ cols.Fits v.shape.2) ∧
    (¬(rows.Fits v.shape.1 ∧ cols.Fits v.shape.2) →
      v.subRange rows cols = .error (.outOfRange rows cols v.shape)) ∧
    ∀ w, v.subRange rows cols = .ok w →
      v.IsCut rows cols w ∧ v.rowMajor.subRange rows cols = .ok w.rowMajor ∧
        ∀ innerRows innerCols u, w.subRange innerRows innerCols = .ok u →
          v.subRange (innerRows.shift rows.start) (innerCols.shift cols.start) = .ok u := by
  refine ⟨⟨?_, ?_⟩, subRange_of_not_fits, ?_⟩
  · rintro ⟨w, made⟩
    exact fits_of_subRange made
  · rintro ⟨rowsFit, colsFit⟩
    exact exists_subRange rowsFit colsFit
  · intro w made
    have laidOut : v.rowMajor.subRange rows cols = .ok w.rowMajor := by
      rw [FlatValue.subRange_eq, made]
      rfl
    refine ⟨isCut_of_subRange made, laidOut, fun innerRows innerCols u madeInside ↦ ?_⟩
    obtain ⟨rowsFit, colsFit, isCut⟩ := subRange_eq_ok_iff.mp made
    obtain ⟨innerRowsFit, innerColsFit, isCutInside⟩ := subRange_eq_ok_iff.mp madeInside
    rw [isCut.shape] at innerRowsFit innerColsFit
    exact subRange_eq_ok_iff.mpr ⟨innerRowsFit.shift rowsFit, innerColsFit.shift colsFit,
      isCut.trans isCutInside innerRowsFit innerColsFit⟩

/-- The columns `b` and `c` of a table with three columns, and of these the lower row of `c`. There
is no fourth column. -/
theorem subRange_last_column :
    let v : Value := .table ⟨["a", "b", "c"],
      ⟨2, 3, .ofCells fun i j ↦ Float.ofNat (10 * i + j), by decide, by decide⟩, rfl⟩
    (∃ w u, v.subRange ⟨0, 2⟩ ⟨1, 3⟩ = .ok w ∧ w.shape = (2, 2) ∧ w.labels = ["b", "c"] ∧
      w.toMatrix.get? 1 1 = some (Float.ofNat 12) ∧
      w.subRange ⟨1, 2⟩ ⟨1, 2⟩ = .ok u ∧ v.subRange ⟨1, 2⟩ ⟨2, 3⟩ = .ok u) ∧
    v.subRange ⟨0, 2⟩ ⟨1, 4⟩ = .error (.outOfRange ⟨0, 2⟩ ⟨1, 4⟩ (2, 3)) := by
  intro v
  obtain ⟨exists_iff, -, ofCut⟩ := subRange_exact v ⟨0, 2⟩ ⟨1, 3⟩
  obtain ⟨w, made⟩ := exists_iff.mpr ⟨⟨by decide, by decide⟩, ⟨by decide, by decide⟩⟩
  obtain ⟨isCut, -, inside⟩ := ofCut w made
  have shape : w.shape = (2, 2) := isCut.shape
  obtain ⟨u, madeInside⟩ := (subRange_exact w ⟨1, 2⟩ ⟨1, 2⟩).1.mpr <| by
    rw [shape]
    exact ⟨⟨by decide, by decide⟩, ⟨by decide, by decide⟩⟩
  refine ⟨⟨w, u, made, shape, (parts_of_subRange made).2.2, ?_, madeInside,
    inside _ _ u madeInside⟩, (subRange_exact v ⟨0, 2⟩ ⟨1, 4⟩).2.1 fun fits ↦ ?_⟩
  · rw [isCut.cell 1 1 (by decide) (by decide)]
    rfl
  · exact absurd fits.2.2 (by decide)

end Value

end MatrixCalculator
