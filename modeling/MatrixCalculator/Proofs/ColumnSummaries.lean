import MatrixCalculator.Proofs.SubRanges

/-!
# Summing up columns

A summary is one row, and the number in one of its columns is made of that column of the value alone
(`Value.exists_column`). A column that is cut out of a value from the top to the bottom stays the
column it was (`Value.IsCut.isColumn_iff`), so that it does not matter whether columns are cut out
of a value or out of its summary (`Value.IsCut.summarizeColumns`). `Value.summarizeColumns_exact`
sums this up, also for values that are laid out in one list, where a summary takes the rows of the
transpose and a cut takes single positions.
-/

set_option autoImplicit false

namespace MatrixCalculator

namespace Value

variable {v w : Value} {cols : Span} {j : Nat} {column : List Float}

/-! ### Columns -/

/-- Whether a list holds the cells of a column, from the top. -/
def IsColumn (v : Value) (j : Nat) (column : List Float) : Prop :=
  column.map some = (List.range v.shape.1).map fun i ↦ v.toMatrix.get? i j

/-- The column of the grid is the only list that holds the cells of a column. -/
theorem isColumn_iff (inCols : j < v.shape.2) :
    v.IsColumn j column ↔ column = v.toMatrix.grid.column ⟨j, inCols⟩ := by
  have cells : (v.toMatrix.grid.column ⟨j, inCols⟩).map some =
      (List.range v.shape.1).map fun i ↦ v.toMatrix.get? i j := by
    refine List.ext_getElem (by simp [Grid.column, shape, Matrix.shape]) fun i inColumn inRange ↦ ?_
    have inRows : i < v.toMatrix.rows := by simpa [Grid.column] using inColumn
    have inside : i < v.toMatrix.rows ∧ j < v.toMatrix.cols := ⟨inRows, inCols⟩
    simp [Grid.column, Matrix.get?, inside, Grid.cell, Grid.row]
  rw [IsColumn, ← cells]
  exact (Option.some_injective Float).list_map.eq_iff

/-- A value has no cells beyond its columns. -/
theorem IsColumn.lt (isColumn : v.IsColumn j column) : j < v.shape.2 := by
  by_contra beyond
  have none : v.toMatrix.get? 0 j = none := dif_neg fun inside ↦ beyond inside.2
  have first : (column.map some)[0]? = some (v.toMatrix.get? 0 j) := by
    have someRow : 0 < v.shape.1 := v.toMatrix.rows_pos
    rw [isColumn, List.getElem?_map, List.getElem?_range someRow, Option.map_some]
  rw [none, List.getElem?_map, Option.map_eq_some_iff] at first
  obtain ⟨x, -, isNone⟩ := first
  cases isNone

/-- A cut from the top to the bottom has the columns of the value, counted from where its span
starts. -/
theorem IsCut.isColumn_iff (isCut : v.IsCut ⟨0, v.shape.1⟩ cols w) (inCols : j < cols.length) :
    w.IsColumn j column ↔ v.IsColumn (cols.start + j) column := by
  have height : w.shape.1 = v.shape.1 := by
    rw [isCut.shape]
    rfl
  have cells : ((List.range w.shape.1).map fun i ↦ w.toMatrix.get? i j) =
      (List.range v.shape.1).map fun i ↦ v.toMatrix.get? i (cols.start + j) := by
    rw [height]
    refine List.map_congr_left fun i inRows ↦ ?_
    rw [isCut.cell i j (List.mem_range.mp inRows) inCols, Nat.zero_add]
  rw [IsColumn, cells, IsColumn]

/-! ### Summaries -/

section Summary

variable (f : List Float → Float)

@[simp] theorem toMatrix_summarizeColumns (v : Value) :
    (v.summarizeColumns f).toMatrix = columnSummary f v.toMatrix := by
  cases v <;> rfl

@[simp] theorem shape_summarizeColumns (v : Value) :
    (v.summarizeColumns f).shape = (1, v.shape.2) := by
  cases v <;> rfl

@[simp] theorem isTable_summarizeColumns (v : Value) :
    (v.summarizeColumns f).isTable = v.isTable := by
  cases v <;> rfl

@[simp] theorem labels_summarizeColumns (v : Value) :
    (v.summarizeColumns f).labels = v.labels := by
  cases v <;> rfl

/-- The number in a column of the summary is made of that column. -/
theorem get?_summarizeColumns (isColumn : v.IsColumn j column) :
    (v.summarizeColumns f).toMatrix.get? 0 j = some (f column) := by
  have inCols := isColumn.lt
  have inside : 0 < (columnSummary f v.toMatrix).rows ∧ j < (columnSummary f v.toMatrix).cols :=
    ⟨Nat.one_pos, inCols⟩
  rw [toMatrix_summarizeColumns, Matrix.get?, dif_pos inside, (isColumn_iff inCols).mp isColumn]
  exact congrArg some (Grid.cell_ofCells _ _ _)

/-- Each column of a value has its number in the summary. -/
theorem exists_column (inCols : j < v.shape.2) :
    ∃ column, v.IsColumn j column ∧
      (v.summarizeColumns f).toMatrix.get? 0 j = some (f column) := by
  have isColumn := (isColumn_iff inCols).mpr rfl
  exact ⟨_, isColumn, get?_summarizeColumns f isColumn⟩

/-- The summary of columns that are cut out is cut out of the summary. -/
theorem IsCut.summarizeColumns (isCut : v.IsCut ⟨0, v.shape.1⟩ cols w) :
    (v.summarizeColumns f).IsCut ⟨0, 1⟩ cols (w.summarizeColumns f) where
  isTable := by
    rw [isTable_summarizeColumns, isTable_summarizeColumns]
    exact isCut.isTable
  shape := by
    rw [shape_summarizeColumns, isCut.shape]
    rfl
  cell i j inRows inCols := by
    obtain rfl : i = 0 := Nat.lt_one_iff.mp inRows
    have inside : j < w.shape.2 := by
      rw [isCut.shape]
      exact inCols
    obtain ⟨column, isColumn, number⟩ := exists_column f inside
    rw [number, Nat.zero_add, get?_summarizeColumns f ((isCut.isColumn_iff inCols).mp isColumn)]
  label j inCols := by
    rw [labels_summarizeColumns, labels_summarizeColumns]
    exact isCut.label j inCols

/-- A summary is one row with a number for each column, which `f` makes of the cells of that column
from the top; it has the labels of the value and is a table exactly if the value is one. Columns may
be cut out of the value before it is summed up or out of its summary: both come to the same, also
where values are laid out in one list. The mean and the sum of the columns are such summaries. -/
theorem summarizeColumns_exact (v : Value) :
    (v.summarizeColumns f).shape = (1, v.shape.2) ∧
    (∀ j < v.shape.2, ∃ column, v.IsColumn j column ∧
      (v.summarizeColumns f).toMatrix.get? 0 j = some (f column)) ∧
    (v.summarizeColumns f).isTable = v.isTable ∧ (v.summarizeColumns f).labels = v.labels ∧
    v.rowMajor.summarizeColumns f = .ok (v.summarizeColumns f).rowMajor ∧
    ∀ cols : Span, cols.Fits v.shape.2 →
      (∃ w, v.subRange ⟨0, v.shape.1⟩ cols = .ok w ∧
        (v.summarizeColumns f).subRange ⟨0, 1⟩ cols = .ok (w.summarizeColumns f)) ∧
      (do (← v.rowMajor.subRange ⟨0, v.shape.1⟩ cols).summarizeColumns f) =
        (do (← v.rowMajor.summarizeColumns f).subRange ⟨0, 1⟩ cols) := by
  refine ⟨v.shape_summarizeColumns f, fun j inCols ↦ exists_column f inCols,
    v.isTable_summarizeColumns f, v.labels_summarizeColumns f,
    FlatValue.summarizeColumns_eq f v, fun cols colsFit ↦ ?_⟩
  have rowsFit : Span.Fits ⟨0, v.shape.1⟩ v.shape.1 := ⟨v.toMatrix.rows_pos, le_rfl⟩
  obtain ⟨w, made⟩ := exists_subRange rowsFit colsFit
  have ofSummary : (v.summarizeColumns f).subRange ⟨0, 1⟩ cols = .ok (w.summarizeColumns f) := by
    refine subRange_eq_ok_iff.mpr ⟨?_, ?_, (isCut_of_subRange made).summarizeColumns f⟩
    · rw [shape_summarizeColumns]
      exact ⟨Nat.one_pos, le_rfl⟩
    · rw [shape_summarizeColumns]
      exact colsFit
  refine ⟨⟨w, made, ofSummary⟩, ?_⟩
  have laidOut : v.rowMajor.subRange ⟨0, v.shape.1⟩ cols = .ok w.rowMajor := by
    rw [FlatValue.subRange_eq, made]
    rfl
  have ofRow : (v.summarizeColumns f).rowMajor.subRange ⟨0, 1⟩ cols =
      .ok (w.summarizeColumns f).rowMajor := by
    rw [FlatValue.subRange_eq, ofSummary]
    rfl
  rw [laidOut, FlatValue.summarizeColumns_eq, ok_bind, ok_bind, FlatValue.summarizeColumns_eq,
    ofRow]

end Summary

/-- The means of the columns `b` and `c` of a table with three columns. -/
theorem summarizeColumns_last_columns :
    let v : Value := .table ⟨["a", "b", "c"],
      ⟨2, 3, .ofCells fun i j ↦ Float.ofNat (10 * i + j), by decide, by decide⟩, rfl⟩
    ∃ w, v.subRange ⟨0, 2⟩ ⟨1, 3⟩ = .ok w ∧ w.shape = (2, 2) ∧
      (v.summarizeColumns Services.columnMean).subRange ⟨0, 1⟩ ⟨1, 3⟩ =
        .ok (w.summarizeColumns Services.columnMean) ∧
      (w.summarizeColumns Services.columnMean).labels = ["b", "c"] ∧
      (w.summarizeColumns Services.columnMean).toMatrix.get? 0 1 =
        some (Services.columnMean [Float.ofNat 2, Float.ofNat 12]) := by
  intro v
  obtain ⟨-, -, -, -, -, ofCut⟩ := summarizeColumns_exact Services.columnMean v
  obtain ⟨⟨w, made, ofSummary⟩, -⟩ := ofCut ⟨1, 3⟩ ⟨by decide, by decide⟩
  have isCut := isCut_of_subRange made
  refine ⟨w, made, isCut.shape, ofSummary, ?_, get?_summarizeColumns _ ?_⟩
  · rw [labels_summarizeColumns]
    exact (parts_of_subRange made).2.2
  · exact (isCut.isColumn_iff (by decide)).mpr rfl

end Value

end MatrixCalculator
