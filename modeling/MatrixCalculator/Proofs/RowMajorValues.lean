import MatrixCalculator.Proofs.FlatElimination
import MatrixCalculator.Value.RowMajor

/-!
# Values are never malformed

Whatever is built by the constructors, the kernels and the operations on tables, starting from
documents, numbers and rows, is the layout of a `Value` (`exists_of_built`): it has at least one row
and one column, as many cells as its dimensions tell, and one label for each column of a table. On
such a layout every kernel computes what the operation on values computes (`sameInPlace`), so that
no position it works out lies outside of the cells or of the labels.
-/

set_option autoImplicit false

namespace MatrixCalculator

/-! ### The layout of a value -/

/-- The layout of a value in one list. -/
def Value.rowMajor : Value → FlatValue
  | .matrix m => .matrix m.rowMajor
  | .table t => .table t.columns t.matrix.rowMajor

namespace FlatValue

open RowMajor (laidOut)

/-- The layout of a value, or the reason for which there is no value. -/
def laidOutValue (result : Except MatrixError Value) : Except Fault FlatValue :=
  (result.map Value.rowMajor).mapError .refused

@[simp] theorem toMatrix_rowMajor (w : Value) : w.rowMajor.toMatrix = w.toMatrix.rowMajor := by
  cases w <;> rfl

theorem ofLabels_eq (columns : List String) (m : Matrix Float) :
    ofLabels columns m.rowMajor = laidOutValue ((Table.ofLabels columns m).map .table) := by
  unfold ofLabels Table.ofLabels
  by_cases labelled : columns.length = m.cols
  · rw [dif_pos labelled]
    exact if_pos labelled
  · rw [dif_neg labelled]
    exact if_neg labelled

theorem subRange_eq (w : Value) (rows cols : Span) :
    w.rowMajor.subRange rows cols = laidOutValue (w.subRange rows cols) := by
  rcases w with m | t
  · change (m.rowMajor.subRange rows cols).map FlatValue.matrix =
      laidOutValue ((m.subRange rows cols).map .matrix)
    rw [RowMajor.subRange_eq]
    rcases m.subRange rows cols with error | selected <;> rfl
  · change (t.matrix.rowMajor.subRange rows cols >>= fun selected ↦
      RowMajor.slice t.columns cols >>= fun labels ↦ ofLabels labels selected) =
        laidOutValue ((t.subRange rows cols).map .table)
    rw [RowMajor.subRange_eq, Table.subRange]
    rcases found : t.matrix.subRange rows cols with error | selected
    · rfl
    · have inside : cols.start ≤ cols.stop ∧ cols.stop ≤ t.columns.length := by
        rw [Matrix.subRange] at found
        split at found
        next inside =>
          rw [t.labelled]
          omega
        next => cases found
      change (RowMajor.slice t.columns cols >>= fun labels ↦ ofLabels labels selected.rowMajor) = _
      rw [RowMajor.slice, if_pos inside]
      exact ofLabels_eq _ selected

theorem summarizeColumns_eq (f : List Float → Float) (w : Value) :
    w.rowMajor.summarizeColumns f = .ok (w.summarizeColumns f).rowMajor := by
  have summary (m : Matrix Float) :
      m.rowMajor.columnSummary f = .ok (Value.columnSummary f m).rowMajor :=
    RowMajor.columnSummary_eq m f
  rcases w with m | t
  · change (m.rowMajor.columnSummary f).map FlatValue.matrix = _
    rw [summary]
    rfl
  · change (t.matrix.rowMajor.columnSummary f >>= fun row ↦ ofLabels t.columns row) = _
    rw [summary]
    exact if_pos t.labelled

theorem ofDocument_eq (document : Json) :
    ofDocument document = ((Value.ofDocument document).map Value.rowMajor).mapError .refused := by
  have fromRows (rows : List (List Float)) :
      ofDocumentRows rows =
        ((Document.matrixOfRows rows).map Matrix.rowMajor).mapError .refused := by
    rw [ofDocumentRows, RowMajor.ofRows_eq, Document.matrixOfRows]
    rcases Matrix.ofRows rows with error | m <;> rfl
  unfold ofDocument Value.ofDocument
  rcases document.items? with _ | rows
  · rfl
  dsimp only
  rcases rows.head? with _ | first
  · rfl
  rcases first with _ | _ | _ | _ | _ | items | members
  case array =>
    dsimp only
    rcases rows.zipIdx.mapM Document.arrayRow with error | rows
    · rfl
    · change (ofDocumentRows rows >>= _) = ((Document.matrixOfRows rows >>= _).map _).mapError _
      rw [fromRows]
      rcases Document.matrixOfRows rows with error | m <;> rfl
  case object =>
    dsimp only
    generalize members.map Prod.fst = columns
    rcases rows.zipIdx.mapM (Document.objectRow columns) with error | rows
    · rfl
    · change (ofDocumentRows rows >>= _) = ((Document.matrixOfRows rows >>= _).map _).mapError _
      rw [fromRows]
      rcases Document.matrixOfRows rows with error | m
      · rfl
      · change (ofLabels columns m.rowMajor).mapError _ = _
        rw [ofLabels_eq]
        change _ =
          (((Table.ofLabels columns m).mapError DocumentError.matrix >>= _).map _).mapError _
        rcases Table.ofLabels columns m with error | t <;> rfl
  all_goals rfl

/-! ### Showing -/

theorem cellTexts_eq (decimals : Nat) (w : Value) :
    cellTexts decimals w.rowMajor = .ok (Display.cellTexts decimals w) := by
  have rows : (List.range w.rowMajor.toMatrix.rows).mapM (fun i ↦ do
      return (← w.rowMajor.toMatrix.row i).map (Display.number decimals)) =
        .ok (w.toMatrix.toRows.map (List.map (Display.number decimals))) := by
    rw [toMatrix_rowMajor]
    refine mapM_eq_ok_iff.mpr (List.forall₂_iff_get.mpr ⟨?_, fun i inRange inRows ↦ ?_⟩)
    · simp [Matrix.toRows, Grid.toRows, Matrix.rowMajor]
    · have inside : i < w.toMatrix.rows := by rwa [List.length_range] at inRange
      rw [List.get_eq_getElem, List.getElem_range, RowMajor.slice_of_row _ inside]
      simp [Matrix.toRows, Grid.toRows, Grid.row]
  rw [cellTexts, rows]
  cases w <;> rfl

theorem length_of_mem_cellTexts {decimals : Nat} {w : Value} {texts : List String}
    (isLine : texts ∈ Display.cellTexts decimals w) : texts.length = w.toMatrix.cols := by
  have ofRow {texts : List String}
      (isRow : texts ∈ w.toMatrix.toRows.map (List.map (Display.number decimals))) :
      texts.length = w.toMatrix.cols := by
    obtain ⟨row, ofGrid, rfl⟩ := List.mem_map.mp isRow
    rw [List.length_map]
    exact w.toMatrix.grid.length_of_mem_toRows row ofGrid
  rcases w with m | t
  · exact ofRow isLine
  · rcases List.mem_cons.mp isLine with rfl | isRow
    · exact t.labelled
    · exact ofRow isRow

/-- Every line is long enough for its widths to be taken. -/
theorem widths_eq {cols : Nat} {lines : List (List String)}
    (complete : ∀ texts ∈ lines, texts.length = cols) :
    widths cols lines = .ok (Display.widths cols lines) := by
  refine mapM_eq_map fun j inRange ↦ ?_
  have texts : (lines.mapM fun texts ↦ RowMajor.read texts j) =
      .ok (lines.map fun texts ↦ texts[j]?.getD "") := by
    refine mapM_eq_map fun texts isLine ↦ ?_
    have inside : j < texts.length := complete texts isLine ▸ List.mem_range.mp inRange
    rw [RowMajor.read, List.getElem?_eq_getElem inside]
    rfl
  rw [texts]
  rfl

theorem display_eq (decimals : Nat) (w : Value) :
    w.rowMajor.display decimals = .ok (Display.value decimals w) := by
  rw [display, cellTexts_eq, ok_bind, toMatrix_rowMajor]
  change (widths w.toMatrix.cols _ >>= _) = _
  rw [widths_eq fun _ isLine ↦ length_of_mem_cellTexts isLine]
  rfl

/-! ### What can be built -/

/-- The values that the constructors build, and the kernels and the operations on tables from
these. -/
inductive Built : FlatValue → Prop
  | new {rows cols : Nat} {cells : List Float} {m : RowMajor Float}
      (made : RowMajor.new rows cols cells = .ok m) : Built (.matrix m)
  | ofRows {rows : List (List Float)} {m : RowMajor Float}
      (made : RowMajor.ofRows rows = .ok m) : Built (.matrix m)
  | scalar (x : Float) : Built (.matrix (.scalar x))
  | filled {rows cols : Nat} {x : Float} {m : RowMajor Float}
      (made : RowMajor.filled rows cols x = .ok m) : Built (.matrix m)
  | identity {size : Nat} {m : RowMajor Float}
      (made : RowMajor.identity size = .ok m) : Built (.matrix m)
  | ofDocument {document : Json} {v : FlatValue} (made : ofDocument document = .ok v) : Built v
  | toMatrix {v : FlatValue} (built : Built v) : Built (.matrix v.toMatrix)
  | ofLabels {v w : FlatValue} {columns : List String} (built : Built v)
      (made : ofLabels columns v.toMatrix = .ok w) : Built w
  | ofMatrix {v : FlatValue} (built : Built v) : Built (ofMatrix v.toMatrix)
  | map {v : FlatValue} (f : Float → Float) (built : Built v) : Built (.matrix (v.toMatrix.map f))
  | zipWith {v w : FlatValue} {operation : String} {f : Float → Float → Float} {m : RowMajor Float}
      (left : Built v) (right : Built w)
      (made : RowMajor.zipWith operation f v.toMatrix w.toMatrix = .ok m) : Built (.matrix m)
  | multiply {v w : FlatValue} {m : RowMajor Float} (left : Built v) (right : Built w)
      (made : v.toMatrix.multiply w.toMatrix = .ok m) : Built (.matrix m)
  | power {v : FlatValue} {exponent : Nat} {m : RowMajor Float} (built : Built v)
      (made : v.toMatrix.power exponent = .ok m) : Built (.matrix m)
  | transpose {v : FlatValue} {m : RowMajor Float} (built : Built v)
      (made : v.toMatrix.transpose = .ok m) : Built (.matrix m)
  | inverse {v : FlatValue} {m : RowMajor Float} (built : Built v)
      (made : v.toMatrix.inverse = .ok m) : Built (.matrix m)
  | lowerFactor {v : FlatValue} {sides : RowMajor Float × RowMajor Float} (built : Built v)
      (made : v.toMatrix.factors = .ok sides) : Built (.matrix sides.1)
  | upperFactor {v : FlatValue} {sides : RowMajor Float × RowMajor Float} (built : Built v)
      (made : v.toMatrix.factors = .ok sides) : Built (.matrix sides.2)
  | subRange {v w : FlatValue} {rows cols : Span} (built : Built v)
      (made : v.subRange rows cols = .ok w) : Built w
  | summarizeColumns {v w : FlatValue} {f : List Float → Float} (built : Built v)
      (made : v.summarizeColumns f = .ok w) : Built w

theorem exists_of_laidOut {result : Except MatrixError (Matrix Float)} {m : RowMajor Float}
    (made : laidOut result = .ok m) : ∃ w : Value, FlatValue.matrix m = w.rowMajor := by
  rcases result with error | matrix
  · cases made
  · exact ⟨.matrix matrix, congrArg FlatValue.matrix (Except.ok.inj made).symm⟩

theorem exists_of_laidOutValue {result : Except MatrixError Value} {v : FlatValue}
    (made : laidOutValue result = .ok v) : ∃ w : Value, v = w.rowMajor := by
  rcases result with error | w
  · cases made
  · exact ⟨w, (Except.ok.inj made).symm⟩

theorem exists_of_factors {m : Matrix Float} {sides : RowMajor Float × RowMajor Float}
    (made : m.rowMajor.factors = .ok sides) :
    (∃ w : Value, FlatValue.matrix sides.1 = w.rowMajor) ∧
      ∃ w : Value, FlatValue.matrix sides.2 = w.rowMajor := by
  rw [RowMajor.factors_eq] at made
  rcases found : m.factors with error | factors <;> rw [found] at made
  · cases made
  · obtain rfl := Except.ok.inj made
    exact ⟨⟨.matrix factors.1, rfl⟩, ⟨.matrix factors.2, rfl⟩⟩

/-- Whatever can be built is the layout of a value. -/
theorem exists_of_built {v : FlatValue} (built : Built v) : ∃ w : Value, v = w.rowMajor := by
  induction built with
  | new made => exact exists_of_laidOut (RowMajor.new_eq _ _ _ ▸ made)
  | ofRows made => exact exists_of_laidOut (RowMajor.ofRows_eq _ ▸ made)
  | scalar x => exact ⟨.matrix (.scalar x), congrArg FlatValue.matrix (RowMajor.scalar_eq x)⟩
  | filled made => exact exists_of_laidOut (RowMajor.filled_eq _ _ _ ▸ made)
  | identity made => exact exists_of_laidOut (RowMajor.identity_eq (α := Float) _ ▸ made)
  | @ofDocument document v made =>
    rw [ofDocument_eq] at made
    rcases read : Value.ofDocument document with error | w <;> rw [read] at made
    · cases made
    · exact ⟨w, (Except.ok.inj made).symm⟩
  | toMatrix _ ih =>
    obtain ⟨w, rfl⟩ := ih
    exact ⟨.matrix w.toMatrix, congrArg FlatValue.matrix (toMatrix_rowMajor w)⟩
  | ofLabels _ made ih =>
    obtain ⟨w, rfl⟩ := ih
    rw [toMatrix_rowMajor, ofLabels_eq] at made
    exact exists_of_laidOutValue made
  | ofMatrix _ ih =>
    obtain ⟨w, rfl⟩ := ih
    exact ⟨.table (.ofMatrix w.toMatrix), congrArg FlatValue.ofMatrix (toMatrix_rowMajor w)⟩
  | map f _ ih =>
    obtain ⟨w, rfl⟩ := ih
    rw [toMatrix_rowMajor, RowMajor.map_eq]
    exact ⟨.matrix (w.toMatrix.map f), rfl⟩
  | zipWith _ _ made leftIh rightIh =>
    obtain ⟨left, rfl⟩ := leftIh
    obtain ⟨right, rfl⟩ := rightIh
    rw [toMatrix_rowMajor, toMatrix_rowMajor, RowMajor.zipWith_eq] at made
    exact exists_of_laidOut made
  | multiply _ _ made leftIh rightIh =>
    obtain ⟨left, rfl⟩ := leftIh
    obtain ⟨right, rfl⟩ := rightIh
    rw [toMatrix_rowMajor, toMatrix_rowMajor, RowMajor.multiply_eq] at made
    exact exists_of_laidOut made
  | power _ made ih =>
    obtain ⟨w, rfl⟩ := ih
    rw [toMatrix_rowMajor, RowMajor.power_eq] at made
    exact exists_of_laidOut made
  | transpose _ made ih =>
    obtain ⟨w, rfl⟩ := ih
    rw [toMatrix_rowMajor, RowMajor.transpose_eq] at made
    exact ⟨.matrix w.toMatrix.transpose, congrArg FlatValue.matrix (Except.ok.inj made).symm⟩
  | inverse _ made ih =>
    obtain ⟨w, rfl⟩ := ih
    rw [toMatrix_rowMajor, RowMajor.inverse_eq] at made
    exact exists_of_laidOut made
  | lowerFactor _ made ih =>
    obtain ⟨w, rfl⟩ := ih
    exact (exists_of_factors (toMatrix_rowMajor w ▸ made)).1
  | upperFactor _ made ih =>
    obtain ⟨w, rfl⟩ := ih
    exact (exists_of_factors (toMatrix_rowMajor w ▸ made)).2
  | subRange _ made ih =>
    obtain ⟨w, rfl⟩ := ih
    rw [subRange_eq] at made
    exact exists_of_laidOutValue made
  | summarizeColumns _ made ih =>
    obtain ⟨w, rfl⟩ := ih
    rw [summarizeColumns_eq] at made
    exact ⟨_, (Except.ok.inj made).symm⟩

theorem built_rowMajor (w : Value) : Built w.rowMajor := by
  have built (m : Matrix Float) : Built (.matrix m.rowMajor) :=
    .new (RowMajor.new_flat m.grid m.rows_pos m.cols_pos)
  rcases w with m | t
  · exact built m
  · exact .ofLabels (built t.matrix) (if_pos t.labelled)

/-! ### Kernels on a layout -/

/-- The kernels compute on the layout of a value what the operations on values compute. -/
structure SameInPlace (w : Value) : Prop where
  determinant : w.rowMajor.toMatrix.determinant = w.toMatrix.determinant.mapError .refused
  inverse : w.rowMajor.toMatrix.inverse = laidOut w.toMatrix.inverse
  rank : w.rowMajor.toMatrix.rank = .ok w.toMatrix.rank
  factors : w.rowMajor.toMatrix.factors =
    (w.toMatrix.factors.map fun sides ↦ (sides.1.rowMajor, sides.2.rowMajor)).mapError .refused
  multiply : ∀ right : Value, w.rowMajor.toMatrix.multiply right.rowMajor.toMatrix =
    laidOut (w.toMatrix.multiply right.toMatrix)
  power : ∀ exponent, w.rowMajor.toMatrix.power exponent = laidOut (w.toMatrix.power exponent)
  transpose : w.rowMajor.toMatrix.transpose = .ok w.toMatrix.transpose.rowMajor
  trace : w.rowMajor.toMatrix.trace = w.toMatrix.trace.mapError .refused
  subRange : ∀ rows cols, w.rowMajor.subRange rows cols = laidOutValue (w.subRange rows cols)
  summarizeColumns : ∀ f, w.rowMajor.summarizeColumns f = .ok (w.summarizeColumns f).rowMajor
  display : ∀ decimals, w.rowMajor.display decimals = .ok (Display.value decimals w)

theorem sameInPlace (w : Value) : SameInPlace w where
  determinant := toMatrix_rowMajor w ▸ RowMajor.determinant_eq w.toMatrix
  inverse := toMatrix_rowMajor w ▸ RowMajor.inverse_eq w.toMatrix
  rank := toMatrix_rowMajor w ▸ RowMajor.rank_eq w.toMatrix
  factors := toMatrix_rowMajor w ▸ RowMajor.factors_eq w.toMatrix
  multiply right := by
    rw [toMatrix_rowMajor, toMatrix_rowMajor]
    exact RowMajor.multiply_eq w.toMatrix right.toMatrix
  power exponent := toMatrix_rowMajor w ▸ RowMajor.power_eq w.toMatrix exponent
  transpose := toMatrix_rowMajor w ▸ RowMajor.transpose_eq w.toMatrix
  trace := toMatrix_rowMajor w ▸ RowMajor.trace_eq w.toMatrix
  subRange := subRange_eq w
  summarizeColumns f := summarizeColumns_eq f w
  display decimals := display_eq decimals w

/-! ### Soundness -/

/-- At least one row and one column, as many cells as both tell, and a label for each column of a
table. -/
structure Sound (v : FlatValue) : Prop where
  rows_pos : 1 ≤ v.toMatrix.rows
  cols_pos : 1 ≤ v.toMatrix.cols
  complete : v.toMatrix.cells.length = v.toMatrix.rows * v.toMatrix.cols
  labelled : ∀ columns m, v = .table columns m → columns.length = m.cols

theorem sound_rowMajor (w : Value) : w.rowMajor.Sound where
  rows_pos := toMatrix_rowMajor w ▸ w.toMatrix.rows_pos
  cols_pos := toMatrix_rowMajor w ▸ w.toMatrix.cols_pos
  complete := toMatrix_rowMajor w ▸ w.toMatrix.grid.length_flat
  labelled := by
    rintro columns m isTable
    rcases w with matrix | t
    · cases isTable
    · cases isTable
      exact t.labelled

/-- A computation that never reaches outside of a list. -/
def InBounds {α : Type} (result : Except Fault α) : Prop :=
  ∀ position size, result ≠ .error (.outOfBounds position size)

theorem inBounds_of_ok {α : Type} {result : Except Fault α} {x : α} (same : result = .ok x) :
    InBounds result :=
  fun _ _ failed ↦ by cases same.symm.trans failed

theorem inBounds_of_mapError {α : Type} {result : Except Fault α} {typed : Except MatrixError α}
    (same : result = typed.mapError .refused) : InBounds result := by
  subst same
  rcases typed with error | x <;> exact fun _ _ failed ↦ by cases failed

/-- No kernel reaches outside of the cells or the labels, whatever its other arguments are. -/
structure InRange (v : FlatValue) : Prop where
  determinant : InBounds v.toMatrix.determinant
  inverse : InBounds v.toMatrix.inverse
  rank : InBounds v.toMatrix.rank
  factors : InBounds v.toMatrix.factors
  multiply : ∀ right, Built right → InBounds (v.toMatrix.multiply right.toMatrix)
  power : ∀ exponent, InBounds (v.toMatrix.power exponent)
  transpose : InBounds v.toMatrix.transpose
  trace : InBounds v.toMatrix.trace
  subRange : ∀ rows cols, InBounds (v.subRange rows cols)
  summarizeColumns : ∀ f, InBounds (v.summarizeColumns f)
  display : ∀ decimals, InBounds (v.display decimals)

/-- The operations on values have no access that could fail, and neither have kernels that compute
the same. -/
theorem inRange_of_sameInPlace {w : Value} (same : SameInPlace w) : w.rowMajor.InRange where
  determinant := inBounds_of_mapError same.determinant
  inverse := inBounds_of_mapError same.inverse
  rank := inBounds_of_ok same.rank
  factors := inBounds_of_mapError same.factors
  multiply right built := by
    obtain ⟨value, rfl⟩ := exists_of_built built
    exact inBounds_of_mapError (same.multiply value)
  power exponent := inBounds_of_mapError (same.power exponent)
  transpose := inBounds_of_ok same.transpose
  trace := inBounds_of_mapError same.trace
  subRange rows cols := inBounds_of_mapError (same.subRange rows cols)
  summarizeColumns f := inBounds_of_ok (same.summarizeColumns f)
  display decimals := inBounds_of_ok (same.display decimals)

/-- Whatever is built has the cells and the labels that its dimensions call for, and so no kernel
reaches outside of them. The layout of every value of the program can be built, and the kernels
compute on it what the program computes. -/
theorem sound_of_built :
    (∀ v, Built v → v.Sound ∧ v.InRange) ∧ ∀ w : Value, Built w.rowMajor ∧ SameInPlace w := by
  refine ⟨fun v built ↦ ?_, fun w ↦ ⟨built_rowMajor w, sameInPlace w⟩⟩
  obtain ⟨w, rfl⟩ := exists_of_built built
  exact ⟨sound_rowMajor w, inRange_of_sameInPlace (sameInPlace w)⟩

/-- The second column of a table of two rows, under its label. -/
theorem sound_second_column :
    (FlatValue.table ["b"] ⟨2, 1, [2.0, 4.0]⟩).Sound ∧
      (FlatValue.table ["b"] ⟨2, 1, [2.0, 4.0]⟩).InRange := by
  have cells : Built (.matrix ⟨2, 2, [1.0, 2.0, 3.0, 4.0]⟩) :=
    @Built.ofRows [[1.0, 2.0], [3.0, 4.0]] _ rfl
  have labelled : Built (.table ["a", "b"] ⟨2, 2, [1.0, 2.0, 3.0, 4.0]⟩) :=
    @Built.ofLabels _ _ ["a", "b"] cells rfl
  exact sound_of_built.1 _ (@Built.subRange _ _ ⟨0, 2⟩ ⟨1, 2⟩ labelled rfl)

end FlatValue

end MatrixCalculator
