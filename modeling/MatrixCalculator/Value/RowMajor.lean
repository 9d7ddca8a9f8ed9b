import MatrixCalculator.Display
import MatrixCalculator.Matrix.RowMajor
import MatrixCalculator.Value.Document

/-!
# Values as one list of cells

A `FlatValue` is what a `Value` is in memory: a list of cells that should be as long as the numbers
of rows and columns tell, and for a table a list of labels that should be as long as a row. Nothing
in the type says so. Labels are looked up by position as cells are, and a lookup outside of a list
ends the computation.
-/

set_option autoImplicit false

namespace MatrixCalculator

/-- A list of cells, with or without labels. -/
inductive FlatValue where
  | matrix (m : RowMajor Float)
  | table (columns : List String) (m : RowMajor Float)

/-- Why a document gives no value. -/
inductive DocumentFault where
  | outOfBounds (position size : Nat)
  | refused (error : DocumentError)

/-- What goes wrong with the cells of a document goes wrong with the document. -/
def Fault.inDocument : Fault → DocumentFault
  | .outOfBounds position size => .outOfBounds position size
  | .refused error => .refused (.matrix error)

namespace FlatValue

/-- The cells, without labels. -/
def toMatrix : FlatValue → RowMajor Float
  | matrix m => m
  | table _ m => m

/-- The table with these labels and cells. -/
def ofLabels (columns : List String) (m : RowMajor Float) : Except Fault FlatValue :=
  if columns.length = m.cols then
    .ok (.table columns m)
  else
    .error (.refused (.malformed (.labelCount columns.length m.cols)))

/-- The table whose columns are labelled `col1`, `col2` and so on. -/
def ofMatrix (m : RowMajor Float) : FlatValue :=
  .table ((List.range m.cols).map fun index ↦ s!"col{index + 1}") m

/-- The cells in a span of rows and a span of columns; a table keeps the labels. -/
def subRange (v : FlatValue) (rows cols : Span) : Except Fault FlatValue :=
  match v with
  | matrix m => (m.subRange rows cols).map .matrix
  | table columns m => do
    let selected ← m.subRange rows cols
    ofLabels (← RowMajor.slice columns cols) selected

/-- One row with what `f` makes of every column. A table keeps its labels. -/
def summarizeColumns (f : List Float → Float) : FlatValue → Except Fault FlatValue
  | matrix m => (m.columnSummary f).map .matrix
  | table columns m => do ofLabels columns (← m.columnSummary f)

/-! ### Reading -/

/-- The matrix with the rows of a document. -/
def ofDocumentRows (rows : List (List Float)) : Except DocumentFault (RowMajor Float) :=
  (RowMajor.ofRows rows).mapError Fault.inDocument

/-- The value that a document describes. -/
def ofDocument (document : Json) : Except DocumentFault FlatValue := do
  let some rows := document.items? | .error (.refused .noArray)
  let some first := rows.head? | .error (.refused .noRows)
  match first with
  | .array _ =>
    let rows ← (rows.zipIdx.mapM Document.arrayRow).mapError .refused
    return .matrix (← ofDocumentRows rows)
  | .object members =>
    let columns := members.map Prod.fst
    let rows ← (rows.zipIdx.mapM (Document.objectRow columns)).mapError .refused
    let m ← ofDocumentRows rows
    (ofLabels columns m).mapError Fault.inDocument
  | _ => .error (.refused .noRowForm)

/-! ### Showing -/

/-- The texts of a value, line by line: the labels of a table, then the numbers of every row. -/
def cellTexts (decimals : Nat) (v : FlatValue) : Except Fault (List (List String)) := do
  let rows ← (List.range v.toMatrix.rows).mapM fun i ↦ do
    return (← v.toMatrix.row i).map (Display.number decimals)
  match v with
  | .matrix _ => return rows
  | .table columns _ => return columns :: rows

/-- The width of every one of `cols` columns. -/
def widths (cols : Nat) (lines : List (List String)) : Except Fault (List Nat) :=
  (List.range cols).mapM fun j ↦ do
    return Display.widest (← lines.mapM fun texts ↦ RowMajor.read texts j)

/-- The value as it is shown, unless a column is too wide for it. No column is written before the
widths of all of them are known. -/
def display (decimals : Nat) (v : FlatValue) : Except Fault (Except Display.TooWide String) := do
  let lines ← cellTexts decimals v
  let widths ← widths v.toMatrix.cols lines
  return Display.block widths lines

end FlatValue

end MatrixCalculator
