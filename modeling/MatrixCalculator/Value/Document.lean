import MatrixCalculator.Json.Reading
import MatrixCalculator.Json.Writing
import MatrixCalculator.Value

/-!
# Values from JSON documents

An array of arrays of numbers is a matrix. An array of objects is a table: its labels are the keys
of the first object in their order, and every row must have a number under each of them.
-/

set_option autoImplicit false

namespace MatrixCalculator

/-- Why a document is no value. Rows are counted from zero. -/
inductive DocumentError where
  | noArray
  | noRows
  | rowNotArray (row : Nat)
  | rowNotObject (row : Nat)
  /-- The first row is neither an array nor an object. -/
  | noRowForm
  | missingColumn (row : Nat) (column : String)
  | cellNotNumber (row : Nat) (cell : Json)
  | matrix (error : MatrixError)

/-- The message for a document that is no value. -/
def DocumentError.message : DocumentError → String
  | .noArray => "expected an array of rows"
  | .noRows => "no rows"
  | .rowNotArray row => s!"row {row} is not an array"
  | .rowNotObject row => s!"row {row} is not an object"
  | .noRowForm => "rows must be arrays or objects"
  | .missingColumn row column => s!"row {row} has no column '{column}'"
  | .cellNotNumber row cell => s!"row {row}: {cell.compact} is not a number"
  | .matrix error => error.message

namespace Document

/-- The number in a cell. -/
def number (row : Nat) (cell : Json) : Except DocumentError Float :=
  match cell.float? with
  | some x => .ok x
  | none => .error (.cellNotNumber row cell)

/-- The numbers of a row that is an array. -/
def arrayRow (row : Json × Nat) : Except DocumentError (List Float) :=
  match row.1.items? with
  | some cells => cells.mapM (number row.2)
  | none => .error (.rowNotArray row.2)

/-- The numbers of a row that is an object, in the order of the labels. -/
def objectRow (columns : List String) (row : Json × Nat) : Except DocumentError (List Float) :=
  match row.1.members? with
  | some members => columns.mapM fun column ↦
    match members.lookup column with
    | some cell => number row.2 cell
    | none => .error (.missingColumn row.2 column)
  | none => .error (.rowNotObject row.2)

/-- The matrix with these rows. -/
def matrixOfRows (rows : List (List Float)) : Except DocumentError (Matrix Float) :=
  (Matrix.ofRows rows).mapError .matrix

end Document

/-- The value that a document describes. -/
def Value.ofDocument (document : Json) : Except DocumentError Value := do
  let some rows := document.items? | .error .noArray
  let some first := rows.head? | .error .noRows
  match first with
  | .array _ =>
    return .matrix (← Document.matrixOfRows (← rows.zipIdx.mapM Document.arrayRow))
  | .object members =>
    let columns := members.map Prod.fst
    let matrix ← Document.matrixOfRows (← rows.zipIdx.mapM (Document.objectRow columns))
    return .table (← (Table.ofLabels columns matrix).mapError .matrix)
  | _ => .error .noRowForm

end MatrixCalculator
