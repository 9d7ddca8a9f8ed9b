import MatrixCalculator.Number.Decimal
import MatrixCalculator.Token

/-!
# How results are shown

Numbers are rounded to a number of decimal places in base ten, so that binary noise never shows, and
written without zeros at the end. A matrix takes one line for each row, a table one more for its
labels; every column is as wide as its widest cell, and the cells stand at its right end. A column
can be wider than any that can be written (`TooWide`).
-/

set_option autoImplicit false

namespace MatrixCalculator.Display

/-- A number with at most the given decimal places. A number beyond the range of decimals shows all
its digits. -/
def number (decimals : Nat) (x : Float) : String :=
  if x.isNaN then "NaN"
  else if x.isInf then (if 0.0 < x then "Infinity" else "-Infinity")
  else
    match Decimal.ofFloat? x with
    | some d => ((d.rounded decimals).normalized).text
    | none => plainText x

/-- The widest column that can be written. -/
def maxWidth : Nat := 65535

/-- The width of a column that is too wide to be written. Writing it ends the program. -/
structure TooWide where
  width : Nat
  deriving DecidableEq, Repr

/-- The text with spaces before it, up to a width. -/
def padLeft (width : Nat) (text : String) : Except TooWide String :=
  if width ≤ maxWidth then .ok ("".pushn ' ' (width - text.length) ++ text) else .error ⟨width⟩

/-- The texts of a value, line by line: the labels of a table, then the numbers of every row. -/
def cellTexts (decimals : Nat) (v : Value) : List (List String) :=
  let rows := v.toMatrix.toRows.map (List.map (number decimals))
  match v with
  | .matrix _ => rows
  | .table t => t.columns :: rows

/-- The width of the widest text. -/
def widest (texts : List String) : Nat :=
  texts.foldl (fun width text ↦ max width text.length) 0

/-- The width of every one of `cols` columns. -/
def widths (cols : Nat) (lines : List (List String)) : List Nat :=
  (List.range cols).map fun j ↦ widest (lines.map fun texts ↦ texts[j]?.getD "")

/-- One line, its texts padded to the widths of their columns. -/
def line (widths : List Nat) (texts : List String) : Except TooWide String := do
  return "  ".intercalate (← (widths.zip texts).mapM fun cell ↦ padLeft cell.1 cell.2)

/-- Lines of texts as one text. -/
def block (widths : List Nat) (lines : List (List String)) : Except TooWide String := do
  return "\n".intercalate (← lines.mapM (line widths))

/-- A value. -/
def value (decimals : Nat) (v : Value) : Except TooWide String :=
  let texts := cellTexts decimals v
  block (widths v.toMatrix.cols texts) texts

/-- A result. A matrix with a name shows the name, several matrices stand apart. -/
def token (decimals : Nat) (t : Token) : Except TooWide String :=
  match t.kind with
  | .docsQuery | .output | .errorMarker => .ok (t.info.getD "")
  | .void => .ok ""
  | _ =>
    match t.payload with
    | .number x => .ok (number decimals x)
    | .text s => .ok s
    | .matrix v => do
      let shown ← value decimals v
      return if t.name.isEmpty then shown else s!"{t.name} =\n{shown}"
    | .matrices vs => do return "\n\n".intercalate (← vs.mapM (value decimals))
    | .null => .ok "null"

end MatrixCalculator.Display
