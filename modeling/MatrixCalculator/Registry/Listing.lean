import MatrixCalculator.Registry.Basic
import MatrixCalculator.Text.Printable

/-!
# Listings of arguments

When a service cannot use an argument, its message lists the argument part by part: its type, the
shape of a matrix, and every number in a form that shows it is a float.
-/

set_option autoImplicit false

namespace MatrixCalculator

namespace Listing

/-- Listings show that a number is a float, and use an exponent from `1e16` on and below `1e-4`. -/
def numbers : Layout where
  tie := .upper
  positional := fun leading ↦ -4 ≤ leading && leading ≤ 15
  keepsPoint := true
  exponentMark := "e"

/-- Parts in brackets, with a comma and a space between them. -/
def bracketed (parts : List String) : String :=
  "[" ++ ", ".intercalate parts ++ "]"

/-- Digits of a code point in hexadecimal. -/
def hexadecimal (n : Nat) : List Char :=
  Nat.toDigits 16 n

/-- A character inside quotes. A character that cannot be seen is written by its code point. -/
def escape (c : Char) : List Char :=
  if c = '"' then ['\\', '"']
  else if c = '\\' then ['\\', '\\']
  else if c = '\n' then ['\\', 'n']
  else if c = '\r' then ['\\', 'r']
  else if c = '\t' then ['\\', 't']
  else if c.toNat = 0 then ['\\', '0']
  else if Text.isPrintable c then [c]
  else ['\\', 'u', '\x7b'] ++ hexadecimal c.toNat ++ ['\x7d']

/-- Text in quotes. -/
def quoted (s : String) : String :=
  "\"" ++ String.ofList (s.toList.flatMap escape) ++ "\""

/-- A matrix by its shape and its numbers. -/
def matrix (m : Matrix Float) : String :=
  s!"Matrix \x7b rows: {m.rows}, cols: {m.cols}, data: " ++
    bracketed (m.cells.map numbers.text) ++ " \x7d"

/-- A value by its kind, its labels and its numbers. -/
def value : Value → String
  | .matrix m => "Matrix(" ++ matrix m ++ ")"
  | .table t =>
    "Table(Table \x7b columns: " ++ bracketed (t.columns.map quoted) ++ ", data: " ++
      matrix t.matrix ++ " \x7d)"

/-- An argument by its type and what it holds. -/
def argument : Argument → String
  | .int n => s!"Int({n})"
  | .float x => "Float(" ++ numbers.text x ++ ")"
  | .matrix v => "Matrix(" ++ value v ++ ")"
  | .text s => "Text(" ++ quoted s ++ ")"
  | .null => "Null"

/-- Several arguments. -/
def arguments (args : List Argument) : String :=
  bracketed (args.map argument)

/-- An argument, or the remark that there is none. -/
def argument? : Option Argument → String
  | some arg => "Some(" ++ argument arg ++ ")"
  | none => "None"

end Listing

/-- The message of a service that fails. -/
def ServiceError.message : ServiceError → String
  | .expected what found => s!"Expected {what} argument, got " ++ Listing.argument? found
  | .dimensionTooSmall what n => s!"{what} must be at least 1, got {n}"
  | .dimensionTooLarge what max n => s!"{what} can be at most {max}, got {n}"
  | .negativeIndex what n => s!"{what} can't be negative, got {n}"
  | .decimalsOutOfRange n => s!"Decimals must be between 0 and 28, got {n}"
  | .matrix error => error.message
  | .failure message => message

end MatrixCalculator
