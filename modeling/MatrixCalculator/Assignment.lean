import MatrixCalculator.Name

/-!
# The form of an assignment

An expression assigns when it holds an equals sign, of which there may be one only. `NAME op= EXPR`
is short for `NAME = NAME op (EXPR)`, and is written out before the expression is split in two.
-/

set_option autoImplicit false

namespace MatrixCalculator

/-- Why a text cannot be read as tokens. -/
inductive LexError where
  /-- Several equals signs. -/
  | multipleAssignments (count : Nat)
  /-- Nothing on one side of the equals sign. -/
  | malformedAssignment (expression : String)
  /-- An exclamation mark before a word that names neither a function nor a constant. -/
  | unknownSpecial (name : String)
  | unterminatedString (text : String)
  deriving DecidableEq, Repr

/-- The message for a text that cannot be read. -/
def LexError.message : LexError → String
  | .multipleAssignments count =>
    s!"Invalid assignment format: expected a single '=', found {count}"
  | .malformedAssignment expression =>
    s!"Invalid assignment format in '{expression}': both sides of '=' need a value"
  | .unknownSpecial name => s!"'{name}' is not a function or special value"
  | .unterminatedString text => s!"Unterminated string: {text}"

namespace Assignment

open Text

/-- Whether an equals sign may follow the character in a compound assignment. -/
def isCompound (c : Char) : Bool :=
  c == '-' || c == '+' || c == '*' || c == '/' || c == '%' || c == '^'

/-- The name, the operator and the rest of a compound assignment. The rest lies on one line. -/
def compound? (text : List Char) : Option (List Char × Char × List Char) :=
  let text := trimStart text
  let name := text.takeWhile Name.isRest
  if Name.isIdentifier name then
    match trimStart (text.dropWhile Name.isRest) with
    | op :: '=' :: rest =>
      if isCompound op && !rest.contains '\n' then some (name, op, rest) else none
    | _ => none
  else
    none

/-- Writes a compound assignment out; any other text stays as it is. -/
def expand (text : List Char) : Except LexError (List Char) :=
  match compound? text with
  | none => .ok text
  | some (name, op, rest) =>
    let rest := trim rest
    if rest.isEmpty then
      .error (.malformedAssignment (String.ofList text))
    else
      .ok (name ++ [' ', '=', ' '] ++ name ++ [' ', op, ' ', '('] ++ rest ++ [')'])

/-- The two sides of the equals sign, trimmed; none without an equals sign. -/
def split (text : List Char) : Except LexError (Option (List Char × List Char)) :=
  match text.count '=' with
  | 0 => .ok none
  | 1 =>
    match splitOnce (· == '=') text with
    | none => .ok none
    | some (left, right) =>
      let left := trim left
      let right := trim right
      if left.isEmpty || right.isEmpty then
        .error (.malformedAssignment (String.ofList text))
      else
        .ok (some (left, right))
  | count => .error (.multipleAssignments count)

end Assignment

end MatrixCalculator
