import MatrixCalculator.Descriptor
import MatrixCalculator.Operator

/-!
# Tokens

A token is both the unit of reading and the unit of value: an expression is read as a list of
tokens, reordered, and evaluated on a stack of them. The kind of a token says which of its other
parts carry a meaning; the constructors below set them together, and `describe` is how messages
mention a token.
-/

set_option autoImplicit false

namespace MatrixCalculator

/-- What a token is. -/
inductive TokenKind where
  /-- The null value, or a character that is no operator. -/
  | null
  | string
  | number
  /-- A matrix: a name to look up, a value, or both. -/
  | matrixRef
  | function
  | argSeparator
  | operator
  | leftBrace
  | rightBrace
  | docsQuery
  /-- The answer of a function that acts on the session. -/
  | output
  | errorMarker
  /-- The answer of a function that returns nothing. -/
  | void
  deriving DecidableEq, Repr

/-- The word for a kind of token. -/
def TokenKind.name : TokenKind → String
  | null => "Null"
  | string => "String"
  | number => "Number"
  | matrixRef => "MatrixRef"
  | function => "Function"
  | argSeparator => "ArgSeparator"
  | operator => "Operator"
  | leftBrace => "LeftBrace"
  | rightBrace => "RightBrace"
  | docsQuery => "DocsQuery"
  | output => "Output"
  | errorMarker => "ErrorMarker"
  | void => "Void"

/-- The value that a token carries. -/
inductive Payload where
  | null
  | number (x : Float)
  | matrix (value : Value)
  /-- Several matrices, which only an assignment to several names takes. -/
  | matrices (values : List Value)
  | text (s : String)

/-- Whether no value is carried. -/
def Payload.isNull : Payload → Bool
  | null => true
  | _ => false

/-- A lexical unit and a value of the evaluation. -/
structure Token where
  kind : TokenKind
  payload : Payload := .null
  /-- The name of a matrix, a function or a constant. -/
  name : String := ""
  operator : Option Operator := none
  associativity : Associativity := .left
  priority : Nat := 0
  /-- The number of operands of an operator. -/
  paramCount : Nat := 0
  /-- The number of arguments of a call, known after reordering. -/
  argCount : Nat := 0
  /-- The function that is called. -/
  function : Option Descriptor := none
  /-- The parameter that an argument is meant for. -/
  hint : Option String := none
  /-- The text that a query or a message shows. -/
  info : Option String := none

namespace Token

/-! ### Constructors -/

/-- A number. -/
def number (x : Float) : Token :=
  { kind := .number, payload := .number x }

/-- Quoted text. -/
def text (s : String) : Token :=
  { kind := .string, payload := .text s }

/-- The null value. -/
def null : Token :=
  { kind := .null }

/-- A character that means nothing; it counts as null. -/
def unknown (glyph : String) : Token :=
  { kind := .null, name := glyph }

/-- The name of a matrix, not yet looked up. -/
def matrixRef (name : String) : Token :=
  { kind := .matrixRef, name := name }

/-- The name of a matrix together with its value. -/
def boundRef (name : String) (value : Value) : Token :=
  { kind := .matrixRef, name := name, payload := .matrix value }

/-- A matrix without a name. -/
def matrix (value : Value) : Token :=
  { kind := .matrixRef, payload := .matrix value }

/-- Several matrices. -/
def matrices (values : List Value) : Token :=
  { kind := .matrixRef, payload := .matrices values }

/-- A call of a function. -/
def call (d : Descriptor) : Token :=
  { kind := .function, name := d.name, priority := bracePriority, function := some d }

/-- An operator, with what the operator table says of it. -/
def ofOperator (op : Operator) : Token :=
  { kind := .operator
    operator := some op
    associativity := op.associativity
    priority := op.priority
    paramCount := op.arity }

/-- An opening parenthesis. -/
def leftBrace : Token :=
  { kind := .leftBrace, priority := bracePriority }

/-- A closing parenthesis. -/
def rightBrace : Token :=
  { kind := .rightBrace, priority := bracePriority }

/-- The separator between two arguments. -/
def separator : Token :=
  { kind := .argSeparator, priority := separatorPriority }

/-- A request for help, with the help. -/
def docs (name info : String) : Token :=
  { kind := .docsQuery, name := name, payload := .text info, info := some info }

/-- The answer of a function that acts on the session. -/
def output (name info : String) : Token :=
  { kind := .output, name := name, info := some info }

/-- The answer of a function that returns nothing. -/
def void (name : String) : Token :=
  { kind := .void, name := name }

/-- The result of a command that failed. -/
def error (message : String) : Token :=
  { kind := .errorMarker, info := some message }

/-! ### Queries -/

/-- How the operator is written; for any other token its name. -/
def symbol (t : Token) : String :=
  match t.operator with
  | some op => op.symbol
  | none => t.name

/-- Whether the token is this operator. -/
def isOperator (t : Token) (op : Operator) : Bool :=
  t.kind == .operator && t.operator == some op

/-- Whether several matrices are carried. -/
def holdsMatrices (t : Token) : Bool :=
  match t.payload with
  | .matrices _ => true
  | _ => false

/-- How messages mention a token that carries no value of interest. -/
def describeByKind (t : Token) : String :=
  match t.kind with
  | .null => if t.name.isEmpty then "null" else t.name
  | .operator => t.symbol
  | kind => if t.name.isEmpty then kind.name else s!"{t.name} ({kind.name})"

/-- How messages mention the token: a number by its digits, text in quotes, a matrix by its name or
else by its shape. -/
def describe (t : Token) : String :=
  match t.payload with
  | .number x => plainText x
  | payload =>
    if t.kind == .matrixRef && !t.name.isEmpty then
      t.name
    else
      match payload with
      | .matrix value =>
        let (rows, cols) := value.shape
        s!"<{rows}x{cols} {value.typeName}>"
      | .matrices values => s!"<{values.length} matrices>"
      | .text s => if t.kind == .string then "\"" ++ s ++ "\"" else t.describeByKind
      | _ => t.describeByKind

end Token

end MatrixCalculator
