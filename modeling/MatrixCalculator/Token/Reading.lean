import MatrixCalculator.Assignment
import MatrixCalculator.Atom
import MatrixCalculator.Help
import MatrixCalculator.Number.Reading
import MatrixCalculator.Token

/-!
# Reading tokens

`Token.ofAtom` says which token an atom stands for, and `Token.readAll` reads a whole expression: it
sets the words apart by single spaces, writes a compound assignment out, reads the atoms on both
sides of an equals sign, and decides which of the plus and minus characters are signs.
-/

set_option autoImplicit false

namespace MatrixCalculator.Token

open Text

/-- The number that an atom writes. Words such as `inf` are names, not numbers. -/
def literal? (atom : List Char) : Option Float :=
  match atom with
  | '.' :: c :: _ => if c.isDigit then Number.readUnsigned? atom else none
  | c :: _ => if c.isDigit then Number.readUnsigned? atom else none
  | [] => none

/-- The token for a word behind an exclamation mark: a call of a function, or a constant. -/
def ofSpecial (registry : Registry) (name : String) : Except LexError Token :=
  match registry.find? name with
  | some d => .ok (call d)
  | none =>
    match Constant.find? name with
    | some constant =>
      match constant.value? with
      | some x => .ok { number x with name := constant.name }
      | none => .ok null
    | none => .error (.unknownSpecial name)

/-- The token for quoted text, read behind the opening quote. -/
def ofQuoted (quoted : List Char) : Except LexError Token :=
  match quoted.reverse with
  | '"' :: inner => .ok (text (String.ofList inner.reverse))
  | _ => .error (.unterminatedString (String.ofList ('"' :: quoted)))

/-- The token for an atom of several characters that is neither a number nor an operator. -/
def ofLongAtom (registry : Registry) (store : Store) : List Char → Except LexError Token
  | '!' :: name => ofSpecial registry (String.ofList name)
  | '?' :: name =>
    let name := String.ofList (trim name)
    .ok (docs name (Topic.find name registry store).text)
  | '"' :: quoted => ofQuoted quoted
  | atom =>
    .ok (if Name.isIdentifier atom then matrixRef (String.ofList atom) else null)

/-- The token for an atom of one character that is neither a digit nor punctuation, or for an
operator. -/
def ofGlyph (atom : List Char) : Token :=
  match Operator.ofSymbol? atom with
  | some op => ofOperator op
  | none =>
    if Name.isIdentifier atom then matrixRef (String.ofList atom)
    else unknown (String.ofList atom)

/-- The token that an atom stands for. -/
def ofAtom (registry : Registry) (store : Store) (atom : List Char) : Except LexError Token :=
  match literal? atom with
  | some x => .ok (number x)
  | none =>
    match atom with
    | ['('] => .ok leftBrace
    | [')'] => .ok rightBrace
    | ['?'] => .ok (docs "info" (Help.overview registry))
    | [','] => .ok separator
    | _ =>
      if 1 < atom.length && (Operator.ofSymbol? atom).isNone then
        ofLongAtom registry store atom
      else
        .ok (ofGlyph atom)

/-- The tokens for the atoms of a text. -/
def ofAtoms (registry : Registry) (store : Store) (text : List Char) :
    Except LexError (List Token) :=
  (atoms text).mapM (ofAtom registry store)

/-- Whether an operand is due behind a token of this kind, so that a plus or minus is a sign. -/
def opensOperand : TokenKind → Bool
  | .leftBrace | .operator | .argSeparator => true
  | _ => false

/-- The sign that the token becomes where an operand is due; any other token stays as it is. -/
def asSign (t : Token) : Token :=
  match t.kind, t.operator.bind Operator.sign? with
  | .operator, some sign => ofOperator sign
  | _, _ => t

/-- Marks the signs among tokens, the first of which stands where an operand is due or not. -/
def markSigns : Bool → List Token → List Token
  | _, [] => []
  | operandDue, t :: rest =>
    (if operandDue then t.asSign else t) :: markSigns (opensOperand t.kind) rest

/-- The tokens of an expression. The store is only looked at to describe the matrices that queries
ask for. -/
def readAll (registry : Registry) (store : Store) (expression : List Char) :
    Except LexError (List Token) := do
  let expanded ← Assignment.expand (squeeze expression)
  let tokens ← match ← Assignment.split expanded with
    | some (left, right) => do
      let left ← ofAtoms registry store left
      let right ← ofAtoms registry store right
      pure (left ++ ofOperator .assign :: right)
    | none => ofAtoms registry store expanded
  return markSigns true tokens

end MatrixCalculator.Token
