import MatrixCalculator.Evaluation.Basic
import MatrixCalculator.Token.Reading

/-!
# Compiling an expression

`compile` reads an expression, reorders its tokens and evaluates them. An expression of the form
`A,B = EXPR` assigns several results at once; it is taken apart before anything is read.
-/

set_option autoImplicit false

namespace MatrixCalculator

/-- The tokens of an expression in postfix order. -/
def postfixOf (registry : Registry) (store : Store) (expression : List Char) :
    Except EvalError (List Token) := do
  let tokens ← (Token.readAll registry store expression).mapError .lex
  (toPostfix tokens).mapError .parse

/-- The names and the right side of an assignment to several names; none for any other
expression. -/
def multiAssignment? (expression : List Char) :
    Except EvalError (Option (List (List Char) × List Char)) :=
  match Assignment.split expression with
  | .error error => .error (.lex error)
  | .ok none => .ok none
  | .ok (some (left, right)) =>
    if left.contains ',' then
      let names := (Text.split (· == ',') left).map Text.trim
      match names.find? fun name ↦ !Name.isIdentifier name with
      | some bad => .error (.assignmentFormat s!"'{String.ofList bad}'")
      | none => .ok (some (names, right))
    else
      .ok none

/-- The value of an expression. -/
def evaluateExpression (registry : Registry) (expression : List Char) : Evaluation Token := do
  let postfixTokens ← Evaluation.reading fun store ↦ postfixOf registry store expression
  evaluate registry postfixTokens

/-- Reads and evaluates a text. -/
def compileText (registry : Registry) (text : List Char) : Evaluation Token := do
  if Text.isEmptyOrBlank text then
    throw .emptyExpression
  match ← ofExcept (multiAssignment? text) with
  | some (names, right) =>
    assignMany (names.map String.ofList) (← evaluateExpression registry right)
  | none => evaluateExpression registry text

/-- The value of a text, or what is wrong with it, and the store that is left. -/
def compile (registry : Registry) (text : String) (store : Store) :
    Except EvalError Token × Store :=
  (compileText registry text.toList).runOn store

end MatrixCalculator
