import MatrixCalculator.Assignment
import MatrixCalculator.Command.State
import MatrixCalculator.Postfix
import MatrixCalculator.Registry.Listing
import MatrixCalculator.Store

/-!
# What can go wrong with an expression
-/

set_option autoImplicit false

namespace MatrixCalculator

/-- Why a value is no exponent. -/
inductive ExponentProblem where
  | notScalar
  /-- A matrix power with a negative exponent. -/
  | negative (x : Float)
  /-- A matrix power with an exponent that is fractional, not finite or too large. -/
  | notWhole (x : Float)

/-- Why an expression has no value. A `symbol` is that of an operator, `found` describes a token. -/
inductive EvalError where
  | lex (error : LexError)
  | parse (error : ParseError)
  | emptyExpression
  /-- Nothing is left on the stack. -/
  | loneOperator
  /-- Several values are left on the stack. -/
  | missingOperator (values : Nat)
  | argumentCount (what : String) (expected found : Nat)
  | unknownVariable (name : String)
  | nullOperand (symbol : String)
  | invalidOperand (symbol found : String)
  | invalidModulo
  | invalidExponent (problem : ExponentProblem)
  | assignmentFormat (found : String)
  | assignmentValue (found : String)
  | invalidHint (found : String)
  /-- An assignment to several names of a different number of matrices. -/
  | multiAssignment (expected found : Nat)
  | unknownFunction (name : String)
  | unknownService (service function : String)
  | unknownParameter (function parameter : String)
  | positionalAfterHint (function : String)
  | duplicateParameter (function parameter : String)
  | missingParameter (function parameter : String)
  | tooManyArguments (function : String) (max : Nat)
  | argumentType (value : String) (expected : ParameterType)
  | returnType (function : String) (expected : ReturnType)
  | service (function : String) (error : ServiceError)
  | matrix (error : MatrixError)
  | store (error : StoreError)
  | alreadyProcessed (state : CommandState) (message : String)

/-- The message for a value that is no exponent. -/
def ExponentProblem.message : ExponentProblem → String
  | .notScalar => "the exponent must be a scalar"
  | .negative x => "'.^' needs a non-negative exponent, got " ++ plainText x
  | .notWhole x => "'.^' needs a whole exponent, got " ++ plainText x

namespace EvalError

/-- The message for an expression without a value. -/
def message : EvalError → String
  | lex error => error.message
  | parse error => error.message
  | emptyExpression => "Empty expression"
  | loneOperator => "Invalid use of a lone operator"
  | missingOperator values =>
    s!"Malformed expression: {values} values without an operator between them"
  | argumentCount what expected found =>
    s!"Argument count mismatch for '{what}': expected {expected}, got {found}"
  | unknownVariable name => s!"Unknown variable '{name}'"
  | nullOperand symbol => s!"Invalid operation with null for '{symbol}'"
  | invalidOperand symbol found => s!"Can't use {found} with '{symbol}'"
  | invalidModulo => "Invalid modulo format: the divisor must be a number or a 1x1 matrix"
  | invalidExponent problem => "Invalid exponent: " ++ problem.message
  | assignmentFormat found =>
    s!"Invalid assignment format: can't assign to {found}, use NAME = value"
  | assignmentValue found =>
    s!"Assignment failed, right hand side must be a matrix or scalar, got {found}"
  | invalidHint found => s!"Invalid parameter hint format: '{found}' is not a parameter name"
  | multiAssignment expected found =>
    s!"Assignment failed: {expected} names but {found} results"
  | unknownFunction name => s!"Unknown function '{name}'"
  | unknownService provider function => s!"No service '{provider}' provides '{function}'"
  | unknownParameter function parameter =>
    s!"'{function}' has no parameter named '{parameter}'"
  | positionalAfterHint function => s!"'{function}': positional arguments can't follow named ones"
  | duplicateParameter function parameter =>
    s!"'{function}': parameter '{parameter}' is given more than once"
  | missingParameter function parameter =>
    s!"'{function}': missing required parameter '{parameter}'"
  | tooManyArguments function max => s!"'{function}' takes at most {max} arguments"
  | argumentType value expected => s!"Can't parse {value} as {expected.name}"
  | returnType function expected => s!"'{function}' didn't return the declared {expected.name}"
  | service function error => s!"{function}: {error.message}"
  | matrix error => error.message
  | store error => error.message
  | alreadyProcessed state message =>
    s!"CMD_COMPILED: command already processed (state: {state.name}, message: {message})"

/-- The message that a failed command shows: a service speaks for itself. -/
def userMessage : EvalError → String
  | service _ error => error.message
  | error => error.message

/-- The message of the error of another part that lies behind this one. -/
def cause? : EvalError → Option String
  | lex error => some error.message
  | parse error => some error.message
  | matrix error => some error.message
  | store error => some error.message
  | _ => none

end EvalError

end MatrixCalculator
