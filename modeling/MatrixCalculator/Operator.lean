/-!
# Operators

The operator table: how each operator is written, how tightly it binds and how operators of equal
priority group.

| written | meaning                              | priority | groups to the |
|---------|--------------------------------------|----------|---------------|
| `=`     | assignment                           | 0        | right         |
| `,`     | separates arguments, no operator     | 1        |               |
| `:`     | names the parameter of an argument   | 2        | left          |
| `+ -`   | sum, difference                      | 3        | left          |
| `* / %` | product, quotient, remainder by cell | 4        | left          |
| `.* ./` | matrix product, product with inverse | 4        | left          |
| `^ .^`  | power by cell, matrix power          | 5        | right         |
| `u- u+` | signs                                | 200      | right         |
-/

set_option autoImplicit false

namespace MatrixCalculator

/-- Which of two neighbouring operators of equal priority comes first. -/
inductive Associativity where
  | left
  | right
  deriving DecidableEq, Repr

/-- The operators of the expression language. -/
inductive Operator where
  | assign
  | hint
  | add
  | subtract
  | multiply
  | divide
  | modulo
  | power
  | matrixMultiply
  | matrixDivide
  | matrixPower
  /-- The sign `-`. -/
  | negate
  /-- The sign `+`. -/
  | identity
  deriving DecidableEq, Repr

namespace Operator

/-- How the operator is written; the signs carry a `u` to tell them from sum and difference. -/
def symbol : Operator → String
  | assign => "="
  | hint => ":"
  | add => "+"
  | subtract => "-"
  | multiply => "*"
  | divide => "/"
  | modulo => "%"
  | power => "^"
  | matrixMultiply => ".*"
  | matrixDivide => "./"
  | matrixPower => ".^"
  | negate => "u-"
  | identity => "u+"

/-- The operator that stands in an expression as these characters. A sign is read as a sum or a
difference at first. -/
def ofSymbol? : List Char → Option Operator
  | ['='] => some assign
  | [':'] => some hint
  | ['+'] => some add
  | ['-'] => some subtract
  | ['*'] => some multiply
  | ['/'] => some divide
  | ['%'] => some modulo
  | ['^'] => some power
  | ['.', '*'] => some matrixMultiply
  | ['.', '/'] => some matrixDivide
  | ['.', '^'] => some matrixPower
  | _ => none

/-- Operators of higher priority bind tighter. -/
def priority : Operator → Nat
  | assign => 0
  | hint => 2
  | add | subtract => 3
  | multiply | divide | modulo | matrixMultiply | matrixDivide => 4
  | power | matrixPower => 5
  | negate | identity => 200

/-- How the operator groups with operators of its priority. -/
def associativity : Operator → Associativity
  | assign | power | matrixPower | negate | identity => .right
  | hint | add | subtract | multiply | divide | modulo | matrixMultiply | matrixDivide => .left

/-- The number of operands. -/
def arity : Operator → Nat
  | negate | identity => 1
  | _ => 2

/-- The sign that a sum or a difference becomes where no left operand can stand. -/
def sign? : Operator → Option Operator
  | add => some identity
  | subtract => some negate
  | _ => none

end Operator

/-- The priority of an argument separator, shown but never compared. -/
def separatorPriority : Nat := 1

/-- The priority of a brace or a function, shown but never compared. -/
def bracePriority : Nat := 100

end MatrixCalculator
