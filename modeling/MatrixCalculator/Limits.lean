/-!
# Limits of a session
-/

set_option autoImplicit false

namespace MatrixCalculator

/-- What a session allows: how much it stores under names, how large the matrices are that functions
create, and how many decimal places results show. -/
structure Limits where
  maxMatrices : Nat := 16
  maxTables : Nat := 4
  maxNameLength : Nat := 64
  maxDimension : Nat := 64
  decimals : Nat := 6
  deriving DecidableEq, Repr

end MatrixCalculator
