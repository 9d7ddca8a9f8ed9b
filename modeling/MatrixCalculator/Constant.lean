/-!
# Special values

The constants that expressions name with an exclamation mark in front. Upper and lower case differ.
-/

set_option autoImplicit false

namespace MatrixCalculator

/-- A named number, or the null value. -/
structure Constant where
  name : String
  /-- The number; null is none. -/
  value? : Option Float
  description : String

namespace Constant

/-- All constants, in the order in which they are listed. -/
def all : List Constant :=
  [⟨"pi", some 3.141592653589793, "Ratio of a circle's circumference to its diameter"⟩,
    ⟨"e", some 2.718281828459045, "Euler's number, base of the natural logarithm"⟩,
    ⟨"tau", some 6.283185307179586, "Circumference of the unit circle (2 * pi)"⟩,
    ⟨"phi", some 1.618033988749895, "The golden ratio"⟩,
    ⟨"inf", some (1.0 / 0.0), "Positive infinity"⟩,
    ⟨"nan", some (0.0 / 0.0), "Not a number"⟩,
    ⟨"null", none, "The null value; rejected by arithmetic"⟩]

/-- The constant with a name. -/
def find? (name : String) : Option Constant :=
  all.find? fun constant ↦ constant.name == name

end Constant

end MatrixCalculator
