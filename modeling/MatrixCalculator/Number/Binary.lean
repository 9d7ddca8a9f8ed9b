/-!
# Doubles as binary fractions

A finite double is `± significand * 2 ^ exponent` with whole numbers for both. The exact answers
about doubles that the library needs, its digits, its decimal value and the remainder of a division,
are computed on these two numbers.
-/

set_option autoImplicit false

namespace MatrixCalculator

/-- A finite double, taken apart: `significand` is below `2 ^ 53`, and `exponent` is at least
`-1074`, where the subnormal numbers lie. -/
structure Binary where
  negative : Bool
  significand : Nat
  exponent : Int
  deriving DecidableEq, Repr

namespace Binary

/-- The least exponent, which zero and the subnormal numbers share with the least normal ones. -/
def leastExponent : Int := -1074

/-- Takes a double apart; NaN and the infinities have no parts. -/
def ofFloat? (x : Float) : Option Binary :=
  let bits := x.toBits.toNat
  let negative := bits >>> 63 == 1
  let field := bits >>> 52 % 2048
  let fraction := bits % (1 <<< 52)
  if field = 2047 then
    none
  else if field = 0 then
    some ⟨negative, fraction, leastExponent⟩
  else
    some ⟨negative, fraction + 1 <<< 52, leastExponent + (field - 1 : Nat)⟩

/-- The double with these parts. The answer is exact when the parts come from a double, or from a
smaller significand over the same exponent. -/
def toFloat (b : Binary) : Float :=
  let magnitude := (Float.ofNat b.significand).scaleB b.exponent
  if b.negative then -magnitude else magnitude

/-- The value, if it is a whole number. -/
def toInt? (b : Binary) : Option Int :=
  let magnitude? :=
    if 0 ≤ b.exponent then some (b.significand <<< b.exponent.toNat)
    else if b.significand % (1 <<< b.exponent.natAbs) = 0 then
      some (b.significand >>> b.exponent.natAbs)
    else none
  magnitude?.map fun magnitude : Nat ↦ if b.negative then -(magnitude : Int) else magnitude

end Binary

/-- The remainder of a division truncated toward zero, computed without rounding: it has the sign of
the dividend, also when it is zero. A zero divisor or an infinite dividend leaves no remainder, and
an infinite divisor leaves the dividend. -/
def remainder (x y : Float) : Float :=
  match Binary.ofFloat? x, Binary.ofFloat? y with
  | some a, some b =>
    if b.significand = 0 then
      0.0 / 0.0
    else
      let exponent := min a.exponent b.exponent
      let dividend := a.significand <<< (a.exponent - exponent).toNat
      let divisor := b.significand <<< (b.exponent - exponent).toNat
      Binary.toFloat ⟨a.negative, dividend % divisor, exponent⟩
  | some _, none => if y.isNaN then y else x
  | none, _ => 0.0 / 0.0

end MatrixCalculator
