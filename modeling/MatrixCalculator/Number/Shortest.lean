import MatrixCalculator.Number.Binary

/-!
# The fewest digits that read back

`Shortest.ofBinary` writes a finite positive double with the fewest decimal digits from which a
reader that rounds to nearest gets the same double again, and of those the digits closest to its
exact value. The search goes through the decimal grids from one digit to seventeen: if a point of a
grid reads back as the double, one of the double's two neighbours on that grid does.

`Layout` then says how such digits are laid out: up to which sizes the point stands in its place,
and what is written beyond.
-/

set_option autoImplicit false

namespace MatrixCalculator

/-- The number `digits * 10 ^ exponent`, of which the last digit is not zero unless it is the only
one. -/
structure Shortest where
  digits : Nat
  exponent : Int
  deriving DecidableEq, Repr

namespace Shortest

/-- Drops the zeros at the end of the digits, of which there are at most `limit`. -/
def dropZeros : Nat → Nat → Int → Shortest
  | 0, digits, exponent => ⟨digits, exponent⟩
  | limit + 1, digits, exponent =>
    if digits % 10 = 0 then dropZeros limit (digits / 10) (exponent + 1) else ⟨digits, exponent⟩

/-- The real numbers that round to a double, and the double itself, in quarters of its last place:
all are counted in the unit `2 ^ exponent / 4`. The ends belong to the interval when the significand
is even, because a tie goes to the even neighbour. -/
structure Interval where
  low : Nat
  value : Nat
  high : Nat
  exponent : Int
  closed : Bool

/-- Below a power of two the doubles lie half as far apart as above it, except next to the
subnormal numbers. -/
def Interval.ofBinary (b : Binary) : Interval where
  low := 4 * b.significand -
    if b.significand = 1 <<< 52 ∧ Binary.leastExponent < b.exponent then 1 else 2
  value := 4 * b.significand
  high := 4 * b.significand + 2
  exponent := b.exponent - 2
  closed := b.significand % 2 = 0

/-- Which of two neighbours on a grid is taken when the double lies halfway between them. -/
inductive Tie where
  | upper
  /-- The one that is an even multiple of the grid's unit. -/
  | even
  deriving DecidableEq, Repr

/-- Whether a tie goes to the lower neighbour, given as a multiple of the grid's unit. -/
def Tie.goesDown (tie : Tie) (below : Nat) : Bool :=
  match tie with
  | .upper => false
  | .even => below % 2 == 0

/-- The neighbour on the grid of multiples of `10 ^ place` that reads back as the double, the nearer
one if both do. -/
def onGrid? (tie : Tie) (interval : Interval) (place : Int) : Option Nat :=
  let binary := Nat.pow 10 (-place).toNat <<< interval.exponent.toNat
  let unit := Nat.pow 10 place.toNat <<< (-interval.exponent).toNat
  let value := interval.value * binary
  let below := value / unit
  let inside (candidate : Nat) : Bool :=
    let point := candidate * unit
    if interval.closed then
      interval.low * binary ≤ point && point ≤ interval.high * binary
    else
      interval.low * binary < point && point < interval.high * binary
  match 0 < below && inside below, inside (below + 1) with
  | true, true =>
    let down := value - below * unit
    let up := (below + 1) * unit - value
    some (if down < up || (down == up && tie.goesDown below) then below else below + 1)
  | true, false => some below
  | false, true => some (below + 1)
  | false, false => none

/-- The exponent of the first digit of a positive number `significand * 2 ^ exponent`. -/
def leadingExponent (b : Binary) : Int :=
  let estimate := (b.significand.log2 + b.exponent) * 30103 / 100000
  let reaches (power : Int) : Bool :=
    Nat.pow 10 power.toNat <<< (-b.exponent).toNat ≤
      b.significand <<< b.exponent.toNat * Nat.pow 10 (-power).toNat
  if reaches (estimate + 1) then estimate + 1
  else if reaches estimate then estimate
  else estimate - 1

/-- Tries the grids of ever more digits. Seventeen digits tell any two doubles apart, so the search
never ends empty-handed. -/
def search (tie : Tie) (interval : Interval) (leading : Int) : Nat → Shortest
  | 0 => ⟨0, 0⟩
  | remaining + 1 =>
    let place := leading + 1 - (17 - remaining : Nat)
    match onGrid? tie interval place with
    | some digits => dropZeros 17 digits place
    | none => search tie interval leading remaining

/-- The shortest digits of a positive number. -/
def ofBinary (tie : Tie) (b : Binary) : Shortest :=
  search tie (.ofBinary b) (leadingExponent b) 17

end Shortest

/-- How shortest digits become text. -/
structure Layout where
  /-- Which digits stand for a double halfway between two equally short candidates. -/
  tie : Shortest.Tie
  /-- The exponents of the first digit at which the point stands in its place. -/
  positional : Int → Bool
  /-- Whether a whole number in that form ends in a point and a zero. -/
  keepsPoint : Bool
  /-- What stands between the digits and a positive exponent in the other form. -/
  exponentMark : String
  /-- The texts of NaN and of infinity. -/
  nan : String := "NaN"
  infinity : String := "inf"

namespace Layout

/-- The digits with the point in its place, `count` of them having the last at `exponent`. -/
def positionalText (layout : Layout) (digits : String) (exponent : Int) : String :=
  let count : Int := digits.length
  if 0 ≤ exponent then
    digits ++ "".pushn '0' exponent.toNat ++ if layout.keepsPoint then ".0" else ""
  else if 0 < count + exponent then
    let whole := (count + exponent).toNat
    String.ofList (digits.toList.take whole) ++ "." ++ String.ofList (digits.toList.drop whole)
  else
    "0." ++ "".pushn '0' (-(count + exponent)).toNat ++ digits

/-- One digit before the point and the exponent of that digit behind the rest. -/
def scientificText (layout : Layout) (digits : String) (leading : Int) : String :=
  let fraction := digits.toList.drop 1
  String.ofList (digits.toList.take 1) ++
    (if fraction.isEmpty then "" else "." ++ String.ofList fraction) ++
    (if leading < 0 then "e-" ++ toString leading.natAbs
      else layout.exponentMark ++ toString leading.natAbs)

/-- The text of a magnitude other than zero. -/
def magnitudeText (layout : Layout) (shortest : Shortest) : String :=
  let digits := toString shortest.digits
  let leading := shortest.exponent + (digits.length - 1 : Nat)
  if layout.positional leading then
    layout.positionalText digits shortest.exponent
  else
    layout.scientificText digits leading

/-- The text of a double. -/
def text (layout : Layout) (x : Float) : String :=
  match Binary.ofFloat? x with
  | some b =>
    (if b.negative then "-" else "") ++
      if b.significand = 0 then
        (if layout.keepsPoint then "0.0" else "0")
      else
        layout.magnitudeText (.ofBinary layout.tie b)
  | none =>
    if x.isNaN then layout.nan
    else if 0 < x then layout.infinity
    else "-" ++ layout.infinity

/-- Messages write a number without an exponent, however large or small it is. -/
def plain : Layout where
  tie := .upper
  positional := fun _ ↦ true
  keepsPoint := false
  exponentMark := "e"

end Layout

/-- The plain text of a number, as messages show it. -/
def plainText (x : Float) : String :=
  Layout.plain.text x

end MatrixCalculator
