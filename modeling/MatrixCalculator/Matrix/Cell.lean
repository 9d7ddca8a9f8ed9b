import MatrixCalculator.Number.Binary

/-!
# Cells of a matrix

The algorithms on matrices work over any type of cells with the four arithmetic operations and a few
tests. Doubles are the cells that the program computes with. Rational numbers are cells as well:
over them no operation rounds, so they are where the algorithms can be compared with what they
compute.
-/

set_option autoImplicit false

namespace MatrixCalculator

/-- What the algorithms ask of a cell beside its arithmetic. -/
class Cell (α : Type) extends Add α, Sub α, Mul α, Div α, Neg α, Zero α, One α where
  /-- What a sum starts from. -/
  sumStart : α
  /-- Whether the first magnitude is at most the second, in the order in which pivots are chosen. -/
  magnitudeLE : α → α → Bool
  /-- Whether a pivot of this size counts as zero: its magnitude is below `1e-10`. -/
  negligible : α → Bool
  /-- Whether the cell is zero, so that a row need not be subtracted that many times. -/
  isZero : α → Bool

/-- The magnitudes of doubles are ordered by their bits, which puts NaN above infinity, and a sum of
doubles starts from negative zero, the one start that changes no sum. -/
instance : Cell Float where
  sumStart := -0.0
  magnitudeLE x y := x.abs.toBits ≤ y.abs.toBits
  negligible x := x.abs < 1e-10
  isZero x := x == 0.0

/-- The magnitude of a rational number. -/
def magnitude (x : Rat) : Rat :=
  if x < 0 then -x else x

/-- Exact cells. -/
instance : Cell Rat where
  zero := 0
  one := 1
  sumStart := 0
  magnitudeLE x y := magnitude x ≤ magnitude y
  negligible x := magnitude x < 1 / 10000000000
  isZero x := x == 0

/-- The sum of `term 0`, `term 1`, … in this order. -/
def sumOf {α : Type} [Cell α] (count : Nat) (term : Fin count → α) : α :=
  Fin.foldl count (fun total index ↦ total + term index) Cell.sumStart

end MatrixCalculator
