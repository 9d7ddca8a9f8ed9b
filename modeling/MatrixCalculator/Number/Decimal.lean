import MatrixCalculator.Number.Binary

/-!
# Decimals of ninety-six bits

A `Decimal` is `± mantissa / 10 ^ scale` with a mantissa below `2 ^ 96` and at most twenty-eight
decimal places. Sums, differences, products and quotients of decimals are exact as far as these
bounds allow and rounded to fit them otherwise, so that `0.1 + 0.2` is `0.3`, as a reader expects of
numbers written in decimal. `ofFloat?` and `toFloat` cross between decimals and doubles, and
`rounded` and `text` are how results are printed.

Everything here is whole-number arithmetic, except for the last step back to a double.
-/

set_option autoImplicit false

namespace MatrixCalculator

/-- The number `± mantissa / 10 ^ scale`. -/
structure Decimal where
  negative : Bool
  mantissa : Nat
  scale : Nat
  deriving DecidableEq, Repr

namespace Decimal

/-- A mantissa stays below this bound. -/
def mantissaBound : Nat := 1 <<< 96

/-- The most decimal places. -/
def maxScale : Nat := 28

/-! ### From a double -/

/-- Halves a number `count` times without losing what falls behind the point: an odd number is
multiplied by five instead, which takes one more decimal place, because `m / 2 = 5 * m / 10`. Where
there is no room for the five, the last bit is lost. -/
def halve : Nat → Nat → Nat → Nat × Nat
  | 0, m, scale => (m, scale)
  | count + 1, m, scale =>
    if m % 2 = 1 ∧ 5 * m < mantissaBound then halve count (5 * m) (scale + 1)
    else halve count (m / 2) scale

/-- Rounds one decimal place off, a half going up. -/
def dropPlace (m : Nat) : Nat :=
  if 5 ≤ m % 10 then m / 10 + 1 else m / 10

/-- Rounds off the places beyond the most that a decimal has. A number too small to keep any digit
becomes zero, without decimal places. -/
def dropExcess : Nat → Nat → Nat → Nat × Nat
  | 0, m, scale => (m, scale)
  | count + 1, m, scale =>
    if m / 10 = 0 then (0, 0) else dropExcess count (dropPlace m) (scale - 1)

/-- Rounds off places until the mantissa is no longer than a double's. -/
def dropNoise : Nat → Nat → Nat × Nat
  | 0, m => (m, 0)
  | scale + 1, m =>
    if 1 <<< 52 ≤ m then dropNoise scale (dropPlace m) else (m, scale + 1)

/-- Takes off the zeros at the end of the decimal places. -/
def dropZeros : Nat → Nat → Nat × Nat
  | 0, m => (m, 0)
  | scale + 1, m => if m % 10 = 0 then dropZeros scale (m / 10) else (m, scale + 1)

/-- The decimal that a double stands for, rounded to the digits a double carries. NaN, the
infinities and doubles beyond the range of decimals stand for none. -/
def ofFloat? (x : Float) : Option Decimal := do
  let b ← Binary.ofFloat? x
  if b.significand = 0 then
    return ⟨b.negative, 0, 0⟩
  let (m, scale) ←
    if b.exponent < 0 then
      some (halve b.exponent.natAbs b.significand 0)
    else if b.significand <<< b.exponent.natAbs < mantissaBound then
      some (b.significand <<< b.exponent.natAbs, 0)
    else
      none
  let (m, scale) := dropExcess (scale - maxScale) m scale
  let (m, scale) := dropNoise scale m
  let (m, scale) := dropZeros scale m
  return ⟨b.negative, m, scale⟩

/-! ### To a double -/

/-- Powers of ten by repeated squaring, as doubles. -/
def powerOfTen (count : Nat) (base result : Float) : Float :=
  if count = 0 then
    result
  else
    powerOfTen (count / 2) (base * base) (if count % 2 = 1 then result * base else result)
termination_by count

/-- The double nearest to a whole number. -/
def nearestFloat (n : Nat) : Float :=
  Float.ofScientific n false 0

/-- The double for a decimal. The fraction is rounded on its own before it is added to the whole
part, and the sum is rounded to the decimal places at hand. Zero without decimal places has no
sign. -/
def toFloat (d : Decimal) : Float :=
  let magnitude :=
    if d.scale = 0 then
      nearestFloat d.mantissa
    else
      let whole := nearestFloat (d.mantissa / Nat.pow 10 d.scale)
      let fraction := nearestFloat (d.mantissa % Nat.pow 10 d.scale) /
        nearestFloat (Nat.pow 10 d.scale)
      if fraction == 0.0 then
        whole
      else
        let power := powerOfTen d.scale 10.0 1.0
        ((whole + fraction) * power).round / power
  if d.negative && (d.mantissa != 0 || d.scale != 0) then -magnitude else magnitude

/-! ### Arithmetic -/

/-- A quotient rounded to the nearest whole number, a tie going to the even neighbour. -/
def divideToEven (numerator denominator : Nat) : Nat :=
  let quotient := numerator / denominator
  let twice := 2 * (numerator % denominator)
  if denominator < twice ∨ (denominator = twice ∧ quotient % 2 = 1) then quotient + 1 else quotient

/-- Rounds off `dropped` decimal places, and one more as long as the mantissa has no room, up to
all of the `scale` there are. -/
def fitFrom (negative : Bool) (m scale dropped : Nat) : Nat → Option Decimal
  | 0 => none
  | tries + 1 =>
    let rounded := divideToEven m (Nat.pow 10 dropped)
    if rounded < mantissaBound then
      some ⟨negative, rounded, scale - dropped⟩
    else
      fitFrom negative m scale (dropped + 1) tries

/-- The decimal closest to `m / 10 ^ scale` among those with the most decimal places. -/
def fit (negative : Bool) (m scale : Nat) : Option Decimal :=
  if scale ≤ maxScale then
    if m < mantissaBound then some ⟨negative, m, scale⟩ else fitFrom negative m scale 1 scale
  else
    fitFrom negative m scale (scale - maxScale) (maxScale + 1)

/-- The mantissa with its sign, at a scale of at least the decimal's own. -/
def signedAt (d : Decimal) (scale : Nat) : Int :=
  let m : Int := d.mantissa * Nat.pow 10 (scale - d.scale)
  if d.negative then -m else m

/-- The opposite number. -/
def negate (d : Decimal) : Decimal :=
  { d with negative := !d.negative }

/-- The sum, and none if it is too large. -/
def add? (a b : Decimal) : Option Decimal :=
  if a.mantissa = 0 then some b
  else if b.mantissa = 0 then some a
  else
    let scale := max a.scale b.scale
    let sum := a.signedAt scale + b.signedAt scale
    fit (sum < 0) sum.natAbs scale

/-- The difference, and none if it is too large. -/
def subtract? (a b : Decimal) : Option Decimal :=
  add? a b.negate

/-- The product, and none if it is too large. -/
def multiply? (a b : Decimal) : Option Decimal :=
  if a.mantissa = 0 ∨ b.mantissa = 0 then
    some ⟨false, 0, 0⟩
  else
    fit (a.negative != b.negative) (a.mantissa * b.mantissa) (a.scale + b.scale)

/-- The most powers of ten, at most `limit`, that keep both the scale and the mantissa within
bounds. -/
def room (q : Nat) (scale : Int) : Nat → Nat
  | 0 => 0
  | limit + 1 =>
    if scale + (limit + 1 : Nat) ≤ maxScale ∧ q * Nat.pow 10 (limit + 1) < mantissaBound then
      limit + 1
    else
      room q scale limit

/-- A quotient one digit too long is rounded by that digit; `sticky` tells whether anything was cut
off behind it. Without a decimal place to give up, the quotient is too large. -/
def shortenQuotient (q : Nat) (scale : Int) (sticky : Bool) : Option (Nat × Int) :=
  if scale ≤ 0 then
    none
  else
    let rest := q / 10
    let digit := q % 10
    let up := 5 < digit ∨ (digit = 5 ∧ (sticky ∨ rest % 2 = 1))
    some (if up then rest + 1 else rest, scale - 1)

/-- Long division, up to nine decimal places in one step, until nothing is left over or there is no
room for more digits. Every step but the last adds a decimal place or brings the scale up to zero,
so `steps` of them are enough. The flag tells whether the quotient had to be extended. -/
def divideFrom (divisor : Nat) : Nat → Nat → Nat → Int → Bool → Option (Nat × Int × Bool)
  | 0, q, _, scale, extended => some (q, scale, extended)
  | steps + 1, q, r, scale, extended =>
    let extend (places : Nat) (extended : Bool) : Option (Nat × Int × Bool) :=
      let scale := scale + places
      let raised := q * Nat.pow 10 places
      if mantissaBound ≤ raised then
        none
      else
        let q := raised + r * Nat.pow 10 places / divisor
        let r := r * Nat.pow 10 places % divisor
        if mantissaBound ≤ q then
          (shortenQuotient q scale (r != 0)).map fun (q, scale) ↦ (q, scale, extended)
        else
          divideFrom divisor steps q r scale extended
    if r = 0 then
      if 0 ≤ scale then some (q, scale, extended) else extend (min 9 scale.natAbs) extended
    else
      let places := if scale = maxScale then 0 else room q scale 9
      if places < 9 ∧ scale + places < 0 then
        none
      else if places = 0 then
        let up := divisor < 2 * r ∨ (divisor = 2 * r ∧ q % 2 = 1)
        let q := if up then q + 1 else q
        if mantissaBound ≤ q then
          (shortenQuotient q scale true).map fun (q, scale) ↦ (q, scale, true)
        else
          some (q, scale, true)
      else
        extend places true

/-- Takes a power of ten off a quotient and its scale if the quotient is a multiple. -/
def takeOff (places : Nat) (likely : Nat → Bool) (quotient : Nat × Nat) : Nat × Nat :=
  let (q, scale) := quotient
  if likely q && places ≤ scale && q % Nat.pow 10 places = 0 then
    (q / Nat.pow 10 places, scale - places)
  else
    (q, scale)

/-- Takes the zeros off the end of an extended quotient: eight at a time, then four, two and one.
Zeros are looked for only where the low bits allow for them. -/
def takeOffZeros (q scale : Nat) : Nat × Nat :=
  let eight := takeOff 8 fun q ↦ q % (1 <<< 32) = 0
  takeOff 1 (fun q ↦ q % 2 = 0) (takeOff 2 (fun q ↦ q % 4 = 0)
    (takeOff 4 (fun q ↦ q % 16 = 0) (eight (eight (eight (q, scale))))))

/-- The quotient, and none if it is too large or the divisor is zero. -/
def divide? (a b : Decimal) : Option Decimal :=
  if b.mantissa = 0 then
    none
  else if a.mantissa = 0 then
    some ⟨false, 0, 0⟩
  else
    let start := divideFrom b.mantissa 64 (a.mantissa / b.mantissa) (a.mantissa % b.mantissa)
      ((a.scale : Int) - b.scale) false
    start.map fun (q, scale, extended) ↦
      let (q, scale) := if extended then takeOffZeros q scale.toNat else (q, scale.toNat)
      ⟨a.negative != b.negative, q, scale⟩

/-! ### Printing -/

/-- The decimal rounded to at most `places` decimal places, a half going away from zero. What is
rounded down to zero loses its sign. -/
def rounded (d : Decimal) (places : Nat) : Decimal :=
  if d.scale ≤ places then
    d
  else
    let unit := Nat.pow 10 (d.scale - places)
    let m := (d.mantissa + unit / 2) / unit
    ⟨d.negative && m != 0, m, places⟩

/-- The decimal without zeros at the end of its decimal places. Zero has no sign. -/
def normalized (d : Decimal) : Decimal :=
  if d.mantissa = 0 then
    ⟨false, 0, 0⟩
  else
    let (m, scale) := dropZeros d.scale d.mantissa
    ⟨d.negative, m, scale⟩

/-- The digits of the decimal with exactly its decimal places. -/
def text (d : Decimal) : String :=
  let digits := (toString d.mantissa).toList
  let digits := List.replicate (d.scale + 1 - digits.length) '0' ++ digits
  let whole := digits.length - d.scale
  (if d.negative then "-" else "") ++ String.ofList (digits.take whole) ++
    if d.scale = 0 then "" else "." ++ String.ofList (digits.drop whole)

end Decimal

end MatrixCalculator
