/-!
# Reading decimal numbers

A number is written with an optional sign, digits with at most one point among, before or after
them, and an optional exponent, or as one of the words for infinity and NaN. It is read as the
double nearest to what is written, ties going to the even neighbour.
-/

set_option autoImplicit false

namespace MatrixCalculator.Number

/-- The value of a digit of ASCII. -/
def digitValue (c : Char) : Nat :=
  c.toNat - '0'.toNat

/-- The number that digits of ASCII write in base ten. -/
def ofDigits (digits : List Char) : Nat :=
  digits.foldl (fun value c ↦ 10 * value + digitValue c) 0

/-- The double nearest to `significand * 10 ^ exponent`. Beyond the range of doubles the exact power
is not needed: with `n` digits the number lies below `10 ^ (exponent + n)`. -/
def nearest (significand : Nat) (exponent : Int) : Float :=
  if significand = 0 then
    0.0
  else
    let size := exponent + (toString significand).length
    if 400 < size then
      1.0 / 0.0
    else if size < -400 then
      0.0
    else
      Float.ofScientific significand (exponent < 0) exponent.natAbs

/-- The exponent that follows the digits, zero if nothing follows. -/
def readExponent? : List Char → Option Int
  | [] => some 0
  | mark :: rest =>
    if mark = 'e' ∨ mark = 'E' then
      let (negative, digits) := match rest with
        | '-' :: digits => (true, digits)
        | '+' :: digits => (false, digits)
        | digits => (false, digits)
      if digits.isEmpty || !digits.all Char.isDigit then
        none
      else if negative then
        some (-(ofDigits digits : Int))
      else
        some (ofDigits digits)
    else
      none

/-- A number without a sign, in digits. -/
def readUnsigned? (text : List Char) : Option Float :=
  let whole := text.takeWhile Char.isDigit
  let rest := text.dropWhile Char.isDigit
  let (fraction, rest) := match rest with
    | '.' :: tail => (tail.takeWhile Char.isDigit, tail.dropWhile Char.isDigit)
    | _ => ([], rest)
  if whole.isEmpty && fraction.isEmpty then
    none
  else
    (readExponent? rest).map fun exponent ↦
      nearest (ofDigits (whole ++ fraction)) (exponent - fraction.length)

/-- The words for numbers without digits, in any case. -/
def readWord? (text : List Char) : Option Float :=
  let word := String.ofList (text.map Char.toLower)
  if word = "inf" ∨ word = "infinity" then
    some (1.0 / 0.0)
  else if word = "nan" then
    some (0.0 / 0.0)
  else
    none

/-- A whole text as a number. -/
def read? : List Char → Option Float
  | '-' :: rest => ((readUnsigned? rest).or (readWord? rest)).map fun x ↦ -x
  | '+' :: rest => (readUnsigned? rest).or (readWord? rest)
  | text => (readUnsigned? text).or (readWord? text)

end MatrixCalculator.Number
