import MatrixCalculator.Json.Basic
import MatrixCalculator.Number.Reading

/-!
# Reading JSON

`Json.read?` reads a whole text as one document. Each reader takes what it needs off the front of
the text and returns the rest, and arrays and objects may be nested up to a fixed depth.

A float is scaled by a power of ten from its leading digits, as many as fit into sixty-four bits, so
that it may be the neighbour of the double nearest to what is written.
-/

set_option autoImplicit false

namespace MatrixCalculator.Json

/-- The depth beyond which nesting is refused. -/
def maxDepth : Nat := 127

/-- The text without the spaces and line ends at its start. -/
def skipSpace (text : List Char) : List Char :=
  text.dropWhile fun c ↦ c == ' ' || c == '\n' || c == '\r' || c == '\t'

/-! ### Numbers -/

/-- A sixty-four bit significand and the power of ten it is to be multiplied by. -/
structure Scaled where
  significand : Nat
  exponent : Int

/-- Appends digits to a significand as long as it fits sixty-four bits. Each digit taken adds
`taken` to the exponent, each digit left over adds `dropped`. -/
def Scaled.append (taken dropped : Int) (full : Bool) : Scaled → List Char → Scaled
  | scaled, [] => scaled
  | ⟨significand, exponent⟩, c :: digits =>
    let next := 10 * significand + Number.digitValue c
    if full || 1 <<< 64 ≤ next then
      append taken dropped true ⟨significand, exponent + dropped⟩ digits
    else
      append taken dropped false ⟨next, exponent + taken⟩ digits

/-- The power of ten, up to the largest that a double holds. -/
def powerOfTen (exponent : Nat) : Float :=
  Float.ofScientific 1 false exponent

/-- Multiplies or divides by one power of ten, after dividing by the largest power as often as the
exponent demands; at most `steps` times, which is enough for any exponent that leaves more than
zero. An infinite product is refused. -/
def scale? : Nat → Float → Int → Option Float
  | 0, x, _ => some x
  | steps + 1, x, exponent =>
    if exponent.natAbs ≤ 308 then
      if 0 ≤ exponent then
        let product := x * powerOfTen exponent.natAbs
        if product.isInf then none else some product
      else
        some (x / powerOfTen exponent.natAbs)
    else if x == 0.0 then some x
    else if 0 ≤ exponent then none
    else scale? steps (x / 1e308) (exponent + 308)

/-- The double for a significand and an exponent. -/
def Scaled.float? (s : Scaled) : Option Float :=
  scale? 8 (Float.ofNat s.significand) s.exponent

/-- The exponent of a number, if one is written: its sign, its value and the rest of the text. -/
def readExponent? (text : List Char) : Option (Int × List Char) :=
  match text with
  | mark :: rest =>
    if mark = 'e' ∨ mark = 'E' then
      let (negative, rest) := match rest with
        | '-' :: rest => (true, rest)
        | '+' :: rest => (false, rest)
        | rest => (false, rest)
      let digits := rest.takeWhile Char.isDigit
      if digits.isEmpty then
        none
      else
        let value : Int := Number.ofDigits digits
        some (if negative then -value else value, rest.dropWhile Char.isDigit)
    else
      some (0, text)
  | [] => some (0, [])

/-- A number without its sign. It is whole if it has neither a fraction nor an exponent and fits
into sixty-four bits. -/
def readNumber? (negative : Bool) (text : List Char) : Option (Json × List Char) := do
  let whole := text.takeWhile Char.isDigit
  let afterWhole := text.dropWhile Char.isDigit
  if whole.isEmpty || (1 < whole.length && whole.head? == some '0') then
    none
  let (fraction, afterFraction) ← match afterWhole with
    | '.' :: rest =>
      let digits := rest.takeWhile Char.isDigit
      if digits.isEmpty then none else some (digits, rest.dropWhile Char.isDigit)
    | rest => some ([], rest)
  let (exponent, rest) ← readExponent? afterFraction
  let value := Number.ofDigits whole
  let isWhole := fraction.isEmpty && afterFraction.length == rest.length && value < 1 <<< 64
  if isWhole && !negative then
    return (int value, rest)
  if isWhole && 0 < value && value ≤ 1 <<< 63 then
    return (int (-value), rest)
  let leading := Scaled.append 0 1 false ⟨0, 0⟩ whole
  let scaled := Scaled.append (-1) 0 false leading fraction
  let x ← Scaled.float? ⟨scaled.significand, scaled.exponent + exponent⟩
  return (float (if negative then -x else x), rest)

/-! ### Strings -/

/-- Four hexadecimal digits. -/
def readHex? : List Char → Option (Nat × List Char)
  | a :: b :: c :: d :: rest => do
    let value ← [a, b, c, d].foldlM (fun total digit ↦ do
      let value ←
        if digit.isDigit then some (digit.toNat - '0'.toNat)
        else if 'a' ≤ digit ∧ digit ≤ 'f' then some (digit.toNat - 'a'.toNat + 10)
        else if 'A' ≤ digit ∧ digit ≤ 'F' then some (digit.toNat - 'A'.toNat + 10)
        else none
      return 16 * total + value) 0
    return (value, rest)
  | _ => none

/-- The character that an escape stands for, read behind the backslash. Two escapes make up a
character beyond the first 65536. -/
def readEscape? : List Char → Option (Char × List Char)
  | '"' :: rest => some ('"', rest)
  | '\\' :: rest => some ('\\', rest)
  | '/' :: rest => some ('/', rest)
  | 'b' :: rest => some (Char.ofNat 8, rest)
  | 'f' :: rest => some (Char.ofNat 12, rest)
  | 'n' :: rest => some ('\n', rest)
  | 'r' :: rest => some ('\r', rest)
  | 't' :: rest => some ('\t', rest)
  | 'u' :: rest => do
    let (first, rest) ← readHex? rest
    if 0xD800 ≤ first ∧ first < 0xDC00 then
      match rest with
      | '\\' :: 'u' :: rest =>
        let (second, rest) ← readHex? rest
        if 0xDC00 ≤ second ∧ second < 0xE000 then
          some (Char.ofNat (0x10000 + (first - 0xD800) * 0x400 + (second - 0xDC00)), rest)
        else
          none
      | _ => none
    else if 0xDC00 ≤ first ∧ first < 0xE000 then
      none
    else
      some (Char.ofNat first, rest)
  | _ => none

/-- A string, read behind its opening quote. Every step takes at least one character, so as many
steps as there are characters are enough. -/
def readString? : Nat → List Char → List Char → Option (String × List Char)
  | 0, _, _ => none
  | _, _, [] => none
  | steps + 1, done, c :: rest =>
    if c = '"' then
      some (String.ofList done.reverse, rest)
    else if c = '\\' then do
      let (escaped, rest) ← readEscape? rest
      readString? steps (escaped :: done) rest
    else if c.toNat < 32 then
      none
    else
      readString? steps (c :: done) rest

/-- A string at the start of the text. -/
def readQuoted? : List Char → Option (String × List Char)
  | '"' :: rest => readString? rest.length [] rest
  | _ => none

/-! ### Documents -/

/-- The text behind a word at its start. -/
def readWord? (word : List Char) (value : Json) (text : List Char) : Option (Json × List Char) :=
  if word.isPrefixOf text then some (value, text.drop word.length) else none

mutual

/-- A document at the start of the text. The number of steps bounds the number of documents and
separators read, and every one of them takes a character. -/
def readValue? : Nat → Nat → List Char → Option (Json × List Char)
  | 0, _, _ => none
  | steps + 1, depth, text =>
    match skipSpace text with
    | '"' :: rest => (readQuoted? ('"' :: rest)).map fun (s, rest) ↦ (string s, rest)
    | '[' :: rest =>
      match depth with
      | 0 => none
      | depth + 1 =>
        match skipSpace rest with
        | ']' :: rest => some (array [], rest)
        | rest => readItems? steps depth [] rest
    | '\x7b' :: rest =>
      match depth with
      | 0 => none
      | depth + 1 =>
        match skipSpace rest with
        | '\x7d' :: rest => some (object [], rest)
        | rest => readMembers? steps depth [] rest
    | '-' :: rest => readNumber? true rest
    | 'n' :: rest => readWord? ['u', 'l', 'l'] null rest
    | 't' :: rest => readWord? ['r', 'u', 'e'] (bool true) rest
    | 'f' :: rest => readWord? ['a', 'l', 's', 'e'] (bool false) rest
    | rest => readNumber? false rest

/-- The items of an array that are still to be read, behind those that are done. -/
def readItems? : Nat → Nat → List Json → List Char → Option (Json × List Char)
  | 0, _, _, _ => none
  | steps + 1, depth, done, text => do
    let (item, rest) ← readValue? steps depth text
    match skipSpace rest with
    | ',' :: rest => readItems? steps depth (item :: done) rest
    | ']' :: rest => some (array (item :: done).reverse, rest)
    | _ => none

/-- The members of an object that are still to be read, behind those that are done. -/
def readMembers? : Nat → Nat → List (String × Json) → List Char → Option (Json × List Char)
  | 0, _, _, _ => none
  | steps + 1, depth, done, text => do
    let (key, rest) ← readQuoted? (skipSpace text)
    match skipSpace rest with
    | ':' :: rest =>
      let (value, rest) ← readValue? steps depth rest
      match skipSpace rest with
      | ',' :: rest => readMembers? steps depth (setMember key value done) rest
      | '\x7d' :: rest => some (object (setMember key value done), rest)
      | _ => none
    | _ => none

end

/-- The document that the whole text writes. -/
def read? (text : String) : Option Json := do
  let characters := text.toList
  let (document, rest) ← readValue? (2 * characters.length + 1) maxDepth characters
  if (skipSpace rest).isEmpty then some document else none

end MatrixCalculator.Json
