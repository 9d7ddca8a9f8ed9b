import MatrixCalculator.Name
import MatrixCalculator.Text.DecimalDigit

/-!
# Atoms of an expression

An expression falls apart into atoms: quoted text, numbers, words, matrix operators of two
characters and single characters, with nothing but blanks between them. `atoms` reads them from left
to right; at every character that is not blank the first of the forms below that fits is taken, as
far as it goes:

* a quote and all up to the next quote, that quote included if there is one;
* a number, which starts with a digit or with a point and a digit;
* a word, with `!` or `?` in front or without;
* a point followed by `*`, `/` or `^`;
* the character alone.
-/

set_option autoImplicit false

namespace MatrixCalculator.Atom

open Text

/-- The length of the sign at the start of the text, zero without one. -/
def signLength (text : List Char) : Nat :=
  match text with
  | c :: _ => if c = '+' ∨ c = '-' then 1 else 0
  | [] => 0

/-- The length of the exponent at the start of the text, zero if there is none: the letter `e`, a
sign if there is one, and digits. -/
def exponentLength (text : List Char) : Nat :=
  match text with
  | mark :: rest =>
    if mark = 'e' ∨ mark = 'E' then
      let digits := (rest.drop (signLength rest)).takeWhile isDecimalDigit
      if digits.isEmpty then 0 else 1 + signLength rest + digits.length
    else
      0
  | [] => 0

/-- The length of a point and the digits behind it, zero without a digit. -/
def fractionLength (text : List Char) : Nat :=
  match text with
  | '.' :: rest =>
    let digits := rest.takeWhile isDecimalDigit
    if digits.isEmpty then 0 else 1 + digits.length
  | _ => 0

/-- The length of the number at the start of the text, zero if there is none. -/
def numberLength (text : List Char) : Nat :=
  let whole := (text.takeWhile isDecimalDigit).length
  let mantissa := whole + fractionLength (text.drop whole)
  if mantissa = 0 then 0 else mantissa + exponentLength (text.drop mantissa)

/-- The length of the word at the start of the text, zero if there is none. -/
def wordLength (text : List Char) : Nat :=
  match text with
  | c :: rest => if Name.isStart c then 1 + (rest.takeWhile Name.isRest).length else 0
  | [] => 0

/-- The length of an atom of no other form: two for a point and the operator behind it, one for any
other character. -/
def glyphLength (c : Char) (rest : List Char) : Nat :=
  match rest with
  | op :: _ => if c = '.' ∧ (op = '*' ∨ op = '/' ∨ op = '^') then 2 else 1
  | [] => 1

/-- The length of the atom that starts with a character and goes on with the text behind it. -/
def length (c : Char) (rest : List Char) : Nat :=
  if c = '"' then
    let quoted := (rest.takeWhile (· != '"')).length
    if quoted < rest.length then quoted + 2 else quoted + 1
  else if 0 < numberLength (c :: rest) then
    numberLength (c :: rest)
  else if (c = '!' ∨ c = '?') ∧ 0 < wordLength rest then
    1 + wordLength rest
  else if 0 < wordLength (c :: rest) then
    wordLength (c :: rest)
  else
    glyphLength c rest

theorem glyphLength_pos (c : Char) (rest : List Char) : 0 < glyphLength c rest := by
  unfold glyphLength
  split
  · split <;> decide
  · decide

/-- An atom has at least one character. -/
theorem length_pos (c : Char) (rest : List Char) : 0 < length c rest := by
  unfold length
  split
  · dsimp only
    split <;> omega
  · split
    · assumption
    · split
      · omega
      · split
        · assumption
        · exact glyphLength_pos c rest

end Atom

open Text in
/-- The atoms of an expression. -/
def atoms : List Char → List (List Char)
  | [] => []
  | c :: rest =>
    if isBlank c then
      atoms rest
    else
      (c :: rest).take (Atom.length c rest) :: atoms (rest.drop (Atom.length c rest - 1))
termination_by text => text.length
decreasing_by
  · simp
  · simp only [List.length_drop, List.length_cons]
    omega

end MatrixCalculator
