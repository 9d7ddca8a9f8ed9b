/-!
# Blank characters and words

A character is blank when Unicode gives it the property White_Space. `trim` takes the blanks off
both ends of a text, `words` are its longest blank-free stretches, and `squeeze` writes the words
with one space between them, which is the form in which every expression is read.
-/

set_option autoImplicit false

namespace MatrixCalculator.Text

/-- The twenty-five characters with the property White_Space. -/
def isBlank (c : Char) : Bool :=
  let point := c.toNat
  (0x09 ≤ point && point ≤ 0x0D) || point == 0x20 || point == 0x85 || point == 0xA0 ||
    point == 0x1680 || (0x2000 ≤ point && point ≤ 0x200A) || point == 0x2028 ||
    point == 0x2029 || point == 0x202F || point == 0x205F || point == 0x3000

/-- The text without the blanks at its start. -/
def trimStart (text : List Char) : List Char :=
  text.dropWhile isBlank

/-- The text without the blanks at its end. -/
def trimEnd (text : List Char) : List Char :=
  (text.reverse.dropWhile isBlank).reverse

/-- The text without the blanks at either end. -/
def trim (text : List Char) : List Char :=
  trimEnd (trimStart text)

/-- Whether nothing but blanks is in the text. -/
def isEmptyOrBlank (text : List Char) : Bool :=
  text.all isBlank

/-- The stretches between the characters at which `cut` holds, empty ones included, so that a
text with `n` such characters has `n + 1` pieces. -/
def split (cut : Char → Bool) : List Char → List (List Char)
  | [] => [[]]
  | c :: rest =>
    if cut c then
      [] :: split cut rest
    else
      match split cut rest with
      | [] => [[c]]
      | piece :: pieces => (c :: piece) :: pieces

/-- The two sides of the first character at which `cut` holds. -/
def splitOnce (cut : Char → Bool) : List Char → Option (List Char × List Char)
  | [] => none
  | c :: rest =>
    if cut c then
      some ([], rest)
    else
      (splitOnce cut rest).map fun (left, right) ↦ (c :: left, right)

/-- The longest stretches without a blank. -/
def words (text : List Char) : List (List Char) :=
  (split isBlank text).filter fun piece ↦ !piece.isEmpty

/-- The words of the text with one space between neighbours. -/
def squeeze (text : List Char) : List Char :=
  [' '].intercalate (words text)

/-- Takes off one carriage return at the end. -/
def dropFinalReturn (line : List Char) : List Char :=
  match line.reverse with
  | '\r' :: rest => rest.reverse
  | _ => line

/-- The lines of a text. A line ends at a line feed, which may follow a carriage return; text after
the last line feed is a line of its own, as it stands, unless it is empty. -/
def lines (text : List Char) : List (List Char) :=
  match (split (· == '\n') text).reverse with
  | [] => []
  | last :: ended => ended.reverse.map dropFinalReturn ++ if last.isEmpty then [] else [last]

end MatrixCalculator.Text
