import MatrixCalculator.Json.Basic
import MatrixCalculator.Number.Shortest

/-!
# Writing JSON

`Json.compact` writes a document without any space, `Json.pretty` with two spaces of indentation for
every level. A string is written with the escapes that JSON demands and no others.
-/

set_option autoImplicit false

namespace MatrixCalculator.Json

/-- Documents show that a number is a float, and use an exponent from `1e16` on and below `1e-5`. Of
two equally short texts the one with the even digit is written. -/
def numbers : Layout where
  tie := .even
  positional := fun leading ↦ -5 ≤ leading && leading ≤ 15
  keepsPoint := true
  exponentMark := "e+"

/-- A hexadecimal digit. -/
def hexDigit (n : Nat) : Char :=
  (Nat.digitChar n)

/-- A character inside a string. -/
def escape (c : Char) : List Char :=
  if c = '"' then ['\\', '"']
  else if c = '\\' then ['\\', '\\']
  else if c.toNat = 8 then ['\\', 'b']
  else if c.toNat = 12 then ['\\', 'f']
  else if c = '\n' then ['\\', 'n']
  else if c = '\r' then ['\\', 'r']
  else if c = '\t' then ['\\', 't']
  else if c.toNat < 32 then
    ['\\', 'u', '0', '0', hexDigit (c.toNat / 16), hexDigit (c.toNat % 16)]
  else [c]

/-- A string in quotes. -/
def quoted (s : String) : String :=
  "\"" ++ String.ofList (s.toList.flatMap escape) ++ "\""

/-- How the parts of an array or an object are set apart. -/
structure Spacing where
  /-- What stands before the parts, between them and behind them at a depth. -/
  before : Nat → String
  between : Nat → String
  behind : Nat → String
  /-- What stands between a key and its value. -/
  colon : String

/-- No space at all. -/
def Spacing.none : Spacing where
  before := fun _ ↦ ""
  between := fun _ ↦ ","
  behind := fun _ ↦ ""
  colon := ":"

/-- Every part on a line of its own, indented by its depth. -/
def Spacing.lines : Spacing where
  before := fun depth ↦ "\n".pushn ' ' (2 * (depth + 1))
  between := fun depth ↦ ",\n".pushn ' ' (2 * (depth + 1))
  behind := fun depth ↦ "\n".pushn ' ' (2 * depth)
  colon := ": "

/-- The parts of an array or an object, in its brackets. -/
def enclose (spacing : Spacing) (depth : Nat) (opening closing : String) (parts : List String) :
    String :=
  if parts.isEmpty then
    opening ++ closing
  else
    opening ++ spacing.before depth ++ (spacing.between depth).intercalate parts ++
      spacing.behind depth ++ closing

mutual

/-- The text of a document at a depth. -/
def write (spacing : Spacing) (depth : Nat) : Json → String
  | null => "null"
  | bool b => if b then "true" else "false"
  | int n => toString n
  | float x => numbers.text x
  | string s => quoted s
  | array items => enclose spacing depth "[" "]" (writeItems spacing (depth + 1) items)
  | object members =>
    enclose spacing depth "\x7b" "\x7d" (writeMembers spacing (depth + 1) members)

/-- The texts of the items of an array. -/
def writeItems (spacing : Spacing) (depth : Nat) : List Json → List String
  | [] => []
  | item :: items => write spacing depth item :: writeItems spacing depth items

/-- The texts of the members of an object. -/
def writeMembers (spacing : Spacing) (depth : Nat) : List (String × Json) → List String
  | [] => []
  | (key, value) :: members =>
    (quoted key ++ spacing.colon ++ write spacing depth value) ::
      writeMembers spacing depth members

end

/-- The document without any space. -/
def compact (document : Json) : String :=
  document.write .none 0

/-- The document with one part to a line. -/
def pretty (document : Json) : String :=
  document.write .lines 0

end MatrixCalculator.Json
