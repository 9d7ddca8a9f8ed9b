/-!
# JSON documents

A document keeps the order of the keys of its objects, and tells whole numbers from others, because
a whole number may stand where a fraction may not.
-/

set_option autoImplicit false

namespace MatrixCalculator

/-- A JSON document. Whole numbers outside the range of sixty-four bits are read as floats. -/
inductive Json where
  | null
  | bool (b : Bool)
  | int (n : Int)
  | float (x : Float)
  | string (s : String)
  | array (items : List Json)
  | object (members : List (String × Json))

namespace Json

/-- The members of an object with one more set. A key that is there already keeps its place and
takes the new value. -/
def setMember (key : String) (value : Json) : List (String × Json) → List (String × Json)
  | [] => [(key, value)]
  | member :: members =>
    if member.1 = key then (key, value) :: members else member :: setMember key value members

/-- The value of a key of an object. -/
def member? (key : String) : Json → Option Json
  | object members => members.lookup key
  | _ => none

/-- The items of an array. -/
def items? : Json → Option (List Json)
  | array items => some items
  | _ => none

/-- The members of an object. -/
def members? : Json → Option (List (String × Json))
  | object members => some members
  | _ => none

/-- The characters of a string. -/
def string? : Json → Option String
  | string s => some s
  | _ => none

/-- A truth value. -/
def bool? : Json → Option Bool
  | bool b => some b
  | _ => none

/-- A number, as the nearest double. -/
def float? : Json → Option Float
  | int n => some (Float.ofInt n)
  | float x => some x
  | _ => none

/-- A whole number that fits a signed integer of sixty-four bits. -/
def int? : Json → Option Int
  | int n => if n < 0x8000000000000000 then some n else none
  | _ => none

end Json

end MatrixCalculator
