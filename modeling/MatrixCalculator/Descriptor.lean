import MatrixCalculator.Number.Shortest
import MatrixCalculator.Value

/-!
# Descriptions of functions

A `Descriptor` tells how a function is called: its names, its parameters with their types and
defaults, what it returns and which service computes it. Nothing here computes anything.
-/

set_option autoImplicit false

namespace MatrixCalculator

/-- The declared type of a parameter. -/
inductive ParameterType where
  | int
  | float
  | matrix
  /-- Numbers, text, matrices and null alike. -/
  | dynamic
  deriving DecidableEq, Repr

namespace ParameterType

/-- The word for the type. -/
def name : ParameterType → String
  | int => "int"
  | float => "float"
  | matrix => "Matrix"
  | dynamic => "dynamic"

/-- The type with a name. -/
def ofName? (text : String) : Option ParameterType :=
  [int, float, matrix, dynamic].find? fun type ↦ type.name == text

end ParameterType

/-- The declared type of a result. -/
inductive ReturnType where
  | matrix
  /-- Several matrices at once. -/
  | matrices
  | float
  | int
  | void
  | null
  deriving DecidableEq, Repr

namespace ReturnType

/-- The word for the type. -/
def name : ReturnType → String
  | matrix => "Matrix"
  | matrices => "Matrices"
  | float => "float"
  | int => "int"
  | void => "void"
  | null => "null"

/-- The type with a name. -/
def ofName? (text : String) : Option ReturnType :=
  [matrix, matrices, float, int, void, null].find? fun type ↦ type.name == text

end ReturnType

/-- An argument as a service receives it. -/
inductive Argument where
  | int (n : Int)
  | float (x : Float)
  | matrix (value : Value)
  | text (s : String)
  | null
  deriving DecidableEq

namespace Argument

/-- An argument as a signature shows it. -/
def signatureText : Argument → String
  | int n => toString n
  | float x => plainText x
  | text s => "\"" ++ s ++ "\""
  | matrix _ => "<matrix>"
  | null => "null"

end Argument

/-- A parameter of a function. -/
structure Parameter where
  name : String
  type : ParameterType
  required : Bool
  default? : Option Argument
  deriving DecidableEq

namespace Parameter

/-- The parameter as a signature shows it, with its default or a question mark if it may be left
out. -/
def signatureText (p : Parameter) : String :=
  match p.default? with
  | some argument => s!"{p.name}: {p.type.name} = {argument.signatureText}"
  | none => if p.required then s!"{p.name}: {p.type.name}" else s!"{p.name}: {p.type.name}?"

end Parameter

/-- How a function is called and who computes it. -/
structure Descriptor where
  name : String
  aliases : List String
  parameters : List Parameter
  returns : ReturnType
  service : String
  description : String
  deriving DecidableEq

namespace Descriptor

/-- The names by which the function can be called. -/
def keys (d : Descriptor) : List String :=
  d.name :: d.aliases

/-- The position of the first parameter with a name. -/
def parameterIndex? (d : Descriptor) (name : String) : Option Nat :=
  d.parameters.findIdx? fun p ↦ p.name == name

/-- The positions of the parameters that must be given. -/
def requiredIndices (d : Descriptor) : List Nat :=
  d.parameters.zipIdx.filterMap fun (p, index) ↦ if p.required then some index else none

/-- The line that shows how the function is called. -/
def signature (d : Descriptor) : String :=
  let parameters := ", ".intercalate (d.parameters.map Parameter.signatureText)
  s!"!{d.name}({parameters}) -> {d.returns.name}"

end Descriptor

end MatrixCalculator
