import MatrixCalculator.Constant
import MatrixCalculator.Registry.Basic
import MatrixCalculator.Store

/-!
# Help texts

A query names a function, a constant or a matrix, in this order of precedence. `Topic.find` says
which of them a name means, `Topic.text` what is told about it, and `overview` lists everything
there is.
-/

set_option autoImplicit false

namespace MatrixCalculator

/-- What a query is about. -/
inductive Topic where
  | function (d : Descriptor)
  | constant (c : Constant)
  /-- A name that a matrix has or could have. -/
  | matrix (name : String) (value? : Option Value)
  | nothing (name : String)

/-- The signature of a function, its aliases and what it does. -/
def Descriptor.help (d : Descriptor) : String :=
  let aliases := if d.aliases.isEmpty then "" else "\n  aliases: " ++ ", ".intercalate d.aliases
  let description := if d.description.isEmpty then "" else "\n  " ++ d.description
  d.signature ++ aliases ++ description

/-- The value of a constant and what it is. -/
def Constant.help (c : Constant) : String :=
  match c.value? with
  | some x => s!"!{c.name} = {plainText x}\n  {c.description}"
  | none => s!"!{c.name}\n  {c.description}"

namespace Topic

/-- What a name means. -/
def find (name : String) (registry : Registry) (store : Store) : Topic :=
  match registry.find? name, Constant.find? name with
  | some d, _ => function d
  | none, some c => constant c
  | none, none =>
    if Name.isIdentifier name.toList then matrix name (store.get? name) else nothing name

/-- The help on a topic. -/
def text : Topic → String
  | function d => d.help
  | constant c => c.help
  | matrix name (some value) =>
    let (rows, cols) := value.shape
    s!"{name}: {value.typeName} with {rows} rows and {cols} columns"
  | matrix name none => s!"{name}: no matrix with this name yet; create one with {name} = ..."
  | nothing name => s!"Nothing found for '{name}'"

end Topic

namespace Help

/-- Functions are listed service by service, by name within a service. -/
def listedBefore (d e : Descriptor) : Bool :=
  if d.service = e.service then d.name ≤ e.name else d.service < e.service

/-- The signatures of functions, with a heading wherever the service changes. -/
def signatures (service : String) : List Descriptor → String
  | [] => ""
  | d :: rest =>
    (if d.service = service then "" else s!"\n  [{d.service}]\n") ++ s!"  {d.signature}\n" ++
      signatures d.service rest

/-- A constant in the list of constants, the descriptions starting in one column. -/
def constantLine (c : Constant) : String :=
  "  !" ++ c.name.pushn ' ' (6 - c.name.length) ++ s!" {c.description}\n"

/-- Every function and every constant. -/
def overview (registry : Registry) : String :=
  "FUNCTIONS\n" ++ signatures "" (registry.functions.mergeSort listedBefore) ++
    "\nSPECIAL VALUES\n\n" ++ String.join (Constant.all.map constantLine) ++
    "\nUse ?Name for details on a single function, value or matrix.\n"

end Help

end MatrixCalculator
