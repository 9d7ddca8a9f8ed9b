import MatrixCalculator.Registry.Metadata

/-!
# The registry with an index

An `IndexedRegistry` is what the functions of a `Registry` are in memory: a list of functions, and
an index that gives the position of a function under its name and under each of its aliases. Nothing
in the type keeps the two in step. A function is added bit by bit: each of its keys is looked for in
the index, then each is entered with the position behind the last function, and then the function is
put there.
-/

set_option autoImplicit false

namespace MatrixCalculator

/-- Functions, and positions under names and aliases. Of two entries under one key the one that was
made last comes first and counts. -/
structure IndexedRegistry where
  functions : List Descriptor
  index : List (String × Nat)

/-- A computation that adds functions and may fail. A failure leaves the registry as it was at that
point. -/
abbrev Adding (ε α : Type) := ExceptT ε (StateM IndexedRegistry) α

namespace IndexedRegistry

/-- A registry without functions. -/
def empty : IndexedRegistry :=
  ⟨[], []⟩

/-- The position under a name or an alias. -/
def position? (r : IndexedRegistry) (key : String) : Option Nat :=
  r.index.lookup key

/-- Whether there is a position under a name or an alias. -/
def contains (r : IndexedRegistry) (key : String) : Bool :=
  (r.position? key).isSome

/-- The function at the position under a name or an alias. -/
def find? (r : IndexedRegistry) (key : String) : Option Descriptor :=
  (r.position? key).bind fun position ↦ r.functions[position]?

/-- The result and the registry that is left. -/
def runOn {ε α : Type} (e : Adding ε α) (r : IndexedRegistry) : Except ε α × IndexedRegistry :=
  StateT.run e.run r

/-- Fails with a key that is taken. -/
def checkFree (key : String) : Adding String Unit := do
  if (← get).contains key then
    throw key

/-- Enters a position under a key. -/
def enter (position : Nat) (key : String) : Adding String Unit :=
  modify fun r ↦ { r with index := (key, position) :: r.index }

/-- Adds a function, unless one of its keys is taken. -/
def add (d : Descriptor) : Adding String Unit := do
  let position := (← get).functions.length
  d.keys.forM checkFree
  d.keys.forM (enter position)
  modify fun r ↦ { r with functions := r.functions ++ [d] }

/-- Adds a function that a document describes. -/
def addEntry (entry : Json) : Adding MetadataError Unit := do
  ExceptT.adapt .definedTwice (add (← ofExcept (Metadata.function entry)))

/-- The functions of a metadata document. -/
def ofDocument (document : Json) : Except MetadataError IndexedRegistry :=
  match (document.member? "functions").bind Json.items? with
  | some entries =>
    let (result, r) := runOn (entries.forM addEntry) empty
    result.map fun _ ↦ r
  | none => .error .noFunctions

/-- The functions of a metadata document in text. -/
def ofText (text : String) : Except MetadataError IndexedRegistry :=
  match Json.read? text with
  | some document => ofDocument document
  | none => .error .noJson

end IndexedRegistry

end MatrixCalculator
