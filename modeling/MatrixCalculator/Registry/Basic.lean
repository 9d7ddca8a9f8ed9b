import MatrixCalculator.Descriptor
import MatrixCalculator.Limits

/-!
# The registry of functions

A `Registry` knows the functions that expressions can call, each by its name and its aliases, and
the handlers of the services that compute them. No key belongs to two functions (`Registry.apart`),
so that an alias finds the same function as the name does.
-/

set_option autoImplicit false

namespace MatrixCalculator

/-- What a service hands back. -/
inductive ServiceOutput where
  | value (v : Value)
  | values (vs : List Value)
  | number (x : Float)
  | void
  | null

/-- Why a service fails. -/
inductive ServiceError where
  /-- An argument is missing or of a type that the service cannot use. -/
  | expected (what : String) (found : Option Argument)
  | dimensionTooSmall (what : String) (n : Int)
  | dimensionTooLarge (what : String) (max : Nat) (n : Int)
  | negativeIndex (what : String) (n : Int)
  | decimalsOutOfRange (n : Int)
  | matrix (error : MatrixError)
  | failure (message : String)

/-- The code behind a function. The arguments come in the order of the parameters. -/
abbrev Handler := List Argument → Limits → Except ServiceError ServiceOutput

/-- Functions and handlers. -/
structure Registry where
  functions : List Descriptor
  /-- No function has a name or an alias of another. -/
  apart : functions.Pairwise fun d e ↦ ∀ key ∈ d.keys, key ∉ e.keys
  /-- Handlers under the service and the name of their function. -/
  handlers : List ((String × String) × Handler)

namespace Registry

/-- A registry without functions. -/
def empty : Registry :=
  ⟨[], .nil, []⟩

/-- The function that goes by a name or an alias. Upper and lower case differ. -/
def find? (r : Registry) (key : String) : Option Descriptor :=
  r.functions.find? fun d ↦ d.keys.contains key

/-- Whether a function goes by a name or an alias. -/
def contains (r : Registry) (key : String) : Bool :=
  (r.find? key).isSome

/-- The first key of a function that another function has already. -/
def takenKey? (r : Registry) (d : Descriptor) : Option String :=
  d.keys.find? r.contains

/-- A key that finds no function belongs to none. -/
theorem not_mem_keys_of_contains_eq_false {r : Registry} {key : String}
    (h : r.contains key = false) {d : Descriptor} (hd : d ∈ r.functions) : key ∉ d.keys := by
  simp only [contains, find?, Option.isSome_eq_false_iff, Option.isNone_iff_eq_none,
    List.find?_eq_none] at h
  simpa using h d hd

/-- Adds a function, unless one of its keys is taken; the answer is then that key. -/
def add (r : Registry) (d : Descriptor) : Except String Registry :=
  match taken : r.takenKey? d with
  | some key => .error key
  | none =>
    .ok { r with
      functions := r.functions ++ [d]
      apart := by
        rw [List.pairwise_append]
        refine ⟨r.apart, by simp, fun e he f hf key hkey ↦ ?_⟩
        obtain rfl : f = d := by simpa using hf
        intro isKey
        have free := List.find?_eq_none.mp taken key isKey
        exact not_mem_keys_of_contains_eq_false (by simpa using free) he hkey }

/-- Puts a handler in place of any earlier one for the function. -/
def register (r : Registry) (service function : String) (handler : Handler) : Registry :=
  { r with handlers := ((service, function), handler) :: r.handlers }

/-- The handler for a function of a service. -/
def handler? (r : Registry) (service function : String) : Option Handler :=
  r.handlers.lookup (service, function)

end Registry

end MatrixCalculator
