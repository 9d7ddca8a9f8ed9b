import MatrixCalculator.Text.Blank

/-!
# Names

A name is made of letters and digits of ASCII and underscores, and does not start with a digit.
-/

set_option autoImplicit false

namespace MatrixCalculator.Name

/-- Whether a name can start with the character. -/
def isStart (c : Char) : Bool :=
  c.isAlpha || c == '_'

/-- Whether a name can go on with the character. -/
def isRest (c : Char) : Bool :=
  c.isAlphanum || c == '_'

/-- Whether the characters make up a name. -/
def isIdentifier : List Char → Bool
  | [] => false
  | c :: rest => isStart c && rest.all isRest

/-- Why a text cannot become a name. -/
inductive Problem where
  | blank
  | tooLong (name : String) (max : Nat)
  | notAnIdentifier (name : String)
  deriving DecidableEq, Repr

/-- What is wrong with a text as a name of at most `max` characters. -/
def problem? (name : String) (max : Nat) : Option Problem :=
  if Text.isEmptyOrBlank name.toList then some .blank
  else if max < name.length then some (.tooLong name max)
  else if isIdentifier name.toList then none
  else some (.notAnIdentifier name)

/-- Whether a text is a name of at most `max` characters. -/
def isValid (name : String) (max : Nat) : Bool :=
  (problem? name max).isNone

/-- The message for a text that cannot become a name. -/
def Problem.message : Problem → String
  | .blank => "Name can't be empty"
  | .tooLong name max =>
    s!"Name '{name}' is too long ({name.length} characters, at most {max} allowed)"
  | .notAnIdentifier name =>
    s!"Invalid name '{name}': use letters, digits and '_', not starting with a digit"

end MatrixCalculator.Name
