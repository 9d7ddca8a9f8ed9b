/-!
# States of a command
-/

set_option autoImplicit false

namespace MatrixCalculator

/-- How far a command has come. It is evaluated once and ends in one of the last three states. -/
inductive CommandState where
  | idle
  /-- Its evaluation has started. -/
  | unavailable
  | success
  /-- Evaluated, but the result is null. -/
  | warning
  | error
  deriving DecidableEq, Repr

namespace CommandState

/-- Whether the command has been evaluated. -/
def isTerminal : CommandState → Bool
  | success | warning | error => true
  | idle | unavailable => false

/-- The word for the state. -/
def name : CommandState → String
  | idle => "Idle"
  | unavailable => "Unavailable"
  | success => "Success"
  | warning => "Warning"
  | error => "Error"

end CommandState

end MatrixCalculator
