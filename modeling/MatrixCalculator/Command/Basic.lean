import MatrixCalculator.Command.Compile
import MatrixCalculator.Display

/-!
# Commands

A `Command` is one line of input: an expression and, behind semicolons, settings for its display. It
is evaluated at most once and then keeps its outcome.

A result that is too wide to be shown ends the program, and so there is never a command with such an
output. Here there is one, so that what ends the program can be told from the command.
-/

set_option autoImplicit false

namespace MatrixCalculator

/-- A line of input and its outcome. -/
structure Command where
  /-- The line as it was given. -/
  text : String
  /-- What is evaluated, its words set apart by single spaces. -/
  expression : String
  settings : List String
  state : CommandState := .idle
  message : String := ""
  output : Except Display.TooWide String := .ok ""
  result : Option Token := none

namespace Command

/-- A command that has not been evaluated. -/
def ofText (text : String) : Command :=
  let pieces := Text.split (· == ';') text.toList
  { text
    expression := String.ofList (Text.squeeze (pieces.head?.getD []))
    settings := ((pieces.tail.map Text.trim).filter fun s ↦ !s.isEmpty).map String.ofList }

/-- Whether the command cleared the history. -/
def isCleanUp (c : Command) : Bool :=
  match c.result with
  | some t => t.kind == .output && t.name == Registry.cleanUpName
  | none => false

/-- The command with the outcome of its evaluation. -/
def finish (c : Command) (decimals : Nat) : Except EvalError Token → Command
  | .ok t =>
    let isNull := t.kind == .null
    { c with
      state := if isNull then .warning else .success
      message := if isNull then "Result is null" else "OK"
      output := Display.token decimals t
      result := some t }
  | .error error =>
    let message := error.userMessage
    { c with state := .error, message, output := .ok message, result := some (.error message) }

/-- Evaluates a command over a store and gives its state. A failure of the expression becomes the
outcome of the command; a command that was evaluated before is refused. -/
def evaluate (c : Command) (registry : Registry) (store : Store) :
    Except EvalError CommandState × Command × Store :=
  if c.state = .idle then
    let started := { c with state := .unavailable }
    let (result, left) := compile registry started.expression store
    let ended := started.finish store.limits.decimals result
    (.ok ended.state, ended, left)
  else
    (.error (.alreadyProcessed c.state c.message), c, store)

theorem finish_started (c : Command) (state : CommandState) (decimals : Nat)
    (result : Except EvalError Token) :
    { c with state }.finish decimals result = c.finish decimals result := by
  cases result <;> rfl

/-- A command that has not been evaluated ends with what its expression comes to. -/
theorem evaluate_of_idle {c : Command} (idle : c.state = .idle) (registry : Registry)
    (store : Store) : c.evaluate registry store =
      (.ok (c.finish store.limits.decimals (compile registry c.expression store).1).state,
        c.finish store.limits.decimals (compile registry c.expression store).1,
        (compile registry c.expression store).2) := by
  rw [evaluate, if_pos idle]
  simp only [finish_started]

/-- A command that has been evaluated is not evaluated again. -/
theorem evaluate_of_not_idle {c : Command} (notIdle : c.state ≠ .idle) (registry : Registry)
    (store : Store) : c.evaluate registry store =
      (.error (.alreadyProcessed c.state c.message), c, store) := by
  rw [evaluate, if_neg notIdle]

@[simp] theorem state_ofText (text : String) : (ofText text).state = .idle := rfl

end Command

end MatrixCalculator
