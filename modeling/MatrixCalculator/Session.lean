import MatrixCalculator.Command.Basic
import MatrixCalculator.Json.Writing

/-!
# Sessions

A `Session` holds the functions, the bindings and the history of one user. What a command binds is
kept only if the command does not fail, and a command that clears the history is the first of the
new one.
-/

set_option autoImplicit false

namespace MatrixCalculator

/-- Functions, bindings and the commands so far, the first one first. -/
structure Session where
  registry : Registry
  store : Store
  history : List Command

namespace Session

/-- A session without bindings and history. -/
def start (registry : Registry) (limits : Limits) : Session :=
  ⟨registry, .empty limits, []⟩

/-- Binds a name to a value. -/
def bind (s : Session) (name : String) (value : Value) : Except StoreError Unit × Session :=
  let (result, store) := Store.runOn (Store.enter name value) s.store
  (result, { s with store })

/-- A binding is an insertion. If it is refused the session stays as it is. -/
theorem bind_eq (s : Session) (name : String) (value : Value) : s.bind name value =
    match s.store.insert name value with
    | .ok store => (.ok (), { s with store })
    | .error error => (.error error, s) := by
  rw [bind, Store.runOn_enter]
  cases s.store.insert name value <;> rfl

/-- Evaluates a line of input over a copy of the bindings and records it. The copy is kept unless
the command fails. -/
def run (s : Session) (text : String) : Session × Command :=
  let (state, command, copy) := (Command.ofText text).evaluate s.registry s.store
  let store := if state.toOption.getD .error = .error then s.store else copy
  let history := if command.isCleanUp then [] else s.history
  ({ s with store, history := history ++ [command] }, command)

section Run

variable (s : Session) (text : String)

/-- The command of a line ends with what its expression comes to over the store of the session. -/
theorem command_run : (s.run text).2 =
    (Command.ofText text).finish s.store.limits.decimals
      (compile s.registry (Command.ofText text).expression s.store).1 := by
  rw [run, Command.evaluate_of_idle (Command.state_ofText text)]

/-- What a command leaves in the store is kept unless the command fails. -/
theorem store_run : (s.run text).1.store =
    if (s.run text).2.state = .error then s.store
    else (compile s.registry (Command.ofText text).expression s.store).2 := by
  rw [command_run, run, Command.evaluate_of_idle (Command.state_ofText text)]
  dsimp only [Except.toOption, Option.getD_some]
  congr

/-- A command is recorded behind the others, or alone if it clears them. -/
theorem history_run : (s.run text).1.history =
    (if (s.run text).2.isCleanUp then [] else s.history) ++ [(s.run text).2] := by
  rw [command_run, run, Command.evaluate_of_idle (Command.state_ofText text)]

@[simp] theorem registry_run : (s.run text).1.registry = s.registry := by
  rw [run, Command.evaluate_of_idle (Command.state_ofText text)]

end Run

/-- Evaluates lines of input one after the other. -/
def runAll (s : Session) : List String → Session × List Command
  | [] => (s, [])
  | text :: rest =>
    let (s, command) := s.run text
    let (s, commands) := s.runAll rest
    (s, command :: commands)

@[simp] theorem runAll_nil (s : Session) : s.runAll [] = (s, []) := by
  rw [runAll]

@[simp] theorem runAll_cons (s : Session) (text : String) (rest : List String) :
    s.runAll (text :: rest) = (((s.run text).1.runAll rest).1,
      (s.run text).2 :: ((s.run text).1.runAll rest).2) := by
  rw [runAll]

end Session

/-- The outcome of a command as a JSON document. -/
def Command.toJson (c : Command) : Except Display.TooWide Json :=
  c.output.map fun output ↦
    .object [("state", .string c.state.name), ("message", .string c.message),
      ("output", .string output)]

end MatrixCalculator
