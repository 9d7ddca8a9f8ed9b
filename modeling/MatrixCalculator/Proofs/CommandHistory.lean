import MatrixCalculator.Proofs.ProperResults
import MatrixCalculator.Proofs.SessionAnswers
import MatrixCalculator.Session

/-!
# The history of a session

A command that clears the history is one whose result is the answer of the function that does
(`Command.HasCleared`). The history holds the commands from the last such one on, or all of them if
there is none (`Session.Recent`), and every command in it has ended for good: its state tells what
kind of result it has (`Command.Settled`), and to evaluate it again, however often and over whatever
store, is refused and changes nothing (`Command.attempts_of_settled`).
-/

set_option autoImplicit false

namespace MatrixCalculator

/-! ### What a text comes to -/

/-- What a text comes to has the payload of its kind, whatever the functions and the store. -/
theorem carries_of_compile {registry : Registry} {text : String} {store left : Store} {t : Token}
    (compiled : compile registry text store = (.ok t, left)) :
    t.kind.carries t.payload = true := by
  have sized (v : Value) : v.Sized fun _ ↦ True := ⟨trivial, trivial⟩
  have keeps : registry.KeepsSizes store.limits fun _ ↦ True :=
    ⟨trivial, fun _ _ _ _ _ _ v _ ↦ sized v, fun _ _ _ _ _ _ v _ ↦ sized v⟩
  exact (proper_of_compile keeps ⟨rfl, fun _ v _ ↦ sized v⟩ compiled).2.2

namespace Command

/-! ### Commands that have ended -/

/-- Whether a command is what a line of input comes to over some store. -/
def IsOutcome (registry : Registry) (c : Command) : Prop :=
  ∃ text store, c = (ofText text).finish store.limits.decimals
    (compile registry (ofText text).expression store).1

/-- Whether a command has ended in the state that goes with the kind of its result. -/
structure Settled (c : Command) : Prop where
  isTerminal : c.state.isTerminal = true
  result : ∃ t, c.result = some t ∧ (c.state = .warning ↔ t.kind = .null) ∧
    (c.state = .error ↔ t.kind = .errorMarker) ∧
    (c.state = .success ↔ t.kind ≠ .null ∧ t.kind ≠ .errorMarker)

/-- Whether a command went through, and its result is the answer of the function that clears the
history. -/
def HasCleared (c : Command) : Prop :=
  c.state = .success ∧ ∃ t ∈ c.result, t.IsClearing

/-- Whether the expression of a command calls the function that clears the history, without
arguments. -/
def CallsForClearing (registry : Registry) (c : Command) : Prop :=
  ∃ store, MatrixCalculator.CallsForClearing registry store c.expression.toList

variable {registry : Registry} {c : Command}

theorem state_finish_ok (c : Command) (decimals : Nat) (t : Token) :
    (c.finish decimals (.ok t)).state = if t.kind = .null then .warning else .success := by
  simp only [finish, beq_iff_eq]

/-- The marker of a failure stands for no value, so that no value is taken for a failure. -/
theorem IsOutcome.settled (isOutcome : c.IsOutcome registry) : c.Settled := by
  obtain ⟨text, store, rfl⟩ := isOutcome
  rcases compiled : compile registry (ofText text).expression store with ⟨error | t, left⟩
  · exact ⟨rfl, .error error.userMessage, rfl, by simp [finish, Token.error]⟩
  · have carries := carries_of_compile compiled
    have noMarker : t.kind ≠ .errorMarker := by
      intro isMarker
      rw [isMarker] at carries
      cases carries
    have state := state_finish_ok (ofText text) store.limits.decimals t
    by_cases isNull : t.kind = .null
    · rw [if_pos isNull] at state
      exact ⟨by rw [state]; rfl, t, rfl, by simp [state, isNull]⟩
    · rw [if_neg isNull] at state
      exact ⟨by rw [state]; rfl, t, rfl, by simp [state, isNull, noMarker]⟩

/-- A result that is an answer is the answer of the function that clears the history. -/
theorem IsOutcome.isClearing (isOutcome : c.IsOutcome registry) {t : Token}
    (isResult : c.result = some t) (isAnswer : t.kind = .output) :
    c.state = .success ∧ t.IsClearing ∧ c.CallsForClearing registry := by
  obtain ⟨text, store, rfl⟩ := isOutcome
  rcases compiled : compile registry (ofText text).expression store with ⟨error | u, left⟩ <;>
    rw [compiled] at isResult
  · obtain rfl : Token.error error.userMessage = t := Option.some.inj isResult
    cases isAnswer
  · obtain rfl : u = t := Option.some.inj isResult
    obtain ⟨isClearing, calls⟩ := isClearing_of_compile compiled isAnswer
    refine ⟨?_, isClearing, store, calls⟩
    rw [state_finish_ok, isAnswer]
    rfl

/-- What a session takes for a command that clears the history is one. -/
theorem IsOutcome.isCleanUp_iff (isOutcome : c.IsOutcome registry) :
    c.isCleanUp = true ↔ c.HasCleared := by
  constructor
  · intro isCleanUp
    rcases result : c.result with _ | t
    · rw [Command.isCleanUp, result] at isCleanUp
      cases isCleanUp
    · rw [Command.isCleanUp, result] at isCleanUp
      have isAnswer : t.kind = .output := beq_iff_eq.mp (Bool.and_eq_true_iff.mp isCleanUp).1
      obtain ⟨succeeds, isClearing, -⟩ := isOutcome.isClearing result isAnswer
      exact ⟨succeeds, t, result, isClearing⟩
  · rintro ⟨-, t, isResult, hint, rfl⟩
    rw [isCleanUp, isResult]
    rfl

theorem IsOutcome.callsForClearing (isOutcome : c.IsOutcome registry)
    (hasCleared : c.HasCleared) : c.CallsForClearing registry := by
  obtain ⟨-, t, isResult, hint, rfl⟩ := hasCleared
  exact (isOutcome.isClearing isResult rfl).2.2

/-! ### Evaluating again -/

/-- Evaluates a command in place again and again, each time with some functions and over some store:
what comes of it and the store that is left each time, and the command that is left at last. -/
def attempts (c : Command) :
    List (Registry × Store) → List (Except EvalError CommandState × Store) × Command
  | [] => ([], c)
  | (registry, store) :: rest =>
    let (answer, evaluated, left) := c.evaluate registry store
    let (answers, last) := evaluated.attempts rest
    ((answer, left) :: answers, last)

theorem evaluate_of_settled (settled : c.Settled) (registry : Registry) (store : Store) :
    c.evaluate registry store = (.error (.alreadyProcessed c.state c.message), c, store) := by
  have notIdle : c.state ≠ .idle := by
    intro idle
    have isTerminal := settled.isTerminal
    rw [idle] at isTerminal
    cases isTerminal
  exact evaluate_of_not_idle notIdle registry store

/-- A command that has ended is never evaluated again. -/
theorem attempts_of_settled (settled : c.Settled) (tries : List (Registry × Store)) :
    c.attempts tries =
      (tries.map fun attempt ↦ (.error (.alreadyProcessed c.state c.message), attempt.2), c) := by
  induction tries with
  | nil => rfl
  | cons first rest ih =>
    rw [attempts, evaluate_of_settled settled]
    simp only [ih, List.map_cons]

end Command

/-! ### The history -/

namespace Session

/-- Whether a history consists of the commands from the last one on that clears, or of all commands
and those before them if none does. -/
inductive Recent (past commands : List Command) : List Command → Prop
  | all (none : ∀ c ∈ commands, ¬ c.HasCleared) : Recent past commands (past ++ commands)
  | since {before behind : List Command} {c : Command} (parted : commands = before ++ c :: behind)
    (clears : c.HasCleared) (none : ∀ d ∈ behind, ¬ d.HasCleared) :
    Recent past commands (c :: behind)

/-- What is in the history is one of the commands or was there before. -/
theorem Recent.subset {past commands history : List Command}
    (recent : Recent past commands history) : history ⊆ past ++ commands := by
  cases recent with
  | all none => exact List.Subset.refl _
  | since parted clears none =>
    subst parted
    exact fun d isMem ↦ List.mem_append_right past (List.mem_append_right _ isMem)

variable (s : Session) (text : String)

theorem isOutcome_run : (s.run text).2.IsOutcome s.registry :=
  ⟨text, s.store, s.command_run text⟩

theorem recent_run : Recent s.history [(s.run text).2] (s.run text).1.history := by
  rw [history_run]
  have cleared := (s.isOutcome_run text).isCleanUp_iff
  split_ifs with isCleanUp
  · exact .since (List.nil_append _).symm (cleared.mp isCleanUp) (List.forall_mem_nil _)
  · exact .all (List.forall_mem_singleton.mpr fun hasCleared ↦ isCleanUp (cleared.mpr hasCleared))

/-- Commands behind others: either some of them clears, or what there was before them stays. -/
theorem Recent.append {past first middle rest history : List Command}
    (ofFirst : Recent past first middle) (ofRest : Recent middle rest history) :
    Recent past (first ++ rest) history := by
  cases ofRest with
  | since parted clears none =>
    subst parted
    exact .since (List.append_assoc _ _ _).symm clears none
  | all noneOfRest =>
    cases ofFirst with
    | all none =>
      rw [List.append_assoc]
      exact .all (List.forall_mem_append.mpr ⟨none, noneOfRest⟩)
    | since parted clears none =>
      subst parted
      rw [List.append_assoc]
      exact .since rfl clears (List.forall_mem_append.mpr ⟨none, noneOfRest⟩)

/-- What a run records: one command for every line, each of them ended. -/
theorem recent_runAll (texts : List String) :
    Recent s.history (s.runAll texts).2 (s.runAll texts).1.history ∧
      (s.runAll texts).2.map Command.text = texts ∧
      ∀ c ∈ (s.runAll texts).2, c.IsOutcome s.registry := by
  induction texts generalizing s with
  | nil =>
    refine ⟨?_, rfl, List.forall_mem_nil _⟩
    have none : Recent s.history [] (s.history ++ []) := .all (List.forall_mem_nil _)
    rwa [List.append_nil] at none
  | cons text rest ih =>
    obtain ⟨recent, texts, areOutcomes⟩ := ih (s.run text).1
    rw [registry_run] at areOutcomes
    have sameText : (s.run text).2.text = text := by
      rw [command_run]
      cases (compile s.registry (Command.ofText text).expression s.store).1 <;> rfl
    rw [runAll_cons]
    exact ⟨(s.recent_run text).append recent, by rw [List.map_cons, sameText, texts],
      List.forall_mem_cons.mpr ⟨s.isOutcome_run text, areOutcomes⟩⟩

/-- Whatever lines a fresh session runs, its history holds the commands from the last one on whose
result is the answer to a call that clears the history, or all of them in order; these are the
commands that are taken for such. Every command in it has ended in the state that goes with the kind
of its result, and is never evaluated again: each attempt is refused with its state and its message,
and leaves it and the store as they are. -/
theorem history_runAll (registry : Registry) (limits : Limits) (texts : List String) :
    let ran := (start registry limits).runAll texts
    ran.2.map Command.text = texts ∧ Recent [] ran.2 ran.1.history ∧
      (∀ c ∈ ran.2, (c.isCleanUp = true ↔ c.HasCleared) ∧
        (c.HasCleared → c.CallsForClearing registry)) ∧
      ∀ c ∈ ran.1.history, c.Settled ∧ ∀ tries : List (Registry × Store), c.attempts tries =
        (tries.map fun attempt ↦ (.error (.alreadyProcessed c.state c.message), attempt.2), c) := by
  intro ran
  obtain ⟨recent, sameTexts, areOutcomes⟩ := (start registry limits).recent_runAll texts
  refine ⟨sameTexts, recent, fun c isMem ↦ ?_, fun c isMem ↦ ?_⟩
  · have isOutcome := areOutcomes c isMem
    exact ⟨isOutcome.isCleanUp_iff, isOutcome.callsForClearing⟩
  · have settled := (areOutcomes c (recent.subset isMem)).settled
    exact ⟨settled, c.attempts_of_settled settled⟩

/-- Of four lines the second clears the history. The third, which adds its answer to a number, fails
and clears nothing, and is not evaluated again over another store. -/
theorem history_runAll_cleared :
    let texts := ["A = 5", "!CleanUp()", "A + !CleanUp()", "B"]
    let ran := (start .builtin {}).runAll texts
    ran.1.history.map Command.text = ["!CleanUp()", "A + !CleanUp()", "B"] ∧
      (∃ c ∈ ran.1.history, c ∈ ran.2 ∧ c.HasCleared ∧ c.CallsForClearing .builtin) ∧
      ∃ c ∈ ran.1.history, c.state = .error ∧ c.Settled ∧
        c.attempts [(.builtin, .empty {}), (.empty, ran.1.store)] =
          ([(.error (.alreadyProcessed c.state c.message), .empty {}),
            (.error (.alreadyProcessed c.state c.message), ran.1.store)], c) := by
  intro texts ran
  obtain ⟨-, recent, clearing, ended⟩ := history_runAll .builtin {} texts
  have clears : ran.1.history.any Command.isCleanUp = true := by decide +kernel
  have fails : ran.1.history.any (fun c ↦ c.state == .error) = true := by decide +kernel
  obtain ⟨c, inHistory, isCleanUp⟩ := List.any_eq_true.mp clears
  obtain ⟨d, isRecorded, isError⟩ := List.any_eq_true.mp fails
  have isCommand : c ∈ ran.2 := recent.subset inHistory
  have hasCleared : c.HasCleared := (clearing c isCommand).1.mp isCleanUp
  obtain ⟨settled, refused⟩ := ended d isRecorded
  exact ⟨by decide +kernel, ⟨c, inHistory, isCommand, hasCleared,
      (clearing c isCommand).2 hasCleared⟩,
    d, isRecorded, beq_iff_eq.mp isError, settled, refused _⟩

end Session

end MatrixCalculator
