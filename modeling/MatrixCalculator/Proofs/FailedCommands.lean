import MatrixCalculator.Session

/-!
# Commands that fail

What a command comes to depends on the functions and the bindings of its session, and on nothing
else: sessions that agree on both (`Session.Agrees`) cannot be told apart by the lines they run,
whatever happened before. A command that fails hands back the bindings it was given, wherever in its
expression it fails, so that the session it leaves agrees with the one it was run in
(`Session.agrees_run_of_hasFailed`). Both together make failed commands invisible to the commands
behind them: without the lines that fail, the other lines end as before
(`Session.runAll_survivors`). Only the history tells that they were there.
-/

set_option autoImplicit false

namespace MatrixCalculator

/-- Whether a command ended with an error. -/
def Command.hasFailed (c : Command) : Bool :=
  c.state == .error

/-- A command fails exactly if its expression does. -/
theorem Command.hasFailed_finish (c : Command) (decimals : Nat) (result : Except EvalError Token) :
    (c.finish decimals result).hasFailed = true ↔ ∃ error, result = .error error := by
  cases result with
  | ok t =>
    rw [hasFailed, finish]
    split <;> simp
  | error error =>
    exact ⟨fun _ ↦ ⟨error, rfl⟩, fun _ ↦ rfl⟩

namespace Session

/-! ### Sessions that cannot be told apart -/

/-- Whether two sessions have the same functions and the same bindings. Their histories may
differ. -/
structure Agrees (s t : Session) : Prop where
  registry : s.registry = t.registry
  store : s.store = t.store

theorem Agrees.refl (s : Session) : s.Agrees s :=
  ⟨rfl, rfl⟩

variable {s t : Session}

theorem Agrees.command_run (agrees : s.Agrees t) (text : String) :
    (s.run text).2 = (t.run text).2 := by
  rw [Session.command_run, Session.command_run, agrees.registry, agrees.store]

theorem Agrees.run (agrees : s.Agrees t) (text : String) :
    (s.run text).1.Agrees (t.run text).1 := by
  constructor
  · rw [registry_run, registry_run, agrees.registry]
  · rw [store_run, store_run, agrees.command_run, agrees.registry, agrees.store]

/-- Sessions that agree run any lines to the same commands, and agree afterwards. -/
theorem Agrees.runAll (agrees : s.Agrees t) (texts : List String) :
    (s.runAll texts).2 = (t.runAll texts).2 ∧ (s.runAll texts).1.Agrees (t.runAll texts).1 := by
  induction texts generalizing s t with
  | nil => exact ⟨rfl, agrees⟩
  | cons text rest ih =>
    obtain ⟨commands, after⟩ := ih (agrees.run text)
    rw [runAll_cons, runAll_cons, agrees.command_run, commands]
    exact ⟨rfl, after⟩

/-! ### Leaving out what fails -/

/-- A command that fails leaves a session that agrees with the one before. -/
theorem agrees_run_of_hasFailed {text : String} (failed : (s.run text).2.hasFailed = true) :
    s.Agrees (s.run text).1 := by
  constructor
  · rw [registry_run]
  · rw [store_run, if_pos (eq_of_beq failed)]

/-- The lines whose commands do not fail when all the lines are run one after the other. -/
def survivors (s : Session) (texts : List String) : List String :=
  ((texts.zip (s.runAll texts).2).filter fun line ↦ !line.2.hasFailed).map Prod.fst

theorem survivors_cons (s : Session) (text : String) (rest : List String) :
    s.survivors (text :: rest) =
      if (s.run text).2.hasFailed then (s.run text).1.survivors rest
      else text :: (s.run text).1.survivors rest := by
  rw [survivors, runAll_cons, List.zip_cons_cons, List.filter_cons]
  dsimp only
  cases (s.run text).2.hasFailed with
  | true => simp only [Bool.not_true, Bool.false_eq_true, if_false, if_true, survivors]
  | false =>
    simp only [Bool.not_false, Bool.false_eq_true, if_false, if_true, survivors, List.map_cons]

/-- Of the lines that are run one after the other only those that do not fail matter. Run without
the others, they come to the same commands and leave the same bindings. -/
theorem agrees_runAll_survivors (s : Session) (texts : List String) :
    (s.runAll (s.survivors texts)).2 = (s.runAll texts).2.filter (fun c ↦ !c.hasFailed) ∧
      (s.runAll (s.survivors texts)).1.Agrees (s.runAll texts).1 := by
  induction texts generalizing s with
  | nil => exact ⟨rfl, .refl s⟩
  | cons text rest ih =>
    obtain ⟨commands, after⟩ := ih (s.run text).1
    rw [survivors_cons, runAll_cons, List.filter_cons]
    cases failed : (s.run text).2.hasFailed with
    | true =>
      -- The survivors run in the session before the failed line instead of the one behind it.
      obtain ⟨sameCommands, sameAfter⟩ :=
        (agrees_run_of_hasFailed failed).runAll ((s.run text).1.survivors rest)
      exact ⟨sameCommands.trans commands, sameAfter.registry.trans after.registry,
        sameAfter.store.trans after.store⟩
    | false =>
      simp only [Bool.false_eq_true, if_false, Bool.not_false, if_true, runAll_cons]
      exact ⟨congrArg _ commands, after⟩

/-- Failed commands are invisible. The lines whose commands do not fail come to the same commands
and leave the same bindings when the others are left out, and a command that fails, which it does
exactly if its expression fails anywhere, leaves every binding as it was. -/
theorem runAll_survivors (s : Session) (texts : List String) :
    (s.runAll (s.survivors texts)).2 = (s.runAll texts).2.filter (fun c ↦ !c.hasFailed) ∧
      (s.runAll (s.survivors texts)).1.store = (s.runAll texts).1.store ∧
      ∀ text,
        ((s.run text).2.state = .error ↔
          ∃ error, (compile s.registry (Command.ofText text).expression s.store).1 =
            .error error) ∧
        ((s.run text).2.state = .error → (s.run text).1.store = s.store) := by
  obtain ⟨commands, after⟩ := s.agrees_runAll_survivors texts
  refine ⟨commands, after.store, fun text ↦ ⟨?_, fun failed ↦ ?_⟩⟩
  · rw [← Command.hasFailed_finish (Command.ofText text) s.store.limits.decimals,
      ← Session.command_run, Command.hasFailed, beq_iff_eq]
  · exact (agrees_run_of_hasFailed (beq_iff_eq.mpr failed)).store.symm

/-- A line that binds `A` before it comes to a name that is not bound leaves no `A` behind, and is
left out of the lines that do not fail. -/
theorem failed_inline_assignment_is_dropped :
    let s := start .empty {}
    let line := "(A = 5) + B"
    (compile s.registry (Command.ofText line).expression s.store).2.contains "A" = true ∧
      (s.run line).2.state = .error ∧ (s.run line).1.store = s.store ∧
      s.survivors ["C = 1", line, "C"] = ["C = 1", "C"] ∧
      (s.runAll ["C = 1", "C"]).1.store = (s.runAll ["C = 1", line, "C"]).1.store := by
  intro s line
  have failed : (s.run line).2.state = .error := by decide +kernel
  have rest : s.survivors ["C = 1", line, "C"] = ["C = 1", "C"] := by decide +kernel
  obtain ⟨-, sameStore, ofFailure⟩ := s.runAll_survivors ["C = 1", line, "C"]
  rw [rest] at sameStore
  exact ⟨by decide +kernel, failed, (ofFailure line).2 failed, rest, sameStore⟩

end Session

end MatrixCalculator
