import MatrixCalculator.Proofs.ProperResults
import MatrixCalculator.Session

/-!
# Sizes in a session

No value in a session with the built-in functions has more rows or columns than the limit on
dimensions, or than two (`sized_runAll`): only `Identity` and `Fill` are asked for sizes, which they
check, and the shape of a matrix is a matrix with two columns.
-/

set_option autoImplicit false

namespace MatrixCalculator

variable {limits : Limits} {allowed : Nat → Prop}

/-- The built-in services keep sizes, and no built-in default is a matrix. -/
theorem Registry.keepsSizes_builtin (admits : Admits limits allowed) :
    Registry.builtin.KeepsSizes limits allowed where
  one := admits.one
  defaults d isKnown p isParameter a isDefault := by
    have none : ∀ d ∈ builtinFunctions, ∀ p ∈ d.parameters, ∀ a ∈ p.default?, a.carried = [] := by
      simp [builtinFunctions, needed, optional, Argument.carried]
    rw [none d isKnown p isParameter a isDefault]
    exact List.forall_mem_nil _
  handlers entry isHandler :=
    Services.keepsSizes_of_mem_handlers isHandler allowed limits admits

namespace Session

/-- Whether the store of a session and the results of commands hold values of allowed sizes only. -/
structure Sized (limits : Limits) (allowed : Nat → Prop) (s : Session) (commands : List Command) :
    Prop where
  store : s.store.Holds limits allowed
  results : ∀ c ∈ commands, ∀ t ∈ c.result, ∀ v ∈ t.payload.carried, v.Sized allowed

/-- A line of input keeps sizes: its result is proper, and what it leaves in the store is. A failed
one shows a message and leaves nothing. -/
theorem sized_run {s : Session} (keeps : s.registry.KeepsSizes limits allowed)
    (holds : s.store.Holds limits allowed) (text : String) :
    Sized limits allowed (s.run text).1 [(s.run text).2] := by
  have isCommand := s.command_run text
  have isStore := s.store_run text
  rcases compiled : compile s.registry (Command.ofText text).expression s.store with
    ⟨error | t, left⟩ <;> rw [compiled] at isCommand isStore
  · have failed : (s.run text).2.state = .error := by
      rw [isCommand]
      rfl
    have result : (s.run text).2.result = some (.error error.userMessage) := by
      rw [isCommand]
      rfl
    rw [if_pos failed] at isStore
    refine ⟨by rwa [isStore], List.forall_mem_singleton.mpr ?_⟩
    rw [result]
    rintro _ ⟨⟩
    exact List.forall_mem_nil _
  · have succeeded : (s.run text).2.state ≠ .error := by
      rw [isCommand, Command.finish]
      dsimp only
      split_ifs <;> exact CommandState.noConfusion
    have result : (s.run text).2.result = some t := by
      rw [isCommand]
      rfl
    rw [if_neg succeeded] at isStore
    obtain ⟨holdsThen, proper, -⟩ := proper_of_compile keeps holds compiled
    refine ⟨by rwa [isStore], List.forall_mem_singleton.mpr ?_⟩
    rw [result]
    rintro _ ⟨⟩
    exact proper.sized

theorem sized_runAll_of_holds {s : Session} (keeps : s.registry.KeepsSizes limits allowed)
    (holds : s.store.Holds limits allowed) (texts : List String) :
    Sized limits allowed (s.runAll texts).1 (s.runAll texts).2 := by
  induction texts generalizing s with
  | nil => exact ⟨holds, List.forall_mem_nil _⟩
  | cons text rest ih =>
    obtain ⟨first, ofFirst⟩ := sized_run keeps holds text
    have keepsThen : (s.run text).1.registry.KeepsSizes limits allowed := by
      rwa [registry_run]
    obtain ⟨store, results⟩ := ih keepsThen first
    rw [runAll_cons]
    refine ⟨store, List.forall_mem_cons.mpr ⟨?_, results⟩⟩
    exact ofFirst _ List.mem_cons_self

/-- Whatever lines a fresh session with the built-in functions runs, no value that is bound and no
value in the result of a command has more rows or columns than the limits allow a function to be
asked for, or than two. -/
theorem sized_runAll (limits : Limits) (texts : List String) :
    let ran := (start .builtin limits).runAll texts
    Sized limits (· ≤ max limits.maxDimension 2) ran.1 ran.2 := by
  have admits : Admits limits (· ≤ max limits.maxDimension 2) :=
    ⟨le_max_right _ _, le_max_left _ _, le_trans⟩
  have holds : (start .builtin limits).store.Holds limits (· ≤ max limits.maxDimension 2) :=
    ⟨rfl, fun _ _ isBound ↦ by cases isBound⟩
  exact sized_runAll_of_holds (Registry.keepsSizes_builtin admits) holds texts

/-- The shape of a matrix has two columns even where functions make none. -/
example : ((start .builtin { maxDimension := 1 }).runAll ["A = 5", "!Shape(A)"]).2.any
    (fun c ↦ c.result.any fun t ↦ t.payload.carried.any fun v ↦ v.shape.2 = 2) = true := by
  decide +kernel

end Session

end MatrixCalculator
