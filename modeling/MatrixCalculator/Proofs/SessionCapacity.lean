import MatrixCalculator.Proofs.EvaluationRuns
import MatrixCalculator.Proofs.StoreCapacity
import MatrixCalculator.Session

/-!
# What bounds the number of bindings of a session

A command changes the store where an assignment stands in its expression, and once for every name
on the left of an assignment to several names. Each of these changes is a single binding
(`changesOnce_evaluateToken`, `changesOnce_bindName`), so that the stores a session passes through
make up a `Store.Path`, and what holds of paths holds of every run of commands and bindings
(`withinLimits_of_fresh`).

The changes of a command that fails are undone. They are no part of the path, and the turns they
contain do not count.
-/

set_option autoImplicit false

namespace MatrixCalculator

namespace Evaluation

variable {α β σ : Type}

/-! ### Computations that change little -/

/-- Whether a computation makes at most one change to any store. -/
def ChangesOnce (e : Evaluation α) : Prop :=
  ∀ store : Store, store.Follows (e.runOn store).2

theorem OnlyReads.changesOnce {e : Evaluation α} (reads : OnlyReads e) : ChangesOnce e :=
  fun store ↦ Or.inl (reads store)

/-- Reading first does not count. -/
theorem OnlyReads.bind_changesOnce {e : Evaluation α} {f : α → Evaluation β} (reads : OnlyReads e)
    (changes : ∀ a, ChangesOnce (f a)) : ChangesOnce (e >>= f) := by
  intro store
  have same := reads store
  rcases run : e.runOn store with ⟨error | a, left⟩
  · rw [runOn_bind_of_error run]
    rw [run] at same
    exact Or.inl same
  · rw [runOn_bind_of_ok run]
    rw [run] at same
    obtain rfl : left = store := same
    exact changes a left

theorem ChangesOnce.bind_onlyReads {e : Evaluation α} {f : α → Evaluation β}
    (changes : ChangesOnce e) (reads : ∀ a, OnlyReads (f a)) : ChangesOnce (e >>= f) := by
  intro store
  rw [snd_runOn_bind_of_onlyReads e reads]
  exact changes store

end Evaluation

open Evaluation

theorem changesOnce_bindName (name : String) (value : Value) :
    ChangesOnce (bindName name value) := by
  intro store
  rw [runOn_bindName]
  rcases bound : store.insert name value with error | left
  · exact Or.inl rfl
  · exact Or.inr ⟨.insert name value, by rw [Store.perform, Store.runOn_enter, bound]⟩

theorem changesOnce_assign (left right : Token) : ChangesOnce (assign left right) := by
  unfold assign
  split
  · exact fun store ↦ Or.inl rfl
  · exact (onlyReads_reading _).bind_changesOnce fun value ↦
      (changesOnce_bindName left.name value).bind_onlyReads fun _ ↦ onlyReads_pure _

/-- Of all operators only an assignment changes anything. -/
theorem changesOnce_applyOperator (t : Token) (operands : List Token) :
    ChangesOnce (applyOperator t operands) := by
  unfold applyOperator
  split
  · exact (onlyReads_throw _).changesOnce
  · exact (onlyReads_throw _).changesOnce
  · unfold applyUnary
    split
    · exact (onlyReads_reading _).changesOnce
    · exact (onlyReads_reading _).changesOnce
    · exact (onlyReads_throw _).changesOnce
  · unfold applyBinary
    split
    · exact changesOnce_assign _ _
    · exact (onlyReads_ofExcept _).changesOnce
    · exact (onlyReads_reading _).changesOnce

theorem changesOnce_evaluateToken (registry : Registry) (stack : List Token) (t : Token) :
    ChangesOnce (evaluateToken registry stack t) := by
  unfold evaluateToken
  split
  · exact (onlyReads_ofExcept _).bind_changesOnce fun taken ↦
      (changesOnce_applyOperator t taken.1).bind_onlyReads fun _ ↦ onlyReads_pure _
  · exact (onlyReads_ofExcept _).bind_changesOnce fun taken ↦
      (onlyReads_reading _).changesOnce.bind_onlyReads fun _ ↦ onlyReads_pure _
  · exact (onlyReads_pure _).changesOnce

/-! ### The stores that a computation passes through -/

namespace Evaluation

variable {α σ : Type}

/-- The stores that are left by one step after the other, up to the first that fails. -/
def trail (step : σ → α → Evaluation σ) : σ → List α → Store → List Store
  | _, [], _ => []
  | state, a :: rest, store =>
    match (step state a).runOn store with
    | (.ok state, left) => left :: trail step state rest left
    | (.error _, left) => [left]

/-- Steps that make at most one change each lead along their trail. -/
theorem path_trail {step : σ → α → Evaluation σ}
    (changes : ∀ state a, ChangesOnce (step state a)) (state : σ) (items : List α)
    (store : Store) :
    Store.Path store (trail step state items store) ((items.foldlM step state).runOn store).2 := by
  induction items generalizing state store with
  | nil => exact .nil store
  | cons a rest ih =>
    have follows := changes state a store
    rw [List.foldlM_cons, trail]
    rcases run : (step state a).runOn store with ⟨error | next, left⟩
    · rw [runOn_bind_of_error run]
      rw [run] at follows
      exact .singleton follows
    · rw [runOn_bind_of_ok run]
      rw [run] at follows
      exact .cons follows (ih next left)

end Evaluation

theorem evaluateTokens_eq_foldlM (registry : Registry) (stack tokens : List Token) :
    evaluateTokens registry stack tokens = tokens.foldlM (evaluateToken registry) stack := by
  induction tokens generalizing stack with
  | nil => rfl
  | cons t rest ih => simp [evaluateTokens, ih]

/-- The stores that an expression passes through, one behind every token. -/
def expressionTrail (registry : Registry) (expression : List Char) (store : Store) : List Store :=
  match postfixOf registry store expression with
  | .ok tokens => trail (evaluateToken registry) [] tokens store
  | .error _ => []

/-- The stores that an assignment of results to several names passes through, one behind every
name. -/
def assignManyTrail (names : List String) (result : Token) (store : Store) : List Store :=
  match result.payload with
  | .matrices values =>
    if values.length = names.length then
      trail (fun _ (binding : String × Value) ↦ bindName binding.1 binding.2) ()
        (names.zip values) store
    else
      []
  | _ => []

/-- The stores that a text passes through. -/
def compileTrail (registry : Registry) (text : String) (store : Store) : List Store :=
  if Text.isEmptyOrBlank text.toList then
    []
  else
    match multiAssignment? text.toList with
    | .ok (some (names, right)) =>
      expressionTrail registry right store ++
        match (evaluateExpression registry right).runOn store with
        | (.ok result, left) => assignManyTrail (names.map String.ofList) result left
        | (.error _, _) => []
    | .ok none => expressionTrail registry text.toList store
    | .error _ => []

theorem path_expressionTrail (registry : Registry) (expression : List Char) (store : Store) :
    Store.Path store (expressionTrail registry expression store)
      ((evaluateExpression registry expression).runOn store).2 := by
  rw [expressionTrail, evaluateExpression]
  have read := runOn_reading (fun store ↦ postfixOf registry store expression) store
  rcases order : postfixOf registry store expression with error | tokens
  · rw [order] at read
    rw [runOn_bind_of_error read]
    exact .nil store
  · rw [order] at read
    rw [runOn_bind_of_ok read, evaluate]
    cases tokens with
    | nil => exact .nil store
    | cons t rest =>
      simp only [List.isEmpty_cons, Bool.false_eq_true, if_false]
      rw [snd_runOn_bind_of_onlyReads _ fun stack ↦ onlyReads_reading _, evaluateTokens_eq_foldlM]
      exact path_trail (changesOnce_evaluateToken registry) [] (t :: rest) store

theorem forM_eq_foldlM {α : Type} (f : α → Evaluation Unit) (items : List α) :
    items.forM f = items.foldlM (fun _ a ↦ f a) () := by
  induction items with
  | nil => rfl
  | cons a rest ih =>
    change (f a >>= fun _ ↦ rest.forM f) = _
    rw [List.foldlM_cons, ih]

theorem path_assignManyTrail (names : List String) (result : Token) (store : Store) :
    Store.Path store (assignManyTrail names result store)
      ((assignMany names result).runOn store).2 := by
  unfold assignManyTrail assignMany
  cases payload : result.payload with
  | matrices values =>
    by_cases counted : values.length = names.length
    · simp only [counted, ne_eq, not_true_eq_false, if_true, if_false]
      rw [snd_runOn_bind_of_onlyReads _ fun _ ↦ onlyReads_pure _, forM_eq_foldlM]
      exact path_trail (fun _ (binding : String × Value) ↦
        changesOnce_bindName binding.1 binding.2) () _ store
    · simp only [counted, ne_eq, not_false_eq_true, if_true, if_false]
      exact .nil store
  | null | number _ | matrix _ | text _ => exact .nil store

theorem path_compileTrail (registry : Registry) (text : String) (store : Store) :
    Store.Path store (compileTrail registry text store) (compile registry text store).2 := by
  unfold compileTrail compile compileText
  split_ifs with blank
  · exact .nil store
  · rcases form : multiAssignment? text.toList with error | _ | ⟨names, right⟩
    · exact .nil store
    · exact path_expressionTrail registry text.toList store
    · have front := path_expressionTrail registry right store
      change Store.Path store _ ((evaluateExpression registry right >>= fun result ↦
        assignMany (names.map String.ofList) result).runOn store).2
      rcases run : (evaluateExpression registry right).runOn store with ⟨error | result, left⟩
      · -- A failure of the right side keeps what was bound on the way; `Session.run` drops it.
        rw [run] at front
        rw [runOn_bind_of_error run]
        simpa [run] using front
      · rw [run] at front
        rw [runOn_bind_of_ok run]
        simp only [run]
        exact front.append (path_assignManyTrail _ result left)

/-! ### Sessions -/

namespace Session

/-- What can happen to a session. -/
inductive Event where
  | run (text : String)
  | bind (name : String) (value : Value)

/-- The session after an event. -/
def perform (s : Session) : Event → Session
  | .run text => (s.run text).1
  | .bind name value => (s.bind name value).2

/-- The stores that an event passes through. Those of a command that fails are not kept. -/
def eventTrail (s : Session) : Event → List Store
  | .run text =>
    if (s.run text).2.state = .error then []
    else compileTrail s.registry (Command.ofText text).expression s.store
  | .bind name value => [(s.perform (.bind name value)).store]

/-- The stores that events pass through. -/
def trail : Session → List Event → List Store
  | _, [] => []
  | s, event :: rest => s.eventTrail event ++ trail (s.perform event) rest

theorem path_eventTrail (s : Session) (event : Event) :
    Store.Path s.store (s.eventTrail event) (s.perform event).store := by
  cases event with
  | run text =>
    rw [eventTrail, perform, store_run]
    split_ifs with failed
    · exact .nil s.store
    · exact path_compileTrail s.registry (Command.ofText text).expression s.store
  | bind name value =>
    refine .singleton (Or.inr ⟨.insert name value, ?_⟩)
    rw [Store.perform, perform, bind]

theorem path_trail (s : Session) (events : List Event) :
    Store.Path s.store (s.trail events) (events.foldl perform s).store := by
  induction events generalizing s with
  | nil => exact .nil s.store
  | cons event rest ih => exact (s.path_eventTrail event).append (ih (s.perform event))

end Session

/-- From a fresh store a trail never leads to more tables than the limit allows but for matrices
that turn into tables on the way, never to more matrices but for tables that turn into matrices, and
so never to more names than both limits allow but for such turns. This holds of changes made one
after the other, and of what commands and bindings do to a fresh session. -/
theorem withinLimits_of_fresh (limits : Limits) :
    (∀ changes : List Store.Change,
      Store.WithinLimits limits ((Store.empty limits).trail changes)
        (changes.foldl Store.perform (.empty limits))) ∧
    ∀ (registry : Registry) (events : List Session.Event),
      Store.WithinLimits limits ((Session.start registry limits).trail events)
        (events.foldl Session.perform (.start registry limits)).store :=
  ⟨fun changes ↦ (Store.path_trail _ changes).withinLimits,
    fun registry events ↦ ((Session.start registry limits).path_trail events).withinLimits⟩

/-- The limits alone are no bound. A matrix that turns into a table makes room for a matrix under
another name, without a check of how many tables there are. -/
theorem limits_exceeded_after_turns :
    let limits : Limits := { maxMatrices := 1, maxTables := 1 }
    let matrix : Value := .matrix (.scalar 1)
    let table : Value := .table (.ofMatrix (.scalar 1))
    let bindings := [("a", matrix), ("a", table), ("b", matrix), ("b", table), ("c", matrix)]
    let changed := (bindings.map fun (name, value) ↦ Store.Change.insert name value).foldl
      Store.perform (.empty limits)
    let bound := ((bindings.map fun (name, value) ↦ Session.Event.bind name value).foldl
      Session.perform (.start .empty limits)).store
    (limits.maxTables < changed.tableCount ∧
        limits.maxMatrices + limits.maxTables < changed.size) ∧
      limits.maxTables < bound.tableCount ∧ limits.maxMatrices + limits.maxTables < bound.size := by
  decide +kernel

end MatrixCalculator
