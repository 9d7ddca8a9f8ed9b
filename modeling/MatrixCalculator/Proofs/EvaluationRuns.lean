import MatrixCalculator.Evaluation.Basic

/-!
# Runs of an evaluation

What the constructions of an evaluation do when it is run on a store. A failure is handed on with
the store as it was left (`runOn_bind`), a computation that only reads leaves the store alone
(`OnlyReads`), and binding a name is an insertion (`runOn_bindName`).
-/

set_option autoImplicit false

namespace MatrixCalculator

namespace Evaluation

variable {α β : Type}

/-- Evaluations are the same if they run alike on every store. -/
theorem ext {e f : Evaluation α} (alike : ∀ store, e.runOn store = f.runOn store) : e = f :=
  funext alike

@[simp] theorem runOn_pure (a : α) (store : Store) :
    (pure a : Evaluation α).runOn store = (.ok a, store) := rfl

@[simp] theorem runOn_get (store : Store) :
    (get : Evaluation Store).runOn store = (.ok store, store) := rfl

/-- What follows a computation runs on the store that is left, unless the computation fails. -/
theorem runOn_bind (e : Evaluation α) (f : α → Evaluation β) (store : Store) :
    (e >>= f).runOn store =
      match e.runOn store with
      | (.ok a, left) => (f a).runOn left
      | (.error error, left) => (.error error, left) := by
  change StateT.run (ExceptT.bindCont f (e.runOn store).1) (e.runOn store).2 = _
  rcases e.runOn store with ⟨_ | _, left⟩ <;> rfl

theorem runOn_bind_of_ok {e : Evaluation α} {store left : Store} {a : α}
    (returns : e.runOn store = (.ok a, left)) (f : α → Evaluation β) :
    (e >>= f).runOn store = (f a).runOn left := by
  rw [runOn_bind, returns]

theorem runOn_bind_of_error {e : Evaluation α} {store left : Store} {error : EvalError}
    (fails : e.runOn store = (.error error, left)) (f : α → Evaluation β) :
    (e >>= f).runOn store = (.error error, left) := by
  rw [runOn_bind, fails]

theorem runOn_map (f : α → β) (e : Evaluation α) (store : Store) :
    (f <$> e).runOn store = ((e.runOn store).1.map f, (e.runOn store).2) := by
  rw [map_eq_pure_bind, runOn_bind]
  rcases e.runOn store with ⟨_ | _, left⟩ <;> rfl

/-- A computation and what follows it return only if both do. -/
theorem exists_of_runOn_bind {e : Evaluation α} {f : α → Evaluation β} {store left : Store} {b : β}
    (returns : (e >>= f).runOn store = (.ok b, left)) :
    ∃ a middle, e.runOn store = (.ok a, middle) ∧ (f a).runOn middle = (.ok b, left) := by
  rcases run : e.runOn store with ⟨error | a, middle⟩
  · rw [runOn_bind_of_error run] at returns
    cases returns
  · rw [runOn_bind_of_ok run] at returns
    exact ⟨a, middle, rfl, returns⟩

@[simp] theorem runOn_ofExcept (result : Except EvalError α) (store : Store) :
    (ofExcept result : Evaluation α).runOn store = (result, store) := by
  cases result <;> rfl

/-- Reading leaves the store as it is. -/
@[simp] theorem runOn_reading (f : Store → Except EvalError α) (store : Store) :
    (reading f).runOn store = (f store, store) :=
  runOn_ofExcept (f store) store

/-- What follows a computation only matters on the results that the computation can have. -/
theorem bind_congr {e : Evaluation α} {f g : α → Evaluation β}
    (alike : ∀ store a left, e.runOn store = (.ok a, left) → f a = g a) :
    (e >>= f) = (e >>= g) := by
  refine ext fun store ↦ ?_
  rcases run : e.runOn store with ⟨error | a, left⟩
  · rw [runOn_bind_of_error run, runOn_bind_of_error run]
  · rw [runOn_bind_of_ok run, runOn_bind_of_ok run, alike store a left run]

/-! ### Reading without writing -/

/-- Whether a computation leaves every store as it is. -/
def OnlyReads (e : Evaluation α) : Prop :=
  ∀ store, (e.runOn store).2 = store

theorem onlyReads_pure (a : α) : OnlyReads (pure a) := fun _ ↦ rfl

theorem onlyReads_throw (error : EvalError) : OnlyReads (throw error : Evaluation α) := fun _ ↦ rfl

theorem onlyReads_ofExcept (result : Except EvalError α) :
    OnlyReads (ofExcept result : Evaluation α) := by
  intro store
  rw [runOn_ofExcept]

theorem onlyReads_reading (f : Store → Except EvalError α) : OnlyReads (reading f) := by
  intro store
  rw [runOn_reading]

/-- Reading afterwards leaves the same store. -/
theorem snd_runOn_bind_of_onlyReads (e : Evaluation α) {f : α → Evaluation β}
    (reads : ∀ a, OnlyReads (f a)) (store : Store) :
    ((e >>= f).runOn store).2 = (e.runOn store).2 := by
  rcases run : e.runOn store with ⟨error | a, left⟩
  · rw [runOn_bind_of_error run]
  · rw [runOn_bind_of_ok run, reads a left]

theorem OnlyReads.bind {e : Evaluation α} {f : α → Evaluation β} (first : OnlyReads e)
    (rest : ∀ a, OnlyReads (f a)) : OnlyReads (e >>= f) :=
  fun store ↦ (snd_runOn_bind_of_onlyReads e rest store).trans (first store)

end Evaluation

open Evaluation

/-- Binding a name inserts it; a refusal leaves the store as it was. -/
theorem runOn_bindName (name : String) (value : Value) (store : Store) :
    (bindName name value).runOn store =
      match store.insert name value with
      | .ok left => (.ok (), left)
      | .error error => (.error (.store error), store) := by
  have adapted : (bindName name value).runOn store =
      ((Store.runOn (Store.enter name value) store).1.mapError .store,
        (Store.runOn (Store.enter name value) store).2) := rfl
  rw [adapted, Store.runOn_enter]
  cases store.insert name value <;> rfl

end MatrixCalculator
