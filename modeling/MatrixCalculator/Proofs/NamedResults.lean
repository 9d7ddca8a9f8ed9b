import MatrixCalculator.Proofs.BoundNames
import MatrixCalculator.Proofs.Locality

/-!
# Several names on the left

An assignment to several names counts its matrices first and then binds the names one after another.
Where a name stands twice its later place wins, so what is bound in the end is known from the names
and the matrices alone (`Store.BindsInTurn`): a name that is listed is bound to the matrix at its
last place, and any other name is as it was.

`assignMany_exact` says this of every assignment that has a result; if the matrices are too few, too
many or not several, the store is left alone. Otherwise only the store can stand in the way, and
then the names in front of the one that it refuses are bound (`exists_refused_of_assignMany`).
-/

set_option autoImplicit false

namespace MatrixCalculator

open Evaluation

namespace Store

variable {s t u : Store} {name : String} {value : Value} {names : List String} {values : List Value}

/-! ### Names in turn -/

/-- Whether a store is what another one becomes where names are bound to values one by one. -/
structure BindsInTurn (s : Store) (names : List String) (values : List Value) (t : Store) :
    Prop where
  /-- A name is bound to the value at its last place. -/
  last : ∀ (i : Nat) (name : String), names[i]? = some name →
    (∀ j : Nat, i < j → names[j]? ≠ some name) →
      ∃ value, values[i]? = some value ∧ t.get? name = some value
  /-- Any other name is as it was. -/
  other : ∀ name : String, name ∉ names → t.get? name = s.get? name

theorem bindsInTurn_nil (s : Store) : s.BindsInTurn [] [] s :=
  ⟨fun _ _ found ↦ (List.not_mem_nil (List.mem_of_getElem? found)).elim, fun _ _ ↦ rfl⟩

/-- The binding of the first name stands unless the name comes again. -/
theorem BindsInTurn.cons (first : s.insert name value = .ok t)
    (rest : t.BindsInTurn names values u) :
    s.BindsInTurn (name :: names) (value :: values) u where
  last := by
    rintro (_ | i) key found isLast
    · obtain rfl : name = key := Option.some.inj found
      have once : name ∉ names := by
        intro again
        obtain ⟨j, found⟩ := List.mem_iff_getElem?.mp again
        exact isLast (j + 1) (Nat.succ_pos j) found
      refine ⟨value, rfl, ?_⟩
      rw [rest.other name once, get?_insert first, if_pos rfl]
    · exact rest.last i key found fun j later ↦ isLast (j + 1) (Nat.succ_lt_succ later)
  other := by
    intro key isOther
    rw [List.mem_cons, not_or] at isOther
    rw [rest.other key isOther.2, get?_insert first, if_neg isOther.1]

/-! ### Room for several values -/

/-- An insertion adds no more than its own value to the values of a kind. -/
theorem countOf_insert_le (bound : s.insert name value = .ok t) (isTable : Bool) :
    t.countOf isTable ≤ s.countOf isTable + if value.isTable == isTable then 1 else 0 := by
  rcases isBound : s.contains name with _ | _
  · rcases obstacle : s.obstacle? name value with _ | error
    · obtain ⟨_, inserted, -, entries⟩ := insert_of_free isBound obstacle
      obtain rfl := Except.ok.inj (inserted.symm.trans bound)
      rw [countOf, entries, List.countP_append, List.countP_singleton]
      exact le_rfl
    · rw [insert_of_obstacle isBound obstacle] at bound
      cases bound
  · obtain rfl := Except.ok.inj ((insert_of_contains isBound value).symm.trans bound)
    obtain ⟨old, found⟩ := Option.isSome_iff_exists.mp isBound
    have counted := countP_replaceIn s.distinct found value fun entry ↦ entry.2.isTable == isTable
    exact (Nat.le_add_right _ _).trans counted.le

/-- Whether a name can be bound to any of several values that come with it: it is bound already, or
it is valid and there is room for all of them. -/
def Admits (s : Store) (values : List Value) (name : String) : Prop :=
  s.contains name = true ∨
    Name.isValid name s.limits.maxNameLength = true ∧
      ∀ isTable, s.countOf isTable + values.countP (fun value ↦ value.isTable == isTable) ≤
        s.limits.capacity isTable

/-- A name can be bound to the first of the values. -/
theorem Admits.exists_insert (admits : s.Admits (value :: values) name) :
    ∃ t, s.insert name value = .ok t := by
  refine exists_insert_iff.mpr (admits.imp_right fun ⟨isValid, room⟩ ↦ ⟨isValid, ?_⟩)
  have one := room value.isTable
  rw [List.countP_cons, if_pos (beq_self_eq_true _)] at one
  omega

/-- Where the first of the values is bound there is room for the others. -/
theorem Admits.of_insert {key : String} (admits : s.Admits (value :: values) key)
    (bound : s.insert name value = .ok t) : t.Admits values key := by
  rcases admits with isBound | ⟨isValid, room⟩
  · exact Or.inl (by rw [contains_of_insert bound, isBound, Bool.or_true])
  · rw [Admits, limits_of_insert bound]
    refine Or.inr ⟨isValid, fun isTable ↦ ?_⟩
    have added := countOf_insert_le bound isTable
    have all := room isTable
    rw [List.countP_cons] at all
    omega

end Store

/-! ### Binding one name after another -/

/-- Binds names to values in their order. -/
def bindNames (names : List String) (values : List Value) : Evaluation Unit :=
  (names.zip values).forM fun binding ↦ bindName binding.1 binding.2

theorem bindNames_cons (name : String) (value : Value) (names : List String)
    (values : List Value) :
    bindNames (name :: names) (value :: values) =
      bindName name value >>= fun _ ↦ bindNames names values := rfl

/-- Nothing but the number of matrices is looked at before they are bound. -/
theorem assignMany_of_length {names : List String} {values : List Value} {result : Token}
    (several : result.payload = .matrices values) (sameLength : values.length = names.length) :
    assignMany names result = bindNames names values >>= fun _ ↦ pure (.matrices values) := by
  rw [assignMany, several]
  dsimp only
  rw [if_neg (not_not.mpr sameLength)]
  rfl

theorem assignMany_of_length_ne {names : List String} {values : List Value} {result : Token}
    (several : result.payload = .matrices values) (otherLength : values.length ≠ names.length)
    (store : Store) : (assignMany names result).runOn store =
      (.error (.multiAssignment names.length values.length), store) := by
  rw [assignMany, several]
  dsimp only
  rw [if_pos otherLength]
  rfl

theorem assignMany_of_not_several {result : Token}
    (notSeveral : ∀ values, result.payload ≠ .matrices values) (names : List String)
    (store : Store) : (assignMany names result).runOn store =
      (.error (.multiAssignment names.length 1), store) := by
  rw [assignMany]
  split
  · exact absurd ‹_› (notSeveral _)
  · rfl

section Runs

variable {names : List String} {values : List Value}

/-- Names are bound in turn until all are, or until the store refuses one. -/
theorem runOn_bindNames (store : Store) (sameLength : values.length = names.length) :
    (∃ left, (bindNames names values).runOn store = (.ok (), left) ∧
        store.BindsInTurn names values left) ∨
      ∃ k name value left error,
        (bindNames names values).runOn store = (.error (.store error), left) ∧
          names[k]? = some name ∧ values[k]? = some value ∧
            left.insert name value = .error error ∧
              store.BindsInTurn (names.take k) (values.take k) left := by
  induction names generalizing store values with
  | nil =>
    rw [List.eq_nil_of_length_eq_zero sameLength]
    exact Or.inl ⟨store, rfl, store.bindsInTurn_nil⟩
  | cons name names ih =>
    obtain ⟨value, values, rfl⟩ := List.exists_cons_of_length_eq_add_one sameLength
    rw [bindNames_cons]
    rcases bound : store.insert name value with error | middle
    · refine Or.inr ⟨0, name, value, store, error, ?_, rfl, rfl, bound, store.bindsInTurn_nil⟩
      exact runOn_bind_of_error (by rw [runOn_bindName, bound]) _
    · rw [runOn_bind_of_ok (by rw [runOn_bindName, bound])]
      rcases ih middle (Nat.succ.inj sameLength) with
        ⟨left, done, inTurn⟩ | ⟨k, key, next, left, error, failed, isKey, isNext, refused, inTurn⟩
      · exact Or.inl ⟨left, done, .cons bound inTurn⟩
      · exact Or.inr ⟨k + 1, key, next, left, error, failed, isKey, isNext, refused,
          .cons bound inTurn⟩

/-- Names that the store admits are all bound. -/
theorem exists_runOn_bindNames {store : Store} (sameLength : values.length = names.length)
    (admits : ∀ name ∈ names, store.Admits values name) :
    ∃ left, (bindNames names values).runOn store = (.ok (), left) := by
  induction names generalizing store values with
  | nil => exact ⟨store, rfl⟩
  | cons name names ih =>
    obtain ⟨value, values, rfl⟩ := List.exists_cons_of_length_eq_add_one sameLength
    rw [List.forall_mem_cons] at admits
    obtain ⟨middle, bound⟩ := admits.1.exists_insert
    rw [bindNames_cons, runOn_bind_of_ok (by rw [runOn_bindName, bound])]
    exact ih (Nat.succ.inj sameLength) fun key isMem ↦ (admits.2 key isMem).of_insert bound

end Runs

/-! ### Assignment to several names -/

section Assignment

variable (names : List String) (result : Token) (store : Store)

/-- An assignment to several names that has the right number of matrices fails only where the store
refuses a name. The names in front of it are bound by then. -/
theorem exists_refused_of_assignMany {values : List Value}
    (several : result.payload = .matrices values) (sameLength : values.length = names.length)
    {error : EvalError} {left : Store}
    (failed : (assignMany names result).runOn store = (.error error, left)) :
    ∃ k name value refusal, error = .store refusal ∧ names[k]? = some name ∧
      values[k]? = some value ∧ left.insert name value = .error refusal ∧
        store.BindsInTurn (names.take k) (values.take k) left := by
  rw [assignMany_of_length several sameLength] at failed
  rcases runOn_bindNames store sameLength with
    ⟨left, done, -⟩ | ⟨k, name, value, left, refusal, stopped, isName, isValue, refused, inTurn⟩
  · rw [runOn_bind_of_ok done] at failed
    cases failed
  · rw [runOn_bind_of_error stopped] at failed
    cases failed
    exact ⟨k, name, value, refusal, rfl, isName, isValue, refused, inTurn⟩

/-- An assignment to several names that has a result had as many matrices as names. Every name is
bound to the matrix at its last place then, the other names are as they were, and the result is the
matrices in their order. With another number of matrices, or with a result that is not several, the
assignment fails and leaves the store as it was. It has a result wherever it has as many matrices
as names and the store admits the names. -/
theorem assignMany_exact :
    (∀ t left, (assignMany names result).runOn store = (.ok t, left) →
      ∃ values, result.payload = .matrices values ∧ values.length = names.length ∧
        t = .matrices values ∧ store.BindsInTurn names values left) ∧
    (∀ values, result.payload = .matrices values → values.length ≠ names.length →
      (assignMany names result).runOn store =
        (.error (.multiAssignment names.length values.length), store)) ∧
    ((∀ values, result.payload ≠ .matrices values) →
      (assignMany names result).runOn store =
        (.error (.multiAssignment names.length 1), store)) ∧
    ∀ values, result.payload = .matrices values → values.length = names.length →
      (∀ name ∈ names, store.Admits values name) →
        ∃ t left, (assignMany names result).runOn store = (.ok t, left) := by
  refine ⟨?_, ?_, ?_, ?_⟩
  · intro t left returns
    by_cases isSeveral : ∃ values, result.payload = .matrices values
    · obtain ⟨values, several⟩ := isSeveral
      by_cases sameLength : values.length = names.length
      · refine ⟨values, several, sameLength, ?_⟩
        rw [assignMany_of_length several sameLength] at returns
        obtain ⟨_, middle, bound, returned⟩ := exists_of_runOn_bind returns
        cases returned
        rcases runOn_bindNames store sameLength with
          ⟨left, done, inTurn⟩ | ⟨k, name, value, left, refusal, stopped, -⟩
        · cases done.symm.trans bound
          exact ⟨rfl, inTurn⟩
        · cases stopped.symm.trans bound
      · rw [assignMany_of_length_ne several sameLength store] at returns
        cases returns
    · rw [assignMany_of_not_several (not_exists.mp isSeveral)] at returns
      cases returns
  · intro values several otherLength
    exact assignMany_of_length_ne several otherLength store
  · intro notSeveral
    exact assignMany_of_not_several notSeveral names store
  · intro values several sameLength admits
    obtain ⟨left, done⟩ := exists_runOn_bindNames sameLength admits
    rw [assignMany_of_length several sameLength, runOn_bind_of_ok done]
    exact ⟨_, left, rfl⟩

end Assignment

/-- Three matrices under two names, one of which stands first and last. The third matrix is under
it, the second one under the name in between, and a third name keeps its matrix. Two matrices are
too few for the three names, and a number is not several matrices. -/
theorem assignMany_repeated_name :
    let store : Store := ⟨{}, [("A", .matrix (.scalar 0)), ("U", .matrix (.scalar 0))], by decide⟩
    let names : List String := ["L", "U", "L"]
    let values : List Value := [.matrix (.scalar 1), .matrix (.scalar 2), .matrix (.scalar 3)]
    (∃ left, (assignMany names (.matrices values)).runOn store = (.ok (.matrices values), left) ∧
      left.get? "L" = values[2]? ∧ left.get? "U" = values[1]? ∧
        left.get? "A" = store.get? "A") ∧
    (assignMany names (.matrices values.tail)).runOn store =
      (.error (.multiAssignment 3 2), store) ∧
    (assignMany names (.number 1)).runOn store = (.error (.multiAssignment 3 1), store) := by
  intro store names values
  have admits : ∀ name ∈ names, store.Admits values name := by
    have isValid : Name.isValid "L" store.limits.maxNameLength = true := by decide +kernel
    have room (isTable : Bool) : store.countOf isTable +
        values.countP (fun value ↦ value.isTable == isTable) ≤ store.limits.capacity isTable := by
      cases isTable <;> decide
    intro name isMem
    simp only [names, List.mem_cons, List.not_mem_nil, or_false] at isMem
    rcases isMem with rfl | rfl | rfl
    · exact Or.inr ⟨isValid, room⟩
    · exact Or.inl rfl
    · exact Or.inr ⟨isValid, room⟩
  obtain ⟨t, left, returns⟩ :=
    (assignMany_exact names (.matrices values) store).2.2.2 values rfl rfl admits
  obtain ⟨found, several, -, rfl, inTurn⟩ :=
    (assignMany_exact names (.matrices values) store).1 t left returns
  obtain rfl : values = found := Payload.matrices.inj several
  refine ⟨⟨left, returns, ?_, ?_, inTurn.other "A" (by decide)⟩,
    (assignMany_exact names (.matrices values.tail) store).2.1 values.tail rfl (by decide),
    (assignMany_exact names (.number 1) store).2.2.1 fun values several ↦ by cases several⟩
  · obtain ⟨value, isValue, isBound⟩ := inTurn.last 2 "L" rfl fun j later ↦ by
      rw [List.getElem?_eq_none (Nat.succ_le_of_lt later)]
      exact (Option.some_ne_none _).symm
    rw [isBound, isValue]
  · obtain ⟨value, isValue, isBound⟩ := inTurn.last 1 "U" rfl fun j later ↦ by
      rcases later with _ | later
      · decide
      · rw [List.getElem?_eq_none (Nat.succ_le_succ later)]
        exact (Option.some_ne_none _).symm
    rw [isBound, isValue]

end MatrixCalculator
