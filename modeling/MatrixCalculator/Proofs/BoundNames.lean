import MatrixCalculator.Proofs.SessionCapacity
import MatrixCalculator.Proofs.StoreGrowth

/-!
# The names that are bound

A store checks a name when it is bound first, and a name that is bound is not checked again.
Whatever binds names goes through `Store.insert`: changes asked of a store, values bound to a
session, and the assignments of its commands, which do nothing to the store but insert
(`grows_compile`). So every bound name is valid at any time (`Store.NamesValid`,
`boundNames_of_fresh`).

An insertion goes through or is refused as a whole. It is made in place, and no check stands behind
a change (`Store.runOn_enter`). `Store.exists_insert_iff` says when it goes through.
-/

set_option autoImplicit false

namespace MatrixCalculator

namespace Store

variable {limits : Limits} {s t : Store} {name : String} {value : Value}

/-! ### When an insertion goes through -/

/-- Nothing stands in the way of a new name if it is valid and there is room for its value. -/
theorem obstacle?_eq_none_iff : s.obstacle? name value = none ↔
    Name.isValid name s.limits.maxNameLength = true ∧
      s.countOf value.isTable < s.limits.capacity value.isTable := by
  refine ⟨fun free ↦ ⟨?_, countOf_lt_of_obstacle?_eq_none free⟩, fun ⟨isValid, room⟩ ↦ ?_⟩
  · rw [Name.isValid]
    rcases problem : Name.problem? name s.limits.maxNameLength with _ | found
    · rfl
    · rw [obstacle?, problem] at free
      cases free
  · rw [Name.isValid, Option.isNone_iff_eq_none] at isValid
    rw [obstacle?, isValid]
    rcases kind : value.isTable with _ | _ <;> rw [kind] at room
    · rw [← matrixCount_eq_countOf] at room
      exact if_neg (not_le.mpr room)
    · rw [← tableCount_eq_countOf] at room
      exact if_neg (not_le.mpr room)

/-- An insertion goes through under a name that is bound, and under a new one if the name is valid
and there is room for the value. -/
theorem exists_insert_iff : (∃ t, s.insert name value = .ok t) ↔
    s.contains name = true ∨
      Name.isValid name s.limits.maxNameLength = true ∧
        s.countOf value.isTable < s.limits.capacity value.isTable := by
  rw [← obstacle?_eq_none_iff, insert]
  split_ifs with unbound
  · rw [unbound]
    split
    · rename_i error found
      simp [found]
    · rename_i free
      simp [free]
  · have isBound : s.contains name = true := Bool.eq_true_of_not_eq_false unbound
    exact ⟨fun _ ↦ .inl isBound, fun _ ↦ ⟨_, rfl⟩⟩

/-! ### Valid names -/

/-- Whether every bound name is valid under the limits that the store was made with. -/
structure NamesValid (limits : Limits) (s : Store) : Prop where
  limits_eq : s.limits = limits
  isValid : ∀ name, s.contains name = true → Name.isValid name limits.maxNameLength = true

theorem namesValid_empty (limits : Limits) : (empty limits).NamesValid limits :=
  ⟨rfl, fun _ isBound ↦ by cases isBound⟩

/-- An insertion changes no limits. -/
theorem limits_of_insert (bound : s.insert name value = .ok t) : t.limits = s.limits := by
  rcases insert_cases bound with rfl | ⟨-, same, -⟩
  · rfl
  · exact same

/-- The name of an insertion is checked, or it was bound before. -/
theorem NamesValid.insert (names : s.NamesValid limits) (bound : s.insert name value = .ok t) :
    t.NamesValid limits := by
  refine ⟨(limits_of_insert bound).trans names.limits_eq, fun key isBound ↦ ?_⟩
  rw [contains_of_insert bound, Bool.or_eq_true, beq_iff_eq] at isBound
  rcases isBound with rfl | before
  · rcases exists_insert_iff.mp ⟨t, bound⟩ with before | ⟨isValid, -⟩
    · exact names.isValid key before
    · rwa [names.limits_eq] at isValid
  · exact names.isValid key before

theorem NamesValid.grows (names : s.NamesValid limits) (grows : s.Grows t) :
    t.NamesValid limits := by
  induction grows with
  | refl => exact names
  | insert _ bound ih => exact ih.insert bound

/-- What binds no new name leaves the names valid. -/
theorem NamesValid.of_contains (names : s.NamesValid limits) (sameLimits : t.limits = s.limits)
    (fewer : ∀ key, t.contains key = true → s.contains key = true) : t.NamesValid limits :=
  ⟨sameLimits.trans names.limits_eq, fun key isBound ↦ names.isValid key (fewer key isBound)⟩

theorem contains_of_contains_replace {key : String}
    (isBound : (s.replace name value).contains key = true) : s.contains key = true := by
  rw [contains, get?_replace] at isBound
  split_ifs at isBound
  · rwa [Option.isSome_map] at isBound
  · exact isBound

theorem contains_of_contains_remove {key : String}
    (isBound : (s.remove name).contains key = true) : s.contains key = true := by
  rw [contains, get?_remove] at isBound
  split_ifs at isBound
  · cases isBound
  · exact isBound

theorem NamesValid.perform (names : s.NamesValid limits) (change : Change) :
    (s.perform change).NamesValid limits := by
  cases change with
  | insert name value =>
    rw [Store.perform, runOn_enter]
    rcases bound : s.insert name value with error | t
    · exact names
    · exact names.insert bound
  | replace name value => exact names.of_contains rfl fun _ ↦ contains_of_contains_replace
  | remove name => exact names.of_contains rfl fun _ ↦ contains_of_contains_remove

theorem NamesValid.foldl_perform (names : s.NamesValid limits) (changes : List Change) :
    (changes.foldl Store.perform s).NamesValid limits := by
  induction changes generalizing s with
  | nil => exact names
  | cons change rest ih => exact ih (names.perform change)

end Store

/-! ### Sessions -/

namespace Session

variable {limits : Limits} {s : Session}

/-- A command keeps the names valid whether it fails or not, and a binding does. -/
theorem namesValid_perform (names : s.store.NamesValid limits) (event : Event) :
    (s.perform event).store.NamesValid limits := by
  cases event with
  | run text =>
    rw [perform, store_run]
    split_ifs
    · exact names
    · exact names.grows (grows_compile s.registry _ s.store)
  | bind name value =>
    rw [perform, bind_eq]
    rcases bound : s.store.insert name value with error | t
    · exact names
    · exact names.insert bound

theorem namesValid_foldl_perform (names : s.store.NamesValid limits) (events : List Event) :
    (events.foldl perform s).store.NamesValid limits := by
  induction events generalizing s with
  | nil => exact names
  | cons event rest ih => exact ih (namesValid_perform names event)

end Session

/-- Every name that is bound is valid, whatever changes are made to a fresh store and whatever
commands and bindings a fresh session goes through. An insertion that is refused changes nothing, be
it asked of a store or made on behalf of an assignment or a session; one that goes through binds its
name to the value and leaves the other names as they were. It goes through under any name that is
bound, and under a new one if the name is valid and there is room. -/
theorem boundNames_of_fresh (limits : Limits) :
    (∀ (changes : List Store.Change) (name : String),
      (changes.foldl Store.perform (.empty limits)).contains name = true →
        Name.isValid name limits.maxNameLength = true) ∧
    (∀ (registry : Registry) (events : List Session.Event) (name : String),
      (events.foldl Session.perform (.start registry limits)).store.contains name = true →
        Name.isValid name limits.maxNameLength = true) ∧
    ∀ (s : Session) (name : String) (value : Value),
      (∀ error, s.store.insert name value = .error error →
        Store.runOn (Store.enter name value) s.store = (.error error, s.store) ∧
          s.store.perform (.insert name value) = s.store ∧
          (bindName name value).runOn s.store = (.error (.store error), s.store) ∧
          s.perform (.bind name value) = s) ∧
      (∀ t, s.store.insert name value = .ok t →
        Store.runOn (Store.enter name value) s.store = (.ok (), t) ∧
          t.limits = s.store.limits ∧ t.get? name = some value ∧
          ∀ other, other ≠ name → t.get? other = s.store.get? other) ∧
      ((∃ t, s.store.insert name value = .ok t) ↔
        s.store.contains name = true ∨
          Name.isValid name s.store.limits.maxNameLength = true ∧
            s.store.countOf value.isTable < s.store.limits.capacity value.isTable) := by
  have fresh := Store.namesValid_empty limits
  refine ⟨fun changes ↦ (fresh.foldl_perform changes).isValid, fun registry events ↦ ?_,
    fun s name value ↦ ⟨fun error refused ↦ ?_, fun t bound ↦ ?_, Store.exists_insert_iff⟩⟩
  · have names : (Session.start registry limits).store.NamesValid limits := fresh
    exact (Session.namesValid_foldl_perform names events).isValid
  · refine ⟨?_, ?_, ?_, ?_⟩
    · rw [Store.runOn_enter, refused]
    · rw [Store.perform, Store.runOn_enter, refused]
    · rw [runOn_bindName, refused]
    · rw [Session.perform, Session.bind_eq, refused]
  · have bindings := Store.get?_insert bound
    refine ⟨?_, Store.limits_of_insert bound, ?_, fun other isOther ↦ ?_⟩
    · rw [Store.runOn_enter, bound]
    · rw [bindings, if_pos rfl]
    · rw [bindings, if_neg isOther]

/-- A store with room for one matrix. What is refused, for want of room or for its name, is not
bound, and the name that is bound can take another value. -/
theorem boundNames_where_the_store_is_full :
    let limits : Limits := { maxMatrices := 1, maxNameLength := 2 }
    let value : Value := .matrix (.scalar 2)
    let changes : List Store.Change := [.insert "ABC" value, .insert "A" value, .insert "B" value]
    let events : List Session.Event := [.run "ABC = 1", .run "A = 1", .bind "B" value]
    let full : Session := ⟨.empty, ⟨limits, [("A", value)], by decide⟩, []⟩
    ((changes.foldl Store.perform (.empty limits)).contains "A" = true ∧
        Name.isValid "A" limits.maxNameLength = true) ∧
      ((events.foldl Session.perform (.start .empty limits)).store.contains "A" = true ∧
        Name.isValid "A" limits.maxNameLength = true) ∧
      (full.store.insert "B" value = .error (.matrixLimit 1) ∧
        full.perform (.bind "B" value) = full) ∧
      full.store.insert "A" value = .ok (full.store.replace "A" value) ∧
        (full.store.replace "A" value).get? "A" = some value := by
  intro limits value changes events full
  obtain ⟨ofChanges, ofEvents, ofInsertions⟩ := boundNames_of_fresh limits
  have bound : (changes.foldl Store.perform (.empty limits)).contains "A" = true := by
    decide +kernel
  have assigned :
      (events.foldl Session.perform (.start .empty limits)).store.contains "A" = true := by
    decide +kernel
  have refused : full.store.insert "B" value = .error (.matrixLimit 1) := rfl
  have overwritten : full.store.insert "A" value = .ok (full.store.replace "A" value) := rfl
  exact ⟨⟨bound, ofChanges changes "A" bound⟩, ⟨assigned, ofEvents .empty events "A" assigned⟩,
    ⟨refused, ((ofInsertions full "B" value).1 _ refused).2.2.2⟩,
    overwritten, ((ofInsertions full "A" value).2.1 _ overwritten).2.2.1⟩

end MatrixCalculator
