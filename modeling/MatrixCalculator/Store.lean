import MatrixCalculator.Limits
import MatrixCalculator.Name
import MatrixCalculator.Value

/-!
# The binding store

A `Store` keeps the values bound to names, each name once, within the limits of its session. The
limits on the number of matrices and of tables are checked when a new name is bound; a name that is
bound already takes any new value. `Store.get?` is the view through which the operations are
described.

A binding is made in place, by checks and changes one after the other (`Store.enter`). A refusal
undoes nothing, and so it depends on their order that it leaves the store as it was: `runOn_enter`
shows that the binding succeeds with the store that `Store.insert` gives, or leaves the old one.
-/

set_option autoImplicit false

namespace MatrixCalculator

/-- Why a value cannot be bound. -/
inductive StoreError where
  | name (problem : Name.Problem)
  | matrixLimit (max : Nat)
  | tableLimit (max : Nat)
  deriving DecidableEq, Repr

/-- The message for a value that cannot be bound. -/
def StoreError.message : StoreError → String
  | .name problem => problem.message
  | .matrixLimit max => s!"Matrix limit reached: at most {max} matrices can be stored"
  | .tableLimit max => s!"Table limit reached: at most {max} tables can be stored"

/-- Values under names. -/
structure Store where
  limits : Limits
  entries : List (String × Value)
  distinct : (entries.map Prod.fst).Nodup

/-- A computation that changes a store and may fail. A failure leaves the store as it was at that
point. -/
abbrev Changing (α : Type) := ExceptT StoreError (StateM Store) α

namespace Store

/-- The store without bindings. -/
def empty (limits : Limits) : Store where
  limits := limits
  entries := []
  distinct := by simp

/-- The value bound to a name. -/
def get? (s : Store) (name : String) : Option Value :=
  s.entries.lookup name

/-- Whether a name is bound. -/
def contains (s : Store) (name : String) : Bool :=
  (s.get? name).isSome

/-- The number of names. -/
def size (s : Store) : Nat :=
  s.entries.length

/-- The number of names bound to a table. -/
def tableCount (s : Store) : Nat :=
  s.entries.countP fun (_, value) ↦ value.isTable

/-- The number of names bound to a matrix without labels. -/
def matrixCount (s : Store) : Nat :=
  s.entries.countP fun (_, value) ↦ !value.isTable

/-- The bound names in the order of their characters' code points. -/
def names (s : Store) : List String :=
  (s.entries.map Prod.fst).mergeSort

/-- The entries with the value of one name changed. -/
def replaceIn (name : String) (value : Value) (entries : List (String × Value)) :
    List (String × Value) :=
  entries.map fun entry ↦ if entry.1 = name then (name, value) else entry

theorem map_fst_replaceIn (name : String) (value : Value) (entries : List (String × Value)) :
    (replaceIn name value entries).map Prod.fst = entries.map Prod.fst := by
  simp only [replaceIn, List.map_map]
  refine List.map_congr_left fun entry _ ↦ ?_
  by_cases same : entry.1 = name <;> simp [same]

theorem lookup_replaceIn (name key : String) (value : Value) (entries : List (String × Value)) :
    (replaceIn name value entries).lookup key =
      if key = name then (entries.lookup key).map fun _ ↦ value else entries.lookup key := by
  induction entries with
  | nil => simp [replaceIn]
  | cons entry rest ih =>
    obtain ⟨bound, old⟩ := entry
    simp only [replaceIn, List.map_cons] at ih ⊢
    by_cases here : key = bound
    · subst here
      by_cases same : key = name <;> simp [same]
    · have other : (key == bound) = false := by simpa using here
      by_cases same : bound = name
      · subst same
        simp [List.lookup_cons, other, here, ih]
      · simp [List.lookup_cons, other, same, ih]

/-- A name that is not bound is not among the names of the entries. -/
theorem not_mem_of_contains_eq_false {s : Store} {name : String} (h : s.contains name = false) :
    name ∉ s.entries.map Prod.fst := by
  simp only [contains, get?, Option.isSome_eq_false_iff, Option.isNone_iff_eq_none,
    List.lookup_eq_none_iff] at h
  intro bound
  obtain ⟨entry, isEntry, rfl⟩ := List.mem_map.mp bound
  exact absurd (h entry isEntry) (by simp)

/-- Gives a name that is bound a new value, whatever the limits say. -/
def replace (s : Store) (name : String) (value : Value) : Store :=
  { s with
    entries := replaceIn name value s.entries
    distinct := by rw [map_fst_replaceIn]; exact s.distinct }

/-- Replacing a value changes what its own name is bound to, if it is bound at all. -/
theorem get?_replace (s : Store) (name key : String) (value : Value) :
    (s.replace name value).get? key =
      if key = name then (s.get? key).map fun _ ↦ value else s.get? key :=
  lookup_replaceIn name key value s.entries

/-- Why a new name cannot be bound to the value: the name is none, or there are as many values of
its kind as the limits allow. -/
def obstacle? (s : Store) (name : String) (value : Value) : Option StoreError :=
  match Name.problem? name s.limits.maxNameLength with
  | some problem => some (.name problem)
  | none =>
    if value.isTable then
      if s.limits.maxTables ≤ s.tableCount then some (.tableLimit s.limits.maxTables) else none
    else
      if s.limits.maxMatrices ≤ s.matrixCount then some (.matrixLimit s.limits.maxMatrices)
      else none

/-- Binds a name that is not bound to a value, whatever the limits say. -/
def append (s : Store) (name : String) (value : Value) (unbound : s.contains name = false) :
    Store :=
  { s with
    entries := s.entries ++ [(name, value)]
    distinct := by
      rw [List.map_append, List.nodup_append]
      refine ⟨s.distinct, by simp, ?_⟩
      have absent := not_mem_of_contains_eq_false unbound
      simp only [List.map_cons, List.map_nil, List.mem_singleton]
      rintro bound isBound _ rfl rfl
      exact absent isBound }

/-- Binds a name to a value, whatever the limits say. -/
def put (s : Store) (name : String) (value : Value) : Store :=
  if unbound : s.contains name = false then s.append name value unbound else s.replace name value

/-- Binds a name to a value. A name that is bound already takes the value; a new one is checked
first. -/
def insert (s : Store) (name : String) (value : Value) : Except StoreError Store :=
  if unbound : s.contains name = false then
    match s.obstacle? name value with
    | some error => .error error
    | none => .ok (s.append name value unbound)
  else
    .ok (s.replace name value)

/-- A binding that succeeds binds its own name to the value and leaves every other name as it
was. -/
theorem get?_insert {s t : Store} {name : String} {value : Value}
    (bound : s.insert name value = .ok t) (key : String) :
    t.get? key = if key = name then some value else s.get? key := by
  unfold insert at bound
  split at bound
  · rename_i unbound
    split at bound
    · contradiction
    · obtain rfl := Except.ok.inj bound
      have absent : s.get? name = none := by simpa [contains] using unbound
      simp only [get?, append, List.lookup_append, List.lookup_cons, List.lookup_nil] at absent ⊢
      by_cases same : key = name
      · subst same
        simp [absent]
      · have other : (key == name) = false := by simpa using same
        simp [same, other]
  · rename_i isBound
    obtain rfl := Except.ok.inj bound
    rw [get?_replace]
    by_cases same : key = name
    · subst same
      obtain ⟨old, isOld⟩ : ∃ old, s.get? key = some old := by
        simpa [contains, Option.ne_none_iff_exists'] using isBound
      simp [isOld]
    · simp [same]

/-! ### Binding in place -/

/-- The result and the store that is left. -/
def runOn {α : Type} (c : Changing α) (s : Store) : Except StoreError α × Store :=
  StateT.run c.run s

/-- Fails if a new name is none. -/
def checkName (name : String) : Changing Unit := do
  let s ← get
  match Name.problem? name s.limits.maxNameLength with
  | some problem => throw (.name problem)
  | none => pure ()

/-- Fails if there are as many values of a kind as the limits allow. -/
def checkRoom (isTable : Bool) : Changing Unit := do
  let s ← get
  if isTable then
    if s.limits.maxTables ≤ s.tableCount then throw (.tableLimit s.limits.maxTables)
  else
    if s.limits.maxMatrices ≤ s.matrixCount then throw (.matrixLimit s.limits.maxMatrices)

/-- Binds a name to a value in place. -/
def enter (name : String) (value : Value) : Changing Unit := do
  if (← get).contains name then
    modify fun s ↦ s.replace name value
  else
    checkName name
    checkRoom value.isTable
    modify fun s ↦ s.put name value

section Runs

variable (name : String) (value : Value) (s : Store)

theorem runOn_bind {α β : Type} (c : Changing α) (f : α → Changing β) (s : Store) :
    runOn (c >>= f) s =
      match runOn c s with
      | (.ok a, left) => runOn (f a) left
      | (.error error, left) => (.error error, left) := by
  change StateT.run (ExceptT.bindCont f (runOn c s).1) (runOn c s).2 = _
  rcases runOn c s with ⟨_ | _, left⟩ <;> rfl

/-- The checks of a new name change nothing and find what stands in its way. -/
theorem runOn_checks : runOn (checkName name >>= fun _ ↦ checkRoom value.isTable) s =
    match s.obstacle? name value with
    | some error => (.error error, s)
    | none => (.ok (), s) := by
  have ofName : runOn (checkName name) s =
      match Name.problem? name s.limits.maxNameLength with
      | some problem => (.error (.name problem), s)
      | none => (.ok (), s) := by
    change runOn (match Name.problem? name s.limits.maxNameLength with
      | some problem => throw (.name problem)
      | none => pure ()) s = _
    split <;> rfl
  have ofRoom : runOn (checkRoom value.isTable) s =
      if value.isTable then
        if s.limits.maxTables ≤ s.tableCount then (.error (.tableLimit s.limits.maxTables), s)
        else (.ok (), s)
      else if s.limits.maxMatrices ≤ s.matrixCount then
        (.error (.matrixLimit s.limits.maxMatrices), s)
      else (.ok (), s) := by
    change runOn (if value.isTable then
      if s.limits.maxTables ≤ s.tableCount then throw (.tableLimit s.limits.maxTables) else pure ()
      else if s.limits.maxMatrices ≤ s.matrixCount then throw (.matrixLimit s.limits.maxMatrices)
      else pure ()) s = _
    split <;> split <;> rfl
  rw [runOn_bind, ofName, obstacle?]
  cases Name.problem? name s.limits.maxNameLength with
  | some problem => rfl
  | none =>
    dsimp only
    rw [ofRoom]
    split <;> split <;> rfl

/-- A binding in place succeeds with what an insertion gives, and leaves the store as it was where
an insertion is refused. -/
theorem runOn_enter : runOn (enter name value) s =
    match s.insert name value with
    | .ok t => (.ok (), t)
    | .error error => (.error error, s) := by
  change runOn (if s.contains name then modify fun s ↦ s.replace name value
    else checkName name >>= fun _ ↦ checkRoom value.isTable >>= fun _ ↦
      modify fun s ↦ s.put name value) s = _
  rw [← bind_assoc, insert]
  by_cases unbound : s.contains name = false
  · rw [if_neg (by simp [unbound]), runOn_bind, runOn_checks, dif_pos unbound]
    cases s.obstacle? name value with
    | some error => rfl
    | none =>
      have added : s.put name value = s.append name value unbound := dif_pos unbound
      dsimp only
      rw [← added]
      rfl
  · rw [if_pos (by simpa using unbound), dif_neg unbound]
    rfl

end Runs

/-- Takes a name and its value out. -/
def remove (s : Store) (name : String) : Store :=
  { s with
    entries := s.entries.filter fun entry ↦ entry.1 != name
    distinct := s.distinct.sublist (List.filter_sublist.map Prod.fst) }

/-- A name that is taken out is bound no longer, and every other name is as it was. -/
theorem get?_remove (s : Store) (name key : String) :
    (s.remove name).get? key = if key = name then none else s.get? key := by
  simp only [get?, remove]
  induction s.entries with
  | nil => simp
  | cons entry rest ih =>
    obtain ⟨bound, value⟩ := entry
    by_cases here : key = bound
    · subst here
      by_cases same : key = name
      · subst same
        simpa using ih
      · simp [same]
    · have other : (key == bound) = false := by simpa using here
      by_cases same : bound = name
      · subst same
        simpa [List.lookup_cons, other, here] using ih
      · simpa [List.lookup_cons, other, same] using ih

end Store

end MatrixCalculator
