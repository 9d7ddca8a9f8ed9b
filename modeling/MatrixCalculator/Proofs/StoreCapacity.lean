import MatrixCalculator.Store
import Mathlib.Tactic.ByContra
import Mathlib.Tactic.SplitIfs

/-!
# What bounds the number of bindings

The limits of a store are checked when a new name is bound. A name that is bound already may turn
from a matrix into a table or back without a check, so the limits alone do not bound what a store
holds. They do so together with the number of such turns: `Store.Path.countOf_le` counts them along
the stores that a run passes through (`Store.turnsAlong`), and without any the limits hold as they
stand.

A `Store.Path` leads from one store to another through the stores in between, each of which follows
from the one before by a single change.
-/

set_option autoImplicit false

namespace MatrixCalculator

/-- How many values of a kind new names may bring in. -/
def Limits.capacity (limits : Limits) (isTable : Bool) : Nat :=
  if isTable then limits.maxTables else limits.maxMatrices

namespace Store

/-! ### Changes of a store -/

/-- What can be asked of a store. -/
inductive Change where
  | insert (name : String) (value : Value)
  | replace (name : String) (value : Value)
  | remove (name : String)

/-- The store after a change. -/
def perform (s : Store) : Change → Store
  | .insert name value => (runOn (enter name value) s).2
  | .replace name value => s.replace name value
  | .remove name => s.remove name

/-- Whether at most one change leads from one store to the other. -/
def Follows (s t : Store) : Prop :=
  t = s ∨ ∃ change, s.perform change = t

/-- A way from one store to another through the stores in between, the last of which is the other
one. -/
inductive Path : Store → List Store → Store → Prop
  | nil (s : Store) : Path s [] s
  | cons {s t u : Store} {trail : List Store} (first : s.Follows t) (rest : Path t trail u) :
    Path s (t :: trail) u

theorem Path.append {s t u : Store} {trail more : List Store} (front : Path s trail t)
    (back : Path t more u) : Path s (trail ++ more) u := by
  induction front with
  | nil s => exact back
  | cons first _ ih => exact .cons first (ih back)

theorem Path.singleton {s t : Store} (follows : s.Follows t) : Path s [t] t :=
  .cons follows (.nil t)

/-! ### Counting by kind -/

/-- The number of names bound to a value of a kind. -/
def countOf (s : Store) (isTable : Bool) : Nat :=
  s.entries.countP fun (_, value) ↦ value.isTable == isTable

theorem tableCount_eq_countOf (s : Store) : s.tableCount = s.countOf true := by
  simp [tableCount, countOf]

theorem matrixCount_eq_countOf (s : Store) : s.matrixCount = s.countOf false := by
  simp [matrixCount, countOf]

/-- Every name is bound to a table or to a matrix. -/
theorem size_eq_countOf_add_countOf (s : Store) : s.size = s.countOf true + s.countOf false := by
  have split := List.length_eq_countP_add_countP (l := s.entries)
    fun (_, value) ↦ value.isTable == true
  rw [size, split]
  simp [countOf]

/-- The number of names that are bound in one store to a value of the other kind, and in the other
store to one of this kind. -/
def turnedInto (isTable : Bool) (s t : Store) : Nat :=
  s.entries.countP fun (name, old) ↦
    old.isTable != isTable && (t.get? name).any fun value ↦ value.isTable == isTable

/-- The number of times that a bound name turns into a value of a kind from store to store. -/
def turnsAlong (isTable : Bool) : Store → List Store → Nat
  | _, [] => 0
  | s, t :: trail => turnedInto isTable s t + turnsAlong isTable t trail

/-! ### A single change -/

/-- An insertion that succeeds replaces the value of a name that is bound, or adds a name that
nothing stands in the way of. -/
theorem insert_cases {s t : Store} {name : String} {value : Value}
    (bound : s.insert name value = .ok t) :
    t = s.replace name value ∨
      s.obstacle? name value = none ∧ t.limits = s.limits ∧
        t.entries = s.entries ++ [(name, value)] := by
  unfold insert at bound
  split at bound
  · split at bound
    · contradiction
    · rename_i free
      obtain rfl := Except.ok.inj bound
      exact Or.inr ⟨free, rfl, rfl⟩
  · exact Or.inl (Except.ok.inj bound).symm

/-- Nothing stands in the way of a new name only if values of its kind are fewer than the limit. -/
theorem countOf_lt_of_obstacle?_eq_none {s : Store} {name : String} {value : Value}
    (free : s.obstacle? name value = none) :
    s.countOf value.isTable < s.limits.capacity value.isTable := by
  unfold obstacle? at free
  rcases kind : value.isTable with _ | _ <;> simp only [kind] at free
  · rw [← matrixCount_eq_countOf]
    split at free <;> simp_all [Limits.capacity]
  · rw [← tableCount_eq_countOf]
    split at free <;> simp_all [Limits.capacity]

theorem contains_of_mem {s : Store} {entry : String × Value} (isEntry : entry ∈ s.entries) :
    s.contains entry.1 = true := by
  by_contra unbound
  exact not_mem_of_contains_eq_false (Bool.eq_false_iff.mpr unbound)
    (List.mem_map_of_mem isEntry)

/-- What satisfies one of two conditions is counted under one of them. -/
theorem countP_le_add {α : Type} {p q r : α → Bool} {l : List α}
    (either : ∀ x ∈ l, p x = true → q x = true ∨ r x = true) :
    l.countP p ≤ l.countP q + l.countP r := by
  induction l with
  | nil => simp
  | cons x rest ih =>
    have ofRest := ih fun y inRest ↦ either y (List.mem_cons_of_mem x inRest)
    have ofHead := either x List.mem_cons_self
    simp only [List.countP_cons]
    split_ifs with isP isQ isR isR
    any_goals omega
    exact absurd (ofHead isP) (not_or.mpr ⟨isQ, isR⟩)

/-- A replacement adds a value of a kind only where a value of the other kind was. -/
theorem countOf_replace_le (s : Store) (name : String) (value : Value) (isTable : Bool) :
    (s.replace name value).countOf isTable ≤
      s.countOf isTable + turnedInto isTable s (s.replace name value) := by
  change (replaceIn name value s.entries).countP _ ≤ _
  rw [replaceIn, List.countP_map]
  -- What is counted afterwards was counted before, or it has the replaced name and turned.
  refine countP_le_add fun entry isEntry counted ↦ ?_
  obtain ⟨bound, old⟩ := entry
  by_cases same : bound = name
  · subst same
    simp only [Function.comp_apply, if_true] at counted
    obtain ⟨found, isFound⟩ := Option.isSome_iff_exists.mp (contains_of_mem isEntry)
    have now : (s.replace bound value).get? bound = some value := by
      rw [get?_replace, if_pos rfl, isFound]
      rfl
    rcases kept : old.isTable == isTable with _ | _
    · exact Or.inr (by simp_all)
    · exact Or.inl kept
  · simp only [Function.comp_apply, same, if_false] at counted
    exact Or.inl counted

/-- One change adds values of a kind up to the limit, and turns bound names into values of that
kind. -/
theorem Follows.countOf_le {s t : Store} (follows : s.Follows t) :
    t.limits = s.limits ∧ ∀ isTable, t.countOf isTable ≤
      max (s.countOf isTable) (s.limits.capacity isTable) + turnedInto isTable s t := by
  -- An insertion under a bound name is a replacement, and neither is checked.
  have replaced (name : String) (value : Value) (isTable : Bool) :
      (s.replace name value).countOf isTable ≤
        max (s.countOf isTable) (s.limits.capacity isTable) +
          turnedInto isTable s (s.replace name value) := by
    have := s.countOf_replace_le name value isTable
    omega
  rcases follows with rfl | ⟨change, rfl⟩
  · exact ⟨rfl, fun isTable ↦ by omega⟩
  · cases change with
    | insert name value =>
      rw [perform, runOn_enter]
      rcases bound : s.insert name value with error | t
      · exact ⟨rfl, fun isTable ↦ by dsimp only; omega⟩
      · rcases insert_cases bound with rfl | ⟨free, limits, entries⟩
        · exact ⟨rfl, replaced name value⟩
        · refine ⟨limits, fun isTable ↦ ?_⟩
          have below := countOf_lt_of_obstacle?_eq_none free
          have added : t.countOf isTable =
              s.countOf isTable + if value.isTable = isTable then 1 else 0 := by
            simp [countOf, entries, List.countP_cons]
          split_ifs at added with ofKind
          · subst ofKind
            dsimp only
            omega
          · dsimp only
            omega
    | replace name value => exact ⟨rfl, replaced name value⟩
    | remove name =>
      refine ⟨rfl, fun isTable ↦ ?_⟩
      have fewer : (s.remove name).countOf isTable ≤ s.countOf isTable :=
        List.filter_sublist.countP_le
      rw [perform]
      omega

/-! ### A run of changes -/

/-- Along a path the values of a kind are at most as many as the limit allows, or as there were at
first, and one more for every turn into that kind. -/
theorem Path.countOf_le {s t : Store} {trail : List Store} (path : Path s trail t)
    (isTable : Bool) :
    t.countOf isTable ≤
      max (s.countOf isTable) (s.limits.capacity isTable) + turnsAlong isTable s trail := by
  induction path with
  | nil s => rw [turnsAlong]; omega
  | cons first rest ih =>
    obtain ⟨limits, added⟩ := first.countOf_le
    have ofFirst := added isTable
    rw [limits] at ih
    rw [turnsAlong]
    omega

/-- Whether a store at the end of a trail from a fresh one holds no more tables than the limit
allows but for the matrices that turned into tables on the way, no more matrices but for the tables
that turned into matrices, and no more names than both limits allow but for either. -/
def WithinLimits (limits : Limits) (trail : List Store) (t : Store) : Prop :=
  t.tableCount ≤ limits.maxTables + turnsAlong true (empty limits) trail ∧
    t.matrixCount ≤ limits.maxMatrices + turnsAlong false (empty limits) trail ∧
    t.size ≤ limits.maxTables + limits.maxMatrices +
      (turnsAlong true (empty limits) trail + turnsAlong false (empty limits) trail)

theorem Path.withinLimits {limits : Limits} {t : Store} {trail : List Store}
    (path : Path (empty limits) trail t) : WithinLimits limits trail t := by
  have tables := path.countOf_le true
  have matrices := path.countOf_le false
  have none (isTable : Bool) : (empty limits).countOf isTable = 0 := rfl
  rw [none, Nat.zero_max] at tables matrices
  have ofTables : (empty limits).limits.capacity true = limits.maxTables := rfl
  have ofMatrices : (empty limits).limits.capacity false = limits.maxMatrices := rfl
  rw [WithinLimits, tableCount_eq_countOf, matrixCount_eq_countOf, size_eq_countOf_add_countOf]
  omega

/-- The stores that changes lead through. -/
def trail : Store → List Change → List Store
  | _, [] => []
  | s, change :: rest => s.perform change :: trail (s.perform change) rest

theorem path_trail (s : Store) (changes : List Change) :
    Path s (s.trail changes) (changes.foldl perform s) := by
  induction changes generalizing s with
  | nil => exact .nil s
  | cons change rest ih => exact .cons (Or.inr ⟨change, rfl⟩) (ih (s.perform change))

end Store

end MatrixCalculator
