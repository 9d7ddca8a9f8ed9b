import MatrixCalculator.Proofs.DeclaredArguments
import MatrixCalculator.Registry.Index

/-!
# The index of a registry is in step with its functions

Every entry of the index leads to the function that has the key, and every key of a function has its
entry (`IndexedRegistry.Coherent`). This holds of a registry without functions and is kept when a
function is added, because its keys are looked for before any of them is entered: an addition that
is refused has changed nothing by then (`IndexedRegistry.runOn_add`). From it follows what the
registry promises (`IndexedRegistry.Consistent`), and that it answers as a `Registry` does, whose
lookup goes through the functions themselves (`IndexedRegistry.SameAnswers`). Both accept the same
documents, and refuse the others for the same reason (`IndexedRegistry.ofText_cases`).
-/

set_option autoImplicit false

namespace MatrixCalculator

/-! ### Parameters that may be left out -/

/-- Without a required parameter behind an optional one, the required parameters come first. -/
theorem Metadata.pairwise_of_lateRequired? {parameters : List Parameter}
    (noneLate : lateRequired? parameters = none) :
    parameters.Pairwise fun p q ↦ q.required = true → p.required = true := by
  induction parameters with
  | nil => exact .nil
  | cons p rest ih =>
    rw [lateRequired?, List.dropWhile_cons] at noneLate
    split_ifs at noneLate with required
    · exact .cons (fun _ _ _ ↦ required) (ih noneLate)
    · -- The first parameter is optional, so none behind it is required.
      have noneRequired := List.find?_eq_none.mp noneLate
      rw [List.forall_mem_cons] at noneRequired
      have impossible {q r : Parameter} (isMem : r ∈ rest) (isRequired : r.required = true) :
          q.required = true := absurd isRequired (noneRequired.2 r isMem)
      exact .cons (fun _ isMem ↦ impossible isMem)
        (List.pairwise_of_forall_mem_list fun _ _ _ isMem ↦ impossible isMem)

namespace Registry

variable {r : Registry}

theorem pairwise_of_mem_functions {text : String} (read : ofText text = .ok r) {d : Descriptor}
    (isMem : d ∈ r.functions) :
    d.parameters.Pairwise fun p q ↦ q.required = true → p.required = true := by
  obtain ⟨entry, ofEntry⟩ := exists_of_mem_functions read isMem
  exact Metadata.pairwise_of_lateRequired? (Metadata.exists_of_function ofEntry).2

/-- A key finds the function that has it. -/
theorem find?_eq_some_iff {key : String} {d : Descriptor} :
    r.find? key = some d ↔ d ∈ r.functions ∧ key ∈ d.keys := by
  constructor
  · intro found
    have isKey := List.find?_some found
    exact ⟨List.mem_of_find?_eq_some found, by simpa using isKey⟩
  · rintro ⟨isMem, isKey⟩
    rcases found : r.find? key with _ | e
    · have unknown := List.find?_eq_none.mp found d isMem
      simp [isKey] at unknown
    · -- Two functions with the same key are one.
      have isKeyOf := List.find?_some found
      have symmetric : Std.Symm fun d e : Descriptor ↦ ∀ key ∈ d.keys, key ∉ e.keys :=
        ⟨fun _ _ apart key ofSecond ofFirst ↦ apart key ofFirst ofSecond⟩
      by_contra other
      have distinct : d ≠ e := fun same ↦ other (by rw [same])
      exact r.apart.forall isMem (List.mem_of_find?_eq_some found) distinct key isKey
        (by simpa using isKeyOf)

/-- An addition is refused for the first key that is taken, or the function comes last. -/
theorem add_cases (r : Registry) (d : Descriptor) :
    (∃ key, r.takenKey? d = some key ∧ r.add d = .error key) ∨
      ∃ next, r.takenKey? d = none ∧ r.add d = .ok next ∧ next.functions = r.functions ++ [d] := by
  rcases result : r.add d with key | next
  · refine .inl ⟨key, ?_, rfl⟩
    rw [add] at result
    split at result
    · rename_i taken
      rwa [Except.error.inj result] at taken
    · cases result
  · refine .inr ⟨next, ?_, rfl, functions_of_add result⟩
    rw [add] at result
    split at result
    · cases result
    · assumption

/-- The registry after an addition, refused or not. -/
def added (r : Registry) (d : Descriptor) : Registry :=
  match r.add d with
  | .ok next => next
  | .error _ => r

end Registry

namespace IndexedRegistry

variable {r : IndexedRegistry} {d : Descriptor}

/-! ### Runs of an addition -/

section Runs

variable {ε α β : Type}

theorem runOn_bind (e : Adding ε α) (f : α → Adding ε β) (r : IndexedRegistry) :
    runOn (e >>= f) r =
      match runOn e r with
      | (.ok a, left) => runOn (f a) left
      | (.error error, left) => (.error error, left) := by
  change StateT.run (ExceptT.bindCont f (runOn e r).1) (runOn e r).2 = _
  rcases runOn e r with ⟨_ | _, left⟩ <;> rfl

/-- Keys are looked for one after the other, up to the first that is taken. -/
theorem runOn_checkFree (keys : List String) (r : IndexedRegistry) :
    runOn (keys.forM checkFree) r =
      match keys.find? r.contains with
      | some key => (.error key, r)
      | none => (.ok (), r) := by
  induction keys with
  | nil => rfl
  | cons key rest ih =>
    have first : runOn (checkFree key) r =
        if r.contains key then (.error key, r) else (.ok (), r) := by
      change runOn (if r.contains key then throw key else pure ()) r = _
      split_ifs <;> rfl
    change runOn (checkFree key >>= fun _ ↦ rest.forM checkFree) r = _
    rw [runOn_bind, first, List.find?_cons]
    rcases r.contains key with _ | _
    · exact ih
    · rfl

/-- The index with a position entered under each of several keys. -/
def entered (position : Nat) (index : List (String × Nat)) (keys : List String) :
    List (String × Nat) :=
  keys.foldl (fun index key ↦ (key, position) :: index) index

theorem runOn_enter (position : Nat) (keys : List String) (r : IndexedRegistry) :
    runOn (keys.forM (enter position)) r =
      (.ok (), { r with index := entered position r.index keys }) := by
  induction keys generalizing r with
  | nil => rfl
  | cons key rest ih => exact ih { r with index := (key, position) :: r.index }

/-- An addition is refused if one of the keys is taken, and has changed nothing then. Otherwise the
function comes last, and each of its keys leads there. -/
theorem runOn_add (d : Descriptor) (r : IndexedRegistry) :
    runOn (add d) r =
      match d.keys.find? r.contains with
      | some key => (.error key, r)
      | none =>
        (.ok (), ⟨r.functions ++ [d], entered r.functions.length r.index d.keys⟩) := by
  change runOn (d.keys.forM checkFree >>= fun _ ↦
    d.keys.forM (enter r.functions.length) >>= fun _ ↦
      modify fun r ↦ { r with functions := r.functions ++ [d] }) r = _
  rw [runOn_bind, runOn_checkFree]
  rcases d.keys.find? r.contains with _ | key
  · dsimp only
    rw [runOn_bind, runOn_enter]
    rfl
  · rfl

end Runs

theorem lookup_entered (position : Nat) (index : List (String × Nat)) (keys : List String)
    (key : String) : (entered position index keys).lookup key =
      if key ∈ keys then some position else index.lookup key := by
  induction keys generalizing index with
  | nil => rfl
  | cons first rest ih =>
    have later := ih ((first, position) :: index)
    rw [entered, List.foldl_cons]
    rw [entered] at later
    rw [later, List.lookup_cons]
    by_cases isFirst : key = first
    · simp [isFirst]
    · simp [isFirst, beq_eq_false_iff_ne.mpr isFirst]

/-! ### Coherence -/

/-- Whether the index holds the positions of the functions under their keys, and nothing else. -/
def Coherent (r : IndexedRegistry) : Prop :=
  ∀ key position, r.position? key = some position ↔
    ∃ d, r.functions[position]? = some d ∧ key ∈ d.keys

theorem coherent_empty : empty.Coherent := by
  intro key position
  simp [empty, position?]

/-- A function with keys that no other has can be entered behind the others. -/
theorem Coherent.concat (coherent : r.Coherent) (free : ∀ key ∈ d.keys, r.contains key = false) :
    Coherent ⟨r.functions ++ [d], entered r.functions.length r.index d.keys⟩ := by
  intro key position
  have before : (∃ e, r.functions[position]? = some e ∧ key ∈ e.keys) ↔
      r.index.lookup key = some position := (coherent key position).symm
  rw [position?, lookup_entered]
  rcases lt_trichotomy position r.functions.length with inside | rfl | outside
  · simp only [List.getElem?_append_left inside, before]
    split_ifs with isNew
    · have unknown : r.index.lookup key = none := by
        simpa [contains, position?] using free key isNew
      simp [unknown, inside.ne']
    · rfl
  · have atEnd : (r.functions ++ [d])[r.functions.length]? = some d := List.getElem?_concat_length
    have unentered : r.index.lookup key ≠ some r.functions.length := by
      rw [Ne, ← before]
      simp
    split_ifs with isNew
    · simp [isNew]
    · simp [isNew, unentered]
  · have beyond : (r.functions ++ [d])[position]? = none :=
      List.getElem?_eq_none (by simpa using outside)
    have unentered : r.index.lookup key ≠ some position := by
      rw [Ne, ← before]
      simp [List.getElem?_eq_none outside.le]
    split_ifs with isNew
    · simp [beyond, outside.ne]
    · simp [beyond, unentered]

theorem Coherent.find?_eq_some_iff (coherent : r.Coherent) {key : String} {d : Descriptor} :
    r.find? key = some d ↔ d ∈ r.functions ∧ key ∈ d.keys := by
  rw [find?, Option.bind_eq_some_iff]
  constructor
  · rintro ⟨position, entry, atPosition⟩
    obtain ⟨e, isThere, isKey⟩ := (coherent key position).mp entry
    obtain rfl : d = e := Option.some.inj (atPosition.symm.trans isThere)
    exact ⟨List.mem_of_getElem? isThere, isKey⟩
  · rintro ⟨isMem, isKey⟩
    obtain ⟨position, isThere⟩ := List.getElem?_of_mem isMem
    exact ⟨position, (coherent key position).mpr ⟨d, isThere, isKey⟩, isThere⟩

/-- An entry leads to a function. -/
theorem Coherent.contains_eq (coherent : r.Coherent) (key : String) :
    r.contains key = (r.find? key).isSome := by
  rw [contains, find?]
  rcases entry : r.position? key with _ | position
  · rfl
  · obtain ⟨d, isThere, -⟩ := (coherent key position).mp entry
    rw [Option.bind_some, isThere]
    rfl

/-! ### Consistency -/

/-- The registry after an addition, refused or not. -/
def added (r : IndexedRegistry) (d : Descriptor) : IndexedRegistry :=
  (runOn (add d) r).2

/-- What a registry promises to those who look functions up in it and add some. -/
structure Consistent (r : IndexedRegistry) : Prop where
  /-- A key finds the function of which it is the name or an alias. -/
  find?_iff : ∀ key d, r.find? key = some d ↔ d ∈ r.functions ∧ (key = d.name ∨ key ∈ d.aliases)
  /-- An alias finds the same function as the name. -/
  find?_alias : ∀ d ∈ r.functions, ∀ key ∈ d.aliases, r.find? key = r.find? d.name
  contains_eq : ∀ key, r.contains key = (r.find? key).isSome
  /-- No key belongs to two functions. -/
  apart : ∀ (m n : Nat) (d e : Descriptor), r.functions[m]? = some d → r.functions[n]? = some e →
    ∀ key ∈ d.keys, key ∈ e.keys → m = n
  /-- An addition goes through if no key is taken. -/
  accepts_iff : ∀ d, (runOn (add d) r).1 = .ok () ↔ ∀ key ∈ d.keys, r.find? key = none
  /-- An addition that is refused changes neither the functions nor the index. -/
  unchanged : ∀ d error left, runOn (add d) r = (.error error, left) → left = r

theorem Coherent.consistent (coherent : r.Coherent) : r.Consistent where
  find?_iff key d := by
    rw [coherent.find?_eq_some_iff, Descriptor.keys, List.mem_cons]
  find?_alias d isMem key isAlias := by
    have byAlias := coherent.find?_eq_some_iff.mpr ⟨isMem, List.mem_cons_of_mem d.name isAlias⟩
    have byName := coherent.find?_eq_some_iff.mpr ⟨isMem, List.mem_cons_self⟩
    rw [byAlias, byName]
  contains_eq := coherent.contains_eq
  apart m n d e isFirst isSecond key ofFirst ofSecond := by
    have first := (coherent key m).mpr ⟨d, isFirst, ofFirst⟩
    have second := (coherent key n).mpr ⟨e, isSecond, ofSecond⟩
    exact Option.some.inj (first.symm.trans second)
  accepts_iff d := by
    have free : d.keys.find? r.contains = none ↔ ∀ key ∈ d.keys, r.find? key = none := by
      simp [List.find?_eq_none, coherent.contains_eq]
    rw [runOn_add, ← free]
    rcases d.keys.find? r.contains with _ | key <;> simp
  unchanged d error left refused := by
    rw [runOn_add] at refused
    split at refused
    · exact (Prod.mk.inj refused).2.symm
    · cases (Prod.mk.inj refused).1

/-! ### The registry that keeps no index -/

/-- Whether a registry with an index answers as one without. -/
structure SameAnswers (i : IndexedRegistry) (r : Registry) : Prop where
  functions : i.functions = r.functions
  find? : ∀ key, i.find? key = r.find? key
  contains : ∀ key, i.contains key = r.contains key
  add : ∀ d, (runOn (add d) i).1 = (r.add d).map fun _ ↦ ()

/-- Whether a registry with an index has the functions of one without, and an index that is in step
with them. -/
structure Mirrors (i : IndexedRegistry) (r : Registry) : Prop where
  coherent : i.Coherent
  functions : i.functions = r.functions

variable {i : IndexedRegistry} {r : Registry}

theorem Mirrors.find? (mirrors : i.Mirrors r) (key : String) : i.find? key = r.find? key := by
  refine Option.ext fun d ↦ ?_
  rw [mirrors.coherent.find?_eq_some_iff, Registry.find?_eq_some_iff, mirrors.functions]

theorem Mirrors.contains (mirrors : i.Mirrors r) (key : String) :
    i.contains key = r.contains key := by
  rw [mirrors.coherent.contains_eq, mirrors.find?, Registry.contains]

/-- Both refuse an addition for the same key, or both have the function afterwards. -/
theorem Mirrors.add (mirrors : i.Mirrors r) (d : Descriptor) :
    (runOn (add d) i).1 = (r.add d).map (fun _ ↦ ()) ∧ (i.added d).Mirrors (r.added d) := by
  have sameTaken : d.keys.find? i.contains = r.takenKey? d := by
    rw [Registry.takenKey?, funext mirrors.contains]
  rw [added, runOn_add, sameTaken, Registry.added]
  rcases r.add_cases d with ⟨key, taken, refused⟩ | ⟨next, free, accepted, functions⟩
  · rw [taken, refused]
    exact ⟨rfl, mirrors⟩
  · rw [free, accepted]
    refine ⟨rfl, mirrors.coherent.concat fun key isKey ↦ ?_, ?_⟩
    · have unknown := List.find?_eq_none.mp (sameTaken.trans free) key isKey
      simpa using unknown
    · rw [functions, ← mirrors.functions]

theorem Mirrors.sameAnswers (mirrors : i.Mirrors r) : i.SameAnswers r where
  functions := mirrors.functions
  find? := mirrors.find?
  contains := mirrors.contains
  add d := (mirrors.add d).1

theorem Mirrors.foldl_added (mirrors : i.Mirrors r) (ds : List Descriptor) :
    (ds.foldl added i).Mirrors (ds.foldl Registry.added r) := by
  induction ds generalizing i r with
  | nil => exact mirrors
  | cons d rest ih => exact ih (mirrors.add d).2

/-! ### Documents -/

/-- Both refuse an entry of a document for the same reason, or both accept it. -/
theorem Mirrors.addEntry_cases (mirrors : i.Mirrors r) (entry : Json) :
    (∃ error left, r.addEntry entry = .error error ∧
      runOn (addEntry entry) i = (.error error, left)) ∨
    ∃ next j, r.addEntry entry = .ok next ∧ runOn (addEntry entry) i = (.ok (), j) ∧
      j.Mirrors next := by
  rw [addEntry, runOn_bind, Registry.addEntry]
  rcases Metadata.function entry with error | d
  · exact .inl ⟨error, i, rfl, rfl⟩
  · have ran : runOn (ExceptT.adapt MetadataError.definedTwice (IndexedRegistry.add d)) i =
        ((runOn (IndexedRegistry.add d) i).1.mapError .definedTwice, i.added d) := rfl
    obtain ⟨sameResult, mirrorsThen⟩ := mirrors.add d
    rw [Registry.added] at mirrorsThen
    rcases accepts : r.add d with key | next <;> rw [accepts] at sameResult mirrorsThen
    · have refused := congrArg (·.mapError MetadataError.definedTwice) accepts
      rw [sameResult] at ran
      exact .inl ⟨.definedTwice key, i.added d, refused, ran⟩
    · have accepted := congrArg (·.mapError MetadataError.definedTwice) accepts
      rw [sameResult] at ran
      exact .inr ⟨next, i.added d, accepted, ran, mirrorsThen⟩

/-- The same for entries one after the other: both stop at the same one, or neither stops. -/
theorem Mirrors.foldlM_cases (mirrors : i.Mirrors r) (entries : List Json) :
    (∃ error left, entries.foldlM Registry.addEntry r = .error error ∧
      runOn (entries.forM addEntry) i = (.error error, left)) ∨
    ∃ next j, entries.foldlM Registry.addEntry r = .ok next ∧
      runOn (entries.forM addEntry) i = (.ok (), j) ∧ j.Mirrors next := by
  induction entries generalizing i r with
  | nil => exact .inr ⟨r, i, rfl, rfl, mirrors⟩
  | cons entry rest ih =>
    have ran : runOn ((entry :: rest).forM addEntry) i =
        runOn (addEntry entry >>= fun _ ↦ rest.forM addEntry) i := rfl
    rw [List.foldlM_cons, ran, runOn_bind]
    rcases mirrors.addEntry_cases entry with
      ⟨error, left, refused, ofFirst⟩ | ⟨middle, j, accepted, ofFirst, mirrorsThen⟩
    · rw [refused, ofFirst]
      exact .inl ⟨error, left, rfl, rfl⟩
    · rw [accepted, ofFirst]
      exact ih mirrorsThen

theorem mirrors_empty : empty.Mirrors .empty :=
  ⟨coherent_empty, rfl⟩

/-- A text is refused for the same reason with an index as without, or it is accepted by both. -/
theorem ofText_cases (text : String) :
    (∃ error, Registry.ofText text = .error error ∧ ofText text = .error error) ∨
    ∃ r i, Registry.ofText text = .ok r ∧ ofText text = .ok i ∧ i.Mirrors r := by
  rw [Registry.ofText, ofText]
  rcases Json.read? text with _ | document
  · exact .inl ⟨_, rfl, rfl⟩
  · dsimp only
    rw [Registry.ofDocument, ofDocument]
    rcases (document.member? "functions").bind Json.items? with _ | entries
    · exact .inl ⟨_, rfl, rfl⟩
    · dsimp only
      rcases mirrors_empty.foldlM_cases entries with
        ⟨error, left, refused, ran⟩ | ⟨r, i, accepted, ran, mirrors⟩
      · rw [refused, ran]
        exact .inl ⟨error, rfl, rfl⟩
      · rw [accepted, ran]
        exact .inr ⟨r, i, rfl, rfl, mirrors⟩

/-- A document is accepted with an index if it is without, it gives the same functions, and it is
refused for the same reason. Of every document that is accepted, and after whatever additions behind
it, the index is consistent with the functions, also where additions were refused on the way, and
what is looked up and added is answered as by the registry without an index. In the functions of the
document all required parameters stand before the optional ones. -/
theorem consistent_of_ofText (text : String) :
    (ofText text).map functions = (Registry.ofText text).map Registry.functions ∧
    ∀ loaded, Registry.ofText text = .ok loaded → ∀ ds : List Descriptor,
      (∀ d ∈ loaded.functions,
        d.parameters.Pairwise fun p q ↦ q.required = true → p.required = true) ∧
      ∃ i, ofText text = .ok i ∧ i.functions = loaded.functions ∧
        (ds.foldl added i).Consistent ∧
        (ds.foldl added i).SameAnswers (ds.foldl Registry.added loaded) := by
  rcases ofText_cases text with ⟨error, refused, sameError⟩ | ⟨r, i, read, accepted, mirrors⟩
  · rw [refused, sameError]
    exact ⟨rfl, nofun⟩
  · refine ⟨?_, fun loaded isRead ds ↦ ?_⟩
    · rw [read, accepted]
      exact congrArg Except.ok mirrors.functions
    · obtain rfl : r = loaded := Except.ok.inj (read.symm.trans isRead)
      have after := mirrors.foldl_added ds
      exact ⟨fun d isMem ↦ Registry.pairwise_of_mem_functions read isMem, i, accepted,
        mirrors.functions, after.coherent.consistent, after.sameAnswers⟩

/-- A document with a function that has an alias. -/
def areaText : String :=
  "\x7b\"functions\":[\x7b\"name\":\"Area\",\"service\":\"shapes\"," ++
    "\"returns\":\"float\",\"aliases\":[\"Surface\"],\"params\":[" ++
    "\x7b\"name\":\"side\",\"type\":\"float\"\x7d," ++
    "\x7b\"name\":\"scale\",\"type\":\"float\",\"required\":false\x7d]\x7d]\x7d"

set_option maxRecDepth 2000 in
/-- A function whose last alias is taken is refused and leaves no key behind. A function that has
its own name for an alias is added behind it. -/
theorem consistent_areaText :
    let area : Descriptor := ⟨"Area", ["Surface"],
      [⟨"side", .float, true, none⟩, ⟨"scale", .float, false, none⟩], .float, "shapes", ""⟩
    let clash : Descriptor := ⟨"Plot", ["Draw", "Surface"], [], .void, "shapes", ""⟩
    let twice : Descriptor := ⟨"Turn", ["Turn"], [], .void, "shapes", ""⟩
    Registry.ofText areaText = .ok ⟨[area], by simp, []⟩ ∧
      ∃ i, ofText areaText = .ok i ∧ ([clash, twice].foldl added i).Consistent ∧
        ([clash, twice].foldl added i).functions = [area, twice] ∧
        ([clash, twice].foldl added i).find? "Draw" = none ∧
        ([clash, twice].foldl added i).find? "Turn" = some twice := by
  intro area clash twice
  have read : Registry.ofText areaText = .ok ⟨[area], by simp, []⟩ := by cbv
  obtain ⟨-, i, accepted, -, consistent, same⟩ :=
    (consistent_of_ofText areaText).2 _ read [clash, twice]
  refine ⟨read, i, accepted, consistent, ?_, ?_, ?_⟩
  · rw [same.functions]
    rfl
  · rw [same.find?]
    rfl
  · rw [same.find?]
    rfl

end IndexedRegistry

end MatrixCalculator
