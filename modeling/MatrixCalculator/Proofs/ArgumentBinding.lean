import MatrixCalculator.Evaluation.Arguments
import MatrixCalculator.Proofs.TokenReading

/-!
# Which parameter receives which argument

The arguments of a call are bound one after the other, each to the parameter at its position or with
its name (`Call.target?`). What the binding comes to does not depend on this order. It succeeds if
the arguments are proper (`exists_bindArguments_iff`), which is said of them all at once by
`Call.Proper`, and then each parameter has the argument that it receives, or its default
(`getElem?_of_bindArguments`).
-/

set_option autoImplicit false

namespace MatrixCalculator

namespace Call

/-- The position of the parameter that an argument is meant for, if there is one: that with the name
given, or else the argument's own position. -/
def target? (d : Descriptor) (argument : Token × Nat) : Option Nat :=
  match argument.1.hint with
  | some hint => d.parameterIndex? hint
  | none => some argument.2

/-- Whether a parameter receives a token among the arguments of a call. -/
def Receives (d : Descriptor) (args : List Token) (index : Nat) (t : Token) : Prop :=
  ∃ position, (t, position) ∈ args.zipIdx ∧ target? d (t, position) = some index

/-- Whether no argument by position follows a named one. -/
def NamedLast (args : List Token) : Prop :=
  args.Pairwise fun t u ↦ t.hint.isSome = true → u.hint.isSome = true

variable {store : Store} {d : Descriptor} {slots next : Slots}

/-! ### One argument -/

theorem targetIndex_eq_ok_iff {named : Bool} {t : Token} {position index : Nat} :
    targetIndex d named t position = .ok index ↔
      (named = true → t.hint.isSome = true) ∧ target? d (t, position) = some index := by
  rw [targetIndex, target?]
  rcases t.hint with _ | hint
  · cases named <;> simp
  · dsimp only
    rcases d.parameterIndex? hint with _ | found <;> simp

/-- An argument is bound if it is meant for a parameter that has none yet and is of its type. -/
theorem bindOne_eq_ok_iff {argument : Token × Nat} :
    bindOne store d slots argument = .ok next ↔
      (slots.named = true → argument.1.hint.isSome = true) ∧
        ∃ index p value, target? d argument = some index ∧ d.parameters[index]? = some p ∧
          slots.filled[index]? = some none ∧ coerce store argument.1 p.type = .ok value ∧
          next = ⟨slots.filled.set index (some value), slots.named || argument.1.hint.isSome⟩ := by
  obtain ⟨t, position⟩ := argument
  rw [bindOne]
  constructor
  · intro bound
    obtain ⟨index, found, bound⟩ := exists_of_bind_eq_ok bound
    obtain ⟨mayFollow, target⟩ := targetIndex_eq_ok_iff.mp found
    refine ⟨mayFollow, index, ?_⟩
    split at bound
    · rename_i p isParameter isFree
      obtain ⟨value, coerced, bound⟩ := exists_of_bind_eq_ok bound
      exact ⟨p, value, target, isParameter, isFree, coerced, (Except.ok.inj bound).symm⟩
    · cases bound
    · cases bound
  · rintro ⟨mayFollow, index, p, value, target, isParameter, isFree, coerced, rfl⟩
    have found := targetIndex_eq_ok_iff.mpr ⟨mayFollow, target⟩
    dsimp only at coerced ⊢
    rw [found, ok_bind, isParameter, isFree]
    dsimp only
    rw [coerced]
    rfl

/-! ### All arguments -/

/-- What the places hold behind some arguments, each with its position. -/
structure Bound (store : Store) (d : Descriptor) (arguments : List (Token × Nat))
    (slots : Slots) : Prop where
  named : slots.named = arguments.any (·.1.hint.isSome)
  length : slots.filled.length = d.parameters.length
  namedLast : NamedLast (arguments.map Prod.fst)
  distinct : (arguments.filterMap (target? d)).Nodup
  /-- Every argument has the place of the parameter that it is meant for. -/
  filled : ∀ a ∈ arguments, ∃ index p value, target? d a = some index ∧
    d.parameters[index]? = some p ∧ coerce store a.1 p.type = .ok value ∧
      slots.filled[index]? = some (some value)
  /-- No place is taken but by an argument. -/
  free : ∀ index < d.parameters.length, (∀ a ∈ arguments, target? d a ≠ some index) →
    slots.filled[index]? = some none

theorem bound_start : Bound store d [] (.start d) where
  named := rfl
  length := by simp [Slots.start]
  namedLast := .nil
  distinct := .nil
  filled := by simp
  free index inRange _ := by simp [Slots.start, inRange]

/-- Arguments are named last if no named one precedes a last one by position. -/
theorem namedLast_concat_iff {args : List Token} {t : Token} :
    NamedLast (args ++ [t]) ↔
      NamedLast args ∧ (args.any (·.hint.isSome) = true → t.hint.isSome = true) := by
  rw [NamedLast, NamedLast, List.pairwise_append]
  simp

/-- One more argument is bound next to those before it. -/
theorem Bound.bindOne {arguments : List (Token × Nat)} {argument : Token × Nat}
    (bound : Bound store d arguments slots) (taken : bindOne store d slots argument = .ok next) :
    Bound store d (arguments ++ [argument]) next := by
  obtain ⟨named, length, namedLast, distinct, filled, free⟩ := bound
  obtain ⟨mayFollow, index, p, value, target, isParameter, isFree, coerced, rfl⟩ :=
    bindOne_eq_ok_iff.mp taken
  have inRange : index < slots.filled.length := (List.getElem?_eq_some_iff.mp isFree).1
  -- The place is free, so that no earlier argument can have been meant for it.
  have fresh : ∀ a ∈ arguments, target? d a ≠ some index := by
    intro a isMem same
    obtain ⟨other, q, before, ofArgument, -, -, isFilled⟩ := filled a isMem
    obtain rfl := Option.some.inj (ofArgument.symm.trans same)
    rw [isFree] at isFilled
    cases isFilled
  constructor
  case named => rw [named, List.any_append, List.any_cons, List.any_nil, Bool.or_false]
  case length => rw [List.length_set, length]
  case namedLast =>
    rw [List.map_append, List.map_singleton, namedLast_concat_iff]
    refine ⟨namedLast, fun anyNamed ↦ mayFollow ?_⟩
    rw [named]
    simpa using anyNamed
  case distinct =>
    rw [List.filterMap_append, List.nodup_append]
    refine ⟨distinct, by simp [target], fun earlier isEarlier last isLast ↦ ?_⟩
    obtain ⟨a, isMem, ofEarlier⟩ := List.mem_filterMap.mp isEarlier
    obtain rfl : last = index := by simpa [target] using isLast
    rintro rfl
    exact fresh a isMem ofEarlier
  case filled =>
    intro a isMem
    rcases List.mem_append.mp isMem with before | isLast
    · obtain ⟨other, q, old, ofArgument, ofOther, ofOld, isFilled⟩ := filled a before
      refine ⟨other, q, old, ofArgument, ofOther, ofOld, ?_⟩
      have differ : index ≠ other := fun same ↦ fresh a before (same ▸ ofArgument)
      rw [List.getElem?_set_ne differ, isFilled]
    · obtain rfl := List.mem_singleton.mp isLast
      exact ⟨index, p, value, target, isParameter, coerced, List.getElem?_set_self inRange⟩
  case free =>
    intro other ofRange notMeant
    rw [List.forall_mem_append, List.forall_mem_singleton, target] at notMeant
    have differ : index ≠ other := fun same ↦ notMeant.2 (congrArg some same)
    rw [List.getElem?_set_ne differ]
    exact free other ofRange notMeant.1

theorem bound_of_foldlM {arguments : List (Token × Nat)}
    (ran : arguments.foldlM (bindOne store d) (.start d) = .ok slots) :
    Bound store d arguments slots := by
  induction arguments using List.reverseRecOn generalizing slots with
  | nil =>
    obtain rfl := Except.ok.inj ran
    exact bound_start
  | append_singleton arguments argument ih =>
    rw [List.foldlM_append] at ran
    obtain ⟨middle, before, taken⟩ := exists_of_bind_eq_ok ran
    rw [List.foldlM_cons] at taken
    obtain ⟨last, ofLast, isLast⟩ := exists_of_bind_eq_ok taken
    obtain rfl := Except.ok.inj isLast
    exact (ih before).bindOne ofLast

/-- One more argument may follow those that are bound if all of them are named last. -/
theorem Bound.mayFollow {arguments : List (Token × Nat)} {t : Token}
    (bound : Bound store d arguments slots)
    (namedLast : NamedLast (arguments.map Prod.fst ++ [t])) (named : slots.named = true) :
    t.hint.isSome = true := by
  rw [bound.named] at named
  exact (namedLast_concat_iff.mp namedLast).2 (by simpa using named)

/-- The place of a parameter is free for one more argument if no two are meant for the same
parameter. -/
theorem Bound.isFree {arguments later : List (Token × Nat)} {argument : Token × Nat} {index : Nat}
    {p : Parameter} (bound : Bound store d arguments slots)
    (distinct : ((arguments ++ argument :: later).filterMap (target? d)).Nodup)
    (target : target? d argument = some index) (isParameter : d.parameters[index]? = some p) :
    slots.filled[index]? = some none := by
  rw [List.filterMap_append, List.nodup_append] at distinct
  refine bound.free index (List.getElem?_eq_some_iff.mp isParameter).1 fun a isMem same ↦ ?_
  exact distinct.2.2 index (List.mem_filterMap.mpr ⟨a, isMem, same⟩) index
    (List.mem_filterMap.mpr ⟨argument, List.mem_cons_self, target⟩) rfl

/-- Arguments that are named last, meant for parameters of their types and no two for the same are
bound. -/
theorem exists_foldlM {arguments : List (Token × Nat)}
    (namedLast : NamedLast (arguments.map Prod.fst))
    (distinct : (arguments.filterMap (target? d)).Nodup)
    (fit : ∀ a ∈ arguments, ∃ index p value, target? d a = some index ∧
      d.parameters[index]? = some p ∧ coerce store a.1 p.type = .ok value) :
    ∃ slots, arguments.foldlM (bindOne store d) (.start d) = .ok slots := by
  -- What the last argument finds is what the others leave, so the induction takes the last one off.
  induction arguments using List.reverseRecOn with
  | nil => exact ⟨_, rfl⟩
  | append_singleton arguments argument ih =>
    rw [List.map_append, List.map_singleton] at namedLast
    rw [List.forall_mem_append, List.forall_mem_singleton] at fit
    have distinctBefore : (arguments.filterMap (target? d)).Nodup := by
      rw [List.filterMap_append] at distinct
      exact distinct.of_append_left
    obtain ⟨slots, ran⟩ := ih (namedLast_concat_iff.mp namedLast).1 distinctBefore fit.1
    have bound := bound_of_foldlM ran
    obtain ⟨index, p, value, target, isParameter, coerced⟩ := fit.2
    have isFree := bound.isFree distinct target isParameter
    have taken := bindOne_eq_ok_iff.mpr
      ⟨bound.mayFollow namedLast, index, p, value, target, isParameter, isFree, coerced, rfl⟩
    refine ⟨⟨slots.filled.set index (some value), slots.named || argument.1.hint.isSome⟩, ?_⟩
    rw [List.foldlM_append, ran, ok_bind, List.foldlM_cons, taken]
    rfl

/-! ### Names and positions -/

theorem exists_of_parameterIndex? {hint : String} {index : Nat}
    (found : d.parameterIndex? hint = some index) :
    ∃ p, d.parameters[index]? = some p ∧ p.name = hint := by
  obtain ⟨inRange, isNamed, -⟩ := List.findIdx?_eq_some_iff_getElem.mp found
  exact ⟨_, List.getElem?_eq_getElem inRange, beq_iff_eq.mp isNamed⟩

theorem exists_parameterIndex? {hint : String} (known : ∃ p ∈ d.parameters, p.name = hint) :
    ∃ index, d.parameterIndex? hint = some index := by
  obtain ⟨p, isMem, rfl⟩ := known
  rw [← Option.isSome_iff_exists, Descriptor.parameterIndex?, List.findIdx?_isSome,
    List.any_eq_true]
  exact ⟨p, isMem, beq_self_eq_true p.name⟩

section Positions

variable {args : List Token}

/-- The arguments by position stand in front of the named ones. -/
theorem NamedLast.exists_append (namedLast : NamedLast args) :
    ∃ front back, args = front ++ back ∧ (∀ t ∈ front, t.hint = none) ∧
      ∀ t ∈ back, t.hint.isSome = true := by
  induction args with
  | nil => exact ⟨[], [], rfl, by simp, by simp⟩
  | cons t rest ih =>
    rw [NamedLast, List.pairwise_cons] at namedLast
    rcases hint : t.hint with _ | name
    · obtain ⟨front, back, rfl, unnamed, named⟩ := ih namedLast.2
      exact ⟨t :: front, back, rfl, List.forall_mem_cons.mpr ⟨hint, unnamed⟩, named⟩
    · have isNamed : t.hint.isSome = true := by rw [hint]; rfl
      exact ⟨[], t :: rest, rfl, by simp,
        List.forall_mem_cons.mpr ⟨isNamed, fun u isMem ↦ namedLast.1 u isMem isNamed⟩⟩

theorem countP_of_append {front back : List Token} (unnamed : ∀ t ∈ front, t.hint = none)
    (named : ∀ t ∈ back, t.hint.isSome = true) :
    (front ++ back).countP (·.hint.isNone) = front.length := by
  have all : front.countP (·.hint.isNone) = front.length :=
    List.countP_eq_length.mpr fun t isMem ↦ by rw [unnamed t isMem]; rfl
  have none : back.countP (·.hint.isNone) = 0 := by
    refine List.countP_eq_zero.mpr fun t isMem ↦ ?_
    obtain ⟨name, isName⟩ := Option.isSome_iff_exists.mp (named t isMem)
    simp [isName]
  rw [List.countP_append, all, none, Nat.add_zero]

/-- An argument by position has no more arguments by position before it than there are others. -/
theorem NamedLast.lt_countP (namedLast : NamedLast args) {t : Token} {position : Nat}
    (isAt : args[position]? = some t) (unnamed : t.hint = none) :
    position < args.countP (·.hint.isNone) := by
  obtain ⟨front, back, rfl, ofFront, ofBack⟩ := namedLast.exists_append
  rw [countP_of_append ofFront ofBack]
  by_contra behind
  rw [List.getElem?_append_right (by omega)] at isAt
  have named := ofBack t (List.mem_of_getElem? isAt)
  rw [unnamed] at named
  cases named

theorem NamedLast.countP_le (namedLast : NamedLast args) {bound : Nat}
    (inRange : ∀ t position, args[position]? = some t → t.hint = none → position < bound) :
    args.countP (·.hint.isNone) ≤ bound := by
  obtain ⟨front, back, rfl, ofFront, ofBack⟩ := namedLast.exists_append
  rw [countP_of_append ofFront ofBack]
  rcases List.eq_nil_or_concat front with rfl | ⟨others, last, rfl⟩
  · exact Nat.zero_le bound
  · have isAt : (others.concat last ++ back)[others.length]? = some last := by simp
    have last := inRange last others.length isAt (ofFront last (by simp))
    rw [List.length_concat]
    exact last

end Positions

end Call

/-! ### The call as a whole -/

section Results

variable {α β ε : Type} {f : α → Except ε β} {items : List α}

theorem exists_mapM (succeed : ∀ item ∈ items, ∃ result, f item = .ok result) :
    ∃ results, items.mapM f = .ok results := by
  induction items with
  | nil => exact ⟨[], rfl⟩
  | cons item rest ih =>
    rw [List.forall_mem_cons] at succeed
    obtain ⟨result, first⟩ := succeed.1
    obtain ⟨results, others⟩ := ih succeed.2
    exact ⟨result :: results, by rw [List.mapM_cons, first, ok_bind, others]; rfl⟩

theorem getElem?_of_mapM {results : List β} (read : items.mapM f = .ok results) :
    results.length = items.length ∧ ∀ (index : Nat) (item : α), items[index]? = some item →
      ∃ result, results[index]? = some result ∧ f item = .ok result := by
  have each := mapM_eq_ok_iff.mp read
  refine ⟨each.length_eq.symm, fun index item isItem ↦ ?_⟩
  obtain ⟨inItems, rfl⟩ := List.getElem?_eq_some_iff.mp isItem
  have inResults : index < results.length := each.length_eq ▸ inItems
  exact ⟨results[index], List.getElem?_eq_getElem inResults, each.get inItems inResults⟩

end Results

namespace Call

variable {store : Store} {d : Descriptor} {args : List Token} {slots : Slots}

/-- Whether every argument of a call has a parameter of its own. -/
structure Placed (d : Descriptor) (args : List Token) : Prop where
  /-- No argument by position follows a named one. -/
  namedLast : NamedLast args
  /-- Every name given is that of a parameter. -/
  known : ∀ t ∈ args, ∀ hint ∈ t.hint, ∃ p ∈ d.parameters, p.name = hint
  /-- There are at most as many arguments by position as parameters. -/
  enough : args.countP (·.hint.isNone) ≤ d.parameters.length
  /-- No parameter receives two arguments. -/
  distinct : (args.zipIdx.filterMap (target? d)).Nodup

/-- Whether the arguments of a call suit its parameters. -/
structure Proper (store : Store) (d : Descriptor) (args : List Token) : Prop
    extends Placed d args where
  /-- Every argument can be converted to the type of its parameter. -/
  fit : ∀ index p t, d.parameters[index]? = some p → Receives d args index t →
    ∃ value, coerce store t p.type = .ok value
  /-- Every required parameter without a default receives an argument. -/
  given : ∀ index p, d.parameters[index]? = some p → p.required = true → p.default? = none →
    ∃ t, Receives d args index t

theorem Placed.exists_parameter (placed : Placed d args) {t : Token} {position : Nat}
    (isAt : args[position]? = some t) :
    ∃ index p, target? d (t, position) = some index ∧ d.parameters[index]? = some p := by
  rcases hint : t.hint with _ | name
  · have inRange : position < d.parameters.length :=
      Nat.lt_of_lt_of_le (placed.namedLast.lt_countP isAt hint) placed.enough
    exact ⟨position, _, by rw [target?, hint], List.getElem?_eq_getElem inRange⟩
  · obtain ⟨index, found⟩ :=
      exists_parameterIndex? (placed.known t (List.mem_of_getElem? isAt) name hint)
    obtain ⟨p, isParameter, -⟩ := exists_of_parameterIndex? found
    exact ⟨index, p, by rw [target?, hint]; exact found, isParameter⟩

/-- Proper arguments are all meant for parameters of their types. -/
theorem Proper.exists_coerce (proper : Proper store d args) {a : Token × Nat}
    (isMem : a ∈ args.zipIdx) :
    ∃ index p value, target? d a = some index ∧ d.parameters[index]? = some p ∧
      coerce store a.1 p.type = .ok value := by
  obtain ⟨t, position⟩ := a
  obtain ⟨index, p, target, isParameter⟩ :=
    proper.exists_parameter (List.mem_zipIdx_iff_getElem?.mp isMem)
  obtain ⟨value, coerced⟩ := proper.fit index p t isParameter ⟨position, isMem, target⟩
  exact ⟨index, p, value, target, isParameter, coerced⟩

/-- The place of a parameter holds each argument that the parameter receives. -/
theorem Bound.filled_of_receives (bound : Bound store d args.zipIdx slots) {index : Nat}
    {p : Parameter} {t : Token} (isParameter : d.parameters[index]? = some p)
    (receives : Receives d args index t) :
    ∃ value, coerce store t p.type = .ok value ∧ slots.filled[index]? = some (some value) := by
  obtain ⟨position, isMem, target⟩ := receives
  obtain ⟨other, q, value, ofArgument, ofOther, coerced, isFilled⟩ := bound.filled _ isMem
  obtain rfl := Option.some.inj (target.symm.trans ofArgument)
  obtain rfl := Option.some.inj (isParameter.symm.trans ofOther)
  exact ⟨value, coerced, isFilled⟩

/-- The place of a parameter that receives no argument is free. -/
theorem Bound.free_of_not_receives (bound : Bound store d args.zipIdx slots) {index : Nat}
    (inRange : index < d.parameters.length) (omitted : ∀ t, ¬ Receives d args index t) :
    slots.filled[index]? = some none :=
  bound.free index inRange fun a isMem same ↦ omitted a.1 ⟨a.2, isMem, same⟩

/-- A parameter is left out without harm if it has a default or is not required. -/
theorem exists_complete_none_iff {p : Parameter} :
    (∃ value, complete d (p, none) = .ok value) ↔ (p.required = true → p.default? ≠ none) := by
  rw [complete]
  rcases p.default? with _ | argument
  · cases p.required <;> simp
  · simp

/-- The place at an index and the parameter that it is for. -/
theorem Bound.getElem?_zip (bound : Bound store d args.zipIdx slots) {index : Nat} {p : Parameter}
    (isParameter : d.parameters[index]? = some p) :
    ∃ place, slots.filled[index]? = some place ∧
      (d.parameters.zip slots.filled)[index]? = some (p, place) := by
  have inRange : index < slots.filled.length :=
    bound.length ▸ (List.getElem?_eq_some_iff.mp isParameter).1
  exact ⟨_, List.getElem?_eq_getElem inRange,
    List.getElem?_zip_eq_some.mpr ⟨isParameter, List.getElem?_eq_getElem inRange⟩⟩

/-- Arguments that are bound suit the parameters if no required one is missing. -/
theorem Bound.proper (bound : Bound store d args.zipIdx slots)
    (given : ∀ index p, d.parameters[index]? = some p → p.required = true → p.default? = none →
      ∃ t, Receives d args index t) : Proper store d args where
  namedLast := List.zipIdx_map_fst 0 args ▸ bound.namedLast
  known t isMem hint isHint := by
    obtain ⟨position, isAt⟩ := List.mem_iff_getElem?.mp isMem
    obtain ⟨index, p, value, target, -⟩ :=
      bound.filled (t, position) (List.mem_zipIdx_iff_getElem?.mpr isAt)
    rw [target?, Option.mem_def.mp isHint] at target
    obtain ⟨q, isParameter, isNamed⟩ := exists_of_parameterIndex? target
    exact ⟨q, List.mem_of_getElem? isParameter, isNamed⟩
  enough := by
    have namedLast : NamedLast args := List.zipIdx_map_fst 0 args ▸ bound.namedLast
    refine namedLast.countP_le fun t position isAt unnamed ↦ ?_
    obtain ⟨index, p, value, target, isParameter, -⟩ :=
      bound.filled (t, position) (List.mem_zipIdx_iff_getElem?.mpr isAt)
    rw [target?, unnamed] at target
    obtain rfl := Option.some.inj target
    exact (List.getElem?_eq_some_iff.mp isParameter).1
  distinct := bound.distinct
  fit index p t isParameter receives := by
    obtain ⟨value, coerced, -⟩ := bound.filled_of_receives isParameter receives
    exact ⟨value, coerced⟩
  given := given

end Call

open Call

variable {store : Store} {d : Descriptor} {args : List Token} {out : List Argument}

/-- Each parameter gets the argument that it receives, or else what stands for an omitted one. -/
theorem getElem?_of_bindArguments (taken : bindArguments store d args = .ok out) :
    out.length = d.parameters.length ∧ ∀ index p, d.parameters[index]? = some p →
      ∃ value, out[index]? = some value ∧
        (∀ t, Receives d args index t → coerce store t p.type = .ok value) ∧
        ((∀ t, ¬ Receives d args index t) → complete d (p, none) = .ok value) := by
  obtain ⟨slots, ran, completed⟩ := exists_of_bind_eq_ok taken
  have bound := bound_of_foldlM ran
  obtain ⟨length, each⟩ := getElem?_of_mapM completed
  refine ⟨by rw [length, List.length_zip, bound.length, Nat.min_self], ?_⟩
  intro index p isParameter
  obtain ⟨place, isPlace, isPair⟩ := bound.getElem?_zip isParameter
  obtain ⟨value, isValue, ofPlace⟩ := each index _ isPair
  refine ⟨value, isValue, fun t receives ↦ ?_, fun omitted ↦ ?_⟩
  · obtain ⟨given, coerced, isFilled⟩ := bound.filled_of_receives isParameter receives
    obtain rfl := Option.some.inj (isPlace.symm.trans isFilled)
    obtain rfl := Except.ok.inj ofPlace
    exact coerced
  · have isFree := bound.free_of_not_receives (List.getElem?_eq_some_iff.mp isParameter).1 omitted
    obtain rfl := Option.some.inj (isPlace.symm.trans isFree)
    exact ofPlace

/-- Arguments are bound if they suit the parameters. -/
theorem exists_bindArguments_iff :
    (∃ out, bindArguments store d args = .ok out) ↔ Proper store d args := by
  constructor
  · rintro ⟨out, taken⟩
    obtain ⟨slots, ran, -⟩ := exists_of_bind_eq_ok taken
    refine (bound_of_foldlM ran).proper fun index p isParameter required noDefault ↦ ?_
    by_contra omitted
    obtain ⟨value, -, -, completed⟩ := (getElem?_of_bindArguments taken).2 index p isParameter
    exact exists_complete_none_iff.mp ⟨value, completed (not_exists.mp omitted)⟩ required noDefault
  · intro proper
    have namedLast : NamedLast (args.zipIdx.map Prod.fst) := by
      rw [List.zipIdx_map_fst]
      exact proper.namedLast
    obtain ⟨slots, ran⟩ := exists_foldlM namedLast proper.distinct fun a isMem ↦
      proper.exists_coerce isMem
    have bound := bound_of_foldlM ran
    obtain ⟨out, completed⟩ :
        ∃ out, (d.parameters.zip slots.filled).mapM (complete d) = .ok out := by
      refine exists_mapM fun pair isMem ↦ ?_
      obtain ⟨index, isPair⟩ := List.mem_iff_getElem?.mp isMem
      obtain ⟨p, place⟩ := pair
      obtain ⟨isParameter, isPlace⟩ := List.getElem?_zip_eq_some.mp isPair
      rcases place with _ | value
      · refine exists_complete_none_iff.mpr fun required noDefault ↦ ?_
        obtain ⟨t, receives⟩ := proper.given index p isParameter required noDefault
        obtain ⟨value, -, isFilled⟩ := bound.filled_of_receives isParameter receives
        cases isPlace.symm.trans isFilled
      · exact ⟨value, rfl⟩
    exact ⟨out, by rw [bindArguments, ran, ok_bind, completed]⟩

/-- A function to try calls on. It takes a text, its author, who is anonymous by default, and a
number of pages, which may be unknown. -/
def Call.note : Descriptor :=
  ⟨"Note", [], [Registry.needed "text" .dynamic,
    Registry.optional "author" .dynamic (.text "anonymous"), ⟨"pages", .float, false, none⟩],
    .null, "notes", ""⟩

end MatrixCalculator
