import Mathlib.Data.List.Nodup
import MatrixCalculator.Proofs.ArgumentBinding

/-!
# Arguments by position and by name

An argument may be given by name instead of position, and named arguments may stand in any order.
The conversion of an argument does not look at the name that it is given with
(`coerce_unhinted`), so that a call is settled by which parameter has which token
(`bindArguments_of_gives`). In the end it does not matter from which argument on a call names them,
nor in which order (`bindArguments_named`).
-/

set_option autoImplicit false

namespace MatrixCalculator

namespace Token

/-- The token as an argument by name. -/
def hinted (t : Token) (name : String) : Token :=
  { t with hint := some name }

/-- The token as an argument by position. -/
def unhinted (t : Token) : Token :=
  { t with hint := none }

theorem unhinted_hinted {t : Token} (positional : t.hint = none) (name : String) :
    (t.hinted name).unhinted = t := by
  rw [hinted, unhinted, ← positional]

theorem unhinted_eq_self {t : Token} (positional : t.hint = none) : t.unhinted = t := by
  rw [unhinted, ← positional]

end Token

theorem coerce_unhinted (store : Store) (t : Token) (type : ParameterType) :
    coerce store t.unhinted type = coerce store t type :=
  rfl

namespace Call

variable {store : Store} {d : Descriptor} {args others : List Token} {out : List Argument}

/-- Whether a parameter receives a token, by position or by name. -/
def Gives (d : Descriptor) (args : List Token) (index : Nat) (t : Token) : Prop :=
  ∃ u, Receives d args index u ∧ u.unhinted = t

theorem Proper.of_gives (proper : Proper store d args) (placed : Placed d others)
    (same : ∀ index t, Gives d args index t ↔ Gives d others index t) :
    Proper store d others where
  toPlaced := placed
  fit index p u isParameter receives := by
    obtain ⟨t, ofArgs, alike⟩ := (same index u.unhinted).mpr ⟨u, receives, rfl⟩
    obtain ⟨value, coerced⟩ := proper.fit index p t isParameter ofArgs
    refine ⟨value, ?_⟩
    rw [← coerce_unhinted, ← alike, coerce_unhinted, coerced]
  given index p isParameter required noDefault := by
    obtain ⟨t, receives⟩ := proper.given index p isParameter required noDefault
    obtain ⟨u, ofOthers, -⟩ := (same index t.unhinted).mp ⟨t, receives, rfl⟩
    exact ⟨u, ofOthers⟩

/-- Two calls that give each parameter the same token hand over the same arguments. -/
theorem bindArguments_of_gives (taken : bindArguments store d args = .ok out)
    (placed : Placed d others)
    (same : ∀ index t, Gives d args index t ↔ Gives d others index t) :
    bindArguments store d others = .ok out := by
  obtain ⟨length, each⟩ := getElem?_of_bindArguments taken
  have proper : Proper store d args := exists_bindArguments_iff.mp ⟨out, taken⟩
  obtain ⟨result, ofOthers⟩ := exists_bindArguments_iff.mpr (proper.of_gives placed same)
  obtain ⟨sameLength, eachOther⟩ := getElem?_of_bindArguments ofOthers
  suffices agree : ∀ index p, d.parameters[index]? = some p → result[index]? = out[index]? by
    rw [ofOthers]
    refine congrArg Except.ok (List.ext_getElem? fun index ↦ ?_)
    rcases isParameter : d.parameters[index]? with _ | p
    · rw [List.getElem?_eq_none_iff, ← length] at isParameter
      rw [List.getElem?_eq_none isParameter, List.getElem?_eq_none (by omega)]
    · exact agree index p isParameter
  intro index p isParameter
  obtain ⟨value, isValue, given, omitted⟩ := each index p isParameter
  obtain ⟨other, isOther, givenOther, omittedOther⟩ := eachOther index p isParameter
  have equal : (.ok value : Except EvalError Argument) = .ok other := by
    by_cases received : ∃ t, Receives d args index t
    · obtain ⟨t, receives⟩ := received
      obtain ⟨u, receivesOther, alike⟩ := (same index t.unhinted).mp ⟨t, receives, rfl⟩
      rw [← given t receives, ← givenOther u receivesOther, ← coerce_unhinted store u, alike,
        coerce_unhinted]
    · rw [← omitted (not_exists.mp received), ← omittedOther fun u receivesOther ↦ ?_]
      obtain ⟨t, receives, -⟩ := (same index u.unhinted).mpr ⟨u, receivesOther, rfl⟩
      exact received ⟨t, receives⟩
  rw [isValue, isOther, Except.ok.inj equal]

/-! ### Arguments by position -/

section ByPosition

variable (positional : ∀ t ∈ args, t.hint = none)
include positional

theorem receives_iff_of_positional {index : Nat} {t : Token} :
    Receives d args index t ↔ args[index]? = some t := by
  constructor
  · rintro ⟨position, isMem, target⟩
    have isAt : args[position]? = some t := List.mem_zipIdx_iff_getElem?.mp isMem
    rw [target?, positional t (List.mem_of_getElem? isAt)] at target
    obtain rfl := Option.some.inj target
    exact isAt
  · intro isAt
    refine ⟨index, List.mem_zipIdx_iff_getElem?.mpr isAt, ?_⟩
    rw [target?, positional t (List.mem_of_getElem? isAt)]

theorem filterMap_target?_of_positional :
    args.zipIdx.filterMap (target? d) = List.range args.length := by
  have own : ∀ a ∈ args.zipIdx, target? d a = some a.2 := fun a isMem ↦ by
    rw [target?, positional a.1 (List.mem_of_getElem? (List.mem_zipIdx_iff_getElem?.mp isMem))]
  rw [List.filterMap_congr own, List.range_eq_range', ← List.zipIdx_map_snd 0 args]
  exact congrFun List.filterMap_eq_map' _

theorem placed_of_positional (fit : args.length ≤ d.parameters.length) : Placed d args where
  namedLast := List.pairwise_of_forall_mem_list fun t isMem u _ isNamed ↦ by
    rw [positional t isMem] at isNamed
    cases isNamed
  known t isMem hint isHint := by
    rw [positional t isMem] at isHint
    cases isHint
  enough := List.countP_le_length.trans fit
  distinct := by
    rw [filterMap_target?_of_positional positional]
    exact List.nodup_range

end ByPosition

/-! ### Arguments from one on by name -/

section ByName

variable (distinct : (d.parameters.map Parameter.name).Nodup)
include distinct

/-- Among distinct names, the name of a parameter finds no other one. -/
theorem parameterIndex?_eq_some {index : Nat} {p : Parameter}
    (isParameter : d.parameters[index]? = some p) : d.parameterIndex? p.name = some index := by
  obtain ⟨found, isFound⟩ :=
    exists_parameterIndex? ⟨p, List.mem_of_getElem? isParameter, rfl⟩
  obtain ⟨q, ofFound, sameName⟩ := exists_of_parameterIndex? isFound
  have inRange := (List.getElem?_eq_some_iff.mp ofFound).1
  obtain rfl : found = index := by
    refine (List.getElem?_inj (by simpa using inRange) distinct).mp ?_
    rw [List.getElem?_map, List.getElem?_map, ofFound, isParameter, Option.map_some,
      Option.map_some, sameName]
  exact isFound

end ByName

/-- The arguments in front of the one at `k` by position, and the others by name. -/
def namedFrom (k : Nat) (args : List Token) (named : List (Token × Parameter)) : List Token :=
  args.take k ++ named.map fun (t, p) ↦ t.hinted p.name

section NamedFrom

variable {k : Nat} {named : List (Token × Parameter)}

/-- What stands from `k` on, each argument with the parameter at its position. -/
theorem mem_drop_zip_iff {t : Token} {p : Parameter} :
    (t, p) ∈ (args.zip d.parameters).drop k ↔
      ∃ index, k ≤ index ∧ args[index]? = some t ∧ d.parameters[index]? = some p := by
  rw [List.mem_iff_getElem?]
  constructor
  · rintro ⟨behind, isPair⟩
    rw [List.getElem?_drop] at isPair
    exact ⟨k + behind, by omega, List.getElem?_zip_eq_some.mp isPair⟩
  · rintro ⟨index, behind, isPair⟩
    refine ⟨index - k, ?_⟩
    rw [List.getElem?_drop, Nat.add_sub_cancel' behind]
    exact List.getElem?_zip_eq_some.mpr isPair

theorem nodup_names (distinct : (d.parameters.map Parameter.name).Nodup)
    (permuted : named.Perm ((args.zip d.parameters).drop k)) :
    (named.map fun (_, p) ↦ p.name).Nodup := by
  rw [(permuted.map _).nodup_iff, List.zip_eq_zip_take_min, List.map_drop]
  refine List.Pairwise.drop ?_
  change (List.map (Parameter.name ∘ Prod.snd) _).Nodup
  rw [← List.map_map, List.map_snd_zip (by simp), List.map_take]
  exact distinct.sublist (List.take_sublist _ _)

theorem filterMap_target?_hinted (start : Nat) :
    ((named.map fun (t, p) ↦ t.hinted p.name).zipIdx start).filterMap (target? d) =
      (named.map fun (_, p) ↦ p.name).filterMap d.parameterIndex? := by
  induction named generalizing start with
  | nil => rfl
  | cons pair rest ih =>
    rw [List.map_cons, List.map_cons, List.zipIdx_cons, List.filterMap_cons, List.filterMap_cons,
      ih]
    rfl

variable (distinct : (d.parameters.map Parameter.name).Nodup)
  (positional : ∀ t ∈ args, t.hint = none) (fit : args.length ≤ d.parameters.length)
  (permuted : named.Perm ((args.zip d.parameters).drop k))
include distinct positional permuted

omit distinct positional in
theorem exists_of_mem_named {t : Token} {p : Parameter} (isMem : (t, p) ∈ named) :
    ∃ index, k ≤ index ∧ args[index]? = some t ∧ d.parameters[index]? = some p :=
  mem_drop_zip_iff.mp (permuted.mem_iff.mp isMem)

/-- A parameter is given nothing but the argument at its position. -/
theorem gives_of_gives_namedFrom {index : Nat} {t : Token}
    (gives : Gives d (namedFrom k args named) index t) : args[index]? = some t := by
  obtain ⟨u, ⟨position, isMem, target⟩, rfl⟩ := gives
  rw [namedFrom, List.zipIdx_append] at isMem
  rcases List.mem_append.mp isMem with inFront | behind
  · have isAt := List.mem_zipIdx_iff_getElem?.mp inFront
    have ofArgs : args[position]? = some u := by
      rw [List.getElem?_take] at isAt
      split_ifs at isAt
      exact isAt
    have unnamed := positional u (List.mem_of_getElem? ofArgs)
    rw [target?, unnamed] at target
    obtain rfl := Option.some.inj target
    rw [ofArgs, Token.unhinted_eq_self unnamed]
  · obtain ⟨pair, isNamed, rfl⟩ := List.mem_map.mp (List.fst_mem_of_mem_zipIdx behind)
    obtain ⟨v, p⟩ := pair
    obtain ⟨own, -, isArg, isParameter⟩ := exists_of_mem_named permuted isNamed
    obtain rfl : own = index :=
      Option.some.inj ((parameterIndex?_eq_some distinct isParameter).symm.trans target)
    rw [isArg, Token.unhinted_hinted (positional v (List.mem_of_getElem? isArg))]

include fit in
/-- A parameter is given the argument at its position. -/
theorem gives_namedFrom {index : Nat} {t : Token} (isArg : args[index]? = some t) :
    Gives d (namedFrom k args named) index t := by
  have unnamed := positional t (List.mem_of_getElem? isArg)
  by_cases behind : k ≤ index
  · have inRange : index < d.parameters.length :=
      (List.getElem?_eq_some_iff.mp isArg).1.trans_le fit
    have isParameter := List.getElem?_eq_getElem inRange
    have isNamed : (t, d.parameters[index]) ∈ named :=
      permuted.mem_iff.mpr (mem_drop_zip_iff.mpr ⟨index, behind, isArg, isParameter⟩)
    have isMem : t.hinted d.parameters[index].name ∈ namedFrom k args named :=
      List.mem_append_right _ (List.mem_map.mpr ⟨_, isNamed, rfl⟩)
    obtain ⟨position, isAt⟩ := List.mem_iff_getElem?.mp isMem
    exact ⟨_, ⟨position, List.mem_zipIdx_iff_getElem?.mpr isAt,
      parameterIndex?_eq_some distinct isParameter⟩, Token.unhinted_hinted unnamed _⟩
  · have isAt : (namedFrom k args named)[index]? = some t := by
      have inRange := (List.getElem?_eq_some_iff.mp isArg).1
      rw [namedFrom, List.getElem?_append_left (by rw [List.length_take]; omega),
        List.getElem?_take_of_lt (by omega), isArg]
    refine ⟨t, ⟨index, List.mem_zipIdx_iff_getElem?.mpr isAt, ?_⟩, Token.unhinted_eq_self unnamed⟩
    rw [target?, unnamed]

/-- No parameter is meant twice: the arguments in front have the parameters before `k`, and each of
the others has its own among those from `k` on. -/
theorem nodup_targets_namedFrom :
    ((namedFrom k args named).zipIdx.filterMap (target? d)).Nodup := by
  have unnamed : ∀ t ∈ args.take k, t.hint = none := fun t isMem ↦
    positional t (List.mem_of_mem_take isMem)
  rw [namedFrom, List.zipIdx_append, List.filterMap_append, filterMap_target?_hinted,
    filterMap_target?_of_positional unnamed, List.nodup_append]
  refine ⟨List.nodup_range, ?_, ?_⟩
  · refine List.Nodup.filterMap (fun name other index isFirst isSecond ↦ ?_)
      (nodup_names distinct permuted)
    obtain ⟨p, ofFirst, rfl⟩ := exists_of_parameterIndex? isFirst
    obtain ⟨q, ofSecond, rfl⟩ := exists_of_parameterIndex? isSecond
    rw [Option.some.inj (ofFirst.symm.trans ofSecond)]
  · intro position inFront index isTarget
    obtain ⟨name, isName, found⟩ := List.mem_filterMap.mp isTarget
    obtain ⟨⟨v, p⟩, isNamed, rfl⟩ := List.mem_map.mp isName
    obtain ⟨own, behind, -, isParameter⟩ := exists_of_mem_named permuted isNamed
    obtain rfl : own = index :=
      Option.some.inj ((parameterIndex?_eq_some distinct isParameter).symm.trans found)
    rw [List.mem_range, List.length_take] at inFront
    omega

include fit in
theorem placed_namedFrom : Placed d (namedFrom k args named) := by
  have unnamed : ∀ t ∈ args.take k, t.hint = none := fun t isMem ↦
    positional t (List.mem_of_mem_take isMem)
  have areNamed : ∀ t ∈ named.map fun (t, p) ↦ t.hinted p.name, t.hint.isSome = true :=
    List.forall_mem_map.mpr fun _ _ ↦ rfl
  have enough : (args.take k).length ≤ d.parameters.length := by
    rw [List.length_take]
    omega
  have front : Placed d (args.take k) := placed_of_positional unnamed enough
  refine ⟨?_, ?_, ?_, ?_⟩
  · refine List.pairwise_append.mpr ⟨front.namedLast, ?_, fun t _ u isMem _ ↦ areNamed u isMem⟩
    exact List.pairwise_of_forall_mem_list fun t _ u isMem _ ↦ areNamed u isMem
  · refine List.forall_mem_append.mpr ⟨front.known, fun t isMem hint isHint ↦ ?_⟩
    obtain ⟨⟨v, p⟩, isNamed, rfl⟩ := List.mem_map.mp isMem
    obtain ⟨index, -, -, isParameter⟩ := exists_of_mem_named permuted isNamed
    exact ⟨p, List.mem_of_getElem? isParameter, Option.some.inj isHint⟩
  · rw [namedFrom, countP_of_append unnamed areNamed]
    exact enough
  · exact nodup_targets_namedFrom distinct positional permuted

end NamedFrom

end Call

open Call

/-- Whether the arguments from one on are given by position or by name, and then in which order,
makes no difference to what a service receives. -/
theorem bindArguments_named {store : Store} {d : Descriptor} {args : List Token}
    (distinct : (d.parameters.map Parameter.name).Nodup)
    (positional : ∀ t ∈ args, t.hint = none) (fit : args.length ≤ d.parameters.length) (k : Nat)
    {named : List (Token × Parameter)} (permuted : named.Perm ((args.zip d.parameters).drop k))
    (out : List Argument) :
    bindArguments store d (args.take k ++ named.map fun (t, p) ↦ t.hinted p.name) = .ok out ↔
      bindArguments store d args = .ok out := by
  have same (index : Nat) (t : Token) :
      Gives d (namedFrom k args named) index t ↔ Gives d args index t := by
    constructor
    · intro gives
      have isArg := gives_of_gives_namedFrom distinct positional permuted gives
      exact ⟨t, (receives_iff_of_positional positional).mpr isArg,
        Token.unhinted_eq_self (positional t (List.mem_of_getElem? isArg))⟩
    · rintro ⟨u, receives, rfl⟩
      have isArg := (receives_iff_of_positional positional).mp receives
      rw [Token.unhinted_eq_self (positional u (List.mem_of_getElem? isArg))]
      exact gives_namedFrom distinct positional fit permuted isArg
  constructor
  · exact fun taken ↦ bindArguments_of_gives taken (placed_of_positional positional fit) same
  · exact fun taken ↦ bindArguments_of_gives taken
      (placed_namedFrom distinct positional fit permuted) fun index t ↦ (same index t).symm

/-- Of three arguments the last two are given by name, the last one first. -/
theorem bindArguments_note :
    bindArguments (.empty {}) note
        [.text "a", (Token.number 12).hinted "pages", (Token.text "b").hinted "author"] =
      .ok [.text "a", .text "b", .float 12] := by
  have positional : ∀ t ∈ [Token.text "a", .text "b", .number 12], t.hint = none := by
    simp [Token.text, Token.number]
  exact (bindArguments_named (d := note) (by decide) positional (by decide) 1 (.swap _ _ [])
    _).mpr rfl

end MatrixCalculator
