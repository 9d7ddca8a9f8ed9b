import MatrixCalculator.Proofs.DeclaredArguments
import MatrixCalculator.Proofs.NamedArguments

/-!
# Parameters by their own names

An argument by name goes to the first parameter of that name, and a metadata document may give one
name to several parameters of a function: they are read one by one, each with the name that its
entry gives (`Metadata.parameterName?_of_function`), and no name is compared with another. What a
name addresses (`Call.Addresses`) is therefore the parameter at the position that is found for it
(`Call.addresses_iff`), and that is a parameter's own position iff none before it has the same name
(`Descriptor.parameterIndex?_name_iff`). Any other parameter can be given by position only
(`Call.onlyByPosition_of_not_addresses`). Together, for the functions of a document, this is
`Call.addresses_exact`, and `Call.second_part_not_found` is a function of a document whose last
parameter cannot be given by name.

Scope. An argument by name is a token that carries the name. Which names an expression can put on a
token is not said here.
-/

set_option autoImplicit false

namespace MatrixCalculator

/-! ### Names in a document -/

namespace Metadata

/-- The name that the entry of a function gives to the parameter at a position. -/
def parameterName? (entry : Json) (index : Nat) : Option String :=
  ((entry.member? "params").bind Json.items?).bind fun items ↦
    items[index]?.bind fun item ↦ (item.member? "name").bind Json.string?

theorem field_eq_ok_iff {entry : Json} {key owner s : String} :
    field entry key owner = .ok s ↔ (entry.member? key).bind Json.string? = some s := by
  rw [field]
  rcases (entry.member? key).bind Json.string? with _ | found <;> simp

theorem name_of_parameter {function : String} {entry : Json} {p : Parameter}
    (read : parameter function entry = .ok p) :
    (entry.member? "name").bind Json.string? = some p.name := by
  obtain ⟨name, isName, read⟩ := exists_of_bind_eq_ok read
  obtain ⟨typeName, -, read⟩ := exists_of_bind_eq_ok read
  suffices same : p.name = name by rw [same, field_eq_ok_iff.mp isName]
  split at read
  · dsimp only at read
    split at read
    · cases read
      rfl
    · split at read
      · cases read
        rfl
      · cases read
  · cases read

/-- The parameters of a function have the names that its entry gives them, in the same order. -/
theorem parameterName?_of_function {entry : Json} {d : Descriptor}
    (read : function entry = .ok d) (index : Nat) :
    parameterName? entry index = d.parameters[index]?.map Parameter.name := by
  have ofParameters := (exists_of_function read).1
  rw [parameters.eq_def] at ofParameters
  rw [parameterName?]
  split at ofParameters
  · rename_i isMissing
    rw [isMissing, ← Except.ok.inj ofParameters]
    rfl
  · rename_i items isArray
    obtain ⟨length, each⟩ := getElem?_of_mapM ofParameters
    rw [isArray]
    change (items[index]?.bind fun item ↦ (item.member? "name").bind Json.string?) = _
    rcases isItem : items[index]? with _ | item
    · rw [List.getElem?_eq_none_iff, ← length, ← List.getElem?_eq_none_iff] at isItem
      rw [isItem]
      rfl
    · obtain ⟨p, isParameter, ofItem⟩ := each index item isItem
      rw [isParameter]
      exact name_of_parameter ofItem
  · cases ofParameters

end Metadata

/-! ### The first parameter of a name -/

namespace Descriptor

variable {d : Descriptor} {p : Parameter} {index : Nat}

/-- A name finds the first parameter that has it. -/
theorem parameterIndex?_eq_some_iff {name : String} :
    d.parameterIndex? name = some index ↔
      d.parameters[index]?.map Parameter.name = some name ∧
        ∀ earlier < index, d.parameters[earlier]?.map Parameter.name ≠ some name := by
  rw [parameterIndex?, List.findIdx?_eq_some_iff_getElem]
  constructor
  · rintro ⟨inRange, isNamed, others⟩
    refine ⟨by simpa [inRange] using isNamed, fun earlier before ↦ ?_⟩
    simpa [before.trans inRange] using others earlier before
  · rintro ⟨isNamed, others⟩
    obtain ⟨p, isParameter, rfl⟩ := Option.map_eq_some_iff.mp isNamed
    obtain ⟨inRange, rfl⟩ := List.getElem?_eq_some_iff.mp isParameter
    refine ⟨inRange, beq_self_eq_true _, fun earlier before ↦ ?_⟩
    simpa [before.trans inRange] using others earlier before

/-- A parameter is found by its own name iff none before it has the same name. -/
theorem parameterIndex?_name_iff (isParameter : d.parameters[index]? = some p) :
    d.parameterIndex? p.name = some index ↔
      ∀ earlier < index, d.parameters[earlier]?.map Parameter.name ≠ some p.name := by
  rw [parameterIndex?_eq_some_iff, isParameter]
  exact and_iff_right rfl

/-- The name of a parameter finds that parameter or one before it. -/
theorem exists_parameterIndex?_le (isParameter : d.parameters[index]? = some p) :
    ∃ first ≤ index, d.parameterIndex? p.name = some first := by
  obtain ⟨first, isFound⟩ :=
    Call.exists_parameterIndex? ⟨p, List.mem_of_getElem? isParameter, rfl⟩
  refine ⟨first, ?_, isFound⟩
  by_contra beyond
  refine (parameterIndex?_eq_some_iff.mp isFound).2 index (Nat.lt_of_not_le beyond) ?_
  rw [isParameter]
  rfl

/-- Every parameter is found by its own name iff no two have the same. -/
theorem forall_parameterIndex?_iff :
    (∀ index p, d.parameters[index]? = some p → d.parameterIndex? p.name = some index) ↔
      (d.parameters.map Parameter.name).Nodup := by
  refine ⟨fun found ↦ ?_, fun distinct index p isParameter ↦
    Call.parameterIndex?_eq_some distinct isParameter⟩
  rw [List.nodup_iff_getElem?_ne_getElem?]
  intro first second before inRange same
  rw [List.length_map] at inRange
  have isSecond := List.getElem?_eq_getElem inRange
  rw [List.getElem?_map, List.getElem?_map, isSecond] at same
  exact (parameterIndex?_name_iff isSecond).mp (found second _ isSecond) first before same

end Descriptor

/-- The parameters of each built-in function are found by their own names. -/
example : ∀ d ∈ Registry.builtin.functions, ∀ index p, d.parameters[index]? = some p →
    d.parameterIndex? p.name = some index := by
  have distinct : ∀ d ∈ Registry.builtin.functions, (d.parameters.map Parameter.name).Nodup := by
    decide
  exact fun d known ↦ Descriptor.forall_parameterIndex?_iff.mpr (distinct d known)

/-! ### Arguments by name -/

namespace Call

variable {d : Descriptor} {name : String} {p : Parameter} {index : Nat}

/-- Whether arguments by a name are for the parameter at a position. -/
structure Addresses (d : Descriptor) (name : String) (index : Nat) : Prop where
  /-- The name is found there. -/
  found : d.parameterIndex? name = some index
  /-- An argument by the name is bound there, if it can be converted to the type of the
  parameter. -/
  binds : ∀ p, d.parameters[index]? = some p → ∀ store slots t position, t.hint = some name →
    slots.filled[index]? = some none → bindOne store d slots (t, position) =
      (coerce store t p.type).map fun value ↦ ⟨slots.filled.set index (some value), true⟩
  /-- No second argument is bound there. -/
  refuses : ∀ store slots t position, t.hint = some name → ∀ earlier,
    slots.filled[index]? = some (some earlier) →
      bindOne store d slots (t, position) = .error (.duplicateParameter d.name name)
  /-- What the service receives there is the argument by the name. -/
  received : ∀ p, d.parameters[index]? = some p → ∀ store args out,
    bindArguments store d args = .ok out → ∀ t ∈ args, t.hint = some name →
      ∃ value, coerce store t p.type = .ok value ∧ out[index]? = some value

/-- Whether the parameter at a position is never given by name. -/
structure OnlyByPosition (d : Descriptor) (index : Nat) : Prop where
  /-- An argument that it receives stands at its own position. -/
  unnamed : ∀ args t, Receives d args index t → args[index]? = some t ∧ t.hint = none
  /-- If it cannot be left out, no call without an argument at its position is bound. -/
  given : ∀ p, d.parameters[index]? = some p → p.required = true → p.default? = none →
    ∀ store args out, bindArguments store d args = .ok out →
      ∃ t, args[index]? = some t ∧ t.hint = none

section Hints

variable {t : Token} (isHint : t.hint = some name) (found : d.parameterIndex? name = some index)
include isHint found

/-- An argument by a name is meant for the parameter that is found by it, wherever the argument
stands. -/
theorem target?_of_hint (position : Nat) : target? d (t, position) = some index := by
  rw [target?, isHint]
  exact found

theorem targetIndex_of_hint (named : Bool) (position : Nat) :
    targetIndex d named t position = .ok index :=
  targetIndex_eq_ok_iff.mpr
    ⟨fun _ ↦ Option.isSome_of_eq_some isHint, target?_of_hint isHint found position⟩

theorem receives_of_hint {args : List Token} (isMem : t ∈ args) : Receives d args index t := by
  obtain ⟨position, isAt⟩ := List.mem_iff_getElem?.mp isMem
  exact ⟨position, List.mem_zipIdx_iff_getElem?.mpr isAt, target?_of_hint isHint found position⟩

end Hints

/-- A name addresses the parameter that is found by it. -/
theorem addresses_iff : Addresses d name index ↔ d.parameterIndex? name = some index := by
  refine ⟨Addresses.found, fun found ↦ ?_⟩
  constructor
  case found => exact found
  case binds =>
    intro p isParameter store slots t position isHint isFree
    rw [bindOne, targetIndex_of_hint isHint found, ok_bind, isParameter, isFree]
    dsimp only
    rw [isHint, Option.isSome_some, Bool.or_true]
    rcases coerce store t p.type with error | value <;> rfl
  case refuses =>
    intro store slots t position isHint earlier isTaken
    obtain ⟨p, isParameter, isNamed⟩ := exists_of_parameterIndex? found
    rw [bindOne, targetIndex_of_hint isHint found, ok_bind, isParameter, isTaken, ← isNamed]
  case received =>
    intro p isParameter store args out taken t isMem isHint
    obtain ⟨value, isValue, given, -⟩ := (getElem?_of_bindArguments taken).2 index p isParameter
    exact ⟨value, given t (receives_of_hint isHint found isMem), isValue⟩

/-- A parameter that its own name does not address is never given by name, because no other name
addresses it either. -/
theorem onlyByPosition_of_not_addresses (isParameter : d.parameters[index]? = some p)
    (elsewhere : ¬ Addresses d p.name index) : OnlyByPosition d index := by
  have unnamed (args : List Token) (t : Token) (receives : Receives d args index t) :
      args[index]? = some t ∧ t.hint = none := by
    obtain ⟨position, isMem, target⟩ := receives
    have isAt := List.mem_zipIdx_iff_getElem?.mp isMem
    rw [target?] at target
    rcases hint : t.hint with _ | name <;> rw [hint] at target
    · obtain rfl := Option.some.inj target
      exact ⟨isAt, rfl⟩
    · obtain ⟨q, ofFound, rfl⟩ := exists_of_parameterIndex? target
      obtain rfl := Option.some.inj (ofFound.symm.trans isParameter)
      exact absurd (addresses_iff.mpr target) elsewhere
  refine ⟨unnamed, fun q isSame required noDefault store args out taken ↦ ?_⟩
  have proper : Proper store d args := exists_bindArguments_iff.mp ⟨out, taken⟩
  obtain ⟨t, receives⟩ := proper.given index q isSame required noDefault
  exact ⟨t, unnamed args t receives⟩

/-- In a function of a document that is accepted, a parameter is addressed by its own name iff the
document gives that name to none before it, so that all are iff their names are distinct. Otherwise
the name addresses one before it, and the parameter can be given by position only. -/
theorem addresses_exact {text : String} {registry : Registry}
    (read : Registry.ofText text = .ok registry) {d : Descriptor}
    (known : d ∈ registry.functions) :
    ∃ entry, Registry.HasEntry text entry ∧ Metadata.function entry = .ok d ∧
      ((∀ index p, d.parameters[index]? = some p → Addresses d p.name index) ↔
        (d.parameters.map Parameter.name).Nodup) ∧
      ∀ index p, d.parameters[index]? = some p →
        (Addresses d p.name index ↔
          ∀ earlier < index, Metadata.parameterName? entry earlier ≠ some p.name) ∧
        (¬ Addresses d p.name index →
          (∃ first < index, Addresses d p.name first) ∧ OnlyByPosition d index) := by
  obtain ⟨entry, isEntry, ofEntry⟩ := Registry.exists_hasEntry_of_mem_functions read known
  refine ⟨entry, isEntry, ofEntry, ?_, fun index p isParameter ↦ ⟨?_, fun elsewhere ↦ ⟨?_, ?_⟩⟩⟩
  · simp only [addresses_iff]
    exact Descriptor.forall_parameterIndex?_iff
  · simp only [addresses_iff, Metadata.parameterName?_of_function ofEntry]
    exact Descriptor.parameterIndex?_name_iff isParameter
  · obtain ⟨first, le, found⟩ := Descriptor.exists_parameterIndex?_le isParameter
    have before : first ≠ index := by
      rintro rfl
      exact elsewhere (addresses_iff.mpr found)
    exact ⟨first, lt_of_le_of_ne le before, addresses_iff.mpr found⟩
  · exact onlyByPosition_of_not_addresses isParameter elsewhere

/-- A function with one name for both of its parameters. -/
def join : Descriptor :=
  ⟨"Join", [], [Registry.needed "part" .dynamic, ⟨"part", .dynamic, false, none⟩], .null, "texts",
    ""⟩

/-- A document with the function `join`. -/
def joinText : String :=
  "\x7b\"functions\":[\x7b\"name\":\"Join\",\"service\":\"texts\"," ++
    "\"returns\":\"null\",\"params\":[" ++
    "\x7b\"name\":\"part\",\"type\":\"dynamic\"\x7d," ++
    "\x7b\"name\":\"part\",\"type\":\"dynamic\",\"required\":false\x7d]\x7d]\x7d"

set_option maxRecDepth 2000 in
theorem ofText_joinText : Registry.ofText joinText = .ok ⟨[join], by simp, []⟩ := by
  cbv

/-- The name addresses the first of the parameters, and the second can be given by position only. -/
theorem addresses_exact_join :
    Registry.ofText joinText = .ok ⟨[join], by simp, []⟩ ∧
      Addresses join "part" 0 ∧ ¬ Addresses join "part" 1 ∧ OnlyByPosition join 1 := by
  obtain ⟨entry, -, -, -, each⟩ := addresses_exact ofText_joinText (List.mem_singleton_self join)
  have first : Addresses join "part" 0 := (each 0 _ rfl).1.mpr fun _ none ↦ absurd none (by omega)
  have second : ¬ Addresses join "part" 1 := fun addressed ↦ by cases addressed.found
  exact ⟨ofText_joinText, first, second, ((each 1 _ rfl).2 second).2⟩

/-- The name of the second parameter finds the first, so that an argument by that name is refused
behind an argument by position. -/
theorem second_part_not_found :
    Registry.ofText joinText = .ok ⟨[join], by simp, []⟩ ∧
      join.parameters[1]?.map Parameter.name = some "part" ∧
      join.parameterIndex? "part" = some 0 ∧
      bindArguments (.empty {}) join [.text "a", (Token.text "b").hinted "part"] =
        .error (.duplicateParameter "Join" "part") :=
  ⟨ofText_joinText, rfl, rfl, rfl⟩

end Call

end MatrixCalculator
