import MatrixCalculator.Proofs.ArgumentBinding
import MatrixCalculator.Registry.Metadata

/-!
# Arguments of declared types

What a service receives for a parameter is of the declared type, provided that the function comes
from a metadata document: the conversion of an argument makes nothing else (`isOf_of_coerce`), and a
document whose defaults do not fit is refused (`defaultFits_of_mem_functions`). With the conditions
for a call to be bound at all, this is `bindArguments_exact`.
-/

set_option autoImplicit false

namespace MatrixCalculator

/-! ### Types of arguments -/

/-- Whether an argument is of a declared type. No whole number is of the type dynamic, because a
number stays a float there. -/
def Argument.isOf : Argument → ParameterType → Bool
  | .int _, .int => true
  | .float _, .float => true
  | .matrix _, .matrix => true
  | .float _, .dynamic => true
  | .text _, .dynamic => true
  | .matrix _, .dynamic => true
  | .null, .dynamic => true
  | _, _ => false

theorem isOf_of_coerce {store : Store} {t : Token} {type : ParameterType} {value : Argument}
    (coerced : coerce store t type = .ok value) : value.isOf type = true := by
  rw [coerce.eq_def] at coerced
  cases type with
  | int =>
    dsimp only at coerced
    split at coerced
    · cases coerced
      rfl
    · cases coerced
  | float =>
    dsimp only at coerced
    split at coerced
    · cases coerced
      rfl
    · cases coerced
  | matrix =>
    dsimp only at coerced
    split_ifs at coerced
    obtain ⟨found, -, rfl⟩ := exists_of_map_eq_ok coerced
    rfl
  | dynamic =>
    dsimp only at coerced
    split at coerced
    · cases coerced
      rfl
    · cases coerced
      rfl
    · cases coerced
      rfl
    · cases coerced
    · obtain ⟨found, -, rfl⟩ := exists_of_map_eq_ok coerced
      rfl
    · cases coerced

/-- Whether the default of a parameter, if it has one, is null or of the declared type. -/
def Parameter.DefaultFits (p : Parameter) : Prop :=
  ∀ argument ∈ p.default?, argument = .null ∨ argument.isOf p.type = true

/-! ### Functions of a document -/

namespace Metadata

theorem fits_of_default? {document : Json} {type : ParameterType} {argument : Argument}
    (read : default? document type = some argument) :
    argument = .null ∨ argument.isOf type = true := by
  rw [default?.eq_def] at read
  split at read
  · cases read
    exact Or.inl rfl
  · obtain ⟨n, -, rfl⟩ := Option.map_eq_some_iff.mp read
    exact Or.inr rfl
  · obtain ⟨x, -, rfl⟩ := Option.map_eq_some_iff.mp read
    exact Or.inr rfl
  · cases read
    exact Or.inr rfl
  · obtain ⟨x, -, rfl⟩ := Option.map_eq_some_iff.mp read
    exact Or.inr rfl
  · cases read

theorem defaultFits_of_parameter {function : String} {entry : Json} {p : Parameter}
    (read : parameter function entry = .ok p) : p.DefaultFits := by
  obtain ⟨name, -, read⟩ := exists_of_bind_eq_ok read
  obtain ⟨typeName, -, read⟩ := exists_of_bind_eq_ok read
  split at read
  rotate_left
  · cases read
  rename_i type isType
  dsimp only at read
  split at read
  · cases read
    intro argument isDefault
    cases isDefault
  · rename_i document isGiven
    split at read
    · rename_i argument ofDocument
      cases read
      intro other isDefault
      obtain rfl := Option.some.inj isDefault
      exact fits_of_default? ofDocument
    · cases read

theorem defaultFits_of_parameters {function : String} {entry : Json} {ps : List Parameter}
    (read : parameters function entry = .ok ps) {p : Parameter} (isMem : p ∈ ps) :
    p.DefaultFits := by
  rw [parameters.eq_def] at read
  split at read
  · cases read
    cases isMem
  · obtain ⟨entry, -, ofEntry⟩ := exists_of_mem_mapM read isMem
    exact defaultFits_of_parameter ofEntry
  · cases read

theorem exists_of_function {entry : Json} {d : Descriptor} (read : function entry = .ok d) :
    parameters d.name entry = .ok d.parameters ∧ lateRequired? d.parameters = none := by
  obtain ⟨name, -, read⟩ := exists_of_bind_eq_ok read
  obtain ⟨service, -, read⟩ := exists_of_bind_eq_ok read
  obtain ⟨returnName, -, read⟩ := exists_of_bind_eq_ok read
  split at read
  rotate_left
  · cases read
  rename_i returns isReturn
  dsimp only at read
  obtain ⟨aliases, -, read⟩ := exists_of_bind_eq_ok read
  obtain ⟨parameters, ofParameters, read⟩ := exists_of_bind_eq_ok read
  split at read
  · cases read
  · rename_i noneLate
    cases read
    exact ⟨ofParameters, Option.eq_none_iff_forall_ne_some.mpr noneLate⟩

end Metadata

namespace Registry

theorem functions_of_add {r next : Registry} {d : Descriptor} (added : r.add d = .ok next) :
    next.functions = r.functions ++ [d] := by
  rw [add] at added
  split at added
  · cases added
  · cases added
    rfl

theorem functions_of_addEntry {r next : Registry} {entry : Json}
    (added : r.addEntry entry = .ok next) :
    ∃ d, Metadata.function entry = .ok d ∧ next.functions = r.functions ++ [d] := by
  obtain ⟨d, read, added⟩ := exists_of_bind_eq_ok added
  exact ⟨d, read, functions_of_add (eq_ok_of_mapError added)⟩

theorem exists_of_foldlM {r next : Registry} {entries : List Json}
    (ran : entries.foldlM addEntry r = .ok next) {d : Descriptor} (isMem : d ∈ next.functions) :
    d ∈ r.functions ∨ ∃ entry ∈ entries, Metadata.function entry = .ok d := by
  induction entries generalizing r with
  | nil =>
    obtain rfl := Except.ok.inj ran
    exact Or.inl isMem
  | cons entry rest ih =>
    rw [List.foldlM_cons] at ran
    obtain ⟨middle, first, others⟩ := exists_of_bind_eq_ok ran
    obtain ⟨e, read, functions⟩ := functions_of_addEntry first
    rcases ih others with before | ⟨other, isLater, ofOther⟩
    · rw [functions] at before
      rcases List.mem_append.mp before with old | isNew
      · exact Or.inl old
      · obtain rfl := List.mem_singleton.mp isNew
        exact Or.inr ⟨entry, List.mem_cons_self, read⟩
    · exact Or.inr ⟨other, List.mem_cons_of_mem _ isLater, ofOther⟩

/-- Whether a text is a metadata document with an entry among its functions. -/
def HasEntry (text : String) (entry : Json) : Prop :=
  ∃ document entries, Json.read? text = some document ∧
    (document.member? "functions").bind Json.items? = some entries ∧ entry ∈ entries

/-- Every function of a document that is accepted is described by one of its entries. -/
theorem exists_hasEntry_of_mem_functions {text : String} {registry : Registry}
    (read : ofText text = .ok registry) {d : Descriptor} (isMem : d ∈ registry.functions) :
    ∃ entry, HasEntry text entry ∧ Metadata.function entry = .ok d := by
  rw [ofText] at read
  split at read
  · rename_i document isDocument
    rw [ofDocument] at read
    split at read
    · rename_i entries areEntries
      rcases exists_of_foldlM read isMem with isOld | ⟨entry, isEntry, ofEntry⟩
      · cases isOld
      · exact ⟨entry, ⟨document, entries, isDocument, areEntries, isEntry⟩, ofEntry⟩
    · cases read
  · cases read

theorem exists_of_mem_functions {text : String} {registry : Registry}
    (read : ofText text = .ok registry) {d : Descriptor} (isMem : d ∈ registry.functions) :
    ∃ entry, Metadata.function entry = .ok d := by
  obtain ⟨entry, -, ofEntry⟩ := exists_hasEntry_of_mem_functions read isMem
  exact ⟨entry, ofEntry⟩

theorem defaultFits_of_mem_functions {text : String} {registry : Registry}
    (read : ofText text = .ok registry) {d : Descriptor} (isMem : d ∈ registry.functions)
    {p : Parameter} (isParameter : p ∈ d.parameters) : p.DefaultFits := by
  obtain ⟨entry, ofEntry⟩ := exists_of_mem_functions read isMem
  exact Metadata.defaultFits_of_parameters (Metadata.exists_of_function ofEntry).1 isParameter

end Registry

open Call

/-! ### The call as a whole -/

/-- What stands for an omitted argument is the default or, without one, null. -/
theorem omitted_of_complete {d : Descriptor} {p : Parameter} {value : Argument}
    (completed : complete d (p, none) = .ok value) :
    p.default? = some value ∨ p.default? = none ∧ p.required = false ∧ value = .null := by
  rw [complete] at completed
  split at completed
  · rename_i argument isDefault
    rw [isDefault, Except.ok.inj completed]
    exact Or.inl rfl
  · rename_i noDefault
    split_ifs at completed with required
    exact Or.inr ⟨noDefault, Bool.not_eq_true _ ▸ required, (Except.ok.inj completed).symm⟩

/-- A call of a function from a document is bound if its arguments suit the parameters. A service
then receives one argument for each parameter in order: the one given, converted to the declared
type, or else the default, or null if there is none. -/
theorem bindArguments_exact {text : String} {registry : Registry}
    (read : Registry.ofText text = .ok registry) {d : Descriptor} (known : d ∈ registry.functions)
    (store : Store) (args : List Token) :
    ((∃ out, bindArguments store d args = .ok out) ↔ Proper store d args) ∧
      ∀ out, bindArguments store d args = .ok out → out.length = d.parameters.length ∧
        ∀ index p, d.parameters[index]? = some p → ∃ value, out[index]? = some value ∧
          (∀ t, Receives d args index t →
            coerce store t p.type = .ok value ∧ value.isOf p.type = true) ∧
          ((∀ t, ¬ Receives d args index t) →
            p.default? = some value ∧ (value.isOf p.type = true ∨ value = .null) ∨
              p.default? = none ∧ p.required = false ∧ value = .null) := by
  refine ⟨exists_bindArguments_iff, fun out taken ↦ ?_⟩
  obtain ⟨length, each⟩ := getElem?_of_bindArguments taken
  refine ⟨length, fun index p isParameter ↦ ?_⟩
  obtain ⟨value, isValue, given, omitted⟩ := each index p isParameter
  refine ⟨value, isValue, fun t receives ↦ ?_, fun none ↦ ?_⟩
  · exact ⟨given t receives, isOf_of_coerce (given t receives)⟩
  · refine (omitted_of_complete (omitted none)).imp_left fun isDefault ↦ ⟨isDefault, ?_⟩
    exact (Registry.defaultFits_of_mem_functions read known (List.mem_of_getElem? isParameter)
      value isDefault).symm

/-- A document with the function `Call.note`. -/
def noteText : String :=
  "\x7b\"functions\":[\x7b\"name\":\"Note\",\"service\":\"notes\"," ++
    "\"returns\":\"null\",\"params\":[" ++
    "\x7b\"name\":\"text\",\"type\":\"dynamic\"\x7d," ++
    "\x7b\"name\":\"author\",\"type\":\"dynamic\",\"default\":\"anonymous\"\x7d," ++
    "\x7b\"name\":\"pages\",\"type\":\"float\",\"required\":false\x7d]\x7d]\x7d"

set_option maxRecDepth 2000 in
/-- A text alone suits the function of the document. The author is the default, and the number of
pages is null. -/
theorem bindArguments_noteText :
    Registry.ofText noteText = .ok ⟨[note], by simp, []⟩ ∧
      Proper (.empty {}) note [{ Token.text "a" with hint := some "text" }] ∧
      bindArguments (.empty {}) note [{ Token.text "a" with hint := some "text" }] =
        .ok [.text "a", .text "anonymous", .null] := by
  have read : Registry.ofText noteText = .ok ⟨[note], by simp, []⟩ := by cbv
  obtain ⟨suits, -⟩ := bindArguments_exact read (List.mem_singleton_self note) (.empty {})
    [{ Token.text "a" with hint := some "text" }]
  exact ⟨read, suits.mp ⟨_, rfl⟩, rfl⟩

end MatrixCalculator
