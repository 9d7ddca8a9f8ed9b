import MatrixCalculator.Proofs.DeclaredArguments

/-!
# Services can use what calls bind

What a service expects is declared in one table and the services stand in another. The tables agree:
there is a service for every built-in function that is not one of the session, and it can use all
arguments of the declared types (`exists_handler`). An argument that a call binds is of the declared
type, since no parameter of a built-in function is null when it is left out
(`fits_of_bindArguments`). So a call that binds its arguments finds a service that can use them
(`exists_handler_of_bindArguments`).
-/

set_option autoImplicit false

namespace MatrixCalculator

/-! ### Kinds of failures -/

/-- Whether a service could not use an argument. -/
def ServiceError.isExpected : ServiceError → Bool
  | expected _ _ => true
  | _ => false

section Failures

variable {α β δ ε : Type} {R : ε → Prop} {result : Except ε α}

/-- Whether something holds of the error with which a computation fails, if it fails. -/
def FailsOnly (R : ε → Prop) (result : Except ε α) : Prop :=
  ∀ error, result = .error error → R error

theorem failsOnly_ok (a : α) : FailsOnly R (.ok a : Except ε α) :=
  fun _ failed ↦ by cases failed

theorem failsOnly_error {error : ε} (holds : R error) :
    FailsOnly R (.error error : Except ε α) := by
  rintro _ ⟨⟩
  exact holds

theorem failsOnly_of_exists (succeeds : ∃ a, result = .ok a) : FailsOnly R result := by
  obtain ⟨a, rfl⟩ := succeeds
  exact failsOnly_ok a

theorem FailsOnly.bind {f : α → Except ε β} (first : FailsOnly R result)
    (rest : ∀ a, FailsOnly R (f a)) : FailsOnly R (result >>= f) := by
  rcases result with error | a
  · rintro _ ⟨⟩
    exact first error rfl
  · exact rest a

theorem FailsOnly.map (first : FailsOnly R result) (f : α → β) : FailsOnly R (result.map f) := by
  rcases result with error | a
  · rintro _ ⟨⟩
    exact first error rfl
  · exact failsOnly_ok (f a)

theorem failsOnly_mapError {S : δ → Prop} {f : ε → δ} (holds : ∀ error, S (f error)) :
    FailsOnly S (result.mapError f) := by
  rcases result with error | a
  · rintro _ ⟨⟩
    exact holds error
  · exact failsOnly_ok a

theorem failsOnly_mapM {f : β → Except ε α} {items : List β} (each : ∀ item, FailsOnly R (f item)) :
    FailsOnly R (items.mapM f) := by
  induction items with
  | nil => exact failsOnly_ok []
  | cons item rest ih =>
    rw [List.mapM_cons]
    exact (each item).bind fun a ↦ ih.bind fun _ ↦ failsOnly_ok _

theorem failsOnly_foldlM {f : α → β → Except ε α} {items : List β}
    (each : ∀ a item, FailsOnly R (f a item)) (start : α) :
    FailsOnly R (items.foldlM f start) := by
  induction items generalizing start with
  | nil => exact failsOnly_ok start
  | cons item rest ih =>
    rw [List.foldlM_cons]
    exact (each start item).bind ih

end Failures

/-! ### Services use arguments of the declared types -/

namespace Services

/-- Whether arguments are of the given types, one by one. -/
def Fits (types : List ParameterType) (args : List Argument) : Prop :=
  List.Forall₂ (fun type a ↦ a.isOf type = true) types args

/-- Whether a service can use all arguments of the given types. -/
def Suits (types : List ParameterType) (handler : Handler) : Prop :=
  ∀ args limits, Fits types args → FailsOnly (·.isExpected = false) (handler args limits)

section Accessors

variable {types : List ParameterType} {args : List Argument} {index : Nat}

theorem Fits.exists_getElem? (fits : Fits types args) {type : ParameterType}
    (declared : types[index]? = some type) : ∃ a, args[index]? = some a ∧ a.isOf type = true := by
  induction fits generalizing index with
  | nil => cases declared
  | cons isOf _ ih =>
    cases index with
    | zero =>
      obtain rfl := Option.some.inj declared
      exact ⟨_, rfl, isOf⟩
    | succ index => exact ih declared

theorem exists_intAt (fits : Fits types args) (declared : types[index]? = some .int) :
    ∃ n, intAt args index = .ok n := by
  obtain ⟨a, isAt, isOf⟩ := fits.exists_getElem? declared
  cases a with
  | int n => exact ⟨n, by rw [intAt, isAt]⟩
  | float | matrix | text | null => cases isOf

theorem exists_floatAt (fits : Fits types args) (declared : types[index]? = some .float) :
    ∃ x, floatAt args index = .ok x := by
  obtain ⟨a, isAt, isOf⟩ := fits.exists_getElem? declared
  cases a with
  | float x => exact ⟨x, by rw [floatAt, isAt]⟩
  | int | matrix | text | null => cases isOf

theorem exists_valueAt (fits : Fits types args) (declared : types[index]? = some .matrix) :
    ∃ v, valueAt args index = .ok v := by
  obtain ⟨a, isAt, isOf⟩ := fits.exists_getElem? declared
  cases a with
  | matrix v => exact ⟨v, by rw [valueAt, isAt]⟩
  | int | float | text | null => cases isOf

theorem exists_matrixAt (fits : Fits types args) (declared : types[index]? = some .matrix) :
    ∃ m, matrixAt args index = .ok m := by
  obtain ⟨v, isValue⟩ := exists_valueAt fits declared
  exact ⟨v.toMatrix, by rw [matrixAt, isValue]; rfl⟩

end Accessors

/-! What else a service can fail with is told in words of its own. -/

theorem failsOnly_dimension (n : Int) (what : String) (limits : Limits) :
    FailsOnly (·.isExpected = false) (dimension n what limits) := by
  unfold dimension
  split_ifs
  · exact failsOnly_error rfl
  · exact failsOnly_error rfl
  · exact failsOnly_ok _

theorem failsOnly_indexAt {types : List ParameterType} {args : List Argument} {index : Nat}
    (fits : Fits types args) (declared : types[index]? = some .int) (what : String) :
    FailsOnly (·.isExpected = false) (indexAt args index what) := by
  refine (failsOnly_of_exists (exists_intAt fits declared)).bind fun n ↦ ?_
  split_ifs
  · exact failsOnly_error rfl
  · exact failsOnly_ok _

theorem failsOnly_answer (result : Except MatrixError (Matrix Float)) :
    FailsOnly (·.isExpected = false) (answer result) := by
  cases result with
  | ok m => exact failsOnly_ok _
  | error error => exact failsOnly_error rfl

theorem suits_identity : Suits [.int] identity := fun _ limits fits ↦
  (failsOnly_of_exists (exists_intAt fits rfl)).bind fun n ↦
    (failsOnly_dimension n _ limits).bind fun _ ↦ failsOnly_answer _

theorem suits_fill : Suits [.int, .int, .float] fill := fun _ limits fits ↦
  (failsOnly_of_exists (exists_intAt fits rfl)).bind fun r ↦
    (failsOnly_dimension r _ limits).bind fun _ ↦
      (failsOnly_of_exists (exists_intAt fits rfl)).bind fun c ↦
        (failsOnly_dimension c _ limits).bind fun _ ↦
          (failsOnly_of_exists (exists_floatAt fits rfl)).bind fun _ ↦ failsOnly_answer _

/-- A service that answers with a matrix made of its only argument can use any matrix. -/
theorem suits_answer (f : Matrix Float → Except MatrixError (Matrix Float)) :
    Suits [.matrix] (fun args _ ↦ do answer (f (← matrixAt args 0))) := fun _ _ fits ↦
  (failsOnly_of_exists (exists_matrixAt fits rfl)).bind fun m ↦ failsOnly_answer (f m)

/-- So can one that answers with a number. -/
theorem suits_answerNumber (f : Matrix Float → Except MatrixError Float) :
    Suits [.matrix] (fun args _ ↦ do answerNumber (f (← matrixAt args 0))) := by
  refine fun _ _ fits ↦ (failsOnly_of_exists (exists_matrixAt fits rfl)).bind fun m ↦ ?_
  cases f m with
  | ok x => exact failsOnly_ok _
  | error error => exact failsOnly_error rfl

theorem suits_shape : Suits [.matrix] shape := fun _ _ fits ↦
  (failsOnly_of_exists (exists_valueAt fits rfl)).bind fun _ ↦ failsOnly_answer _

theorem suits_subMatrix : Suits [.matrix, .int, .int, .int, .int] subMatrix := by
  refine fun _ _ fits ↦ (failsOnly_of_exists (exists_valueAt fits rfl)).bind fun value ↦ ?_
  refine (failsOnly_indexAt fits rfl "r1").bind fun top ↦ ?_
  refine (failsOnly_indexAt fits rfl "r2").bind fun bottom ↦ ?_
  refine (failsOnly_indexAt fits rfl "c1").bind fun left ↦ ?_
  refine (failsOnly_indexAt fits rfl "c2").bind fun right ↦ ?_
  cases value.subRange ⟨top, bottom⟩ ⟨left, right⟩ with
  | ok selected => exact failsOnly_ok _
  | error error => exact failsOnly_error rfl

theorem suits_factors : Suits [.matrix] factors := by
  refine fun _ _ fits ↦ (failsOnly_of_exists (exists_matrixAt fits rfl)).bind fun m ↦ ?_
  split
  · exact failsOnly_ok _
  · exact failsOnly_error rfl

theorem suits_round : Suits [.matrix, .int] round := by
  refine fun _ _ fits ↦ (failsOnly_of_exists (exists_intAt fits rfl)).bind fun places ↦ ?_
  split_ifs
  · exact failsOnly_error rfl
  · exact (failsOnly_of_exists (exists_matrixAt fits rfl)).bind fun m ↦ failsOnly_answer _

theorem suits_toTable : Suits [.matrix] toTable := by
  refine fun _ _ fits ↦ (failsOnly_of_exists (exists_valueAt fits rfl)).bind fun value ↦ ?_
  cases value <;> exact failsOnly_ok _

theorem suits_summary (f : List Float → Float) :
    Suits [.matrix] (fun args _ ↦ do return .value ((← valueAt args 0).summarizeColumns f)) :=
  fun _ _ fits ↦ (failsOnly_of_exists (exists_valueAt fits rfl)).bind fun _ ↦ failsOnly_ok _

/-- For every built-in function that is not one of the session there is a service, and it can use
all arguments of the declared types. -/
theorem exists_handler {d : Descriptor} (isKnown : d ∈ Registry.builtinFunctions)
    (isService : d.service ≠ "session") :
    ∃ handler, Registry.builtin.handler? d.service d.name = some handler ∧
      Suits (d.parameters.map Parameter.type) handler := by
  simp only [Registry.builtinFunctions, List.mem_cons, List.not_mem_nil, or_false] at isKnown
  rcases isKnown with rfl | rfl | rfl | rfl | rfl | rfl | rfl | rfl | rfl | rfl | rfl | rfl | rfl |
    rfl | rfl | rfl | rfl | rfl
  · exact ⟨identity, rfl, suits_identity⟩
  · exact ⟨fill, rfl, suits_fill⟩
  · exact ⟨transpose, rfl, suits_answer fun m ↦ .ok m.transpose⟩
  · exact ⟨determinant, rfl, suits_answerNumber Matrix.determinant⟩
  · exact ⟨inverse, rfl, suits_answer Matrix.inverse⟩
  · exact ⟨rank, rfl, suits_answerNumber fun m ↦ .ok (Float.ofNat m.rank)⟩
  · exact ⟨trace, rfl, suits_answerNumber Matrix.trace⟩
  · exact ⟨shape, rfl, suits_shape⟩
  · exact ⟨subMatrix, rfl, suits_subMatrix⟩
  · exact ⟨factors, rfl, suits_factors⟩
  · exact ⟨absolute, rfl, suits_answer fun m ↦ .ok (m.map Float.abs)⟩
  · exact ⟨round, rfl, suits_round⟩
  · exact ⟨toTable, rfl, suits_toTable⟩
  · exact ⟨toMatrix, rfl, suits_answer .ok⟩
  · exact ⟨mean, rfl, suits_summary columnMean⟩
  · exact ⟨sum, rfl, suits_summary columnSum⟩
  · exact absurd rfl isService
  · exact absurd rfl isService

end Services

/-! ### Calls bind arguments of the declared types -/

section Calls

open Services

variable {store : Store} {d : Descriptor} {args : List Token} {out : List Argument}

/-- Whether a service receives an argument of the declared type for a parameter that is left out, if
it may be left out. -/
def Parameter.isSupplied (p : Parameter) : Bool :=
  match p.default? with
  | some argument => argument.isOf p.type
  | none => p.required

theorem isOf_of_omitted {p : Parameter} {a : Argument} (supplied : p.isSupplied = true)
    (completed : Call.complete d (p, none) = .ok a) : a.isOf p.type = true := by
  unfold Parameter.isSupplied at supplied
  rcases omitted_of_complete completed with isDefault | ⟨noDefault, optional, -⟩
  · rwa [isDefault] at supplied
  · rw [noDefault, optional] at supplied
    cases supplied

/-- Arguments that a call binds are of the declared types. -/
theorem fits_of_bindArguments (supplied : ∀ p ∈ d.parameters, p.isSupplied = true)
    (taken : bindArguments store d args = .ok out) :
    Fits (d.parameters.map Parameter.type) out := by
  obtain ⟨length, each⟩ := getElem?_of_bindArguments taken
  rw [Fits, List.forall₂_map_left_iff, List.forall₂_iff_get]
  refine ⟨length.symm, fun index inRange inOut ↦ ?_⟩
  obtain ⟨a, isAt, given, omitted⟩ := each index _ (List.getElem?_eq_getElem inRange)
  obtain rfl : out[index] = a :=
    Option.some.inj ((List.getElem?_eq_getElem inOut).symm.trans isAt)
  by_cases receives : ∃ x, Call.Receives d args index x
  · obtain ⟨x, receives⟩ := receives
    exact isOf_of_coerce (given x receives)
  · exact isOf_of_omitted (supplied _ (List.getElem_mem inRange))
      (omitted (not_exists.mp receives))

theorem supplied_builtin : ∀ d ∈ Registry.builtinFunctions, ∀ p ∈ d.parameters,
    p.isSupplied = true := by
  decide

/-- A call of a built-in function that binds its arguments finds a service that can use them. -/
theorem exists_handler_of_bindArguments (isKnown : d ∈ Registry.builtinFunctions)
    (isService : d.service ≠ "session") (taken : bindArguments store d args = .ok out) :
    ∃ handler, Registry.builtin.handler? d.service d.name = some handler ∧
      ∀ limits, FailsOnly (·.isExpected = false) (handler out limits) := by
  obtain ⟨handler, found, suits⟩ := exists_handler isKnown isService
  exact ⟨handler, found, fun limits ↦
    suits out limits (fits_of_bindArguments (supplied_builtin d isKnown) taken)⟩

end Calls

end MatrixCalculator
