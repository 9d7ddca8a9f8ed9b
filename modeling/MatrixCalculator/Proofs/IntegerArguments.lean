import MatrixCalculator.Proofs.ArgumentBinding
import MatrixCalculator.Proofs.ArithmeticOperands
import MatrixCalculator.Proofs.MatrixPowers

/-!
# Whole numbers for services

An argument for a parameter of the type int stands for a number: it is one, or it refers to a value
with a single cell (`Token.StandsFor`). It is converted iff that number is whole
(`coerce_int_eq_ok_iff`), and any other argument is refused (`coerce_int_eq_error`), which ends the
call if the arguments before it are bound (`bindArguments_eq_error`).

What the service receives is the number itself if sixty-four bits with a sign can hold it
(`clampToWord_eq_self_iff`). A whole number beyond them is not refused: it is exchanged for the
nearest one that they can hold (`natAbs_clampToWord_sub_le`). `callFunction_int` says this of calls,
and `bound_for_a_huge_number` is a call in which the service receives another number than the one
given.
-/

set_option autoImplicit false

namespace MatrixCalculator

open Call

variable {store : Store} {t : Token}

/-! ### The numbers that arguments stand for -/

/-- Whether a token stands for a number: it is that number, or it refers to a value whose only cell
is that number. -/
def Token.StandsFor (store : Store) (t : Token) (x : Float) : Prop :=
  t.kind = .number ∧ t.payload = .number x ∨
    t.kind = .matrixRef ∧ ∃ v, t.resolve store = .ok v ∧ v.toMatrix = Matrix.scalar x

theorem Value.scalar?_eq_some_iff {v : Value} {x : Float} :
    v.scalar? = some x ↔ v.toMatrix = Matrix.scalar x := by
  rw [Value.scalar?]
  constructor
  · exact Matrix.eq_scalar_of_scalar?
  · intro single
    rw [single, Matrix.scalar?_scalar]

theorem Token.numeric?_eq_some_iff {x : Float} :
    t.numeric? store = some x ↔ t.StandsFor store x := by
  rw [Token.numeric?, Token.StandsFor]
  split
  · rename_i y isKind isPayload
    rw [isKind, isPayload, Option.some_inj]
    simp
  · rename_i isKind
    rw [isKind]
    rcases t.resolve store with error | v
    · simp
    · simpa using Value.scalar?_eq_some_iff
  · rename_i notRef notNumber
    refine iff_of_false (fun same ↦ by cases same) ?_
    rintro (⟨isKind, isPayload⟩ | ⟨isKind, -⟩)
    · exact notNumber x isKind isPayload
    · exact notRef isKind

/-- Whether a token stands for a whole number. -/
def Token.StandsForInt (store : Store) (t : Token) (n : Int) : Prop :=
  ∃ x, t.StandsFor store x ∧ exactValue? x = some (n : Rat)

theorem Token.bind_numeric?_eq_some_iff {n : Int} :
    ((t.numeric? store).bind fun x ↦ (Binary.ofFloat? x).bind Binary.toInt?) = some n ↔
      t.StandsForInt store n := by
  rw [Option.bind_eq_some_iff]
  simp only [Token.numeric?_eq_some_iff, bind_toInt?_eq_some_iff]
  exact Iff.rfl

/-! ### Sixty-four bits -/

/-- Whether sixty-four bits with a sign can hold a whole number. -/
def FitsWord (n : Int) : Prop :=
  -2 ^ 63 ≤ n ∧ n < 2 ^ 63

instance (n : Int) : Decidable (FitsWord n) :=
  inferInstanceAs (Decidable (-2 ^ 63 ≤ n ∧ n < 2 ^ 63))

theorem clampToWord_eq_self_iff (n : Int) : clampToWord n = n ↔ FitsWord n := by
  rw [clampToWord, FitsWord]
  omega

theorem fitsWord_clampToWord (n : Int) : FitsWord (clampToWord n) := by
  rw [clampToWord, FitsWord]
  omega

theorem natAbs_clampToWord_sub_le (n : Int) {m : Int} (fits : FitsWord m) :
    (clampToWord n - n).natAbs ≤ (m - n).natAbs := by
  rw [FitsWord] at fits
  rw [clampToWord]
  omega

/-! ### One argument -/

/-- An argument is converted to a whole number iff it stands for one. -/
theorem coerce_int_eq_ok_iff {argument : Argument} :
    coerce store t .int = .ok argument ↔
      ∃ n, t.StandsForInt store n ∧ argument = .int (clampToWord n) := by
  simp only [← Token.bind_numeric?_eq_some_iff]
  rw [coerce]
  rcases (t.numeric? store).bind fun x ↦ (Binary.ofFloat? x).bind Binary.toInt? with _ | n
  · exact iff_of_false (fun same ↦ by cases same) (by simp)
  · simp [eq_comm]

/-- An argument that stands for no whole number is refused with a message that names it. -/
theorem coerce_int_eq_error (notWhole : ∀ n, ¬ t.StandsForInt store n) :
    coerce store t .int = .error (.argumentType t.describe .int) := by
  simp only [← Token.bind_numeric?_eq_some_iff] at notWhole
  rw [coerce, Option.eq_none_iff_forall_ne_some.mpr notWhole]

/-! ### Calls -/

/-- Whether all arguments can be converted to the types of their parameters. -/
def Call.Convertible (store : Store) (d : Descriptor) (args : List Token) : Prop :=
  ∀ index p t, d.parameters[index]? = some p → Receives d args index t →
    ∃ value, coerce store t p.type = .ok value

section Calls

variable {d : Descriptor} {before after : List Token} {index : Nat} {p : Parameter}

/-- Arguments with parameters of their own are bound if they can be converted. -/
theorem exists_foldlM_of_convertible (placed : Placed d (before ++ after))
    (convertible : Convertible store d before) :
    ∃ slots, before.zipIdx.foldlM (bindOne store d) (.start d) = .ok slots := by
  have distinct := placed.distinct
  rw [List.zipIdx_append, List.filterMap_append, List.nodup_append] at distinct
  refine exists_foldlM ?_ distinct.1 fun a isMem ↦ ?_
  · rw [List.zipIdx_map_fst]
    exact placed.namedLast.sublist (List.sublist_append_left before after)
  · obtain ⟨u, position⟩ := a
    have isAt := List.mem_zipIdx_iff_getElem?.mp isMem
    have inRange : position < before.length := (List.getElem?_eq_some_iff.mp isAt).1
    rw [← List.getElem?_append_left inRange] at isAt
    obtain ⟨index, p, target, isParameter⟩ := placed.exists_parameter isAt
    obtain ⟨value, coerced⟩ := convertible index p u isParameter ⟨position, isMem, target⟩
    exact ⟨index, p, value, target, isParameter, coerced⟩

/-- The first argument that cannot be converted ends the binding of arguments that have parameters
of their own. -/
theorem bindArguments_eq_error {error : EvalError} (placed : Placed d (before ++ t :: after))
    (convertible : Convertible store d before)
    (target : target? d (t, before.length) = some index)
    (isParameter : d.parameters[index]? = some p) (refused : coerce store t p.type = .error error) :
    bindArguments store d (before ++ t :: after) = .error error := by
  have inOrder : (before ++ t :: after).zipIdx =
      before.zipIdx ++ (t, before.length) :: after.zipIdx (before.length + 1) := by
    rw [List.zipIdx_append, List.zipIdx_cons, Nat.zero_add]
  obtain ⟨slots, ran⟩ := exists_foldlM_of_convertible placed convertible
  have bound := bound_of_foldlM ran
  have isFree : slots.filled[index]? = some none :=
    bound.isFree (inOrder ▸ placed.distinct) target isParameter
  have namedLast : NamedLast (before.zipIdx.map Prod.fst ++ [t]) := by
    rw [List.zipIdx_map_fst]
    exact placed.namedLast.sublist
      ((List.singleton_sublist.mpr List.mem_cons_self).append_left before)
  have stopped : bindOne store d slots (t, before.length) = .error error := by
    rw [bindOne, targetIndex_eq_ok_iff.mpr ⟨bound.mayFollow namedLast, target⟩, ok_bind,
      isParameter, isFree]
    dsimp only
    rw [refused]
    rfl
  rw [bindArguments, inOrder, List.foldlM_append, ran, ok_bind, List.foldlM_cons, stopped]
  rfl

/-- A function with a handler hands it what is bound to its parameters. -/
theorem callFunction_eq {registry : Registry} {f : Token} {handler : Handler}
    (isFunction : f.function = some d)
    (ofService : d.name ≠ Registry.cleanUpName ∧ d.name ≠ Registry.helpName)
    (isHandler : registry.handler? d.service d.name = some handler) (args : List Token) :
    callFunction registry store f args = bindArguments store d args >>= fun out ↦
      (handler out store.limits).mapError (.service d.name) >>= wrapOutput d := by
  rw [callFunction, isFunction]
  dsimp only
  rw [if_neg (not_or.mpr ofService), isHandler]
  refine congrArg (bindArguments store d args >>= ·) (funext fun out ↦ ?_)
  dsimp only
  rcases handler out store.limits with error | output <;> rfl

/-- An argument for a parameter of the type int is converted iff it stands for a whole number. The
service receives that number, or the nearest one that sixty-four bits can hold. An argument that
stands for no whole number is refused. -/
theorem callFunction_int {registry : Registry} {f : Token} {handler : Handler}
    (isFunction : f.function = some d)
    (ofService : d.name ≠ Registry.cleanUpName ∧ d.name ≠ Registry.helpName)
    (isHandler : registry.handler? d.service d.name = some handler)
    (target : target? d (t, before.length) = some index)
    (isParameter : d.parameters[index]? = some p) (isInt : p.type = .int) :
    ((∃ argument, coerce store t p.type = .ok argument) ↔ ∃ n, t.StandsForInt store n) ∧
      (∀ out, bindArguments store d (before ++ t :: after) = .ok out →
        callFunction registry store f (before ++ t :: after) =
            ((handler out store.limits).mapError (.service d.name) >>= wrapOutput d) ∧
          ∃ n k, t.StandsForInt store n ∧ out[index]? = some (.int k) ∧ (k = n ↔ FitsWord n) ∧
            FitsWord k ∧ ∀ m, FitsWord m → (k - n).natAbs ≤ (m - n).natAbs) ∧
      (Placed d (before ++ t :: after) → Convertible store d before →
        (∀ n, ¬ t.StandsForInt store n) →
          callFunction registry store f (before ++ t :: after) =
            .error (.argumentType t.describe .int)) := by
  rw [callFunction_eq isFunction ofService isHandler]
  refine ⟨?_, fun out taken ↦ ?_, fun placed convertible notWhole ↦ ?_⟩
  · rw [isInt]
    simp only [coerce_int_eq_ok_iff]
    constructor
    · rintro ⟨argument, n, stands, -⟩
      exact ⟨n, stands⟩
    · rintro ⟨n, stands⟩
      exact ⟨.int (clampToWord n), n, stands, rfl⟩
  · rw [taken, ok_bind]
    refine ⟨rfl, ?_⟩
    have receives : Receives d (before ++ t :: after) index t := by
      refine ⟨before.length, List.mem_zipIdx_iff_getElem?.mpr ?_, target⟩
      simp
    obtain ⟨value, isValue, given, -⟩ := (getElem?_of_bindArguments taken).2 index p isParameter
    have coerced := given t receives
    rw [isInt] at coerced
    obtain ⟨n, stands, rfl⟩ := coerce_int_eq_ok_iff.mp coerced
    exact ⟨n, clampToWord n, stands, isValue, clampToWord_eq_self_iff n, fitsWord_clampToWord n,
      fun m ↦ natAbs_clampToWord_sub_le n⟩
  · have refused : coerce store t p.type = .error (.argumentType t.describe .int) := by
      rw [isInt]
      exact coerce_int_eq_error notWhole
    rw [bindArguments_eq_error placed convertible target isParameter refused]
    rfl

end Calls

/-- The built-in function for identity matrices, whose size is of the type int. -/
def Call.identity : Descriptor :=
  ⟨"Identity", ["Eye"], [Registry.needed "size" .int], .matrix, "matrix",
    "Square identity matrix of the given size"⟩

/-- The size three is handed on, and the size one and a half is refused. -/
theorem bound_for_a_size :
    (∃ n k, (Token.number 3.0).StandsForInt (.empty {}) n ∧
      bindArguments (.empty {}) identity [.number 3.0] = .ok [.int k] ∧ (k = n ↔ FitsWord n)) ∧
    callFunction .builtin (.empty {}) (.call identity) [.number 1.5] =
      .error (.argumentType "1.5" .int) := by
  have ofService : identity.name ≠ Registry.cleanUpName ∧ identity.name ≠ Registry.helpName := by
    decide
  have isHandler : Registry.builtin.handler? "matrix" "Identity" = some Services.identity := rfl
  constructor
  · have taken : bindArguments (.empty {}) identity [.number 3.0] = .ok [.int 3] := rfl
    obtain ⟨-, accepted, -⟩ := @callFunction_int (.empty {}) (.number 3.0) identity [] [] 0
      (Registry.needed "size" .int) .builtin (.call identity) Services.identity rfl ofService
      isHandler rfl rfl rfl
    obtain ⟨-, n, k, stands, received, same, -⟩ := accepted _ taken
    obtain rfl := Argument.int.inj (Option.some.inj received)
    exact ⟨n, 3, stands, taken, same⟩
  · obtain ⟨-, -, refused⟩ := @callFunction_int (.empty {}) (.number 1.5) identity [] [] 0
      (Registry.needed "size" .int) .builtin (.call identity) Services.identity rfl ofService
      isHandler rfl rfl rfl
    have placed : Placed identity [.number 1.5] :=
      ⟨List.pairwise_singleton _ _, by simp [Token.number], by decide, by decide⟩
    have notWhole : ∀ n, ¬ (Token.number 1.5).StandsForInt (.empty {}) n := by
      intro n stands
      cases Token.bind_numeric?_eq_some_iff.mpr stands
    exact refused placed (by simp [Convertible, Receives]) notWhole

/-- The size ten to the nineteenth is accepted, and the function receives another number. -/
theorem bound_for_a_huge_number :
    (Token.number 1e19).StandsForInt (.empty {}) (10 ^ 19) ∧ ¬ FitsWord (10 ^ 19) ∧
      bindArguments (.empty {}) identity [.number 1e19] = .ok [.int (2 ^ 63 - 1)] ∧
      callFunction .builtin (.empty {}) (.call identity) [.number 1e19] =
        .error (.service "Identity" (.dimensionTooLarge "Size" 64 (2 ^ 63 - 1))) := by
  refine ⟨?_, by decide, rfl, rfl⟩
  exact Token.bind_numeric?_eq_some_iff.mp rfl

end MatrixCalculator
