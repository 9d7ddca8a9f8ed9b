import MatrixCalculator.Proofs.EvaluableTokens
import MatrixCalculator.Proofs.ServiceArguments
import MatrixCalculator.Proofs.TokenNames

/-!
# Functions and services fit together

With the built-in functions no text comes to the error that a function has no service, or that its
service finds an argument missing or of another type (`services_fit`). Only a call meets a service
(`failsOnly_callFunction`); every other step of an evaluation fails for reasons of its own, whatever
is on the stack and in the store.
-/

set_option autoImplicit false

namespace MatrixCalculator

open Evaluation

/-- Whether a function and its service do not fit together: there is no service, or it could not use
an argument. -/
def EvalError.isMismatch : EvalError → Bool
  | unknownService _ _ => true
  | service _ error => error.isExpected
  | _ => false

/-! ### No other step of an evaluation meets a service -/

section Steps

variable {registry : Registry} (store : Store)

theorem failsOnly_resolve (t : Token) : FailsOnly (·.isMismatch = false) (t.resolve store) := by
  unfold Token.resolve
  dsimp only
  split
  · exact failsOnly_ok _
  · exact failsOnly_ok _
  · exact failsOnly_error rfl

theorem failsOnly_coerce (t : Token) (type : ParameterType) :
    FailsOnly (·.isMismatch = false) (coerce store t type) := by
  have ofResolved : FailsOnly (·.isMismatch = false) ((t.resolve store).map Argument.matrix) :=
    (failsOnly_resolve store t).map _
  rw [coerce.eq_def]
  cases type with
  | int =>
    dsimp only
    split
    · exact failsOnly_ok _
    · exact failsOnly_error rfl
  | float =>
    dsimp only
    split
    · exact failsOnly_ok _
    · exact failsOnly_error rfl
  | matrix =>
    dsimp only
    split_ifs
    · exact ofResolved
    · exact failsOnly_error rfl
  | dynamic =>
    dsimp only
    split
    · exact failsOnly_ok _
    · exact failsOnly_ok _
    · exact failsOnly_ok _
    · exact failsOnly_error rfl
    · exact ofResolved
    · exact failsOnly_error rfl

theorem failsOnly_targetIndex (d : Descriptor) (named : Bool) (t : Token) (position : Nat) :
    FailsOnly (·.isMismatch = false) (Call.targetIndex d named t position) := by
  unfold Call.targetIndex
  split
  · split
    · exact failsOnly_ok _
    · exact failsOnly_error rfl
  · split_ifs
    · exact failsOnly_error rfl
    · exact failsOnly_ok _

theorem failsOnly_bindArguments (d : Descriptor) (args : List Token) :
    FailsOnly (·.isMismatch = false) (bindArguments store d args) := by
  have one (slots : Call.Slots) (argument : Token × Nat) :
      FailsOnly (·.isMismatch = false) (Call.bindOne store d slots argument) := by
    refine (failsOnly_targetIndex d slots.named argument.1 argument.2).bind fun index ↦ ?_
    split
    · exact (failsOnly_coerce store argument.1 _).bind fun _ ↦ failsOnly_ok _
    · exact failsOnly_error rfl
    · exact failsOnly_error rfl
  have completed (place : Parameter × Option Argument) :
      FailsOnly (·.isMismatch = false) (Call.complete d place) := by
    unfold Call.complete
    split
    · exact failsOnly_ok _
    · split
      · exact failsOnly_ok _
      · split_ifs
        · exact failsOnly_error rfl
        · exact failsOnly_ok _
  exact (failsOnly_foldlM one _).bind fun _ ↦ failsOnly_mapM completed

theorem failsOnly_wrapOutput (d : Descriptor) (output : ServiceOutput) :
    FailsOnly (·.isMismatch = false) (wrapOutput d output) := by
  unfold wrapOutput
  split <;> first | exact failsOnly_ok _ | exact failsOnly_error rfl

/-- A call of a built-in function finds its service, which can use its arguments. -/
theorem failsOnly_callFunction {f : Token}
    (isKnown : ∀ d ∈ f.function, d ∈ Registry.builtinFunctions) (args : List Token) :
    FailsOnly (·.isMismatch = false) (callFunction .builtin store f args) := by
  unfold callFunction
  split
  · exact failsOnly_error rfl
  · rename_i d calls
    split_ifs with ofSession
    · exact failsOnly_error rfl
    · exact failsOnly_ok _
    · exact failsOnly_ok _
    · have isService : d.service ≠ "session" := by
        have named : ∀ d ∈ Registry.builtinFunctions, d.service = "session" →
            d.name = Registry.cleanUpName ∨ d.name = Registry.helpName := by decide
        exact fun service ↦ ofSession (named d (isKnown d calls) service)
      rcases taken : bindArguments store d args with error | out
      · exact failsOnly_error (failsOnly_bindArguments store d args error taken)
      · obtain ⟨handler, found, usable⟩ :=
          exists_handler_of_bindArguments (isKnown d calls) isService taken
        rw [ok_bind, found]
        dsimp only
        rcases handed : handler out store.limits with error | output
        · exact failsOnly_error (usable store.limits error handed)
        · exact failsOnly_wrapOutput d output

theorem failsOnly_operand (symbol : String) (t : Token) :
    FailsOnly (·.isMismatch = false) (operand store symbol t) := by
  unfold operand
  split
  · exact failsOnly_error rfl
  · exact failsOnly_ok _
  · exact failsOnly_error rfl
  · exact failsOnly_error rfl
  · exact (failsOnly_resolve store t).map _
  · exact failsOnly_error rfl

theorem failsOnly_assignedValue (t : Token) :
    FailsOnly (·.isMismatch = false) (assignedValue store t) := by
  unfold assignedValue
  split
  · exact failsOnly_ok _
  · exact failsOnly_error rfl
  · exact failsOnly_resolve store t
  · exact failsOnly_ok _
  · exact failsOnly_error rfl

theorem failsOnly_stackResult (stack : List Token) :
    FailsOnly (·.isMismatch = false) (stackResult store stack) := by
  unfold stackResult lookUp
  split
  · exact failsOnly_error rfl
  · split_ifs
    · exact (failsOnly_resolve store _).map _
    · exact failsOnly_ok _
  · exact failsOnly_error rfl

end Steps

theorem failsOnly_takeOperands (stack : List Token) (count : Nat) (what : String) :
    FailsOnly (·.isMismatch = false) (takeOperands stack count what) := by
  unfold takeOperands
  split_ifs
  · exact failsOnly_error rfl
  · exact failsOnly_ok _

theorem failsOnly_attachHint (left right : Token) :
    FailsOnly (·.isMismatch = false) (attachHint left right) := by
  unfold attachHint
  split_ifs
  · exact failsOnly_ok _
  · exact failsOnly_error rfl

/-! What an operator computes fails for reasons of its own. -/

theorem failsOnly_arithmetic (op : Arithmetic) (a b : Operand) :
    FailsOnly (·.isMismatch = false) (op.evaluate a b) := by
  unfold Arithmetic.evaluate
  split
  · exact failsOnly_ok _
  · exact failsOnly_ok _
  · exact failsOnly_ok _
  · split
    · exact failsOnly_ok _
    · exact failsOnly_error rfl

theorem failsOnly_moduloOperands (a b : Operand) :
    FailsOnly (·.isMismatch = false) (moduloOperands a b) := by
  unfold moduloOperands
  split
  · exact failsOnly_ok _
  · exact failsOnly_ok _
  · split
    · exact failsOnly_ok _
    · exact failsOnly_error rfl
  · exact failsOnly_error rfl

theorem failsOnly_powerOperands (a b : Operand) :
    FailsOnly (·.isMismatch = false) (powerOperands a b) := by
  unfold powerOperands
  split
  · exact failsOnly_error rfl
  · split <;> exact failsOnly_ok _

theorem failsOnly_matrixPowerOperands (a b : Operand) :
    FailsOnly (·.isMismatch = false) (matrixPowerOperands a b) := by
  unfold matrixPowerOperands
  dsimp only
  split_ifs
  · exact failsOnly_error rfl
  · split
    · exact failsOnly_error rfl
    · split_ifs
      · exact failsOnly_error rfl
      · split
        · exact failsOnly_ok _
        · exact failsOnly_ok _
        · split_ifs
          · split
            · exact failsOnly_ok _
            · exact failsOnly_error rfl
          · exact failsOnly_error rfl
        · exact failsOnly_error rfl

theorem failsOnly_matrixProductOperands (a b : Operand) :
    FailsOnly (·.isMismatch = false) (matrixProductOperands a b) := by
  unfold matrixProductOperands
  split
  · exact failsOnly_ok _
  · exact failsOnly_error rfl

theorem failsOnly_matrixQuotientOperands (a b : Operand) :
    FailsOnly (·.isMismatch = false) (matrixQuotientOperands a b) := by
  unfold matrixQuotientOperands
  split
  · exact failsOnly_matrixProductOperands a _
  · exact failsOnly_error rfl

theorem failsOnly_binaryResult (op : Operator) (a b : Operand) :
    FailsOnly (·.isMismatch = false) (binaryResult op a b) := by
  cases op with
  | add | subtract | multiply | divide => exact failsOnly_arithmetic _ a b
  | modulo => exact failsOnly_moduloOperands a b
  | power => exact failsOnly_powerOperands a b
  | matrixPower => exact failsOnly_matrixPowerOperands a b
  | matrixMultiply => exact failsOnly_matrixProductOperands a b
  | matrixDivide => exact failsOnly_matrixQuotientOperands a b
  | assign | hint | negate | identity => exact failsOnly_error rfl

/-! ### Evaluation -/

namespace Evaluation

variable {α β : Type} {R : EvalError → Prop}

/-- Whether something holds of every error with which a computation fails on any store. -/
def FailsWith (R : EvalError → Prop) (e : Evaluation α) : Prop :=
  ∀ store, FailsOnly R (e.runOn store).1

theorem failsWith_pure (a : α) : FailsWith R (pure a : Evaluation α) :=
  fun _ ↦ failsOnly_ok a

theorem failsWith_throw {error : EvalError} (holds : R error) :
    FailsWith R (throw error : Evaluation α) :=
  fun _ ↦ failsOnly_error holds

theorem failsWith_ofExcept {result : Except EvalError α} (holds : FailsOnly R result) :
    FailsWith R (ofExcept result : Evaluation α) := by
  intro store
  rwa [runOn_ofExcept]

theorem failsWith_reading {f : Store → Except EvalError α}
    (holds : ∀ store, FailsOnly R (f store)) : FailsWith R (reading f) := by
  intro store
  rw [runOn_reading]
  exact holds store

/-- What follows a computation only matters on the results that it can have. -/
theorem FailsWith.bind_of_yields {Q : α → Prop} {e : Evaluation α} {f : α → Evaluation β}
    (first : FailsWith R e) (yields : Yields Q e) (rest : ∀ a, Q a → FailsWith R (f a)) :
    FailsWith R (e >>= f) := by
  intro store
  have ofFirst := first store
  rcases ran : e.runOn store with ⟨error | a, left⟩
  · rw [ran] at ofFirst
    rw [runOn_bind_of_error ran]
    exact failsOnly_error (ofFirst error rfl)
  · rw [runOn_bind_of_ok ran]
    exact rest a (yields store a left ran) left

theorem FailsWith.bind {e : Evaluation α} {f : α → Evaluation β} (first : FailsWith R e)
    (rest : ∀ a, FailsWith R (f a)) : FailsWith R (e >>= f) :=
  first.bind_of_yields (Q := fun _ ↦ True) (fun _ _ _ _ ↦ trivial) fun a _ ↦ rest a

end Evaluation

theorem failsWith_bindName (name : String) (v : Value) :
    FailsWith (·.isMismatch = false) (bindName name v) := by
  intro store
  rw [runOn_bindName]
  cases store.insert name v with
  | ok left => exact failsOnly_ok ()
  | error error => exact failsOnly_error rfl

theorem failsWith_assign (left right : Token) :
    FailsWith (·.isMismatch = false) (assign left right) := by
  unfold assign
  split
  · exact failsWith_throw rfl
  · exact (failsWith_reading fun store ↦ failsOnly_assignedValue store right).bind fun v ↦
      (failsWith_bindName left.name v).bind fun _ ↦ failsWith_pure _

theorem failsWith_applyOperator (t : Token) (operands : List Token) :
    FailsWith (·.isMismatch = false) (applyOperator t operands) := by
  unfold applyOperator
  split
  · exact failsWith_throw rfl
  · exact failsWith_throw rfl
  · unfold applyUnary
    split
    · exact failsWith_reading fun store ↦ (failsOnly_operand store _ _).map _
    · exact failsWith_reading fun store ↦ (failsOnly_operand store _ _).map _
    · exact failsWith_throw rfl
  · unfold applyBinary
    split
    · exact failsWith_assign _ _
    · exact failsWith_ofExcept (failsOnly_attachHint _ _)
    · exact failsWith_reading fun store ↦ (failsOnly_operand store _ _).bind fun a ↦
        (failsOnly_operand store _ _).bind fun b ↦ failsOnly_binaryResult _ a b

theorem failsWith_taken {stack : List Token} {count : Nat} {what : String}
    {apply : List Token → Evaluation Token}
    (applied : ∀ operands, FailsWith (·.isMismatch = false) (apply operands)) :
    FailsWith (·.isMismatch = false) (do
      let (operands, below) ← (ofExcept (takeOperands stack count what) : Evaluation _)
      return (← apply operands) :: below) :=
  (failsWith_ofExcept (failsOnly_takeOperands stack count what)).bind fun taken ↦
    (applied taken.1).bind fun _ ↦ failsWith_pure _

theorem failsWith_evaluateToken {t : Token} (evaluable : t.Evaluable .builtin)
    (stack : List Token) :
    FailsWith (·.isMismatch = false) (evaluateToken .builtin stack t) := by
  unfold evaluateToken
  split
  · exact failsWith_taken (failsWith_applyOperator t)
  · rename_i isFunction
    have called (args : List Token) : FailsWith (·.isMismatch = false)
        (reading fun store ↦ callFunction .builtin store t args) :=
      failsWith_reading fun store ↦
        failsOnly_callFunction store (evaluable.mem_functions isFunction) args
    exact failsWith_taken called
  · exact failsWith_pure _

theorem failsWith_evaluateTokens {tokens : List Token}
    (evaluable : ∀ t ∈ tokens, t.Evaluable .builtin) (stack : List Token) :
    FailsWith (·.isMismatch = false) (evaluateTokens .builtin stack tokens) := by
  induction tokens generalizing stack with
  | nil => exact failsWith_pure _
  | cons t rest ih =>
    rw [List.forall_mem_cons] at evaluable
    exact (failsWith_evaluateToken evaluable.1 stack).bind (ih evaluable.2)

theorem failsWith_evaluateExpression (text : List Char) :
    FailsWith (·.isMismatch = false) (evaluateExpression .builtin text) := by
  have ordered (store : Store) :
      FailsOnly (·.isMismatch = false) (postfixOf .builtin store text) :=
    (failsOnly_mapError (S := fun error : EvalError ↦ error.isMismatch = false) fun _ ↦ rfl).bind
      fun _ ↦ failsOnly_mapError fun _ ↦ rfl
  refine (failsWith_reading ordered).bind_of_yields
    (yields_reading fun store out ↦ evaluable_of_postfixOf) fun out evaluable ↦ ?_
  unfold evaluate
  split_ifs
  · exact failsWith_throw rfl
  · exact (failsWith_evaluateTokens evaluable []).bind fun stack ↦
      failsWith_reading fun store ↦ failsOnly_stackResult store stack

theorem failsWith_assignMany (names : List String) (result : Token) :
    FailsWith (·.isMismatch = false) (assignMany names result) := by
  have all (bindings : List (String × Value)) : FailsWith (·.isMismatch = false)
      (bindings.forM fun binding ↦ bindName binding.1 binding.2) := by
    induction bindings with
    | nil => exact failsWith_pure ()
    | cons binding rest ih => exact (failsWith_bindName binding.1 binding.2).bind fun _ ↦ ih
  unfold assignMany
  split
  · split_ifs
    · exact failsWith_throw rfl
    · exact (all _).bind fun _ ↦ failsWith_pure _
  · exact failsWith_throw rfl

theorem failsWith_compileText (text : List Char) :
    FailsWith (·.isMismatch = false) (compileText .builtin text) := by
  have form : FailsOnly (·.isMismatch = false) (multiAssignment? text) := by
    unfold multiAssignment?
    split
    · exact failsOnly_error rfl
    · exact failsOnly_ok _
    · split_ifs
      · dsimp only
        split
        · exact failsOnly_error rfl
        · exact failsOnly_ok _
      · exact failsOnly_ok _
  unfold compileText
  split_ifs
  · exact failsWith_throw rfl
  · refine (failsWith_ofExcept form).bind fun parts ↦ ?_
    rcases parts with _ | ⟨names, right⟩
    · exact failsWith_evaluateExpression text
    · exact (failsWith_evaluateExpression right).bind fun result ↦ failsWith_assignMany _ result

/-- Built-in functions and services fit together: a call that binds its arguments finds a service
that can use them, and no text comes to an error that tells the contrary. -/
theorem services_fit :
    (∀ d ∈ Registry.builtinFunctions, d.service ≠ "session" → ∀ store args out,
      bindArguments store d args = .ok out →
        ∃ handler, Registry.builtin.handler? d.service d.name = some handler ∧
          ∀ limits error, handler out limits = .error error → error.isExpected = false) ∧
      ∀ text store error, (compile .builtin text store).1 = .error error →
        error.isMismatch = false := by
  refine ⟨fun d isKnown isService store args out ↦ ?_, fun text store ↦ ?_⟩
  · exact exists_handler_of_bindArguments isKnown isService
  · exact failsWith_compileText text.toList store

/-- A call of `Transpose` finds its service, and one of `Identity` without an argument is refused
before it meets one. -/
theorem services_fit_transpose :
    (∃ handler, Registry.builtin.handler? "matrix" "Transpose" = some handler ∧
      ∀ limits error, handler [.matrix (.matrix (.scalar 1.0))] limits = .error error →
        error.isExpected = false) ∧
      ∃ error, (compile .builtin "!Identity()" (.empty {})).1 = .error error ∧
        error.message = "'Identity': missing required parameter 'size'" ∧
        error.isMismatch = false := by
  have taken : bindArguments (.empty {})
      ⟨"Transpose", [], [Registry.needed "matrix" .matrix], .matrix, "matrix",
        "Rows become columns"⟩ [.matrix (.matrix (.scalar 1.0))] =
      .ok [.matrix (.matrix (.scalar 1.0))] := rfl
  refine ⟨services_fit.1 _ (by simp [Registry.builtinFunctions]) (by decide) _ _ _ taken, ?_⟩
  have refused : ((compile .builtin "!Identity()" (.empty {})).1.mapError EvalError.message).map
      (fun _ ↦ ()) = .error "'Identity': missing required parameter 'size'" := by decide +kernel
  rcases failed : (compile .builtin "!Identity()" (.empty {})).1 with error | t
  · rw [failed] at refused
    exact ⟨error, rfl, Except.error.inj refused, services_fit.2 _ _ _ failed⟩
  · rw [failed] at refused
    cases refused

end MatrixCalculator
