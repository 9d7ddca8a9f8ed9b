import MatrixCalculator.Proofs.EvaluationRuns
import MatrixCalculator.Proofs.TokenReading

/-!
# The names that tokens carry

A token stands for what the store binds to a name only if it is a matrix with that name. Evaluation
makes up no names: what it puts on its stack has no name, or one that was on the stack before
(`namedIn_evaluateToken`). So whatever is looked up or bound is named in the text.
-/

set_option autoImplicit false

namespace MatrixCalculator

open Evaluation

/-! ### What computations return -/

namespace Evaluation

variable {α β : Type}

/-- Whether something holds of all that a computation can return. -/
def Yields (Q : α → Prop) (e : Evaluation α) : Prop :=
  ∀ store a left, e.runOn store = (.ok a, left) → Q a

theorem yields_pure {Q : α → Prop} {a : α} (holds : Q a) : Yields Q (pure a) := by
  intro store b left returns
  obtain rfl := Except.ok.inj (Prod.mk.inj returns).1
  exact holds

theorem yields_throw (Q : α → Prop) (error : EvalError) : Yields Q (throw error) := by
  intro store b left returns
  cases (Prod.mk.inj returns).1

theorem yields_ofExcept {Q : α → Prop} {result : Except EvalError α}
    (holds : ∀ a, result = .ok a → Q a) : Yields Q (ofExcept result) := by
  intro store a left returns
  rw [runOn_ofExcept] at returns
  exact holds a (Prod.mk.inj returns).1

theorem yields_reading {Q : α → Prop} {f : Store → Except EvalError α}
    (holds : ∀ store a, f store = .ok a → Q a) : Yields Q (reading f) := by
  intro store a left returns
  rw [runOn_reading] at returns
  exact holds store a (Prod.mk.inj returns).1

theorem Yields.bind {P : α → Prop} {Q : β → Prop} {e : Evaluation α} {f : α → Evaluation β}
    (first : Yields P e) (rest : ∀ a, P a → Yields Q (f a)) : Yields Q (e >>= f) := by
  intro store b left returns
  obtain ⟨a, middle, ran, returns⟩ := exists_of_runOn_bind returns
  exact rest a (first store a middle ran) middle b left returns

end Evaluation

/-! ### Names of results -/

/-- Whether a token stands for a matrix by one of some names only, if by a name at all. -/
def Token.NamedIn (names : String → Prop) (t : Token) : Prop :=
  t.kind = .matrixRef → t.name = "" ∨ names t.name

section Results

variable {names : String → Prop} {t : Token}

theorem namedIn_of_nameless (nameless : t.name = "") : t.NamedIn names :=
  fun _ ↦ Or.inl nameless

theorem namedIn_of_kind (noMatrix : t.kind ≠ .matrixRef) : t.NamedIn names :=
  fun isMatrix ↦ absurd isMatrix noMatrix

theorem namedIn_of_lexical (lexical : t.Lexical names) : t.NamedIn names := by
  cases lexical with
  | name name isNamed => exact fun _ ↦ Or.inr isNamed
  | value t isValue noName => exact namedIn_of_kind noName
  | operator | call | leftBrace | rightBrace | separator =>
    exact namedIn_of_kind TokenKind.noConfusion

/-! Operators that compute hand back numbers and matrices without names. -/

theorem name_of_arithmetic {op : Arithmetic} {a b : Operand} (value : op.evaluate a b = .ok t) :
    t.name = "" := by
  unfold Arithmetic.evaluate at value
  split at value
  · cases value; rfl
  · cases value; rfl
  · cases value; rfl
  · split at value <;> cases value
    rfl

theorem name_of_moduloOperands {a b : Operand} (value : moduloOperands a b = .ok t) :
    t.name = "" := by
  unfold moduloOperands at value
  split at value
  · cases value; rfl
  · cases value; rfl
  · split at value <;> cases value
    rfl
  · cases value

theorem name_of_powerOperands {base exponent : Operand}
    (value : powerOperands base exponent = .ok t) : t.name = "" := by
  unfold powerOperands at value
  split at value
  · cases value
  · split at value <;> cases value <;> rfl

theorem name_of_matrixPowerOperands {base exponent : Operand}
    (value : matrixPowerOperands base exponent = .ok t) : t.name = "" := by
  unfold matrixPowerOperands at value
  dsimp only at value
  split_ifs at value
  split at value
  · cases value
  · split_ifs at value
    split at value
    · cases value; rfl
    · cases value; rfl
    · split_ifs at value
      split at value <;> cases value
      rfl
    · cases value

theorem name_of_matrixProductOperands {left right : Operand}
    (value : matrixProductOperands left right = .ok t) : t.name = "" := by
  unfold matrixProductOperands at value
  split at value <;> cases value
  rfl

theorem name_of_matrixQuotientOperands {left right : Operand}
    (value : matrixQuotientOperands left right = .ok t) : t.name = "" := by
  unfold matrixQuotientOperands at value
  split at value
  · exact name_of_matrixProductOperands value
  · cases value

theorem name_of_binaryResult {op : Operator} {a b : Operand} (value : binaryResult op a b = .ok t) :
    t.name = "" := by
  cases op with
  | add | subtract | multiply | divide => exact name_of_arithmetic value
  | modulo => exact name_of_moduloOperands value
  | power => exact name_of_powerOperands value
  | matrixPower => exact name_of_matrixPowerOperands value
  | matrixMultiply => exact name_of_matrixProductOperands value
  | matrixDivide => exact name_of_matrixQuotientOperands value
  | assign | hint | negate | identity => cases value

theorem name_negateOperand (a : Operand) : (negateOperand a).name = "" := by
  cases a <;> rfl

theorem name_keepOperand (a : Operand) : (keepOperand a).name = "" := by
  cases a <;> rfl

theorem namedIn_wrapOutput {d : Descriptor} {output : ServiceOutput}
    (value : wrapOutput d output = .ok t) : t.NamedIn names := by
  unfold wrapOutput at value
  split at value <;> cases value <;>
    first
    | exact namedIn_of_nameless rfl
    | exact namedIn_of_kind TokenKind.noConfusion

/-- A call hands back nothing that is named, or that is a matrix. -/
theorem namedIn_callFunction {registry : Registry} {store : Store} {f : Token} {args : List Token}
    (value : callFunction registry store f args = .ok t) : t.NamedIn names := by
  unfold callFunction at value
  split at value
  · cases value
  · rename_i d _
    split_ifs at value
    · cases value
      exact namedIn_of_kind TokenKind.noConfusion
    · cases value
      exact namedIn_of_kind TokenKind.noConfusion
    · obtain ⟨arguments, -, value⟩ := exists_of_bind_eq_ok value
      split at value
      · cases value
      · split at value
        · exact namedIn_wrapOutput value
        · cases value

/-! ### Names on the stack -/

/-- An assignment hands back the name that it binds. -/
theorem namedIn_assign {left : Token} (named : left.NamedIn names) (right : Token) :
    Yields (Token.NamedIn names) (assign left right) := by
  unfold assign
  split
  · exact yields_throw _ _
  · rename_i form
    rw [not_or, Decidable.not_not] at form
    refine Yields.bind (P := fun _ ↦ True) (fun _ _ _ _ ↦ trivial) fun value _ ↦ ?_
    refine Yields.bind (P := fun _ ↦ True) (fun _ _ _ _ ↦ trivial) fun _ _ ↦ ?_
    exact yields_pure fun _ ↦ named form.1

theorem namedIn_attachHint {left right : Token} (named : right.NamedIn names)
    (value : attachHint left right = .ok t) : t.NamedIn names := by
  unfold attachHint at value
  split_ifs at value
  cases value
  exact named

theorem namedIn_applyUnary (op : Operator) (x : Token) :
    Yields (Token.NamedIn names) (applyUnary op x) := by
  unfold applyUnary
  split
  · refine yields_reading fun store a value ↦ namedIn_of_nameless ?_
    obtain ⟨number, -, rfl⟩ := exists_of_map_eq_ok value
    exact name_negateOperand number
  · refine yields_reading fun store a value ↦ namedIn_of_nameless ?_
    obtain ⟨number, -, rfl⟩ := exists_of_map_eq_ok value
    exact name_keepOperand number
  · exact yields_throw _ _

theorem namedIn_applyBinary (op : Operator) {left right : Token} (leftNamed : left.NamedIn names)
    (rightNamed : right.NamedIn names) :
    Yields (Token.NamedIn names) (applyBinary op left right) := by
  unfold applyBinary
  split
  · exact namedIn_assign leftNamed right
  · exact yields_ofExcept fun a value ↦ namedIn_attachHint rightNamed value
  · refine yields_reading fun store a value ↦ namedIn_of_nameless ?_
    obtain ⟨x, -, value⟩ := exists_of_bind_eq_ok value
    obtain ⟨y, -, value⟩ := exists_of_bind_eq_ok value
    exact name_of_binaryResult value

theorem namedIn_applyOperator (t : Token) {operands : List Token}
    (named : ∀ x ∈ operands, x.NamedIn names) :
    Yields (Token.NamedIn names) (applyOperator t operands) := by
  unfold applyOperator
  split
  · exact yields_throw _ _
  · exact yields_throw _ _
  · exact namedIn_applyUnary _ _
  · rename_i op right left rest _ reversed
    have all : ∀ x ∈ right :: left :: rest, x.NamedIn names := by
      rw [← reversed]
      simpa using named
    exact namedIn_applyBinary op (all left (by simp)) (all right (by simp))

theorem forall_mem_takeOperands {P : Token → Prop} {stack operands below : List Token} {count : Nat}
    {what : String} (holds : ∀ x ∈ stack, P x)
    (taken : takeOperands stack count what = .ok (operands, below)) :
    (∀ x ∈ operands, P x) ∧ ∀ x ∈ below, P x := by
  unfold takeOperands at taken
  split_ifs at taken
  cases taken
  exact ⟨fun x isMem ↦ holds x (List.mem_of_mem_take (List.mem_reverse.mp isMem)),
    fun x isMem ↦ holds x (List.mem_of_mem_drop isMem)⟩

/-- An operator or a function puts a token in place of as many as it takes. -/
theorem yields_taken {P : Token → Prop} {stack : List Token} {count : Nat} {what : String}
    {apply : List Token → Evaluation Token} (ofStack : ∀ x ∈ stack, P x)
    (applied : ∀ operands, operands.length = count → (∀ x ∈ operands, P x) →
      Yields P (apply operands)) :
    Yields (fun stack : List Token ↦ ∀ x ∈ stack, P x) (do
      let (operands, below) ← (ofExcept (takeOperands stack count what) : Evaluation _)
      return (← apply operands) :: below) := by
  refine Yields.bind
    (P := fun taken ↦ taken.1.length = count ∧ (∀ x ∈ taken.1, P x) ∧ ∀ x ∈ taken.2, P x)
    (yields_ofExcept fun taken isTaken ↦ ⟨?_, forall_mem_takeOperands ofStack isTaken⟩)
    fun taken parts ↦ ?_
  · unfold takeOperands at isTaken
    split_ifs at isTaken with tooFew
    cases isTaken
    rw [List.length_reverse, List.length_take]
    omega
  · refine (applied taken.1 parts.1 parts.2.1).bind fun result ofResult ↦ yields_pure ?_
    exact List.forall_mem_cons.mpr ⟨ofResult, parts.2.2⟩

/-- Evaluating a token makes up no name. -/
theorem namedIn_evaluateToken (registry : Registry) {stack : List Token}
    (named : ∀ x ∈ stack, x.NamedIn names) (ofToken : t.NamedIn names) :
    Yields (fun stack : List Token ↦ ∀ x ∈ stack, x.NamedIn names)
      (evaluateToken registry stack t) := by
  unfold evaluateToken
  split
  · exact yields_taken named fun operands _ ↦ namedIn_applyOperator t
  · have called (args : List Token) : Yields (Token.NamedIn names)
        (reading fun store ↦ callFunction registry store t args) :=
      yields_reading fun store a ↦ namedIn_callFunction
    exact yields_taken named fun args _ _ ↦ called args
  · exact yields_pure (List.forall_mem_cons.mpr ⟨ofToken, named⟩)

theorem namedIn_evaluateTokens (registry : Registry) {stack tokens : List Token}
    (named : ∀ x ∈ stack, x.NamedIn names) (ofTokens : ∀ t ∈ tokens, t.NamedIn names) :
    Yields (fun stack : List Token ↦ ∀ x ∈ stack, x.NamedIn names)
      (evaluateTokens registry stack tokens) := by
  induction tokens generalizing stack with
  | nil => exact yields_pure named
  | cons t rest ih =>
    rw [List.forall_mem_cons] at ofTokens
    exact (namedIn_evaluateToken registry named ofTokens.1).bind fun stack after ↦
      ih after ofTokens.2

end Results

end MatrixCalculator
