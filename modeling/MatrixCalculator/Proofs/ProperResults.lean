import MatrixCalculator.Proofs.AssignedNames
import MatrixCalculator.Proofs.DeclaredArguments
import MatrixCalculator.Proofs.EvaluableTokens
import MatrixCalculator.Proofs.ResultSizes
import MatrixCalculator.Proofs.StoreCapacity

/-!
# Results are proper values

What compiling a text returns is a value with the payload of its kind, and a matrix under a name is
what the store binds to that name in the end (`isResult_of_compile`).

The invariant is `Token.Proper`, which holds of every value on the stack: it has the payload of its
kind unless it is a name to look up, the matrices in it are of allowed sizes, and a matrix under a
name is bound to it. Before the equals sign no matrix on the stack has a name; the equals sign binds
one, and behind it the store stays as it is (`proper_of_evaluateTokens`). All sizes are allowed for
arbitrary registries; the allowance is for those whose services keep sizes (`Registry.KeepsSizes`).
-/

set_option autoImplicit false

namespace MatrixCalculator

open Evaluation

/-- The values that a payload holds. -/
def Payload.carried : Payload → List Value
  | .matrix v => [v]
  | .matrices vs => vs
  | .null | .number _ | .text _ => []

/-- Whether a token is what a value on the stack is like, where some names are bound to values. -/
structure Token.Proper (allowed : Nat → Prop) (bound : String → Value → Prop) (t : Token) :
    Prop where
  carries : t.kind.carries t.payload = true ∨ t.kind = .matrixRef ∧ t.payload = .null
  sized : ∀ v ∈ t.payload.carried, v.Sized allowed
  settled : ∀ v, t.payload = .matrix v → t.name ≠ "" → bound t.name v
  unnamed : ∀ vs, t.payload = .matrices vs → t.name = ""

/-- Whether a store has these limits and binds names to values of allowed sizes only. -/
structure Store.Holds (limits : Limits) (allowed : Nat → Prop) (s : Store) : Prop where
  limits_eq : s.limits = limits
  sized : ∀ name v, s.get? name = some v → v.Sized allowed

/-- Whether the services of a registry hand back values of allowed sizes if they receive such, and
the defaults of its functions are such. -/
structure Registry.KeepsSizes (registry : Registry) (limits : Limits) (allowed : Nat → Prop) :
    Prop where
  one : allowed 1
  defaults : ∀ d ∈ registry.functions, ∀ p ∈ d.parameters, ∀ a ∈ p.default?,
    ∀ v ∈ a.carried, v.Sized allowed
  handlers : ∀ entry ∈ registry.handlers, ∀ args output,
    (∀ a ∈ args, ∀ v ∈ a.carried, v.Sized allowed) → entry.2 args limits = .ok output →
      ∀ v ∈ output.carried, v.Sized allowed

variable {registry : Registry} {limits : Limits} {allowed : Nat → Prop}
  {bound : String → Value → Prop} {store : Store} {t : Token}

/-! ### Proper tokens -/

section Proper

theorem carried_of_carries (carries : t.kind.carries t.payload = true)
    (noMatrix : t.kind ≠ .matrixRef) : t.payload.carried = [] := by
  obtain ⟨kind, payload, _⟩ := t
  cases payload with
  | null | number | text => rfl
  | matrix v => cases kind <;> first | exact absurd rfl noMatrix | exact Bool.noConfusion carries
  | matrices vs =>
    cases kind <;> first | exact absurd rfl noMatrix | exact Bool.noConfusion carries

/-- A token without matrices is proper whatever is allowed and bound. -/
theorem Token.Proper.of_noMatrix (carries : t.kind.carries t.payload = true)
    (noMatrix : t.kind ≠ .matrixRef) : t.Proper allowed bound where
  carries := Or.inl carries
  sized v isMem := by
    rw [carried_of_carries carries noMatrix] at isMem
    cases isMem
  settled v isMatrix := by
    have none := carried_of_carries carries noMatrix
    rw [isMatrix] at none
    cases none
  unnamed vs areMatrices := by
    obtain ⟨kind, payload, _⟩ := t
    obtain rfl : payload = .matrices vs := areMatrices
    cases kind <;> first | exact absurd rfl noMatrix | exact Bool.noConfusion carries

theorem Token.Proper.of_name (isMatrix : t.kind = .matrixRef) (isBare : t.payload = .null) :
    t.Proper allowed bound := by
  refine ⟨Or.inr ⟨isMatrix, isBare⟩, ?_, ?_, ?_⟩ <;> rw [isBare]
  · exact List.forall_mem_nil _
  · exact fun _ same ↦ by cases same
  · exact fun _ same ↦ by cases same

theorem Token.Evaluable.proper (evaluable : t.Evaluable registry)
    (isValue : t.kind ≠ .operator ∧ t.kind ≠ .function) : t.Proper allowed bound := by
  cases evaluable with
  | operator op isOperator isOp => exact absurd isOperator isValue.1
  | call d isFunction isKnown calls => exact absurd isFunction isValue.2
  | name isMatrix isBare => exact .of_name isMatrix isBare
  | value carries noMatrix => exact .of_noMatrix carries noMatrix

theorem proper_number (x : Float) : (Token.number x).Proper allowed bound :=
  .of_noMatrix rfl TokenKind.noConfusion

theorem proper_boundRef {name : String} {v : Value} (sized : v.Sized allowed)
    (isBound : name ≠ "" → bound name v) : (Token.boundRef name v).Proper allowed bound where
  carries := Or.inl rfl
  sized := List.forall_mem_singleton.mpr sized
  settled w same := by
    cases same
    exact isBound
  unnamed vs same := by cases same

theorem proper_matrix {v : Value} (sized : v.Sized allowed) :
    (Token.matrix v).Proper allowed bound :=
  proper_boundRef sized fun named ↦ absurd rfl named

theorem proper_matrices {vs : List Value} (sized : ∀ v ∈ vs, v.Sized allowed) :
    (Token.matrices vs).Proper allowed bound where
  carries := Or.inl rfl
  sized := sized
  settled v same := by cases same
  unnamed _ _ := rfl

theorem proper_of_comesFrom {left right : Matrix Float} (ofLeft : left.Sized allowed)
    (ofRight : right.Sized allowed) (comesFrom : t.ComesFrom left right) :
    t.Proper allowed bound := by
  rcases comesFrom with ⟨x, rfl⟩ | ⟨m, rfl, rows, cols⟩
  · exact proper_number x
  · refine proper_matrix ⟨?_, ?_⟩
    · exact rows.elim (fun same ↦ same ▸ ofLeft.1) fun same ↦ same ▸ ofRight.1
    · exact cols.elim (fun same ↦ same ▸ ofLeft.2) fun same ↦ same ▸ ofRight.2

/-- As long as nothing is bound, a proper token stays so whatever is bound afterwards. -/
theorem Token.Proper.of_unbound (proper : t.Proper allowed fun _ _ ↦ False) :
    t.Proper allowed bound :=
  ⟨proper.carries, proper.sized, fun v isMatrix named ↦ (proper.settled v isMatrix named).elim,
    proper.unnamed⟩

end Proper

/-! ### Sizes of operands and arguments -/

section Operands

variable (holds : store.Holds limits allowed)

include holds

theorem sized_of_resolve (sized : ∀ v ∈ t.payload.carried, v.Sized allowed) {v : Value}
    (resolved : t.resolve store = .ok v) : v.Sized allowed := by
  unfold Token.resolve at resolved
  dsimp only at resolved
  split at resolved
  · rename_i isBound
    cases resolved
    split_ifs at isBound
    exact holds.sized t.name v isBound
  · rename_i isMatrix
    cases resolved
    rw [isMatrix] at sized
    exact sized v List.mem_cons_self
  · cases resolved

theorem sized_of_operand (one : allowed 1) (sized : ∀ v ∈ t.payload.carried, v.Sized allowed)
    {symbol : String} {a : Operand} (isOperand : operand store symbol t = .ok a) :
    a.toMatrix.Sized allowed := by
  unfold operand at isOperand
  split at isOperand
  · cases isOperand
  · cases isOperand
    exact ⟨one, one⟩
  · cases isOperand
  · cases isOperand
  · obtain ⟨v, resolved, rfl⟩ := exists_of_map_eq_ok isOperand
    exact sized_of_resolve holds sized resolved
  · cases isOperand

theorem sized_of_coerce (sized : ∀ v ∈ t.payload.carried, v.Sized allowed) {type : ParameterType}
    {a : Argument} (coerced : coerce store t type = .ok a) :
    ∀ v ∈ a.carried, v.Sized allowed := by
  have ofResolved {result : Except EvalError Value} (isValue : result = t.resolve store)
      (coerced : result.map .matrix = .ok a) : ∀ v ∈ a.carried, v.Sized allowed := by
    obtain ⟨v, resolved, rfl⟩ := exists_of_map_eq_ok coerced
    exact List.forall_mem_singleton.mpr (sized_of_resolve holds sized (isValue ▸ resolved))
  rw [coerce.eq_def] at coerced
  cases type with
  | int =>
    dsimp only at coerced
    split at coerced <;> cases coerced
    exact List.forall_mem_nil _
  | float =>
    dsimp only at coerced
    split at coerced <;> cases coerced
    exact List.forall_mem_nil _
  | matrix =>
    dsimp only at coerced
    split_ifs at coerced
    exact ofResolved rfl coerced
  | dynamic =>
    dsimp only at coerced
    split at coerced
    · cases coerced
      exact List.forall_mem_nil _
    · cases coerced
      exact List.forall_mem_nil _
    · cases coerced
      exact List.forall_mem_nil _
    · cases coerced
    · exact ofResolved rfl coerced
    · cases coerced

/-- Services receive values of allowed sizes. -/
theorem sized_of_bindArguments (keeps : registry.KeepsSizes limits allowed) {d : Descriptor}
    (isKnown : d ∈ registry.functions) {args : List Token}
    (sized : ∀ x ∈ args, ∀ v ∈ x.payload.carried, v.Sized allowed) {out : List Argument}
    (taken : bindArguments store d args = .ok out) :
    ∀ a ∈ out, ∀ v ∈ a.carried, v.Sized allowed := by
  obtain ⟨length, each⟩ := getElem?_of_bindArguments taken
  intro a isMem
  obtain ⟨index, inRange, rfl⟩ := List.mem_iff_getElem.mp isMem
  have isParameter := List.getElem?_eq_getElem (length ▸ inRange : index < d.parameters.length)
  obtain ⟨a, isAt, given, omitted⟩ := each index _ isParameter
  obtain rfl : out[index] = a :=
    Option.some.inj ((List.getElem?_eq_getElem inRange).symm.trans isAt)
  by_cases receives : ∃ x, Call.Receives d args index x
  · obtain ⟨x, receives⟩ := receives
    obtain ⟨position, isArgument, -⟩ := id receives
    exact sized_of_coerce holds (sized x (List.fst_mem_of_mem_zipIdx isArgument)) (given x receives)
  · rw [not_exists] at receives
    rcases omitted_of_complete (omitted receives) with isDefault | ⟨-, -, isNull⟩
    · exact keeps.defaults d isKnown _ (List.getElem_mem _) _ isDefault
    · rw [isNull]
      exact List.forall_mem_nil _

end Operands

/-! ### Calls -/

theorem mem_of_handler?_eq_some {service function : String} {handler : Handler}
    (found : registry.handler? service function = some handler) :
    ((service, function), handler) ∈ registry.handlers := by
  obtain ⟨front, back, handlers, -⟩ := List.lookup_eq_some_iff.mp found
  rw [handlers]
  simp

theorem proper_of_wrapOutput {d : Descriptor} {output : ServiceOutput}
    (sized : ∀ v ∈ output.carried, v.Sized allowed) (wrapped : wrapOutput d output = .ok t) :
    t.Proper allowed bound := by
  unfold wrapOutput at wrapped
  split at wrapped <;> cases wrapped
  · exact proper_matrix (sized _ List.mem_cons_self)
  · exact proper_matrices sized
  · exact proper_number _
  · exact proper_number _
  · exact .of_noMatrix rfl TokenKind.noConfusion
  · exact .of_noMatrix rfl TokenKind.noConfusion
  · exact .of_noMatrix rfl TokenKind.noConfusion

theorem proper_of_callFunction (keeps : registry.KeepsSizes limits allowed)
    (holds : store.Holds limits allowed) {f : Token}
    (isKnown : ∀ d ∈ f.function, d ∈ registry.functions) {args : List Token}
    (proper : ∀ x ∈ args, x.Proper allowed bound)
    (called : callFunction registry store f args = .ok t) : t.Proper allowed bound := by
  unfold callFunction at called
  split at called
  · cases called
  · rename_i d calls
    split_ifs at called
    · cases called
      exact .of_noMatrix rfl TokenKind.noConfusion
    · cases called
      exact .of_noMatrix rfl TokenKind.noConfusion
    · obtain ⟨received, taken, called⟩ := exists_of_bind_eq_ok called
      have sized := sized_of_bindArguments holds keeps (isKnown d calls)
        (fun x isMem ↦ (proper x isMem).sized) taken
      split at called
      · cases called
      · rename_i handler found
        split at called
        · rename_i output handed
          rw [holds.limits_eq] at handed
          have kept := keeps.handlers _ (mem_of_handler?_eq_some found) received output sized handed
          exact proper_of_wrapOutput kept called
        · cases called

/-! ### Operators -/

namespace Evaluation

variable {α β : Type} {P Q : α → Prop}

/-- Whether a computation leaves a store as it is if it returns, and something holds of what it
returns then. -/
def Computes (store : Store) (Q : α → Prop) (e : Evaluation α) : Prop :=
  ∀ a left, e.runOn store = (.ok a, left) → left = store ∧ Q a

theorem computes_pure {a : α} (holds : Q a) : Computes store Q (pure a) := by
  intro b left returns
  cases returns
  exact ⟨rfl, holds⟩

theorem computes_throw (error : EvalError) : Computes store Q (throw error) := by
  intro b left returns
  cases returns

theorem computes_ofExcept {result : Except EvalError α} (holds : ∀ a, result = .ok a → Q a) :
    Computes store Q (ofExcept result) := by
  intro a left returns
  rw [runOn_ofExcept] at returns
  exact ⟨(Prod.mk.inj returns).2.symm, holds a (Prod.mk.inj returns).1⟩

theorem computes_reading {f : Store → Except EvalError α} (holds : ∀ a, f store = .ok a → Q a) :
    Computes store Q (reading f) := by
  intro a left returns
  rw [runOn_reading] at returns
  exact ⟨(Prod.mk.inj returns).2.symm, holds a (Prod.mk.inj returns).1⟩

theorem Computes.bind {R : β → Prop} {e : Evaluation α} {f : α → Evaluation β}
    (first : Computes store Q e) (rest : ∀ a, Q a → Computes store R (f a)) :
    Computes store R (e >>= f) := by
  intro b left returns
  obtain ⟨a, middle, ran, goesOn⟩ := exists_of_runOn_bind returns
  obtain ⟨same, holds⟩ := first a middle ran
  exact rest a holds b left (same ▸ goesOn)

end Evaluation

section Operators

variable (holds : store.Holds limits allowed) (one : allowed 1)

include holds one

theorem proper_applyUnary (op : Operator) {x : Token} (proper : x.Proper allowed bound) :
    Computes store (Token.Proper allowed bound) (applyUnary op x) := by
  unfold applyUnary
  split
  · refine computes_reading fun t value ↦ ?_
    obtain ⟨a, isOperand, rfl⟩ := exists_of_map_eq_ok value
    have sized := sized_of_operand holds one proper.sized isOperand
    exact proper_of_comesFrom sized sized (comesFrom_negateOperand a)
  · refine computes_reading fun t value ↦ ?_
    obtain ⟨a, isOperand, rfl⟩ := exists_of_map_eq_ok value
    have sized := sized_of_operand holds one proper.sized isOperand
    cases a with
    | scalar x => exact proper_number x
    | grid v => exact proper_matrix sized
  · exact computes_throw _

omit holds one in
theorem proper_attachHint {left right : Token} (proper : right.Proper allowed bound)
    (value : attachHint left right = .ok t) : t.Proper allowed bound := by
  unfold attachHint at value
  split_ifs at value
  cases value
  exact ⟨proper.carries, proper.sized, proper.settled, proper.unnamed⟩

theorem proper_applyBinary {op : Operator} (noAssignment : op ≠ .assign) {left right : Token}
    (ofLeft : left.Proper allowed bound) (ofRight : right.Proper allowed bound) :
    Computes store (Token.Proper allowed bound) (applyBinary op left right) := by
  unfold applyBinary
  split
  · exact absurd rfl noAssignment
  · exact computes_ofExcept fun t ↦ proper_attachHint ofRight
  · refine computes_reading fun t value ↦ ?_
    obtain ⟨a, isLeft, value⟩ := exists_of_bind_eq_ok value
    obtain ⟨b, isRight, value⟩ := exists_of_bind_eq_ok value
    exact proper_of_comesFrom (sized_of_operand holds one ofLeft.sized isLeft)
      (sized_of_operand holds one ofRight.sized isRight) (comesFrom_binaryResult value)

theorem proper_applyOperator (noAssignment : t.operator ≠ some .assign) {operands : List Token}
    (proper : ∀ x ∈ operands, x.Proper allowed bound) :
    Computes store (Token.Proper allowed bound) (applyOperator t operands) := by
  rw [← List.reverse_reverse operands] at proper
  unfold applyOperator
  split
  · exact computes_throw _
  · exact computes_throw _
  · rename_i op x _ reversed
    rw [reversed] at proper
    exact proper_applyUnary holds one op (proper x (by simp))
  · rename_i op right left rest isOp reversed
    rw [reversed] at proper
    refine proper_applyBinary holds one ?_ (proper left (by simp)) (proper right (by simp))
    rintro rfl
    exact noAssignment isOp

end Operators

/-- An operator or a function puts a token in place of those that it takes. -/
theorem computes_taken {P : Token → Prop} {stack : List Token} {count : Nat} {what : String}
    {apply : List Token → Evaluation Token} (ofStack : ∀ x ∈ stack, P x)
    (applied : ∀ operands, (∀ x ∈ operands, P x) → Computes store P (apply operands)) :
    Computes store (fun stack : List Token ↦ ∀ x ∈ stack, P x) (do
      let (operands, below) ← (ofExcept (takeOperands stack count what) : Evaluation _)
      return (← apply operands) :: below) := by
  refine Computes.bind (Q := fun taken ↦ (∀ x ∈ taken.1, P x) ∧ ∀ x ∈ taken.2, P x)
    (computes_ofExcept fun taken ↦ forall_mem_takeOperands ofStack) fun taken parts ↦ ?_
  refine (applied taken.1 parts.1).bind fun result ofResult ↦ computes_pure ?_
  exact List.forall_mem_cons.mpr ⟨ofResult, parts.2⟩

/-- A token that assigns nothing leaves the store and proper values on the stack. -/
theorem proper_evaluateToken (keeps : registry.KeepsSizes limits allowed)
    (holds : store.Holds limits allowed) (evaluable : t.Evaluable registry)
    (noAssignment : t.assigns = false) {stack : List Token}
    (proper : ∀ x ∈ stack, x.Proper allowed bound) :
    Computes store (fun stack : List Token ↦ ∀ x ∈ stack, x.Proper allowed bound)
      (evaluateToken registry stack t) := by
  unfold evaluateToken
  split
  · rename_i isOperator
    have notSign : t.operator ≠ some .assign := by
      simpa [Token.assigns, Token.isOperator, isOperator] using noAssignment
    exact computes_taken proper fun operands ↦ proper_applyOperator holds keeps.one notSign
  · rename_i isFunction
    have isKnown := evaluable.mem_functions isFunction
    have called (args : List Token) (ofArgs : ∀ x ∈ args, x.Proper allowed bound) :
        Computes store (Token.Proper allowed bound)
          (reading fun store ↦ callFunction registry store t args) :=
      computes_reading fun result ↦ proper_of_callFunction keeps holds isKnown ofArgs
    exact computes_taken proper called
  · rename_i noOperator noFunction
    exact computes_pure
      (List.forall_mem_cons.mpr ⟨evaluable.proper ⟨noOperator, noFunction⟩, proper⟩)

theorem proper_evaluateTokens (bound : String → Value → Prop)
    (keeps : registry.KeepsSizes limits allowed) (holds : store.Holds limits allowed)
    {tokens : List Token} (evaluable : ∀ t ∈ tokens, t.Evaluable registry)
    (noAssignment : ∀ t ∈ tokens, t.assigns = false)
    {stack : List Token} (proper : ∀ x ∈ stack, x.Proper allowed bound) :
    Computes store (fun stack : List Token ↦ ∀ x ∈ stack, x.Proper allowed bound)
      (evaluateTokens registry stack tokens) := by
  induction tokens generalizing stack with
  | nil => exact computes_pure proper
  | cons t rest ih =>
    rw [List.forall_mem_cons] at evaluable noAssignment
    exact (proper_evaluateToken keeps holds evaluable.1 noAssignment.1 proper).bind
      fun stack ↦ ih evaluable.2 noAssignment.2

/-! ### The equals sign -/

theorem holds_of_insert (holds : store.Holds limits allowed) {name : String} {v : Value}
    (sized : v.Sized allowed) {after : Store} (inserted : store.insert name v = .ok after) :
    after.Holds limits allowed where
  limits_eq := by
    rcases Store.insert_cases inserted with rfl | ⟨-, same, -⟩
    · exact holds.limits_eq
    · exact same.trans holds.limits_eq
  sized key w isBound := by
    rw [Store.get?_insert inserted] at isBound
    split_ifs at isBound
    · cases isBound
      exact sized
    · exact holds.sized key w isBound

/-- An assignment that succeeds binds the name to a value and hands back both. -/
theorem exists_of_runOn_assign {left right : Token} {after : Store}
    (ran : (assign left right).runOn store = (.ok t, after)) :
    ∃ v, assignedValue store right = .ok v ∧ store.insert left.name v = .ok after ∧
      t = .boundRef left.name v := by
  unfold assign at ran
  split at ran
  · cases ran
  · obtain ⟨v, middle, read, ran⟩ := exists_of_runOn_bind ran
    rw [runOn_reading] at read
    obtain ⟨assigned, rfl⟩ := Prod.mk.inj read
    obtain ⟨_, last, isBound, ran⟩ := exists_of_runOn_bind ran
    rw [runOn_bindName] at isBound
    split at isBound
    · rename_i inserted
      cases isBound
      cases ran
      exact ⟨v, assigned, inserted, rfl⟩
    · cases isBound

theorem sized_of_assignedValue (holds : store.Holds limits allowed) (one : allowed 1)
    (sized : ∀ v ∈ t.payload.carried, v.Sized allowed) {v : Value}
    (assigned : assignedValue store t = .ok v) : v.Sized allowed := by
  unfold assignedValue at assigned
  split at assigned
  · cases assigned
    exact ⟨one, one⟩
  · cases assigned
  · exact sized_of_resolve holds sized assigned
  · rename_i isMatrix _
    cases assigned
    rw [isMatrix] at sized
    exact sized v List.mem_cons_self
  · cases assigned

/-- Whether a name is bound to a value. -/
def Store.Binds (s : Store) (name : String) (v : Value) : Prop :=
  s.get? name = some v

/-- An equals sign binds the name that it hands back, and no other value on the stack has a name. -/
theorem proper_of_evaluateToken_assigns (one : allowed 1) (holds : store.Holds limits allowed)
    (isSign : t.assigns = true) {stack after : List Token}
    (proper : ∀ x ∈ stack, x.Proper allowed fun _ _ ↦ False) {left : Store}
    (ran : (evaluateToken registry stack t).runOn store = (.ok after, left)) :
    left.Holds limits allowed ∧ ∀ x ∈ after, x.Proper allowed left.Binds := by
  obtain ⟨isOperator, isAssign⟩ : t.kind = .operator ∧ t.operator = some .assign := by
    simpa [Token.assigns, Token.isOperator] using isSign
  unfold evaluateToken at ran
  rw [isOperator] at ran
  obtain ⟨⟨operands, below⟩, middle, first, goesOn⟩ := exists_of_runOn_bind ran
  rw [runOn_ofExcept] at first
  obtain ⟨taken, rfl⟩ := Prod.mk.inj first
  obtain ⟨ofOperands, ofBelow⟩ := forall_mem_takeOperands proper taken
  obtain ⟨result, last, applied, returns⟩ := exists_of_runOn_bind goesOn
  cases returns
  rw [← List.reverse_reverse operands] at ofOperands
  unfold applyOperator at applied
  rw [isAssign] at applied
  rcases reversed : operands.reverse with _ | ⟨right, _ | ⟨target, rest⟩⟩
  · rw [reversed] at applied
    cases applied
  · rw [reversed] at applied
    cases applied
  · rw [reversed] at applied ofOperands
    obtain ⟨v, assigned, inserted, rfl⟩ := exists_of_runOn_assign applied
    have sized := sized_of_assignedValue holds one (ofOperands right (by simp)).sized assigned
    refine ⟨holds_of_insert holds sized inserted, List.forall_mem_cons.mpr ⟨?_, ?_⟩⟩
    · refine proper_boundRef sized fun _ ↦ ?_
      rw [Store.Binds, Store.get?_insert inserted, if_pos rfl]
    · exact fun x isMem ↦ (ofBelow x isMem).of_unbound

/-- Evaluation leaves proper values, and names that the store binds to them. -/
theorem proper_of_evaluateTokens (keeps : registry.KeepsSizes limits allowed)
    (holds : store.Holds limits allowed) {tokens : List Token}
    (evaluable : ∀ t ∈ tokens, t.Evaluable registry) (single : tokens.countP Token.assigns ≤ 1)
    {stack : List Token} {left : Store}
    (ran : (evaluateTokens registry [] tokens).runOn store = (.ok stack, left)) :
    left.Holds limits allowed ∧ ∀ x ∈ stack, x.Proper allowed left.Binds := by
  rcases assignment_cases single with none | ⟨front, sign, back, rfl, isSign, inFront, inBack⟩
  · obtain ⟨rfl, proper⟩ := proper_evaluateTokens store.Binds keeps holds evaluable none
      (List.forall_mem_nil _) stack left ran
    exact ⟨holds, proper⟩
  · rw [List.forall_mem_append, List.forall_mem_cons] at evaluable
    rw [evaluateTokens_append] at ran
    obtain ⟨before, first, ranFront, ran⟩ := exists_of_runOn_bind ran
    obtain ⟨same, ofFront⟩ := proper_evaluateTokens (fun _ _ ↦ False) keeps holds evaluable.1
      inFront (List.forall_mem_nil _) before first ranFront
    obtain ⟨behind, second, ranSign, ran⟩ := exists_of_runOn_bind ran
    obtain ⟨holdsThen, ofSign⟩ :=
      proper_of_evaluateToken_assigns keeps.one holds isSign ofFront (same ▸ ranSign)
    obtain ⟨rfl, ofBack⟩ :=
      proper_evaluateTokens second.Binds keeps holdsThen evaluable.2.2 inBack ofSign stack left ran
    exact ⟨holdsThen, ofBack⟩

/-! ### Results -/

/-- A bare name stands for what the store binds to it. -/
theorem binds_of_resolve {v : Value} (isBare : t.payload = .null)
    (resolved : t.resolve store = .ok v) : store.Binds t.name v := by
  unfold Token.resolve at resolved
  rw [isBare] at resolved
  dsimp only at resolved
  split at resolved
  · rename_i isBound
    cases resolved
    split_ifs at isBound
    exact isBound
  · rename_i isMatrix
    cases isMatrix
  · cases resolved

/-- What is left on the stack is a value, once a name has been looked up. -/
theorem proper_of_stackResult (holds : store.Holds limits allowed) {stack : List Token}
    (proper : ∀ x ∈ stack, x.Proper allowed store.Binds)
    (value : stackResult store stack = .ok t) :
    t.Proper allowed store.Binds ∧ t.kind.carries t.payload = true := by
  unfold stackResult at value
  split at value
  · cases value
  · rename_i x
    have ofThis := proper x List.mem_cons_self
    unfold lookUp at value
    split_ifs at value with isName
    · obtain ⟨v, resolved, rfl⟩ := exists_of_map_eq_ok value
      have isBare : x.payload = .null := by
        revert isName
        cases x.payload <;> simp [Payload.isNull]
      exact ⟨proper_boundRef (sized_of_resolve holds ofThis.sized resolved)
        fun _ ↦ binds_of_resolve isBare resolved, rfl⟩
    · cases value
      refine ⟨ofThis, ofThis.carries.resolve_right fun isBare ↦ isName ⟨isBare.1, ?_⟩⟩
      rw [isBare.2]
      rfl
  · cases value

theorem proper_of_evaluateExpression (keeps : registry.KeepsSizes limits allowed)
    (holds : store.Holds limits allowed) {text : List Char} {left : Store}
    (ran : (evaluateExpression registry text).runOn store = (.ok t, left)) :
    left.Holds limits allowed ∧ t.Proper allowed left.Binds ∧
      t.kind.carries t.payload = true := by
  obtain ⟨out, stack, ordered, done, value⟩ := exists_of_runOn_evaluateExpression ran
  obtain ⟨holdsThen, proper⟩ := proper_of_evaluateTokens keeps holds
    (evaluable_of_postfixOf ordered) (countP_assigns_postfixOf ordered) done
  exact ⟨holdsThen, proper_of_stackResult holdsThen proper value⟩

theorem holds_of_forM {bindings : List (String × Value)} (holds : store.Holds limits allowed)
    (sized : ∀ binding ∈ bindings, binding.2.Sized allowed) {left : Store} {done : Unit}
    (ran : (bindings.forM fun binding ↦ bindName binding.1 binding.2).runOn store =
      (.ok done, left)) : left.Holds limits allowed := by
  induction bindings generalizing store with
  | nil =>
    cases ran
    exact holds
  | cons binding rest ih =>
    rw [List.forall_mem_cons] at sized
    obtain ⟨_, middle, first, ran⟩ := exists_of_runOn_bind ran
    rw [runOn_bindName] at first
    split at first
    · rename_i inserted
      cases first
      exact ih (holds_of_insert holds sized.1 inserted) sized.2 ran
    · cases first

/-- An assignment to several names hands the matrices back without a name. -/
theorem proper_of_assignMany (holds : store.Holds limits allowed) {result : Token}
    (sized : ∀ v ∈ result.payload.carried, v.Sized allowed) {names : List String} {left : Store}
    (ran : (assignMany names result).runOn store = (.ok t, left)) :
    left.Holds limits allowed ∧ t.Proper allowed left.Binds ∧
      t.kind.carries t.payload = true := by
  unfold assignMany at ran
  split at ran
  · rename_i values areMatrices
    rw [areMatrices] at sized
    split_ifs at ran
    · cases ran
    · obtain ⟨done, middle, bound, ran⟩ := exists_of_runOn_bind ran
      cases ran
      have ofValues : ∀ binding ∈ names.zip values, binding.2.Sized allowed :=
        fun binding isMem ↦ sized _ (List.of_mem_zip isMem).2
      exact ⟨holds_of_forM holds ofValues bound, proper_matrices sized, rfl⟩
  · cases ran

theorem proper_of_compile (keeps : registry.KeepsSizes limits allowed)
    (holds : store.Holds limits allowed) {text : String} {left : Store}
    (compiled : compile registry text store = (.ok t, left)) :
    left.Holds limits allowed ∧ t.Proper allowed left.Binds ∧
      t.kind.carries t.payload = true := by
  rw [compile_eq] at compiled
  split_ifs at compiled
  · cases compiled
  · split at compiled
    · cases compiled
    · exact proper_of_evaluateExpression keeps holds compiled
    · obtain ⟨result, middle, ran, compiled⟩ := exists_of_runOn_bind compiled
      obtain ⟨holdsThen, proper, -⟩ := proper_of_evaluateExpression keeps holds ran
      exact proper_of_assignMany holdsThen proper.sized compiled

/-- Whether a token is a result over the store that is left. -/
structure Token.IsResult (left : Store) (t : Token) : Prop where
  /-- It is a value, with the payload of its kind. -/
  carries : t.kind.carries t.payload = true
  /-- A matrix under a name is what the store binds to the name. -/
  binds : t.kind = .matrixRef → t.name ≠ "" → ∃ v, t.payload = .matrix v ∧ left.Binds t.name v

/-- What a text comes to is a proper value, whatever the registry, its handlers and the store. -/
theorem isResult_of_compile (registry : Registry) (text : String) (store : Store) {t : Token}
    {left : Store} (compiled : compile registry text store = (.ok t, left)) : t.IsResult left := by
  have sized (v : Value) : v.Sized fun _ ↦ True := ⟨trivial, trivial⟩
  have keeps : registry.KeepsSizes store.limits fun _ ↦ True :=
    ⟨trivial, fun _ _ _ _ _ _ v _ ↦ sized v, fun _ _ _ _ _ _ v _ ↦ sized v⟩
  obtain ⟨-, proper, carries⟩ := proper_of_compile keeps ⟨rfl, fun _ v _ ↦ sized v⟩ compiled
  refine ⟨carries, fun isMatrix named ↦ ?_⟩
  rw [isMatrix] at carries
  cases payload : t.payload with
  | matrix v => exact ⟨v, rfl, proper.settled v payload named⟩
  | matrices vs => exact absurd (proper.unnamed vs payload) named
  | null | number | text =>
    rw [payload] at carries
    cases carries

/-- A matrix that is bound to a second name is handed back under that name. -/
theorem isResult_renamed :
    let store : Store := ⟨{}, [("A", .matrix (.scalar 1.0))], by decide⟩
    ∃ t left, compile .empty "B = A" store = (.ok t, left) ∧
      t.kind = .matrixRef ∧ t.name = "B" ∧ t.IsResult left := by
  intro store
  have renames : (compile .empty "B = A" store).1.toOption.any
      (fun t ↦ t.kind = .matrixRef ∧ t.name = "B") = true := by decide +kernel
  rcases compiled : compile .empty "B = A" store with ⟨error | t, left⟩
  · rw [compiled] at renames
    cases renames
  · rw [compiled] at renames
    obtain ⟨isMatrix, isNamed⟩ : t.kind = .matrixRef ∧ t.name = "B" := of_decide_eq_true renames
    exact ⟨t, left, rfl, isMatrix, isNamed, isResult_of_compile _ _ _ compiled⟩

end MatrixCalculator
