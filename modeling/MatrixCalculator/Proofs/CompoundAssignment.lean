import MatrixCalculator.Proofs.ArithmeticOperands
import MatrixCalculator.Proofs.CompoundReading
import MatrixCalculator.Proofs.GroupOrder
import MatrixCalculator.Proofs.MissingOperators
import MatrixCalculator.Proofs.OperandsFound
import MatrixCalculator.Proofs.StoreGrowth

/-!
# What a compound assignment binds

`NAME op= EXPR` binds the name to what the operator makes of its old value and the value of the
expression (`compile_compound_assignment`), provided that the expression is self-contained: it
closes no parenthesis that it has not opened, and its operators and functions find their operands.
The parentheses that are written around an expression do not make it so. They can be closed and
opened again by the expression, and its operators can reach for the name in front of it
(`compound_assignment_completes_text`). An expression that has a value by itself is self-contained
(`selfContained_of_compile`).
-/

set_option autoImplicit false

namespace MatrixCalculator

open Evaluation

variable {registry : Registry}

/-! ### The operators of compound assignments -/

namespace Operator

/-- The operators of compound assignments. -/
def compounds : List Operator :=
  [add, subtract, multiply, divide, modulo, power]

theorem exists_of_mem_compounds {op : Operator} (isMem : op ∈ compounds) :
    ∃ c, op.symbol.toList = [c] ∧ Assignment.isCompound c = true ∧ ofSymbol? [c] = some op := by
  simp only [compounds, List.mem_cons, List.not_mem_nil, or_false] at isMem
  rcases isMem with rfl | rfl | rfl | rfl | rfl | rfl <;> exact ⟨_, rfl, rfl, rfl⟩

theorem arity_of_mem_compounds {op : Operator} (isMem : op ∈ compounds) : op.arity = 2 := by
  simp only [compounds, List.mem_cons, List.not_mem_nil, or_false] at isMem
  rcases isMem with rfl | rfl | rfl | rfl | rfl | rfl <;> rfl

theorem isArithmetic_of_mem_compounds {op : Operator} (isMem : op ∈ compounds) :
    op.isArithmetic = true := by
  simp only [compounds, List.mem_cons, List.not_mem_nil, or_false] at isMem
  rcases isMem with rfl | rfl | rfl | rfl | rfl | rfl <;> rfl

/-- These are all the characters that an equals sign may follow. -/
theorem isCompound_iff (c : Char) :
    Assignment.isCompound c = true ↔ ∃ op ∈ compounds, op.symbol.toList = [c] := by
  constructor
  · intro isOp
    simp only [Assignment.isCompound, Bool.or_eq_true, beq_iff_eq] at isOp
    rcases isOp with ((((rfl | rfl) | rfl) | rfl) | rfl) | rfl
    · exact ⟨subtract, by decide, rfl⟩
    · exact ⟨add, by decide, rfl⟩
    · exact ⟨multiply, by decide, rfl⟩
    · exact ⟨divide, by decide, rfl⟩
    · exact ⟨modulo, by decide, rfl⟩
    · exact ⟨power, by decide, rfl⟩
  · rintro ⟨op, isMem, written⟩
    obtain ⟨d, writtenToo, isOp, -⟩ := exists_of_mem_compounds isMem
    obtain rfl : d = c := (List.cons.inj (writtenToo.symm.trans written)).1
    exact isOp

end Operator

section Arithmetic

variable {op : Operator} {value : Value} {b : Operand} {t : Token}

theorem applyBinary_of_mem_compounds (isMem : op ∈ Operator.compounds) (left right : Token) :
    applyBinary op left right = (reading fun store ↦ do
      let a ← operand store op.symbol left
      let b ← operand store op.symbol right
      binaryResult op a b) :=
  applyBinary_of_isArithmetic (Operator.isArithmetic_of_mem_compounds isMem) left right

theorem exists_of_evaluate (operation : Arithmetic)
    (result : operation.evaluate (.grid value) b = .ok t) : ∃ m, t = .plainMatrix m := by
  cases b with
  | scalar y => exact ⟨_, (Except.ok.inj result).symm⟩
  | grid other =>
    rw [Arithmetic.evaluate] at result
    split at result
    · exact ⟨_, (Except.ok.inj result).symm⟩
    · cases result

theorem exists_of_moduloOperands (result : moduloOperands (.grid value) b = .ok t) :
    ∃ m, t = .plainMatrix m := by
  cases b with
  | scalar y => exact ⟨_, (Except.ok.inj result).symm⟩
  | grid other =>
    rw [moduloOperands] at result
    split at result
    · exact ⟨_, (Except.ok.inj result).symm⟩
    · cases result

theorem exists_of_powerOperands (result : powerOperands (.grid value) b = .ok t) :
    ∃ m, t = .plainMatrix m := by
  rw [powerOperands] at result
  split at result
  · cases result
  · exact ⟨_, (Except.ok.inj result).symm⟩

/-- Of a matrix and anything else these operators make a matrix without labels. -/
theorem exists_of_binaryResult (isMem : op ∈ Operator.compounds)
    (result : binaryResult op (.grid value) b = .ok t) : ∃ m, t = .plainMatrix m := by
  simp only [Operator.compounds, List.mem_cons, List.not_mem_nil, or_false] at isMem
  rcases isMem with rfl | rfl | rfl | rfl | rfl | rfl
  · exact exists_of_evaluate .add result
  · exact exists_of_evaluate .subtract result
  · exact exists_of_evaluate .multiply result
  · exact exists_of_evaluate .divide result
  · exact exists_of_moduloOperands result
  · exact exists_of_powerOperands result

end Arithmetic

/-! ### Operands -/

section Operands

variable {store left : Store} {symbol : String} {b : Operand} {t : Token}

/-- A name is an operand if it is bound, with the value that it is bound to. -/
theorem exists_of_operand_matrixRef {name : String} (notEmpty : name ≠ "")
    (isOperand : operand store symbol (.matrixRef name) = .ok b) :
    ∃ value, store.get? name = some value ∧ b = .grid value := by
  have named : name.isEmpty = false := by simpa using notEmpty
  change ((Token.matrixRef name).resolve store).map Operand.grid = .ok b at isOperand
  obtain ⟨value, resolved, rfl⟩ := exists_of_map_eq_ok isOperand
  simp only [Token.resolve, Token.matrixRef, named] at resolved
  rcases bound : store.get? name with _ | found
  · simp [bound] at resolved
  · simp only [bound] at resolved
    exact ⟨value, by rw [← Except.ok.inj resolved], rfl⟩

theorem operand_matrix (store : Store) (symbol : String) (value : Value) :
    operand store symbol (.matrix value) = .ok (.grid value) := rfl

/-- What is an operand has a value, and that is the same operand. -/
theorem exists_of_lookUp (isOperand : operand store symbol t = .ok b) :
    ∃ value, lookUp store t = .ok value ∧ operand store symbol value = .ok b := by
  unfold lookUp
  split_ifs with isBare
  · obtain ⟨kind, payload, name, _⟩ := t
    obtain ⟨rfl, noValue⟩ : kind = .matrixRef ∧ payload.isNull = true := isBare
    cases payload <;> cases noValue
    obtain ⟨value, resolved, rfl⟩ := exists_of_map_eq_ok isOperand
    have bound : store.get? name = some value := binds_of_resolve rfl resolved
    refine ⟨.boundRef name value, by rw [resolved]; rfl, ?_⟩
    have again : (Token.boundRef name value).resolve store = .ok value := by
      cases isNamed : name.isEmpty <;> simp [Token.resolve, Token.boundRef, isNamed, bound]
    change ((Token.boundRef name value).resolve store).map Operand.grid = _
    rw [again]
    rfl
  · exact ⟨t, rfl, isOperand⟩

/-- Assigning a matrix without labels binds it. -/
theorem get?_of_runOn_assign_plainMatrix {name : String} {m : Matrix Float}
    (assigned : (assign (.matrixRef name) (.plainMatrix m)).runOn store = (.ok t, left)) :
    left.get? name = some (.matrix m) := by
  obtain ⟨value, isValue, inserted, -⟩ := exists_of_runOn_assign assigned
  obtain rfl : Value.matrix m = value := Except.ok.inj isValue
  rw [Store.get?_insert inserted]
  exact if_pos rfl

end Operands

/-! ### Self-contained expressions -/

/-- Whether an expression closes no parenthesis that it has not opened, and its operators and
functions find their operands when it is evaluated by itself. -/
structure SelfContained (registry : Registry) (store : Store) (e : List Char) : Prop where
  balanced : postfixOf registry store e ≠ .error (.parse .unmatchedRightBrace)
  served : ∀ out, postfixOf registry store e = .ok out → findsOperands 0 out = true

/-- An expression that has a value by itself is self-contained. -/
theorem selfContained_of_compile {store left : Store} {e : String} {value : Token}
    (noEquals : '=' ∉ e.toList) (compiled : compile registry e store = (.ok value, left)) :
    SelfContained registry store e.toList := by
  rw [compile_eq, multiAssignment?_of_not_mem noEquals] at compiled
  split_ifs at compiled
  · cases compiled
  · obtain ⟨out, stack, ordered, ran, -⟩ := exists_of_runOn_evaluateExpression compiled
    refine ⟨by simp [ordered], fun other isOrder ↦ ?_⟩
    obtain rfl := Except.ok.inj (ordered.symm.trans isOrder)
    exact findsOperands_of_runOn ran

/-! ### The postfix order -/

section Order

open Text

variable {name e : List Char} {c : Char} {op : Operator} {store : Store}

/-- A compound assignment assigns to one name. -/
theorem multiAssignment?_compound (isName : Name.isIdentifier name = true)
    (isOp : Assignment.isCompound c = true) (several : List (List Char) × List Char) :
    multiAssignment? (Assignment.compound name c e) ≠ .ok (some several) := by
  intro isSeveral
  obtain ⟨left, parted, comma, -⟩ := exists_of_multiAssignment? isSeveral
  obtain ⟨before, behind, same, noneBefore, -, rfl, -⟩ :=
    Assignment.exists_of_split_eq_some parted
  have foreign {d : Char} (noRest : Name.isRest d = false) (notOp : Assignment.isCompound d = false)
      (visible : isBlank d = false) : d ∉ name ++ [' ', c] := by
    have notSpace : d ≠ ' ' := by rintro rfl; cases visible
    have notOp : d ≠ c := by rintro rfl; rw [isOp] at notOp; cases notOp
    simpa [notSpace, notOp] using Name.not_mem_of_isIdentifier isName noRest
  have written : Assignment.compound name c e = (name ++ [' ', c]) ++ '=' :: ' ' :: e := by
    simp [Assignment.compound]
  obtain ⟨rfl, -⟩ := Assignment.append_cons_inj (foreign (by decide) (by decide) (by decide))
    noneBefore (written.symm.trans same)
  rw [← List.count_pos_iff, count_trim rfl, List.count_pos_iff] at comma
  exact foreign (by decide) (by decide) (by decide) comma

/-- The tokens in postfix order of a compound assignment whose expression has the tokens `inner`. -/
def compoundTokens (name : String) (op : Operator) (inner : List Token) : List Token :=
  .matrixRef name ::
    (.matrixRef name :: (inner ++ [.ofOperator op]) ++ [.ofOperator .assign])

theorem ne_assign_of_isCompound (isOp : Assignment.isCompound c = true)
    (stands : Operator.ofSymbol? [c] = some op) : op ≠ .assign := by
  rintro rfl
  obtain rfl : c = '=' := by simpa using (Token.ofSymbol?_eq_assign_iff [c]).mp stands
  cases isOp

/-- All that is written on the right side of a compound assignment binds more tightly than the
equals sign. -/
theorem priority_of_mem_rightSide (name : String) (noAssignment : op ≠ .assign)
    {names : String → Prop} {tokens : List Token} (lexical : ∀ t ∈ tokens, t.Lexical names) :
    ∀ t ∈ Token.matrixRef name :: .ofOperator op :: .leftBrace :: (tokens ++ [.rightBrace]),
      t.kind = .operator → 0 < t.priority := by
  have areLexical : ∀ t ∈ Token.matrixRef name :: .ofOperator op :: .leftBrace ::
      (tokens ++ [.rightBrace]), t.Lexical fun _ ↦ True := by
    simp only [List.forall_mem_cons, List.forall_mem_append]
    exact ⟨.name name trivial, .operator op noAssignment, .leftBrace,
      fun t isMem ↦ (lexical t isMem).mono fun _ _ ↦ trivial, .rightBrace, by simp⟩
  exact fun t isMem isOperator ↦ (noAssignment_of_lexical (areLexical t isMem) isOperator).2

/-- In the postfix order of a compound assignment stand the tokens of its expression, in the order
that they have by themselves or in one with more weight. -/
theorem exists_of_postfixOf_compound (isName : Name.isIdentifier name = true)
    (isOp : Assignment.isCompound c = true) (stands : Operator.ofSymbol? [c] = some op)
    (noEquals : '=' ∉ e) (selfContained : SelfContained registry store e) {out : List Token}
    (ordered : postfixOf registry store (Assignment.compound name c e) = .ok out) :
    squeeze e ≠ [] ∧ ∃ inner own, postfixOf registry store e = .ok own ∧
      out = compoundTokens (String.ofList name) op inner ∧
      (own = inner ∨ own ≠ [] ∧ totalWeight own < totalWeight inner) := by
  obtain ⟨all, read, isPostfix⟩ := exists_of_postfixOf ordered
  obtain ⟨visible, tokens, ownRead, rfl⟩ := Token.readAll_compound isName isOp stands noEquals read
  have alone : postfixOf registry store e = (toPostfix tokens).mapError .parse := by
    rw [postfixOf, ownRead]
    rfl
  have bind := priority_of_mem_rightSide (String.ofList name) (ne_assign_of_isCompound isOp stands)
    fun t isMem ↦ Token.lexical_of_mem_readAll_of_not_mem noEquals ownRead t isMem
  have uncounted : ∀ t ∈ tokens, t.kind = .function → t.argCount = 0 :=
    fun t isMem ↦ (isFresh_of_readAll ownRead t isMem).2
  obtain ⟨rightOut, rightOrdered, rfl⟩ := exists_of_toPostfix_assignment rfl bind isPostfix
  rcases exists_of_toPostfix_group rfl rfl uncounted rightOrdered with
    refused | ⟨inner, own, rfl, ownOrdered, compares⟩
  · rw [refused] at alone
    exact absurd alone selfContained.balanced
  · rw [ownOrdered] at alone
    exact ⟨visible, inner, own, alone, rfl, compares⟩

end Order

/-! ### The evaluation -/

/-- A compound assignment evaluates its expression above the name twice, applies the operator and
assigns. -/
theorem evaluateTokens_compoundTokens (name : String) (op : Operator) {own : List Token}
    (finds : findsOperands 0 own = true) :
    evaluateTokens registry [] (compoundTokens name op own) = (do
      let stack ← evaluateTokens registry [] own
      let stack ← evaluateToken registry (stack ++ [.matrixRef name, .matrixRef name])
        (.ofOperator op)
      evaluateToken registry stack (.ofOperator .assign)) := by
  have put : evaluateToken registry [.matrixRef name] (.matrixRef name) =
      pure [.matrixRef name, .matrixRef name] := rfl
  have fromNone : findsOperands ([] : List Token).length own = true := finds
  have above : evaluateTokens registry [.matrixRef name, .matrixRef name] own =
      (· ++ [.matrixRef name, .matrixRef name]) <$> evaluateTokens registry [] own :=
    evaluateTokens_above fromNone _
  rw [compoundTokens, evaluateTokens_assignment, evaluateTokens, put, pure_bind,
    evaluateTokens_append, above, bind_map_left, bind_assoc]
  simp only [evaluateTokens_singleton]

theorem weight_ofOperator {op : Operator} (binary : op.arity = 2) :
    (Token.ofOperator op).weight = -1 := by
  simp [Token.weight_eq, Token.operandCount, Token.ofOperator, binary]

/-- A compound assignment leaves as much on the stack as its expression. -/
theorem totalWeight_compoundTokens {op : Operator} (binary : op.arity = 2) (name : String)
    (inner : List Token) : totalWeight (compoundTokens name op inner) = totalWeight inner := by
  have ofName : (Token.matrixRef name).weight = 1 := rfl
  have ofAssign : (Token.ofOperator .assign).weight = -1 := weight_ofOperator rfl
  simp only [compoundTokens, totalWeight_cons, totalWeight_append, totalWeight_nil, ofName,
    weight_ofOperator binary, ofAssign]
  omega

/-- The operator is applied to the name and to what the expression leaves on the stack. -/
theorem exists_of_runOn_operator {op : Operator} (isMem : op ∈ Operator.compounds) {name : String}
    (notEmpty : name ≠ "") {v : Token} {rest out : List Token} {store left : Store}
    (ran : (evaluateToken registry (v :: .matrixRef name :: rest) (.ofOperator op)).runOn store =
      (.ok out, left)) :
    ∃ old b new, store.get? name = some old ∧ operand store op.symbol v = .ok b ∧
      binaryResult op (.grid old) b = .ok (.plainMatrix new) ∧
      out = .plainMatrix new :: rest ∧ left = store := by
  have applied := evaluateToken_ofOperator registry op [.matrixRef name, v]
    (Operator.arity_of_mem_compounds isMem).symm rest
  change evaluateToken registry (v :: .matrixRef name :: rest) _ =
    (· :: rest) <$> applyBinary op (.matrixRef name) v at applied
  rw [applied, applyBinary_of_mem_compounds isMem, runOn_map, runOn_reading] at ran
  obtain ⟨value, rfl⟩ := Prod.mk.inj ran
  obtain ⟨t, result, rfl⟩ := exists_of_map_eq_ok value
  obtain ⟨a, ofName, result⟩ := exists_of_bind_eq_ok result
  obtain ⟨b, ofValue, result⟩ := exists_of_bind_eq_ok result
  obtain ⟨old, bound, rfl⟩ := exists_of_operand_matrixRef notEmpty ofName
  obtain ⟨new, rfl⟩ := exists_of_binaryResult isMem result
  exact ⟨old, b, new, bound, ofValue, result, rfl, rfl⟩

/-- What a compound assignment binds if it leaves one value on the stack. -/
theorem exists_of_runOn_compoundTokens {op : Operator} (isMem : op ∈ Operator.compounds)
    {name : String} (notEmpty : name ≠ "") {own : List Token}
    (finds : findsOperands 0 own = true)
    (noAssignment : ∀ t ∈ own, t.kind = .operator → t.operator ≠ some .assign)
    {t : Token} {store left : Store}
    (ran : (evaluateTokens registry [] (compoundTokens name op own)).runOn store =
      (.ok [t], left)) :
    ∃ v old b new, (evaluateTokens registry [] own).runOn store = (.ok [v], store) ∧
      store.get? name = some old ∧ operand store op.symbol v = .ok b ∧
      binaryResult op (.grid old) b = .ok (.plainMatrix new) ∧
      left.get? name = some (.matrix new) := by
  have whole := length_of_runOn_evaluateTokens registry ran
  rw [evaluateTokens_compoundTokens name op finds] at ran
  obtain ⟨stack, middle, ranOwn, ran⟩ := exists_of_runOn_bind ran
  obtain ⟨applied, last, ranOperator, ranAssign⟩ := exists_of_runOn_bind ran
  obtain rfl : middle = store := by
    have reads : OnlyReads (evaluateTokens registry [] own) :=
      onlyReads_evaluateTokens noAssignment []
    have same := reads store
    rwa [ranOwn] at same
  have deep := length_of_runOn_evaluateTokens registry ranOwn
  rw [← totalWeight_compoundTokens (Operator.arity_of_mem_compounds isMem) name, ← whole] at deep
  obtain ⟨v, rfl⟩ : ∃ v, stack = [v] := by
    rw [← List.length_eq_one_iff]
    exact_mod_cast deep
  obtain ⟨old, b, new, bound, ofValue, result, rfl, rfl⟩ :=
    exists_of_runOn_operator isMem notEmpty ranOperator
  refine ⟨v, old, b, new, ranOwn, bound, ofValue, result, ?_⟩
  have assigned := evaluateToken_ofOperator registry .assign
    [.matrixRef name, .plainMatrix new] rfl []
  change evaluateToken registry [.plainMatrix new, .matrixRef name] _ =
    (· :: []) <$> assign (.matrixRef name) (.plainMatrix new) at assigned
  rw [assigned, runOn_map] at ranAssign
  obtain ⟨value, rfl⟩ := Prod.mk.inj ranAssign
  obtain ⟨u, isResult, -⟩ := exists_of_map_eq_ok value
  exact get?_of_runOn_assign_plainMatrix (Prod.ext isResult rfl)

/-! ### Compiling -/

section Compiling

variable {name e : List Char} {c : Char} {op : Operator} {result : Token} {store after : Store}

theorem runOn_of_compile_compound {text : String}
    (written : text.toList = Assignment.compound name c e)
    (isName : Name.isIdentifier name = true) (isOp : Assignment.isCompound c = true)
    (compiled : compile registry text store = (.ok result, after)) :
    (evaluateExpression registry (Assignment.compound name c e)).runOn store =
      (.ok result, after) := by
  rw [compile_eq, written] at compiled
  split_ifs at compiled
  · cases compiled
  · rcases several : multiAssignment? (Assignment.compound name c e) with error | none | parts
    · rw [several] at compiled
      cases compiled
    · rwa [several] at compiled
    · exact absurd several (multiAssignment?_compound isName isOp parts)

theorem exists_of_stackResult {stack : List Token} (value : stackResult store stack = .ok result) :
    ∃ t, stack = [t] := by
  rcases stack with _ | ⟨t, _ | ⟨u, rest⟩⟩
  · cases value
  · exact ⟨t, rfl⟩
  · cases value

/-- A compound assignment that has a value is evaluated with the tokens that its expression has by
itself, if the expression is self-contained. -/
theorem exists_of_runOn_compound (isName : Name.isIdentifier name = true)
    (isOp : Assignment.isCompound c = true) (stands : Operator.ofSymbol? [c] = some op)
    (binary : op.arity = 2) (noEquals : '=' ∉ e)
    (selfContained : SelfContained registry store e)
    (ran : (evaluateExpression registry (Assignment.compound name c e)).runOn store =
      (.ok result, after)) :
    Text.squeeze e ≠ [] ∧ ∃ own t, postfixOf registry store e = .ok own ∧
      (evaluateTokens registry [] (compoundTokens (String.ofList name) op own)).runOn store =
        (.ok [t], after) := by
  obtain ⟨out, stack, ordered, ran, isResult⟩ := exists_of_runOn_evaluateExpression ran
  obtain ⟨t, rfl⟩ := exists_of_stackResult isResult
  obtain ⟨visible, inner, own, alone, rfl, compares⟩ :=
    exists_of_postfixOf_compound isName isOp stands noEquals selfContained ordered
  -- The whole leaves one value, so the expression does not have less weight by itself.
  have one : (1 : Int) = 0 + totalWeight inner := by
    rw [← totalWeight_compoundTokens binary (String.ofList name)]
    exact length_of_runOn_evaluateTokens registry ran
  obtain rfl : own = inner := by
    rcases compares with same | ⟨isSome, lighter⟩
    · exact same
    · have := pos_of_findsOperands (selfContained.served own alone) (Or.inl isSome)
      omega
  exact ⟨visible, own, t, alone, ran⟩

/-- What is left of a self-contained expression is its value by itself. -/
theorem compile_of_runOn_evaluateTokens {text : String} {own : List Token} {v value : Token}
    (noEquals : '=' ∉ text.toList) (visible : Text.squeeze text.toList ≠ [])
    (alone : postfixOf registry store text.toList = .ok own)
    (ran : (evaluateTokens registry [] own).runOn store = (.ok [v], store))
    (isValue : lookUp store v = .ok value) : compile registry text store = (.ok value, store) := by
  obtain ⟨tokens, read, ordered⟩ := exists_of_postfixOf alone
  have isSome : own ≠ [] := by
    rintro rfl
    cases ran
  rw [ne_eq, Text.squeeze_eq_nil_iff] at visible
  rw [compile_right_side store noEquals visible read ordered, runOn_evaluate registry isSome, ran]
  exact Prod.ext isValue rfl

end Compiling

/-- A compound assignment that is compiled binds its name to what the operator makes of the old
value of the name and the value that its expression has by itself, if the expression is
self-contained. -/
theorem compile_compound_assignment (registry : Registry) (store after : Store) {name e : String}
    {op : Operator} {result : Token} (isName : Name.isIdentifier name.toList = true)
    (isMem : op ∈ Operator.compounds) (noEquals : '=' ∉ e.toList)
    (selfContained : SelfContained registry store e.toList)
    (compiled : compile registry (name ++ " " ++ op.symbol ++ "= " ++ e) store =
      (.ok result, after)) :
    ∃ old value new, store.get? name = some old ∧
      compile registry e store = (.ok value, store) ∧
      (applyBinary op (.matrix old) value).runOn store = (.ok (.plainMatrix new), store) ∧
      after.get? name = some (.matrix new) := by
  obtain ⟨c, symbol, isOp, stands⟩ := Operator.exists_of_mem_compounds isMem
  have binary := Operator.arity_of_mem_compounds isMem
  have written : (name ++ " " ++ op.symbol ++ "= " ++ e).toList =
      Assignment.compound name.toList c e.toList := by
    simp [Assignment.compound, String.toList_append, symbol]
  have notEmpty : name ≠ "" := by
    rintro rfl
    cases isName
  obtain ⟨visible, own, t, alone, ran⟩ := exists_of_runOn_compound isName isOp stands binary
    noEquals selfContained (runOn_of_compile_compound written isName isOp compiled)
  rw [String.ofList_toList] at ran
  obtain ⟨v, old, b, new, ranOwn, bound, ofValue, isNew, isBound⟩ :=
    exists_of_runOn_compoundTokens isMem notEmpty (selfContained.served own alone)
      (noAssignment_of_postfixOf noEquals alone) ran
  obtain ⟨value, isValue, ofResult⟩ := exists_of_lookUp ofValue
  refine ⟨old, value, new, bound,
    compile_of_runOn_evaluateTokens noEquals visible alone ranOwn isValue, ?_, isBound⟩
  rw [applyBinary_of_mem_compounds isMem, runOn_reading, operand_matrix, ofResult]
  exact Prod.ext isNew rfl

/-- A sum behind the equals sign is one factor. -/
theorem compile_compound_product :
    let store : Store := ⟨{}, [("A", .matrix (.scalar 3))], by decide⟩
    let text := "A" ++ " " ++ Operator.symbol .multiply ++ "= " ++ "A + 2"
    SelfContained .empty store "A + 2".toList ∧
      (compile .empty text store).1.toOption.isSome = true ∧
      ∃ old value new, store.get? "A" = some old ∧
        compile .empty "A + 2" store = (.ok value, store) ∧
        (applyBinary .multiply (.matrix old) value).runOn store = (.ok (.plainMatrix new), store) ∧
        (compile .empty text store).2.get? "A" = some (.matrix new) := by
  intro store text
  have noEquals : '=' ∉ "A + 2".toList := by decide
  have hasValue : (compile .empty "A + 2" store).1.toOption.isSome = true := by decide +kernel
  have hasResult : (compile .empty text store).1.toOption.isSome = true := by decide +kernel
  have selfContained : SelfContained .empty store "A + 2".toList := by
    rcases compiled : compile .empty "A + 2" store with ⟨error | value, left⟩
    · rw [compiled] at hasValue
      cases hasValue
    · exact selfContained_of_compile noEquals compiled
  refine ⟨selfContained, hasResult, ?_⟩
  rcases compiled : compile .empty text store with ⟨error | result, after⟩
  · rw [compiled] at hasResult
    cases hasResult
  · exact compile_compound_assignment .empty store after (by decide) (by decide) noEquals
      selfContained compiled

/-- Behind a name and an operator in front of parentheses, an expression can have a value that has
none by itself: it closes the parenthesis and opens it again, or its operators take the name. -/
theorem compound_assignment_completes_text :
    let store : Store := ⟨{}, [("A", .matrix (.scalar 3))], by decide⟩
    Name.isIdentifier "A".toList = true ∧ Operator.add ∈ Operator.compounds ∧
      ∀ e ∈ ["1) + (2", "A * * A A"], '=' ∉ e.toList ∧
        (compile .empty ("A" ++ " " ++ Operator.symbol .add ++ "= " ++ e) store).1.toOption.isSome =
          true ∧
        (compile .empty e store).1.toOption.isSome = false := by
  decide +kernel

end MatrixCalculator
