import MatrixCalculator.Proofs.AssignmentOrder
import MatrixCalculator.Proofs.CompileRuns
import MatrixCalculator.Proofs.MentionedNames
import MatrixCalculator.Proofs.TokenNames
import MatrixCalculator.Proofs.TreeEvaluation

/-!
# What an assignment binds

An assignment to a name leaves all names but one alone, and if the right side leaves exactly one
value, then that one is the name on the left (`compile_assignment`). The equals sign takes what lies
on top of the stack: if the right side leaves several values, the name on the left is not among
those that it takes (`assignment_binds_other_name`).

The right side is evaluated above the name on the left as it is by itself, unless it takes more
values than it has (`runsAbove_evaluateTokens`), and it reads the store without changing it
(`onlyReads_evaluateTokens`).
-/

set_option autoImplicit false

namespace MatrixCalculator

open Evaluation

variable {registry : Registry}

/-! ### Evaluation above other values -/

/-- Whether an expression has too few values for its operators and functions, or too many. -/
def EvalError.isMiscount : EvalError → Bool
  | argumentCount _ _ _ | missingOperator _ => true
  | _ => false

/-- What lies below the operands stays there. -/
theorem takeOperands_above {stack operands rest : List Token} {count : Nat} {what : String}
    (taken : takeOperands stack count what = .ok (operands, rest)) (below : List Token) :
    takeOperands (stack ++ below) count what = .ok (operands, rest ++ below) := by
  unfold takeOperands at taken ⊢
  split_ifs at taken with few
  obtain ⟨rfl, rfl⟩ := Prod.mk.inj (Except.ok.inj taken)
  have enough : count ≤ stack.length := Nat.le_of_not_lt few
  have enoughAbove : ¬(stack ++ below).length < count := by
    rw [List.length_append]
    omega
  rw [if_neg enoughAbove, List.take_append_of_le_length enough,
    List.drop_append_of_le_length enough]

theorem isMiscount_of_takeOperands {stack : List Token} {count : Nat} {what : String}
    {error : EvalError} (failed : takeOperands stack count what = .error error) :
    error.isMiscount = true := by
  unfold takeOperands at failed
  split_ifs at failed
  obtain rfl := Except.error.inj failed
  rfl

/-- Whether a computation of a stack comes to the same above other values as by itself, unless there
are too few values or too many. -/
def RunsAbove (below : List Token) (above alone : Evaluation (List Token)) : Prop :=
  ∀ store, above.runOn store = ((· ++ below) <$> alone).runOn store ∨
    ∃ error left, alone.runOn store = (.error error, left) ∧ error.isMiscount = true

theorem runsAbove_of_eq {below : List Token} {above alone : Evaluation (List Token)}
    (same : above = (· ++ below) <$> alone) : RunsAbove below above alone :=
  fun store ↦ Or.inl (congrArg (fun e : Evaluation (List Token) ↦ e.runOn store) same)

theorem RunsAbove.bind {below : List Token} {above alone : Evaluation (List Token)}
    {f : List Token → Evaluation (List Token)} (first : RunsAbove below above alone)
    (rest : ∀ stack, RunsAbove below (f (stack ++ below)) (f stack)) :
    RunsAbove below (above >>= f) (alone >>= f) := by
  intro store
  rcases first store with same | ⟨error, left, failed, isMiscount⟩
  · rw [runOn_map] at same
    rcases ran : alone.runOn store with ⟨error | stack, left⟩ <;> rw [ran] at same
    · refine Or.inl ?_
      rw [runOn_bind_of_error same, runOn_map, runOn_bind_of_error ran]
      rfl
    · rw [runOn_bind_of_ok same, runOn_map, runOn_bind_of_ok ran, ← runOn_map]
      exact rest stack left
  · exact Or.inr ⟨error, left, runOn_bind_of_error failed f, isMiscount⟩

/-- Operands that are there are taken above other values as they are by themselves. -/
theorem taken_above {stack operands rest : List Token} {count : Nat} {what : String}
    (taken : takeOperands stack count what = .ok (operands, rest)) (below : List Token)
    (apply : List Token → Evaluation Token) :
    (do
      let (operands, rest) ← (ofExcept (takeOperands (stack ++ below) count what) : Evaluation _)
      return (← apply operands) :: rest : Evaluation (List Token)) =
      (· ++ below) <$> (do
        let (operands, rest) ← (ofExcept (takeOperands stack count what) : Evaluation _)
        return (← apply operands) :: rest : Evaluation (List Token)) := by
  rw [taken, takeOperands_above taken below]
  change (apply operands >>= fun result ↦ pure (result :: (rest ++ below))) =
    (· ++ below) <$> (apply operands >>= fun result ↦ pure (result :: rest))
  simp only [map_bind, map_pure, List.cons_append]

/-- Operands are taken above other values as they are by themselves, if they are there. -/
theorem runsAbove_taken (stack below : List Token) (count : Nat) (what : String)
    (apply : List Token → Evaluation Token) :
    RunsAbove below
      (do
        let (operands, rest) ← ofExcept (takeOperands (stack ++ below) count what)
        return (← apply operands) :: rest)
      (do
        let (operands, rest) ← ofExcept (takeOperands stack count what)
        return (← apply operands) :: rest) := by
  rcases taken : takeOperands stack count what with error | ⟨operands, rest⟩
  · exact fun store ↦ Or.inr ⟨error, store, rfl, isMiscount_of_takeOperands taken⟩
  · rw [← taken]
    exact runsAbove_of_eq (taken_above taken below apply)

theorem runsAbove_evaluateToken (stack below : List Token) (t : Token) :
    RunsAbove below (evaluateToken registry (stack ++ below) t)
      (evaluateToken registry stack t) := by
  unfold evaluateToken
  split
  · exact runsAbove_taken stack below t.paramCount t.symbol (applyOperator t)
  · exact runsAbove_taken stack below t.argCount t.name fun args ↦
      reading fun store ↦ callFunction registry store t args
  · exact runsAbove_of_eq rfl

/-- Above other values tokens are evaluated as they are by themselves. -/
theorem runsAbove_evaluateTokens (stack below tokens : List Token) :
    RunsAbove below (evaluateTokens registry (stack ++ below) tokens)
      (evaluateTokens registry stack tokens) := by
  induction tokens generalizing stack with
  | nil => exact runsAbove_of_eq rfl
  | cons t rest ih => exact (runsAbove_evaluateToken stack below t).bind ih

/-! ### Reading without writing -/

theorem onlyReads_applyUnary (op : Operator) (t : Token) : OnlyReads (applyUnary op t) := by
  unfold applyUnary
  split
  · exact onlyReads_reading _
  · exact onlyReads_reading _
  · exact onlyReads_throw _

theorem onlyReads_applyBinary {op : Operator} (noAssignment : op ≠ .assign) (left right : Token) :
    OnlyReads (applyBinary op left right) := by
  unfold applyBinary
  split
  · exact absurd rfl noAssignment
  · exact onlyReads_ofExcept _
  · exact onlyReads_reading _

theorem onlyReads_applyOperator {t : Token} (noAssignment : t.operator ≠ some .assign)
    (operands : List Token) : OnlyReads (applyOperator t operands) := by
  unfold applyOperator
  split
  · exact onlyReads_throw _
  · exact onlyReads_throw _
  · exact onlyReads_applyUnary _ _
  · rename_i op right left rest isOp _
    refine onlyReads_applyBinary ?_ left right
    rintro rfl
    exact noAssignment isOp

theorem onlyReads_taken {taken : Except EvalError (List Token × List Token)}
    {apply : List Token → Evaluation Token} (applied : ∀ operands, OnlyReads (apply operands)) :
    OnlyReads (do
      let (operands, rest) ← (ofExcept taken : Evaluation _)
      return (← apply operands) :: rest) :=
  (onlyReads_ofExcept _).bind fun ⟨operands, _⟩ ↦
    (applied operands).bind fun _ ↦ onlyReads_pure _

theorem onlyReads_evaluateToken {t : Token}
    (noAssignment : t.kind = .operator → t.operator ≠ some .assign) (stack : List Token) :
    OnlyReads (evaluateToken registry stack t) := by
  unfold evaluateToken
  split
  · rename_i isOperator
    exact onlyReads_taken (onlyReads_applyOperator (noAssignment isOperator))
  · have called (args : List Token) :
        OnlyReads (reading fun store ↦ callFunction registry store t args) := onlyReads_reading _
    exact onlyReads_taken called
  · exact onlyReads_pure _

/-- Without an equals sign, evaluation leaves the store as it is. -/
theorem onlyReads_evaluateTokens {tokens : List Token}
    (noAssignment : ∀ t ∈ tokens, t.kind = .operator → t.operator ≠ some .assign)
    (stack : List Token) : OnlyReads (evaluateTokens registry stack tokens) := by
  induction tokens generalizing stack with
  | nil => exact onlyReads_pure _
  | cons t rest ih =>
    rw [List.forall_mem_cons] at noAssignment
    exact (onlyReads_evaluateToken noAssignment.1 stack).bind (ih noAssignment.2)

/-! ### Applying the equals sign -/

/-- Whether a token can stand on the left of an equals sign. -/
def Token.IsTarget (t : Token) : Prop :=
  t.kind = .matrixRef ∧ t.name ≠ ""

theorem store_of_runOn_assign_of_not {left : Token} (noTarget : ¬left.IsTarget) (right : Token)
    (store : Store) : ((assign left right).runOn store).2 = store := by
  have refused : left.kind ≠ .matrixRef ∨ left.name.isEmpty = true := by
    rw [Token.IsTarget, Decidable.not_and_iff_or_not, not_not] at noTarget
    exact noTarget.imp_right fun noName ↦ by rw [noName]; rfl
  rw [assign, if_pos refused]
  rfl

/-- An assignment binds no name but that of its left operand. -/
theorem get?_of_runOn_assign (left right : Token) (store : Store) {name : String}
    (other : name ≠ left.name) :
    ((assign left right).runOn store).2.get? name = store.get? name := by
  unfold assign
  split
  · rfl
  · change ((reading fun store ↦ assignedValue store right) >>= fun value ↦
      bindName left.name value >>= fun _ ↦
        (pure (Token.boundRef left.name value) : Evaluation Token)).runOn store |>.2.get? name = _
    rw [runOn_bind, runOn_reading]
    rcases assignedValue store right with error | value
    · rfl
    · dsimp only
      rw [runOn_bind, runOn_bindName]
      rcases bound : store.insert left.name value with error | after
      · rfl
      · change after.get? name = store.get? name
        rw [Store.get?_insert bound, if_neg other]

/-- An equals sign takes the two values on top of the stack. -/
theorem store_of_evaluateToken_assign (right left : Token) (rest : List Token) (store : Store) :
    ((evaluateToken registry (right :: left :: rest) (.ofOperator .assign)).runOn store).2 =
      ((assign left right).runOn store).2 := by
  have applied := evaluateToken_ofOperator registry .assign [left, right] rfl rest
  change ((evaluateToken registry ([left, right].reverse ++ rest) _).runOn store).2 = _
  rw [applied, runOn_map]
  rfl

theorem store_of_evaluateToken_assign_of_few {stack : List Token} (few : stack.length < 2)
    (store : Store) :
    ((evaluateToken registry stack (.ofOperator .assign)).runOn store).2 = store := by
  rcases stack with _ | ⟨x, _ | ⟨y, rest⟩⟩
  · rfl
  · rfl
  · simp only [List.length_cons] at few
    omega

/-! ### Reading an assignment -/

section Reading

open Text

variable {name e : List Char}

/-- A name, an equals sign and an expression, with spaces around the equals sign. -/
def Assignment.ofName (name e : List Char) : List Char :=
  name ++ [' '] ++ '=' :: ' ' :: e

theorem trim_name_space (isName : Name.isIdentifier name = true) : trim (name ++ [' ']) = name := by
  have ended : trimEnd (name ++ [' ']) = trimEnd name := by
    simp [trimEnd, isBlank]
  have visible := (Name.isWord_of_isIdentifier isName).2
  rw [← trim_trimEnd, ended, trim_trimEnd, trim_of_forall visible]

theorem split_ofName (isName : Name.isIdentifier name = true) (noEquals : '=' ∉ e) :
    Assignment.split (Assignment.ofName name e) =
      if trim e = [] then .error (.malformedAssignment (String.ofList (Assignment.ofName name e)))
      else .ok (some (name, trim e)) := by
  have noneLeft : '=' ∉ name ++ [' '] := by
    simpa using Name.not_mem_of_isIdentifier isName (c := '=') rfl
  have noneRight : '=' ∉ ' ' :: e := by simpa using noEquals
  have nameSome := (Name.isWord_of_isIdentifier isName).1
  have behind : trim (' ' :: e) = trim e := by rw [trim, trimStart_cons_of_isBlank rfl, trim]
  rw [Assignment.ofName, Assignment.split_append_cons noneLeft noneRight, trim_name_space isName,
    behind]
  simp only [nameSome, false_or]

/-- With nothing but a name before its equals sign an assignment is not compound. -/
theorem compound?_of_name {text right : List Char} (isName : Name.isIdentifier name = true)
    (parted : Assignment.split text = .ok (some (name, right))) :
    Assignment.compound? (squeeze text) = none := by
  rcases compound : Assignment.compound? (squeeze text) with _ | ⟨own, op, rest⟩
  · rfl
  · obtain ⟨gap, sides, -, -, isOp⟩ :=
      Assignment.sides_of_compound? compound (Assignment.split_squeeze parted)
    rw [squeeze_eq_self (.of_isWord (Name.isWord_of_isIdentifier isName))] at sides
    have opIn : op ∈ name := by
      rw [sides]
      simp
    exact absurd opIn (Name.not_mem_of_isIdentifier isName (Assignment.isRest_of_isCompound isOp))

/-- An assignment to a name is read as the name, the equals sign and what its right side is read
as. -/
theorem readAll_ofName (store : Store) (isName : Name.isIdentifier name = true)
    (noEquals : '=' ∉ e) (notBlank : trim e ≠ []) :
    Token.readAll registry store (Assignment.ofName name e) = do
      let tokens ← Token.readAll registry store e
      return .matrixRef (String.ofList name) :: .ofOperator .assign :: tokens := by
  have parted := split_ofName isName noEquals
  rw [if_neg notBlank] at parted
  have nameTokens : Token.ofAtoms registry store (squeeze name) =
      .ok [.matrixRef (String.ofList name)] := by
    rw [squeeze_eq_self (.of_isWord (Name.isWord_of_isIdentifier isName)), Token.ofAtoms,
      atoms_name isName, List.mapM_cons, Token.ofAtom_of_isIdentifier isName]
    rfl
  rw [Token.readAll_of_split registry store parted (compound?_of_name isName parted), nameTokens,
    squeeze_trim, Token.readAll_of_not_mem registry store noEquals]
  rcases Token.ofAtoms registry store (squeeze e) with error | tokens <;> rfl

theorem multiAssignment?_ofName (isName : Name.isIdentifier name = true) (noEquals : '=' ∉ e)
    (notBlank : trim e ≠ []) : multiAssignment? (Assignment.ofName name e) = .ok none := by
  have noComma : name.contains ',' = false := by
    simpa using Name.not_mem_of_isIdentifier isName (c := ',') rfl
  rw [multiAssignment?, split_ofName isName noEquals, if_neg notBlank]
  dsimp only
  rw [noComma]
  rfl

theorem multiAssignment?_of_not_mem (noEquals : '=' ∉ e) : multiAssignment? e = .ok none := by
  rw [multiAssignment?, Assignment.split_of_not_mem noEquals]

/-- The tokens of the right side assign nothing. -/
theorem noAssignment_of_lexical {names : String → Prop} {t : Token} (lexical : t.Lexical names) :
    t.kind = .operator → t.operator ≠ some .assign ∧ 0 < t.priority := by
  intro isOperator
  cases lexical with
  | operator op noAssignment =>
    refine ⟨fun same ↦ noAssignment (Option.some.inj same), ?_⟩
    cases op <;> first | decide | exact absurd rfl noAssignment
  | value t isValue noName => exact absurd isOperator (Token.kind_ne_operator_of_isValue isValue)
  | name | call | leftBrace | rightBrace | separator => cases isOperator

theorem evaluateTokens_assignment (name : String) (out : List Token) :
    evaluateTokens registry [] (.matrixRef name :: (out ++ [.ofOperator .assign])) =
      evaluateTokens registry [.matrixRef name] out >>= fun stack ↦
        evaluateToken registry stack (.ofOperator .assign) := by
  have put : evaluateToken registry [] (.matrixRef name) = pure [.matrixRef name] := rfl
  rw [evaluateTokens, put, pure_bind, evaluateTokens_append]
  simp only [evaluateTokens_singleton]

/-- Looking up what is left on the stack leaves the store as it is. -/
theorem store_of_runOn_evaluate {tokens : List Token} (isSome : tokens ≠ []) (store : Store) :
    ((evaluate registry tokens).runOn store).2 =
      ((evaluateTokens registry [] tokens).runOn store).2 := by
  rw [runOn_evaluate registry isSome]
  rcases (evaluateTokens registry [] tokens).runOn store with ⟨_ | _, left⟩ <;> rfl

/-- Unless it fails before, an assignment applies the equals sign to the two values on top of what
its right side leaves above the name. -/
theorem store_of_evaluate_assignment (name : String) {out : List Token}
    (noAssignment : ∀ t ∈ out, t.kind = .operator → t.operator ≠ some .assign) (store : Store) :
    ((evaluate registry (.matrixRef name :: (out ++ [.ofOperator .assign]))).runOn store).2 =
        store ∨
      ∃ right left rest,
        (evaluateTokens registry [.matrixRef name] out).runOn store =
          (.ok (right :: left :: rest), store) ∧
        ((evaluate registry (.matrixRef name :: (out ++ [.ofOperator .assign]))).runOn store).2 =
          ((assign left right).runOn store).2 := by
  have kept : ((evaluateTokens registry [.matrixRef name] out).runOn store).2 = store :=
    onlyReads_evaluateTokens noAssignment _ store
  rw [store_of_runOn_evaluate (List.cons_ne_nil _ _), evaluateTokens_assignment]
  rcases ran : (evaluateTokens registry [.matrixRef name] out).runOn store
    with ⟨error | stack, left⟩ <;> rw [ran] at kept <;> change left = store at kept <;> subst kept
  · rw [runOn_bind_of_error ran]
    exact Or.inl rfl
  · rw [runOn_bind_of_ok ran]
    rcases stack with _ | ⟨right, _ | ⟨operand, rest⟩⟩
    · exact Or.inl (store_of_evaluateToken_assign_of_few (by decide) _)
    · exact Or.inl (store_of_evaluateToken_assign_of_few (by simp) _)
    · exact Or.inr ⟨right, operand, rest, rfl, store_of_evaluateToken_assign right operand rest _⟩

/-- The same for an assignment that is compiled. -/
theorem store_of_compile_ofName (registry : Registry) (store : Store) {text : String}
    (written : text.toList = Assignment.ofName name e) (isName : Name.isIdentifier name = true)
    (noEquals : '=' ∉ e) :
    (compile registry text store).2 = store ∨
      ∃ tokens out right left rest, trim e ≠ [] ∧ Token.readAll registry store e = .ok tokens ∧
        toPostfix tokens = .ok out ∧
        (evaluateTokens registry [.matrixRef (String.ofList name)] out).runOn store =
          (.ok (right :: left :: rest), store) ∧
        (compile registry text store).2 = ((assign left right).runOn store).2 := by
  by_cases notBlank : trim e = []
  · refine Or.inl ?_
    have refused : ∃ error, multiAssignment? (Assignment.ofName name e) = .error error := by
      rw [multiAssignment?, split_ofName isName noEquals, if_pos notBlank]
      exact ⟨_, rfl⟩
    obtain ⟨error, refused⟩ := refused
    rw [compile_eq, written, refused]
    split_ifs <;> rfl
  · rw [compile_eq, written, multiAssignment?_ofName isName noEquals notBlank]
    split_ifs
    · exact Or.inl rfl
    · dsimp only
      rw [runOn_evaluateExpression]
      rcases ordered : postfixOf registry store (Assignment.ofName name e) with error | whole
      · exact Or.inl rfl
      · obtain ⟨all, read, isPostfix⟩ := exists_of_postfixOf ordered
        rw [readAll_ofName store isName noEquals notBlank] at read
        obtain ⟨tokens, ownRead, read⟩ := exists_of_bind_eq_ok read
        obtain rfl := Except.ok.inj read
        have computes (t : Token) (isMem : t ∈ tokens) :=
          noAssignment_of_lexical (Token.lexical_of_mem_readAll_of_not_mem noEquals ownRead t isMem)
        obtain ⟨out, ownPostfix, rfl⟩ := exists_of_toPostfix_assignment rfl
          (fun t isMem isOperator ↦ (computes t isMem isOperator).2) isPostfix
        have noAssignment := forall_mem_toPostfix
          (P := fun t ↦ t.kind = .operator → t.operator ≠ some .assign) (fun _ _ holds ↦ holds)
          (fun t isMem isOperator ↦ (computes t isMem isOperator).1) ownPostfix
        exact (store_of_evaluate_assignment (String.ofList name) noAssignment store).imp_right
          fun ⟨right, left, rest, ran, assigned⟩ ↦
            ⟨tokens, out, right, left, rest, notBlank, ownRead, ownPostfix, ran, assigned⟩

/-- By itself the right side is read and evaluated as it stands. -/
theorem compile_right_side (store : Store) {text : String} {tokens out : List Token}
    (noEquals : '=' ∉ text.toList) (notBlank : trim text.toList ≠ [])
    (read : Token.readAll registry store text.toList = .ok tokens)
    (ordered : toPostfix tokens = .ok out) :
    compile registry text store = (evaluate registry out).runOn store := by
  have visible : isEmptyOrBlank text.toList = false := by
    by_contra blank
    rw [Bool.not_eq_false, isEmptyOrBlank, List.all_eq_true] at blank
    exact notBlank (by rw [trim, trimStart_of_forall blank]; rfl)
  have isPostfix : postfixOf registry store text.toList = .ok out := by
    rw [postfixOf, read]
    change (toPostfix tokens).mapError EvalError.parse = .ok out
    rw [ordered]
    rfl
  rw [compile_eq, visible, multiAssignment?_of_not_mem noEquals, if_neg Bool.false_ne_true]
  dsimp only
  rw [runOn_evaluateExpression, isPostfix]

end Reading

/-! ### The names that are bound -/

/-- If the right side leaves one value by itself, the equals sign takes that value and the name. -/
theorem left_of_counted {name : String} {store : Store} {out rest : List Token} {left right : Token}
    (ran : (evaluateTokens registry [.matrixRef name] out).runOn store =
      (.ok (right :: left :: rest), store))
    (counted : ∀ error, ((evaluate registry out).runOn store).1 = .error error →
      error.isMiscount = false) : left = .matrixRef name := by
  have outSome (stack : List Token) (left : Store) (some : stack ≠ [])
      (ranAlone : (evaluateTokens registry [] out).runOn store = (.ok stack, left)) : out ≠ [] := by
    rintro rfl
    cases ranAlone
    exact some rfl
  rcases runsAbove_evaluateTokens [] [.matrixRef name] out store with
    same | ⟨error, left, failed, isMiscount⟩
  · rw [List.nil_append, ran, runOn_map] at same
    rcases alone : (evaluateTokens registry [] out).runOn store with ⟨error | stack, after⟩
    · rw [alone] at same
      cases (Prod.mk.inj same).1
    · rw [alone] at same
      have parts : right :: left :: rest = stack ++ [.matrixRef name] :=
        Except.ok.inj (Prod.mk.inj same).1
      rcases stack with _ | ⟨value, _ | ⟨second, more⟩⟩
      · cases parts
      · exact (List.cons.inj (List.cons.inj parts).2).1
      · have malformed := counted (.missingOperator (value :: second :: more).length) (by
          rw [runOn_evaluate registry (outSome _ after (List.cons_ne_nil _ _) alone), alone]
          rfl)
        cases malformed
  · have some : out ≠ [] := by
      rintro rfl
      cases failed
    have notMiscount := counted error (by rw [runOn_evaluate registry some, failed])
    rw [isMiscount] at notMiscount
    cases notMiscount

/-- An assignment to a name changes what is bound to one name at most, the one on the left or one on
the right. It is the one on the left, unless the right side by itself fails for too few or too many
values. -/
theorem compile_assignment (registry : Registry) (store : Store) {name e : String}
    (isName : Name.isIdentifier name.toList = true) (noEquals : '=' ∉ e.toList) :
    (∃ target, (target = name ∨ NameIn e.toList target) ∧ ∀ other, other ≠ target →
      (compile registry (name ++ " = " ++ e) store).2.get? other = store.get? other) ∧
    ((∀ error, (compile registry e store).1 = .error error → error.isMiscount = false) →
      ∀ other, other ≠ name →
        (compile registry (name ++ " = " ++ e) store).2.get? other = store.get? other) := by
  have written : (name ++ " = " ++ e).toList = Assignment.ofName name.toList e.toList := by
    simp [Assignment.ofName, String.toList_append]
  rcases store_of_compile_ofName registry store written isName noEquals with
    same | ⟨tokens, out, right, left, rest, notBlank, read, ordered, ran, assigned⟩
  · rw [same]
    exact ⟨⟨name, Or.inl rfl, fun _ _ ↦ rfl⟩, fun _ _ _ ↦ rfl⟩
  · rw [String.ofList_toList] at ran
    rw [assigned]
    refine ⟨?_, fun counted other notName ↦ ?_⟩
    · have ofTokens : ∀ t ∈ tokens,
          t.NamedIn fun target ↦ target = name ∨ NameIn e.toList target := fun t isMem ↦
        namedIn_of_lexical ((Token.lexical_of_mem_readAll_of_not_mem noEquals read t isMem).mono
          fun _ ↦ Or.inr)
      have ofOut := forall_mem_toPostfix (fun _ _ named ↦ named) ofTokens ordered
      have ofName : ∀ x ∈ [Token.matrixRef name],
          x.NamedIn fun target ↦ target = name ∨ NameIn e.toList target :=
        List.forall_mem_singleton.mpr fun _ ↦ Or.inr (Or.inl rfl)
      have ofStack := namedIn_evaluateTokens registry ofName ofOut store _ _ ran
      by_cases isTarget : left.IsTarget
      · refine ⟨left.name, ?_, fun other notTarget ↦ ?_⟩
        · exact (ofStack left (by simp) isTarget.1).resolve_left isTarget.2
        · exact get?_of_runOn_assign left right store notTarget
      · refine ⟨name, Or.inl rfl, fun other _ ↦ ?_⟩
        rw [store_of_runOn_assign_of_not isTarget]
    · rw [compile_right_side store noEquals notBlank read ordered] at counted
      obtain rfl := left_of_counted ran counted
      exact get?_of_runOn_assign _ right store notName

/-- A sum is assigned to the name on the left alone. -/
theorem compile_assigned_sum :
    let store : Store := ⟨{}, [("B", .matrix (.scalar 2))], by decide⟩
    (compile .empty ("A" ++ " = " ++ "B + 3") store).2.contains "A" = true ∧
      ∀ other, other ≠ "A" →
        (compile .empty ("A" ++ " = " ++ "B + 3") store).2.get? other = store.get? other := by
  intro store
  have isName : Name.isIdentifier "A".toList = true := by decide
  have noEquals : '=' ∉ "B + 3".toList := by decide
  have compiles : (compile .empty "B + 3" store).1.toOption.isSome = true := by decide +kernel
  refine ⟨by decide +kernel, (compile_assignment .empty store isName noEquals).2
    fun error failed ↦ ?_⟩
  rw [failed] at compiles
  cases compiles

/-- If the right side leaves several values, the equals sign binds a name among them. -/
theorem assignment_binds_other_name :
    let text := "A" ++ " = " ++ "B 5"
    Name.isIdentifier "A".toList = true ∧ '=' ∉ "B 5".toList ∧ "B" ≠ "A" ∧
      (compile .empty text (.empty {})).2.get? "B" ≠ (Store.empty {}).get? "B" := by
  intro text
  have binds : ((compile .empty text (.empty {})).2.get? "B").isSome = true := by decide +kernel
  refine ⟨by decide, by decide, by decide, fun same ↦ ?_⟩
  rw [same] at binds
  cases binds

end MatrixCalculator
