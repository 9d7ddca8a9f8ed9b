import MatrixCalculator.Proofs.EvaluableTokens
import MatrixCalculator.Proofs.ResultSizes
import MatrixCalculator.Proofs.TokenNames

/-!
# Answers that clear the history

A token of the kind `output` is the answer to a call of the function that clears the history, and
nothing else (`isClearing_of_compile`). No text is read as one and no service returns one. An
operator that is given one fails, unless it marks it as meant for a parameter, and a service takes
none. What comes to an answer has therefore called that function without arguments, and is its own
answer.
-/

set_option autoImplicit false

namespace MatrixCalculator

open Evaluation

variable {registry : Registry} {store : Store} {t : Token}

/-! ### What is read -/

namespace Token

/-- No atom is read as an answer. -/
theorem kind_ne_output_of_ofAtom {atom : List Char} (read : ofAtom registry store atom = .ok t) :
    t.kind ≠ .output := by
  unfold ofAtom ofLongAtom ofSpecial ofQuoted ofGlyph at read
  repeat' split at read
  all_goals cases read
  all_goals exact TokenKind.noConfusion

theorem kind_ne_output_asSign (noAnswer : t.kind ≠ .output) : t.asSign.kind ≠ .output := by
  unfold asSign
  split
  · exact TokenKind.noConfusion
  · exact noAnswer

end Token

theorem kind_ne_output_of_postfixOf {text : List Char} {out : List Token}
    (ordered : postfixOf registry store text = .ok out) : ∀ t ∈ out, t.kind ≠ .output := by
  obtain ⟨tokens, read, isPostfix⟩ := exists_of_postfixOf ordered
  have ofTokens : ∀ t ∈ tokens, t.kind ≠ .output :=
    Token.forall_mem_readAll (fun _ _ ↦ Token.kind_ne_output_of_ofAtom)
      (fun _ ↦ Token.kind_ne_output_asSign) TokenKind.noConfusion read
  exact forall_mem_toPostfix (P := fun t ↦ t.kind ≠ .output) (fun _ _ noAnswer ↦ noAnswer)
    ofTokens isPostfix

/-! ### What operators and functions hand back -/

/-- Whether an operator can hand the token back: a number, a matrix, or an operand that is marked as
meant for a parameter. -/
def Token.IsMadeOf (operands : List Token) (t : Token) : Prop :=
  t.kind = .number ∨ t.kind = .matrixRef ∨ ∃ x ∈ operands, ∃ hint, t = { x with hint := hint }

theorem isMadeOf_of_comesFrom {left right : Matrix Float} {operands : List Token}
    (comesFrom : t.ComesFrom left right) : t.IsMadeOf operands := by
  rcases comesFrom with ⟨x, rfl⟩ | ⟨m, rfl, -⟩
  · exact .inl rfl
  · exact .inr (.inl rfl)

theorem isMadeOf_applyUnary (op : Operator) (x : Token) :
    Yields (Token.IsMadeOf [x]) (applyUnary op x) := by
  unfold applyUnary
  split
  · refine yields_reading fun store t value ↦ ?_
    obtain ⟨a, -, rfl⟩ := exists_of_map_eq_ok value
    exact isMadeOf_of_comesFrom (comesFrom_negateOperand a)
  · refine yields_reading fun store t value ↦ ?_
    obtain ⟨a, -, rfl⟩ := exists_of_map_eq_ok value
    cases a with
    | scalar x => exact .inl rfl
    | grid v => exact .inr (.inl rfl)
  · exact yields_throw _ _

theorem isMadeOf_applyBinary (op : Operator) (left right : Token) :
    Yields (Token.IsMadeOf [left, right]) (applyBinary op left right) := by
  unfold applyBinary
  split
  · unfold assign
    split
    · exact yields_throw _ _
    · refine Yields.bind (P := fun _ ↦ True) (fun _ _ _ _ ↦ trivial) fun value _ ↦ ?_
      refine Yields.bind (P := fun _ ↦ True) (fun _ _ _ _ ↦ trivial) fun _ _ ↦ ?_
      exact yields_pure (.inr (.inl rfl))
  · refine yields_ofExcept fun t value ↦ ?_
    unfold attachHint at value
    split_ifs at value
    cases value
    exact .inr (.inr ⟨right, by simp, some left.name, rfl⟩)
  · refine yields_reading fun store t value ↦ ?_
    obtain ⟨a, -, value⟩ := exists_of_bind_eq_ok value
    obtain ⟨b, -, value⟩ := exists_of_bind_eq_ok value
    exact isMadeOf_of_comesFrom (comesFrom_binaryResult value)

theorem isMadeOf_applyOperator (t : Token) (operands : List Token) :
    Yields (Token.IsMadeOf operands) (applyOperator t operands) := by
  have more {few : List Token} (among : ∀ x ∈ few, x ∈ operands) (e : Evaluation Token)
      (yields : Yields (Token.IsMadeOf few) e) : Yields (Token.IsMadeOf operands) e := by
    intro store a left returns
    exact (yields store a left returns).imp_right (Or.imp_right
      fun ⟨x, isMem, hinted⟩ ↦ ⟨x, among x isMem, hinted⟩)
  unfold applyOperator
  split
  · exact yields_throw _ _
  · exact yields_throw _ _
  · rename_i op x _ reversed
    refine more (fun y isMem ↦ ?_) _ (isMadeOf_applyUnary op x)
    rw [← List.mem_reverse, reversed]
    exact isMem
  · rename_i op right left rest _ reversed
    refine more (fun y isMem ↦ ?_) _ (isMadeOf_applyBinary op left right)
    rw [← List.mem_reverse, reversed]
    simp only [List.mem_cons, List.not_mem_nil, or_false] at isMem ⊢
    tauto

/-- Whether a token is the answer of the function that clears the history, meant for a parameter or
for none. -/
def Token.IsClearing (t : Token) : Prop :=
  ∃ hint, t = { Token.output Registry.cleanUpName "History cleared" with hint := hint }

/-- Whether a token calls the function that clears the history, and hands it no arguments. -/
def Token.ClearsHistory (t : Token) : Prop :=
  t.kind = .function ∧ t.argCount = 0 ∧ ∃ d ∈ t.function, d.name = Registry.cleanUpName

theorem isClearing_of_callFunction {f : Token} {args : List Token}
    (called : callFunction registry store f args = .ok t) (isAnswer : t.kind = .output) :
    t.IsClearing ∧ args = [] ∧ ∃ d ∈ f.function, d.name = Registry.cleanUpName := by
  unfold callFunction at called
  split at called
  · cases called
  · rename_i d calls
    split_ifs at called with acts some isCleanUp
    · cases called
      exact ⟨⟨none, rfl⟩, by simpa using some, d, calls, isCleanUp⟩
    · cases called
      cases isAnswer
    · obtain ⟨received, -, called⟩ := exists_of_bind_eq_ok called
      split at called
      · cases called
      · split at called
        · unfold wrapOutput at called
          split at called <;> cases called <;> cases isAnswer
        · cases called

/-! ### Answers on the stack -/

/-- Whether a token is an answer only if it clears the history, and something calls for that. -/
def Token.AnswersTo (called : Prop) (t : Token) : Prop :=
  t.kind = .output → t.IsClearing ∧ called

section Stack

variable {called : Prop}

theorem answersTo_of_isMadeOf {operands : List Token}
    (ofOperands : ∀ x ∈ operands, x.AnswersTo called) (made : t.IsMadeOf operands) :
    t.AnswersTo called := by
  intro isAnswer
  rcases made with isNumber | isMatrix | ⟨x, isMem, hint, rfl⟩
  · rw [isNumber] at isAnswer
    cases isAnswer
  · rw [isMatrix] at isAnswer
    cases isAnswer
  · obtain ⟨⟨_, rfl⟩, isCalled⟩ := ofOperands x isMem isAnswer
    exact ⟨⟨hint, rfl⟩, isCalled⟩

theorem answersTo_evaluateToken (noAnswer : t.kind ≠ .output) (clears : t.ClearsHistory → called)
    {stack : List Token} (ofStack : ∀ x ∈ stack, x.AnswersTo called) :
    Yields (fun stack : List Token ↦ ∀ x ∈ stack, x.AnswersTo called)
      (evaluateToken registry stack t) := by
  unfold evaluateToken
  split
  · refine yields_taken ofStack fun operands _ ofOperands store x left returns ↦ ?_
    exact answersTo_of_isMadeOf ofOperands (isMadeOf_applyOperator t operands store x left returns)
  · rename_i isFunction
    have applied (args : List Token) (counted : args.length = t.argCount) :
        Yields (Token.AnswersTo called)
          (reading fun store ↦ callFunction registry store t args) := by
      refine yields_reading fun store x value isAnswer ↦ ?_
      obtain ⟨isClearing, none, isCleanUp⟩ := isClearing_of_callFunction value isAnswer
      rw [none] at counted
      exact ⟨isClearing, clears ⟨isFunction, counted.symm, isCleanUp⟩⟩
    exact yields_taken ofStack fun args counted _ ↦ applied args counted
  · exact yields_pure (List.forall_mem_cons.mpr ⟨fun isAnswer ↦ absurd isAnswer noAnswer, ofStack⟩)

theorem answersTo_evaluateTokens {tokens : List Token} (noAnswers : ∀ t ∈ tokens, t.kind ≠ .output)
    (clears : ∀ t ∈ tokens, t.ClearsHistory → called) {stack : List Token}
    (ofStack : ∀ x ∈ stack, x.AnswersTo called) :
    Yields (fun stack : List Token ↦ ∀ x ∈ stack, x.AnswersTo called)
      (evaluateTokens registry stack tokens) := by
  induction tokens generalizing stack with
  | nil => exact yields_pure ofStack
  | cons t rest ih =>
    rw [List.forall_mem_cons] at noAnswers clears
    exact (answersTo_evaluateToken noAnswers.1 clears.1 ofStack).bind fun stack ↦
      ih noAnswers.2 clears.2

theorem answersTo_of_stackResult {stack : List Token} (ofStack : ∀ x ∈ stack, x.AnswersTo called)
    (value : stackResult store stack = .ok t) : t.AnswersTo called := by
  unfold stackResult at value
  split at value
  · cases value
  · unfold lookUp at value
    split_ifs at value
    · obtain ⟨v, -, rfl⟩ := exists_of_map_eq_ok value
      exact fun isAnswer ↦ by cases isAnswer
    · obtain rfl := Except.ok.inj value
      exact ofStack _ List.mem_cons_self
  · cases value

end Stack

/-! ### Answers of whole texts -/

/-- Whether the tokens of a text call the function that clears the history, without arguments. -/
def CallsForClearing (registry : Registry) (store : Store) (text : List Char) : Prop :=
  ∃ out, postfixOf registry store text = .ok out ∧ ∃ f ∈ out, f.ClearsHistory

theorem answersTo_evaluateExpression {text : List Char} {left : Store}
    (ran : (evaluateExpression registry text).runOn store = (.ok t, left)) :
    t.AnswersTo (CallsForClearing registry store text) := by
  obtain ⟨out, stack, ordered, done, value⟩ := exists_of_runOn_evaluateExpression ran
  have calls (f : Token) (isMem : f ∈ out) (clears : f.ClearsHistory) :
      CallsForClearing registry store text := ⟨out, ordered, f, isMem, clears⟩
  have ofStack := answersTo_evaluateTokens (kind_ne_output_of_postfixOf ordered) calls
    (List.forall_mem_nil _) store stack left done
  exact answersTo_of_stackResult ofStack value

/-- A text that comes to an answer calls the function that clears the history, without arguments,
and comes to the answer of that function. -/
theorem isClearing_of_compile {text : String} {left : Store}
    (compiled : compile registry text store = (.ok t, left)) (isAnswer : t.kind = .output) :
    t.IsClearing ∧ CallsForClearing registry store text.toList := by
  rw [compile_eq] at compiled
  split_ifs at compiled
  · cases compiled
  · split at compiled
    · cases compiled
    · exact answersTo_evaluateExpression compiled isAnswer
    · -- An assignment to several names hands back matrices.
      obtain ⟨result, middle, -, compiled⟩ := exists_of_runOn_bind compiled
      unfold assignMany at compiled
      split at compiled
      · split_ifs at compiled
        · cases compiled
        · obtain ⟨done, last, -, compiled⟩ := exists_of_runOn_bind compiled
          cases compiled
          cases isAnswer
      · cases compiled

end MatrixCalculator
