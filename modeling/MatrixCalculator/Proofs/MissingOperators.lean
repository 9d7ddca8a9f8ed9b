import MatrixCalculator.Proofs.CompileRuns
import MatrixCalculator.Proofs.MentionedNames
import MatrixCalculator.Proofs.OperandBalance

/-!
# Missing operators

An expression in which an operator is missing between two operands fails, unless it makes up for the
operator by a missing operand (`compile_of_operatorMissing`). Nothing looks at neighbouring tokens;
what fails is that several values are left in the end. Hence the exception: an operator that stands
behind both of its operands leaves one value all the same (`operatorMissing_accepted`).
-/

set_option autoImplicit false

namespace MatrixCalculator

open Evaluation Text

/-! ### Tokens around an equals sign -/

theorem operatorMissing_cons_of_not {t : Token} (noEnd : t.endsOperand = false)
    (rest : List Token) : operatorMissing (t :: rest) = operatorMissing rest := by
  cases rest with
  | nil => rfl
  | cons u rest => rw [operatorMissing, noEnd, Bool.false_and, Bool.false_or]

/-- No operator is missing between a name and what is no operand. -/
theorem operatorMissing_cons_cons_of_not {t u : Token} (noStart : u.startsOperand = false)
    (noEnd : u.endsOperand = false) (rest : List Token) :
    operatorMissing (t :: u :: rest) = operatorMissing rest := by
  rw [operatorMissing, noStart, Bool.and_false, Bool.false_or, operatorMissing_cons_of_not noEnd]

/-- No operator is missing between names and commas. -/
theorem operatorMissing_nameTokens (names : List (List Char)) (tokens : List Token) :
    operatorMissing (nameTokens names ++ .ofOperator .assign :: tokens) =
      operatorMissing tokens := by
  induction names with
  | nil => exact operatorMissing_cons_of_not rfl tokens
  | cons name rest ih =>
    cases rest with
    | nil => exact operatorMissing_cons_cons_of_not rfl rfl tokens
    | cons next rest =>
      rw [nameTokens_cons_cons, List.cons_append, List.cons_append,
        operatorMissing_cons_cons_of_not rfl rfl, ih]

theorem Position.complete_of_append {p : Position} {front rest : List Token}
    (complete : p.complete (front ++ .ofOperator .assign :: rest) = true) :
    Position.due.complete rest = true := by
  induction front generalizing p with
  | nil =>
    rw [List.nil_append, Position.complete, Bool.and_eq_true] at complete
    exact complete.2
  | cons t front ih =>
    rw [List.cons_append, Position.complete, Bool.and_eq_true] at complete
    exact ih complete.2

/-! ### The tokens of a text are fresh -/

theorem isFresh_ofOperator (op : Operator) : Reordering.IsFresh (.ofOperator op) :=
  ⟨fun _ ↦ by cases op <;> decide, TokenKind.noConfusion⟩

theorem isFresh_of_lexical {names : String → Prop} {t : Token} (lexical : t.Lexical names) :
    Reordering.IsFresh t := by
  cases lexical with
  | operator op _ => exact isFresh_ofOperator op
  | call d => exact ⟨TokenKind.noConfusion, fun _ ↦ rfl⟩
  | name | leftBrace | rightBrace | separator =>
    exact ⟨TokenKind.noConfusion, TokenKind.noConfusion⟩
  | value _ isValue _ =>
    refine ⟨fun isOperator ↦ ?_, fun isFunction ↦ ?_⟩
    · rw [isOperator] at isValue
      cases isValue
    · rw [isFunction] at isValue
      cases isValue

/-- Every token is fresh when it has been read. -/
theorem isFresh_of_readAll {registry : Registry} {store : Store} {text : List Char}
    {tokens : List Token} (read : Token.readAll registry store text = .ok tokens) :
    ∀ t ∈ tokens, Reordering.IsFresh t := by
  intro t isMem
  rcases Token.lexical_of_mem_readAll read t isMem with lexical | rfl
  · exact isFresh_of_lexical lexical
  · exact isFresh_ofOperator .assign

/-! ### Evaluation fails -/

/-- Evaluating an expression in which an operator is missing, but no operand is, fails. -/
theorem evaluateExpression_of_operatorMissing (registry : Registry) (store : Store)
    {text : List Char} {tokens : List Token}
    (read : Token.readAll registry store text = .ok tokens)
    (missing : operatorMissing tokens = true) (complete : Position.due.complete tokens = true) :
    ∃ error left, (evaluateExpression registry text).runOn store = (.error error, left) := by
  have isOrder : postfixOf registry store text = (toPostfix tokens).mapError .parse := by
    rw [postfixOf, read]
    rfl
  rw [runOn_evaluateExpression, isOrder]
  rcases ordered : toPostfix tokens with error | out
  · exact ⟨.parse error, store, rfl⟩
  · have weight := two_le_totalWeight (isFresh_of_readAll read) missing complete ordered
    have isSome : out ≠ [] := by
      rintro rfl
      exact absurd weight (by decide)
    change ∃ error left, (evaluate registry out).runOn store = (.error error, left)
    rw [runOn_evaluate registry isSome]
    rcases ran : (evaluateTokens registry [] out).runOn store with ⟨error | stack, left⟩
    · exact ⟨error, left, rfl⟩
    · have counted := length_of_runOn_evaluateTokens registry ran
      rcases stack with _ | ⟨first, _ | ⟨second, rest⟩⟩
      · rw [List.length_nil] at counted
        omega
      · rw [List.length_singleton, List.length_nil] at counted
        omega
      · exact ⟨_, left, rfl⟩

/-- An expression in which an operator is missing between two operands, but no operand where one is
due, does not compile. -/
theorem compile_of_operatorMissing (registry : Registry) (store : Store) (text : String)
    {tokens : List Token} (read : Token.readAll registry store text.toList = .ok tokens)
    (missing : operatorMissing tokens = true) (complete : Position.due.complete tokens = true) :
    ∃ error, (compile registry text store).1 = .error error := by
  rw [compile_eq]
  split_ifs
  · exact ⟨.emptyExpression, rfl⟩
  · rcases several : multiAssignment? text.toList with error | none | ⟨names, right⟩
    · exact ⟨error, rfl⟩
    · obtain ⟨error, left, failed⟩ :=
        evaluateExpression_of_operatorMissing registry store read missing complete
      exact ⟨error, congrArg Prod.fst failed⟩
    · rw [Token.readAll_of_multiAssignment? several] at read
      rcases readRight : Token.readAll registry store right with error | rightTokens
      · rw [readRight] at read
        cases read
      · rw [readRight] at read
        obtain rfl := Except.ok.inj read
        rw [operatorMissing_nameTokens] at missing
        obtain ⟨error, left, failed⟩ := evaluateExpression_of_operatorMissing registry store
          readRight missing (Position.complete_of_append complete)
        exact ⟨error, congrArg Prod.fst (runOn_bind_of_error failed _)⟩

/-- A number behind a call, with no operator in between. -/
theorem compile_of_call_and_number :
    let text := "!Identity(2) 3"
    ∃ tokens, Token.readAll .builtin (.empty {}) text.toList = .ok tokens ∧
      operatorMissing tokens = true ∧ Position.due.complete tokens = true ∧
      ∃ error, (compile .builtin text (.empty {})).1 = .error error := by
  intro text
  have holds : (Token.readAll .builtin (.empty {}) text.toList).toOption.any (fun tokens ↦
      operatorMissing tokens && Position.due.complete tokens) = true := by decide +kernel
  rcases read : Token.readAll .builtin (.empty {}) text.toList with error | tokens
  · rw [read] at holds
    cases holds
  · rw [read] at holds
    obtain ⟨missing, complete⟩ := Bool.and_eq_true_iff.mp holds
    exact ⟨tokens, rfl, missing, complete,
      compile_of_operatorMissing .builtin (.empty {}) text read missing complete⟩

/-- Behind both of its operands an operator makes up for the one that is missing between them. -/
theorem operatorMissing_accepted :
    let text := "2 3 +"
    ∃ tokens, Token.readAll .empty (.empty {}) text.toList = .ok tokens ∧
      operatorMissing tokens = true ∧ ∃ t, (compile .empty text (.empty {})).1 = .ok t := by
  intro text
  have holds : (Token.readAll .empty (.empty {}) text.toList).toOption.any operatorMissing =
      true := by decide +kernel
  have compiles : (compile .empty text (.empty {})).1.toOption.isSome = true := by
    decide +kernel
  rcases read : Token.readAll .empty (.empty {}) text.toList with error | tokens
  · rw [read] at holds
    cases holds
  · rcases value : (compile .empty text (.empty {})).1 with error | t
    · rw [value] at compiles
      cases compiles
    · rw [read] at holds
      exact ⟨tokens, rfl, holds, t, rfl⟩

end MatrixCalculator
