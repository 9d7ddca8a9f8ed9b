import MatrixCalculator.Expression
import MatrixCalculator.Proofs.EvaluationRuns

/-!
# Evaluation on a stack and along the tree

Evaluating the tokens of an expression on a stack comes to the same as evaluating the expression
along its tree (`evaluate_postfixTokens`): the same token or the same failure, and the same store.
The tokens of a part of an expression are evaluated above whatever the stack holds by then, so the
statement that carries the induction is about any stack (`evaluateTokens_postfixTokens`): evaluation
along the tree, with the result put on that stack.
-/

set_option autoImplicit false

namespace MatrixCalculator

open Evaluation

variable (registry : Registry)

/-! ### Tokens on a stack -/

theorem evaluateTokens_append (stack : List Token) (front rest : List Token) :
    evaluateTokens registry stack (front ++ rest) =
      evaluateTokens registry stack front >>= fun left ↦ evaluateTokens registry left rest := by
  induction front generalizing stack with
  | nil => simp [evaluateTokens]
  | cons t front ih => simp [evaluateTokens, ih]

theorem evaluateTokens_singleton (stack : List Token) (t : Token) :
    evaluateTokens registry stack [t] = evaluateToken registry stack t := by
  simp [evaluateTokens]

theorem evaluateToken_of_isValue (stack : List Token) {t : Token}
    (isValue : t.kind.isValue = true) : evaluateToken registry stack t = return t :: stack := by
  obtain ⟨kind, _⟩ := t
  cases kind <;> first | rfl | exact Bool.noConfusion isValue

/-- As many operands as are asked for are taken off the stack, the one put there last coming
last. -/
theorem takeOperands_append (operands stack : List Token) (what : String) :
    takeOperands (operands.reverse ++ stack) operands.length what = .ok (operands, stack) := by
  have enough : ¬ (operands.reverse ++ stack).length < operands.length := by simp
  rw [takeOperands, if_neg enough, List.take_left' (by simp), List.drop_left' (by simp),
    List.reverse_reverse]

theorem evaluateToken_ofOperator (op : Operator) (operands : List Token)
    (enough : operands.length = op.arity) (stack : List Token) :
    evaluateToken registry (operands.reverse ++ stack) (.ofOperator op) =
      (· :: stack) <$> applyOperator (.ofOperator op) operands := by
  have taken := takeOperands_append operands stack (Token.ofOperator op).symbol
  rw [enough] at taken
  change (ofExcept (takeOperands _ op.arity _) >>= fun taken ↦ do
    return (← applyOperator (.ofOperator op) taken.1) :: taken.2 : Evaluation _) = _
  rw [taken]
  rfl

theorem evaluateToken_call {f : Token} (isFunction : f.kind = .function) (args stack : List Token) :
    evaluateToken registry (args.reverse ++ stack) (Expression.callToken f args.length) =
      (· :: stack) <$> reading fun store ↦
        callFunction registry store (Expression.callToken f args.length) args := by
  have taken := takeOperands_append args stack f.name
  have kept : (Expression.callToken f args.length).kind = .function := isFunction
  rw [evaluateToken, kept]
  change (ofExcept (takeOperands _ args.length f.name) >>= fun taken ↦ do
    return (← reading fun store ↦
      callFunction registry store (Expression.callToken f args.length) taken.1) :: taken.2 :
    Evaluation _) = _
  rw [taken]
  rfl

namespace Expression

/-- The tokens of an expression are not none. -/
theorem postfixTokens_ne_nil (e : Expression) : e.postfixTokens ≠ [] := by
  induction e with
  | value t isValue => simp [postfixTokens]
  | sign op isSign operand ih => simp [postfixTokens]
  | binary op isBinary left right ihLeft ihRight => simp [postfixTokens]
  | group inner ih => simpa [postfixTokens] using ih
  | call f isFunction args ih => simp [postfixTokens]

/-- As many tokens come out as there are arguments. -/
theorem length_of_runOn_evaluateAll {args : List Expression} {store left : Store}
    {values : List Token} (run : (evaluateAll registry args).runOn store = (.ok values, left)) :
    values.length = args.length := by
  induction args generalizing store left values with
  | nil =>
    rw [evaluateAll, runOn_pure] at run
    cases run
    rfl
  | cons e rest ih =>
    rw [evaluateAll] at run
    rcases first : (e.evaluate registry).runOn store with ⟨error | t, middle⟩
    · rw [runOn_bind_of_error first] at run
      cases run
    · rw [runOn_bind_of_ok first] at run
      rcases others : (evaluateAll registry rest).runOn middle with ⟨error | more, last⟩
      · rw [runOn_bind_of_error others] at run
        cases run
      · rw [runOn_bind_of_ok others, runOn_pure] at run
        cases run
        rw [List.length_cons, List.length_cons, ih others]

/-- Whether the tokens of an expression, evaluated on any stack, put its result on that stack. -/
def IsPut (e : Expression) : Prop :=
  ∀ stack, evaluateTokens registry stack e.postfixTokens =
    (· :: stack) <$> e.evaluate registry

theorem evaluateTokens_postfixLists {args : List Expression} (arePut : ∀ e ∈ args, IsPut registry e)
    (stack : List Token) :
    evaluateTokens registry stack (postfixLists args) =
      (fun values ↦ values.reverse ++ stack) <$> evaluateAll registry args := by
  induction args generalizing stack with
  | nil => simp [postfixLists, evaluateTokens, evaluateAll]
  | cons e rest ih =>
    have rest := ih fun a isArg ↦ arePut a (List.mem_cons_of_mem e isArg)
    rw [postfixLists, evaluateTokens_append, arePut e List.mem_cons_self, bind_map_left]
    simp [evaluateAll, rest]

theorem isPut (e : Expression) : IsPut registry e := by
  induction e with
  | value t isValue =>
    intro stack
    rw [postfixTokens, evaluateTokens_singleton, evaluateToken_of_isValue registry stack isValue,
      evaluate, map_pure]
  | sign op isSign operand ih =>
    intro stack
    have applied (t : Token) : evaluateToken registry (t :: stack) (.ofOperator op) =
        (· :: stack) <$> applyOperator (.ofOperator op) [t] :=
      evaluateToken_ofOperator registry op [t] isSign.symm stack
    rw [postfixTokens, evaluateTokens_append, ih, bind_map_left, evaluate, map_bind]
    simp only [evaluateTokens_singleton, applied]
  | binary op isBinary left right ihLeft ihRight =>
    intro stack
    have applied (x y : Token) : evaluateToken registry (y :: x :: stack) (.ofOperator op) =
        (· :: stack) <$> applyOperator (.ofOperator op) [x, y] :=
      evaluateToken_ofOperator registry op [x, y] isBinary.symm stack
    unfold IsPut at ihRight
    rw [postfixTokens, evaluateTokens_append, evaluateTokens_append, ihLeft, bind_map_left,
      evaluate, map_bind, bind_assoc]
    simp only [ihRight, bind_map_left, evaluateTokens_singleton, applied, map_bind]
  | group inner ih =>
    intro stack
    rw [postfixTokens, evaluate, ih]
  | call f isFunction args ih =>
    intro stack
    rw [postfixTokens, evaluateTokens_append, evaluateTokens_postfixLists registry ih,
      bind_map_left, evaluate, map_bind]
    -- The call takes off as many tokens as it has arguments, which is as many as were put there.
    refine bind_congr fun store values left run ↦ ?_
    have counted := length_of_runOn_evaluateAll registry run
    rw [evaluateTokens_singleton, ← counted, evaluateToken_call registry isFunction]

end Expression

/-- The tokens of an expression in postfix order evaluate to what the expression comes to along its
tree, or fail as it does, and leave the same store. Above any stack they put what the expression
comes to on that stack, or fail as it does. -/
theorem evaluate_postfixTokens (e : Expression) (store : Store) :
    (evaluate registry e.postfixTokens).runOn store = (e.result registry).runOn store ∧
      ∀ stack, (evaluateTokens registry stack e.postfixTokens).runOn store =
        match (e.evaluate registry).runOn store with
        | (.ok t, left) => (.ok (t :: stack), left)
        | (.error error, left) => (.error error, left) := by
  have isPut := e.isPut registry
  constructor
  · have notEmpty : e.postfixTokens.isEmpty = false := by
      simpa using e.postfixTokens_ne_nil
    rw [evaluate, notEmpty, Expression.result]
    simp only [Bool.false_eq_true, if_false]
    rw [isPut, bind_map_left]
    rfl
  · intro stack
    rw [isPut stack, map_eq_pure_bind, runOn_bind]
    rcases (e.evaluate registry).runOn store with ⟨error | t, left⟩ <;> rfl

end MatrixCalculator
