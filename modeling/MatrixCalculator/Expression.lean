import MatrixCalculator.Evaluation.Basic

/-!
# Expressions as trees

An `Expression` is what the tokens of a well-formed text stand for: values, signs, operators between
two operands, groups in parentheses, and calls. `Expression.infixTokens` lists its tokens as they
are read, with parentheses only where priority and associativity call for them, and
`Expression.postfixTokens` lists them in the order of their evaluation. `Expression.evaluate`
computes the value along the tree: where the evaluation of tokens keeps a stack, it has the
branches of the tree.
-/

set_option autoImplicit false

namespace MatrixCalculator

/-- Whether a token of this kind is an operand as it stands. -/
def TokenKind.isValue : TokenKind → Bool
  | number | matrixRef | docsQuery | null | string | void | output | errorMarker => true
  | function | argSeparator | operator | leftBrace | rightBrace => false

/-- An expression. The operators stand where their number of operands lets them. -/
inductive Expression where
  | value (t : Token) (isValue : t.kind.isValue = true)
  | sign (op : Operator) (isSign : op.arity = 1) (operand : Expression)
  | binary (op : Operator) (isBinary : op.arity = 2) (left right : Expression)
  /-- An expression in parentheses. -/
  | group (inner : Expression)
  | call (f : Token) (isFunction : f.kind = .function) (args : List Expression)

namespace Expression

/-- What holds of an expression as soon as it holds of its parts holds of every expression. -/
@[elab_as_elim, induction_eliminator]
theorem induction {motive : Expression → Prop}
    (value : ∀ t isValue, motive (value t isValue))
    (sign : ∀ op isSign operand, motive operand → motive (sign op isSign operand))
    (binary : ∀ op isBinary left right, motive left → motive right →
      motive (binary op isBinary left right))
    (group : ∀ inner, motive inner → motive (group inner))
    (call : ∀ f isFunction args, (∀ e ∈ args, motive e) → motive (call f isFunction args))
    (e : Expression) : motive e :=
  @Expression.rec motive (fun args ↦ ∀ e ∈ args, motive e) value sign binary group call
    (by simp) (fun _ _ head tail ↦ List.forall_mem_cons.mpr ⟨head, tail⟩) e

/-- The operator that is applied last, if the expression is no operand by itself. -/
def operator? : Expression → Option Operator
  | sign op _ _ => some op
  | binary op _ _ _ => some op
  | value _ _ | group _ | call _ _ _ => none

/-- Whether an operand on one side of an operator must stand in parentheses: its own operator binds
less tightly, or as tightly while operators of that priority group to the other side. -/
def needsGroup (parent : Operator) (side : Associativity) (operand : Expression) : Bool :=
  match operand.operator? with
  | some op =>
    op.priority < parent.priority ||
      (op.priority == parent.priority && parent.associativity != side)
  | none => false

/-- Tokens in parentheses. -/
def parenthesized (tokens : List Token) : List Token :=
  Token.leftBrace :: tokens ++ [Token.rightBrace]

/-- The tokens of an operand, in parentheses where they are needed. -/
def operandTokens (grouped : Bool) (tokens : List Token) : List Token :=
  if grouped then parenthesized tokens else tokens

/-- The call of a function with its number of arguments. -/
def callToken (f : Token) (count : Nat) : Token :=
  { f with argCount := count }

mutual

/-- The tokens in the order in which they are read. -/
def infixTokens : Expression → List Token
  | value t _ => [t]
  | sign op _ operand =>
    Token.ofOperator op :: operandTokens (needsGroup op .right operand) operand.infixTokens
  | binary op _ left right =>
    operandTokens (needsGroup op .left left) left.infixTokens ++
      Token.ofOperator op :: operandTokens (needsGroup op .right right) right.infixTokens
  | group inner => parenthesized inner.infixTokens
  | call f _ args => f :: parenthesized ([Token.separator].intercalate (infixLists args))

/-- The tokens of every one of several expressions in the order in which they are read. -/
def infixLists : List Expression → List (List Token)
  | [] => []
  | e :: rest => e.infixTokens :: infixLists rest

end

mutual

/-- The tokens in the order in which they are evaluated. Groups leave no trace. -/
def postfixTokens : Expression → List Token
  | value t _ => [t]
  | sign op _ operand => operand.postfixTokens ++ [Token.ofOperator op]
  | binary op _ left right =>
    left.postfixTokens ++ right.postfixTokens ++ [Token.ofOperator op]
  | group inner => inner.postfixTokens
  | call f _ args => postfixLists args ++ [callToken f args.length]

/-- The tokens of several expressions, one after the other, in the order in which they are
evaluated. -/
def postfixLists : List Expression → List Token
  | [] => []
  | e :: rest => e.postfixTokens ++ postfixLists rest

end

mutual

/-- The token that the expression comes to. Operands and arguments are evaluated from left to right,
and the first failure ends the evaluation. -/
def evaluate (registry : Registry) : Expression → Evaluation Token
  | value t _ => return t
  | sign op _ operand => do
    let x ← operand.evaluate registry
    applyOperator (Token.ofOperator op) [x]
  | binary op _ left right => do
    let x ← left.evaluate registry
    let y ← right.evaluate registry
    applyOperator (Token.ofOperator op) [x, y]
  | group inner => inner.evaluate registry
  | call f _ args => do
    let values ← evaluateAll registry args
    Evaluation.reading fun store ↦
      callFunction registry store (callToken f args.length) values

/-- The tokens that several expressions come to. -/
def evaluateAll (registry : Registry) : List Expression → Evaluation (List Token)
  | [] => return []
  | e :: rest => do
    let x ← e.evaluate registry
    let values ← evaluateAll registry rest
    return x :: values

end

/-- The value of the expression: what it comes to, looked up in the store if that is a bare name. -/
def result (registry : Registry) (e : Expression) : Evaluation Token := do
  let t ← e.evaluate registry
  Evaluation.reading fun store ↦ lookUp store t

end Expression

end MatrixCalculator
