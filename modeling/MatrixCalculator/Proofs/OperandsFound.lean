import MatrixCalculator.Proofs.AssignedNames
import MatrixCalculator.Proofs.OperandBalance

/-!
# Tokens that find their operands

How deep the stack is when a token is evaluated is known before the evaluation, and so is whether
the token finds all the operands that it takes (`findsOperands`). Tokens that find their operands
leave something on the stack (`pos_of_findsOperands`), and they are evaluated above other values
just as they are by themselves (`evaluateTokens_above`). Nothing less will do for an evaluation that
does not fail (`findsOperands_of_runOn`), and the tokens of a tree have it
(`Expression.findsOperands_postfixTokens`).
-/

set_option autoImplicit false

namespace MatrixCalculator

open Evaluation

variable {registry : Registry}

namespace Token

/-- The number of operands that a token in postfix order takes off the stack. -/
def operandCount (t : Token) : Nat :=
  match t.kind with
  | .operator => t.paramCount
  | .function => t.argCount
  | _ => 0

/-- In place of its operands a token leaves one. -/
theorem weight_eq (t : Token) : t.weight = 1 - t.operandCount := by
  cases kind : t.kind <;> simp [weight, operandCount, kind]

end Token

/-- Whether each token finds all its operands on the stack, which has some depth before the
first. -/
def findsOperands : Nat → List Token → Bool
  | _, [] => true
  | depth, t :: rest =>
    decide (t.operandCount ≤ depth) && findsOperands (depth - t.operandCount + 1) rest

theorem findsOperands_cons_iff {depth : Nat} {t : Token} {rest : List Token} :
    findsOperands depth (t :: rest) = true ↔
      t.operandCount ≤ depth ∧ findsOperands (depth - t.operandCount + 1) rest = true := by
  rw [findsOperands, Bool.and_eq_true, decide_eq_true_eq]

/-- The stack is not empty behind tokens that find their operands, unless it was before and there
are none. -/
theorem pos_of_findsOperands {depth : Nat} {tokens : List Token}
    (finds : findsOperands depth tokens = true) (isSome : tokens ≠ [] ∨ 0 < depth) :
    0 < depth + totalWeight tokens := by
  induction tokens generalizing depth with
  | nil =>
    have := isSome.resolve_left (by simp)
    rw [totalWeight_nil]
    omega
  | cons t rest ih =>
    obtain ⟨enough, finds⟩ := findsOperands_cons_iff.mp finds
    have behind := ih finds (Or.inr (Nat.succ_pos _))
    rw [totalWeight_cons, t.weight_eq]
    omega

/-! ### Evaluation above other values -/

theorem exists_takeOperands {stack : List Token} {count : Nat} (enough : count ≤ stack.length)
    (what : String) :
    ∃ operands rest, takeOperands stack count what = .ok (operands, rest) :=
  ⟨_, _, if_neg (Nat.not_lt.mpr enough)⟩

/-- A token that finds its operands is evaluated above other values as it is by itself. -/
theorem evaluateToken_above {stack : List Token} {t : Token}
    (enough : t.operandCount ≤ stack.length) (below : List Token) :
    evaluateToken registry (stack ++ below) t =
      (· ++ below) <$> evaluateToken registry stack t := by
  cases kind : t.kind with
  | operator =>
    have enough : t.paramCount ≤ stack.length := by simpa [Token.operandCount, kind] using enough
    obtain ⟨operands, rest, taken⟩ := exists_takeOperands enough t.symbol
    simp only [evaluateToken, kind]
    exact taken_above taken below (applyOperator t)
  | function =>
    have enough : t.argCount ≤ stack.length := by simpa [Token.operandCount, kind] using enough
    obtain ⟨args, rest, taken⟩ := exists_takeOperands enough t.name
    simp only [evaluateToken, kind]
    exact taken_above taken below fun args ↦ reading fun store ↦ callFunction registry store t args
  | null | string | number | matrixRef | docsQuery | output | errorMarker | void | argSeparator
    | leftBrace | rightBrace =>
    simp only [evaluateToken, kind]
    rfl

/-- Tokens that find their operands are evaluated above other values as they are by themselves. -/
theorem evaluateTokens_above {stack tokens : List Token}
    (finds : findsOperands stack.length tokens = true) (below : List Token) :
    evaluateTokens registry (stack ++ below) tokens =
      (· ++ below) <$> evaluateTokens registry stack tokens := by
  induction tokens generalizing stack with
  | nil => rfl
  | cons t rest ih =>
    obtain ⟨enough, finds⟩ := findsOperands_cons_iff.mp finds
    rw [evaluateTokens, evaluateTokens, evaluateToken_above enough, bind_map_left, map_bind]
    refine bind_congr fun store left after ran ↦ ih ?_
    have deep := length_of_runOn_evaluateToken registry ran
    rw [t.weight_eq] at deep
    have depth : left.length = stack.length - t.operandCount + 1 := by omega
    rwa [depth]

/-! ### Which tokens find their operands -/

theorem count_le_of_runOn_taken {α : Type} {stack : List Token} {count : Nat} {what : String}
    {next : List Token × List Token → Evaluation α} {out : α} {store left : Store}
    (ran : (ofExcept (takeOperands stack count what) >>= next).runOn store = (.ok out, left)) :
    count ≤ stack.length := by
  obtain ⟨⟨operands, below⟩, middle, taken, -⟩ := exists_of_runOn_bind ran
  rw [runOn_ofExcept] at taken
  rw [length_of_takeOperands (Prod.mk.inj taken).1]
  exact Nat.le_add_left count below.length

theorem operandCount_le_of_runOn {stack out : List Token} {t : Token} {store left : Store}
    (ran : (evaluateToken registry stack t).runOn store = (.ok out, left)) :
    t.operandCount ≤ stack.length := by
  cases kind : t.kind with
  | operator =>
    simp only [evaluateToken, kind] at ran
    simpa [Token.operandCount, kind] using count_le_of_runOn_taken ran
  | function =>
    simp only [evaluateToken, kind] at ran
    simpa [Token.operandCount, kind] using count_le_of_runOn_taken ran
  | null | string | number | matrixRef | docsQuery | output | errorMarker | void | argSeparator
    | leftBrace | rightBrace =>
    simp [Token.operandCount, kind]

/-- An evaluation that does not fail finds all operands. -/
theorem findsOperands_of_runOn {stack tokens out : List Token} {store left : Store}
    (ran : (evaluateTokens registry stack tokens).runOn store = (.ok out, left)) :
    findsOperands stack.length tokens = true := by
  induction tokens generalizing stack store with
  | nil => rfl
  | cons t rest ih =>
    obtain ⟨between, middle, first, others⟩ := exists_of_runOn_bind ran
    have enough := operandCount_le_of_runOn first
    have deep := length_of_runOn_evaluateToken registry first
    rw [t.weight_eq] at deep
    have depth : between.length = stack.length - t.operandCount + 1 := by omega
    exact findsOperands_cons_iff.mpr ⟨enough, depth ▸ ih others⟩

namespace Expression

/-- The operands of a tree are found, and its tokens leave one token more on the stack. -/
def FindsAll (e : Expression) : Prop :=
  ∀ depth rest, findsOperands depth (e.postfixTokens ++ rest) = findsOperands (depth + 1) rest

theorem findsOperands_postfixLists {args : List Expression} (areFound : ∀ e ∈ args, e.FindsAll)
    (depth : Nat) (rest : List Token) :
    findsOperands depth (postfixLists args ++ rest) =
      findsOperands (depth + args.length) rest := by
  induction args generalizing depth with
  | nil => rfl
  | cons e args ih =>
    rw [List.forall_mem_cons] at areFound
    rw [postfixLists, List.append_assoc, areFound.1, ih areFound.2, List.length_cons,
      Nat.add_assoc, Nat.add_comm 1]

theorem findsAll (e : Expression) : e.FindsAll := by
  intro depth rest
  induction e generalizing depth rest with
  | value t isValue =>
    have none : t.operandCount = 0 := by
      obtain ⟨kind, _⟩ := t
      cases kind <;> first | rfl | exact Bool.noConfusion isValue
    simp [postfixTokens, findsOperands, none]
  | sign op isSign operand ih =>
    simp [postfixTokens, ih, findsOperands, Token.operandCount, Token.ofOperator, isSign]
  | binary op isBinary left right ihLeft ihRight =>
    simp [postfixTokens, ihLeft, ihRight, findsOperands, Token.operandCount, Token.ofOperator,
      isBinary]
  | group inner ih =>
    rw [postfixTokens]
    exact ih depth rest
  | call f isFunction args ih =>
    have counted : (callToken f args.length).operandCount = args.length := by
      simp [Token.operandCount, callToken, isFunction]
    rw [postfixTokens, List.append_assoc,
      findsOperands_postfixLists fun e isMem depth rest ↦ ih e isMem depth rest]
    simp [findsOperands, counted]

/-- The tokens of a tree find their operands. -/
theorem findsOperands_postfixTokens (e : Expression) (depth : Nat) :
    findsOperands depth e.postfixTokens = true := by
  rw [← List.append_nil e.postfixTokens, e.findsAll]
  rfl

end Expression

end MatrixCalculator
