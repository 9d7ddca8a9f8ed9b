import MatrixCalculator.Proofs.EvaluationRuns
import MatrixCalculator.Proofs.ReorderingSteps
import MatrixCalculator.Proofs.TokenReading

/-!
# Operands that are missing or too many

Reordering does not check that operands and operators alternate. What can go wrong is an operator
that is missing between two operands (`operatorMissing`) and an operand that is missing where one
is due (`Position.complete`). How many tokens an evaluation leaves on its stack is known before it
runs: every token adds its `Token.weight`. Reordering keeps the sum of the weights in balance with
what has been read (`Balanced`), so that every missing operator leaves one token more on the stack,
as long as no operand is missing (`two_le_totalWeight`).
-/

set_option autoImplicit false

namespace MatrixCalculator

open Evaluation

/-! ### Neighbouring tokens -/

namespace Token

/-- Whether an operand ends with the token. -/
def endsOperand (t : Token) : Bool :=
  t.kind.isValue || t.kind == .rightBrace

/-- Whether an operand starts with the token. -/
def startsOperand (t : Token) : Bool :=
  t.kind.isValue || t.kind == .function || t.kind == .leftBrace

end Token

/-- Whether an operand ends somewhere and the next one starts right behind it. -/
def operatorMissing : List Token → Bool
  | t :: u :: rest => t.endsOperand && u.startsOperand || operatorMissing (u :: rest)
  | _ => false

/-- What is expected of the next token. -/
inductive Position where
  /-- An operand is due: at the start, behind an operator, behind the parenthesis of a group. -/
  | due
  /-- An argument may start here, or be left out. -/
  | argument
  /-- The parenthesis of a call comes next. -/
  | function
  /-- An operand has ended. -/
  | operand
  deriving DecidableEq

namespace Position

/-- The position behind a token. -/
def after (p : Position) (t : Token) : Position :=
  match t.kind with
  | .function => function
  | .operator => due
  | .argSeparator => argument
  | .leftBrace => if p = function then argument else due
  | _ => operand

/-- Whether a token stands where an operand should: a separator or a closing parenthesis where an
operand is due, or an operator between two operands without the left one. -/
def lacksOperand (p : Position) (t : Token) : Bool :=
  match p, t.kind with
  | due, .argSeparator | due, .rightBrace => true
  | due, .operator | argument, .operator => t.paramCount != 1
  | _, _ => false

/-- Whether an operand stands wherever one is due. -/
def complete : Position → List Token → Bool
  | p, [] => p != due
  | p, t :: rest => !p.lacksOperand t && complete (p.after t) rest

/-- The operands that have ended, or are about to, since one was due last. -/
def inHand : Position → Nat
  | operand | function => 1
  | due | argument => 0

/-- Whether the last function has its parenthesis, if it has one. -/
def hasOpened : Position → Bool
  | function => false
  | due | argument | operand => true

/-- The number of operators that are missing. -/
def gaps : Position → List Token → Nat
  | _, [] => 0
  | p, t :: rest => (if p = operand ∧ t.startsOperand = true then 1 else 0) + gaps (p.after t) rest

/-- Nothing that ends an argument or a parenthesis stands where an operand is due. -/
theorem ne_due_of_lacksOperand {p : Position} {t : Token}
    (closes : t.kind = .argSeparator ∨ t.kind = .rightBrace) (stands : p.lacksOperand t = false) :
    p ≠ due := by
  rintro rfl
  rcases closes with isSeparator | isRightBrace
  · simp [lacksOperand, isSeparator] at stands
  · simp [lacksOperand, isRightBrace] at stands

theorem after_of_endsOperand (p : Position) {t : Token} (ends : t.endsOperand = true) :
    p.after t = operand := by
  obtain ⟨kind, _⟩ := t
  cases kind <;> first | rfl | exact Bool.noConfusion ends

theorem gaps_pos_of_operatorMissing {tokens : List Token} (missing : operatorMissing tokens = true)
    (p : Position) : 0 < p.gaps tokens := by
  induction tokens generalizing p with
  | nil => cases missing
  | cons t rest ih =>
    cases rest with
    | nil => cases missing
    | cons u rest =>
      rw [operatorMissing, Bool.or_eq_true, Bool.and_eq_true] at missing
      rcases missing with ⟨ends, starts⟩ | later
      · have here : 0 < operand.gaps (u :: rest) := by
          rw [gaps, if_pos ⟨rfl, starts⟩]
          omega
        rw [gaps, after_of_endsOperand p ends]
        omega
      · have behind := ih later (p.after t)
        rw [gaps]
        omega

end Position

/-! ### Weights -/

namespace Token

/-- How many tokens more are on the stack when the token has been evaluated. -/
def weight (t : Token) : Int :=
  match t.kind with
  | .operator => 1 - t.paramCount
  | .function => 1 - t.argCount
  | _ => 1

/-- The weight that a waiting token will have; a parenthesis is not let through. -/
def waitingWeight (t : Token) : Int :=
  if t.kind = .leftBrace then 0 else t.weight

theorem weight_of_isValue {t : Token} (isValue : t.kind.isValue = true) : t.weight = 1 := by
  obtain ⟨kind, _⟩ := t
  cases kind <;> first | rfl | exact Bool.noConfusion isValue

end Token

/-- The sum of the weights of tokens. -/
def totalWeight (tokens : List Token) : Int :=
  (tokens.map Token.weight).sum

/-- The sum of the weights that waiting tokens will have. -/
def totalWaitingWeight (tokens : List Token) : Int :=
  (tokens.map Token.waitingWeight).sum

@[simp] theorem totalWeight_nil : totalWeight [] = 0 := rfl

@[simp] theorem totalWeight_cons (t : Token) (rest : List Token) :
    totalWeight (t :: rest) = t.weight + totalWeight rest := by
  rw [totalWeight, List.map_cons, List.sum_cons, totalWeight]

@[simp] theorem totalWeight_append (front behind : List Token) :
    totalWeight (front ++ behind) = totalWeight front + totalWeight behind := by
  rw [totalWeight, List.map_append, List.sum_append, totalWeight, totalWeight]

@[simp] theorem totalWeight_reverse (tokens : List Token) :
    totalWeight tokens.reverse = totalWeight tokens := by
  rw [totalWeight, List.map_reverse, List.sum_reverse, totalWeight]

@[simp] theorem totalWaitingWeight_nil : totalWaitingWeight [] = 0 := rfl

@[simp] theorem totalWaitingWeight_cons (t : Token) (rest : List Token) :
    totalWaitingWeight (t :: rest) = t.waitingWeight + totalWaitingWeight rest := by
  rw [totalWaitingWeight, List.map_cons, List.sum_cons, totalWaitingWeight]

@[simp] theorem totalWaitingWeight_append (front behind : List Token) :
    totalWaitingWeight (front ++ behind) =
      totalWaitingWeight front + totalWaitingWeight behind := by
  rw [totalWaitingWeight, List.map_append, List.sum_append, totalWaitingWeight,
    totalWaitingWeight]

theorem totalWaitingWeight_eq {tokens : List Token} (passes : ∀ w ∈ tokens, w.kind ≠ .leftBrace) :
    totalWaitingWeight tokens = totalWeight tokens := by
  induction tokens with
  | nil => rfl
  | cons t rest ih =>
    rw [List.forall_mem_cons] at passes
    rw [totalWaitingWeight_cons, totalWeight_cons, ih passes.2, Token.waitingWeight,
      if_neg passes.1]

theorem length_of_takeOperands {stack operands below : List Token} {count : Nat} {what : String}
    (taken : takeOperands stack count what = .ok (operands, below)) :
    stack.length = below.length + count := by
  unfold takeOperands at taken
  split_ifs at taken with tooFew
  cases taken
  rw [List.length_drop]
  omega

/-- An operator or a function leaves one token in place of those that it takes. -/
theorem length_of_runOn_taken {stack out : List Token} {count : Nat} {what : String}
    {apply : List Token → Evaluation Token} {store left : Store}
    (ran : (do
      let (operands, below) ← (ofExcept (takeOperands stack count what) : Evaluation _)
      return (← apply operands) :: below : Evaluation (List Token)).runOn store = (.ok out, left)) :
    (out.length : Int) = stack.length + (1 - count) := by
  obtain ⟨⟨operands, below⟩, middle, taken, ran⟩ := exists_of_runOn_bind ran
  obtain ⟨result, last, -, ran⟩ := exists_of_runOn_bind ran
  rw [runOn_ofExcept] at taken
  have counted := length_of_takeOperands (Prod.mk.inj taken).1
  obtain rfl : result :: below = out := Except.ok.inj (Prod.mk.inj ran).1
  rw [List.length_cons, counted]
  push_cast
  omega

theorem length_of_runOn_evaluateToken (registry : Registry) {stack out : List Token} {t : Token}
    {store left : Store} (ran : (evaluateToken registry stack t).runOn store = (.ok out, left)) :
    (out.length : Int) = stack.length + t.weight := by
  unfold evaluateToken at ran
  split at ran
  · rename_i isOperator
    have weight : t.weight = 1 - t.paramCount := by rw [Token.weight, isOperator]
    rw [weight]
    exact length_of_runOn_taken ran
  · rename_i isFunction
    have weight : t.weight = 1 - t.argCount := by rw [Token.weight, isFunction]
    rw [weight]
    exact @length_of_runOn_taken stack out t.argCount t.name
      (fun args ↦ reading fun store ↦ callFunction registry store t args) store left ran
  · rename_i noOperator noFunction
    have weight : t.weight = 1 := by
      unfold Token.weight
      split
      · exact absurd ‹_› noOperator
      · exact absurd ‹_› noFunction
      · rfl
    obtain rfl : t :: stack = out := Except.ok.inj (Prod.mk.inj ran).1
    rw [weight, List.length_cons]
    omega

/-- Evaluation leaves as many tokens more on the stack as the weights add up to. -/
theorem length_of_runOn_evaluateTokens (registry : Registry) {stack tokens out : List Token}
    {store left : Store}
    (ran : (evaluateTokens registry stack tokens).runOn store = (.ok out, left)) :
    (out.length : Int) = stack.length + totalWeight tokens := by
  induction tokens generalizing stack store with
  | nil =>
    obtain rfl : stack = out := Except.ok.inj (Prod.mk.inj ran).1
    simp
  | cons t rest ih =>
    obtain ⟨between, middle, first, others⟩ := exists_of_runOn_bind ran
    have ofToken := length_of_runOn_evaluateToken registry first
    have ofRest := ih others
    rw [totalWeight_cons]
    omega

/-! ### The balance of reordering -/

namespace Reordering

/-- The number of tokens that the evaluation of what has been read will leave on the stack, if no
more arguments are read. -/
def balance (s : Reordering) : Int :=
  totalWeight s.emitted + totalWaitingWeight s.waiting - (s.argCounts.sum : Nat)

/-- The number of functions that wait for their arguments, none of which has been turned into an
operand of an operator that waits directly above the function. -/
def openCalls : Bool → List Token → Nat
  | _, [] => 0
  | counts, t :: rest =>
    (if t.kind = .function ∧ counts = true then 1 else 0) + openCalls (t.kind != .operator) rest

/-- What reordering has in hand at a position behind some missing operators. -/
structure Balanced (s : Reordering) (p : Position) (missing : Nat) : Prop where
  le_balance :
    ((p.inHand + missing + openCalls p.hasOpened s.waiting : Nat) : Int) ≤ s.balance
  uncounted : ∀ w ∈ s.waiting, w.kind = .function → w.argCount = 0
  behindFunction : p = .function →
    s.hadValue = false ∧ ∃ f below, s.waiting = f :: below ∧ f.kind = .function
  behindArgument : p = .argument →
    s.hadValue = false ∧ ∃ brace f below, s.waiting = brace :: f :: below ∧
      brace.kind = .leftBrace ∧ f.kind = .function

theorem openCalls_le (counts : Bool) (waiting : List Token) :
    openCalls false waiting ≤ openCalls counts waiting ∧
      openCalls counts waiting ≤ openCalls false waiting + 1 := by
  cases waiting with
  | nil => simp [openCalls]
  | cons t rest =>
    rw [openCalls, openCalls, if_neg (by simp)]
    split_ifs <;> omega

theorem openCalls_cons_of_isOperator {t : Token} (isOperator : t.kind = .operator) (counts : Bool)
    (rest : List Token) : openCalls counts (t :: rest) = openCalls false rest := by
  simp [openCalls, isOperator]

theorem openCalls_cons_of_isBrace {t : Token} (isBrace : t.kind = .leftBrace) (counts : Bool)
    (rest : List Token) : openCalls counts (t :: rest) = openCalls true rest := by
  rw [openCalls, isBrace, if_neg (by simp), Nat.zero_add]
  rfl

theorem openCalls_cons_of_isFunction {t : Token} (isFunction : t.kind = .function) (counts : Bool)
    (rest : List Token) :
    openCalls counts (t :: rest) = (if counts then 1 else 0) + openCalls true rest := by
  rw [openCalls, isFunction]
  simp only [true_and]
  rfl

/-- What waits on top takes nothing away from what waits below a parenthesis. -/
theorem openCalls_le_append {brace : Token} (isBrace : brace.kind = .leftBrace) (counts : Bool)
    (front below : List Token) :
    openCalls true below ≤ openCalls counts (front ++ brace :: below) := by
  induction front generalizing counts with
  | nil => rw [List.nil_append, openCalls_cons_of_isBrace isBrace]
  | cons t front ih =>
    rw [List.cons_append, openCalls]
    exact Nat.le_trans (ih _) (Nat.le_add_left _ _)

/-- Letting operators through frees no function from the operator above it. -/
theorem openCalls_dropWhile_le (t : Token) (counts : Bool) (waiting : List Token) :
    openCalls false (waiting.dropWhile (goesFirst t)) ≤ openCalls counts waiting := by
  induction waiting generalizing counts with
  | nil => simp [openCalls]
  | cons w rest ih =>
    by_cases first : goesFirst t w = true
    · have isOperator : w.kind = .operator := by
        rw [goesFirst, Bool.and_eq_true, beq_iff_eq] at first
        exact first.1
      rw [List.dropWhile_cons_of_pos first, openCalls_cons_of_isOperator isOperator]
      exact ih false
    · rw [List.dropWhile_cons_of_neg first]
      exact (openCalls_le counts (w :: rest)).1

section Steps

variable {s s' : Reordering} {p : Position} {t : Token} {missing : Nat}

theorem waitingWeight_of_isFunction {f : Token} (isFunction : f.kind = .function)
    (uncounted : f.argCount = 0) : f.waitingWeight = 1 := by
  simp [Token.waitingWeight, Token.weight, isFunction, uncounted]

theorem waitingWeight_of_isBrace {brace : Token} (isBrace : brace.kind = .leftBrace) :
    brace.waitingWeight = 0 := by
  rw [Token.waitingWeight, if_pos isBrace]

theorem Balanced.value (balanced : s.Balanced p missing) (isValue : t.kind.isValue = true) :
    Balanced { s.markValue with emitted := t :: s.emitted } .operand
      (missing + if p = .operand then 1 else 0) := by
  obtain ⟨le_balance, uncounted, -, -⟩ := balanced
  refine ⟨?_, uncounted, Position.noConfusion, Position.noConfusion⟩
  have calls := openCalls_le p.hasOpened s.waiting
  have all := openCalls_le true s.waiting
  have total : balance { s.markValue with emitted := t :: s.emitted } = s.balance + 1 := by
    simp only [balance, markValue, totalWeight_cons, Token.weight_of_isValue isValue]
    omega
  rw [total]
  cases p <;> simp only [Position.inHand, Position.hasOpened, reduceCtorEq, if_true, if_false,
    markValue_waiting] at le_balance calls ⊢ <;> omega

theorem Balanced.function (balanced : s.Balanced p missing) (isFunction : t.kind = .function)
    (fresh : t.argCount = 0) :
    Balanced ⟨s.emitted, t :: s.waiting, false :: s.markValue.valueSeen, 0 :: s.argCounts⟩ .function
      (missing + if p = .operand then 1 else 0) := by
  obtain ⟨le_balance, uncounted, -, -⟩ := balanced
  refine ⟨?_, List.forall_mem_cons.mpr ⟨fun _ ↦ fresh, uncounted⟩,
    fun _ ↦ ⟨rfl, t, s.waiting, rfl, isFunction⟩, Position.noConfusion⟩
  have calls := openCalls_le p.hasOpened s.waiting
  have all := openCalls_le true s.waiting
  have total : balance ⟨s.emitted, t :: s.waiting, false :: s.markValue.valueSeen,
      0 :: s.argCounts⟩ = s.balance + 1 := by
    simp only [balance, totalWaitingWeight_cons, waitingWeight_of_isFunction isFunction fresh,
      List.sum_cons, Nat.zero_add]
    omega
  rw [total, openCalls_cons_of_isFunction isFunction]
  cases p <;> simp only [Position.inHand, Position.hasOpened, reduceCtorEq, if_true, if_false,
    Bool.false_eq_true] at le_balance calls ⊢ <;> omega

theorem Balanced.operator (balanced : s.Balanced p missing) (isOperator : t.kind = .operator)
    (operands : t.paramCount ≤ 2) (stands : p.lacksOperand t = false) :
    (s.operator t).Balanced .due missing := by
  obtain ⟨le_balance, uncounted, -, -⟩ := balanced
  have passes : ∀ w ∈ s.waiting.takeWhile (goesFirst t), w.kind ≠ .leftBrace := by
    intro w isMem
    rw [isOperator_of_mem_takeWhile isMem]
    exact TokenKind.noConfusion
  have calls := openCalls_dropWhile_le t p.hasOpened s.waiting
  have total : (s.operator t).balance = s.balance + 1 - t.paramCount := by
    have parted : totalWaitingWeight s.waiting =
        totalWeight (s.waiting.takeWhile (goesFirst t)) +
          totalWaitingWeight (s.waiting.dropWhile (goesFirst t)) := by
      rw [← totalWaitingWeight_eq passes, ← totalWaitingWeight_append,
        List.takeWhile_append_dropWhile]
    have weight : t.waitingWeight = 1 - t.paramCount := by
      simp [Token.waitingWeight, Token.weight, isOperator]
    simp only [balance, Reordering.operator, totalWeight_append, totalWeight_reverse,
      totalWaitingWeight_cons, weight, parted]
    omega
  refine ⟨?_, ?_, Position.noConfusion, Position.noConfusion⟩
  · rw [total, Reordering.operator, openCalls_cons_of_isOperator isOperator]
    cases p <;> simp only [Position.inHand, Position.hasOpened, Position.lacksOperand, isOperator,
      bne_eq_false_iff_eq] at le_balance calls stands ⊢ <;> omega
  · refine List.forall_mem_cons.mpr ⟨fun isFunction ↦ ?_, fun w isMem ↦ ?_⟩
    · rw [isOperator] at isFunction
      cases isFunction
    · exact uncounted w ((List.dropWhile_sublist _).subset isMem)

theorem Balanced.leftBrace (balanced : s.Balanced p missing) (isBrace : t.kind = .leftBrace) :
    Balanced { s with waiting := t :: s.waiting } (if p = .function then .argument else .due)
      (missing + if p = .operand then 1 else 0) := by
  obtain ⟨le_balance, uncounted, behindFunction, -⟩ := balanced
  have calls := openCalls_le p.hasOpened s.waiting
  have all := openCalls_le true s.waiting
  have total : balance { s with waiting := t :: s.waiting } = s.balance := by
    simp only [balance, totalWaitingWeight_cons, waitingWeight_of_isBrace isBrace]
    omega
  have noFunction : ∀ w ∈ t :: s.waiting, w.kind = .function → w.argCount = 0 := by
    refine List.forall_mem_cons.mpr ⟨fun isFunction ↦ ?_, uncounted⟩
    rw [isBrace] at isFunction
    cases isFunction
  by_cases isCall : p = .function
  · subst isCall
    refine ⟨?_, noFunction, Position.noConfusion, fun _ ↦ ?_⟩
    · rw [total, openCalls_cons_of_isBrace isBrace]
      simp only [Position.inHand, Position.hasOpened, reduceCtorEq, if_true, if_false]
        at le_balance calls ⊢
      omega
    · obtain ⟨noValue, f, below, waits, isFunction⟩ := behindFunction rfl
      exact ⟨noValue, t, f, below, by rw [waits], isBrace, isFunction⟩
  · rw [if_neg isCall]
    refine ⟨?_, noFunction, Position.noConfusion, Position.noConfusion⟩
    rw [total, openCalls_cons_of_isBrace isBrace]
    cases p <;> simp only [Position.inHand, Position.hasOpened, reduceCtorEq, if_true, if_false]
      at le_balance calls ⊢ <;> omega

/-- An argument that ends adds one to those that were counted if it has a value. -/
theorem argCount_add_sum (s : Reordering) :
    s.argCount + s.argCounts.tail.sum = s.argCounts.sum + if s.hadValue then 1 else 0 := by
  rw [argCount]
  cases s.argCounts with
  | nil => simp
  | cons count counts =>
    simp only [List.head?_cons, Option.getD_some, List.tail_cons, List.sum_cons]
    omega

/-- Where an argument can end, the value that it has is in hand. -/
theorem Balanced.hadValue_le (balanced : s.Balanced p missing) (notDue : p ≠ .due) :
    (if s.hadValue then 1 else 0) ≤ p.inHand := by
  cases p with
  | due => exact absurd rfl notDue
  | argument => rw [(balanced.behindArgument rfl).1]; exact Nat.le_refl 0
  | function | operand => split_ifs <;> simp [Position.inHand]

theorem Balanced.separator (balanced : s.Balanced p missing) {front below : List Token}
    {brace f : Token} (waits : s.waiting = front ++ brace :: f :: below)
    (passes : ∀ w ∈ front, w.kind ≠ .leftBrace) (isBrace : brace.kind = .leftBrace)
    (isCall : f.kind = .function) (notDue : p ≠ .due) :
    Balanced ⟨front.reverse ++ s.emitted, brace :: f :: below, false :: s.valueSeen.tail,
      s.argCount :: s.argCounts.tail⟩ .argument missing := by
  have hadValue := balanced.hadValue_le notDue
  obtain ⟨le_balance, uncounted, -, -⟩ := balanced
  refine ⟨?_, fun w isMem ↦ uncounted w (by rw [waits]; exact List.mem_append_right _ isMem),
    Position.noConfusion, fun _ ↦ ⟨rfl, brace, f, below, rfl, isBrace, isCall⟩⟩
  have calls := openCalls_le_append isBrace p.hasOpened front (f :: below)
  have counts := argCount_add_sum s
  have total : balance ⟨front.reverse ++ s.emitted, brace :: f :: below, false :: s.valueSeen.tail,
      s.argCount :: s.argCounts.tail⟩ = s.balance - (if s.hadValue then 1 else 0 : Nat) := by
    simp only [balance, waits, totalWeight_append, totalWeight_reverse, totalWaitingWeight_append,
      totalWaitingWeight_eq passes, List.sum_cons, counts]
    omega
  rw [waits] at le_balance
  rw [total, openCalls_cons_of_isBrace isBrace, Position.inHand]
  omega

theorem Balanced.group (balanced : s.Balanced p missing) {front below : List Token} {brace : Token}
    (waits : s.waiting = front ++ brace :: below) (passes : ∀ w ∈ front, w.kind ≠ .leftBrace)
    (isBrace : brace.kind = .leftBrace) (noCall : ∀ w ∈ below.head?, w.kind ≠ .function)
    (notDue : p ≠ .due) :
    Balanced { s with emitted := front.reverse ++ s.emitted, waiting := below } .operand
      missing := by
  obtain ⟨le_balance, uncounted, -, behindArgument⟩ := balanced
  have inHand : p.inHand = 1 := by
    cases p with
    | due => exact absurd rfl notDue
    | function | operand => rfl
    | argument =>
      -- The parenthesis behind which an argument starts is that of a call.
      obtain ⟨-, callBrace, f, rest, same, isCallBrace, isCall⟩ := behindArgument rfl
      rw [waits] at same
      cases front with
      | nil =>
        obtain ⟨-, rfl⟩ := List.cons.inj same
        exact absurd isCall (noCall f rfl)
      | cons w front =>
        obtain ⟨rfl, -⟩ := List.cons.inj same
        exact absurd isCallBrace (passes w List.mem_cons_self)
  have calls := openCalls_le_append isBrace p.hasOpened front below
  have total : balance { s with emitted := front.reverse ++ s.emitted, waiting := below } =
      s.balance := by
    simp only [balance, waits, totalWeight_append, totalWeight_reverse, totalWaitingWeight_append,
      totalWaitingWeight_eq passes, totalWaitingWeight_cons, waitingWeight_of_isBrace isBrace]
    omega
  refine ⟨?_, fun w isMem ↦ uncounted w (by rw [waits]; simp [isMem]), Position.noConfusion,
    Position.noConfusion⟩
  rw [waits] at le_balance
  rw [total]
  simp only [Position.inHand, Position.hasOpened]
  omega

theorem Balanced.call (balanced : s.Balanced p missing) {front below : List Token}
    {brace f : Token} (waits : s.waiting = front ++ brace :: f :: below)
    (passes : ∀ w ∈ front, w.kind ≠ .leftBrace) (isBrace : brace.kind = .leftBrace)
    (isCall : f.kind = .function) (notDue : p ≠ .due) :
    Balanced ⟨{ f with argCount := s.argCount } :: (front.reverse ++ s.emitted), below,
      s.valueSeen.tail, s.argCounts.tail⟩ .operand missing := by
  have hadValue := balanced.hadValue_le notDue
  obtain ⟨le_balance, uncounted, -, -⟩ := balanced
  have fresh : f.argCount = 0 := uncounted f (by rw [waits]; simp) isCall
  have calls := openCalls_le_append isBrace p.hasOpened front (f :: below)
  have counts := argCount_add_sum s
  have weight : ({ f with argCount := s.argCount } : Token).weight = 1 - s.argCount := by
    simp [Token.weight, isCall]
  have total : balance ⟨{ f with argCount := s.argCount } :: (front.reverse ++ s.emitted), below,
      s.valueSeen.tail, s.argCounts.tail⟩ = s.balance - (if s.hadValue then 1 else 0 : Nat) := by
    simp only [balance, waits, totalWeight_append, totalWeight_reverse, totalWaitingWeight_append,
      totalWaitingWeight_eq passes, totalWeight_cons, totalWaitingWeight_cons, weight,
      waitingWeight_of_isBrace isBrace, waitingWeight_of_isFunction isCall fresh]
    omega
  refine ⟨?_, fun w isMem ↦ uncounted w (by rw [waits]; simp [isMem]), Position.noConfusion,
    Position.noConfusion⟩
  rw [openCalls_cons_of_isFunction isCall, if_pos rfl] at calls
  rw [waits] at le_balance
  rw [total]
  simp only [Position.inHand, Position.hasOpened]
  omega

/-- A token as it is read takes at most two operands, and no arguments have been counted for it. -/
def IsFresh (t : Token) : Prop :=
  (t.kind = .operator → t.paramCount ≤ 2) ∧ (t.kind = .function → t.argCount = 0)

theorem Balanced.takes (balanced : s.Balanced p missing) (isFresh : IsFresh t)
    (stands : p.lacksOperand t = false) (takes : Takes s t s') :
    s'.Balanced (p.after t)
      (missing + if p = .operand ∧ t.startsOperand = true then 1 else 0) := by
  cases takes with
  | value isValue =>
    have starts : t.startsOperand = true := by simp [Token.startsOperand, isValue]
    have after := p.after_of_endsOperand (t := t) (by simp [Token.endsOperand, isValue])
    simp only [starts, after, and_true]
    exact balanced.value isValue
  | function isFunction =>
    simp only [Token.startsOperand, Position.after, isFunction, and_true, beq_self_eq_true,
      Bool.or_true, Bool.true_or]
    exact balanced.function isFunction (isFresh.2 isFunction)
  | operator isOperator =>
    have noStart : t.startsOperand = false := by simp [Token.startsOperand, isOperator]; rfl
    simp only [noStart, Position.after, isOperator, and_false, if_false, Bool.false_eq_true]
    exact balanced.operator isOperator (isFresh.1 isOperator) stands
  | leftBrace isLeftBrace =>
    have starts : t.startsOperand = true := by simp [Token.startsOperand, isLeftBrace]
    simp only [starts, Position.after, isLeftBrace, and_true]
    exact balanced.leftBrace isLeftBrace
  | separator isSeparator front brace f below count counts waits passes isBrace isCall counted =>
    have noStart : t.startsOperand = false := by simp [Token.startsOperand, isSeparator]; rfl
    have ended := balanced.separator waits passes isBrace isCall
      (Position.ne_due_of_lacksOperand (Or.inl isSeparator) stands)
    simp only [noStart, Position.after, isSeparator, and_false, if_false, Bool.false_eq_true]
    rwa [counted] at ended
  | group isRightBrace front brace below waits passes isBrace noCall =>
    have noStart : t.startsOperand = false := by simp [Token.startsOperand, isRightBrace]; rfl
    simp only [noStart, Position.after, isRightBrace, and_false, if_false, Bool.false_eq_true]
    exact balanced.group waits passes isBrace noCall
      (Position.ne_due_of_lacksOperand (Or.inr isRightBrace) stands)
  | call isRightBrace front brace f below waits passes isBrace isCall =>
    have noStart : t.startsOperand = false := by simp [Token.startsOperand, isRightBrace]; rfl
    simp only [noStart, Position.after, isRightBrace, and_false, if_false, Bool.false_eq_true]
    exact balanced.call waits passes isBrace isCall
      (Position.ne_due_of_lacksOperand (Or.inr isRightBrace) stands)

theorem Balanced.run {tokens : List Token} (balanced : s.Balanced p missing)
    (areFresh : ∀ t ∈ tokens, IsFresh t) (complete : p.complete tokens = true)
    (ran : s.run tokens = .ok s') :
    ∃ q, q ≠ .due ∧ s'.Balanced q (missing + p.gaps tokens) := by
  induction tokens generalizing s p missing with
  | nil =>
    obtain rfl := Except.ok.inj ran
    exact ⟨p, by simpa [Position.complete] using complete, by simpa [Position.gaps] using balanced⟩
  | cons t rest ih =>
    rw [List.forall_mem_cons] at areFresh
    rw [Position.complete, Bool.and_eq_true, Bool.not_eq_true'] at complete
    obtain ⟨middle, takes, ran⟩ := takes_of_run_cons ran
    obtain ⟨q, notDue, ofRest⟩ :=
      ih (balanced.takes areFresh.1 complete.1 takes) areFresh.2 complete.2 ran
    rw [Nat.add_assoc] at ofRest
    exact ⟨q, notDue, ofRest⟩

/-- What waits at the end is let through without loss. -/
theorem le_totalWeight_of_drain {waiting out : List Token}
    (uncounted : ∀ w ∈ waiting, w.kind = .function → w.argCount = 0)
    (drained : s.drain waiting = .ok out) :
    totalWeight s.emitted + totalWaitingWeight waiting - (s.argCounts.sum : Nat) ≤
      totalWeight out := by
  induction waiting generalizing s with
  | nil =>
    obtain rfl := Except.ok.inj drained
    rw [totalWeight_reverse, totalWaitingWeight_nil]
    omega
  | cons w rest ih =>
    rw [List.forall_mem_cons] at uncounted
    rw [drain] at drained
    split at drained
    · cases drained
    · cases drained
    · rename_i isFunction
      have ofRest := ih uncounted.2 drained
      have counts : s.argCounts.head?.getD 0 + s.argCounts.tail.sum = s.argCounts.sum := by
        cases s.argCounts <;> simp
      have weight (n : Nat) : ({ w with argCount := n } : Token).weight = 1 - n := by
        simp [Token.weight, isFunction]
      simp only [finishCall, totalWeight_cons, weight] at ofRest
      rw [totalWaitingWeight_cons, waitingWeight_of_isFunction isFunction (uncounted.1 isFunction)]
      omega
    · rename_i noBrace _ _
      have ofRest := ih uncounted.2 drained
      have weight : w.waitingWeight = w.weight := if_neg noBrace
      simp only [totalWeight_cons] at ofRest
      rw [totalWaitingWeight_cons, weight]
      omega

end Steps

end Reordering

/-- If operators are missing but no operand is, the tokens in postfix order leave more than one
token on the stack. -/
theorem two_le_totalWeight {tokens out : List Token} (areFresh : ∀ t ∈ tokens, Reordering.IsFresh t)
    (missing : operatorMissing tokens = true) (complete : Position.due.complete tokens = true)
    (ordered : toPostfix tokens = .ok out) : 2 ≤ totalWeight out := by
  rw [toPostfix] at ordered
  rcases ran : Reordering.start.run tokens with error | s
  · rw [ran] at ordered
    cases ordered
  · rw [ran, ok_bind] at ordered
    have started : Reordering.start.Balanced .due 0 :=
      ⟨by decide, by simp [Reordering.start], Position.noConfusion, Position.noConfusion⟩
    obtain ⟨p, notDue, le_balance, uncounted, -, behindArgument⟩ :=
      started.run areFresh complete ran
    have gaps := Position.gaps_pos_of_operatorMissing missing .due
    have inHand : p.inHand = 1 := by
      cases p with
      | due => exact absurd rfl notDue
      | function | operand => rfl
      | argument =>
        obtain ⟨-, brace, f, below, waits, isBrace, -⟩ := behindArgument rfl
        rw [waits, Reordering.drain, isBrace] at ordered
        cases ordered
    have drained := Reordering.le_totalWeight_of_drain uncounted ordered
    rw [Reordering.balance] at le_balance
    omega

end MatrixCalculator
