import MatrixCalculator.Expression
import Mathlib.Tactic.SplitIfs

/-!
# The postfix order of an expression

Reordering the tokens of an expression gives its tokens in the order of their evaluation
(`toPostfix_infixTokens`).

The tokens of an expression leave some of its operators waiting: those on its right edge, which
nothing behind them has let through yet. `Expression.pendingOperators` lists them and
`Expression.emittedTokens` the tokens let through before them; one after the other they are the
postfix order (`postfixTokens_eq`). From any state whose waiting tokens keep still while the
expression is read (`Reordering.Keeps`), reading its tokens leads to `Reordering.after`. This is
`Expression.IsRead`, and it passes from the parts of an expression to the whole.

Whether a waiting token keeps still is decided by priorities alone. An operand without parentheses
binds at least as tightly as its operator, so that what waits behind the left operand goes first,
and nothing goes first because of the right one.
-/

set_option autoImplicit false

namespace MatrixCalculator

/-! ### Operators -/

/-- Operators of equal priority group to the same side. -/
theorem Operator.associativity_eq_of_priority_eq {op other : Operator}
    (equal : op.priority = other.priority) : op.associativity = other.associativity := by
  cases op <;> cases other <;> first | rfl | exact absurd equal (by decide)

namespace Reordering

/-- An operator goes first if it binds more tightly than the one that comes in, or as tightly while
operators of that priority group to the left. -/
theorem goesFirst_ofOperator (incoming waiting : Operator) :
    goesFirst (.ofOperator incoming) (.ofOperator waiting) = true ↔
      incoming.priority < waiting.priority ∨
        incoming.priority = waiting.priority ∧ incoming.associativity = .left := by
  simp only [goesFirst, Bool.and_eq_true, Bool.or_eq_true, beq_iff_eq, decide_eq_true_eq]
  simp only [Token.ofOperator, true_and]
  rw [or_comm, and_comm]

/-- What does not go first before an operator does not go first before one that binds more tightly,
or as tightly while operators of that priority group to the left. -/
theorem goesFirst_eq_false_of_tighter {op inner : Operator} {waiting : Token}
    (keeps : goesFirst (.ofOperator op) waiting = false)
    (tighter : op.priority < inner.priority ∨
      op.priority = inner.priority ∧ op.associativity = .left) :
    goesFirst (.ofOperator inner) waiting = false := by
  have sameSide (equal : op.priority = inner.priority) : op.associativity = inner.associativity :=
    Operator.associativity_eq_of_priority_eq equal
  simp only [goesFirst, Bool.and_eq_false_iff, Bool.or_eq_false_iff, beq_eq_false_iff_ne,
    decide_eq_false_iff_not] at keeps ⊢
  simp only [Token.ofOperator] at keeps ⊢
  rcases keeps with noOperator | ⟨notEqual, notBelow⟩
  · exact Or.inl noOperator
  · refine Or.inr ⟨?_, by omega⟩
    rcases tighter with below | ⟨equal, groupsLeft⟩
    · exact Or.inr (by omega)
    · rw [← sameSide equal, ← equal]
      exact notEqual

/-- A value is let through at once. -/
theorem step_of_isValue (s : Reordering) {t : Token} (isValue : t.kind.isValue = true) :
    s.step t = .ok { s.markValue with emitted := t :: s.emitted } := by
  obtain ⟨kind, _⟩ := t
  cases kind <;> first | rfl | exact Bool.noConfusion isValue

/-- Of two runs of tokens, the operator lets the first through if all of it goes first and the
second does not start with a token that does. -/
theorem operator_of_append {s : Reordering} {t : Token} (front base : List Token)
    (waits : s.waiting = front ++ base) (first : ∀ w ∈ front, goesFirst t w = true)
    (stays : ∀ w ∈ base.head?, goesFirst t w = false) :
    s.operator t = { s with emitted := front.reverse ++ s.emitted, waiting := t :: base } := by
  have none : base.takeWhile (goesFirst t) = [] := by
    cases base with
    | nil => rfl
    | cons w rest => simp [stays w rfl]
  have all : base.dropWhile (goesFirst t) = base := by
    cases base with
    | nil => rfl
    | cons w rest => simp [stays w rfl]
  simp only [operator, waits, List.takeWhile_append_of_pos first,
    List.dropWhile_append_of_pos first, none, all, List.append_nil]

/-- Operators above an opening parenthesis are let through as soon as it is asked for. -/
theorem flush_of_append {s : Reordering} {ops : List Operator} {base : List Token}
    (waits : s.waiting = ops.map .ofOperator ++ Token.leftBrace :: base) :
    s.flush =
      { s with
        emitted := (ops.map .ofOperator).reverse ++ s.emitted
        waiting := Token.leftBrace :: base } := by
  have through : ∀ w ∈ ops.map Token.ofOperator, notLeftBrace w = true := by
    simp only [List.forall_mem_map]
    exact fun _ _ ↦ rfl
  have closed : notLeftBrace Token.leftBrace = false := rfl
  simp [flush, waits, List.takeWhile_append_of_pos through, List.dropWhile_append_of_pos through,
    closed]

/-- At the end of an expression operators are let through in the order in which they wait. -/
theorem drain_operators (s : Reordering) (ops : List Operator) :
    s.drain (ops.map .ofOperator) = .ok (s.emitted.reverse ++ ops.map .ofOperator) := by
  induction ops generalizing s with
  | nil => simp [drain]
  | cons op rest ih =>
    rw [List.map_cons, drain]
    simp only [Token.ofOperator]
    rw [ih]
    simp

@[simp] theorem markValue_waiting (s : Reordering) : s.markValue.waiting = s.waiting := rfl

/-- Tokens are taken in one after the other. -/
theorem run_cons_of_ok {s t : Reordering} {token : Token} (taken : s.step token = .ok t)
    (tokens : List Token) : s.run (token :: tokens) = t.run tokens := by
  rw [run, List.foldlM_cons, taken]
  rfl

theorem run_append_of_ok {s t : Reordering} {front : List Token} (read : s.run front = .ok t)
    (tokens : List Token) : s.run (front ++ tokens) = t.run tokens := by
  rw [run] at read
  rw [run, List.foldlM_append, read]
  rfl

theorem run_singleton (s : Reordering) (t : Token) : s.run [t] = s.step t := by
  rw [run, List.foldlM_cons]
  cases s.step t <;> rfl

end Reordering

namespace Expression

open Reordering

/-! ### Operands in parentheses -/

/-- An operand as it stands in the text of an operator, in parentheses where they are needed. -/
def operandOf (parent : Operator) (side : Associativity) (operand : Expression) : Expression :=
  if needsGroup parent side operand then group operand else operand

section Operand

variable (parent : Operator) (side : Associativity) (operand : Expression)

/-- What holds of an operand with and without parentheses holds of it as it stands in a text. -/
theorem operandOf_of_forall {motive : Expression → Prop} (grouped : motive (group operand))
    (plain : motive operand) : motive (operandOf parent side operand) := by
  unfold operandOf
  split_ifs with needed
  · exact grouped
  · exact plain

theorem infixTokens_operandOf : (operandOf parent side operand).infixTokens =
    operandTokens (needsGroup parent side operand) operand.infixTokens := by
  unfold operandOf operandTokens
  split_ifs with needed
  · rw [infixTokens]
  · rfl

theorem postfixTokens_operandOf :
    (operandOf parent side operand).postfixTokens = operand.postfixTokens :=
  operandOf_of_forall parent side operand
    (motive := fun e ↦ e.postfixTokens = operand.postfixTokens) (by rw [postfixTokens]) rfl

end Operand

/-- With its parentheses, an operand binds more tightly than its operator, or as tightly while
operators of that priority group to its side. -/
theorem tighter_of_mem_operandOf {parent op : Operator} {side : Associativity}
    {operand : Expression} (root : op ∈ (operandOf parent side operand).operator?) :
    parent.priority < op.priority ∨
      parent.priority = op.priority ∧ parent.associativity = side := by
  unfold operandOf at root
  split_ifs at root with needed
  · simp [operator?] at root
  · rw [needsGroup, Option.mem_def.mp root] at needed
    simp only [Bool.or_eq_true, Bool.and_eq_true, decide_eq_true_eq, beq_iff_eq,
      bne_iff_ne, ne_eq, not_or, not_and, Decidable.not_not] at needed
    rcases Nat.lt_or_ge parent.priority op.priority with below | above
    · exact Or.inl below
    · have equal : op.priority = parent.priority := by omega
      exact Or.inr ⟨equal.symm, needed.2 equal⟩

/-! ### What waits behind an expression -/

/-- The operators that wait when the last token of an expression has been read, the last one
first. -/
def pendingOperators : Expression → List Operator
  | sign op _ operand =>
    (if needsGroup op .right operand then [] else operand.pendingOperators) ++ [op]
  | binary op _ _ right =>
    (if needsGroup op .right right then [] else right.pendingOperators) ++ [op]
  | value _ _ | group _ | call _ _ _ => []

/-- The tokens that have been let through when the last token of an expression has been read. -/
def emittedTokens : Expression → List Token
  | value t _ => [t]
  | sign op _ operand =>
    if needsGroup op .right operand then operand.postfixTokens else operand.emittedTokens
  | binary op _ left right =>
    left.postfixTokens ++
      if needsGroup op .right right then right.postfixTokens else right.emittedTokens
  | group inner => inner.postfixTokens
  | call f _ args => postfixLists args ++ [callToken f args.length]

section Edge

variable (op : Operator) (operand left right : Expression)

theorem pendingOperators_sign (isSign : op.arity = 1) : (sign op isSign operand).pendingOperators =
    (operandOf op .right operand).pendingOperators ++ [op] := by
  rw [pendingOperators, operandOf]
  split_ifs with needed
  · rw [pendingOperators]
  · rfl

theorem pendingOperators_binary (isBinary : op.arity = 2) :
    (binary op isBinary left right).pendingOperators =
      (operandOf op .right right).pendingOperators ++ [op] := by
  rw [pendingOperators, operandOf]
  split_ifs with needed
  · rw [pendingOperators]
  · rfl

theorem emittedTokens_sign (isSign : op.arity = 1) :
    (sign op isSign operand).emittedTokens = (operandOf op .right operand).emittedTokens := by
  rw [emittedTokens, operandOf]
  split_ifs with needed
  · rw [emittedTokens]
  · rfl

theorem emittedTokens_binary (isBinary : op.arity = 2) :
    (binary op isBinary left right).emittedTokens =
      left.postfixTokens ++ (operandOf op .right right).emittedTokens := by
  rw [emittedTokens, operandOf]
  split_ifs with needed
  · rw [emittedTokens]
  · rfl

@[simp] theorem pendingOperators_group : (group operand).pendingOperators = [] := by
  rw [pendingOperators]

@[simp] theorem emittedTokens_group : (group operand).emittedTokens = operand.postfixTokens := by
  rw [emittedTokens]

end Edge

/-- The right edge of an expression: what was let through and what waits make up the postfix order,
and what waits binds at least as tightly as the operator that is applied last. -/
structure RightEdge (e : Expression) : Prop where
  postfixTokens_eq : e.postfixTokens = e.emittedTokens ++ e.pendingOperators.map .ofOperator
  tight : ∀ waiting ∈ e.pendingOperators, ∃ op ∈ e.operator?, op.priority ≤ waiting.priority

theorem RightEdge.group (inner : Expression) : RightEdge (group inner) :=
  ⟨by simp [postfixTokens], by simp⟩

theorem RightEdge.operandOf {operand : Expression} (edge : RightEdge operand)
    (parent : Operator) (side : Associativity) : RightEdge (operandOf parent side operand) :=
  operandOf_of_forall parent side operand (.group operand) edge

/-- What waits behind an operand binds at least as tightly as the operator before it. -/
theorem RightEdge.priority_le {parent : Operator} {side : Associativity} {operand : Expression}
    (edge : RightEdge operand) {waiting : Operator}
    (waits : waiting ∈ (Expression.operandOf parent side operand).pendingOperators) :
    parent.priority ≤ waiting.priority := by
  obtain ⟨op, root, below⟩ := (edge.operandOf parent side).tight waiting waits
  have tighter := tighter_of_mem_operandOf root
  omega

theorem rightEdge (e : Expression) : RightEdge e := by
  induction e with
  | value t isValue =>
    exact ⟨by simp [postfixTokens, emittedTokens, pendingOperators], by simp [pendingOperators]⟩
  | sign op isSign operand ih =>
    constructor
    · rw [postfixTokens, ← postfixTokens_operandOf op .right operand,
        (ih.operandOf op .right).postfixTokens_eq, emittedTokens_sign, pendingOperators_sign]
      simp
    · intro waiting waits
      rw [pendingOperators_sign, List.mem_append, List.mem_singleton] at waits
      refine ⟨op, rfl, ?_⟩
      rcases waits with inOperand | rfl
      · exact ih.priority_le inOperand
      · exact Nat.le_refl _
  | binary op isBinary left right _ ih =>
    constructor
    · rw [postfixTokens, ← postfixTokens_operandOf op .right right,
        (ih.operandOf op .right).postfixTokens_eq, emittedTokens_binary, pendingOperators_binary]
      simp
    · intro waiting waits
      rw [pendingOperators_binary, List.mem_append, List.mem_singleton] at waits
      refine ⟨op, rfl, ?_⟩
      rcases waits with inRight | rfl
      · exact ih.priority_le inRight
      · exact Nat.le_refl _
  | group inner _ => exact .group inner
  | call f isFunction args _ =>
    exact ⟨by simp [postfixTokens, emittedTokens, pendingOperators], by simp [pendingOperators]⟩

/-- Every operator that waits behind the left operand of an operator goes first when the operator
comes in. -/
theorem goesFirst_of_mem_pendingOperators {op waiting : Operator} {left : Expression}
    (waits : waiting ∈ (operandOf op .left left).pendingOperators) :
    goesFirst (.ofOperator op) (.ofOperator waiting) = true := by
  rw [goesFirst_ofOperator]
  obtain ⟨root, isRoot, below⟩ := ((rightEdge left).operandOf op .left).tight waiting waits
  rcases tighter_of_mem_operandOf isRoot with above | ⟨equal, groupsLeft⟩
  · exact Or.inl (by omega)
  · rcases Nat.eq_or_lt_of_le below with same | above
    · exact Or.inr ⟨equal.trans same, groupsLeft⟩
    · exact Or.inl (by omega)

/-- The operator before a right operand does not go first when that of the operand comes in. -/
theorem goesFirst_eq_false_of_mem_operandOf {op root : Operator} {right : Expression}
    (isRoot : root ∈ (operandOf op .right right).operator?) :
    goesFirst (.ofOperator root) (.ofOperator op) = false := by
  rw [Bool.eq_false_iff, ne_eq, goesFirst_ofOperator]
  rintro (below | ⟨equal, groupsLeft⟩)
  · rcases tighter_of_mem_operandOf isRoot with above | ⟨equal, -⟩ <;> omega
  · rcases tighter_of_mem_operandOf isRoot with above | ⟨-, groupsRight⟩
    · omega
    · rw [Operator.associativity_eq_of_priority_eq equal, groupsRight] at groupsLeft
      exact Associativity.noConfusion groupsLeft

end Expression

/-! ### Reading an expression -/

namespace Reordering

/-- Whether the tokens that wait keep still while an expression is read: the last of them is no
function, whose parenthesis would be due, and does not go first before the operator of the
expression that is applied last. -/
def Keeps (s : Reordering) (e : Expression) : Prop :=
  ∀ w ∈ s.waiting.head?,
    w.kind ≠ .function ∧ ∀ op ∈ e.operator?, goesFirst (.ofOperator op) w = false

theorem keeps_of_leftBrace {s : Reordering} {base : List Token}
    (waits : s.waiting = Token.leftBrace :: base) (e : Expression) : s.Keeps e := by
  intro w isHead
  rw [waits] at isHead
  obtain rfl := Option.some.inj isHead
  exact ⟨TokenKind.noConfusion, fun _ _ ↦ rfl⟩

/-- The state behind an expression. -/
def after (s : Reordering) (e : Expression) : Reordering :=
  { s.markValue with
    emitted := e.emittedTokens.reverse ++ s.emitted
    waiting := e.pendingOperators.map .ofOperator ++ s.waiting }

/-- Behind an expression in parentheses nothing of it waits. -/
theorem after_group (s : Reordering) (e : Expression) :
    s.after (.group e) = { s.markValue with emitted := e.postfixTokens.reverse ++ s.emitted } := by
  simp [after]

/-- Letting everything through that waits behind an expression is as good as parentheses. -/
theorem flush_after {s : Reordering} {base : List Token}
    (waits : s.waiting = Token.leftBrace :: base) (e : Expression) :
    (s.after e).flush = s.after (.group e) := by
  have behind : (s.after e).waiting =
      e.pendingOperators.map .ofOperator ++ Token.leftBrace :: base := by
    simp [after, waits]
  rw [flush_of_append behind, after_group, (Expression.rightEdge e).postfixTokens_eq]
  simp [after, waits]

/-- Behind the left operand of an operator, the operator lets everything of the operand through and
waits itself. -/
theorem operator_after {s : Reordering} {op : Operator} {left : Expression}
    (keeps : ∀ w ∈ s.waiting.head?, goesFirst (.ofOperator op) w = false) :
    (s.after (.operandOf op .left left)).operator (.ofOperator op) =
      { s.after (.group left) with waiting := Token.ofOperator op :: s.waiting } := by
  have first : ∀ w ∈ (Expression.operandOf op .left left).pendingOperators.map Token.ofOperator,
      goesFirst (.ofOperator op) w = true := by
    rw [List.forall_mem_map]
    exact fun _ ↦ Expression.goesFirst_of_mem_pendingOperators
  rw [operator_of_append (s := s.after _) _ s.waiting rfl first keeps, after_group,
    ← Expression.postfixTokens_operandOf op .left left, (Expression.rightEdge _).postfixTokens_eq]
  simp [after]

/-- A closing parenthesis with no function before its opening one ends a group. -/
theorem rightBrace_group {s : Reordering} {base : List Token}
    (waits : s.flush.waiting = Token.leftBrace :: base)
    (noCall : ∀ w ∈ base.head?, w.kind ≠ .function) :
    s.rightBrace = .ok { s.flush with waiting := base } := by
  unfold rightBrace
  cases base with
  | nil => simp only [waits]
  | cons w rest => simp only [waits, noCall w rfl, if_false]

/-- A closing parenthesis with a function before its opening one ends a call. -/
theorem rightBrace_call {s : Reordering} {f : Token} {base : List Token} {seen : Bool}
    {flags : List Bool} {count : Nat} {counts : List Nat} (isFunction : f.kind = .function)
    (waits : s.flush.waiting = Token.leftBrace :: f :: base) (hasFlag : s.valueSeen = seen :: flags)
    (hasCount : s.argCounts = count :: counts) :
    s.rightBrace = .ok
      ⟨Expression.callToken f (if seen then count + 1 else count) :: s.flush.emitted, base, flags,
        counts⟩ := by
  have keptFlags : s.flush.valueSeen = seen :: flags := hasFlag
  have keptCounts : s.flush.argCounts = count :: counts := hasCount
  unfold rightBrace
  simp only [waits]
  rw [if_pos isFunction]
  simp only [finishCall, keptFlags, keptCounts]
  rfl

/-- A separator in the parentheses of a call ends an argument. -/
theorem separator_call {s : Reordering} {f : Token} {base : List Token} {seen : Bool}
    {flags : List Bool} {count : Nat} {counts : List Nat} (isFunction : f.kind = .function)
    (waits : s.flush.waiting = Token.leftBrace :: f :: base) (hasFlag : s.valueSeen = seen :: flags)
    (hasCount : s.argCounts = count :: counts) :
    s.separator = .ok
      ⟨s.flush.emitted, Token.leftBrace :: f :: base, false :: flags,
        (if seen then count + 1 else count) :: counts⟩ := by
  have keptFlags : s.flush.valueSeen = seen :: flags := hasFlag
  have keptCounts : s.flush.argCounts = count :: counts := hasCount
  unfold separator
  simp only [waits, keptCounts]
  rw [if_pos isFunction]
  simp only [keptFlags]
  rfl

/-- The state inside a call: the tokens let through so far and the number of arguments read. -/
def inCall (s : Reordering) (f : Token) (emitted : List Token) (count : Nat) : Reordering :=
  ⟨emitted, Token.leftBrace :: f :: s.waiting, false :: s.markValue.valueSeen, count :: s.argCounts⟩

end Reordering

namespace Expression

open Reordering

/-- Whether the tokens of an expression are taken in as they should be, whatever came before. -/
def IsRead (e : Expression) : Prop :=
  ∀ s : Reordering, s.Keeps e → s.run e.infixTokens = .ok (s.after e)

theorem IsRead.group {e : Expression} (isRead : IsRead e) : IsRead (group e) := by
  intro s keeps
  let opened : Reordering := { s with waiting := Token.leftBrace :: s.waiting }
  have flushed : (opened.after e).flush = opened.after (.group e) := flush_after rfl e
  have waits : (opened.after e).flush.waiting = Token.leftBrace :: s.waiting := by
    rw [flushed, after_group]
    rfl
  have closed : (opened.after e).step .rightBrace = .ok (s.after (.group e)) := by
    refine (rightBrace_group waits fun w isHead ↦ (keeps w isHead).1).trans ?_
    rw [flushed, after_group, after_group]
    rfl
  rw [infixTokens, parenthesized, List.cons_append, run_cons_of_ok (t := opened) rfl,
    run_append_of_ok (isRead opened (keeps_of_leftBrace rfl e)), run_singleton, closed]

theorem IsRead.operandOf {operand : Expression} (isRead : IsRead operand) (parent : Operator)
    (side : Associativity) : IsRead (operandOf parent side operand) :=
  operandOf_of_forall parent side operand isRead.group isRead

theorem IsRead.value {t : Token} (isValue : t.kind.isValue = true) : IsRead (value t isValue) := by
  intro s _
  rw [infixTokens, run_singleton, step_of_isValue s isValue]
  rfl

/-! ### Calls -/

section Call

variable (s : Reordering) {f : Token} (isFunction : f.kind = .function)

include isFunction

theorem run_callOpening (tokens : List Token) :
    s.run (f :: Token.leftBrace :: tokens) = (s.inCall f s.emitted 0).run tokens := by
  have taken : s.step f = .ok
      ⟨s.emitted, f :: s.waiting, false :: s.markValue.valueSeen, 0 :: s.argCounts⟩ := by
    unfold step
    simp only [isFunction]
    rfl
  rw [run_cons_of_ok taken, run_cons_of_ok (t := s.inCall f s.emitted 0) rfl]

/-- Reading an argument and the separator behind it. -/
theorem run_argument {e : Expression} (isRead : IsRead e) (emitted : List Token) (count : Nat)
    (tokens : List Token) :
    (s.inCall f emitted count).run (e.infixTokens ++ Token.separator :: tokens) =
      (s.inCall f (e.postfixTokens.reverse ++ emitted) (count + 1)).run tokens := by
  have flushed := flush_after (s := s.inCall f emitted count) rfl e
  have separated : ((s.inCall f emitted count).after e).step .separator =
      .ok (s.inCall f (e.postfixTokens.reverse ++ emitted) (count + 1)) := by
    refine (separator_call isFunction (by rw [flushed, after_group]; rfl) rfl rfl).trans ?_
    rw [flushed, after_group]
    rfl
  rw [run_append_of_ok (isRead _ (keeps_of_leftBrace rfl e)), run_cons_of_ok separated]

/-- Reading the last argument and the parenthesis behind it. -/
theorem run_lastArgument {e : Expression} (isRead : IsRead e) (emitted : List Token)
    (count : Nat) :
    (s.inCall f emitted count).run (e.infixTokens ++ [Token.rightBrace]) =
      .ok { s.markValue with
        emitted := callToken f (count + 1) :: (e.postfixTokens.reverse ++ emitted) } := by
  have flushed := flush_after (s := s.inCall f emitted count) rfl e
  rw [run_append_of_ok (isRead _ (keeps_of_leftBrace rfl e)), run_singleton]
  refine (rightBrace_call isFunction (by rw [flushed, after_group]; rfl) rfl rfl).trans ?_
  rw [flushed, after_group]
  rfl

/-- Reading arguments and the parenthesis behind them. The induction is on the arguments behind the
first one, while those read so far are counted. -/
theorem run_arguments (e : Expression) (rest : List Expression)
    (areRead : ∀ a ∈ e :: rest, IsRead a) (emitted : List Token) (count : Nat) :
    (s.inCall f emitted count).run
        ([Token.separator].intercalate (infixLists (e :: rest)) ++ [Token.rightBrace]) =
      .ok { s.markValue with
        emitted := callToken f (count + (e :: rest).length) ::
          ((postfixLists (e :: rest)).reverse ++ emitted) } := by
  induction rest generalizing e emitted count with
  | nil =>
    simp only [infixLists, List.intercalate_singleton]
    rw [run_lastArgument s isFunction (areRead e List.mem_cons_self)]
    simp [postfixLists]
  | cons next rest ih =>
    simp only [infixLists, List.intercalate_cons_cons, List.append_assoc, List.cons_append,
      List.nil_append]
    rw [run_argument s isFunction (areRead e List.mem_cons_self)]
    have read := ih next (fun a isArg ↦ areRead a (List.mem_cons_of_mem e isArg))
      (e.postfixTokens.reverse ++ emitted) (count + 1)
    simp only [infixLists] at read
    rw [read]
    simp only [postfixLists, List.length_cons, List.reverse_append, List.append_assoc]
    rw [Nat.add_assoc, Nat.add_comm 1]

end Call

theorem IsRead.call {f : Token} (isFunction : f.kind = .function) {args : List Expression}
    (areRead : ∀ e ∈ args, IsRead e) : IsRead (call f isFunction args) := by
  intro s _
  have behind : s.after (.call f isFunction args) =
      { s.markValue with
        emitted := callToken f args.length :: ((postfixLists args).reverse ++ s.emitted) } := by
    simp [after, emittedTokens, pendingOperators]
  rw [infixTokens, parenthesized, List.cons_append, run_callOpening s isFunction, behind]
  cases args with
  | nil =>
    -- the flag of the only argument has not been raised, so that none is counted
    rw [infixLists, List.intercalate_nil, List.nil_append, run_singleton]
    exact rightBrace_call (s := s.inCall f s.emitted 0) isFunction rfl rfl rfl
  | cons e rest =>
    rw [run_arguments s isFunction e rest areRead, Nat.zero_add]

/-! ### Operators and the whole -/

/-- An operator that has just come in keeps still while its right operand is read. -/
theorem keeps_operandOf_right {s : Reordering} {op : Operator} {base : List Token}
    (waits : s.waiting = Token.ofOperator op :: base) (right : Expression) :
    s.Keeps (operandOf op .right right) := by
  intro w isHead
  rw [waits] at isHead
  obtain rfl := Option.some.inj isHead
  exact ⟨TokenKind.noConfusion, fun _ ↦ goesFirst_eq_false_of_mem_operandOf⟩

/-- What keeps still while an expression is read keeps still while its left operand is. -/
theorem keeps_operandOf_left {s : Reordering} {op : Operator} {isBinary : op.arity = 2}
    {left right : Expression} (keeps : s.Keeps (binary op isBinary left right)) :
    s.Keeps (operandOf op .left left) := by
  intro w isHead
  refine ⟨(keeps w isHead).1, fun root isRoot ↦ ?_⟩
  exact goesFirst_eq_false_of_tighter ((keeps w isHead).2 op rfl) (tighter_of_mem_operandOf isRoot)

theorem IsRead.sign {op : Operator} (isSign : op.arity = 1) {operand : Expression}
    (isRead : IsRead operand) : IsRead (sign op isSign operand) := by
  intro s keeps
  have taken : s.step (.ofOperator op) =
      .ok { s with waiting := Token.ofOperator op :: s.waiting } :=
    congrArg Except.ok (operator_of_append [] s.waiting rfl (by simp)
      fun w isHead ↦ (keeps w isHead).2 op rfl)
  rw [infixTokens, ← infixTokens_operandOf, run_cons_of_ok taken,
    isRead.operandOf op .right _ (keeps_operandOf_right rfl operand)]
  simp [after, markValue, emittedTokens_sign, pendingOperators_sign]

theorem IsRead.binary {op : Operator} (isBinary : op.arity = 2) {left right : Expression}
    (leftIsRead : IsRead left) (rightIsRead : IsRead right) :
    IsRead (binary op isBinary left right) := by
  intro s keeps
  have taken : (s.after (Expression.operandOf op .left left)).step (.ofOperator op) =
      .ok { s.after (.group left) with waiting := Token.ofOperator op :: s.waiting } :=
    congrArg Except.ok (operator_after fun w isHead ↦ (keeps w isHead).2 op rfl)
  rw [infixTokens, ← infixTokens_operandOf, ← infixTokens_operandOf,
    run_append_of_ok (leftIsRead.operandOf op .left s (keeps_operandOf_left keeps)),
    run_cons_of_ok taken, rightIsRead.operandOf op .right _ (keeps_operandOf_right rfl right)]
  simp [after, markValue, emittedTokens_binary, pendingOperators_binary]

theorem isRead (e : Expression) : IsRead e := by
  induction e with
  | value t isValue => exact .value isValue
  | sign op isSign operand ih => exact ih.sign isSign
  | binary op isBinary left right ihLeft ihRight => exact ihLeft.binary isBinary ihRight
  | group inner ih => exact ih.group
  | call f isFunction args ih => exact .call isFunction ih

end Expression

/-- Reordering the tokens of an expression gives its tokens in the order of their evaluation, every
call with its number of arguments. -/
theorem toPostfix_infixTokens (e : Expression) :
    toPostfix e.infixTokens = .ok e.postfixTokens := by
  have read : Reordering.start.run e.infixTokens = .ok (Reordering.start.after e) :=
    e.isRead _ (by simp [Reordering.Keeps, Reordering.start])
  have waits : (Reordering.start.after e).waiting = e.pendingOperators.map .ofOperator := by
    simp [Reordering.after, Reordering.start]
  calc toPostfix e.infixTokens
      = (Reordering.start.after e).drain (Reordering.start.after e).waiting := by
        rw [toPostfix, read]
        rfl
    _ = .ok ((Reordering.start.after e).emitted.reverse ++ e.pendingOperators.map .ofOperator) := by
        rw [waits, Reordering.drain_operators]
    _ = .ok e.postfixTokens := by
        rw [e.rightEdge.postfixTokens_eq]
        simp [Reordering.after, Reordering.start]

end MatrixCalculator
