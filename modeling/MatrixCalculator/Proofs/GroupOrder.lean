import MatrixCalculator.Proofs.AssignmentOrder
import MatrixCalculator.Proofs.OperandBalance
import MatrixCalculator.Proofs.Parentheses

/-!
# The postfix order of tokens in parentheses

In parentheses behind an operator, tokens are reordered as they are by themselves, if by themselves
they close no parenthesis too many (`exists_of_toPostfix_group`). There is one difference. A
function without parentheses of its own is let through as it was read when the group is closed,
while the end of an expression gives it the arguments that were counted last. So the tokens by
themselves come to the same as in the group, or else their weights add up to less (`drain_cases`).
-/

set_option autoImplicit false

namespace MatrixCalculator

namespace Reordering

variable {s u : Reordering} {t : Token} {tokens : List Token}

/-! ### What waits -/

/-- No other tokens wait than have been read. -/
theorem Takes.mem_waiting (takes : Takes s t u) : ∀ w ∈ u.waiting, w = t ∨ w ∈ s.waiting := by
  cases takes with
  | value isValue => exact fun w isMem ↦ Or.inr isMem
  | function isFunction => exact fun w isMem ↦ List.mem_cons.mp isMem
  | operator isOperator =>
    exact fun w isMem ↦
      (List.mem_cons.mp isMem).imp_right fun kept ↦ (List.dropWhile_sublist _).subset kept
  | leftBrace isLeftBrace => exact fun w isMem ↦ List.mem_cons.mp isMem
  | separator isSeparator front brace f below count counts waits passes isBrace isCall isCounted =>
    exact fun w isMem ↦ Or.inr (waits ▸ List.mem_append_right front isMem)
  | group isRightBrace front brace below waits passes isBrace noCall =>
    exact fun w isMem ↦ Or.inr (waits ▸ List.mem_append_right front (List.mem_cons_of_mem _ isMem))
  | call isRightBrace front brace f below waits passes isBrace isCall =>
    exact fun w isMem ↦ Or.inr
      (waits ▸ List.mem_append_right front
        (List.mem_cons_of_mem _ (List.mem_cons_of_mem _ isMem)))

theorem mem_waiting_of_run (ran : s.run tokens = .ok u) :
    ∀ w ∈ u.waiting, w ∈ tokens ∨ w ∈ s.waiting := by
  induction tokens generalizing s with
  | nil =>
    obtain rfl := Except.ok.inj ran
    exact fun w isMem ↦ Or.inr isMem
  | cons t rest ih =>
    obtain ⟨middle, takes, ran⟩ := takes_of_run_cons ran
    intro w isMem
    rcases ih ran w isMem with inRest | waited
    · exact Or.inl (List.mem_cons_of_mem t inRest)
    · rcases takes.mem_waiting w waited with rfl | before
      · exact Or.inl List.mem_cons_self
      · exact Or.inr before

/-! ### The end of the expression and the end of a group -/

/-- The end of an expression lets through what waits as it is, or it gives arguments to a function
without parentheses. -/
theorem drain_cases {waiting out : List Token}
    (uncounted : ∀ w ∈ waiting, w.kind = .function → w.argCount = 0)
    (drained : s.drain waiting = .ok out) :
    out = s.emitted.reverse ++ waiting ∨
      out ≠ [] ∧ totalWeight out < totalWeight (s.emitted.reverse ++ waiting) := by
  induction waiting generalizing s with
  | nil =>
    obtain rfl := Except.ok.inj drained
    exact Or.inl (List.append_nil _).symm
  | cons w rest ih =>
    rw [List.forall_mem_cons] at uncounted
    rw [drain] at drained
    split at drained
    · cases drained
    · cases drained
    · rename_i isFunction
      have fresh : w.argCount = 0 := uncounted.1 isFunction
      have weight (n : Nat) : ({ w with argCount := n } : Token).weight = 1 - n := by
        simp [Token.weight, isFunction]
      rcases ih uncounted.2 drained with rfl | ⟨isSome, lighter⟩
      · rcases counted : s.argCounts.head?.getD 0 with _ | n
        · -- Without arguments the function is let through as it was read.
          have same : ({ w with argCount := 0 } : Token) = w := by rw [← fresh]
          refine Or.inl ?_
          simp [finishCall, same]
        · refine Or.inr ⟨by simp [finishCall], ?_⟩
          simp only [finishCall, totalWeight_append, totalWeight_reverse, totalWeight_cons, weight,
            fresh]
          push_cast
          omega
      · refine Or.inr ⟨isSome, ?_⟩
        simp only [finishCall, totalWeight_append, totalWeight_reverse, totalWeight_cons, weight,
          fresh] at lighter ⊢
        omega
    · rcases ih uncounted.2 drained with rfl | ⟨isSome, lighter⟩
      · exact Or.inl (by simp)
      · refine Or.inr ⟨isSome, ?_⟩
        simpa using lighter

theorem exists_of_run_append {front rest : List Token} (ran : s.run (front ++ rest) = .ok u) :
    ∃ middle, s.run front = .ok middle ∧ middle.run rest = .ok u := by
  rw [run, List.foldlM_append] at ran
  exact exists_of_bind_eq_ok ran

/-! ### Closing the group -/

section Group

variable {value op : Token}

theorem noCalls_outside (isOperator : op.kind = .operator) :
    ∀ w ∈ [Token.leftBrace, op], w.kind ≠ .function := by
  simp [Token.leftBrace, isOperator]

/-- An operator lets nothing through from below the parenthesis of the group. -/
theorem stays_outside (op : Token) : t.kind = .operator →
    ∀ w ∈ [Token.leftBrace, op].head?, goesFirst t w = false := by
  intro isOperator w isHead
  obtain rfl := Option.some.inj isHead
  rfl

/-- The parenthesis behind the tokens of a group closes the group, if all parentheses are closed at
the end. -/
theorem closes_group {last : Reordering} {out : List Token} (isOperator : op.kind = .operator)
    (counted : s.Counted)
    (closed : (s.inside [value] [.leftBrace, op]).step .rightBrace = .ok last)
    (drained : last.drain last.waiting = .ok out) :
    (∀ w ∈ s.waiting, w.kind ≠ .leftBrace) ∧
      out = value :: (s.emitted.reverse ++ s.waiting ++ [op]) := by
  have passes : ∀ w ∈ s.waiting, w.kind ≠ .leftBrace := by
    rcases takes_inside_cases counted (noCalls_outside isOperator) (stays_outside op)
      (step_eq_ok_iff.mp closed) with ⟨left, -, rfl⟩ | ⟨-, -, none⟩
    · -- One of the parentheses within is closed, and that of the group stays open.
      have stillOpen : ∃ w ∈ (left.inside [value] [.leftBrace, op]).waiting,
          w.kind = .leftBrace := ⟨.leftBrace, by simp [inside], rfl⟩
      cases (drain_of_isLeftBrace stillOpen).symm.trans drained
    · exact none
  have group : Takes (s.inside [value] [.leftBrace, op]) .rightBrace
      { s.inside [value] [.leftBrace, op] with
        emitted := s.waiting.reverse ++ (s.emitted ++ [value]), waiting := [op] } :=
    .group rfl s.waiting .leftBrace [op] rfl passes rfl (by simp [isOperator])
  obtain rfl := Except.ok.inj (closed.symm.trans (step_of_takes group))
  refine ⟨passes, ?_⟩
  simp only [drain, isOperator] at drained
  simp [← Except.ok.inj drained]

end Group

end Reordering

open Reordering

/-- Behind a value and an operator, the postfix order of tokens in parentheses is that of a group:
the value, the tokens in the order that they have inside, the operator. By themselves they are
refused, or they have that order too, or one with less weight. -/
theorem exists_of_toPostfix_group {value op : Token} {tokens out : List Token}
    (isValue : value.kind.isValue = true) (isOperator : op.kind = .operator)
    (uncounted : ∀ t ∈ tokens, t.kind = .function → t.argCount = 0)
    (ordered : toPostfix (value :: op :: .leftBrace :: (tokens ++ [.rightBrace])) = .ok out) :
    toPostfix tokens = .error .unmatchedRightBrace ∨
      ∃ inner own, out = value :: (inner ++ [op]) ∧ toPostfix tokens = .ok own ∧
        (own = inner ∨ own ≠ [] ∧ totalWeight own < totalWeight inner) := by
  have started : start.run (value :: op :: .leftBrace :: (tokens ++ [.rightBrace])) =
      (start.inside [value] [.leftBrace, op]).run (tokens ++ [.rightBrace]) := by
    rw [run_cons_of_takes (.value isValue), run_cons_of_takes (.operator isOperator),
      run_cons_of_takes (.leftBrace rfl)]
    rfl
  obtain ⟨last, ran, drained⟩ := exists_of_bind_eq_ok ordered
  rw [started] at ran
  obtain ⟨middle, ranInside, closed⟩ := exists_of_run_append ran
  rw [run_singleton] at closed
  rcases run_inside_cases counted_start (noCalls_outside isOperator) (fun _ _ ↦ stays_outside op)
    ranInside with ⟨s, ownRan, counted, rfl⟩ | ⟨-, refused⟩
  · obtain ⟨passes, rfl⟩ := closes_group isOperator counted closed drained
    have fresh : ∀ w ∈ s.waiting, w.kind = .function → w.argCount = 0 := fun w isMem ↦
      uncounted w ((mem_waiting_of_run ownRan w isMem).resolve_right (by simp [start]))
    obtain ⟨own, ownDrained⟩ := exists_drain (s := s) (held_of_run onlyWaits_start ownRan).1 passes
    refine Or.inr ⟨s.emitted.reverse ++ s.waiting, own, rfl, ?_, drain_cases fresh ownDrained⟩
    rw [toPostfix, ownRan]
    exact ownDrained
  · refine Or.inl ?_
    rw [toPostfix, refused]
    rfl

end MatrixCalculator
