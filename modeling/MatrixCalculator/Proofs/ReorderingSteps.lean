import MatrixCalculator.Proofs.PostfixOrder
import Mathlib.Data.List.TakeWhile

/-!
# The steps of reordering

`Reordering.Takes` lists what taking in a token can do, one case for each kind of token and three
for a separator or closing parenthesis: it ends an argument, closes a group or closes a call. These
are all the steps that there are (`step_eq_ok_iff`). What a run keeps is shown by what each of them
keeps; the first such result is that no token is made up along the way (`forall_mem_toPostfix`).
-/

set_option autoImplicit false

namespace MatrixCalculator

namespace Reordering

variable {s s' : Reordering} {t : Token}

/-- Whether the argument being read has a value. -/
def hadValue (s : Reordering) : Bool :=
  s.valueSeen.head?.getD false

/-- The number of arguments of the innermost call that have been read, the one being read
included if it has a value. -/
def argCount (s : Reordering) : Nat :=
  s.argCounts.head?.getD 0 + if s.hadValue then 1 else 0

/-- What taking in a token can do. -/
inductive Takes (s : Reordering) (t : Token) : Reordering → Prop
  | value (isValue : t.kind.isValue = true) :
    Takes s t { s.markValue with emitted := t :: s.emitted }
  | function (isFunction : t.kind = .function) :
    Takes s t ⟨s.emitted, t :: s.waiting, false :: s.markValue.valueSeen, 0 :: s.argCounts⟩
  | operator (isOperator : t.kind = .operator) : Takes s t (s.operator t)
  | leftBrace (isLeftBrace : t.kind = .leftBrace) : Takes s t { s with waiting := t :: s.waiting }
  /-- A separator ends an argument of a call. -/
  | separator (isSeparator : t.kind = .argSeparator) (front : List Token) (brace f : Token)
    (below : List Token) (count : Nat) (counts : List Nat)
    (waits : s.waiting = front ++ brace :: f :: below)
    (passes : ∀ w ∈ front, w.kind ≠ .leftBrace) (isBrace : brace.kind = .leftBrace)
    (isCall : f.kind = .function) (counted : s.argCounts = count :: counts) :
    Takes s t ⟨front.reverse ++ s.emitted, brace :: f :: below, false :: s.valueSeen.tail,
      s.argCount :: counts⟩
  /-- A closing parenthesis ends a group. -/
  | group (isRightBrace : t.kind = .rightBrace) (front : List Token) (brace : Token)
    (below : List Token) (waits : s.waiting = front ++ brace :: below)
    (passes : ∀ w ∈ front, w.kind ≠ .leftBrace) (isBrace : brace.kind = .leftBrace)
    (noCall : ∀ w ∈ below.head?, w.kind ≠ .function) :
    Takes s t { s with emitted := front.reverse ++ s.emitted, waiting := below }
  /-- A closing parenthesis ends a call. -/
  | call (isRightBrace : t.kind = .rightBrace) (front : List Token) (brace f : Token)
    (below : List Token) (waits : s.waiting = front ++ brace :: f :: below)
    (passes : ∀ w ∈ front, w.kind ≠ .leftBrace) (isBrace : brace.kind = .leftBrace)
    (isCall : f.kind = .function) :
    Takes s t ⟨{ f with argCount := s.argCount } :: (front.reverse ++ s.emitted), below,
      s.valueSeen.tail, s.argCounts.tail⟩

/-- Only operators go first. -/
theorem isOperator_of_mem_takeWhile {waiting : List Token} {w : Token}
    (isMem : w ∈ waiting.takeWhile (goesFirst t)) : w.kind = .operator := by
  have first := List.mem_takeWhile_imp isMem
  rw [goesFirst, Bool.and_eq_true, beq_iff_eq] at first
  exact first.1

theorem notLeftBrace_eq_true_iff {w : Token} : notLeftBrace w = true ↔ w.kind ≠ .leftBrace := by
  rw [notLeftBrace, bne_iff_ne]

/-- What waits above the last opening parenthesis is let through. -/
theorem flush_eq {front : List Token} {brace : Token} {below : List Token}
    (waits : s.waiting = front ++ brace :: below) (passes : ∀ w ∈ front, w.kind ≠ .leftBrace)
    (isBrace : brace.kind = .leftBrace) :
    s.flush = { s with emitted := front.reverse ++ s.emitted, waiting := brace :: below } := by
  have through : ∀ w ∈ front, notLeftBrace w = true :=
    fun w isMem ↦ notLeftBrace_eq_true_iff.mpr (passes w isMem)
  have closed : notLeftBrace brace = false := by simp [notLeftBrace, isBrace]
  simp [flush, waits, List.takeWhile_append_of_pos through, List.dropWhile_append_of_pos through,
    closed]

/-- No opening parenthesis waits, or there is a last one. -/
theorem exists_leftBrace (waiting : List Token) :
    (∀ w ∈ waiting, w.kind ≠ .leftBrace) ∨
      ∃ front brace below, waiting = front ++ brace :: below ∧
        (∀ w ∈ front, w.kind ≠ .leftBrace) ∧ brace.kind = .leftBrace := by
  induction waiting with
  | nil => exact Or.inl (by simp)
  | cons w rest ih =>
    by_cases isBrace : w.kind = .leftBrace
    · exact Or.inr ⟨[], w, rest, rfl, by simp, isBrace⟩
    · rcases ih with none | ⟨front, brace, below, rfl, passes, isLast⟩
      · exact Or.inl (List.forall_mem_cons.mpr ⟨isBrace, none⟩)
      · exact Or.inr ⟨w :: front, brace, below, rfl, List.forall_mem_cons.mpr ⟨isBrace, passes⟩,
          isLast⟩

theorem flush_waiting_of_forall (none : ∀ w ∈ s.waiting, w.kind ≠ .leftBrace) :
    s.flush.waiting = [] := by
  rw [flush, List.dropWhile_eq_nil_iff]
  exact fun w isMem ↦ notLeftBrace_eq_true_iff.mpr (none w isMem)

/-- A closing parenthesis is refused if no opening one waits. -/
theorem step_of_unmatched (isRightBrace : t.kind = .rightBrace)
    (none : ∀ w ∈ s.waiting, w.kind ≠ .leftBrace) :
    s.step t = .error .unmatchedRightBrace := by
  simp [step, isRightBrace, rightBrace, flush_waiting_of_forall none]

theorem argCount_eq (s : Reordering) :
    (if s.valueSeen.head?.getD false then s.argCounts.head?.getD 0 + 1
      else s.argCounts.head?.getD 0) = s.argCount := by
  rw [argCount, hadValue]
  split <;> rfl

theorem step_of_takes (takes : Takes s t s') : s.step t = .ok s' := by
  cases takes with
  | value isValue => exact step_of_isValue s isValue
  | function isFunction => simp [step, isFunction, markValue]
  | operator isOperator => simp [step, isOperator]
  | leftBrace isLeftBrace => simp [step, isLeftBrace]
  | separator isSeparator front brace f below count counts waits passes isBrace isCall counted =>
    have updated := argCount_eq s
    rw [counted] at updated
    simp only [step, isSeparator, separator, flush_eq waits passes isBrace, counted, isCall,
      if_pos, ← updated]
    rfl
  | group isRightBrace front brace below waits passes isBrace noCall =>
    cases below with
    | nil => simp [step, isRightBrace, rightBrace, flush_eq waits passes isBrace]
    | cons opener below =>
      have noCall : opener.kind ≠ .function := noCall opener rfl
      simp [step, isRightBrace, rightBrace, flush_eq waits passes isBrace, noCall]
  | call isRightBrace front brace f below waits passes isBrace isCall =>
    simp [step, isRightBrace, rightBrace, flush_eq waits passes isBrace, isCall, argCount_eq,
      finishCall]

theorem takes_of_separator (isSeparator : t.kind = .argSeparator)
    (taken : s.separator = .ok s') : Takes s t s' := by
  rcases exists_leftBrace s.waiting with none | ⟨front, brace, below, waits, passes, isBrace⟩
  · simp [separator, flush_waiting_of_forall none] at taken
  · rw [separator, flush_eq waits passes isBrace] at taken
    cases below with
    | nil => cases taken
    | cons f below =>
      rcases counted : s.argCounts with _ | ⟨count, counts⟩
      · simp only [counted] at taken
        cases taken
      · simp only [counted] at taken
        by_cases isCall : f.kind = .function
        · rw [if_pos isCall] at taken
          obtain rfl := Except.ok.inj taken
          have updated := argCount_eq s
          rw [counted] at updated
          have takes := Takes.separator isSeparator front brace f below count counts waits passes
            isBrace isCall counted
          rwa [← updated] at takes
        · rw [if_neg isCall] at taken
          cases taken

theorem takes_of_rightBrace (isRightBrace : t.kind = .rightBrace)
    (taken : s.rightBrace = .ok s') : Takes s t s' := by
  rcases exists_leftBrace s.waiting with none | ⟨front, brace, below, waits, passes, isBrace⟩
  · simp [rightBrace, flush_waiting_of_forall none] at taken
  · rw [rightBrace, flush_eq waits passes isBrace] at taken
    cases below with
    | nil =>
      obtain rfl := Except.ok.inj taken
      exact .group isRightBrace front brace [] waits passes isBrace (by simp)
    | cons opener below =>
      simp only [argCount_eq] at taken
      split_ifs at taken with isCall
      · obtain rfl := Except.ok.inj taken
        exact .call isRightBrace front brace opener below waits passes isBrace isCall
      · obtain rfl := Except.ok.inj taken
        refine .group isRightBrace front brace (opener :: below) waits passes isBrace ?_
        intro w isHead
        obtain rfl := Option.some.inj isHead
        exact isCall

/-- What a token is taken in as is what `Takes` lists. -/
theorem step_eq_ok_iff : s.step t = .ok s' ↔ Takes s t s' := by
  refine ⟨fun taken ↦ ?_, step_of_takes⟩
  cases kind : t.kind with
  | function =>
    simp only [step, kind] at taken
    obtain rfl := Except.ok.inj taken
    exact .function kind
  | argSeparator =>
    simp only [step, kind] at taken
    exact takes_of_separator kind taken
  | operator =>
    simp only [step, kind] at taken
    obtain rfl := Except.ok.inj taken
    exact .operator kind
  | leftBrace =>
    simp only [step, kind] at taken
    obtain rfl := Except.ok.inj taken
    exact .leftBrace kind
  | rightBrace =>
    simp only [step, kind] at taken
    exact takes_of_rightBrace kind taken
  | null | string | number | matrixRef | docsQuery | output | errorMarker | void =>
    have isValue : t.kind.isValue = true := by rw [kind]; rfl
    rw [step_of_isValue s isValue] at taken
    obtain rfl := Except.ok.inj taken
    exact .value isValue

theorem takes_of_run_cons {tokens : List Token} (ran : s.run (t :: tokens) = .ok s') :
    ∃ middle, Takes s t middle ∧ middle.run tokens = .ok s' := by
  rw [run, List.foldlM_cons] at ran
  rcases taken : s.step t with error | middle
  · rw [taken] at ran
    cases ran
  · rw [taken] at ran
    exact ⟨middle, step_eq_ok_iff.mp taken, ran⟩

/-! ### Where the tokens come from -/

section Membership

variable {P : Token → Prop} (counted : ∀ t n, P t → P { t with argCount := n })

/-- What holds of the tokens that were let through and of those that wait. -/
def Holds (P : Token → Prop) (s : Reordering) : Prop :=
  (∀ t ∈ s.emitted, P t) ∧ ∀ t ∈ s.waiting, P t

include counted

theorem Holds.takes (holds : s.Holds P) (ofToken : P t) (takes : Takes s t s') : s'.Holds P := by
  obtain ⟨emitted, waiting⟩ := holds
  cases takes with
  | value isValue => exact ⟨List.forall_mem_cons.mpr ⟨ofToken, emitted⟩, waiting⟩
  | function isFunction => exact ⟨emitted, List.forall_mem_cons.mpr ⟨ofToken, waiting⟩⟩
  | operator isOperator =>
    refine ⟨fun w isMem ↦ ?_, List.forall_mem_cons.mpr ⟨ofToken, fun w isMem ↦ ?_⟩⟩
    · rcases List.mem_append.mp isMem with passed | before
      · exact waiting w ((List.takeWhile_sublist _).subset (List.mem_reverse.mp passed))
      · exact emitted w before
    · exact waiting w ((List.dropWhile_sublist _).subset isMem)
  | leftBrace isLeftBrace => exact ⟨emitted, List.forall_mem_cons.mpr ⟨ofToken, waiting⟩⟩
  | separator isSeparator front brace f below count counts waits passes isBrace isCall =>
    rw [waits, List.forall_mem_append] at waiting
    exact ⟨List.forall_mem_append.mpr ⟨by simpa using waiting.1, emitted⟩, waiting.2⟩
  | group isRightBrace front brace below waits passes isBrace noCall =>
    rw [waits, List.forall_mem_append, List.forall_mem_cons] at waiting
    exact ⟨List.forall_mem_append.mpr ⟨by simpa using waiting.1, emitted⟩, waiting.2.2⟩
  | call isRightBrace front brace f below waits passes isBrace isCall =>
    rw [waits, List.forall_mem_append, List.forall_mem_cons, List.forall_mem_cons] at waiting
    refine ⟨List.forall_mem_cons.mpr ⟨counted f _ waiting.2.2.1, ?_⟩, waiting.2.2.2⟩
    exact List.forall_mem_append.mpr ⟨by simpa using waiting.1, emitted⟩

theorem Holds.run {tokens : List Token} (holds : s.Holds P) (ofTokens : ∀ t ∈ tokens, P t)
    (ran : s.run tokens = .ok s') : s'.Holds P := by
  induction tokens generalizing s with
  | nil =>
    obtain rfl := Except.ok.inj ran
    exact holds
  | cons t rest ih =>
    rw [List.forall_mem_cons] at ofTokens
    obtain ⟨middle, takes, ran⟩ := takes_of_run_cons ran
    exact ih (holds.takes counted ofTokens.1 takes) ofTokens.2 ran

theorem forall_mem_drain {waiting out : List Token} (emitted : ∀ t ∈ s.emitted, P t)
    (ofWaiting : ∀ t ∈ waiting, P t) (drained : s.drain waiting = .ok out) : ∀ t ∈ out, P t := by
  induction waiting generalizing s with
  | nil =>
    obtain rfl := Except.ok.inj drained
    simpa using emitted
  | cons w rest ih =>
    rw [List.forall_mem_cons] at ofWaiting
    rw [drain] at drained
    split at drained
    · cases drained
    · cases drained
    · exact ih (List.forall_mem_cons.mpr ⟨counted w _ ofWaiting.1, emitted⟩) ofWaiting.2 drained
    · exact ih (List.forall_mem_cons.mpr ⟨ofWaiting.1, emitted⟩) ofWaiting.2 drained

end Membership

end Reordering

/-- Tokens in postfix order are those that were read, up to the numbers of arguments. -/
theorem forall_mem_toPostfix {P : Token → Prop}
    (counted : ∀ t n, P t → P { t with argCount := n }) {tokens out : List Token}
    (ofTokens : ∀ t ∈ tokens, P t) (ordered : toPostfix tokens = .ok out) : ∀ t ∈ out, P t := by
  rw [toPostfix] at ordered
  rcases ran : Reordering.start.run tokens with error | s
  · rw [ran] at ordered
    cases ordered
  · rw [ran] at ordered
    have none : Reordering.start.Holds P := ⟨by simp [Reordering.start], by simp [Reordering.start]⟩
    obtain ⟨emitted, waiting⟩ := none.run counted ofTokens ran
    exact Reordering.forall_mem_drain counted emitted waiting ordered

end MatrixCalculator
