import MatrixCalculator.Proofs.ReorderingSteps
import Mathlib.Algebra.Order.Group.Multiset
import Mathlib.Tactic.Abel

/-!
# What reordering keeps

Reordering neither loses nor doubles a token, whatever the tokens are: those in postfix order are
those that were read, without parentheses and separators (`bag_of_toPostfix`), and the values among
them keep their order (`values_of_toPostfix`).

The tokens that were let through and those that wait are counted without regard to their order
(`Reordering.held`). Each step adds to them the token that it takes in (`Takes.held`), and it lets
through values only as it takes them in, because values never wait (`Takes.emittedValues`).
-/

set_option autoImplicit false

namespace MatrixCalculator

namespace Token

/-- Whether the token has a place in the postfix order; parentheses and separators have none. -/
def isKept (t : Token) : Bool :=
  t.kind != .leftBrace && t.kind != .rightBrace && t.kind != .argSeparator

/-- The token as it was before its arguments were counted. -/
def uncounted (t : Token) : Token :=
  if t.kind = .function then { t with argCount := 0 } else t

/-- Whether the token is one of those that wait on the stack. -/
def waits (t : Token) : Bool :=
  t.kind == .function || t.kind == .operator || t.kind == .leftBrace

variable {t : Token}

theorem uncounted_of_isFunction (isFunction : t.kind = .function) (count : Nat) :
    ({ t with argCount := count } : Token).uncounted = t.uncounted := by
  simp [uncounted, isFunction]

theorem isKept_of_isValue (isValue : t.kind.isValue = true) : t.isKept = true := by
  obtain ⟨kind, _⟩ := t
  cases kind <;> first | rfl | exact Bool.noConfusion isValue

/-- What waits and is no parenthesis has a place in the postfix order. -/
theorem isKept_of_waits (waits : t.waits = true) (notBrace : t.kind ≠ .leftBrace) :
    t.isKept = true := by
  obtain ⟨kind, _⟩ := t
  cases kind <;> first | rfl | exact absurd rfl notBrace | exact Bool.noConfusion waits

theorem isValue_of_waits (waits : t.waits = true) : t.kind.isValue = false := by
  obtain ⟨kind, _⟩ := t
  cases kind <;> first | rfl | exact Bool.noConfusion waits

end Token

namespace Reordering

variable {s s' : Reordering} {t : Token}

/-! ### No token is lost or doubled -/

/-- Tokens without regard to their order and to the numbers of arguments. -/
def bag (tokens : List Token) : Multiset Token :=
  (tokens.map Token.uncounted : List Token)

@[simp] theorem bag_nil : bag [] = 0 := rfl

@[simp] theorem bag_cons (t : Token) (rest : List Token) :
    bag (t :: rest) = {t.uncounted} + bag rest := by
  rw [bag, List.map_cons, ← Multiset.cons_coe, ← Multiset.singleton_add, bag]

@[simp] theorem bag_append (front rest : List Token) :
    bag (front ++ rest) = bag front + bag rest := by
  rw [bag, List.map_append, ← Multiset.coe_add, bag, bag]

@[simp] theorem bag_reverse (tokens : List Token) : bag tokens.reverse = bag tokens := by
  rw [bag, List.map_reverse, Multiset.coe_reverse, bag]

/-- The tokens that have been let through or wait, without parentheses. -/
def held (s : Reordering) : Multiset Token :=
  bag s.emitted + bag (s.waiting.filter Token.isKept)

/-- What waits is a function, an operator or an opening parenthesis. -/
def OnlyWaits (s : Reordering) : Prop :=
  ∀ w ∈ s.waiting, w.waits = true

theorem OnlyWaits.takes (only : s.OnlyWaits) (takes : Takes s t s') : s'.OnlyWaits := by
  cases takes with
  | value isValue => exact only
  | function isFunction =>
    exact List.forall_mem_cons.mpr ⟨by simp [Token.waits, isFunction], only⟩
  | operator isOperator =>
    exact List.forall_mem_cons.mpr ⟨by simp [Token.waits, isOperator],
      fun w isMem ↦ only w ((List.dropWhile_sublist _).subset isMem)⟩
  | leftBrace isLeftBrace =>
    exact List.forall_mem_cons.mpr ⟨by simp [Token.waits, isLeftBrace], only⟩
  | separator isSeparator front brace f below count counts waits passes isBrace isCall counted =>
    exact fun w isMem ↦ only w (by rw [waits]; exact List.mem_append_right _ isMem)
  | group isRightBrace front brace below waits passes isBrace noCall =>
    exact fun w isMem ↦ only w (by rw [waits]; simp [show w ∈ below from isMem])
  | call isRightBrace front brace f below waits passes isBrace isCall =>
    exact fun w isMem ↦ only w (by rw [waits]; simp [show w ∈ below from isMem])

/-- What waits above the last opening parenthesis is kept as a whole. -/
theorem filter_isKept_of_passes {front rest : List Token} (only : s.OnlyWaits)
    (waits : s.waiting = front ++ rest) (passes : ∀ w ∈ front, w.kind ≠ .leftBrace) :
    front.filter Token.isKept = front := by
  rw [List.filter_eq_self]
  exact fun w isMem ↦ Token.isKept_of_waits
    (only w (by rw [waits]; exact List.mem_append_left _ isMem)) (passes w isMem)

theorem isKept_of_isLeftBrace (isBrace : t.kind = .leftBrace) : t.isKept = false := by
  simp [Token.isKept, isBrace]

theorem isKept_of_isFunction (isFunction : t.kind = .function) : t.isKept = true := by
  simp [Token.isKept, isFunction]

/-- A step adds the token that it takes in, unless that is a parenthesis or a separator. -/
theorem Takes.held (takes : Takes s t s') (only : s.OnlyWaits) :
    s'.held = s.held + bag ([t].filter Token.isKept) := by
  cases takes with
  | value isValue =>
    simp only [Reordering.held, markValue_waiting, bag_cons, List.filter_cons,
      Token.isKept_of_isValue isValue, if_true, List.filter_nil, bag_nil]
    abel
  | function isFunction =>
    simp only [Reordering.held, bag_cons, List.filter_cons, isKept_of_isFunction isFunction,
      if_true, List.filter_nil, bag_nil]
    abel
  | operator isOperator =>
    have through : (s.waiting.takeWhile (goesFirst t)).filter Token.isKept =
        s.waiting.takeWhile (goesFirst t) := by
      refine filter_isKept_of_passes only List.takeWhile_append_dropWhile.symm fun w isMem ↦ ?_
      rw [isOperator_of_mem_takeWhile isMem]
      exact TokenKind.noConfusion
    have parted : bag (s.waiting.filter Token.isKept) =
        bag (s.waiting.takeWhile (goesFirst t)) +
          bag ((s.waiting.dropWhile (goesFirst t)).filter Token.isKept) := by
      rw [← through, ← bag_append, ← List.filter_append, List.takeWhile_append_dropWhile]
    have isKept : t.isKept = true := by simp [Token.isKept, isOperator]
    simp only [Reordering.held, Reordering.operator, parted, bag_append, bag_reverse, bag_cons,
      List.filter_cons, isKept, if_true, List.filter_nil, bag_nil]
    abel
  | leftBrace isLeftBrace =>
    simp [Reordering.held, isKept_of_isLeftBrace isLeftBrace]
  | separator isSeparator front brace f below count counts waits passes isBrace isCall counted =>
    have noPlace : t.isKept = false := by simp [Token.isKept, isSeparator]
    simp only [Reordering.held, waits, List.filter_append, List.filter_cons, noPlace,
      isKept_of_isLeftBrace isBrace, filter_isKept_of_passes only waits passes, bag_append,
      bag_reverse, List.filter_nil, bag_nil, Bool.false_eq_true, if_false]
    abel
  | group isRightBrace front brace below waits passes isBrace noCall =>
    have noPlace : t.isKept = false := by simp [Token.isKept, isRightBrace]
    simp only [Reordering.held, waits, List.filter_append, List.filter_cons, noPlace,
      isKept_of_isLeftBrace isBrace, filter_isKept_of_passes only waits passes, bag_append,
      bag_reverse, List.filter_nil, bag_nil, Bool.false_eq_true, if_false]
    abel
  | call isRightBrace front brace f below waits passes isBrace isCall =>
    have noPlace : t.isKept = false := by simp [Token.isKept, isRightBrace]
    simp only [Reordering.held, waits, List.filter_append, List.filter_cons, noPlace,
      isKept_of_isLeftBrace isBrace, isKept_of_isFunction isCall,
      filter_isKept_of_passes only waits passes, bag_append, bag_reverse, bag_cons,
      Token.uncounted_of_isFunction isCall, List.filter_nil, bag_nil, Bool.false_eq_true,
      if_false, if_true]
    abel

/-! ### Values keep their order -/

/-- The values that have been let through, in the order in which they were. -/
def emittedValues (s : Reordering) : List Token :=
  s.emitted.reverse.filter (·.kind.isValue)

theorem filter_isValue_of_waits {front : List Token} (waits : ∀ w ∈ front, w.waits = true) :
    front.filter (·.kind.isValue) = [] := by
  rw [List.filter_eq_nil_iff]
  intro w isMem
  rw [Token.isValue_of_waits (waits w isMem)]
  exact Bool.false_ne_true

/-- A step lets a value through if it takes one in, and no other. -/
theorem Takes.emittedValues (takes : Takes s t s') (only : s.OnlyWaits) :
    s'.emittedValues = s.emittedValues ++ [t].filter (·.kind.isValue) := by
  have ofFront {front rest : List Token} (waits : s.waiting = front ++ rest) :
      front.filter (·.kind.isValue) = [] :=
    filter_isValue_of_waits fun w isMem ↦ only w (by rw [waits]; exact List.mem_append_left _ isMem)
  cases takes with
  | value isValue => simp [Reordering.emittedValues, isValue]
  | function isFunction =>
    have noValue : t.kind.isValue = false := by rw [isFunction]; rfl
    simp [Reordering.emittedValues, noValue]
  | operator isOperator =>
    have noValue : t.kind.isValue = false := by rw [isOperator]; rfl
    have through := ofFront (List.takeWhile_append_dropWhile (p := goesFirst t)).symm
    simp [Reordering.emittedValues, Reordering.operator, noValue, through]
  | leftBrace isLeftBrace =>
    have noValue : t.kind.isValue = false := by rw [isLeftBrace]; rfl
    simp [Reordering.emittedValues, noValue]
  | separator isSeparator front brace f below count counts waits passes isBrace isCall counted =>
    have noValue : t.kind.isValue = false := by rw [isSeparator]; rfl
    simp [Reordering.emittedValues, noValue, ofFront waits]
  | group isRightBrace front brace below waits passes isBrace noCall =>
    have noValue : t.kind.isValue = false := by rw [isRightBrace]; rfl
    simp [Reordering.emittedValues, noValue, ofFront waits]
  | call isRightBrace front brace f below waits passes isBrace isCall =>
    have noValue : t.kind.isValue = false := by rw [isRightBrace]; rfl
    have notValue : f.kind.isValue = false := by rw [isCall]; rfl
    simp [Reordering.emittedValues, noValue, notValue, ofFront waits]

/-! ### Whole runs -/

/-- A run adds the tokens that it takes in, and lets the values among them through in order. -/
theorem held_of_run {tokens : List Token} (only : s.OnlyWaits) (ran : s.run tokens = .ok s') :
    s'.OnlyWaits ∧ s'.held = s.held + bag (tokens.filter Token.isKept) ∧
      s'.emittedValues = s.emittedValues ++ tokens.filter (·.kind.isValue) := by
  induction tokens generalizing s with
  | nil =>
    obtain rfl := Except.ok.inj ran
    exact ⟨only, by simp, by simp⟩
  | cons t rest ih =>
    obtain ⟨middle, takes, ran⟩ := takes_of_run_cons ran
    obtain ⟨onlyLast, held, values⟩ := ih (only.takes takes) ran
    have parted (p : Token → Bool) : (t :: rest).filter p = [t].filter p ++ rest.filter p :=
      List.filter_append [t] rest
    refine ⟨onlyLast, ?_, ?_⟩
    · rw [held, takes.held only, parted, bag_append, add_assoc]
    · rw [values, takes.emittedValues only, parted, List.append_assoc]

/-- Functions and operators that wait at the end are let through in the order in which they wait,
whatever numbers of arguments the functions get. -/
theorem exists_of_drain {waiting out : List Token} (waits : ∀ w ∈ waiting, w.waits = true)
    (drained : s.drain waiting = .ok out) :
    ∃ through, out = s.emitted.reverse ++ through ∧ bag through = bag waiting ∧
      (∀ w ∈ waiting, w.kind ≠ .leftBrace) ∧ ∀ w ∈ through, w.waits = true := by
  induction waiting generalizing s with
  | nil =>
    obtain rfl := Except.ok.inj drained
    exact ⟨[], by simp, rfl, by simp, by simp⟩
  | cons w rest ih =>
    rw [List.forall_mem_cons] at waits
    rw [drain] at drained
    split at drained
    · cases drained
    · cases drained
    · rename_i isFunction
      obtain ⟨through, rfl, same, passes, waitsThrough⟩ := ih waits.2 drained
      refine ⟨{ w with argCount := s.argCounts.head?.getD 0 } :: through, by simp [finishCall], ?_,
        List.forall_mem_cons.mpr ⟨by simp [isFunction], passes⟩,
        List.forall_mem_cons.mpr ⟨waits.1, waitsThrough⟩⟩
      rw [bag_cons, bag_cons, Token.uncounted_of_isFunction isFunction, same]
    · rename_i notBrace _ _
      obtain ⟨through, rfl, same, passes, waitsThrough⟩ := ih waits.2 drained
      refine ⟨w :: through, by simp, by rw [bag_cons, bag_cons, same],
        List.forall_mem_cons.mpr ⟨notBrace, passes⟩,
        List.forall_mem_cons.mpr ⟨waits.1, waitsThrough⟩⟩

theorem onlyWaits_start : start.OnlyWaits := by
  simp [OnlyWaits, start]

end Reordering

open Reordering

variable {tokens out : List Token}

/-- The tokens in postfix order are those that let everything through behind the run of all
tokens. -/
theorem exists_of_toPostfix (ordered : toPostfix tokens = .ok out) :
    ∃ s, start.run tokens = .ok s ∧ s.drain s.waiting = .ok out := by
  rw [toPostfix] at ordered
  rcases ran : start.run tokens with error | s
  · rw [ran] at ordered
    cases ordered
  · rw [ran] at ordered
    exact ⟨s, rfl, ordered⟩

/-- In postfix order stand the tokens that were read, each once, without parentheses and
separators. -/
theorem bag_of_toPostfix (ordered : toPostfix tokens = .ok out) :
    bag out = bag (tokens.filter Token.isKept) := by
  obtain ⟨s, ran, drained⟩ := exists_of_toPostfix ordered
  obtain ⟨only, held, -⟩ := held_of_run onlyWaits_start ran
  obtain ⟨through, rfl, same, passes, -⟩ := exists_of_drain only drained
  have all : s.waiting.filter Token.isKept = s.waiting :=
    filter_isKept_of_passes only (List.append_nil _).symm passes
  rw [Reordering.held, all] at held
  rw [bag_append, bag_reverse, same, held]
  simp [Reordering.held, start]

/-- The values stand in postfix order as they were read. -/
theorem values_of_toPostfix (ordered : toPostfix tokens = .ok out) :
    out.filter (·.kind.isValue) = tokens.filter (·.kind.isValue) := by
  obtain ⟨s, ran, drained⟩ := exists_of_toPostfix ordered
  obtain ⟨only, -, values⟩ := held_of_run onlyWaits_start ran
  obtain ⟨through, rfl, -, -, waitsThrough⟩ := exists_of_drain only drained
  rw [List.filter_append, filter_isValue_of_waits waitsThrough, List.append_nil]
  exact values

end MatrixCalculator
