import MatrixCalculator.Proofs.AssignmentOrder
import Mathlib.Data.List.Chain

/-!
# The counters of open calls

While a function waits, its arguments are counted: it has a counter of its own and a flag for the
argument being read. Neither carries the name of its function. That the topmost ones are those of
the innermost call rests on there being one of each for every function that waits, and one flag
more for the expression as a whole.

This holds as long as a function goes together with its counter and its flag. It does so when its
call is closed, and at the end. But a separator or closing parenthesis lets everything through that
waits above the last opening parenthesis, and a function among that leaves its counter and its flag
behind, where they pass for those of the call around it (`counter_left_behind`). How many counters
there are is told exactly by `counters_of_run`: one for each function that waits and one for each
function that was let through in this way. If every function is followed by its parenthesis there is
none of the second kind (`strayCalls_of_opensCalls`).
-/

set_option autoImplicit false

namespace MatrixCalculator

/-- The number of functions. -/
def functionCount (tokens : List Token) : Nat :=
  tokens.countP (·.kind = .function)

/-- Whether every function is followed by an opening parenthesis or ends the tokens. -/
def OpensCalls (tokens : List Token) : Prop :=
  tokens.IsChain fun t u ↦ t.kind = .function → u.kind = .leftBrace

namespace Reordering

variable {s s' : Reordering} {t : Token}

/-- The functions that a token lets through although their calls are not closed by it. -/
def passedOver (s : Reordering) (t : Token) : Nat :=
  if t.kind = .argSeparator ∨ t.kind = .rightBrace then
    functionCount (s.waiting.takeWhile notLeftBrace)
  else 0

/-- The functions that are let through although their calls are not closed, the end of the tokens
apart. -/
def strayCalls (s : Reordering) : List Token → Nat
  | [] => 0
  | t :: rest =>
    s.passedOver t +
      match s.step t with
      | .ok next => next.strayCalls rest
      | .error _ => 0

theorem functionCount_append (front rest : List Token) :
    functionCount (front ++ rest) = functionCount front + functionCount rest :=
  List.countP_append

theorem functionCount_cons_of_isFunction (isFunction : t.kind = .function) (rest : List Token) :
    functionCount (t :: rest) = functionCount rest + 1 :=
  List.countP_cons_of_pos (by simpa using isFunction)

theorem functionCount_cons_of_kind (notFunction : t.kind ≠ .function) (rest : List Token) :
    functionCount (t :: rest) = functionCount rest :=
  List.countP_cons_of_neg (by simpa using notFunction)

/-- Operators that go first take no function along. -/
theorem functionCount_takeWhile (t : Token) (waiting : List Token) :
    functionCount (waiting.takeWhile (goesFirst t)) = 0 := by
  rw [functionCount, List.countP_eq_zero]
  intro w isMem
  rw [isOperator_of_mem_takeWhile isMem]
  decide

theorem passedOver_of_kind (notSeparator : t.kind ≠ .argSeparator)
    (notRightBrace : t.kind ≠ .rightBrace) : s.passedOver t = 0 :=
  if_neg (not_or.mpr ⟨notSeparator, notRightBrace⟩)

theorem passedOver_of_waits (closes : t.kind = .argSeparator ∨ t.kind = .rightBrace)
    {front below : List Token} {brace : Token} (waits : s.waiting = front ++ brace :: below)
    (passes : ∀ w ∈ front, w.kind ≠ .leftBrace) (isBrace : brace.kind = .leftBrace) :
    s.passedOver t = functionCount front := by
  have through : ∀ w ∈ front, notLeftBrace w = true :=
    fun w isMem ↦ notLeftBrace_eq_true_iff.mpr (passes w isMem)
  rw [passedOver, if_pos closes, waits, List.takeWhile_append_of_pos through,
    List.takeWhile_cons_of_neg (by simp [notLeftBrace, isBrace]), List.append_nil]

/-! ### How many counters there are -/

/-- A step leaves as many counters more than functions that wait as it lets functions through
without closing their calls. -/
theorem Takes.counters (takes : Takes s t s') (counted : s.Counted) :
    s'.argCounts.length + functionCount s.waiting =
      s.argCounts.length + functionCount s'.waiting + s.passedOver t := by
  have calls := counted.calls
  cases takes with
  | value isValue =>
    have other : t.kind ≠ .argSeparator ∧ t.kind ≠ .rightBrace := by
      constructor <;> (intro kind; rw [kind] at isValue; cases isValue)
    rw [passedOver_of_kind other.1 other.2]
    rfl
  | function isFunction =>
    rw [passedOver_of_kind (by simp [isFunction]) (by simp [isFunction]),
      functionCount_cons_of_isFunction isFunction, List.length_cons]
    omega
  | operator isOperator =>
    have parted : functionCount s.waiting = functionCount (s.waiting.dropWhile (goesFirst t)) := by
      rw [← Nat.zero_add (functionCount (s.waiting.dropWhile _)),
        ← functionCount_takeWhile t s.waiting, ← functionCount_append,
        List.takeWhile_append_dropWhile]
    rw [passedOver_of_kind (by simp [isOperator]) (by simp [isOperator]), parted,
      Reordering.operator, functionCount_cons_of_kind (by simp [isOperator])]
    rfl
  | leftBrace isLeftBrace =>
    rw [passedOver_of_kind (by simp [isLeftBrace]) (by simp [isLeftBrace]),
      functionCount_cons_of_kind (by simp [isLeftBrace])]
    rfl
  | separator isSeparator front brace f below count counts waits passes isBrace isCall isCounted =>
    rw [passedOver_of_waits (Or.inl isSeparator) waits passes isBrace, waits, isCounted,
      functionCount_append, List.length_cons, List.length_cons]
    dsimp only
    omega
  | group isRightBrace front brace below waits passes isBrace noCall =>
    rw [passedOver_of_waits (Or.inr isRightBrace) waits passes isBrace, waits,
      functionCount_append, functionCount_cons_of_kind (by simp [isBrace])]
    dsimp only
    omega
  | call isRightBrace front brace f below waits passes isBrace isCall =>
    rw [passedOver_of_waits (Or.inr isRightBrace) waits passes isBrace]
    change functionCount s.waiting ≤ s.argCounts.length at calls
    rw [waits, functionCount_append, functionCount_cons_of_kind (by simp [isBrace]),
      functionCount_cons_of_isFunction isCall] at calls ⊢
    rw [List.length_tail]
    dsimp only
    omega

theorem strayCalls_cons_of_takes (takes : Takes s t s') (rest : List Token) :
    s.strayCalls (t :: rest) = s.passedOver t + s'.strayCalls rest := by
  rw [strayCalls, step_of_takes takes]

/-- A run leaves as many counters more than functions that wait as there were stray calls. -/
theorem Counted.run {tokens : List Token} (counted : s.Counted) (ran : s.run tokens = .ok s') :
    s'.Counted ∧ s'.argCounts.length + functionCount s.waiting =
      s.argCounts.length + functionCount s'.waiting + s.strayCalls tokens := by
  induction tokens generalizing s with
  | nil =>
    obtain rfl := Except.ok.inj ran
    exact ⟨counted, rfl⟩
  | cons t rest ih =>
    obtain ⟨middle, takes, ran⟩ := takes_of_run_cons ran
    obtain ⟨countedLast, counters⟩ := ih (counted.takes takes) ran
    have ofStep := takes.counters counted
    rw [strayCalls_cons_of_takes takes]
    exact ⟨countedLast, by omega⟩

/-! ### Whose counters they are -/

/-- Whether the counter and the flag of every function that waits are those that came with it: below
them, the counters and flags are those that there were when the function was read. -/
def Owned (tokens : List Token) (s : Reordering) : Prop :=
  ∀ front f below, s.waiting = front ++ f :: below → f.kind = .function →
    ∃ before behind r, tokens = before ++ f :: behind ∧ start.run before = .ok r ∧
      r.waiting = below ∧ s.argCounts.drop (functionCount front + 1) = r.argCounts ∧
        s.valueSeen.drop (functionCount front + 1) = r.markValue.valueSeen

theorem drop_modifyHead {α : Type} (f : α → α) (items : List α) (n : Nat) :
    (items.modifyHead f).drop (n + 1) = items.drop (n + 1) := by
  cases items <;> rfl

/-- A step that takes no function in keeps what it leaves waiting owned, as long as the counters and
flags below each function stay. -/
theorem Owned.mono {tokens : List Token} (owned : s.Owned tokens) (t : Token)
    (stays : ∀ front f below, s'.waiting = front ++ f :: below → f.kind = .function →
      ∃ earlier, s.waiting = earlier ++ f :: below ∧
        s'.argCounts.drop (functionCount front + 1) =
          s.argCounts.drop (functionCount earlier + 1) ∧
        s'.valueSeen.drop (functionCount front + 1) =
          s.valueSeen.drop (functionCount earlier + 1)) :
    s'.Owned (tokens ++ [t]) := by
  intro front f below waits isFunction
  obtain ⟨earlier, waited, counts, flags⟩ := stays front f below waits isFunction
  obtain ⟨before, behind, r, rfl, ran, ofBelow, ofCounts, ofFlags⟩ :=
    owned earlier f below waited isFunction
  exact ⟨before, behind ++ [t], r, by simp, ran, ofBelow, counts.trans ofCounts,
    flags.trans ofFlags⟩

theorem Owned.function {tokens : List Token} (owned : s.Owned tokens)
    (ran : start.run tokens = .ok s) (isFunction : t.kind = .function) :
    Owned (tokens ++ [t])
      ⟨s.emitted, t :: s.waiting, false :: s.markValue.valueSeen, 0 :: s.argCounts⟩ := by
  intro front f below waits ofFunction
  cases front with
  | nil =>
    obtain ⟨rfl, rfl⟩ := List.cons.inj waits
    exact ⟨tokens, [], s, rfl, ran, rfl, rfl, rfl⟩
  | cons w front =>
    obtain ⟨rfl, waited⟩ := List.cons.inj waits
    obtain ⟨before, behind, r, rfl, ranBefore, ofBelow, ofCounts, ofFlags⟩ :=
      owned front f below waited ofFunction
    refine ⟨before, behind ++ [t], r, by simp, ranBefore, ofBelow, ?_, ?_⟩
    · rw [functionCount_cons_of_isFunction isFunction, List.drop_succ_cons]
      exact ofCounts
    · rw [functionCount_cons_of_isFunction isFunction, List.drop_succ_cons, markValue,
        drop_modifyHead]
      exact ofFlags

/-- A step that lets no function through without closing its call keeps everything owned. -/
theorem Owned.takes {tokens : List Token} (owned : s.Owned tokens)
    (ran : start.run tokens = .ok s) (takes : Takes s t s') (none : s.passedOver t = 0) :
    s'.Owned (tokens ++ [t]) := by
  cases takes with
  | value isValue =>
    refine owned.mono t fun front f below waits _ ↦ ⟨front, waits, rfl, ?_⟩
    rw [markValue]
    exact drop_modifyHead _ _ _
  | function isFunction => exact owned.function ran isFunction
  | operator isOperator =>
    refine owned.mono t fun front f below waits isFunction ↦ ?_
    cases front with
    | nil =>
      rw [← (List.cons.inj waits).1, isOperator] at isFunction
      cases isFunction
    | cons w front =>
      obtain ⟨rfl, waited⟩ := List.cons.inj waits
      have same : functionCount (t :: front) =
          functionCount (s.waiting.takeWhile (goesFirst t) ++ front) := by
        rw [functionCount_append, functionCount_takeWhile, Nat.zero_add,
          functionCount_cons_of_kind (by simp [isOperator])]
      refine ⟨s.waiting.takeWhile (goesFirst t) ++ front, ?_, by rw [same]; rfl,
        by rw [same]; rfl⟩
      exact List.takeWhile_append_dropWhile.symm.trans
        ((congrArg _ waited).trans (List.append_assoc _ _ _).symm)
  | leftBrace isLeftBrace =>
    refine owned.mono t fun front f below waits isFunction ↦ ?_
    cases front with
    | nil =>
      rw [← (List.cons.inj waits).1, isLeftBrace] at isFunction
      cases isFunction
    | cons w front =>
      obtain ⟨rfl, waited⟩ := List.cons.inj waits
      rw [functionCount_cons_of_kind (by simp [isLeftBrace])]
      exact ⟨front, waited, rfl, rfl⟩
  | separator isSeparator front brace f below count counts waits passes isBrace isCall counted =>
    rw [passedOver_of_waits (Or.inl isSeparator) waits passes isBrace] at none
    refine owned.mono t fun higher g lower ofWaits _ ↦ ⟨front ++ higher, ?_, ?_, ?_⟩
    · rw [waits, List.append_assoc, ← ofWaits]
    · rw [functionCount_append, none, Nat.zero_add, counted, List.drop_succ_cons,
        List.drop_succ_cons]
    · rw [functionCount_append, none, Nat.zero_add, List.drop_succ_cons, List.drop_tail]
  | group isRightBrace front brace below waits passes isBrace noCall =>
    rw [passedOver_of_waits (Or.inr isRightBrace) waits passes isBrace] at none
    refine owned.mono t fun higher g lower ofWaits _ ↦ ⟨front ++ brace :: higher, ?_, ?_, ?_⟩
    · rw [waits, List.append_assoc, List.cons_append, ← ofWaits]
    · rw [functionCount_append, none, Nat.zero_add,
        functionCount_cons_of_kind (by simp [isBrace])]
    · rw [functionCount_append, none, Nat.zero_add,
        functionCount_cons_of_kind (by simp [isBrace])]
  | call isRightBrace front brace f below waits passes isBrace isCall =>
    rw [passedOver_of_waits (Or.inr isRightBrace) waits passes isBrace] at none
    have among (higher : List Token) :
        functionCount (front ++ brace :: f :: higher) = functionCount higher + 1 := by
      rw [functionCount_append, none, Nat.zero_add,
        functionCount_cons_of_kind (by simp [isBrace]), functionCount_cons_of_isFunction isCall]
    refine owned.mono t fun higher g lower ofWaits _ ↦ ⟨front ++ brace :: f :: higher, ?_, ?_, ?_⟩
    · rw [waits, List.append_assoc, List.cons_append, List.cons_append, ← ofWaits]
    · rw [among, List.drop_tail]
    · rw [among, List.drop_tail]

/-- A run in which no call is let through unclosed keeps everything owned. -/
theorem Owned.run {done tokens : List Token} (owned : s.Owned done)
    (ranDone : start.run done = .ok s) (ran : s.run tokens = .ok s')
    (none : s.strayCalls tokens = 0) : s'.Owned (done ++ tokens) := by
  induction tokens generalizing s done with
  | nil =>
    obtain rfl := Except.ok.inj ran
    rwa [List.append_nil]
  | cons t rest ih =>
    obtain ⟨middle, takes, ran⟩ := takes_of_run_cons ran
    rw [strayCalls_cons_of_takes takes, Nat.add_eq_zero_iff] at none
    have ranNext : start.run (done ++ [t]) = .ok middle := by
      rw [run_append_of_ok ranDone, run_singleton, step_of_takes takes]
    rw [List.append_cons]
    exact ih (owned.takes ranDone takes none.1) ranNext ran none.2

theorem owned_start : start.Owned [] := by
  intro front f below waits
  simp [start] at waits

/-! ### Calls with their parentheses -/

/-- Whether a parenthesis waits directly above every function, the topmost token apart. -/
def Opened (s : Reordering) : Prop :=
  s.waiting.IsChain fun w f ↦ f.kind = .function → w.kind = .leftBrace

/-- Nothing but a function on top is between a parenthesis and what waits above it. -/
theorem functionCount_takeWhile_of_isChain {waiting : List Token}
    (chain : waiting.IsChain fun w f ↦ f.kind = .function → w.kind = .leftBrace)
    (top : ∀ w ∈ waiting.head?, w.kind ≠ .function) :
    functionCount (waiting.takeWhile notLeftBrace) = 0 := by
  induction waiting with
  | nil => rfl
  | cons w rest ih =>
    rw [List.isChain_cons] at chain
    by_cases through : notLeftBrace w = true
    · have below : ∀ f ∈ rest.head?, f.kind ≠ .function := fun f isHead isFunction ↦
        notLeftBrace_eq_true_iff.mp through (chain.1 f isHead isFunction)
      rw [List.takeWhile_cons_of_pos through, functionCount_cons_of_kind (top w rfl),
        ih chain.2 below]
    · rw [List.takeWhile_cons_of_neg through]
      rfl

theorem Opened.passedOver (isOpened : s.Opened)
    (due : ∀ w ∈ s.waiting.head?, w.kind = .function → t.kind = .leftBrace) :
    s.passedOver t = 0 := by
  rw [Reordering.passedOver]
  split_ifs with closes
  · refine functionCount_takeWhile_of_isChain isOpened fun w isHead isFunction ↦ ?_
    rw [due w isHead isFunction] at closes
    exact closes.elim TokenKind.noConfusion TokenKind.noConfusion
  · rfl

/-- If a function on top is followed by its parenthesis, functions are still below parentheses
behind the step, and one is on top only if it has just been taken in. -/
theorem Opened.takes (isOpened : s.Opened) (takes : Takes s t s')
    (due : ∀ w ∈ s.waiting.head?, w.kind = .function → t.kind = .leftBrace) :
    s'.Opened ∧ ∀ w ∈ s'.waiting.head?, w.kind = .function → t.kind = .function := by
  have noCall (other : t.kind ≠ .leftBrace) : ∀ w ∈ s.waiting.head?, w.kind ≠ .function :=
    fun w isHead isFunction ↦ other (due w isHead isFunction)
  have ofSuffix {front rest : List Token} (waits : s.waiting = front ++ rest) :
      rest.IsChain fun w f ↦ f.kind = .function → w.kind = .leftBrace := by
    rw [Opened, waits] at isOpened
    exact isOpened.right_of_append
  cases takes with
  | value isValue =>
    refine ⟨isOpened, fun w isHead isFunction ↦ absurd isFunction (noCall ?_ w isHead)⟩
    intro isBrace
    rw [isBrace] at isValue
    cases isValue
  | function isFunction =>
    refine ⟨List.isChain_cons.mpr ⟨fun w isHead ofFunction ↦ ?_, isOpened⟩,
      fun _ _ _ ↦ isFunction⟩
    exact absurd ofFunction (noCall (by simp [isFunction]) w isHead)
  | operator isOperator =>
    have notBrace : t.kind ≠ .leftBrace := by simp [isOperator]
    have parted := (List.takeWhile_append_dropWhile (p := goesFirst t) (l := s.waiting)).symm
    refine ⟨List.isChain_cons.mpr ⟨fun f isHead isFunction ↦ ?_, ofSuffix parted⟩,
      fun w isHead isFunction ↦ ?_⟩
    · -- What waits above the function would be an operator, or nothing.
      rcases List.eq_nil_or_concat (s.waiting.takeWhile (goesFirst t)) with
        none | ⟨front, last, through⟩
      · rw [none, List.nil_append] at parted
        rw [← parted] at isHead
        exact absurd isFunction (noCall notBrace f isHead)
      · rw [Opened, parted, List.isChain_append] at isOpened
        have isLast : last ∈ (s.waiting.takeWhile (goesFirst t)).getLast? := by simp [through]
        have isBrace := isOpened.2.2 last isLast f isHead isFunction
        rw [isOperator_of_mem_takeWhile (List.mem_of_getLast? isLast)] at isBrace
        cases isBrace
    · rw [← Option.some.inj isHead, isOperator] at isFunction
      cases isFunction
  | leftBrace isLeftBrace =>
    refine ⟨List.isChain_cons.mpr ⟨fun _ _ _ ↦ isLeftBrace, isOpened⟩,
      fun w isHead isFunction ↦ ?_⟩
    rw [← Option.some.inj isHead, isLeftBrace] at isFunction
    cases isFunction
  | separator isSeparator front brace f below count counts waits passes isBrace isCall counted =>
    refine ⟨ofSuffix waits, fun w isHead isFunction ↦ ?_⟩
    rw [← Option.some.inj isHead, isBrace] at isFunction
    cases isFunction
  | group isRightBrace front brace below waits passes isBrace notCall =>
    exact ⟨(ofSuffix waits).tail,
      fun w isHead isFunction ↦ absurd isFunction (notCall w isHead)⟩
  | call isRightBrace front brace f below waits passes isBrace isCall =>
    have chain := (ofSuffix waits).tail
    rw [List.tail_cons, List.isChain_cons] at chain
    refine ⟨chain.2, fun w isHead isFunction ↦ ?_⟩
    rw [chain.1 w isHead isFunction] at isCall
    cases isCall

theorem Opened.strayCalls {tokens : List Token} (isOpened : s.Opened)
    (due : ∀ t ∈ tokens.head?, ∀ w ∈ s.waiting.head?, w.kind = .function → t.kind = .leftBrace)
    (opens : OpensCalls tokens) : s.strayCalls tokens = 0 := by
  induction tokens generalizing s with
  | nil => rfl
  | cons t rest ih =>
    rw [OpensCalls, List.isChain_cons] at opens
    rw [Reordering.strayCalls, isOpened.passedOver (due t rfl)]
    rcases taken : s.step t with error | middle
    · rfl
    · obtain ⟨stillOpened, onTop⟩ := isOpened.takes (step_eq_ok_iff.mp taken) (due t rfl)
      dsimp only
      rw [ih stillOpened (fun u isNext w isHead isFunction ↦
        opens.1 u isNext (onTop w isHead isFunction)) opens.2]

/-- If every function is followed by its parenthesis, no function is let through before its call is
closed. -/
theorem strayCalls_of_opensCalls {tokens : List Token} (opens : OpensCalls tokens) :
    start.strayCalls tokens = 0 :=
  Opened.strayCalls (s := start) List.isChain_nil (by simp [start]) opens

/-- Behind any tokens there is one flag more than there are counters, and a counter for each
function that waits and for each one let through before its call was closed. Without the latter the
counters and flags belong to the functions that wait, and there is none of the latter if every
function is followed by its parenthesis. -/
theorem counters_of_run {tokens : List Token} (ran : start.run tokens = .ok s) :
    s.valueSeen.length = s.argCounts.length + 1 ∧
      s.argCounts.length = functionCount s.waiting + start.strayCalls tokens ∧
      (start.strayCalls tokens = 0 → s.Owned tokens) ∧
      (OpensCalls tokens → start.strayCalls tokens = 0) := by
  obtain ⟨counted, counters⟩ := counted_start.run ran
  refine ⟨counted.flags, ?_, fun none ↦ owned_start.run rfl ran none, strayCalls_of_opensCalls⟩
  have noneAtStart : functionCount start.waiting = 0 ∧ start.argCounts.length = 0 := ⟨rfl, rfl⟩
  omega

/-- Behind the comma of a call whose first argument is a call, one counter is left. -/
theorem counters_of_run_argument :
    let tokens := ["Fill", "Identity"].flatMap (fun name ↦
      [Token.call ⟨name, [], [], .matrix, "matrix", ""⟩, .leftBrace]) ++
        [.number 2, .rightBrace, .separator]
    ∃ s, start.run tokens = .ok s ∧ OpensCalls tokens ∧ functionCount s.waiting = 1 ∧
      s.argCounts.length = 1 ∧ s.Owned tokens := by
  intro tokens
  have opens : OpensCalls tokens := by
    simp [OpensCalls, tokens, Token.call, Token.leftBrace, Token.number, Token.rightBrace,
      Token.separator]
  rcases ran : start.run tokens with error | s
  · cases ran
  · obtain ⟨-, counters, owned, none⟩ := counters_of_run ran
    have waiting : functionCount s.waiting = 1 := by
      obtain rfl := Except.ok.inj ran
      rfl
    rw [none opens, waiting] at counters
    exact ⟨s, rfl, opens, waiting, counters, owned (none opens)⟩

/-- A function without parentheses that is let through by a closing parenthesis leaves its counter
and its flag behind. The call that is closed takes them for its own and loses its argument. -/
theorem counter_left_behind :
    let text := "!Identity(!Help)"
    ∃ tokens s, Token.readAll .builtin (.empty {}) text.toList = .ok tokens ∧
      start.run tokens = .ok s ∧ s.argCounts.length ≠ functionCount s.waiting ∧
      s.valueSeen.length ≠ functionCount s.waiting + 1 ∧
      (toPostfix tokens).toOption.map (List.map fun t ↦ (t.name, t.argCount)) =
        some [("Help", 0), ("Identity", 0)] := by
  intro text
  have holds : (Token.readAll .builtin (.empty {}) text.toList).toOption.any (fun tokens ↦
      (start.run tokens).toOption.any (fun s ↦ s.argCounts.length != functionCount s.waiting &&
        s.valueSeen.length != functionCount s.waiting + 1) &&
      (toPostfix tokens).toOption.map (List.map fun t ↦ (t.name, t.argCount)) ==
        some [("Help", 0), ("Identity", 0)]) = true := by decide +kernel
  rcases read : Token.readAll .builtin (.empty {}) text.toList with error | tokens
  · rw [read] at holds
    cases holds
  · rw [read] at holds
    obtain ⟨behind, ordered⟩ := Bool.and_eq_true_iff.mp holds
    rcases ran : start.run tokens with error | s
    · rw [ran] at behind
      cases behind
    · rw [ran] at behind
      obtain ⟨counters, flags⟩ := Bool.and_eq_true_iff.mp behind
      exact ⟨tokens, s, rfl, ran, bne_iff_ne.mp counters, bne_iff_ne.mp flags,
        beq_iff_eq.mp ordered⟩

end Reordering

end MatrixCalculator
