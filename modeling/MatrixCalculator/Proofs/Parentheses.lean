import MatrixCalculator.Proofs.KeptTokens

/-!
# Parentheses that do not match

Without separators, reordering fails because of parentheses alone: at a closing one for which none
is open, or at the end if one is still open (`toPostfix_cases`). As many are open at any time as
wait on the stack (`Takes.openBraces`), and a closing parenthesis is taken in if one waits, whatever
waits above it. Together with what reordering keeps this says all about the order of tokens in
general, well-formed or not (`toPostfix_exact`).
-/

set_option autoImplicit false

namespace MatrixCalculator

/-! ### Counting parentheses -/

/-- The number of opening parentheses. -/
def opened (tokens : List Token) : Nat :=
  tokens.countP (·.kind = .leftBrace)

/-- The number of closing parentheses. -/
def closed (tokens : List Token) : Nat :=
  tokens.countP (·.kind = .rightBrace)

/-- Whether up to some point more parentheses are closed than are open: those that the tokens have
opened, and as many as `depth` before them. -/
def Overcloses (depth : Nat) (tokens : List Token) : Prop :=
  ∃ front, front <+: tokens ∧ depth + opened front < closed front

theorem opened_append (front rest : List Token) :
    opened (front ++ rest) = opened front + opened rest :=
  List.countP_append

theorem opened_cons (t : Token) (rest : List Token) :
    opened (t :: rest) = opened [t] + opened rest :=
  opened_append [t] rest

theorem closed_cons (t : Token) (rest : List Token) :
    closed (t :: rest) = closed [t] + closed rest := by
  rw [← List.singleton_append, closed, List.countP_append, closed, closed]

theorem not_overcloses_nil (depth : Nat) : ¬ Overcloses depth [] := by
  rintro ⟨front, isPrefix, fewer⟩
  obtain rfl := List.prefix_nil.mp isPrefix
  exact Nat.not_lt_zero _ fewer

/-- Behind a token that does not close too much, the tokens close too much if the others do. -/
theorem overcloses_cons_iff {depth left : Nat} {t : Token} {rest : List Token}
    (after : left + closed [t] = depth + opened [t]) :
    Overcloses depth (t :: rest) ↔ Overcloses left rest := by
  constructor
  · rintro ⟨front, isPrefix, fewer⟩
    cases front with
    | nil => exact absurd fewer (Nat.not_lt_zero _)
    | cons u front =>
      obtain ⟨rfl, ofRest⟩ := List.cons_prefix_cons.mp isPrefix
      rw [opened_cons, closed_cons] at fewer
      exact ⟨front, ofRest, by omega⟩
  · rintro ⟨front, isPrefix, fewer⟩
    refine ⟨t :: front, List.cons_prefix_cons.mpr ⟨rfl, isPrefix⟩, ?_⟩
    rw [opened_cons, closed_cons]
    omega

namespace Reordering

variable {s s' : Reordering} {t : Token}

/-- The number of parentheses that are open. -/
def openBraces (s : Reordering) : Nat :=
  opened s.waiting

theorem opened_of_passes {front : List Token} (passes : ∀ w ∈ front, w.kind ≠ .leftBrace) :
    opened front = 0 := by
  rw [opened, List.countP_eq_zero]
  simpa using passes

/-- A parenthesis is open from when it is taken in to when it is closed. -/
theorem Takes.openBraces (takes : Takes s t s') :
    s'.openBraces + closed [t] = s.openBraces + opened [t] := by
  cases takes with
  | value isValue =>
    have noBrace : opened [t] = 0 ∧ closed [t] = 0 := by
      obtain ⟨kind, _⟩ := t
      cases kind <;> first | exact ⟨rfl, rfl⟩ | exact Bool.noConfusion isValue
    rw [noBrace.1, noBrace.2]
    rfl
  | function isFunction =>
    simp [Reordering.openBraces, opened, closed, isFunction]
  | operator isOperator =>
    have passes : ∀ w ∈ s.waiting.takeWhile (goesFirst t), w.kind ≠ .leftBrace := by
      intro w isMem
      rw [isOperator_of_mem_takeWhile isMem]
      exact TokenKind.noConfusion
    have parted : opened s.waiting = opened (s.waiting.dropWhile (goesFirst t)) := by
      rw [← Nat.zero_add (opened (s.waiting.dropWhile _)), ← opened_of_passes passes,
        ← opened_append, List.takeWhile_append_dropWhile]
    rw [Reordering.openBraces, Reordering.openBraces, parted, Reordering.operator, opened_cons]
    simp [opened, closed, isOperator]
  | leftBrace isLeftBrace =>
    rw [Reordering.openBraces, Reordering.openBraces, opened_cons]
    simp [opened, closed, isLeftBrace]
    omega
  | separator isSeparator front brace f below count counts waits passes isBrace isCall counted =>
    rw [Reordering.openBraces, Reordering.openBraces, waits, opened_append,
      opened_of_passes passes]
    simp [opened, closed, isSeparator]
  | group isRightBrace front brace below waits passes isBrace noCall =>
    rw [Reordering.openBraces, Reordering.openBraces, waits, opened_append,
      opened_of_passes passes, opened_cons]
    simp [opened, closed, isRightBrace, isBrace]
    omega
  | call isRightBrace front brace f below waits passes isBrace isCall =>
    rw [Reordering.openBraces, Reordering.openBraces, waits, opened_append,
      opened_of_passes passes, opened_cons, opened_cons f]
    simp [opened, closed, isRightBrace, isBrace, isCall]
    omega

/-- A closing parenthesis for which none is open is refused. -/
theorem step_of_openBraces_eq_zero (isRightBrace : t.kind = .rightBrace)
    (none : s.openBraces = 0) : s.step t = .error .unmatchedRightBrace := by
  rw [openBraces, opened, List.countP_eq_zero] at none
  exact step_of_unmatched isRightBrace (by simpa using none)

/-- Any other token but a separator is taken in. -/
theorem exists_takes (notSeparator : t.kind ≠ .argSeparator)
    (isOpen : t.kind = .rightBrace → s.openBraces ≠ 0) : ∃ s', Takes s t s' := by
  cases kind : t.kind with
  | function => exact ⟨_, .function kind⟩
  | argSeparator => exact absurd kind notSeparator
  | operator => exact ⟨_, .operator kind⟩
  | leftBrace => exact ⟨_, .leftBrace kind⟩
  | rightBrace =>
    rcases exists_leftBrace s.waiting with none | ⟨front, brace, below, waits, passes, isBrace⟩
    · exact absurd (opened_of_passes none) (isOpen kind)
    · by_cases isCall : ∃ f ∈ below.head?, f.kind = .function
      · obtain ⟨f, isHead, isCall⟩ := isCall
        obtain ⟨rest, rfl⟩ := List.head?_eq_some_iff.mp isHead
        exact ⟨_, .call kind front brace f rest waits passes isBrace isCall⟩
      · exact ⟨_, .group kind front brace below waits passes isBrace
          fun w isHead isFunction ↦ isCall ⟨w, isHead, isFunction⟩⟩
  | null | string | number | matrixRef | docsQuery | output | errorMarker | void =>
    exact ⟨_, .value (by rw [kind]; rfl)⟩

/-- A run without separators fails if more is closed than is open, and only then. -/
theorem run_cases {tokens : List Token} (noSeparator : ∀ t ∈ tokens, t.kind ≠ .argSeparator) :
    Overcloses s.openBraces tokens ∧ s.run tokens = .error .unmatchedRightBrace ∨
      ¬ Overcloses s.openBraces tokens ∧ ∃ s', s.run tokens = .ok s' ∧
        s'.openBraces + closed tokens = s.openBraces + opened tokens := by
  induction tokens generalizing s with
  | nil => exact Or.inr ⟨not_overcloses_nil _, s, rfl, rfl⟩
  | cons t rest ih =>
    rw [List.forall_mem_cons] at noSeparator
    by_cases isOpen : t.kind = .rightBrace → s.openBraces ≠ 0
    · obtain ⟨middle, takes⟩ := exists_takes noSeparator.1 isOpen
      have after := takes.openBraces
      rw [overcloses_cons_iff after, run_cons_of_ok (step_of_takes takes), opened_cons,
        closed_cons]
      rcases ih (s := middle) noSeparator.2 with failed | ⟨notOver, s', ran, counted⟩
      · exact Or.inl failed
      · exact Or.inr ⟨notOver, s', ran, by omega⟩
    · rw [Classical.not_imp, ne_eq, not_not] at isOpen
      obtain ⟨isRightBrace, none⟩ := isOpen
      refine Or.inl ⟨⟨[t], ⟨rest, rfl⟩, ?_⟩, ?_⟩
      · simp [opened, closed, isRightBrace, none]
      · rw [run, List.foldlM_cons, step_of_openBraces_eq_zero isRightBrace none]
        rfl

/-! ### The end -/

/-- A parenthesis that is open at the end is refused. -/
theorem drain_of_isLeftBrace {waiting : List Token}
    (isOpen : ∃ w ∈ waiting, w.kind = .leftBrace) :
    s.drain waiting = .error .unmatchedLeftBrace := by
  induction waiting generalizing s with
  | nil => simp at isOpen
  | cons w rest ih =>
    rw [drain]
    split
    · rfl
    · rfl
    · rename_i isFunction
      exact ih (by simpa [isFunction] using isOpen)
    · rename_i notBrace _ _
      rw [List.exists_mem_cons_iff] at isOpen
      exact ih (isOpen.resolve_left notBrace)

/-- If none is open, everything that waits is let through. -/
theorem exists_drain {waiting : List Token} (waits : ∀ w ∈ waiting, w.waits = true)
    (passes : ∀ w ∈ waiting, w.kind ≠ .leftBrace) : ∃ out, s.drain waiting = .ok out := by
  induction waiting generalizing s with
  | nil => exact ⟨_, rfl⟩
  | cons w rest ih =>
    rw [List.forall_mem_cons] at waits passes
    rw [drain]
    split
    · exact absurd ‹_› passes.1
    · rename_i isRightBrace
      simp [Token.waits, isRightBrace] at waits
    · exact ih waits.2 passes.2
    · exact ih waits.2 passes.2

end Reordering

open Reordering

variable {tokens : List Token}

/-- Tokens without separators have a postfix order unless they close a parenthesis that is not open
or leave one open. -/
theorem toPostfix_cases (noSeparator : ∀ t ∈ tokens, t.kind ≠ .argSeparator) :
    Overcloses 0 tokens ∧ toPostfix tokens = .error .unmatchedRightBrace ∨
      ¬ Overcloses 0 tokens ∧
        (closed tokens < opened tokens ∧ toPostfix tokens = .error .unmatchedLeftBrace ∨
          opened tokens ≤ closed tokens ∧ ∃ out, toPostfix tokens = .ok out) := by
  rcases run_cases (s := start) noSeparator with ⟨overcloses, failed⟩ | ⟨notOver, s, ran, counted⟩
  · refine Or.inl ⟨overcloses, ?_⟩
    rw [toPostfix, failed]
    rfl
  · have only := (held_of_run onlyWaits_start ran).1
    have ordered : toPostfix tokens = s.drain s.waiting := by
      rw [toPostfix, ran]
      rfl
    have counted : s.openBraces + closed tokens = opened tokens := by
      rw [counted]
      exact Nat.zero_add _
    refine Or.inr ⟨notOver, ?_⟩
    rw [ordered]
    by_cases isOpen : ∃ w ∈ s.waiting, w.kind = .leftBrace
    · have positive : 0 < s.openBraces := by simpa [openBraces, opened] using isOpen
      exact Or.inl ⟨by omega, drain_of_isLeftBrace isOpen⟩
    · have passes : ∀ w ∈ s.waiting, w.kind ≠ .leftBrace :=
        fun w isMem isBrace ↦ isOpen ⟨w, isMem, isBrace⟩
      have none : s.openBraces = 0 := opened_of_passes passes
      exact Or.inr ⟨by omega, exists_drain only passes⟩

/-- If tokens have a postfix order, it consists of the same tokens, each once and unchanged but for
the numbers of arguments, without parentheses and separators, and values stand in it as they were
read. Without separators, tokens have a postfix order if the parentheses match, and otherwise it is
told which parenthesis does not. -/
theorem toPostfix_exact (tokens : List Token) :
    (∀ out, toPostfix tokens = .ok out →
      (out.map Token.uncounted).Perm ((tokens.filter Token.isKept).map Token.uncounted) ∧
        out.filter (·.kind.isValue) = tokens.filter (·.kind.isValue)) ∧
    ((∀ t ∈ tokens, t.kind ≠ .argSeparator) →
      (toPostfix tokens = .error .unmatchedRightBrace ↔ Overcloses 0 tokens) ∧
      (toPostfix tokens = .error .unmatchedLeftBrace ↔
        ¬ Overcloses 0 tokens ∧ closed tokens < opened tokens) ∧
      ((∃ out, toPostfix tokens = .ok out) ↔
        ¬ Overcloses 0 tokens ∧ opened tokens ≤ closed tokens)) := by
  constructor
  · intro out ordered
    exact ⟨Multiset.coe_eq_coe.mp (bag_of_toPostfix ordered), values_of_toPostfix ordered⟩
  · intro noSeparator
    rcases toPostfix_cases noSeparator with
      ⟨overcloses, failed⟩ | ⟨notOver, ⟨leftOpen, failed⟩ | ⟨closes, out, ordered⟩⟩
    · simp [failed, overcloses]
    · simp [failed, notOver, leftOpen]
    · simp [ordered, notOver, closes]

/-- A call in parentheses: the call stays the same but for its number of arguments. -/
theorem toPostfix_exact_call :
    let f := Token.call ⟨"Identity", ["Eye"], [], .matrix, "matrix", ""⟩
    let tokens := [.leftBrace, f, .leftBrace, .number 2, .rightBrace, .rightBrace]
    let out := [.number 2, { f with argCount := 1 }]
    toPostfix tokens = .ok out ∧
      (out.map Token.uncounted).Perm ((tokens.filter Token.isKept).map Token.uncounted) ∧
      (∀ t ∈ tokens, t.kind ≠ .argSeparator) ∧ ¬ Overcloses 0 tokens := by
  intro f tokens out
  have ordered : toPostfix tokens = .ok out := rfl
  have noSeparator : ∀ t ∈ tokens, t.kind ≠ .argSeparator := by
    simp [tokens, f, Token.leftBrace, Token.call, Token.number, Token.rightBrace]
  obtain ⟨keeps, fails⟩ := toPostfix_exact tokens
  exact ⟨ordered, (keeps out ordered).1, noSeparator,
    ((fails noSeparator).2.2.mp ⟨out, ordered⟩).1⟩

end MatrixCalculator
