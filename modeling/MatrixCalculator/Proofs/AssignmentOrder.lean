import MatrixCalculator.Proofs.ReorderingSteps
import MatrixCalculator.Proofs.TokenReading

/-!
# The postfix order of an assignment

Behind a name and an equals sign, tokens are reordered as they are by themselves: the name comes
first, the equals sign last, and in between stands the postfix order of the right side
(`exists_of_toPostfix_assignment`). The equals sign waits below all else and nothing but the end of
the expression lets it through, since no operator binds less tightly and no parenthesis opens
below it. Inside any other tokens it is the same, as long as those within close no parenthesis that
was opened outside (`run_inside_cases`).
-/

set_option autoImplicit false

namespace MatrixCalculator

namespace Reordering

variable {s u : Reordering} {name t : Token}

/-! ### Counters and flags -/

/-- Whether every call that waits has its counter and its flag, below which lies one flag more. -/
structure Counted (s : Reordering) : Prop where
  flags : s.valueSeen.length = s.argCounts.length + 1
  calls : s.waiting.countP (·.kind = .function) ≤ s.argCounts.length

theorem counted_start : start.Counted :=
  ⟨rfl, Nat.le_refl 0⟩

theorem length_markValue (s : Reordering) :
    s.markValue.valueSeen.length = s.valueSeen.length := by
  rw [markValue, List.length_modifyHead]

/-- While a call waits, its flag is not the lowest one. -/
theorem Counted.exists_of_call (counted : s.Counted) {front : List Token} {brace f : Token}
    {below : List Token} (waits : s.waiting = front ++ brace :: f :: below)
    (isCall : f.kind = .function) :
    ∃ first second flags, s.valueSeen = first :: second :: flags := by
  obtain ⟨lengths, calls⟩ := counted
  rw [waits, List.countP_append, List.countP_cons,
    List.countP_cons_of_pos (by simpa using isCall)] at calls
  rcases seen : s.valueSeen with _ | ⟨first, _ | ⟨second, flags⟩⟩
  · simp [seen] at lengths
  · simp only [seen, List.length_singleton] at lengths
    omega
  · exact ⟨first, second, flags, rfl⟩

theorem Counted.takes (counted : s.Counted) (takes : Takes s t u) : u.Counted := by
  obtain ⟨flags, calls⟩ := counted
  cases takes with
  | value isValue => exact ⟨(length_markValue s).trans flags, calls⟩
  | function isFunction =>
    refine ⟨?_, ?_⟩
    · rw [List.length_cons, List.length_cons, length_markValue, flags]
    · rw [List.countP_cons_of_pos (by simpa using isFunction), List.length_cons]
      omega
  | operator isOperator =>
    refine ⟨flags, ?_⟩
    rw [operator, List.countP_cons_of_neg (by simp [isOperator])]
    exact (List.dropWhile_sublist (goesFirst t)).countP_le.trans calls
  | leftBrace isLeftBrace =>
    refine ⟨flags, ?_⟩
    rw [List.countP_cons_of_neg (by simp [isLeftBrace])]
    exact calls
  | separator isSeparator front brace f below count counts waits passes isBrace isCall isCounted =>
    rw [waits, List.countP_append, isCounted] at calls
    rw [isCounted] at flags
    refine ⟨?_, ?_⟩
    · simp only [List.length_cons, List.length_tail] at flags ⊢
      omega
    · simp only [List.length_cons] at calls ⊢
      omega
  | group isRightBrace front brace below waits passes isBrace noCall =>
    rw [waits, List.countP_append, List.countP_cons] at calls
    refine ⟨flags, ?_⟩
    dsimp only
    omega
  | call isRightBrace front brace f below waits passes isBrace isCall =>
    rw [waits, List.countP_append, List.countP_cons,
      List.countP_cons_of_pos (by simpa using isCall)] at calls
    refine ⟨?_, ?_⟩
    · simp only [List.length_tail]
      omega
    · simp only [List.length_tail]
      omega

/-! ### Inside other tokens -/

/-- A state inside other tokens, seen from the tokens within: some were let through before, some
wait below all else, and the expression as a whole has a value. -/
def inside (before below : List Token) (s : Reordering) : Reordering where
  emitted := s.emitted ++ before
  waiting := s.waiting ++ below
  valueSeen := s.valueSeen.dropLast ++ [true]
  argCounts := s.argCounts

section Inside

variable {before outer : List Token}

/-- A token that waits is among those within, or there is no parenthesis open within. -/
theorem waiting_cases {waiting front below : List Token} {brace : Token}
    (waits : waiting ++ outer = front ++ brace :: below)
    (passes : ∀ w ∈ front, w.kind ≠ .leftBrace) :
    (∃ own, below = own ++ outer ∧ waiting = front ++ brace :: own) ∨
      (∀ w ∈ waiting, w.kind ≠ .leftBrace) ∧ ∃ above, outer = above ++ brace :: below := by
  rcases List.append_eq_append_iff.mp waits with ⟨above, rfl, isOuter⟩ | ⟨own, rfl, parts⟩
  · exact Or.inr ⟨fun w isMem ↦ passes w (List.mem_append_left above isMem), above, isOuter⟩
  · cases own with
    | nil =>
      rw [List.append_nil]
      exact Or.inr ⟨passes, [], parts.symm⟩
    | cons w own =>
      obtain ⟨rfl, rfl⟩ := List.cons.inj parts
      exact Or.inl ⟨own, rfl, rfl⟩

/-- A call that waits is within if no call is outside. -/
theorem exists_of_waiting_call (noCalls : ∀ w ∈ outer, w.kind ≠ .function)
    {waiting front below : List Token} {brace f : Token}
    (waits : waiting ++ outer = front ++ brace :: f :: below)
    (passes : ∀ w ∈ front, w.kind ≠ .leftBrace) (isCall : f.kind = .function) :
    ∃ own, below = own ++ outer ∧ waiting = front ++ brace :: f :: own := by
  rcases waiting_cases waits passes with ⟨own, parts, rfl⟩ | ⟨-, above, rfl⟩
  · cases own with
    | nil =>
      obtain rfl := parts
      exact absurd isCall (noCalls f List.mem_cons_self)
    | cons w own =>
      obtain ⟨rfl, rfl⟩ := List.cons.inj parts
      exact ⟨own, rfl, rfl⟩
  · exact absurd isCall (noCalls f (by simp))

theorem takeWhile_append_of_head? {p : Token → Bool} (stops : ∀ w ∈ outer.head?, p w = false)
    (front : List Token) : (front ++ outer).takeWhile p = front.takeWhile p := by
  cases outer with
  | nil => rw [List.append_nil]
  | cons w outer => exact Atom.takeWhile_append_cons front outer (stops w rfl)

theorem dropWhile_append_of_head? {p : Token → Bool} (stops : ∀ w ∈ outer.head?, p w = false)
    (front : List Token) : (front ++ outer).dropWhile p = front.dropWhile p ++ outer := by
  induction front with
  | nil =>
    cases outer with
    | nil => rfl
    | cons w outer => exact List.dropWhile_cons_of_neg (by simp [stops w rfl])
  | cons w front ih =>
    rw [List.cons_append, List.dropWhile_cons, List.dropWhile_cons, ih]
    split_ifs <;> rfl

theorem Counted.valueSeen_ne_nil (counted : s.Counted) : s.valueSeen ≠ [] := by
  intro none
  have lengths := counted.flags
  rw [none] at lengths
  cases lengths

theorem markValue_inside (counted : s.Counted) :
    (s.inside before outer).markValue = s.markValue.inside before outer := by
  rcases seen : s.valueSeen with _ | ⟨first, _ | ⟨second, rest⟩⟩
  · exact absurd seen counted.valueSeen_ne_nil
  · simp [markValue, inside, seen]
  · simp [markValue, inside, seen]

theorem argCount_inside {first second : Bool} {flags : List Bool}
    (seen : s.valueSeen = first :: second :: flags) :
    (s.inside before outer).argCount = s.argCount := by
  simp [argCount, hadValue, inside, seen]

/-- A step inside other tokens is a step of the tokens within by themselves, or it closes a
parenthesis that was opened outside. -/
theorem takes_inside_cases (counted : s.Counted) (noCalls : ∀ w ∈ outer, w.kind ≠ .function)
    (stays : t.kind = .operator → ∀ w ∈ outer.head?, goesFirst t w = false)
    (takes : Takes (s.inside before outer) t u) :
    (∃ own, Takes s t own ∧ u = own.inside before outer) ∨
      (∃ w ∈ outer, w.kind = .leftBrace) ∧ t.kind = .rightBrace ∧
        ∀ w ∈ s.waiting, w.kind ≠ .leftBrace := by
  cases takes with
  | value isValue =>
    rw [markValue_inside counted]
    exact Or.inl ⟨_, .value isValue, rfl⟩
  | function isFunction =>
    rw [markValue_inside counted]
    refine Or.inl ⟨_, .function isFunction, ?_⟩
    have notEmpty : s.markValue.valueSeen ≠ [] := by
      rw [← List.length_pos_iff, length_markValue, List.length_pos_iff]
      exact counted.valueSeen_ne_nil
    simp [inside, List.dropLast_cons_of_ne_nil notEmpty]
  | operator isOperator =>
    refine Or.inl ⟨_, .operator isOperator, ?_⟩
    simp [inside, operator, takeWhile_append_of_head? (stays isOperator),
      dropWhile_append_of_head? (stays isOperator)]
  | leftBrace isLeftBrace => exact Or.inl ⟨_, .leftBrace isLeftBrace, rfl⟩
  | separator isSeparator front brace f below count counts waits passes isBrace isCall isCounted =>
    obtain ⟨own, rfl, ownWaits⟩ := exists_of_waiting_call noCalls waits passes isCall
    obtain ⟨first, second, flags, seen⟩ := counted.exists_of_call ownWaits isCall
    rw [argCount_inside seen]
    refine Or.inl ⟨_, .separator isSeparator front brace f own count counts ownWaits passes isBrace
      isCall isCounted, ?_⟩
    simp [inside, seen]
  | group isRightBrace front brace below waits passes isBrace noCall =>
    rcases waiting_cases waits passes with ⟨own, rfl, ownWaits⟩ | ⟨none, above, rfl⟩
    · have ownNoCall : ∀ w ∈ own.head?, w.kind ≠ .function := by
        cases own with
        | nil => simp
        | cons w own => exact noCall
      refine Or.inl ⟨_, .group isRightBrace front brace own ownWaits passes isBrace ownNoCall, ?_⟩
      simp [inside]
    · exact Or.inr ⟨⟨brace, by simp, isBrace⟩, isRightBrace, none⟩
  | call isRightBrace front brace f below waits passes isBrace isCall =>
    obtain ⟨own, rfl, ownWaits⟩ := exists_of_waiting_call noCalls waits passes isCall
    obtain ⟨first, second, flags, seen⟩ := counted.exists_of_call ownWaits isCall
    rw [argCount_inside seen]
    refine Or.inl ⟨_, .call isRightBrace front brace f own ownWaits passes isBrace isCall, ?_⟩
    simp [inside, seen]

theorem run_cons_of_takes {middle : Reordering} (takes : Takes s t middle) (tokens : List Token) :
    s.run (t :: tokens) = middle.run tokens := by
  rw [run, List.foldlM_cons, step_of_takes takes]
  rfl

/-- A run inside other tokens is a run of the tokens within by themselves, unless these close a
parenthesis that was opened outside. -/
theorem run_inside_cases {tokens : List Token} (counted : s.Counted)
    (noCalls : ∀ w ∈ outer, w.kind ≠ .function)
    (stay : ∀ t ∈ tokens, t.kind = .operator → ∀ w ∈ outer.head?, goesFirst t w = false)
    (ran : (s.inside before outer).run tokens = .ok u) :
    (∃ own, s.run tokens = .ok own ∧ own.Counted ∧ u = own.inside before outer) ∨
      (∃ w ∈ outer, w.kind = .leftBrace) ∧ s.run tokens = .error .unmatchedRightBrace := by
  induction tokens generalizing s with
  | nil =>
    obtain rfl := Except.ok.inj ran
    exact Or.inl ⟨s, rfl, counted, rfl⟩
  | cons t rest ih =>
    rw [List.forall_mem_cons] at stay
    obtain ⟨middle, takes, ran⟩ := takes_of_run_cons ran
    rcases takes_inside_cases counted noCalls stay.1 takes with
      ⟨own, ownTakes, rfl⟩ | ⟨isOpen, isRightBrace, none⟩
    · rw [run_cons_of_takes ownTakes]
      exact ih (counted.takes ownTakes) stay.2 ran
    · refine Or.inr ⟨isOpen, ?_⟩
      rw [run, List.foldlM_cons, step_of_unmatched isRightBrace none]
      rfl

end Inside

/-! ### Behind an equals sign -/

/-- A state behind a name and an equals sign, seen from the tokens behind them: the name was let
through first, the equals sign waits below all else, and the expression as a whole has a value. -/
def behindAssign (name : Token) (s : Reordering) : Reordering where
  emitted := s.emitted ++ [name]
  waiting := s.waiting ++ [.ofOperator .assign]
  valueSeen := s.valueSeen.dropLast ++ [true]
  argCounts := s.argCounts

/-- The equals sign lets every operator that binds more tightly go first. -/
theorem goesFirst_assign (binds : 0 < t.priority) : goesFirst t (.ofOperator .assign) = false := by
  have notFirst : t.priority ≠ 0 := by omega
  simp [goesFirst, Token.ofOperator, Operator.priority, notFirst]

/-- A run behind the equals sign is a run of the right side by itself. -/
theorem exists_of_run_behindAssign {tokens : List Token} (counted : s.Counted)
    (bind : ∀ t ∈ tokens, t.kind = .operator → 0 < t.priority)
    (ran : (s.behindAssign name).run tokens = .ok u) :
    ∃ own, s.run tokens = .ok own ∧ u = own.behindAssign name := by
  have noCalls : ∀ w ∈ [Token.ofOperator .assign], w.kind ≠ .function := by
    simp [Token.ofOperator]
  have stay : ∀ t ∈ tokens, t.kind = .operator →
      ∀ w ∈ [Token.ofOperator .assign].head?, goesFirst t w = false := by
    intro t isMem isOperator w isHead
    obtain rfl := Option.some.inj isHead
    exact goesFirst_assign (bind t isMem isOperator)
  rcases run_inside_cases counted noCalls stay ran with ⟨own, ownRan, -, rfl⟩ | ⟨isOpen, -⟩
  · exact ⟨own, ownRan, rfl⟩
  · simp [Token.ofOperator] at isOpen

/-- At the end the equals sign is let through last. Only the counters and what was let through
matter. -/
theorem drain_concat_assign (waiting : List Token) (emitted : u.emitted = s.emitted ++ [name])
    (counts : u.argCounts = s.argCounts) :
    u.drain (waiting ++ [.ofOperator .assign]) =
      (s.drain waiting).map fun out ↦ name :: (out ++ [.ofOperator .assign]) := by
  induction waiting generalizing s u with
  | nil =>
    have last : u.drain [.ofOperator .assign] =
        .ok (.ofOperator .assign :: u.emitted).reverse := rfl
    rw [List.nil_append, last, emitted, drain]
    simp [Except.map]
  | cons t waiting ih =>
    rw [List.cons_append, drain, drain]
    split
    · rfl
    · rfl
    · refine ih ?_ ?_
      · simp [finishCall, emitted, counts]
      · simp [finishCall, counts]
    · exact ih (by simp [emitted]) counts

theorem drain_behindAssign (name : Token) (s : Reordering) :
    (s.behindAssign name).drain (s.behindAssign name).waiting =
      (s.drain s.waiting).map fun out ↦ name :: (out ++ [.ofOperator .assign]) :=
  drain_concat_assign s.waiting rfl rfl

end Reordering

/-- The postfix order of an assignment to a name is the name, the postfix order of the right side,
and the equals sign. -/
theorem exists_of_toPostfix_assignment {name : Token} {tokens out : List Token}
    (isValue : name.kind.isValue = true)
    (bind : ∀ t ∈ tokens, t.kind = .operator → 0 < t.priority)
    (ordered : toPostfix (name :: .ofOperator .assign :: tokens) = .ok out) :
    ∃ own, toPostfix tokens = .ok own ∧ out = name :: (own ++ [.ofOperator .assign]) := by
  have started : Reordering.start.run (name :: .ofOperator .assign :: tokens) =
      (Reordering.start.behindAssign name).run tokens := by
    rw [Reordering.run_cons_of_takes (.value isValue), Reordering.run_cons_of_takes (.operator rfl)]
    rfl
  obtain ⟨s, ran, drained⟩ := exists_of_bind_eq_ok ordered
  rw [started] at ran
  obtain ⟨own, ownRan, rfl⟩ :=
    Reordering.exists_of_run_behindAssign Reordering.counted_start bind ran
  rw [Reordering.drain_behindAssign] at drained
  obtain ⟨ownOut, ownDrained, rfl⟩ := exists_of_map_eq_ok drained
  refine ⟨ownOut, ?_, rfl⟩
  rw [toPostfix, ownRan]
  exact ownDrained

end MatrixCalculator
