import MatrixCalculator.Proofs.CompileRuns
import MatrixCalculator.Proofs.KeptTokens

/-!
# The tokens that are evaluated

What is evaluated are operators, calls of functions that the registry knows, names, and values with
their payloads (`evaluable_of_postfixOf`); parentheses and separators do not get that far. There is
one equals sign among them at most, so that what stands before it and behind it assigns nothing
(`assignment_cases`).
-/

set_option autoImplicit false

namespace MatrixCalculator

namespace Token

variable {registry : Registry} {store : Store} {t : Token}

/-! ### What can be evaluated -/

/-- Whether a token is one that evaluation knows what to do with. -/
inductive Evaluable (registry : Registry) (t : Token) : Prop
  | operator (op : Operator) (isOperator : t.kind = .operator) (isOp : t.operator = some op)
  | call (d : Descriptor) (isFunction : t.kind = .function) (isKnown : d ∈ registry.functions)
    (calls : t.function = some d)
  | name (isMatrix : t.kind = .matrixRef) (isBare : t.payload = .null)
  | value (carries : t.kind.carries t.payload = true) (noMatrix : t.kind ≠ .matrixRef)

/-- The function that is called is one of the registry. -/
theorem Evaluable.mem_functions (evaluable : t.Evaluable registry)
    (isFunction : t.kind = .function) : ∀ d ∈ t.function, d ∈ registry.functions := by
  cases evaluable with
  | call d _ isKnown calls =>
    rw [calls]
    rintro _ ⟨⟩
    exact isKnown
  | operator op isOperator =>
    rw [isOperator] at isFunction
    cases isFunction
  | name isMatrix =>
    rw [isMatrix] at isFunction
    cases isFunction
  | value carries =>
    rw [isFunction] at carries
    cases carries

/-- Numbers of arguments do not matter. -/
theorem evaluable_uncounted_iff : t.uncounted.Evaluable registry ↔ t.Evaluable registry := by
  have counted (count : Nat) (evaluable : t.Evaluable registry) :
      ({ t with argCount := count } : Token).Evaluable registry := by
    cases evaluable with
    | operator op isOperator isOp => exact .operator op isOperator isOp
    | call d isFunction isKnown calls => exact .call d isFunction isKnown calls
    | name isMatrix isBare => exact .name isMatrix isBare
    | value carries noMatrix => exact .value carries noMatrix
  unfold uncounted
  split_ifs
  · refine ⟨fun evaluable ↦ ?_, counted 0⟩
    cases evaluable with
    | operator op isOperator isOp => exact .operator op isOperator isOp
    | call d isFunction isKnown calls => exact .call d isFunction isKnown calls
    | name isMatrix isBare => exact .name isMatrix isBare
    | value carries noMatrix => exact .value carries noMatrix
  · exact Iff.rfl

/-- What an atom is read as can be evaluated, unless it is a mark. -/
theorem ReadAs.evaluable {atom : List Char} (readAs : ReadAs registry atom t)
    (isKept : t.isKept = true) : t.Evaluable registry := by
  cases readAs with
  | operator op isOp => exact .operator op rfl rfl
  | name isName => exact .name rfl rfl
  | call d isKnown => exact .call d rfl isKnown rfl
  | leftBrace | rightBrace | separator => cases isKept
  | value t carries noMatrix => exact .value carries noMatrix

theorem evaluable_asSign (evaluable : t.isKept = true → t.Evaluable registry)
    (isKept : t.asSign.isKept = true) : t.asSign.Evaluable registry := by
  unfold asSign at isKept ⊢
  split at isKept
  · exact .operator _ rfl rfl
  · exact evaluable isKept

/-- What holds of whatever atoms are read as, with and without signs marked, and of the equals sign,
holds of all that a text is read as. -/
theorem forall_mem_readAll {P : Token → Prop}
    (ofEach : ∀ atom t, ofAtom registry store atom = .ok t → P t) (signed : ∀ t, P t → P t.asSign)
    (ofAssign : P (ofOperator .assign)) {text : List Char} {tokens : List Token}
    (read : readAll registry store text = .ok tokens) : ∀ t ∈ tokens, P t := by
  rw [readAll_eq] at read
  obtain ⟨⟨left, right?⟩, -, read⟩ := exists_of_bind_eq_ok read
  have ofSide {side : List Char} {tokens : List Token}
      (ofThis : ofAtoms registry store side = .ok tokens) : ∀ t ∈ markSigns true tokens, P t := by
    refine forall_mem_markSigns signed fun t isMem ↦ ?_
    obtain ⟨atom, -, ofAtom⟩ := exists_of_mem_mapM ofThis isMem
    exact ofEach atom t ofAtom
  cases right? with
  | none =>
    obtain ⟨leftTokens, ofLeft, rfl⟩ := exists_of_map_eq_ok read
    exact ofSide ofLeft
  | some right =>
    obtain ⟨leftTokens, ofLeft, read⟩ := exists_of_bind_eq_ok read
    obtain ⟨rightTokens, ofRight, read⟩ := exists_of_bind_eq_ok read
    obtain rfl := Except.ok.inj read
    exact List.forall_mem_append.mpr
      ⟨ofSide ofLeft, List.forall_mem_cons.mpr ⟨ofAssign, ofSide ofRight⟩⟩

theorem evaluable_of_mem_readAll {text : List Char} {tokens : List Token}
    (read : readAll registry store text = .ok tokens) :
    ∀ t ∈ tokens, t.isKept = true → t.Evaluable registry :=
  forall_mem_readAll (P := fun t ↦ t.isKept = true → t.Evaluable registry)
    (fun _ _ ofAtom ↦ (readAs_ofAtom ofAtom).evaluable) (fun _ ↦ evaluable_asSign)
    (fun _ ↦ .operator .assign rfl rfl) read

/-! ### How many equals signs there are -/

/-- Whether the token is an equals sign. -/
def assigns (t : Token) : Bool :=
  t.isOperator .assign

theorem assigns_eq_false_of_lexical {names : String → Prop} (lexical : t.Lexical names) :
    t.assigns = false := by
  cases lexical with
  | operator op noAssignment => simpa [assigns, isOperator, ofOperator] using noAssignment
  | value t isValue noName =>
    have noOperator := kind_ne_operator_of_isValue isValue
    simp [assigns, isOperator, noOperator]
  | name | call | leftBrace | rightBrace | separator => rfl

theorem assigns_uncounted (t : Token) : t.uncounted.assigns = t.assigns := by
  unfold uncounted
  split_ifs <;> rfl

theorem countP_assigns_readAll {text : List Char} {tokens : List Token}
    (read : readAll registry store text = .ok tokens) : tokens.countP assigns ≤ 1 := by
  rw [readAll_eq] at read
  obtain ⟨⟨left, right?⟩, areSides, read⟩ := exists_of_bind_eq_ok read
  have noEquals := not_mem_of_sides areSides
  have noneIn {side : List Char} (none : '=' ∉ side) {tokens : List Token}
      (ofThis : ofAtoms registry store side = .ok tokens) :
      (markSigns true tokens).countP assigns = 0 := by
    rw [List.countP_eq_zero]
    intro t isMem
    have lexical := lexical_of_mem_markSigns (lexical_of_mem_ofAtoms none ofThis) t isMem
    rw [assigns_eq_false_of_lexical lexical]
    exact Bool.false_ne_true
  cases right? with
  | none =>
    obtain ⟨leftTokens, ofLeft, rfl⟩ := exists_of_map_eq_ok read
    rw [noneIn noEquals.1 ofLeft]
    exact Nat.zero_le 1
  | some right =>
    obtain ⟨leftTokens, ofLeft, read⟩ := exists_of_bind_eq_ok read
    obtain ⟨rightTokens, ofRight, read⟩ := exists_of_bind_eq_ok read
    obtain rfl := Except.ok.inj read
    rw [List.countP_append, List.countP_cons, noneIn noEquals.1 ofLeft,
      noneIn (noEquals.2 right rfl) ofRight]
    split_ifs <;> decide

end Token

/-! ### Postfix order -/

variable {registry : Registry} {store : Store} {text : List Char} {tokens out : List Token}

/-- Up to the numbers of arguments, the tokens in postfix order are those that were read and have a
place there. -/
theorem perm_of_toPostfix (ordered : toPostfix tokens = .ok out) :
    (out.map Token.uncounted).Perm ((tokens.filter Token.isKept).map Token.uncounted) :=
  Multiset.coe_eq_coe.mp (bag_of_toPostfix ordered)

theorem evaluable_of_postfixOf (ordered : postfixOf registry store text = .ok out) :
    ∀ t ∈ out, t.Evaluable registry := by
  obtain ⟨tokens, read, isPostfix⟩ := exists_of_postfixOf ordered
  intro t isMem
  obtain ⟨u, isRead, same⟩ := List.mem_map.mp
    ((perm_of_toPostfix isPostfix).subset (List.mem_map_of_mem isMem))
  obtain ⟨inTokens, isKept⟩ := List.mem_filter.mp isRead
  rw [← Token.evaluable_uncounted_iff, ← same, Token.evaluable_uncounted_iff]
  exact Token.evaluable_of_mem_readAll read u inTokens isKept

theorem countP_assigns_postfixOf (ordered : postfixOf registry store text = .ok out) :
    out.countP Token.assigns ≤ 1 := by
  obtain ⟨tokens, read, isPostfix⟩ := exists_of_postfixOf ordered
  have uncounted (tokens : List Token) :
      (tokens.map Token.uncounted).countP Token.assigns = tokens.countP Token.assigns := by
    rw [List.countP_map]
    exact List.countP_congr fun t _ ↦ by rw [Function.comp_apply, Token.assigns_uncounted]
  calc out.countP Token.assigns
      = (tokens.filter Token.isKept).countP Token.assigns := by
        rw [← uncounted, (perm_of_toPostfix isPostfix).countP_eq, uncounted]
    _ ≤ tokens.countP Token.assigns := List.filter_sublist.countP_le
    _ ≤ 1 := Token.countP_assigns_readAll read

/-- Tokens with one equals sign at most have none, or one that parts the tokens without any. -/
theorem assignment_cases (single : out.countP Token.assigns ≤ 1) :
    (∀ t ∈ out, t.assigns = false) ∨
      ∃ front sign back, out = front ++ sign :: back ∧ sign.assigns = true ∧
        (∀ t ∈ front, t.assigns = false) ∧ ∀ t ∈ back, t.assigns = false := by
  have noneOf {tokens : List Token} (none : tokens.countP Token.assigns = 0) :
      ∀ t ∈ tokens, t.assigns = false := by
    simpa using List.countP_eq_zero.mp none
  by_cases none : ∀ t ∈ out, t.assigns = false
  · exact Or.inl none
  · obtain ⟨sign, isMem, isSign⟩ : ∃ sign ∈ out, sign.assigns = true := by simpa using none
    obtain ⟨front, back, rfl⟩ := List.append_of_mem isMem
    rw [List.countP_append, List.countP_cons_of_pos isSign] at single
    exact Or.inr ⟨front, sign, back, rfl, isSign, noneOf (by omega), noneOf (by omega)⟩

end MatrixCalculator
