import MatrixCalculator.Proofs.PostfixOrder
import MatrixCalculator.Proofs.SpelledTokens

/-!
# Expressions written out

An expression that is written with one space between its atoms is read as its tokens
(`readAll_written`). Reading finds out which plus and minus characters are signs from where they
stand (`Expression.isMarked`): the sign of an operand stands where an operand is due, and a sum or a
difference stands behind its left operand. The equals sign of an assignment is set apart by spaces
and so belongs to no compound assignment, and the text is taken apart there and read on both sides.
-/

set_option autoImplicit false

namespace MatrixCalculator

open Text Token

/-! ### Signs -/

theorem unsigned_ofOperator (op : Operator) : (ofOperator op).unsigned = ofOperator op.unsigned :=
  rfl

theorem unsigned_of_arity {op : Operator} (isBinary : op.arity = 2) : op.unsigned = op := by
  cases op <;> first | rfl | cases isBinary

/-- Where an operand is due, a sum or a difference becomes the sign that is written like it. -/
theorem asSign_unsigned {op : Operator} (isSign : op.arity = 1) :
    (ofOperator op.unsigned).asSign = ofOperator op := by
  cases op <;> first | rfl | cases isSign

theorem kind_ne_operator_of_isFunction {t : Token} (isFunction : t.kind = .function) :
    t.kind ≠ .operator := by
  rw [isFunction]
  exact TokenKind.noConfusion

namespace Expression

/-- Whether signs are told from sums and differences in the tokens of an expression, wherever an
operand is due. -/
def IsMarked (e : Expression) : Prop :=
  ∀ rest, markSigns true (e.infixTokens.map Token.unsigned ++ rest) =
    e.infixTokens ++ markSigns false rest

theorem markSigns_leftBrace (due : Bool) (rest : List Token) :
    markSigns due (leftBrace :: rest) = leftBrace :: markSigns true rest :=
  markSigns_cons_of_kind TokenKind.noConfusion due rest

theorem markSigns_rightBrace (due : Bool) (rest : List Token) :
    markSigns due (rightBrace :: rest) = rightBrace :: markSigns false rest :=
  markSigns_cons_of_kind TokenKind.noConfusion due rest

theorem markSigns_separator (due : Bool) (rest : List Token) :
    markSigns due (separator :: rest) = separator :: markSigns true rest :=
  markSigns_cons_of_kind TokenKind.noConfusion due rest

theorem IsMarked.group {inner : Expression} (isMarked : IsMarked inner) :
    IsMarked (group inner) := by
  intro rest
  have marked := isMarked (rightBrace :: rest)
  rw [markSigns_rightBrace] at marked
  have opened : leftBrace.unsigned = leftBrace := rfl
  have closed : rightBrace.unsigned = rightBrace := rfl
  rw [infixTokens, parenthesized, List.map_append, List.map_cons, List.map_singleton, opened,
    closed, List.append_assoc, List.cons_append, List.singleton_append, markSigns_leftBrace, marked]
  simp

theorem IsMarked.operandOf {operand : Expression} (isMarked : IsMarked operand) (parent : Operator)
    (side : Associativity) : IsMarked (operandOf parent side operand) :=
  operandOf_of_forall parent side operand isMarked.group isMarked

theorem intercalate_infixLists (e next : Expression) (args : List Expression) :
    [separator].intercalate (infixLists (e :: next :: args)) =
      e.infixTokens ++ separator :: [separator].intercalate (infixLists (next :: args)) := by
  simp [infixLists]

/-- Signs in the arguments of a call, up to its closing parenthesis. -/
theorem markSigns_arguments {args : List Expression} (areMarked : ∀ e ∈ args, IsMarked e)
    (rest : List Token) :
    markSigns true
        (([separator].intercalate (infixLists args)).map Token.unsigned ++ rightBrace :: rest) =
      [separator].intercalate (infixLists args) ++ rightBrace :: markSigns false rest := by
  induction args with
  | nil => exact markSigns_rightBrace true rest
  | cons e args ih =>
    rw [List.forall_mem_cons] at areMarked
    cases args with
    | nil =>
      rw [infixLists, infixLists, List.intercalate_singleton, areMarked.1, markSigns_rightBrace]
    | cons next args =>
      have separated : separator.unsigned = separator := rfl
      rw [intercalate_infixLists, List.map_append, List.map_cons, separated, List.append_assoc,
        List.cons_append, areMarked.1, markSigns_separator, ih areMarked.2]
      simp

theorem isMarked (e : Expression) : IsMarked e := by
  induction e with
  | value t isValue =>
    intro rest
    have kept := unsigned_of_kind (kind_ne_operator_of_isValue isValue)
    rw [infixTokens, List.map_singleton, kept, List.singleton_append,
      markSigns_cons_of_kind (kind_ne_operator_of_isValue isValue),
      opensOperand_of_isValue isValue, List.singleton_append]
  | sign op isSign operand ih =>
    intro rest
    have marked := ih.operandOf op .right rest
    rw [infixTokens, ← infixTokens_operandOf, List.map_cons, List.cons_append, markSigns,
      unsigned_ofOperator, if_pos rfl, asSign_unsigned isSign]
    exact congrArg _ marked
  | binary op isBinary left right ihLeft ihRight =>
    intro rest
    have marked := ihRight.operandOf op .right rest
    rw [infixTokens, ← infixTokens_operandOf, ← infixTokens_operandOf, List.map_append,
      List.append_assoc, ihLeft.operandOf op .left, List.map_cons, List.cons_append, markSigns,
      unsigned_ofOperator, unsigned_of_arity isBinary, List.append_assoc, List.cons_append]
    exact congrArg (fun behind ↦ _ ++ ofOperator op :: behind) marked
  | group inner ih => exact ih.group
  | call f isFunction args ih =>
    intro rest
    have noOperator := kind_ne_operator_of_isFunction isFunction
    have kept := unsigned_of_kind noOperator
    have opened : leftBrace.unsigned = leftBrace := rfl
    have closed : rightBrace.unsigned = rightBrace := rfl
    rw [infixTokens, parenthesized, List.map_cons, List.map_append, List.map_cons,
      List.map_singleton, kept, opened, closed, List.cons_append, List.append_assoc,
      List.cons_append, List.singleton_append, markSigns_cons_of_kind noOperator,
      markSigns_leftBrace, markSigns_arguments ih]
    simp

/-! ### Assignments -/

mutual

/-- The number of assignments in an expression. -/
def assignments : Expression → Nat
  | value _ _ => 0
  | sign _ _ operand => operand.assignments
  | binary op _ left right =>
    left.assignments + (if op = .assign then 1 else 0) + right.assignments
  | group inner => inner.assignments
  | call _ _ args => assignmentsIn args

/-- The number of assignments in several expressions. -/
def assignmentsIn : List Expression → Nat
  | [] => 0
  | e :: rest => e.assignments + assignmentsIn rest

end

/-- The number of assignments among tokens. -/
def countAssignments (tokens : List Token) : Nat :=
  tokens.countP fun t ↦ t.isOperator .assign

theorem countAssignments_append (front behind : List Token) :
    countAssignments (front ++ behind) = countAssignments front + countAssignments behind :=
  List.countP_append

theorem countAssignments_cons (t : Token) (rest : List Token) :
    countAssignments (t :: rest) =
      (if t.isOperator .assign then 1 else 0) + countAssignments rest := by
  rw [countAssignments, List.countP_cons, Nat.add_comm, countAssignments]

theorem isOperator_of_kind {t : Token} (noOperator : t.kind ≠ .operator) (op : Operator) :
    t.isOperator op = false := by
  simp [isOperator, noOperator]

theorem isOperator_of_isSign {op : Operator} (isSign : op.arity = 1) :
    (ofOperator op).isOperator .assign = false := by
  cases op <;> first | rfl | cases isSign

theorem countAssignments_parenthesized (tokens : List Token) :
    countAssignments (parenthesized tokens) = countAssignments tokens := by
  have opened : leftBrace.isOperator .assign = false := rfl
  have closed : rightBrace.isOperator .assign = false := rfl
  simp [parenthesized, countAssignments, opened, closed]

theorem countAssignments_operandTokens (grouped : Bool) (tokens : List Token) :
    countAssignments (operandTokens grouped tokens) = countAssignments tokens := by
  unfold operandTokens
  split_ifs
  · exact countAssignments_parenthesized tokens
  · rfl

/-- Nothing is assigned between the arguments of a call. -/
theorem countAssignments_arguments {args : List Expression}
    (counted : ∀ e ∈ args, countAssignments e.infixTokens = e.assignments) :
    countAssignments ([separator].intercalate (infixLists args)) = assignmentsIn args := by
  induction args with
  | nil => rfl
  | cons e args ih =>
    rw [List.forall_mem_cons] at counted
    cases args with
    | nil => simp [infixLists, assignmentsIn, counted.1]
    | cons next args =>
      have noAssignment : separator.isOperator .assign = false := rfl
      rw [intercalate_infixLists, countAssignments_append, countAssignments_cons, counted.1,
        ih counted.2, noAssignment]
      simp [assignmentsIn]

/-- The tokens of an expression have as many assignments as the expression. -/
theorem countAssignments_infixTokens (e : Expression) :
    countAssignments e.infixTokens = e.assignments := by
  induction e with
  | value t isValue =>
    have noAssignment := isOperator_of_kind (kind_ne_operator_of_isValue isValue) .assign
    simp [infixTokens, assignments, countAssignments, noAssignment]
  | sign op isSign operand ih =>
    have noAssignment := isOperator_of_isSign isSign
    rw [infixTokens, countAssignments_cons, countAssignments_operandTokens, ih, noAssignment,
      assignments]
    simp
  | binary op isBinary left right ihLeft ihRight =>
    have isAssignment : (ofOperator op).isOperator .assign = decide (op = .assign) := by
      cases op <;> rfl
    rw [infixTokens, countAssignments_append, countAssignments_cons,
      countAssignments_operandTokens, countAssignments_operandTokens, ihLeft, ihRight,
      isAssignment, assignments]
    simp [Nat.add_assoc]
  | group inner ih => rw [infixTokens, countAssignments_parenthesized, ih, assignments]
  | call f isFunction args ih =>
    have noOperator := kind_ne_operator_of_isFunction isFunction
    rw [infixTokens, countAssignments_cons, countAssignments_parenthesized,
      isOperator_of_kind noOperator, assignments]
    simpa using countAssignments_arguments ih

/-- Whether tokens have an assignment neither at their start nor at their end. -/
def AssignsInside (tokens : List Token) : Prop :=
  (∃ t ∈ tokens.head?, t.isOperator .assign = false) ∧
    ∃ t ∈ tokens.getLast?, t.isOperator .assign = false

theorem assignsInside_parenthesized (tokens : List Token) :
    AssignsInside (parenthesized tokens) := by
  refine ⟨⟨leftBrace, rfl, rfl⟩, rightBrace, ?_, rfl⟩
  rw [parenthesized, List.getLast?_concat]
  rfl

theorem assignsInside_operandTokens {tokens : List Token} (inside : AssignsInside tokens)
    (grouped : Bool) : AssignsInside (operandTokens grouped tokens) := by
  unfold operandTokens
  split_ifs
  · exact assignsInside_parenthesized tokens
  · exact inside

/-- An assignment stands between its operands. -/
theorem assignsInside_infixTokens (e : Expression) : AssignsInside e.infixTokens := by
  induction e with
  | value t isValue =>
    have noAssignment := isOperator_of_kind (kind_ne_operator_of_isValue isValue) .assign
    exact ⟨⟨t, rfl, noAssignment⟩, t, rfl, noAssignment⟩
  | sign op isSign operand ih =>
    have noAssignment := isOperator_of_isSign isSign
    obtain ⟨-, last, isLast, ofLast⟩ :=
      assignsInside_operandTokens ih (needsGroup op .right operand)
    rw [infixTokens]
    refine ⟨⟨ofOperator op, rfl, noAssignment⟩, last, ?_, ofLast⟩
    rw [List.getLast?_cons, Option.mem_def.mp isLast]
    rfl
  | binary op isBinary left right ihLeft ihRight =>
    obtain ⟨⟨first, isFirst, ofFirst⟩, -⟩ :=
      assignsInside_operandTokens ihLeft (needsGroup op .left left)
    obtain ⟨-, last, isLast, ofLast⟩ :=
      assignsInside_operandTokens ihRight (needsGroup op .right right)
    rw [infixTokens]
    refine ⟨⟨first, ?_, ofFirst⟩, last, ?_, ofLast⟩
    · rw [List.head?_append, Option.mem_def.mp isFirst]
      rfl
    · rw [List.getLast?_append, List.getLast?_cons, Option.mem_def.mp isLast]
      rfl
  | group inner ih =>
    rw [infixTokens]
    exact assignsInside_parenthesized _
  | call f isFunction args ih =>
    have noOperator := kind_ne_operator_of_isFunction isFunction
    obtain ⟨-, last, isLast, ofLast⟩ :=
      assignsInside_parenthesized ([separator].intercalate (infixLists args))
    rw [infixTokens]
    refine ⟨⟨f, rfl, isOperator_of_kind noOperator _⟩, last, ?_, ofLast⟩
    rw [List.getLast?_cons, Option.mem_def.mp isLast]
    rfl

/-- Tokens with a single assignment inside fall apart into those before and those behind it. -/
theorem exists_of_assignsInside {tokens : List Token} (inside : AssignsInside tokens)
    (single : countAssignments tokens = 1) :
    ∃ front t behind, tokens = front ++ t :: behind ∧ t.isOperator .assign = true ∧
      front ≠ [] ∧ behind ≠ [] ∧ countAssignments front = 0 ∧ countAssignments behind = 0 := by
  obtain ⟨t, isMem, isAssignment⟩ : ∃ t ∈ tokens, t.isOperator .assign = true :=
    List.countP_pos_iff.mp (by rw [countAssignments] at single; omega)
  obtain ⟨front, behind, rfl⟩ := List.append_of_mem isMem
  obtain ⟨⟨first, isFirst, ofFirst⟩, last, isLast, ofLast⟩ := inside
  rw [countAssignments_append, countAssignments_cons, if_pos isAssignment] at single
  refine ⟨front, t, behind, rfl, isAssignment, ?_, ?_, by omega, by omega⟩
  · rintro rfl
    obtain rfl : t = first := Option.some.inj isFirst
    rw [isAssignment] at ofFirst
    cases ofFirst
  · rintro rfl
    rw [List.getLast?_concat] at isLast
    obtain rfl : t = last := Option.some.inj isLast
    rw [isAssignment] at ofLast
    cases ofLast

end Expression

/-! ### Reading what is written -/

section Reading

variable {registry : Registry} {store : Store} {pieces : List (List Char)} {tokens : List Token}

theorem whole_of_spells (spelled : List.Forall₂ (Spells registry store) pieces tokens) :
    ∀ piece ∈ pieces, Whole piece := by
  induction spelled with
  | nil => simp
  | cons spells _ ih => exact List.forall_mem_cons.mpr ⟨spells.whole, ih⟩

theorem not_mem_of_spells (spelled : List.Forall₂ (Spells registry store) pieces tokens)
    (none : Expression.countAssignments tokens = 0) : '=' ∉ [' '].intercalate pieces := by
  refine not_mem_intercalate rfl ?_
  induction spelled with
  | nil => simp
  | @cons piece t _ _ spells _ ih =>
    rw [Expression.countAssignments_cons] at none
    refine List.forall_mem_cons.mpr ⟨spells.not_mem_of_isOperator ?_, ih (by omega)⟩
    by_contra isAssignment
    rw [Bool.not_eq_false] at isAssignment
    rw [if_pos isAssignment] at none
    omega

/-- Atoms with a space between them are read one by one. -/
theorem ofAtoms_of_spells (spelled : List.Forall₂ (Spells registry store) pieces tokens) :
    ofAtoms registry store ([' '].intercalate pieces) = .ok (tokens.map Token.unsigned) := by
  rw [ofAtoms, atoms_intercalate (whole_of_spells spelled), mapM_eq_ok_iff,
    List.forall₂_map_right_iff]
  exact spelled.imp fun _ _ ↦ Spells.ofAtom_eq

theorem squeeze_of_spells (spelled : List.Forall₂ (Spells registry store) pieces tokens) :
    squeeze ([' '].intercalate pieces) = [' '].intercalate pieces :=
  squeeze_eq_self (tidy_intercalate (whole_of_spells spelled))

/-- Only the assignment is written as an equals sign. -/
theorem Spells.eq_of_isOperator {piece : List Char} {t : Token}
    (spells : Spells registry store piece t) (isAssignment : t.isOperator .assign = true) :
    piece = ['='] ∧ t = ofOperator .assign := by
  cases spells with
  | operator op => cases op <;> first | exact ⟨by decide, rfl⟩ | cases isAssignment
  | constant key isName special noFunction found =>
    unfold Constant.token at isAssignment
    split at isAssignment <;> cases isAssignment
  | name | number | text | call | query | overview | leftBrace | rightBrace | separator =>
    cases isAssignment

/-- An assignment is written as what is before it, an equals sign, and what is behind it. -/
theorem exists_of_spells_assignment {front behind : List Token} {t : Token}
    (spelled : List.Forall₂ (Spells registry store) pieces (front ++ t :: behind))
    (isAssignment : t.isOperator .assign = true) :
    t = ofOperator .assign ∧ ∃ ahead back, pieces = ahead ++ ['='] :: back ∧
      List.Forall₂ (Spells registry store) ahead front ∧
      List.Forall₂ (Spells registry store) back behind := by
  have ofFront := List.forall₂_take_append pieces front (t :: behind) spelled
  have ofRest := List.forall₂_drop_append pieces front (t :: behind) spelled
  obtain ⟨piece, back, spells, ofBack, dropped⟩ := List.forall₂_cons_right_iff.mp ofRest
  obtain ⟨rfl, same⟩ := spells.eq_of_isOperator isAssignment
  have written := List.take_append_drop front.length pieces
  rw [dropped] at written
  exact ⟨same, _, back, written.symm, ofFront, ofBack⟩

/-- Spaces stand around the equals sign too. -/
theorem intercalate_assignment {ahead back : List (List Char)} (aheadSome : ahead ≠ [])
    (backSome : back ≠ []) :
    [' '].intercalate (ahead ++ ['='] :: back) =
      [' '].intercalate ahead ++ ' ' :: '=' :: ' ' :: [' '].intercalate back := by
  rw [intercalate_append aheadSome (List.cons_ne_nil _ _), List.intercalate_cons_of_ne_nil backSome]
  rfl

end Reading

/-- The text of an assignment falls apart at its equals sign, which belongs to no compound
assignment. -/
theorem parted_of_spaces {left right : List Char} (leftTidy : Tidy left) (leftSome : left ≠ [])
    (rightTidy : Tidy right) (rightSome : right ≠ []) (noneLeft : '=' ∉ left)
    (noneRight : '=' ∉ right) :
    ∃ before behind,
      Assignment.split (left ++ ' ' :: '=' :: ' ' :: right) = .ok (some (before, behind)) ∧
      Assignment.compound? (left ++ ' ' :: '=' :: ' ' :: right) = none ∧
      squeeze before = left ∧ squeeze behind = right := by
  have noneBefore : '=' ∉ left ++ [' '] := by simp [noneLeft]
  have noneBehind : '=' ∉ ' ' :: right := by simp [noneRight]
  have squeezedLeft : squeeze (left ++ [' ']) = left := by
    have none : words [] = [] := rfl
    rw [squeeze, words_append_cons rfl left [], none, List.append_nil, ← squeeze,
      squeeze_eq_self leftTidy]
  have squeezedRight : squeeze (' ' :: right) = right := by
    rw [squeeze_cons_of_isBlank rfl, squeeze_eq_self rightTidy]
  have trimmedLeft : trim (left ++ [' ']) ≠ [] := by
    rwa [ne_eq, ← squeeze_eq_nil_iff, squeezedLeft]
  have trimmedRight : trim (' ' :: right) ≠ [] := by
    rwa [ne_eq, ← squeeze_eq_nil_iff, squeezedRight]
  have parted := Assignment.split_append_cons noneBefore noneBehind
  rw [if_neg (not_or.mpr ⟨trimmedLeft, trimmedRight⟩)] at parted
  rw [List.append_cons]
  refine ⟨_, _, parted, ?_, by rw [squeeze_trim, squeezedLeft],
    by rw [squeeze_trim, squeezedRight]⟩
  rcases compound : Assignment.compound? (left ++ [' '] ++ '=' :: ' ' :: right) with
    _ | ⟨name, op, rest⟩
  · rfl
  · obtain ⟨lead, gap, ends, -, -, -, -, isOp⟩ := Assignment.before_of_compound? noneBefore compound
    obtain ⟨-, same⟩ := List.append_inj' ends rfl
    rw [← List.singleton_inj.mp same] at isOp
    cases isOp

/-- Writing an expression with at most one assignment and reading the text gives the tokens of the
expression, signs where the tree has signs. -/
theorem readAll_written (registry : Registry) (store : Store) (e : Expression)
    (pieces : List (List Char))
    (spelled : List.Forall₂ (Spells registry store) pieces e.infixTokens)
    (single : e.assignments ≤ 1) :
    readAll registry store ([' '].intercalate pieces) = .ok e.infixTokens := by
  have marked : markSigns true (e.infixTokens.map Token.unsigned) = e.infixTokens := by
    simpa [markSigns] using e.isMarked []
  rcases counted : e.assignments with _ | _ | more
  · rw [← e.countAssignments_infixTokens] at counted
    rw [readAll_of_not_mem _ _ (not_mem_of_spells spelled counted), squeeze_of_spells spelled,
      ofAtoms_of_spells spelled]
    exact congrArg Except.ok marked
  · rw [← e.countAssignments_infixTokens] at counted
    obtain ⟨front, t, behind, parts, isAssignment, frontSome, behindSome, noneFront, noneBehind⟩ :=
      Expression.exists_of_assignsInside e.assignsInside_infixTokens counted
    obtain ⟨rfl, ahead, back, rfl, ofFront, ofBack⟩ :=
      exists_of_spells_assignment (parts ▸ spelled) isAssignment
    have aheadSome : ahead ≠ [] := by rintro rfl; cases ofFront; exact frontSome rfl
    have backSome : back ≠ [] := by rintro rfl; cases ofBack; exact behindSome rfl
    obtain ⟨left, right, parted, simple, squeezedLeft, squeezedRight⟩ :=
      parted_of_spaces (tidy_intercalate (whole_of_spells ofFront))
        (intercalate_ne_nil (whole_of_spells ofFront) aheadSome)
        (tidy_intercalate (whole_of_spells ofBack))
        (intercalate_ne_nil (whole_of_spells ofBack) backSome)
        (not_mem_of_spells ofFront noneFront) (not_mem_of_spells ofBack noneBehind)
    rw [← intercalate_assignment aheadSome backSome] at parted simple
    rw [← squeeze_of_spells spelled] at simple
    rw [readAll_of_split _ _ parted simple, squeezedLeft, squeezedRight, ofAtoms_of_spells ofFront,
      ofAtoms_of_spells ofBack, ok_bind, ok_bind, ← markSigns_append_assign]
    rw [parts, List.map_append, List.map_cons] at marked
    rw [parts]
    exact congrArg Except.ok marked
  · omega

/-- An assignment with a difference, signs, a call, a number and a text. -/
theorem readAll_assigned_difference :
    let sum : Descriptor := ⟨"Sum", ["Add"], [], .float, "service", ""⟩
    let registry : Registry := ⟨[sum], List.pairwise_singleton _ _, []⟩
    let number : Literal := ⟨['2'], ['5'], none, List.forall_mem_singleton.mpr rfl,
      List.forall_mem_singleton.mpr rfl, Or.inl (List.cons_ne_nil _ _)⟩
    let negated : Expression := .sign .negate rfl (.value (.number number.value) rfl)
    let call : Expression := .call (.call sum) rfl [negated, .value (.text "x y") rfl]
    let difference : Expression :=
      .binary .subtract rfl (.sign .negate rfl (.value (.matrixRef "B") rfl)) call
    let e : Expression := .binary .assign rfl (.value (.matrixRef "A") rfl) difference
    e.assignments = 1 ∧
      readAll registry (.empty {}) "A = - B - !Add ( - 2.5 , \"x y\" )".toList =
        .ok e.infixTokens := by
  intro sum registry number negated call difference e
  have x : Tidy ['x'] := .of_isWord (isWord_of_any (by simp) rfl)
  have y : Tidy ['y'] := .of_isWord (isWord_of_any (by simp) rfl)
  have quote : Tidy ['x', ' ', 'y'] := x.append_cons (by decide) y (by decide)
  have single : e.assignments = 1 := by decide
  have spelled : List.Forall₂ (Spells registry (.empty {}))
      [['A'], ['='], ['-'], ['B'], ['-'], "!Add".toList, ['('], ['-'], number.chars, [','],
        "\"x y\"".toList, [')']] e.infixTokens :=
    .cons (.name ['A'] rfl) <| .cons (.operator .assign) <| .cons (.operator .negate) <|
    .cons (.name ['B'] rfl) <| .cons (.operator .subtract) <|
    .cons (.call ['A', 'd', 'd'] rfl sum rfl) <| .cons .leftBrace <|
    .cons (.operator .negate) <| .cons (.number number) <| .cons .separator <|
    .cons (.text ['x', ' ', 'y'] quote (by decide) (by decide)) <| .cons .rightBrace .nil
  exact ⟨single, readAll_written registry (.empty {}) e _ spelled single.le⟩

end MatrixCalculator
