import MatrixCalculator.Proofs.AssignedNames

/-!
# Reading a compound assignment

`NAME op= EXPR` is read as the name, the equals sign, the name again, the operator, and between
parentheses the tokens that the expression has by itself (`readAll_compound`). The text is put
together before its atoms are looked for, so an expression with a quote that it does not close would
take the last parenthesis into the quote. Such a text cannot be read at all
(`quotesClosed_of_ofAtoms`).
-/

set_option autoImplicit false

namespace MatrixCalculator

open Text

variable {registry : Registry} {store : Store} {name e : List Char} {op : Char}

/-! ### The text -/

namespace Text

/-- The blanks that are left of a text are spaces. -/
theorem eq_space_of_mem_collapse {c : Char} {text : List Char} (isMem : c ∈ collapse text)
    (blank : isBlank c = true) : c = ' ' := by
  induction text with
  | nil => cases isMem
  | cons d rest ih =>
    rw [collapse] at isMem
    split_ifs at isMem with here
    · exact ih isMem
    · exact (List.mem_cons.mp isMem).elim id ih
    · rcases List.mem_cons.mp isMem with rfl | inRest
      · exact absurd blank here
      · exact ih inRest

end Text

namespace Assignment

/-- A name, an operator with an equals sign, and an expression. -/
def compound (name : List Char) (op : Char) (e : List Char) : List Char :=
  name ++ ' ' :: op :: '=' :: ' ' :: e

/-- A name starts with a character that is not blank. -/
theorem trimStart_name_append (isName : Name.isIdentifier name = true) (behind : List Char) :
    trimStart (name ++ behind) = name ++ behind := by
  obtain ⟨someName, visible⟩ := Name.isWord_of_isIdentifier isName
  obtain ⟨c, rest, rfl⟩ := List.exists_cons_of_ne_nil someName
  exact trimStart_cons_of_not_isBlank (visible c List.mem_cons_self) (rest ++ behind)

theorem compound?_append (isName : Name.isIdentifier name = true) (isOp : isCompound op = true)
    {rest : List Char} (oneLine : '\n' ∉ rest) :
    compound? (name ++ ' ' :: op :: '=' :: rest) = some (name, op, rest) := by
  have areRest : ∀ c ∈ name, Name.isRest c = true :=
    fun c isMem ↦ Name.isRest_of_isIdentifier isName isMem
  have taken : (name ++ ' ' :: op :: '=' :: rest).takeWhile Name.isRest = name := by
    rw [List.takeWhile_append_of_pos areRest, List.takeWhile_cons_of_neg (by decide),
      List.append_nil]
  have dropped : (name ++ ' ' :: op :: '=' :: rest).dropWhile Name.isRest =
      ' ' :: op :: '=' :: rest := by
    rw [List.dropWhile_append_of_pos areRest, List.dropWhile_cons_of_neg (by decide)]
  have noGap : trimStart (' ' :: op :: '=' :: rest) = op :: '=' :: rest := by
    rw [trimStart_cons_of_isBlank rfl, trimStart_cons_of_not_isBlank (isBlank_of_isCompound isOp)]
  simp [compound?, trimStart_name_append isName, taken, dropped, noGap, isName, isOp, oneLine]

theorem squeeze_compound (isName : Name.isIdentifier name = true) (isOp : isCompound op = true) :
    squeeze (compound name op e) =
      name ++ ' ' :: op :: '=' :: trimEnd (collapse (' ' :: e)) := by
  have visible := (Name.isWord_of_isIdentifier isName).2
  have collapsed : collapse (compound name op e) =
      (name ++ [' ', op]) ++ '=' :: collapse (' ' :: e) := by
    have gap : collapse (' ' :: op :: '=' :: ' ' :: e) =
        ' ' :: op :: '=' :: collapse (' ' :: e) := by
      have space : isBlank ' ' = true := rfl
      have equals : isBlank '=' = false := rfl
      rw [collapse, collapse, collapse]
      simp [isBlank_of_isCompound isOp, space, equals]
    rw [compound, collapse_append_of_forall visible, gap, List.append_assoc]
    rfl
  rw [squeeze_eq_trim_collapse, collapsed, trim_append_cons rfl, trimStart_name_append isName]
  simp

theorem trim_rightSide (isName : Name.isIdentifier name = true) (rest : List Char) :
    trim (' ' :: rightSide name op rest) = rightSide name op rest := by
  have started : trimStart (' ' :: (name ++ ' ' :: op :: ' ' :: '(' :: rest)) =
      name ++ ' ' :: op :: ' ' :: '(' :: rest := by
    rw [trimStart_cons_of_isBlank rfl, trimStart_name_append isName]
  rw [rightSide, ← List.cons_append, trim_append_cons rfl, started]
  rfl

end Assignment

/-! ### The sides -/

open Assignment

/-- With nothing behind its equals sign a compound assignment is malformed. -/
theorem Token.sides_compound (isName : Name.isIdentifier name = true) (isOp : isCompound op = true)
    (noEquals : '=' ∉ e) :
    Token.sides (compound name op e) =
      if squeeze e = [] then
        .error (.malformedAssignment (String.ofList (squeeze (compound name op e))))
      else .ok (name, some (rightSide name op (squeeze e))) := by
  have oneLine : '\n' ∉ trimEnd (collapse (' ' :: e)) := fun isMem ↦
    absurd (eq_space_of_mem_collapse ((List.rdropWhile_prefix isBlank _).subset isMem) rfl)
      (by decide)
  have behind : trim (trimEnd (collapse (' ' :: e))) = squeeze e := by
    rw [trim_trimEnd, ← squeeze_eq_trim_collapse, squeeze_cons_of_isBlank rfl]
  have noneRest := not_mem_squeeze (c := '=') rfl noEquals
  have nameSome := (Name.isWord_of_isIdentifier isName).1
  have sideSome : rightSide name op (squeeze e) ≠ [] := by simp [rightSide]
  rw [Token.sides, expand, squeeze_compound isName isOp, compound?_append isName isOp oneLine]
  simp only [behind, List.isEmpty_iff]
  split_ifs with blank
  · rfl
  · rw [ok_bind, split_written isName isOp noneRest, trim_name_space isName,
      trim_rightSide isName, if_neg (not_or.mpr ⟨nameSome, sideSome⟩)]
    rfl

/-! ### The tokens -/

theorem atoms_rightSide (isName : Name.isIdentifier name = true) (isOp : isCompound op = true)
    {rest : List Char} (closed : QuotesClosed rest) :
    atoms (rightSide name op rest) = name :: [op] :: ['('] :: (atoms rest ++ [[')']]) := by
  have opening : Atom.Single '(' := ⟨by decide, by decide, by decide⟩
  have closing : Atom.Single ')' := ⟨by decide, by decide, by decide⟩
  have parts : rightSide name op rest = name ++ ' ' :: op :: ' ' :: '(' :: (rest ++ [')']) := by
    simp [rightSide]
  rw [parts, atoms_name_append isName (by rintro c ⟨⟩; rfl), atoms_cons_of_isBlank rfl,
    atoms_cons_of_single (isBlank_of_isCompound isOp) (Atom.single_of_isCompound isOp),
    atoms_cons_of_isBlank rfl, atoms_cons_of_single rfl opening,
    atoms_append_cons Atom.stops_rightBrace closed, atoms_cons_of_single rfl closing, atoms]

namespace Token

theorem ofAtom_openQuote (quoted : List Char) :
    ofAtom registry store ('"' :: (quoted ++ [')'])) =
      .error (.unterminatedString (String.ofList ('"' :: (quoted ++ [')'])))) := by
  simp [ofAtom, literal?, Operator.ofSymbol?, ofLongAtom, ofQuoted]

/-- A quote that is not closed takes the parenthesis behind it along, and cannot be read. -/
theorem quotesClosed_of_ofAtoms (isName : Name.isIdentifier name = true)
    (isOp : isCompound op = true) {rest : List Char} {tokens : List Token}
    (read : ofAtoms registry store (rightSide name op rest) = .ok tokens) : QuotesClosed rest := by
  by_contra notClosed
  obtain ⟨front, quoted, rfl, frontClosed, none⟩ := exists_openQuote notClosed
  have parts : rightSide name op (front ++ '"' :: quoted) =
      name ++ [' ', op, ' ', '('] ++ front ++ '"' :: (quoted ++ [')']) := by
    simp [rightSide]
  have noQuote : '"' ∉ name ++ [' ', op, ' ', '('] := by
    have notOp : '"' ≠ op := by
      rintro rfl
      cases isOp
    simpa [notOp] using Name.not_mem_of_isIdentifier isName (c := '"') rfl
  have beforeClosed : QuotesClosed (name ++ [' ', op, ' ', '('] ++ front) :=
    (quotesClosed_append_iff (quotesClosed_of_not_mem noQuote) front).mpr frontClosed
  have stillNone : '"' ∉ quoted ++ [')'] := by simpa using none
  rw [ofAtoms, parts, atoms_append_cons Atom.stops_quote beforeClosed, atoms_openQuote stillNone,
    List.mapM_append] at read
  obtain ⟨before, -, read⟩ := exists_of_bind_eq_ok read
  rw [List.mapM_cons, ofAtom_openQuote] at read
  cases read

theorem ofAtom_compound (isOp : isCompound op = true) {operator : Operator}
    (stands : Operator.ofSymbol? [op] = some operator) :
    ofAtom registry store [op] = .ok (.ofOperator operator) := by
  simp only [isCompound, Bool.or_eq_true, beq_iff_eq] at isOp
  rcases isOp with ((((rfl | rfl) | rfl) | rfl) | rfl) | rfl <;> cases stands <;> rfl

theorem ofAtoms_rightSide (isName : Name.isIdentifier name = true) (isOp : isCompound op = true)
    {operator : Operator} (stands : Operator.ofSymbol? [op] = some operator) {rest : List Char}
    (closed : QuotesClosed rest) :
    ofAtoms registry store (rightSide name op rest) = do
      let tokens ← ofAtoms registry store rest
      return .matrixRef (String.ofList name) :: .ofOperator operator :: .leftBrace ::
        (tokens ++ [.rightBrace]) := by
  have ofOp : ofAtom registry store [op] = .ok (.ofOperator operator) :=
    ofAtom_compound isOp stands
  have ofOpening : ofAtom registry store ['('] = .ok .leftBrace := rfl
  have ofClosing : ofAtom registry store [')'] = .ok .rightBrace := rfl
  rw [ofAtoms, atoms_rightSide isName isOp closed, List.mapM_cons, List.mapM_cons, List.mapM_cons,
    List.mapM_append, ofAtom_of_isIdentifier isName, ofOp, ofOpening, List.mapM_cons, ofClosing,
    List.mapM_nil, ofAtoms]
  rcases (atoms rest).mapM (ofAtom registry store) with error | tokens <;> rfl

/-- The operator behind the name is no sign, and signs in parentheses are marked as if the tokens
stood by themselves. -/
theorem markSigns_rightSide (name : String) (operator : Operator) (tokens : List Token) :
    markSigns true
        (.matrixRef name :: .ofOperator operator :: .leftBrace :: (tokens ++ [.rightBrace])) =
      .matrixRef name :: .ofOperator operator :: .leftBrace ::
        (markSigns true tokens ++ [.rightBrace]) := by
  have closing (due : Bool) : markSigns due [.rightBrace] = [.rightBrace] :=
    markSigns_cons_of_kind (t := .rightBrace) TokenKind.noConfusion due []
  rw [markSigns_cons_of_kind TokenKind.noConfusion, markSigns,
    markSigns_cons_of_kind TokenKind.noConfusion, markSigns_append, closing]
  rfl

/-- The expression of a compound assignment is read as it is by itself. -/
theorem readAll_compound (isName : Name.isIdentifier name = true) (isOp : isCompound op = true)
    {operator : Operator} (stands : Operator.ofSymbol? [op] = some operator) (noEquals : '=' ∉ e)
    {tokens : List Token} (read : readAll registry store (compound name op e) = .ok tokens) :
    squeeze e ≠ [] ∧ ∃ own, readAll registry store e = .ok own ∧
      tokens = .matrixRef (String.ofList name) :: .ofOperator .assign ::
        .matrixRef (String.ofList name) :: .ofOperator operator :: .leftBrace ::
          (own ++ [.rightBrace]) := by
  rw [readAll_eq, sides_compound isName isOp noEquals] at read
  split_ifs at read with blank
  · cases read
  · refine ⟨blank, ?_⟩
    rw [ok_bind] at read
    obtain ⟨left, ofLeft, read⟩ := exists_of_bind_eq_ok read
    obtain ⟨right, ofRight, read⟩ := exists_of_bind_eq_ok read
    rw [ofAtoms, atoms_name isName, List.mapM_cons, ofAtom_of_isIdentifier isName] at ofLeft
    obtain rfl := Except.ok.inj ofLeft
    rw [ofAtoms_rightSide isName isOp stands (quotesClosed_of_ofAtoms isName isOp ofRight)]
      at ofRight
    obtain ⟨unsigned, ofRest, ofRight⟩ := exists_of_bind_eq_ok ofRight
    obtain rfl := Except.ok.inj ofRight
    refine ⟨markSigns true unsigned, ?_, ?_⟩
    · rw [readAll_of_not_mem registry store noEquals, ofRest]
      rfl
    · rw [markSigns_rightSide] at read
      exact (Except.ok.inj read).symm

end Token

end MatrixCalculator
