import MatrixCalculator.Proofs.Literals
import MatrixCalculator.Proofs.TokenReading

/-!
# How tokens are written

`Spells` says how each token is written. A sign is written like a sum or a difference. Whatever
writes a token is one atom (`Spells.whole`), which is read as that token, signs apart
(`Spells.ofAtom_eq`). Written with one space between neighbours, such atoms are the atoms of the
text they make up (`atoms_intercalate`), and squeezing leaves that text alone (`tidy_intercalate`).
-/

set_option autoImplicit false

namespace MatrixCalculator

open Text

/-! ### How tokens are written -/

namespace Operator

/-- The operator that a sign is written like. -/
def unsigned : Operator → Operator
  | negate => subtract
  | identity => add
  | op => op

/-- The characters of an operator. -/
def written (op : Operator) : List Char :=
  op.unsigned.symbol.toList

end Operator

/-- The token for a constant. -/
def Constant.token (c : Constant) : Token :=
  match c.value? with
  | some x => { Token.number x with name := c.name }
  | none => .null

/-- Whether characters write a token. A query stands for the help that there is on its
name. -/
inductive Spells (registry : Registry) (store : Store) : List Char → Token → Prop
  | name (name : List Char) (isName : Name.isIdentifier name = true) :
    Spells registry store name (.matrixRef (String.ofList name))
  | number (l : Literal) : Spells registry store l.chars (.number l.value)
  | text (text : List Char) (tidy : Tidy text) (noQuote : '"' ∉ text) (noEquals : '=' ∉ text) :
    Spells registry store ('"' :: (text ++ ['"'])) (.text (String.ofList text))
  | call (key : List Char) (isName : Name.isIdentifier key = true) (d : Descriptor)
    (found : registry.find? (String.ofList key) = some d) :
    Spells registry store ('!' :: key) (.call d)
  | constant (key : List Char) (isName : Name.isIdentifier key = true) (c : Constant)
    (noFunction : registry.find? (String.ofList key) = none)
    (found : Constant.find? (String.ofList key) = some c) :
    Spells registry store ('!' :: key) c.token
  | query (name : List Char) (isName : Name.isIdentifier name = true) :
    Spells registry store ('?' :: name)
      (.docs (String.ofList name) (Topic.find (String.ofList name) registry store).text)
  | overview : Spells registry store ['?'] (.docs "info" (Help.overview registry))
  | operator (op : Operator) : Spells registry store op.written (.ofOperator op)
  | leftBrace : Spells registry store ['('] .leftBrace
  | rightBrace : Spells registry store [')'] .rightBrace
  | separator : Spells registry store [','] .separator

namespace Token

/-- The token as it is read before signs are marked. -/
def unsigned (t : Token) : Token :=
  match t.kind, t.operator with
  | .operator, some op => ofOperator op.unsigned
  | _, _ => t

theorem unsigned_of_kind {t : Token} (noOperator : t.kind ≠ .operator) : t.unsigned = t := by
  unfold unsigned
  split
  · rename_i isOperator _
    exact absurd isOperator noOperator
  · rfl

end Token

/-! ### Atoms with a space between them -/

/-- Whether characters make up one atom, closed and without a blank too many. -/
structure Whole (atom : List Char) : Prop where
  atoms_eq : atoms atom = [atom]
  closed : QuotesClosed atom
  tidy : Tidy atom
  notEmpty : atom ≠ []

/-- A word without a quote is one atom if it goes as far as an atom can. -/
theorem Whole.of_isWord {c : Char} {body : List Char} (isWord : IsWord (c :: body))
    (noQuote : '"' ∉ c :: body) (whole : Atom.length c body = body.length + 1) :
    Whole (c :: body) where
  atoms_eq := atoms_of_length (isWord.2 c List.mem_cons_self) whole
  closed := quotesClosed_of_not_mem noQuote
  tidy := .of_isWord isWord
  notEmpty := isWord.1

section Pieces

variable {pieces : List (List Char)}

theorem intercalate_ne_nil (areWhole : ∀ piece ∈ pieces, Whole piece) (isSome : pieces ≠ []) :
    [' '].intercalate pieces ≠ [] := by
  rw [ne_eq, intercalate_eq_nil_iff fun piece isMem ↦ (areWhole piece isMem).notEmpty]
  exact isSome

/-- Atoms with a space between them are the atoms of the text they make up. -/
theorem atoms_intercalate (areWhole : ∀ piece ∈ pieces, Whole piece) :
    atoms ([' '].intercalate pieces) = pieces := by
  induction pieces with
  | nil => simp [atoms]
  | cons piece rest ih =>
    rw [List.forall_mem_cons] at areWhole
    exact atoms_intercalate_cons areWhole.1.atoms_eq areWhole.1.closed (ih areWhole.2)

theorem tidy_intercalate (areWhole : ∀ piece ∈ pieces, Whole piece) :
    Tidy ([' '].intercalate pieces) := by
  induction pieces with
  | nil => exact ⟨[], by simp, rfl⟩
  | cons piece rest ih =>
    rw [List.forall_mem_cons] at areWhole
    cases rest with
    | nil =>
      rw [List.intercalate_singleton]
      exact areWhole.1.tidy
    | cons next rest =>
      rw [List.intercalate_cons_cons, List.append_assoc, List.singleton_append]
      exact areWhole.1.tidy.append_cons areWhole.1.notEmpty (ih areWhole.2)
        (intercalate_ne_nil areWhole.2 (by simp))

theorem not_mem_intercalate {c : Char} (visible : isBlank c = false)
    (none : ∀ piece ∈ pieces, c ∉ piece) : c ∉ [' '].intercalate pieces := by
  have notSpace : c ≠ ' ' := by rintro rfl; cases visible
  induction pieces with
  | nil => simp
  | cons piece rest ih =>
    rw [List.forall_mem_cons] at none
    cases rest with
    | nil => rw [List.intercalate_singleton]; exact none.1
    | cons next rest =>
      rw [List.intercalate_cons_cons, List.mem_append, List.mem_append, List.mem_singleton]
      exact not_or.mpr ⟨not_or.mpr ⟨none.1, notSpace⟩, ih none.2⟩

end Pieces

/-! ### What written tokens are read as -/

namespace Token

variable {registry : Registry} {store : Store}

theorem ofAtom_marked (c : Char) (rest : List Char) :
    ofAtom registry store ('!' :: c :: rest) = ofSpecial registry (String.ofList (c :: rest)) := by
  simp [ofAtom, literal?, Operator.ofSymbol?, ofLongAtom]

theorem ofAtom_query (c : Char) (rest : List Char) :
    ofAtom registry store ('?' :: c :: rest) =
      .ok (docs (String.ofList (trim (c :: rest)))
        (Topic.find (String.ofList (trim (c :: rest))) registry store).text) := by
  simp [ofAtom, literal?, Operator.ofSymbol?, ofLongAtom]

theorem ofAtom_quote (quoted : List Char) :
    ofAtom registry store ('"' :: (quoted ++ ['"'])) = .ok (text (String.ofList quoted)) := by
  simp [ofAtom, literal?, Operator.ofSymbol?, ofLongAtom, ofQuoted]

theorem ofAtom_written (op : Operator) :
    ofAtom registry store op.written = .ok (ofOperator op.unsigned) := by
  cases op <;> rfl

end Token

namespace Spells

variable {registry : Registry} {store : Store} {atom : List Char} {t : Token}

/-- A number is one atom. -/
theorem whole_chars (l : Literal) : Whole l.chars := by
  have visible : ∀ c ∈ l.chars, isBlank c = false ∧ c ≠ '"' := by
    intro c isMem
    rcases l.mem_chars isMem with isDigit | isMark
    · have noDigit : Char.isDigit '"' = false := rfl
      exact ⟨Atom.isBlank_of_isDecimalDigit (isDecimalDigit_of_isDigit isDigit),
        ne_of_isDigit isDigit noDigit⟩
    · simp only [List.mem_cons, List.not_mem_nil, or_false] at isMark
      rcases isMark with rfl | rfl | rfl | rfl | rfl <;> exact ⟨rfl, by decide⟩
  have number := l.numberLength_chars
  obtain ⟨c, body, written⟩ := List.exists_cons_of_ne_nil l.chars_ne_nil
  rw [written] at visible number ⊢
  have notQuote : c ≠ '"' := (visible c List.mem_cons_self).2
  refine .of_isWord ⟨by simp, fun d isMem ↦ (visible d isMem).1⟩
    (fun isMem ↦ (visible _ isMem).2 rfl) ?_
  rw [Atom.length, if_neg notQuote, number, if_pos (by simp), List.length_cons]

/-- A marked word is one atom. -/
theorem whole_marked {mark : Char} (isMark : mark = '!' ∨ mark = '?') {name : List Char}
    (isName : Name.isIdentifier name = true) : Whole (mark :: name) := by
  have visible : isBlank mark = false := by rcases isMark with rfl | rfl <;> rfl
  have notQuote : '"' ≠ mark := by rcases isMark with rfl | rfl <;> decide
  have noQuote : '"' ∉ name := Name.not_mem_of_isIdentifier isName rfl
  refine .of_isWord ⟨by simp, ?_⟩ (by simp [notQuote, noQuote]) (Atom.length_marked isMark isName)
  exact List.forall_mem_cons.mpr ⟨visible, (Name.isWord_of_isIdentifier isName).2⟩

theorem whole_name {name : List Char} (isName : Name.isIdentifier name = true) : Whole name where
  atoms_eq := atoms_name isName
  closed := quotesClosed_of_not_mem (Name.not_mem_of_isIdentifier isName rfl)
  tidy := .of_isWord (Name.isWord_of_isIdentifier isName)
  notEmpty := (Name.isWord_of_isIdentifier isName).1

/-- Whatever writes a token is one atom. -/
theorem whole (spells : Spells registry store atom t) : Whole atom := by
  cases spells with
  | name name isName => exact whole_name isName
  | number l => exact whole_chars l
  | text text tidy noQuote noEquals =>
    refine ⟨?_, quotesClosed_quote noQuote, (tidy.concat rfl).cons rfl, by simp⟩
    rw [atoms_quote noQuote [], atoms]
  | call key isName d found => exact whole_marked (Or.inl rfl) isName
  | constant key isName special noFunction found => exact whole_marked (Or.inl rfl) isName
  | query name isName => exact whole_marked (Or.inr rfl) isName
  | overview => exact .of_isWord (isWord_of_any (by simp) rfl) (by decide) rfl
  | operator op =>
    cases op <;> exact .of_isWord (isWord_of_any (by simp) rfl) (by decide) rfl
  | leftBrace => exact .of_isWord (isWord_of_any (by simp) rfl) (by decide) rfl
  | rightBrace => exact .of_isWord (isWord_of_any (by simp) rfl) (by decide) rfl
  | separator => exact .of_isWord (isWord_of_any (by simp) rfl) (by decide) rfl

/-- Whatever writes a token is read as that token, signs apart. -/
theorem ofAtom_eq (spells : Spells registry store atom t) :
    Token.ofAtom registry store atom = .ok t.unsigned := by
  cases spells with
  | name name isName => exact Token.ofAtom_of_isIdentifier isName
  | number l =>
    unfold Token.ofAtom
    rw [l.literal?_chars]
    rfl
  | text text tidy noQuote noEquals => exact Token.ofAtom_quote text
  | call key isName d found =>
    obtain ⟨c, rest, rfl⟩ := List.exists_cons_of_ne_nil (Name.isWord_of_isIdentifier isName).1
    rw [Token.ofAtom_marked, Token.ofSpecial, found]
    rfl
  | constant key isName special noFunction found =>
    obtain ⟨c, rest, rfl⟩ := List.exists_cons_of_ne_nil (Name.isWord_of_isIdentifier isName).1
    rw [Token.ofAtom_marked, Token.ofSpecial, noFunction, found]
    unfold Constant.token
    dsimp only
    rcases special.value? with _ | x <;> rfl
  | query name isName =>
    have trimmed := trim_of_forall (Name.isWord_of_isIdentifier isName).2
    obtain ⟨c, rest, rfl⟩ := List.exists_cons_of_ne_nil (Name.isWord_of_isIdentifier isName).1
    rw [Token.ofAtom_query, trimmed]
    rfl
  | overview => rfl
  | operator op => exact Token.ofAtom_written op
  | leftBrace => rfl
  | rightBrace => rfl
  | separator => rfl

/-- Only an assignment is written with an equals sign. -/
theorem not_mem_of_isOperator (spells : Spells registry store atom t)
    (noAssignment : t.isOperator .assign = false) : '=' ∉ atom := by
  cases spells with
  | name name isName => exact Name.not_mem_of_isIdentifier isName rfl
  | number l =>
    intro isMem
    rcases l.mem_chars isMem with isDigit | isMark
    · cases isDigit
    · revert isMark; decide
  | text text tidy noQuote noEquals => simpa using noEquals
  | call key isName d found => simpa using Name.not_mem_of_isIdentifier isName rfl
  | constant key isName special noFunction found =>
    simpa using Name.not_mem_of_isIdentifier isName rfl
  | query name isName => simpa using Name.not_mem_of_isIdentifier isName rfl
  | overview => decide
  | operator op => cases op <;> first | decide | cases noAssignment
  | leftBrace => decide
  | rightBrace => decide
  | separator => decide

end Spells

end MatrixCalculator
