import MatrixCalculator.Expression
import MatrixCalculator.Proofs.AtomBoundaries
import MatrixCalculator.Token.Reading
import Mathlib.Data.List.Forall2

/-!
# The tokens of a text

Which tokens an atom can be read as (`Token.ReadAs`, `Token.Lexical`), and how the tokens of a text
come from those of its sides (`readAll_eq`). Whether a plus or minus is a sign depends on the token
before it alone, so that signs are marked on both sides of an equals sign as if each side stood by
itself (`markSigns_append_assign`).
-/

set_option autoImplicit false

namespace MatrixCalculator

open Text

section Results

variable {α β ε : Type}

@[simp] theorem ok_bind (a : α) (f : α → Except ε β) : (Except.ok a >>= f) = f a := rfl

theorem exists_of_bind_eq_ok {result : Except ε α} {f : α → Except ε β} {b : β}
    (value : (result >>= f) = .ok b) : ∃ a, result = .ok a ∧ f a = .ok b := by
  rcases result with error | a
  · cases value
  · exact ⟨a, rfl, value⟩

theorem exists_of_map_eq_ok {result : Except ε α} {f : α → β} {b : β}
    (value : result.map f = .ok b) : ∃ a, result = .ok a ∧ f a = b := by
  rcases result with error | a
  · cases value
  · exact ⟨a, rfl, Except.ok.inj value⟩

theorem eq_error_of_map {result : Except ε α} {f : α → β} {error : ε}
    (failed : result.map f = .error error) : result = .error error := by
  rcases result with other | a
  · rw [Except.error.inj failed]
  · cases failed

theorem eq_ok_of_mapError {δ : Type} {result : Except ε α} {f : ε → δ} {a : α}
    (value : result.mapError f = .ok a) : result = .ok a := by
  rcases result with error | b
  · cases value
  · rw [Except.ok.inj value]

theorem mapM_congr {f g : α → Except ε β} {items : List α}
    (same : ∀ item ∈ items, f item = g item) : items.mapM f = items.mapM g := by
  induction items with
  | nil => rfl
  | cons item rest ih =>
    rw [List.forall_mem_cons] at same
    rw [List.mapM_cons, List.mapM_cons, same.1, ih same.2]

theorem mapM_eq_map {f : α → Except ε β} {g : α → β} {items : List α}
    (same : ∀ item ∈ items, f item = .ok (g item)) : items.mapM f = .ok (items.map g) :=
  (mapM_congr same).trans List.mapM_pure

/-- As many results as there are items, each that of its item. -/
theorem mapM_eq_ok_iff {f : α → Except ε β} {items : List α} {results : List β} :
    items.mapM f = .ok results ↔
      List.Forall₂ (fun item result ↦ f item = .ok result) items results := by
  induction items generalizing results with
  | nil =>
    rw [List.mapM_nil, List.forall₂_nil_left_iff]
    exact ⟨fun same ↦ (Except.ok.inj same).symm, fun none ↦ none ▸ rfl⟩
  | cons item rest ih =>
    rw [List.mapM_cons, List.forall₂_cons_left_iff]
    constructor
    · intro read
      rcases first : f item with error | result
      · rw [first] at read
        cases read
      · rcases others : rest.mapM f with error | results
        · rw [first, others] at read
          cases read
        · rw [first, others] at read
          obtain rfl := Except.ok.inj read
          exact ⟨result, results, rfl, ih.mp others, rfl⟩
    · rintro ⟨result, results, first, others, rfl⟩
      rw [first, ih.mpr others]
      rfl

/-- What is among the results is the result of an item. -/
theorem exists_of_mem_mapM {f : α → Except ε β} {items : List α} {results : List β}
    (read : items.mapM f = .ok results) {result : β} (isMem : result ∈ results) :
    ∃ item ∈ items, f item = .ok result := by
  induction mapM_eq_ok_iff.mp read with
  | nil => cases isMem
  | cons first others ih =>
    rcases List.mem_cons.mp isMem with rfl | inRest
    · exact ⟨_, List.mem_cons_self, first⟩
    · obtain ⟨item, isItem, ofItem⟩ := ih (mapM_eq_ok_iff.mpr others) inRest
      exact ⟨item, List.mem_cons_of_mem _ isItem, ofItem⟩

/-- A failure is that of an item. -/
theorem exists_of_mapM_eq_error {f : α → Except ε β} {items : List α} {error : ε}
    (failed : items.mapM f = .error error) : ∃ item ∈ items, f item = .error error := by
  induction items with
  | nil => cases failed
  | cons item rest ih =>
    rw [List.mapM_cons] at failed
    rcases first : f item with other | result
    · rw [first] at failed
      exact ⟨item, List.mem_cons_self, first.trans (congrArg _ (Except.error.inj failed))⟩
    · rcases others : rest.mapM f with other | results
      · rw [first, others] at failed
        obtain ⟨found, inRest, ofFound⟩ := ih (others.trans (congrArg _ (Except.error.inj failed)))
        exact ⟨found, List.mem_cons_of_mem item inRest, ofFound⟩
      · rw [first, others] at failed
        cases failed

end Results

/-- Whether a token of a kind has the payload of a value of that kind. Only a value has one: an
operator or a mark has none, and neither has a name that stands for a matrix. -/
def TokenKind.carries : TokenKind → Payload → Bool
  | number, .number _ => true
  | string, .text _ => true
  | docsQuery, .text _ => true
  | matrixRef, .matrix _ => true
  | matrixRef, .matrices _ => true
  | null, .null => true
  | output, .null => true
  | void, .null => true
  | _, _ => false

theorem TokenKind.isValue_of_carries {kind : TokenKind} {payload : Payload}
    (carries : kind.carries payload = true) : kind.isValue = true := by
  cases kind <;> first | rfl | exact Bool.noConfusion carries

namespace Token

variable {registry : Registry} {store : Store}

/-! ### Reading a name -/

theorem ofSymbol?_of_isIdentifier {name : List Char} (isName : Name.isIdentifier name = true) :
    Operator.ofSymbol? name = none := by
  unfold Operator.ofSymbol?
  split <;> first | rfl | cases isName

theorem literal?_of_isIdentifier {name : List Char} (isName : Name.isIdentifier name = true) :
    literal? name = none := by
  cases name with
  | nil => cases isName
  | cons c rest =>
    rw [Name.isIdentifier, Bool.and_eq_true] at isName
    have noDigit : c.isDigit = false :=
      isDigit_of_isDecimalDigit_eq_false (Atom.isDecimalDigit_of_isStart isName.1)
    have noPoint : c ≠ '.' := by
      rintro rfl
      cases isName.1
    simp [literal?, noDigit, noPoint]

theorem ofAtom_of_isIdentifier {name : List Char} (isName : Name.isIdentifier name = true) :
    ofAtom registry store name = .ok (matrixRef (String.ofList name)) := by
  unfold ofAtom
  rw [literal?_of_isIdentifier isName, ofSymbol?_of_isIdentifier isName]
  dsimp only
  split
  · cases isName
  · cases isName
  · cases isName
  · cases isName
  · split_ifs
    · unfold ofLongAtom
      split
      · cases isName
      · cases isName
      · cases isName
      · rw [if_pos isName]
    · rw [ofGlyph, ofSymbol?_of_isIdentifier isName]
      simp [isName]

/-! ### The kinds of tokens that texts are read as -/

/-- What an atom is read as: an operator or a mark, the name that it is, a call of a function that
the registry knows, or a value. -/
inductive ReadAs (registry : Registry) (atom : List Char) : Token → Prop
  | operator (op : Operator) (isOp : Operator.ofSymbol? atom = some op) :
    ReadAs registry atom (ofOperator op)
  | name (isName : Name.isIdentifier atom = true) :
    ReadAs registry atom (matrixRef (String.ofList atom))
  | call (d : Descriptor) (isKnown : d ∈ registry.functions) : ReadAs registry atom (call d)
  | leftBrace : ReadAs registry atom leftBrace
  | rightBrace : ReadAs registry atom rightBrace
  | separator : ReadAs registry atom separator
  | value (t : Token) (carries : t.kind.carries t.payload = true) (noMatrix : t.kind ≠ .matrixRef) :
    ReadAs registry atom t

/-- Whether a token can stand for an atom of a text without an equals sign, the names in it being
among some. -/
inductive Lexical (names : String → Prop) : Token → Prop
  | operator (op : Operator) (noAssignment : op ≠ .assign) : Lexical names (ofOperator op)
  | name (name : String) (isNamed : names name) : Lexical names (matrixRef name)
  | call (d : Descriptor) : Lexical names (call d)
  | leftBrace : Lexical names leftBrace
  | rightBrace : Lexical names rightBrace
  | separator : Lexical names separator
  | value (t : Token) (isValue : t.kind.isValue = true) (noName : t.kind ≠ .matrixRef) :
    Lexical names t

theorem Lexical.mono {names others : String → Prop} (wider : ∀ name, names name → others name)
    {t : Token} (lexical : Lexical names t) : Lexical others t := by
  cases lexical with
  | operator op noAssignment => exact .operator op noAssignment
  | name name isNamed => exact .name name (wider name isNamed)
  | call d => exact .call d
  | leftBrace => exact .leftBrace
  | rightBrace => exact .rightBrace
  | separator => exact .separator
  | value t isValue noName => exact .value t isValue noName

theorem ofSymbol?_eq_assign_iff (atom : List Char) :
    Operator.ofSymbol? atom = some .assign ↔ atom = ['='] := by
  unfold Operator.ofSymbol?
  split <;> simp_all

theorem readAs_ofSpecial {atom : List Char} {name : String} {t : Token}
    (read : ofSpecial registry name = .ok t) : ReadAs registry atom t := by
  unfold ofSpecial at read
  split at read
  · rename_i d found
    obtain rfl := Except.ok.inj read
    exact .call d (List.mem_of_find?_eq_some found)
  · split at read
    · split at read
      · obtain rfl := Except.ok.inj read
        exact .value _ rfl TokenKind.noConfusion
      · obtain rfl := Except.ok.inj read
        exact .value _ rfl TokenKind.noConfusion
    · cases read

theorem readAs_ofQuoted {atom quoted : List Char} {t : Token}
    (read : ofQuoted quoted = .ok t) : ReadAs registry atom t := by
  unfold ofQuoted at read
  split at read
  · obtain rfl := Except.ok.inj read
    exact .value _ rfl TokenKind.noConfusion
  · cases read

/-- These are all the ways in which an atom can be read. -/
theorem readAs_ofAtom {atom : List Char} {t : Token} (read : ofAtom registry store atom = .ok t) :
    ReadAs registry atom t := by
  unfold ofAtom at read
  split at read
  · obtain rfl := Except.ok.inj read
    exact .value _ rfl TokenKind.noConfusion
  · split at read
    · obtain rfl := Except.ok.inj read
      exact .leftBrace
    · obtain rfl := Except.ok.inj read
      exact .rightBrace
    · obtain rfl := Except.ok.inj read
      exact .value _ rfl TokenKind.noConfusion
    · obtain rfl := Except.ok.inj read
      exact .separator
    · split at read
      · unfold ofLongAtom at read
        split at read
        · exact readAs_ofSpecial read
        · obtain rfl := Except.ok.inj read
          exact .value _ rfl TokenKind.noConfusion
        · exact readAs_ofQuoted read
        · obtain rfl := Except.ok.inj read
          split_ifs with isName
          · exact .name isName
          · exact .value _ rfl TokenKind.noConfusion
      · obtain rfl := Except.ok.inj read
        unfold ofGlyph
        split
        · rename_i op isOp
          exact .operator op isOp
        · split_ifs with isName
          · exact .name isName
          · exact .value _ rfl TokenKind.noConfusion

/-- An atom stands for the name that it is, if it stands for a name. -/
theorem lexical_ofAtom {atom : List Char} (noAssignment : atom ≠ ['=']) {t : Token}
    (read : ofAtom registry store atom = .ok t) :
    Lexical (fun name ↦ Name.isIdentifier atom = true ∧ name = String.ofList atom) t := by
  cases readAs_ofAtom read with
  | operator op isOp =>
    refine .operator op ?_
    rintro rfl
    exact noAssignment ((ofSymbol?_eq_assign_iff atom).mp isOp)
  | name isName => exact .name _ ⟨isName, rfl⟩
  | call d isKnown => exact .call d
  | leftBrace => exact .leftBrace
  | rightBrace => exact .rightBrace
  | separator => exact .separator
  | value t carries noMatrix =>
    exact .value t (TokenKind.isValue_of_carries carries) noMatrix

theorem sign?_ne_assign (op : Operator) : op.sign? ≠ some .assign := by
  cases op <;> exact fun same ↦ by cases same

theorem Lexical.asSign {names : String → Prop} {t : Token} (lexical : Lexical names t) :
    Lexical names t.asSign := by
  unfold Token.asSign
  split
  · rename_i sign kind isSign
    obtain ⟨op, -, ofOp⟩ := Option.bind_eq_some_iff.mp isSign
    refine .operator sign ?_
    rintro rfl
    exact sign?_ne_assign op ofOp
  · exact lexical

/-- What holds of tokens with and without their signs marked holds of tokens whose signs are
marked. -/
theorem forall_mem_markSigns {P : Token → Prop} (signed : ∀ t, P t → P t.asSign) {due : Bool}
    {tokens : List Token} (holds : ∀ t ∈ tokens, P t) : ∀ t ∈ markSigns due tokens, P t := by
  induction tokens generalizing due with
  | nil => simp [markSigns]
  | cons t rest ih =>
    rw [List.forall_mem_cons] at holds
    rw [markSigns, List.forall_mem_cons]
    refine ⟨?_, ih holds.2⟩
    split_ifs
    · exact signed t holds.1
    · exact holds.1

theorem lexical_of_mem_markSigns {names : String → Prop} {due : Bool} {tokens : List Token}
    (lexical : ∀ t ∈ tokens, Lexical names t) : ∀ t ∈ markSigns due tokens, Lexical names t :=
  forall_mem_markSigns (P := Lexical names) (fun _ ↦ Lexical.asSign) lexical

/-- The tokens of a text without an equals sign name what stands among its atoms. -/
theorem lexical_of_mem_ofAtoms {text : List Char} (none : '=' ∉ text) {tokens : List Token}
    (read : ofAtoms registry store text = .ok tokens) :
    ∀ t ∈ tokens, Lexical
      (fun name ↦ Name.isIdentifier name.toList = true ∧ name.toList ∈ atoms text) t := by
  intro t isMem
  obtain ⟨atom, isAtom, ofThis⟩ := exists_of_mem_mapM read isMem
  have noAssignment : atom ≠ ['='] := by
    rintro rfl
    exact none (mem_of_mem_atoms isAtom List.mem_cons_self)
  refine (lexical_ofAtom noAssignment ofThis).mono ?_
  rintro name ⟨isName, rfl⟩
  rw [String.toList_ofList]
  exact ⟨isName, isAtom⟩

/-! ### Where signs stand -/

theorem asSign_of_kind {t : Token} (noOperator : t.kind ≠ .operator) : t.asSign = t := by
  unfold asSign
  split
  · rename_i isOperator _
    exact absurd isOperator noOperator
  · rfl

theorem kind_ne_operator_of_isValue {t : Token} (isValue : t.kind.isValue = true) :
    t.kind ≠ .operator := by
  intro isOperator
  rw [isOperator] at isValue
  cases isValue

theorem opensOperand_of_isValue {t : Token} (isValue : t.kind.isValue = true) :
    opensOperand t.kind = false := by
  obtain ⟨kind, _⟩ := t
  cases kind <;> first | rfl | cases isValue

theorem markSigns_cons_of_kind {t : Token} (noOperator : t.kind ≠ .operator) (due : Bool)
    (rest : List Token) :
    markSigns due (t :: rest) = t :: markSigns (opensOperand t.kind) rest := by
  rw [markSigns, asSign_of_kind noOperator, ite_self]

/-- Without operators there are no signs to mark. -/
theorem markSigns_of_forall {tokens : List Token} (noOperators : ∀ t ∈ tokens, t.kind ≠ .operator)
    (due : Bool) : markSigns due tokens = tokens := by
  induction tokens generalizing due with
  | nil => rfl
  | cons t rest ih =>
    rw [List.forall_mem_cons] at noOperators
    rw [markSigns_cons_of_kind noOperators.1, ih noOperators.2]

/-- Whether an operand is due behind tokens. -/
def dueBehind (due : Bool) (tokens : List Token) : Bool :=
  tokens.foldl (fun _ t ↦ opensOperand t.kind) due

theorem markSigns_append (due : Bool) (front behind : List Token) :
    markSigns due (front ++ behind) =
      markSigns due front ++ markSigns (dueBehind due front) behind := by
  induction front generalizing due with
  | nil => rfl
  | cons t front ih =>
    rw [List.cons_append, markSigns, markSigns, ih, List.cons_append]
    rfl

/-- Signs behind an equals sign are marked as if nothing stood before it. -/
theorem markSigns_append_assign (left right : List Token) :
    markSigns true (left ++ ofOperator .assign :: right) =
      markSigns true left ++ ofOperator .assign :: markSigns true right := by
  have unsigned : (ofOperator .assign).asSign = ofOperator .assign := rfl
  rw [markSigns_append, markSigns, unsigned]
  simp only [ite_self]
  rfl

/-! ### Reading the sides of a text -/

theorem expand_of_compound?_eq_none {text : List Char} (simple : Assignment.compound? text = none) :
    Assignment.expand text = .ok text := by
  rw [Assignment.expand, simple]

theorem compound?_of_not_mem {text : List Char} (none : '=' ∉ text) :
    Assignment.compound? text = .none := by
  rcases compound : Assignment.compound? text with _ | ⟨name, op, rest⟩
  · rfl
  · obtain ⟨lead, gap, rfl, -⟩ := Assignment.parts_of_compound? compound
    simp at none

/-- What stands on both sides of the equals sign when a text is read, or the text as it is read if
it has none. -/
def sides (text : List Char) : Except LexError (List Char × Option (List Char)) := do
  let expanded ← Assignment.expand (squeeze text)
  match ← Assignment.split expanded with
  | some (left, right) => return (left, some right)
  | none => return (expanded, none)

/-- The tokens of the sides of a text. -/
def ofSides (registry : Registry) (store : Store) (left : List Char) :
    Option (List Char) → Except LexError (List Token)
  | none => markSigns true <$> ofAtoms registry store left
  | some right => do
    let left ← ofAtoms registry store left
    let right ← ofAtoms registry store right
    return markSigns true left ++ ofOperator .assign :: markSigns true right

/-- The sides of a text are read apart. -/
theorem readAll_eq (registry : Registry) (store : Store) (text : List Char) :
    readAll registry store text =
      sides text >>= fun parts ↦ ofSides registry store parts.1 parts.2 := by
  rw [readAll, sides]
  rcases Assignment.expand (squeeze text) with error | expanded
  · rfl
  · rw [ok_bind, ok_bind]
    rcases Assignment.split expanded with error | none | ⟨left, right⟩
    · rfl
    · exact bind_pure_comp (markSigns true) (ofAtoms registry store expanded)
    · simp only [ok_bind, pure_bind, ofSides, markSigns_append_assign]

theorem sides_of_not_mem {text : List Char} (noEquals : '=' ∉ text) :
    sides text = .ok (squeeze text, none) := by
  have stillNone : '=' ∉ squeeze text := not_mem_squeeze rfl noEquals
  rw [sides, expand_of_compound?_eq_none (compound?_of_not_mem stillNone), ok_bind,
    Assignment.split_of_not_mem stillNone]
  rfl

theorem sides_of_split {text left right : List Char}
    (parted : Assignment.split text = .ok (some (left, right)))
    (simple : Assignment.compound? (squeeze text) = none) :
    sides text = .ok (squeeze left, some (squeeze right)) := by
  rw [sides, expand_of_compound?_eq_none simple, ok_bind, Assignment.split_squeeze parted]
  rfl

/-- A text without an equals sign is read as it stands. -/
theorem readAll_of_not_mem (registry : Registry) (store : Store) {text : List Char}
    (noEquals : '=' ∉ text) :
    readAll registry store text = markSigns true <$> ofAtoms registry store (squeeze text) := by
  rw [readAll_eq, sides_of_not_mem noEquals]
  rfl

/-- The sides of an assignment that is not compound are read apart. -/
theorem readAll_of_split (registry : Registry) (store : Store) {text left right : List Char}
    (parted : Assignment.split text = .ok (some (left, right)))
    (simple : Assignment.compound? (squeeze text) = none) :
    readAll registry store text = do
      let left ← ofAtoms registry store (squeeze left)
      let right ← ofAtoms registry store (squeeze right)
      return markSigns true left ++ ofOperator .assign :: markSigns true right := by
  rw [readAll_eq, sides_of_split parted simple]
  rfl

/-- No equals sign is left on a side. -/
theorem not_mem_of_sides {text left : List Char} {right? : Option (List Char)}
    (parts : sides text = .ok (left, right?)) : '=' ∉ left ∧ ∀ right ∈ right?, '=' ∉ right := by
  rw [sides] at parts
  rcases written : Assignment.expand (squeeze text) with error | expanded
  · rw [written] at parts
    cases parts
  · rw [written, ok_bind] at parts
    rcases parted : Assignment.split expanded with error | none | ⟨before, behind⟩
    · rw [parted] at parts
      cases parts
    · rw [parted] at parts
      cases parts
      exact ⟨Assignment.not_mem_of_split_eq_none parted, by simp⟩
    · rw [parted] at parts
      cases parts
      refine ⟨Assignment.not_mem_left_of_split parted, fun right isRight ↦ ?_⟩
      obtain rfl := Option.some.inj isRight
      exact Assignment.not_mem_right_of_split parted

end Token

end MatrixCalculator
