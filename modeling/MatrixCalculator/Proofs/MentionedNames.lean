import MatrixCalculator.Proofs.SeveralNames

/-!
# The names in a text

A text mentions the names among its atoms, bare or behind a question mark (`Mentions`). Reading
squeezes a text, writes compound assignments out and takes the text apart at its equals sign; no
step brings in a name that the text does not mention (`mentions_of_sides`). So the tokens of a text
name what it mentions (`lexical_of_mem_readAll`), and reading looks up nothing else in the store
(`readAll_congr`).
-/

set_option autoImplicit false

namespace MatrixCalculator

open Text

/-- Whether a name is among the atoms of a text, bare or behind a question mark. -/
def NameIn (text : List Char) (name : String) : Prop :=
  Name.isIdentifier name.toList = true ∧
    (name.toList ∈ atoms text ∨ '?' :: name.toList ∈ atoms text)

/-- Whether a text mentions a name. An equals sign ends all that stands before it, even what stands
behind a quote that is not closed. -/
def Mentions (text : List Char) (name : String) : Prop :=
  ∃ piece ∈ split (· == '=') text, NameIn piece name

theorem mentions_of_not_mem {text : List Char} (noEquals : '=' ∉ text) {name : String} :
    Mentions text name ↔ NameIn text name := by
  have uncut : ∀ c ∈ text, (c == '=') = false := by
    intro c isMem
    simpa using fun same : c = '=' ↦ noEquals (same ▸ isMem)
  rw [Mentions, split_of_forall uncut]
  simp

theorem mentions_append_cons {before behind : List Char} (noneBefore : '=' ∉ before)
    (noneBehind : '=' ∉ behind) {name : String} :
    Mentions (before ++ '=' :: behind) name ↔ NameIn before name ∨ NameIn behind name := by
  have parts := @split_append_cons (· == '=') '=' rfl before behind
  rw [← mentions_of_not_mem noneBefore, ← mentions_of_not_mem noneBehind, Mentions, Mentions,
    Mentions, parts]
  simp [or_and_right, exists_or]

/-! ### Blanks and quotes -/

/-- An atom of punctuation or quoted text is no name. -/
theorem nameIn_concat_iff {text other glyph : List Char}
    (parts : atoms text = atoms other ++ [glyph])
    (noName : ∀ name, Name.isIdentifier name = true → name ≠ glyph ∧ '?' :: name ≠ glyph)
    {name : String} : NameIn text name ↔ NameIn other name := by
  refine and_congr_right fun isName ↦ ?_
  have other := noName name.toList isName
  simp [parts, other.1, other.2]

/-- Nothing that stands behind a quote that is not closed is a name. -/
theorem nameIn_append_openQuote {front quoted : List Char} (closed : QuotesClosed front)
    (none : '"' ∉ quoted) {name : String} :
    NameIn (front ++ '"' :: quoted) name ↔ NameIn front name := by
  have parts : atoms (front ++ '"' :: quoted) = atoms front ++ ['"' :: quoted] := by
    rw [atoms_append_cons Atom.stops_quote closed, atoms_openQuote none]
  refine nameIn_concat_iff parts fun name isName ↦ ⟨?_, by simp⟩
  rintro rfl
  cases isName

theorem nameIn_trim_iff {text : List Char} {name : String} :
    NameIn (trim text) name ↔ NameIn text name := by
  by_cases closed : QuotesClosed text
  · rw [NameIn, atoms_trim closed, NameIn]
  · obtain ⟨front, quoted, rfl, frontClosed, none⟩ := exists_openQuote closed
    have startClosed : QuotesClosed (trimStart front) := by
      rwa [QuotesClosed, count_trimStart rfl]
    have stillNone : '"' ∉ trimEnd quoted := fun isMem ↦
      none ((List.rdropWhile_prefix isBlank quoted).subset isMem)
    rw [trim_append_cons rfl, nameIn_append_openQuote startClosed stillNone,
      nameIn_append_openQuote frontClosed none, NameIn, atoms_trimStart, NameIn]

/-- Blanks matter to no atom but a quote. -/
theorem forall_mem_atoms (text : List Char) : ∀ atom ∈ atoms text,
    atom.head? = some '"' ∨ ∀ c ∈ atom, isBlank c = false := by
  induction text using atoms_induction with
  | nil => simp [atoms]
  | blank c rest blank ih => rwa [atoms_cons_of_isBlank blank]
  | plain c body rest visible notQuote goesOn first ih =>
    rw [atoms_cons_append visible first, List.forall_mem_cons]
    refine ⟨Or.inr (List.forall_mem_cons.mpr ⟨visible, fun d isMem ↦ ?_⟩), ih⟩
    exact Atom.isBlank_of_not_stops (goesOn d isMem)
  | quote quoted rest none ih =>
    rw [atoms_quote none, List.forall_mem_cons]
    exact ⟨Or.inl rfl, ih⟩
  | openQuote quoted none =>
    rw [atoms_openQuote none]
    simp

/-- Writing stretches of blanks as one space brings in no atom but quotes. -/
theorem mem_atoms_of_collapse {text : List Char} {c : Char} {body : List Char}
    (notQuote : c ≠ '"') (isMem : c :: body ∈ atoms (collapse text)) : c :: body ∈ atoms text := by
  rw [atoms_collapse] at isMem
  obtain ⟨atom, isAtom, collapsed⟩ := List.mem_map.mp isMem
  rcases forall_mem_atoms text atom isAtom with isQuote | visible
  · obtain ⟨rest, rfl⟩ : ∃ rest, atom = '"' :: rest := List.head?_eq_some_iff.mp isQuote
    rw [collapse, if_neg (by decide)] at collapsed
    exact absurd (List.cons.inj collapsed).1.symm notQuote
  · rw [collapse_of_forall visible] at collapsed
    exact collapsed ▸ isAtom

theorem NameIn.of_squeeze {text : List Char} {name : String} (nameIn : NameIn (squeeze text) name) :
    NameIn text name := by
  rw [squeeze_eq_trim_collapse, nameIn_trim_iff] at nameIn
  obtain ⟨isName, isMem⟩ := nameIn
  refine ⟨isName, ?_⟩
  cases written : name.toList with
  | nil => rw [written] at isName; cases isName
  | cons c rest =>
    rw [written] at isName isMem
    have notQuote : c ≠ '"' := by
      rintro rfl
      cases isName
    exact isMem.imp (mem_atoms_of_collapse notQuote) (mem_atoms_of_collapse (by decide))

/-! ### Compound assignments -/

theorem Atom.single_of_isCompound {op : Char} (isOp : Assignment.isCompound op = true) :
    Atom.Single op := by
  simp only [Assignment.isCompound, Bool.or_eq_true, beq_iff_eq] at isOp
  rcases isOp with ((((rfl | rfl) | rfl) | rfl) | rfl) | rfl <;>
    exact ⟨by decide, by decide, by decide⟩

/-- A character that is an atom by itself is no name. -/
theorem ne_of_single {c : Char} (single : Atom.Single c) (name : List Char)
    (isName : Name.isIdentifier name = true) : name ≠ [c] ∧ '?' :: name ≠ [c] := by
  refine ⟨fun same ↦ ?_, fun same ↦ ?_⟩
  · rw [same, Name.isIdentifier, single.notStart] at isName
    cases isName
  · obtain rfl := (List.cons.inj same).1
    exact single.notMark (by decide)

theorem nameIn_concat_rightBrace {text : List Char} {name : String} :
    NameIn (text ++ [')']) name ↔ NameIn text name := by
  have single : Atom.Single ')' := ⟨by decide, by decide, by decide⟩
  by_cases closed : QuotesClosed text
  · refine nameIn_concat_iff ?_ (ne_of_single single)
    rw [atoms_append_cons Atom.stops_rightBrace closed, atoms_cons_of_single rfl single, atoms]
  · obtain ⟨front, quoted, rfl, frontClosed, none⟩ := exists_openQuote closed
    have stillNone : '"' ∉ quoted ++ [')'] := by simpa using none
    rw [List.append_assoc, List.cons_append, nameIn_append_openQuote frontClosed stillNone,
      nameIn_append_openQuote frontClosed none]

theorem nameIn_cons_of_single {c : Char} (visible : isBlank c = false) (single : Atom.Single c)
    {text : List Char} {name : String} : NameIn (c :: text) name ↔ NameIn text name := by
  refine and_congr_right fun isName ↦ ?_
  have other := ne_of_single single name.toList isName
  simp [atoms_cons_of_single visible single, other.1, other.2]

theorem nameIn_cons_of_isBlank {c : Char} (blank : isBlank c = true) {text : List Char}
    {name : String} : NameIn (c :: text) name ↔ NameIn text name := by
  rw [NameIn, atoms_cons_of_isBlank blank, NameIn]

/-- A name in front adds itself. -/
theorem nameIn_name_append {own text : List Char} (isOwn : Name.isIdentifier own = true)
    {name : String} (nameIn : NameIn (own ++ ' ' :: text) name) :
    name.toList = own ∨ NameIn text name := by
  obtain ⟨isName, isMem⟩ := nameIn
  have noQuery : '?' :: name.toList ≠ own := by
    rintro rfl
    cases isOwn
  rw [atoms_name_append isOwn (by rintro c ⟨⟩; rfl), atoms_cons_of_isBlank rfl, List.mem_cons,
    List.mem_cons] at isMem
  rcases isMem with (same | isMem) | (same | isMem)
  · exact Or.inl same
  · exact Or.inr ⟨isName, Or.inl isMem⟩
  · exact absurd same noQuery
  · exact Or.inr ⟨isName, Or.inr isMem⟩

/-- The right side of a compound assignment that is written out. -/
def Assignment.rightSide (name : List Char) (op : Char) (rest : List Char) : List Char :=
  name ++ ' ' :: op :: ' ' :: '(' :: rest ++ [')']

/-- Written out, a compound assignment mentions its name and what its rest mentions. -/
theorem nameIn_rightSide {own rest : List Char} {op : Char}
    (isOwn : Name.isIdentifier own = true) (isOp : Assignment.isCompound op = true)
    {name : String} (nameIn : NameIn (Assignment.rightSide own op rest) name) :
    name.toList = own ∨ NameIn rest name := by
  have opening : Atom.Single '(' := ⟨by decide, by decide, by decide⟩
  rw [Assignment.rightSide, nameIn_concat_rightBrace] at nameIn
  refine (nameIn_name_append isOwn nameIn).imp_right fun nameIn ↦ ?_
  rwa [nameIn_cons_of_single (Assignment.isBlank_of_isCompound isOp)
    (Atom.single_of_isCompound isOp), nameIn_cons_of_isBlank rfl,
    nameIn_cons_of_single rfl opening] at nameIn

/-! ### The sides of a text -/

namespace Assignment

/-- Writing a compound assignment out adds no equals sign. -/
theorem count_expand {text expanded : List Char} (isExpanded : expand text = .ok expanded) :
    expanded.count '=' = text.count '=' := by
  rw [expand] at isExpanded
  rcases compound : compound? text with _ | ⟨name, op, rest⟩
  · rw [compound] at isExpanded
    rw [Except.ok.inj isExpanded]
  · obtain ⟨lead, gap, rfl, leadBlank, gapBlank, isName, isOp⟩ := parts_of_compound? compound
    have noneBlank {blanks : List Char} (blank : ∀ c ∈ blanks, isBlank c = true) :
        blanks.count '=' = 0 :=
      List.count_eq_zero.mpr fun isMem ↦ absurd (blank _ isMem) (by decide)
    have noneInName : name.count '=' = 0 :=
      List.count_eq_zero.mpr (Name.not_mem_of_isIdentifier isName rfl)
    have notOp : op ≠ '=' := by
      rintro rfl
      cases isOp
    rw [compound] at isExpanded
    dsimp only at isExpanded
    split_ifs at isExpanded
    obtain rfl := Except.ok.inj isExpanded
    simp [noneBlank leadBlank, noneBlank gapBlank, noneInName, notOp, count_trim (c := '=') rfl]

/-- A compound assignment that is written out is taken apart behind its name. -/
theorem split_written {name rest : List Char} {op : Char} (isName : Name.isIdentifier name = true)
    (isOp : isCompound op = true) (noneRest : '=' ∉ rest) :
    split (name ++ [' ', '=', ' '] ++ name ++ [' ', op, ' ', '('] ++ rest ++ [')']) =
      if trim (name ++ [' ']) = [] ∨ trim (' ' :: rightSide name op rest) = [] then
        .error (.malformedAssignment
          (String.ofList (name ++ [' '] ++ '=' :: ' ' :: rightSide name op rest)))
      else .ok (some (trim (name ++ [' ']), trim (' ' :: rightSide name op rest))) := by
  have noneInName := Name.not_mem_of_isIdentifier isName (c := '=') rfl
  have notOp : '=' ≠ op := by
    rintro rfl
    cases isOp
  have noneLeft : '=' ∉ name ++ [' '] := by simpa using noneInName
  have noneRight : '=' ∉ ' ' :: rightSide name op rest := by
    simpa [rightSide, noneInName, notOp] using noneRest
  have written : name ++ [' ', '=', ' '] ++ name ++ [' ', op, ' ', '('] ++ rest ++ [')'] =
      name ++ [' '] ++ '=' :: ' ' :: rightSide name op rest := by
    simp [rightSide]
  rw [written, split_append_cons noneLeft noneRight]

end Assignment

namespace Token

theorem count_le_one_of_sides {text : List Char} {parts : List Char × Option (List Char)}
    (areSides : sides text = .ok parts) : text.count '=' ≤ 1 := by
  obtain ⟨expanded, isExpanded, areSides⟩ := exists_of_bind_eq_ok areSides
  obtain ⟨pieces, parted, -⟩ := exists_of_bind_eq_ok areSides
  rw [← count_squeeze rfl, ← Assignment.count_expand isExpanded]
  exact Assignment.count_le_one_of_split parted

end Token

theorem atoms_blanks_append {blanks : List Char} (blank : ∀ c ∈ blanks, isBlank c = true)
    (text : List Char) : atoms (blanks ++ text) = atoms text := by
  induction blanks with
  | nil => rfl
  | cons c blanks ih =>
    rw [List.forall_mem_cons] at blank
    rw [List.cons_append, atoms_cons_of_isBlank blank.1, ih blank.2]

/-- Before the equals sign of a compound assignment stands its name. -/
theorem mem_atoms_of_compound? {lead gap name : List Char} {op : Char}
    (leadBlank : ∀ c ∈ lead, isBlank c = true) (gapBlank : ∀ c ∈ gap, isBlank c = true)
    (isName : Name.isIdentifier name = true) (isOp : Assignment.isCompound op = true) :
    name ∈ atoms (lead ++ name ++ gap ++ [op]) := by
  have ends : ∀ c ∈ (gap ++ [op]).head?, Name.isRest c = false := by
    intro c isFirst
    cases gap with
    | nil =>
      obtain rfl := Option.some.inj isFirst
      exact Assignment.isRest_of_isCompound isOp
    | cons d gap =>
      obtain rfl := Option.some.inj isFirst
      exact (Atom.stops_of_isBlank (gapBlank d List.mem_cons_self)).notRest
  rw [List.append_assoc, List.append_assoc, atoms_blanks_append leadBlank,
    atoms_name_append isName ends]
  exact List.mem_cons_self

namespace Token

/-- The sides of a text with an equals sign are what stands around it, or what a compound assignment
is short for. -/
theorem sides_append_cons {before behind left : List Char} {right? : Option (List Char)}
    (noneBefore : '=' ∉ before) (noneBehind : '=' ∉ behind)
    (areSides : sides (before ++ '=' :: behind) = .ok (left, right?)) :
    (left = squeeze before ∧ right? = some (squeeze behind)) ∨
      ∃ name op, Name.isIdentifier name = true ∧ Assignment.isCompound op = true ∧
        NameIn (squeeze before) (String.ofList name) ∧ left = trim (name ++ [' ']) ∧
        right? = some (trim (' ' :: Assignment.rightSide name op (squeeze behind))) := by
  obtain ⟨front, back, squeezed, ofFront, ofBack, inFront, inBack⟩ :=
    squeeze_append_cons (c := '=') rfl before behind
  have noneFront : '=' ∉ front := fun isMem ↦ (inFront _ isMem).elim (by decide) noneBefore
  have noneBack : '=' ∉ back := fun isMem ↦ (inBack _ isMem).elim (by decide) noneBehind
  rw [sides, squeezed, Assignment.expand] at areSides
  rcases compound : Assignment.compound? (front ++ '=' :: back) with _ | ⟨name, op, rest⟩
  · rw [compound, ok_bind, Assignment.split_append_cons noneFront noneBack, ofFront,
      ofBack] at areSides
    split_ifs at areSides
    · cases areSides
    · obtain ⟨rfl, rfl⟩ := Prod.mk.inj (Except.ok.inj areSides)
      exact Or.inl ⟨rfl, rfl⟩
  · obtain ⟨lead, gap, rfl, rfl, leadBlank, gapBlank, isName, isOp⟩ :=
      Assignment.before_of_compound? noneFront compound
    rw [compound] at areSides
    dsimp only at areSides
    rw [ofBack] at areSides
    split_ifs at areSides
    · cases areSides
    · have noneRest := not_mem_squeeze (c := '=') rfl noneBehind
      rw [ok_bind, Assignment.split_written isName isOp noneRest] at areSides
      split_ifs at areSides
      · cases areSides
      · obtain ⟨rfl, rfl⟩ := Prod.mk.inj (Except.ok.inj areSides)
        refine Or.inr ⟨name, op, isName, isOp, ?_, rfl, rfl⟩
        rw [← ofFront, nameIn_trim_iff, NameIn, String.toList_ofList]
        exact ⟨isName, Or.inl (mem_atoms_of_compound? leadBlank gapBlank isName isOp)⟩

end Token

/-- Taking a text apart brings in no names. -/
theorem mentions_of_sides {text left : List Char} {right? : Option (List Char)}
    (areSides : Token.sides text = .ok (left, right?)) {side : List Char}
    (isSide : side ∈ left :: right?.toList) {name : String} (nameIn : NameIn side name) :
    Mentions text name := by
  rcases Assignment.not_mem_or_exists_of_count (Token.count_le_one_of_sides areSides) with
    none | ⟨before, behind, rfl, noneBefore, noneBehind⟩
  · rw [Token.sides_of_not_mem none] at areSides
    obtain ⟨rfl, rfl⟩ := Prod.mk.inj (Except.ok.inj areSides)
    obtain rfl := List.mem_singleton.mp isSide
    rw [mentions_of_not_mem none]
    exact nameIn.of_squeeze
  · rw [mentions_append_cons noneBefore noneBehind]
    rcases Token.sides_append_cons noneBefore noneBehind areSides with
      ⟨rfl, rfl⟩ | ⟨own, op, isOwn, isOp, ownIn, rfl, rfl⟩
    · rcases List.mem_cons.mp isSide with rfl | isRight
      · exact Or.inl nameIn.of_squeeze
      · obtain rfl := List.mem_singleton.mp isRight
        exact Or.inr nameIn.of_squeeze
    · have own_mentioned (same : name.toList = own) : NameIn before name := by
        have ofOwn := ownIn.of_squeeze
        rwa [← same, String.ofList_toList] at ofOwn
      rcases List.mem_cons.mp isSide with rfl | isRight
      · rw [nameIn_trim_iff] at nameIn
        rcases nameIn_name_append isOwn nameIn with same | nameIn
        · exact Or.inl (own_mentioned same)
        · simp [NameIn, atoms] at nameIn
      · obtain rfl := List.mem_singleton.mp isRight
        rw [nameIn_trim_iff, nameIn_cons_of_isBlank rfl] at nameIn
        rcases nameIn_rightSide isOwn isOp nameIn with same | nameIn
        · exact Or.inl (own_mentioned same)
        · exact Or.inr nameIn.of_squeeze

theorem mem_intersperse_of_mem {α : Type} (between : α) {items : List α} {item : α}
    (isMem : item ∈ items) : item ∈ items.intersperse between := by
  induction items with
  | nil => cases isMem
  | cons first rest ih =>
    cases rest with
    | nil => exact isMem
    | cons next rest =>
      rw [List.intersperse_cons_cons]
      rcases List.mem_cons.mp isMem with rfl | inRest
      · exact List.mem_cons_self
      · exact List.mem_cons_of_mem _ (List.mem_cons_of_mem _ (ih inRest))

/-- An assignment to several names mentions them, and what its right side mentions. -/
theorem mentions_of_multiAssignment? {text right : List Char} {names : List (List Char)}
    (several : multiAssignment? text = .ok (some (names, right))) :
    (∀ name ∈ names, Mentions text (String.ofList name)) ∧
      ∀ name, Mentions right name → Mentions text name := by
  obtain ⟨left, parted, -, rfl, areNames⟩ := exists_of_multiAssignment? several
  obtain ⟨before, behind, rfl, noneBefore, noneBehind, rfl, rfl, -⟩ :=
    Assignment.exists_of_split_eq_some parted
  refine ⟨fun name isMem ↦ ?_, fun name mentions ↦ ?_⟩
  · have arePieces : ∀ piece ∈ split (· == ',') (trim before),
        Name.isIdentifier (trim piece) = true :=
      fun piece isPiece ↦ areNames _ (List.mem_map_of_mem isPiece)
    have ofPieces := atoms_of_names arePieces
    rw [intercalate_split] at ofPieces
    rw [mentions_append_cons noneBefore noneBehind, ← nameIn_trim_iff, NameIn, ofPieces,
      String.toList_ofList]
    exact Or.inl ⟨areNames name isMem, Or.inl (mem_intersperse_of_mem _ isMem)⟩
  · rw [mentions_of_not_mem (Assignment.not_mem_trim noneBehind), nameIn_trim_iff] at mentions
    exact (mentions_append_cons noneBefore noneBehind).mpr (Or.inr mentions)

/-! ### Reading -/

namespace Token

variable {registry : Registry} {s t store : Store}

/-- The tokens of a text without an equals sign need no names but those in it. -/
theorem lexical_of_mem_readAll_of_not_mem {text : List Char} (noEquals : '=' ∉ text)
    {tokens : List Token} (read : readAll registry store text = .ok tokens) :
    ∀ t ∈ tokens, Lexical (NameIn text) t := by
  rw [readAll_of_not_mem registry store noEquals] at read
  obtain ⟨unsigned, ofAtoms, rfl⟩ := exists_of_map_eq_ok read
  refine lexical_of_mem_markSigns fun t isMem ↦ ?_
  refine (lexical_of_mem_ofAtoms (not_mem_squeeze rfl noEquals) ofAtoms t isMem).mono ?_
  exact fun name named ↦ NameIn.of_squeeze ⟨named.1, Or.inl named.2⟩

/-- The tokens of a text are the names that it mentions and others that need no name, but for the
equals sign. -/
theorem lexical_of_mem_readAll {text : List Char} {tokens : List Token}
    (read : readAll registry store text = .ok tokens) :
    ∀ t ∈ tokens, Lexical (Mentions text) t ∨ t = ofOperator .assign := by
  rw [readAll_eq] at read
  obtain ⟨⟨left, right?⟩, areSides, read⟩ := exists_of_bind_eq_ok read
  have noEquals := not_mem_of_sides areSides
  have lexical {side : List Char} (isSide : side ∈ left :: right?.toList) (none : '=' ∉ side)
      {tokens : List Token} (ofThis : ofAtoms registry store side = .ok tokens) :
      ∀ t ∈ markSigns true tokens, Lexical (Mentions text) t := by
    refine lexical_of_mem_markSigns fun t isMem ↦ ?_
    refine (lexical_of_mem_ofAtoms none ofThis t isMem).mono fun name named ↦ ?_
    exact mentions_of_sides areSides isSide ⟨named.1, Or.inl named.2⟩
  cases right? with
  | none =>
    obtain ⟨leftTokens, ofLeft, rfl⟩ := exists_of_map_eq_ok read
    exact fun t isMem ↦ Or.inl (lexical List.mem_cons_self noEquals.1 ofLeft t isMem)
  | some right =>
    obtain ⟨leftTokens, ofLeft, read⟩ := exists_of_bind_eq_ok read
    obtain ⟨rightTokens, ofRight, read⟩ := exists_of_bind_eq_ok read
    obtain rfl := Except.ok.inj read
    intro t isMem
    rcases List.mem_append.mp isMem with inLeft | inRight
    · exact Or.inl (lexical List.mem_cons_self noEquals.1 ofLeft t inLeft)
    · rcases List.mem_cons.mp inRight with rfl | inRight
      · exact Or.inr rfl
      · exact Or.inl (lexical (by simp) (noEquals.2 right rfl) ofRight t inRight)

/-- A query looks up its name, if it can be one. -/
theorem find_congr {name : String}
    (agree : Name.isIdentifier name.toList = true → s.get? name = t.get? name) :
    Topic.find name registry s = Topic.find name registry t := by
  unfold Topic.find
  split
  · rfl
  · rfl
  · split_ifs with isName
    · rw [agree isName]
    · rfl

/-- An atom looks up the name behind its question mark and nothing else. -/
theorem ofAtom_congr {atom : List Char} (agree : ∀ name, atom = '?' :: name →
      Name.isIdentifier (trim name) = true →
      s.get? (String.ofList (trim name)) = t.get? (String.ofList (trim name))) :
    ofAtom registry s atom = ofAtom registry t atom := by
  have ofLong : ofLongAtom registry s atom = ofLongAtom registry t atom := by
    unfold ofLongAtom
    split
    · rfl
    · rename_i name
      have found : Topic.find (String.ofList (trim name)) registry s =
          Topic.find (String.ofList (trim name)) registry t :=
        find_congr fun isName ↦ agree name rfl (by rwa [String.toList_ofList] at isName)
      dsimp only
      rw [found]
    · rfl
    · rfl
  unfold ofAtom
  rw [ofLong]

theorem ofAtoms_congr {text : List Char}
    (agree : ∀ name, NameIn text name → s.get? name = t.get? name) :
    ofAtoms registry s text = ofAtoms registry t text := by
  refine mapM_congr fun atom isAtom ↦ ofAtom_congr ?_
  rintro name rfl isName
  have visible : ∀ c ∈ '?' :: name, isBlank c = false :=
    (forall_mem_atoms text _ isAtom).resolve_left (by simp)
  rw [trim_of_forall (List.forall_mem_cons.mp visible).2] at isName ⊢
  refine agree _ ⟨?_, Or.inr ?_⟩ <;> rwa [String.toList_ofList]

/-- Reading looks up nothing in the store but what the text mentions. -/
theorem readAll_congr {text : List Char}
    (agree : ∀ name, Mentions text name → s.get? name = t.get? name) :
    readAll registry s text = readAll registry t text := by
  rw [readAll_eq, readAll_eq]
  rcases areSides : sides text with error | ⟨left, right?⟩
  · rfl
  · have ofSide {side : List Char} (isSide : side ∈ left :: right?.toList) :
        ofAtoms registry s side = ofAtoms registry t side :=
      ofAtoms_congr fun name nameIn ↦ agree name (mentions_of_sides areSides isSide nameIn)
    rw [ok_bind, ok_bind]
    cases right? with
    | none => rw [ofSides, ofSides, ofSide List.mem_cons_self]
    | some right => rw [ofSides, ofSides, ofSide List.mem_cons_self, ofSide (by simp)]

end Token

end MatrixCalculator
