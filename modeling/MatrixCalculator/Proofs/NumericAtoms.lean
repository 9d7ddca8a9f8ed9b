import MatrixCalculator.Proofs.AtomSplitting
import MatrixCalculator.Proofs.Literals
import MatrixCalculator.Proofs.TokenReading

/-!
# Numbers in digits of other scripts

A number is cut out of a text with the decimal digits of every script, and it is read with those of
ASCII. An atom that starts like a number is therefore read as one exactly if it has no other digits
(`Token.ofAtom_numeric`). An atom with another digit, wherever it stands, is null
(`Token.foreign_digit_is_null`).
-/

set_option autoImplicit false

namespace MatrixCalculator

open Text

/-- Whether a text has no digits but those of ASCII. -/
def AsciiDigits (text : List Char) : Prop :=
  ∀ c ∈ text, isDecimalDigit c = true → c.isDigit = true

theorem AsciiDigits.of_sublist {text part : List Char} (ascii : AsciiDigits text)
    (isPart : part.Sublist text) : AsciiDigits part :=
  fun c isMem ↦ ascii c (isPart.subset isMem)

/-- The digits that a text without other digits starts with are digits of ASCII. -/
theorem AsciiDigits.isDigit_of_mem_takeWhile {text : List Char} (ascii : AsciiDigits text) :
    ∀ c ∈ text.takeWhile isDecimalDigit, c.isDigit = true :=
  fun c isMem ↦ ascii c ((List.takeWhile_sublist _).subset isMem) (List.mem_takeWhile_imp isMem)

/-! ### Numbers in digits of ASCII -/

section Parts

variable {text : List Char}

/-- What an exponent can take of a text is nothing, or a sign or none and digits. -/
theorem exponentLength_cases (mark : Char) (rest : List Char) :
    Atom.exponentLength (mark :: rest) = 0 ∨
      (mark = 'e' ∨ mark = 'E') ∧
        (rest.drop (Atom.signLength rest)).takeWhile isDecimalDigit ≠ [] ∧
          Atom.exponentLength (mark :: rest) = 1 + Atom.signLength rest +
            ((rest.drop (Atom.signLength rest)).takeWhile isDecimalDigit).length := by
  by_cases isMark : mark = 'e' ∨ mark = 'E'
  · rw [Atom.exponentLength, if_pos isMark]
    dsimp only
    split_ifs with isEmpty
    · exact Or.inl rfl
    · exact Or.inr ⟨isMark, fun empty ↦ isEmpty (List.isEmpty_iff.mpr empty), rfl⟩
  · exact Or.inl (if_neg isMark)

theorem take_signLength (text : List Char) :
    text.take (Atom.signLength text) = [] ∨ text.take (Atom.signLength text) = ['+'] ∨
      text.take (Atom.signLength text) = ['-'] := by
  cases text with
  | nil => exact Or.inl rfl
  | cons c rest =>
    rw [Atom.signLength]
    split_ifs with isSign
    · exact Or.inr (isSign.imp (congrArg fun sign ↦ [sign]) (congrArg fun sign ↦ [sign]))
    · exact Or.inl rfl

/-- A text that an exponent takes whole is one, or it is empty. -/
theorem exists_exponent (whole : Atom.exponentLength text = text.length)
    (ascii : AsciiDigits text) :
    ∃ exponent : Option Exponent, (exponent.map Exponent.chars).getD [] = text := by
  cases text with
  | nil => exact ⟨none, rfl⟩
  | cons mark rest =>
    rw [List.length_cons] at whole
    rcases exponentLength_cases mark rest with taken | ⟨isMark, isSome, taken⟩
    · omega
    · have digits : (rest.drop (Atom.signLength rest)).takeWhile isDecimalDigit =
          rest.drop (Atom.signLength rest) := by
        refine (List.takeWhile_prefix _).eq_of_length ?_
        rw [List.length_drop]
        omega
      rw [digits] at isSome
      have areDigits : ∀ c ∈ rest.drop (Atom.signLength rest), c.isDigit = true := by
        rw [← digits]
        refine (ascii.of_sublist ?_).isDigit_of_mem_takeWhile
        exact (List.drop_sublist _ _).trans (List.sublist_cons_self mark rest)
      refine ⟨some ⟨mark, isMark, _, take_signLength rest, _, areDigits, isSome⟩, ?_⟩
      exact congrArg (mark :: ·) (List.take_append_drop _ rest)

/-- What a fraction can take of a text is nothing, or a point and digits. -/
theorem fractionLength_cases (text : List Char) :
    Atom.fractionLength text = 0 ∨
      ∃ rest, text = '.' :: rest ∧ rest.takeWhile isDecimalDigit ≠ [] ∧
        Atom.fractionLength text = 1 + (rest.takeWhile isDecimalDigit).length := by
  unfold Atom.fractionLength
  split
  · rename_i rest
    dsimp only
    split_ifs with isEmpty
    · exact Or.inl rfl
    · exact Or.inr ⟨rest, rfl, fun empty ↦ isEmpty (List.isEmpty_iff.mpr empty), rfl⟩
  · exact Or.inl rfl

/-- A text that is a number as far as it goes is a literal if all its digits are digits of ASCII. -/
theorem exists_literal (whole : Atom.numberLength text = text.length) (isSome : text ≠ [])
    (ascii : AsciiDigits text) : ∃ l : Literal, l.chars = text := by
  obtain ⟨behind, parts⟩ := List.takeWhile_prefix (l := text) isDecimalDigit
  have wholeDigits := ascii.isDigit_of_mem_takeWhile
  have asciiBehind : AsciiDigits behind :=
    ascii.of_sublist (parts ▸ List.sublist_append_right _ behind)
  rw [Atom.numberLength] at whole
  generalize text.takeWhile isDecimalDigit = digits at parts whole wholeDigits
  subst parts
  rw [List.drop_left] at whole
  split_ifs at whole with nothing
  · exact absurd (List.eq_nil_of_length_eq_zero whole.symm) isSome
  rw [← List.drop_drop, List.drop_left, List.length_append] at whole
  rcases fractionLength_cases behind with noFraction | ⟨rest, rfl, isFraction, taken⟩
  · rw [noFraction, List.drop_zero] at whole
    obtain ⟨exponent, written⟩ := exists_exponent (by omega) asciiBehind
    have isWhole : digits ≠ [] := by
      rintro rfl
      exact nothing (by rw [noFraction]; rfl)
    refine ⟨⟨digits, [], exponent, wholeDigits, List.forall_mem_nil _, Or.inl isWhole⟩, ?_⟩
    exact congrArg (digits ++ ·) written
  · obtain ⟨behind, parts⟩ := List.takeWhile_prefix (l := rest) isDecimalDigit
    have asciiRest : AsciiDigits rest := asciiBehind.of_sublist (List.sublist_cons_self '.' rest)
    have fractionDigits := asciiRest.isDigit_of_mem_takeWhile
    have asciiLast : AsciiDigits behind :=
      asciiRest.of_sublist (parts ▸ List.sublist_append_right _ behind)
    rw [taken] at whole
    generalize rest.takeWhile isDecimalDigit = fraction at parts whole isFraction fractionDigits
    subst parts
    have dropped : ('.' :: (fraction ++ behind)).drop (1 + fraction.length) = behind := by
      rw [Nat.add_comm, List.drop_succ_cons, List.drop_left]
    rw [dropped, List.length_cons, List.length_append] at whole
    obtain ⟨exponent, written⟩ := exists_exponent (by omega) asciiLast
    refine ⟨⟨digits, fraction, exponent, wholeDigits, fractionDigits, Or.inr isFraction⟩, ?_⟩
    rw [Literal.chars, Literal.fractionChars, if_neg isFraction]
    exact congrArg (fun last ↦ digits ++ '.' :: (fraction ++ last)) written

end Parts

/-! ### What is read as a number -/

/-- What is read as an exponent is made of digits of ASCII, a mark and a sign. -/
theorem mem_of_readExponent? {text : List Char} {exponent : Int}
    (read : Number.readExponent? text = some exponent) :
    ∀ c ∈ text, c.isDigit = true ∨ c ∈ ['.', 'e', 'E', '+', '-'] := by
  rcases text with _ | ⟨mark, _ | ⟨c, digits⟩⟩
  · exact List.forall_mem_nil _
  · simp [Number.readExponent?] at read
  obtain ⟨isMark, isFirst, areDigits⟩ : (mark = 'e' ∨ mark = 'E') ∧
      (c.isDigit = true ∨ c = '+' ∨ c = '-') ∧ ∀ d ∈ digits, d.isDigit = true := by
    by_cases isMinus : c = '-'
    · obtain ⟨isMark, ⟨-, areDigits⟩, -⟩ : _ ∧ (_ ∧ ∀ d ∈ digits, d.isDigit = true) ∧ _ := by
        simpa [Number.readExponent?, isMinus] using read
      exact ⟨isMark, Or.inr (Or.inr isMinus), areDigits⟩
    · by_cases isPlus : c = '+'
      · obtain ⟨isMark, ⟨-, areDigits⟩, -⟩ : _ ∧ (_ ∧ ∀ d ∈ digits, d.isDigit = true) ∧ _ := by
          simpa [Number.readExponent?, isPlus] using read
        exact ⟨isMark, Or.inr (Or.inl isPlus), areDigits⟩
      · obtain ⟨isMark, ⟨isDigit, areDigits⟩, -⟩ :
            _ ∧ (c.isDigit = true ∧ ∀ d ∈ digits, d.isDigit = true) ∧ _ := by
          simpa [Number.readExponent?, isMinus, isPlus] using read
        exact ⟨isMark, Or.inl isDigit, areDigits⟩
  intro d isMem
  rcases List.mem_cons.mp isMem with rfl | behind
  · rcases isMark with rfl | rfl <;> simp
  · rcases List.mem_cons.mp behind with rfl | inDigits
    · refine isFirst.imp_right fun isSign ↦ ?_
      rcases isSign with rfl | rfl <;> simp
    · exact Or.inl (areDigits d inDigits)

/-- What is read as a number is made of digits of ASCII, points, marks and signs. -/
theorem mem_of_readUnsigned? {text : List Char} {x : Float}
    (read : Number.readUnsigned? text = some x) :
    ∀ c ∈ text, c.isDigit = true ∨ c ∈ ['.', 'e', 'E', '+', '-'] := by
  have parted {part : List Char} {c : Char} (isMem : c ∈ part) :
      c.isDigit = true ∨ c ∈ part.dropWhile Char.isDigit := by
    rw [← List.takeWhile_append_dropWhile (p := Char.isDigit) (l := part), List.mem_append] at isMem
    exact isMem.imp_left List.mem_takeWhile_imp
  rw [Number.readUnsigned?, Option.ite_none_left_eq_some, Option.map_eq_some_iff] at read
  obtain ⟨-, exponent, read, -⟩ := read
  intro c isMem
  rcases parted isMem with isDigit | inRest
  · exact Or.inl isDigit
  · split at read
    · rename_i tail behind
      rw [behind, List.mem_cons] at inRest
      rcases inRest with rfl | inTail
      · exact Or.inr (by simp)
      · exact (parted inTail).elim Or.inl (mem_of_readExponent? read c)
    · exact mem_of_readExponent? read c inRest

namespace Token

variable {registry : Registry} {store : Store}

theorem asciiDigits_of_literal? {atom : List Char} {x : Float} (read : literal? atom = some x) :
    AsciiDigits atom := by
  have unsigned : Number.readUnsigned? atom = some x := by
    unfold literal? at read
    split at read
    · exact (Option.ite_none_right_eq_some.mp read).2
    · exact (Option.ite_none_right_eq_some.mp read).2
    · cases read
  intro c isMem isDecimal
  rcases mem_of_readUnsigned? unsigned c isMem with isDigit | isOther
  · exact isDigit
  · simp only [List.mem_cons, List.not_mem_nil, or_false] at isOther
    rcases isOther with rfl | rfl | rfl | rfl | rfl <;> cases isDecimal

end Token

/-! ### Atoms that start like a number -/

namespace Atom

/-- Whether a text starts like a number: with a digit of some script, or with a point and one. -/
def startsNumber : List Char → Bool
  | '.' :: c :: _ => isDecimalDigit c
  | c :: _ => isDecimalDigit c
  | [] => false

theorem startsNumber_cases {text : List Char} (starts : startsNumber text = true) :
    ∃ c rest, text = c :: rest ∧ (isDecimalDigit c = true ∨
      c = '.' ∧ ∃ d behind, rest = d :: behind ∧ isDecimalDigit d = true) := by
  unfold startsNumber at starts
  split at starts
  · exact ⟨_, _, rfl, Or.inr ⟨rfl, _, _, rfl, starts⟩⟩
  · exact ⟨_, _, rfl, Or.inl starts⟩
  · cases starts

theorem numberLength_pos {text : List Char} (starts : startsNumber text = true) :
    0 < numberLength text := by
  have mantissa : (text.takeWhile isDecimalDigit).length +
      fractionLength (text.drop (text.takeWhile isDecimalDigit).length) ≠ 0 := by
    obtain ⟨c, rest, rfl, isDigit | ⟨rfl, d, behind, rfl, isDigit⟩⟩ := startsNumber_cases starts
    · simp [isDigit]
    · have noDigit : isDecimalDigit '.' = false := rfl
      simp [noDigit, fractionLength, isDigit]
  rw [numberLength, if_neg mantissa]
  omega

/-- An atom that starts like a number is one as far as it goes. -/
theorem numberLength_of_mem_atoms {text atom : List Char} (isAtom : atom ∈ atoms text)
    (starts : startsNumber atom = true) : numberLength atom = atom.length := by
  obtain ⟨c, body, rfl, -, whole⟩ := exists_of_mem_atoms isAtom
  have notQuote : c ≠ '"' := by
    rintro rfl
    cases body <;> cases starts
  rwa [length, if_neg notQuote, if_pos (numberLength_pos starts)] at whole

end Atom

namespace Token

variable {registry : Registry} {store : Store}

theorem isIdentifier_of_startsNumber {atom : List Char}
    (starts : Atom.startsNumber atom = true) : Name.isIdentifier atom = false := by
  obtain ⟨c, rest, rfl, isDigit | ⟨rfl, -⟩⟩ := Atom.startsNumber_cases starts
  · have noStart : Name.isStart c = false := by
      by_contra isStart
      rw [Atom.isDecimalDigit_of_isStart (Bool.not_eq_false _ ▸ isStart)] at isDigit
      cases isDigit
    rw [Name.isIdentifier, noStart, Bool.false_and]
  · rfl

theorem ofSymbol?_of_startsNumber {atom : List Char} (starts : Atom.startsNumber atom = true) :
    Operator.ofSymbol? atom = none := by
  unfold Operator.ofSymbol?
  split <;> first | rfl | cases starts

/-- An atom that starts like a number and is not read as one is null. -/
theorem exists_ofAtom_of_startsNumber {atom : List Char} (starts : Atom.startsNumber atom = true)
    (noNumber : literal? atom = none) :
    ∃ t, ofAtom registry store atom = .ok t ∧ t.kind = .null := by
  unfold ofAtom
  rw [noNumber, ofSymbol?_of_startsNumber starts]
  dsimp only
  split
  · cases starts
  · cases starts
  · cases starts
  · cases starts
  · split_ifs
    · unfold ofLongAtom
      split
      · cases starts
      · cases starts
      · cases starts
      · rw [isIdentifier_of_startsNumber starts]
        exact ⟨null, rfl, rfl⟩
    · rw [ofGlyph, ofSymbol?_of_startsNumber starts, isIdentifier_of_startsNumber starts]
      exact ⟨unknown (String.ofList atom), rfl, rfl⟩

variable (registry store)

/-- An atom of a text that starts like a number is read as the number that its digits write if all
of them are digits of ASCII; otherwise it is null. -/
theorem ofAtom_numeric {text atom : List Char} (isAtom : atom ∈ atoms text)
    (starts : Atom.startsNumber atom = true) :
    (AsciiDigits atom →
        ∃ l : Literal, l.chars = atom ∧ ofAtom registry store atom = .ok (number l.value)) ∧
      (¬AsciiDigits atom → ∃ t, ofAtom registry store atom = .ok t ∧ t.kind = .null) := by
  refine ⟨fun ascii ↦ ?_, fun foreign ↦ ?_⟩
  · have isSome : atom ≠ [] := by
      rintro rfl
      cases starts
    obtain ⟨l, rfl⟩ := exists_literal (Atom.numberLength_of_mem_atoms isAtom starts) isSome ascii
    refine ⟨l, rfl, ?_⟩
    unfold ofAtom
    rw [l.literal?_chars]
  · refine exists_ofAtom_of_startsNumber starts ?_
    rcases read : literal? atom with _ | x
    · rfl
    · exact absurd (asciiDigits_of_literal? read) foreign

/-- The number one and a half is read as it is written, and the digits one of ASCII and three of
the Arabic script in a row are null. -/
theorem ofAtom_numeric_two_scripts :
    (∃ l : Literal, l.chars = ['1', '.', '5'] ∧
      ofAtom .empty (.empty {}) ['1', '.', '5'] = .ok (number l.value)) ∧
    ∃ t, ofAtom .empty (.empty {}) ['1', '\u0663'] = .ok t ∧ t.kind = .null := by
  have first : ['1', '.', '5'] ∈ atoms ['1', '.', '5'] := by
    rw [atoms_of_length rfl (by decide)]
    exact List.mem_singleton_self _
  have second : ['1', '\u0663'] ∈ atoms ['1', '\u0663'] := by
    rw [atoms_of_length rfl (by decide)]
    exact List.mem_singleton_self _
  have ascii : AsciiDigits ['1', '.', '5'] := by
    intro c isMem isDecimal
    simp only [List.mem_cons, List.not_mem_nil, or_false] at isMem
    rcases isMem with rfl | rfl | rfl
    · rfl
    · cases isDecimal
    · rfl
  have foreign : ¬AsciiDigits ['1', '\u0663'] := by
    intro ascii
    have isDigit : '\u0663'.isDigit = true :=
      ascii '\u0663' (List.mem_cons_of_mem _ (List.mem_singleton_self _)) rfl
    cases isDigit
  exact ⟨(ofAtom_numeric .empty (.empty {}) first rfl).1 ascii,
    (ofAtom_numeric .empty (.empty {}) second rfl).2 foreign⟩

/-- A digit of ASCII and one of the Arabic script are one atom, which starts like a number and is
null. -/
theorem foreign_digit_is_null :
    ['1', '\u0663'] ∈ atoms ['1', '\u0663'] ∧ Atom.startsNumber ['1', '\u0663'] = true ∧
      ofAtom .empty (.empty {}) ['1', '\u0663'] = .ok null := by
  have whole : Atom.length '1' ['\u0663'] = 2 := by decide
  rw [atoms_of_length rfl whole]
  exact ⟨List.mem_singleton_self _, rfl, rfl⟩

end Token

end MatrixCalculator
