import MatrixCalculator.Atom
import MatrixCalculator.Proofs.AssignmentSides

/-!
# Where atoms end

An atom goes as far as it can, so what follows it decides where it ends. Some characters end every
atom but a quote (`Atom.Stops`): blanks are among them, the equals sign, the comma and the closing
parenthesis. Before such a character a text has the atoms that it has by itself, as long as all its
quotes are closed (`atoms_append_cons`). Squeezing a text changes none of its atoms, except for
blanks inside quotes (`atoms_squeeze`).
-/

set_option autoImplicit false

namespace MatrixCalculator

open Text

theorem isDigit_of_isDecimalDigit_eq_false {c : Char} (noDigit : isDecimalDigit c = false) :
    c.isDigit = false := by
  by_contra isDigit
  rw [isDecimalDigit_of_isDigit (Bool.not_eq_false _ ▸ isDigit)] at noDigit
  cases noDigit

namespace Atom

/-! ### Characters that end an atom -/

/-- Whether no atom but a quote goes on with the character. -/
structure Stops (c : Char) : Prop where
  notRest : Name.isRest c = false
  notDigit : isDecimalDigit c = false
  notMark : c ∉ ['.', '+', '-', '*', '/', '^']

theorem stops_comma : Stops ',' := ⟨by decide, by decide, by decide⟩

theorem stops_rightBrace : Stops ')' := ⟨by decide, by decide, by decide⟩

theorem stops_quote : Stops '"' := ⟨by decide, by decide, by decide⟩

/-- No digit of any script is blank. -/
theorem isBlank_of_isDecimalDigit {c : Char} (isDigit : isDecimalDigit c = true) :
    isBlank c = false := by
  have visible : ∀ first ∈ digitZeros, ∀ k < 10, isBlank (Char.ofNat (first + k)) = false := by
    decide +kernel
  rw [isDecimalDigit, List.any_eq_true] at isDigit
  obtain ⟨first, isFirst, bounds⟩ := isDigit
  rw [Bool.and_eq_true, decide_eq_true_eq, decide_eq_true_eq] at bounds
  have ofPoint := visible first isFirst (c.toNat - first) (by omega)
  rwa [Nat.add_sub_cancel' bounds.1, Char.ofNat_toNat] at ofPoint

theorem stops_of_isBlank {c : Char} (blank : isBlank c = true) : Stops c := by
  refine ⟨?_, ?_, ?_⟩
  · by_contra isRest
    rw [Name.isBlank_of_isRest (Bool.not_eq_false _ ▸ isRest)] at blank
    cases blank
  · by_contra isDigit
    rw [isBlank_of_isDecimalDigit (Bool.not_eq_false _ ▸ isDigit)] at blank
    cases blank
  · intro isMark
    simp only [List.mem_cons, List.not_mem_nil, or_false] at isMark
    rcases isMark with rfl | rfl | rfl | rfl | rfl | rfl <;> cases blank

theorem isBlank_of_not_stops {c : Char} (notStops : ¬Stops c) : isBlank c = false := by
  by_contra blank
  exact notStops (stops_of_isBlank (Bool.not_eq_false _ ▸ blank))

/-! ### How far an atom goes -/

/-- Nothing is taken from an element on that does not belong. -/
theorem takeWhile_append_cons {α : Type} {p : α → Bool} {x : α} (front rest : List α)
    (notHere : p x = false) : (front ++ x :: rest).takeWhile p = front.takeWhile p := by
  induction front with
  | nil => simp [notHere]
  | cons c front ih => rw [List.cons_append, List.takeWhile_cons, List.takeWhile_cons, ih]

section Length

variable {x : Char} (stops : Stops x) (front rest : List Char)

theorem length_takeWhile_le (p : Char → Bool) : (front.takeWhile p).length ≤ front.length :=
  (List.takeWhile_sublist p).length_le

theorem fractionLength_le : fractionLength front ≤ front.length := by
  unfold fractionLength
  split
  · rename_i tail
    have := length_takeWhile_le tail isDecimalDigit
    dsimp only
    split <;> simp only [List.length_cons] <;> omega
  · omega

theorem signLength_le : signLength front ≤ front.length := by
  cases front with
  | nil => exact Nat.le_refl 0
  | cons c tail =>
    rw [signLength, List.length_cons]
    split_ifs <;> omega

theorem exponentLength_le : exponentLength front ≤ front.length := by
  cases front with
  | nil => exact Nat.le_refl 0
  | cons mark tail =>
    have sign := signLength_le tail
    have digits := length_takeWhile_le (tail.drop (signLength tail)) isDecimalDigit
    rw [List.length_drop] at digits
    simp only [exponentLength, List.length_cons]
    split_ifs <;> omega

/-- The digits and the point of a number. -/
theorem mantissaLength_le :
    (front.takeWhile isDecimalDigit).length +
      fractionLength (front.drop (front.takeWhile isDecimalDigit).length) ≤ front.length := by
  have whole := length_takeWhile_le front isDecimalDigit
  have fraction := fractionLength_le (front.drop (front.takeWhile isDecimalDigit).length)
  rw [List.length_drop] at fraction
  omega

theorem numberLength_le : numberLength front ≤ front.length := by
  have mantissa := mantissaLength_le front
  unfold numberLength
  dsimp only
  split_ifs with none
  · omega
  · have exponent := exponentLength_le (front.drop ((front.takeWhile isDecimalDigit).length +
      fractionLength (front.drop (front.takeWhile isDecimalDigit).length)))
    rw [List.length_drop] at exponent
    omega

theorem wordLength_le : wordLength front ≤ front.length := by
  unfold wordLength
  split
  · rename_i c tail
    have := length_takeWhile_le tail Name.isRest
    split <;> simp only [List.length_cons] <;> omega
  · omega

theorem glyphLength_le (c : Char) : glyphLength c front ≤ front.length + 1 := by
  cases front with
  | nil => exact Nat.le_refl 1
  | cons op tail =>
    rw [glyphLength, List.length_cons]
    split_ifs <;> omega

/-- An atom does not go beyond the text. -/
theorem length_le (c : Char) : length c front ≤ front.length + 1 := by
  have quoted := length_takeWhile_le front (· != '"')
  have number := numberLength_le (c :: front)
  have word := wordLength_le (c :: front)
  have wordBehind := wordLength_le front
  rw [List.length_cons] at number word
  unfold length
  split_ifs
  · dsimp only
    split_ifs <;> omega
  · exact number
  · omega
  · exact word
  · exact glyphLength_le front c

section Stopped

include stops

theorem fractionLength_append_cons :
    fractionLength (front ++ x :: rest) = fractionLength front := by
  cases front with
  | nil =>
    have notPoint : x ≠ '.' := fun same ↦ stops.notMark (by simp [same])
    unfold fractionLength
    split
    · rename_i same
      exact absurd (List.cons.inj same).1 notPoint
    · rfl
  | cons c front =>
    by_cases isPoint : c = '.'
    · subst isPoint
      simp only [List.cons_append, fractionLength, takeWhile_append_cons front rest stops.notDigit]
    · simp [fractionLength, isPoint]

theorem ne_of_mem_marks {mark : Char} (isMark : mark ∈ ['.', '+', '-', '*', '/', '^']) :
    x ≠ mark := by
  rintro rfl
  exact stops.notMark isMark

theorem ne_of_isRest {c : Char} (isRest : Name.isRest c = true) : x ≠ c := by
  rintro rfl
  rw [stops.notRest] at isRest
  cases isRest

theorem signLength_append_cons : signLength (front ++ x :: rest) = signLength front := by
  cases front with
  | nil =>
    have notSign : ¬(x = '+' ∨ x = '-') :=
      not_or.mpr ⟨ne_of_mem_marks stops (by simp), ne_of_mem_marks stops (by simp)⟩
    rw [List.nil_append, signLength, if_neg notSign, signLength]
  | cons c front => rfl

theorem exponentLength_append_cons :
    exponentLength (front ++ x :: rest) = exponentLength front := by
  cases front with
  | nil =>
    have notMark : ¬(x = 'e' ∨ x = 'E') :=
      not_or.mpr ⟨ne_of_isRest stops (by decide), ne_of_isRest stops (by decide)⟩
    rw [List.nil_append, exponentLength, if_neg notMark, exponentLength]
  | cons c front =>
    have dropped : (front ++ x :: rest).drop (signLength front) =
        front.drop (signLength front) ++ x :: rest :=
      List.drop_append_of_le_length (signLength_le front)
    simp only [List.cons_append, exponentLength, signLength_append_cons stops, dropped,
      takeWhile_append_cons _ _ stops.notDigit]

theorem numberLength_append_cons :
    numberLength (front ++ x :: rest) = numberLength front := by
  have whole := takeWhile_append_cons front rest stops.notDigit
  have mantissa := mantissaLength_le front
  have droppedWhole : (front ++ x :: rest).drop (front.takeWhile isDecimalDigit).length =
      front.drop (front.takeWhile isDecimalDigit).length ++ x :: rest :=
    List.drop_append_of_le_length (length_takeWhile_le front _)
  simp only [numberLength, whole, droppedWhole, fractionLength_append_cons stops]
  rw [List.drop_append_of_le_length mantissa, exponentLength_append_cons stops]

theorem wordLength_append_cons : wordLength (front ++ x :: rest) = wordLength front := by
  cases front with
  | nil =>
    have notStart : ¬Name.isStart x = true := fun isStart ↦
      ne_of_isRest stops (Name.isRest_of_isStart isStart) rfl
    rw [List.nil_append, wordLength, if_neg notStart, wordLength]
  | cons c front =>
    simp only [List.cons_append, wordLength, takeWhile_append_cons _ _ stops.notRest]

theorem glyphLength_append_cons (c : Char) :
    glyphLength c (front ++ x :: rest) = glyphLength c front := by
  cases front with
  | nil =>
    have notOperator : ¬(c = '.' ∧ (x = '*' ∨ x = '/' ∨ x = '^')) := by
      rintro ⟨-, isOperator⟩
      rcases isOperator with rfl | rfl | rfl <;> exact stops.notMark (by simp)
    rw [List.nil_append, glyphLength, if_neg notOperator, glyphLength]
  | cons op front => rfl

/-- An atom that is no quote ends where a character stops it, if not before. -/
theorem length_append_cons {c : Char} (notQuote : c ≠ '"') :
    length c (front ++ x :: rest) = length c front := by
  have number := numberLength_append_cons stops (c :: front) rest
  have word := wordLength_append_cons stops (c :: front) rest
  rw [List.cons_append] at number word
  simp only [length, if_neg notQuote, number, word, wordLength_append_cons stops,
    glyphLength_append_cons stops]

end Stopped

end Length

/-! ### Atoms by their first character -/

theorem toNat_of_isStart {c : Char} (isStart : Name.isStart c = true) :
    65 ≤ c.toNat ∧ c.toNat ≤ 122 := by
  have bounds := Name.toNat_of_isRest (Name.isRest_of_isStart isStart)
  refine ⟨?_, bounds.2⟩
  simp only [Name.isStart, Char.isAlpha, Char.isUpper, Char.isLower, Bool.or_eq_true,
    Bool.and_eq_true, decide_eq_true_eq, beq_iff_eq, ge_iff_le, UInt32.le_iff_toNat_le] at isStart
  rcases isStart with (⟨low, -⟩ | ⟨low, -⟩) | rfl
  · exact low
  · exact Nat.le_trans (by decide) low
  · decide

/-- A name starts with no digit of any script. -/
theorem isDecimalDigit_of_isStart {c : Char} (isStart : Name.isStart c = true) :
    isDecimalDigit c = false := by
  have onlyAscii : ∀ first ∈ digitZeros, first ≤ 122 → first = 48 := by decide
  have bounds := toNat_of_isStart isStart
  by_contra isDigit
  rw [Bool.not_eq_false, isDecimalDigit, List.any_eq_true] at isDigit
  obtain ⟨first, isFirst, within⟩ := isDigit
  rw [Bool.and_eq_true, decide_eq_true_eq, decide_eq_true_eq] at within
  have := onlyAscii first isFirst (by omega)
  omega

theorem numberLength_cons {c : Char} (notDigit : isDecimalDigit c = false) (notPoint : c ≠ '.')
    (rest : List Char) : numberLength (c :: rest) = 0 := by
  have noFraction : fractionLength (c :: rest) = 0 := by simp [fractionLength, notPoint]
  simp [numberLength, notDigit, noFraction]

theorem wordLength_cons {c : Char} (isStart : Name.isStart c = true) (rest : List Char) :
    wordLength (c :: rest) = 1 + (rest.takeWhile Name.isRest).length := by
  rw [wordLength, if_pos isStart]

/-- A word goes on as long as names do. -/
theorem length_of_isStart {c : Char} (isStart : Name.isStart c = true) (rest : List Char) :
    length c rest = 1 + (rest.takeWhile Name.isRest).length := by
  have other {d : Char} (noStart : Name.isStart d = false) : c ≠ d := by
    rintro rfl
    rw [isStart] at noStart
    cases noStart
  have noNumber := numberLength_cons (isDecimalDigit_of_isStart isStart) (other rfl) rest
  rw [length, if_neg (other rfl), noNumber, wordLength_cons isStart,
    if_neg (Nat.lt_irrefl 0), if_neg (fun marked ↦ marked.1.elim (other rfl) (other rfl)),
    if_pos (by omega)]

/-- Whether a character is an atom by itself, whatever stands behind it. -/
structure Single (c : Char) : Prop where
  notMark : c ∉ ['"', '.', '!', '?']
  notDigit : isDecimalDigit c = false
  notStart : Name.isStart c = false

theorem Single.length {c : Char} (single : Single c) (rest : List Char) :
    Atom.length c rest = 1 := by
  obtain ⟨notQuote, notPoint, notCall, notQuery⟩ : c ≠ '"' ∧ c ≠ '.' ∧ c ≠ '!' ∧ c ≠ '?' := by
    simpa using single.notMark
  have noNumber := numberLength_cons single.notDigit notPoint rest
  have noWord : wordLength (c :: rest) = 0 := by simp [wordLength, single.notStart]
  have glyph : glyphLength c rest = 1 := by cases rest <;> simp [glyphLength, notPoint]
  simp [Atom.length, notQuote, notCall, notQuery, noNumber, noWord, glyph]

/-- A word behind an exclamation or question mark belongs to the mark. -/
theorem length_marked {mark : Char} (isMark : mark = '!' ∨ mark = '?') {name : List Char}
    (isName : Name.isIdentifier name = true) : length mark name = name.length + 1 := by
  obtain ⟨notQuote, notPoint, notDigit⟩ :
      mark ≠ '"' ∧ mark ≠ '.' ∧ isDecimalDigit mark = false := by
    rcases isMark with rfl | rfl <;> exact ⟨by decide, by decide, rfl⟩
  have word : wordLength name = name.length := by
    cases name with
    | nil => cases isName
    | cons c rest =>
      rw [Name.isIdentifier, Bool.and_eq_true, List.all_eq_true] at isName
      rw [wordLength_cons isName.1, List.takeWhile_eq_self_iff.mpr isName.2, List.length_cons,
        Nat.add_comm]
  have notEmpty : 0 < name.length :=
    List.length_pos_iff.mpr (Name.isWord_of_isIdentifier isName).1
  simp [length, notQuote, numberLength_cons notDigit notPoint, isMark, word, notEmpty,
    Nat.add_comm]

/-- A quote ends at the next quote. -/
theorem length_quote {quoted : List Char} (none : '"' ∉ quoted) (rest : List Char) :
    length '"' (quoted ++ '"' :: rest) = (quoted ++ ['"']).length + 1 := by
  have all : quoted.takeWhile (· != '"') = quoted := by
    rw [List.takeWhile_eq_self_iff]
    intro c isMem
    simpa using fun same : c = '"' ↦ none (same ▸ isMem)
  simp [length, takeWhile_append_cons, all]

/-- A quote without a next quote takes all that follows. -/
theorem length_openQuote {quoted : List Char} (none : '"' ∉ quoted) :
    length '"' quoted = quoted.length + 1 := by
  have all : quoted.takeWhile (· != '"') = quoted := by
    rw [List.takeWhile_eq_self_iff]
    intro c isMem
    simpa using fun same : c = '"' ↦ none (same ▸ isMem)
  simp [length, all]

/-- An atom that is no quote goes on with no character that stops atoms. -/
theorem not_stops_of_mem_body {c : Char} (notQuote : c ≠ '"') {body rest : List Char}
    (first : length c (body ++ rest) = body.length + 1) : ∀ d ∈ body, ¬Stops d := by
  intro d isMem stops
  obtain ⟨front, behind, rfl⟩ := List.append_of_mem isMem
  have stopped := length_append_cons stops front (behind ++ rest) notQuote
  have inside := length_le front c
  rw [List.append_assoc, List.cons_append, stopped] at first
  simp only [List.length_append, List.length_cons] at first
  omega

end Atom

/-! ### Atom by atom -/

theorem atoms_cons_of_isBlank {c : Char} (blank : isBlank c = true) (rest : List Char) :
    atoms (c :: rest) = atoms rest := by
  rw [atoms, if_pos blank]

theorem atoms_cons_append {c : Char} (visible : isBlank c = false) {body rest : List Char}
    (first : Atom.length c (body ++ rest) = body.length + 1) :
    atoms (c :: (body ++ rest)) = (c :: body) :: atoms rest := by
  rw [atoms, if_neg (by simp [visible]), first]
  simp

theorem atoms_quote {quoted : List Char} (none : '"' ∉ quoted) (rest : List Char) :
    atoms ('"' :: (quoted ++ '"' :: rest)) = ('"' :: (quoted ++ ['"'])) :: atoms rest := by
  have first := Atom.length_quote none rest
  rw [List.append_cons] at first ⊢
  exact atoms_cons_append rfl first

theorem atoms_openQuote {quoted : List Char} (none : '"' ∉ quoted) :
    atoms ('"' :: quoted) = ['"' :: quoted] := by
  have first : Atom.length '"' (quoted ++ []) = quoted.length + 1 := by
    rw [List.append_nil, Atom.length_openQuote none]
  have single := atoms_cons_append rfl first
  rwa [List.append_nil, atoms] at single

theorem atoms_of_length {c : Char} (visible : isBlank c = false) {body : List Char}
    (whole : Atom.length c body = body.length + 1) : atoms (c :: body) = [c :: body] := by
  have first : Atom.length c (body ++ []) = body.length + 1 := by rwa [List.append_nil]
  have single := atoms_cons_append visible first
  rwa [List.append_nil, atoms] at single

/-- A name is one atom, unless what stands behind it can be part of it. -/
theorem atoms_name_append {name behind : List Char} (isName : Name.isIdentifier name = true)
    (ends : ∀ c ∈ behind.head?, Name.isRest c = false) :
    atoms (name ++ behind) = name :: atoms behind := by
  have visible := (Name.isWord_of_isIdentifier isName).2
  cases name with
  | nil => cases isName
  | cons c rest =>
    rw [Name.isIdentifier, Bool.and_eq_true, List.all_eq_true] at isName
    refine atoms_cons_append (visible c List.mem_cons_self) ?_
    have run : (rest ++ behind).takeWhile Name.isRest = rest := by
      rw [List.takeWhile_append_of_pos isName.2]
      cases behind with
      | nil => simp
      | cons d behind => simp [ends d rfl]
    rw [Atom.length_of_isStart isName.1, run, Nat.add_comm]

theorem atoms_name {name : List Char} (isName : Name.isIdentifier name = true) :
    atoms name = [name] := by
  have nothing : ∀ c ∈ ([] : List Char).head?, Name.isRest c = false := by simp
  have alone := atoms_name_append isName nothing
  rwa [List.append_nil, atoms] at alone

theorem atoms_cons_of_single {c : Char} (visible : isBlank c = false) (single : Atom.Single c)
    (rest : List Char) : atoms (c :: rest) = [c] :: atoms rest := by
  have first : Atom.length c ([] ++ rest) = ([] : List Char).length + 1 := single.length rest
  exact atoms_cons_append visible first

/-- What holds of a text as soon as it holds of what follows the first blank or the first atom holds
of every text. An atom is a quote, which is closed or not, or goes on with no character that stops
atoms. -/
@[elab_as_elim]
theorem atoms_induction {motive : List Char → Prop} (nil : motive [])
    (blank : ∀ c rest, isBlank c = true → motive rest → motive (c :: rest))
    (plain : ∀ c body rest, isBlank c = false → c ≠ '"' → (∀ d ∈ body, ¬Atom.Stops d) →
      Atom.length c (body ++ rest) = body.length + 1 → motive rest → motive (c :: (body ++ rest)))
    (quote : ∀ quoted rest, '"' ∉ quoted → motive rest → motive ('"' :: (quoted ++ '"' :: rest)))
    (openQuote : ∀ quoted, '"' ∉ quoted → motive ('"' :: quoted)) (text : List Char) :
    motive text := by
  induction size : text.length using Nat.strong_induction_on generalizing text with
  | _ n ih =>
    subst size
    cases text with
    | nil => exact nil
    | cons c rest =>
      cases here : isBlank c with
      | true => exact blank c rest here (ih rest.length (by simp) rest rfl)
      | false =>
        by_cases isQuote : c = '"'
        · subst isQuote
          by_cases closed : '"' ∈ rest
          · obtain ⟨quoted, rest, rfl, none⟩ := List.eq_append_cons_of_mem closed
            have shorter : rest.length < ('"' :: (quoted ++ '"' :: rest)).length := by
              simp only [List.length_cons, List.length_append]
              omega
            exact quote quoted rest none (ih rest.length shorter rest rfl)
          · exact openQuote rest closed
        · have isFirst := Atom.length_pos c rest
          have inside := Atom.length_le rest c
          obtain ⟨body, rest, rfl, taken⟩ :
              ∃ body behind, rest = body ++ behind ∧ body.length = Atom.length c rest - 1 :=
            ⟨rest.take (Atom.length c rest - 1), rest.drop (Atom.length c rest - 1),
              (List.take_append_drop _ _).symm, by rw [List.length_take]; omega⟩
          have first : Atom.length c (body ++ rest) = body.length + 1 := by omega
          have shorter : rest.length < (c :: (body ++ rest)).length := by
            simp only [List.length_cons, List.length_append]
            omega
          exact plain c body rest here isQuote (Atom.not_stops_of_mem_body isQuote first) first
            (ih rest.length shorter rest rfl)

/-- The characters of an atom are characters of the text. -/
theorem mem_of_mem_atoms {text atom : List Char} (isAtom : atom ∈ atoms text) {c : Char}
    (isMem : c ∈ atom) : c ∈ text := by
  induction text using atoms_induction with
  | nil => simp [atoms] at isAtom
  | blank d rest blank ih =>
    rw [atoms_cons_of_isBlank blank] at isAtom
    exact List.mem_cons_of_mem d (ih isAtom)
  | plain d body rest visible notQuote goesOn first ih =>
    rw [atoms_cons_append visible first] at isAtom
    rw [← List.cons_append]
    rcases List.mem_cons.mp isAtom with rfl | inRest
    · exact List.mem_append_left rest isMem
    · exact List.mem_append_right _ (ih inRest)
  | quote quoted rest none ih =>
    rw [atoms_quote none] at isAtom
    rw [List.append_cons, ← List.cons_append]
    rcases List.mem_cons.mp isAtom with rfl | inRest
    · exact List.mem_append_left rest isMem
    · exact List.mem_append_right _ (ih inRest)
  | openQuote quoted none =>
    rw [atoms_openQuote none, List.mem_singleton] at isAtom
    exact isAtom ▸ isMem

/-! ### Quotes that are closed -/

/-- Whether every quote of a text is closed. -/
def QuotesClosed (text : List Char) : Prop :=
  text.count '"' % 2 = 0

theorem quotesClosed_of_not_mem {text : List Char} (none : '"' ∉ text) : QuotesClosed text := by
  rw [QuotesClosed, List.count_eq_zero.mpr none]

theorem quotesClosed_append_iff {front : List Char} (closed : QuotesClosed front)
    (behind : List Char) : QuotesClosed (front ++ behind) ↔ QuotesClosed behind := by
  unfold QuotesClosed at closed ⊢
  rw [List.count_append]
  omega

theorem quotesClosed_quote {quoted : List Char} (none : '"' ∉ quoted) :
    QuotesClosed ('"' :: (quoted ++ ['"'])) := by
  simp [QuotesClosed, List.count_eq_zero.mpr none]

/-- An atom that is no quote holds none. -/
theorem quotesClosed_plain {c : Char} (notQuote : c ≠ '"') {body : List Char}
    (goesOn : ∀ d ∈ body, ¬Atom.Stops d) : QuotesClosed (c :: body) := by
  refine quotesClosed_of_not_mem fun isMem ↦ ?_
  rcases List.mem_cons.mp isMem with same | inBody
  · exact notQuote same.symm
  · exact goesOn _ inBody Atom.stops_quote

theorem quotesClosed_cons_iff_of_isBlank {c : Char} (blank : isBlank c = true)
    (rest : List Char) : QuotesClosed (c :: rest) ↔ QuotesClosed rest := by
  have alone : QuotesClosed [c] := by
    refine quotesClosed_of_not_mem fun isMem ↦ ?_
    rw [← List.mem_singleton.mp isMem] at blank
    cases blank
  exact quotesClosed_append_iff alone rest

/-- A quote that is not closed is the last one in its text. -/
theorem exists_openQuote {text : List Char} (notClosed : ¬QuotesClosed text) :
    ∃ front quoted, text = front ++ '"' :: quoted ∧ QuotesClosed front ∧ '"' ∉ quoted := by
  have isMem : '"' ∈ text.reverse := by
    rw [List.mem_reverse]
    by_contra none
    exact notClosed (quotesClosed_of_not_mem none)
  obtain ⟨quoted, front, parts, none⟩ := List.eq_append_cons_of_mem isMem
  have counted : text.count '"' = front.count '"' + 1 := by
    rw [← List.count_reverse, parts, List.count_append, List.count_eq_zero.mpr none,
      List.count_cons_self, Nat.zero_add]
  refine ⟨front.reverse, quoted.reverse, ?_, ?_, by simpa using none⟩
  · rw [← List.reverse_reverse text, parts]
    simp
  · unfold QuotesClosed at notClosed ⊢
    rw [List.count_reverse]
    omega

/-- Before a character that stops atoms a text whose quotes are closed has the atoms that it has by
itself. -/
theorem atoms_append_cons {x : Char} (stops : Atom.Stops x) {front : List Char}
    (closed : QuotesClosed front) (rest : List Char) :
    atoms (front ++ x :: rest) = atoms front ++ atoms (x :: rest) := by
  induction front using atoms_induction with
  | nil => simp [atoms]
  | blank c front blank ih =>
    rw [quotesClosed_cons_iff_of_isBlank blank] at closed
    rw [List.cons_append, atoms_cons_of_isBlank blank, atoms_cons_of_isBlank blank, ih closed]
  | plain c body front visible notQuote goesOn first ih =>
    have longer : Atom.length c (body ++ (front ++ x :: rest)) = body.length + 1 := by
      rw [← List.append_assoc, Atom.length_append_cons stops _ _ notQuote, first]
    rw [← List.cons_append,
      quotesClosed_append_iff (quotesClosed_plain notQuote goesOn)] at closed
    rw [List.cons_append, List.append_assoc, atoms_cons_append visible longer,
      atoms_cons_append visible first, ih closed, List.cons_append]
  | quote quoted front none ih =>
    rw [List.append_cons, ← List.cons_append,
      quotesClosed_append_iff (quotesClosed_quote none)] at closed
    rw [List.cons_append, List.append_assoc, List.cons_append, atoms_quote none, atoms_quote none,
      ih closed, List.cons_append]
  | openQuote quoted none =>
    simp [QuotesClosed, List.count_eq_zero.mpr none] at closed

/-- In front of other atoms, with a space between them, a closed atom stays as it is. -/
theorem atoms_intercalate_cons {atom : List Char} {others : List (List Char)}
    (alone : atoms atom = [atom]) (closed : QuotesClosed atom)
    (same : atoms ([' '].intercalate others) = others) :
    atoms ([' '].intercalate (atom :: others)) = atom :: others := by
  cases others with
  | nil => rw [List.intercalate_singleton, alone]
  | cons next others =>
    have stops : Atom.Stops ' ' := Atom.stops_of_isBlank rfl
    rw [List.intercalate_cons_cons, List.append_assoc, List.singleton_append,
      atoms_append_cons stops closed, alone, atoms_cons_of_isBlank rfl, same,
      List.singleton_append]

/-! ### Atoms and spacing -/

theorem collapse_append_of_forall {body : List Char} (visible : ∀ d ∈ body, isBlank d = false)
    (rest : List Char) : collapse (body ++ rest) = body ++ collapse rest := by
  induction body with
  | nil => rfl
  | cons d body ih =>
    rw [List.forall_mem_cons] at visible
    rw [List.cons_append, collapse, if_neg (by simp [visible.1]), ih visible.2, List.cons_append]

/-- How far an atom goes does not depend on how many blanks there are anywhere behind it. -/
theorem Atom.length_append_collapse {c : Char} (notQuote : c ≠ '"') (body rest : List Char) :
    Atom.length c (body ++ collapse rest) = Atom.length c (body ++ rest) := by
  induction rest generalizing body with
  | nil => rfl
  | cons d rest ih =>
    cases blank : isBlank d with
    | true =>
      rw [collapse_cons_of_isBlank blank, length_append_cons (stops_of_isBlank rfl) _ _ notQuote,
        length_append_cons (stops_of_isBlank blank) _ _ notQuote]
    | false =>
      have kept : collapse (d :: rest) = d :: collapse rest := by simp [collapse, blank]
      rw [kept, List.append_cons, ih, ← List.append_cons]

theorem not_mem_collapse_of_not_mem {text : List Char} (none : '"' ∉ text) :
    '"' ∉ collapse text :=
  fun isMem ↦ (mem_collapse isMem).elim (by decide) none

theorem collapse_of_forall {text : List Char} (visible : ∀ c ∈ text, isBlank c = false) :
    collapse text = text := by
  have alone := collapse_append_of_forall visible []
  rwa [List.append_nil, collapse, List.append_nil] at alone

/-- The atoms of a text with one space for every stretch of blanks are those of the text, with the
blanks inside quotes written so too. -/
theorem atoms_collapse (text : List Char) : atoms (collapse text) = (atoms text).map collapse := by
  induction text using atoms_induction with
  | nil => simp [collapse, atoms]
  | blank c rest blank ih =>
    rw [atoms_cons_of_isBlank blank, ← ih, collapse]
    split_ifs
    · rfl
    · exact atoms_cons_of_isBlank rfl _
  | plain c body rest visible notQuote goesOn first ih =>
    have allVisible : ∀ d ∈ c :: body, isBlank d = false :=
      List.forall_mem_cons.mpr ⟨visible, fun d isMem ↦ Atom.isBlank_of_not_stops (goesOn d isMem)⟩
    have collapsed : collapse (c :: (body ++ rest)) = c :: (body ++ collapse rest) :=
      collapse_append_of_forall allVisible rest
    have firstCollapsed : Atom.length c (body ++ collapse rest) = body.length + 1 := by
      rw [Atom.length_append_collapse notQuote, first]
    rw [collapsed, atoms_cons_append visible firstCollapsed, atoms_cons_append visible first, ih,
      List.map_cons, collapse_of_forall allVisible]
  | quote quoted rest none ih =>
    have noneCollapsed := not_mem_collapse_of_not_mem none
    have collapsed (rest : List Char) : collapse ('"' :: (quoted ++ '"' :: rest)) =
        '"' :: (collapse quoted ++ '"' :: collapse rest) := by
      rw [collapse, if_neg (by decide), collapse_append_cons rfl]
    rw [collapsed, atoms_quote noneCollapsed, atoms_quote none, List.map_cons, ih, collapsed,
      collapse]
  | openQuote quoted none =>
    have collapsed : collapse ('"' :: quoted) = '"' :: collapse quoted := by
      rw [collapse, if_neg (by decide)]
    rw [collapsed, atoms_openQuote (not_mem_collapse_of_not_mem none), atoms_openQuote none,
      List.map_singleton, collapsed]

theorem atoms_of_forall_isBlank {text : List Char} (blank : ∀ c ∈ text, isBlank c = true) :
    atoms text = [] := by
  induction text with
  | nil => rw [atoms]
  | cons c rest ih =>
    rw [List.forall_mem_cons] at blank
    rw [atoms_cons_of_isBlank blank.1, ih blank.2]

theorem atoms_append_of_forall_isBlank {front blanks : List Char} (closed : QuotesClosed front)
    (blank : ∀ c ∈ blanks, isBlank c = true) : atoms (front ++ blanks) = atoms front := by
  cases blanks with
  | nil => rw [List.append_nil]
  | cons c blanks =>
    rw [atoms_append_cons (Atom.stops_of_isBlank (blank c List.mem_cons_self)) closed,
      atoms_of_forall_isBlank blank, List.append_nil]

theorem atoms_trimStart (text : List Char) : atoms (trimStart text) = atoms text := by
  induction text with
  | nil => rfl
  | cons c rest ih =>
    cases blank : isBlank c with
    | true => rw [trimStart_cons_of_isBlank blank, ih, atoms_cons_of_isBlank blank]
    | false => rw [trimStart_cons_of_not_isBlank blank]

theorem quotesClosed_trim_iff (text : List Char) :
    QuotesClosed (trim text) ↔ QuotesClosed text := by
  rw [QuotesClosed, count_trim rfl, QuotesClosed]

theorem atoms_trim {text : List Char} (closed : QuotesClosed text) :
    atoms (trim text) = atoms text := by
  obtain ⟨blanks, parts, blank⟩ := exists_trimEnd_append (trimStart text)
  have trimmed : QuotesClosed (trimEnd (trimStart text)) := (quotesClosed_trim_iff text).mpr closed
  rw [← atoms_trimStart text, trim]
  conv_rhs => rw [parts, atoms_append_of_forall_isBlank trimmed blank]

/-- Squeezing a text changes none of its atoms, except for blanks inside quotes. -/
theorem atoms_squeeze {text : List Char} (closed : QuotesClosed text) :
    atoms (squeeze text) = (atoms text).map collapse := by
  have collapsed : QuotesClosed (collapse text) := by rwa [QuotesClosed, count_collapse rfl]
  rw [squeeze_eq_trim_collapse, atoms_trim collapsed, atoms_collapse]

end MatrixCalculator
