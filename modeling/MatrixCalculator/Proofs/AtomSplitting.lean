import MatrixCalculator.Proofs.AtomBoundaries

/-!
# Atoms by themselves

Where an atom ends is decided by the characters behind it, but none of them can make it longer than
it is: an atom that is cut out of its text is as long by itself (`Atom.length_of_append`). Splitting
a text into atoms loses nothing but blanks, which stand before, between and behind them
(`setApart_atoms`). As every quote but the last is closed, the atoms with a space between them are
split into the same atoms again (`atoms_lossless`).
-/

set_option autoImplicit false

namespace MatrixCalculator

open Text

/-! ### Atoms that are cut out -/

/-- What is taken from the whole is taken from the front alone, if it lies in the front. -/
theorem takeWhile_of_append {α : Type} {p : α → Bool} {front rest : List α}
    (inside : ((front ++ rest).takeWhile p).length ≤ front.length) :
    (front ++ rest).takeWhile p = front.takeWhile p := by
  rw [List.takeWhile_append] at inside ⊢
  split_ifs at inside ⊢ with all
  · have none : rest.takeWhile p = [] := by
      rw [List.length_append] at inside
      exact List.eq_nil_of_length_eq_zero (by omega)
    rw [none, List.append_nil]
    exact ((List.takeWhile_prefix p).eq_of_length all).symm
  · rfl

namespace Atom

section Alone

variable {front rest : List Char}

/-- Digits that count together with what stands before them are no more than there is room for. -/
theorem length_le_of_counted {digits : List Char} {before room : Nat}
    (inside : (if digits.isEmpty then 0 else before + digits.length) ≤ before + room) :
    digits.length ≤ room := by
  split_ifs at inside with none
  · rw [List.isEmpty_iff.mp none]
    exact Nat.zero_le room
  · omega

theorem fractionLength_of_append (inside : fractionLength (front ++ rest) ≤ front.length) :
    fractionLength (front ++ rest) = fractionLength front := by
  cases front with
  | nil => exact Nat.le_zero.mp inside
  | cons c front =>
    by_cases isPoint : c = '.'
    · subst isPoint
      rw [List.length_cons, Nat.add_comm] at inside
      rw [List.cons_append, fractionLength, fractionLength,
        takeWhile_of_append (length_le_of_counted inside)]
    · simp [fractionLength, isPoint]

theorem exponentLength_nil_of_append {mark : Char} (inside : exponentLength (mark :: rest) ≤ 1) :
    exponentLength (mark :: rest) = exponentLength [mark] := by
  have alone : exponentLength [mark] = 0 := by simp [exponentLength]
  rw [alone]
  rw [exponentLength] at inside ⊢
  split_ifs at inside ⊢
  · have none : ((rest.drop (signLength rest)).takeWhile isDecimalDigit).length ≤ 0 :=
      length_le_of_counted (inside.trans (Nat.le_add_right 1 (signLength rest)))
    rw [List.eq_nil_of_length_eq_zero (Nat.le_zero.mp none)]
    rfl
  · rfl

/-- A sign is the first character of a text. -/
theorem signLength_append (isSome : front ≠ []) :
    signLength (front ++ rest) = signLength front := by
  cases front with
  | nil => exact absurd rfl isSome
  | cons c front => rfl

theorem exponentLength_of_append (inside : exponentLength (front ++ rest) ≤ front.length) :
    exponentLength (front ++ rest) = exponentLength front := by
  cases front with
  | nil => exact Nat.le_zero.mp inside
  | cons mark front =>
    by_cases isSome : front = []
    · subst isSome
      exact exponentLength_nil_of_append inside
    · have sign := signLength_le front
      have dropped : (front ++ rest).drop (signLength (front ++ rest)) =
          front.drop (signLength front) ++ rest := by
        rw [signLength_append isSome, List.drop_append_of_le_length sign]
      have room : (mark :: front).length =
          1 + signLength front + (front.drop (signLength front)).length := by
        rw [List.length_cons, List.length_drop]
        omega
      rw [List.cons_append, exponentLength, room] at inside
      rw [List.cons_append, exponentLength, exponentLength]
      dsimp only at inside ⊢
      rw [dropped, signLength_append isSome] at inside ⊢
      by_cases isMark : mark = 'e' ∨ mark = 'E'
      · rw [if_pos isMark] at inside
        rw [takeWhile_of_append (length_le_of_counted inside)]
      · rw [if_neg isMark, if_neg isMark]

/-- The digits and the point of a number that lies in the front lie there too, and the exponent
behind them. -/
theorem numberLength_of_append (inside : numberLength (front ++ rest) ≤ front.length) :
    numberLength (front ++ rest) = numberLength front := by
  have mantissa : ((front ++ rest).takeWhile isDecimalDigit).length +
      fractionLength ((front ++ rest).drop ((front ++ rest).takeWhile isDecimalDigit).length) ≤
        front.length := by
    rw [numberLength] at inside
    split_ifs at inside <;> omega
  have whole := takeWhile_of_append (le_of_add_le_left mantissa)
  have dropped : (front ++ rest).drop (front.takeWhile isDecimalDigit).length =
      front.drop (front.takeWhile isDecimalDigit).length ++ rest :=
    List.drop_append_of_le_length (length_takeWhile_le front isDecimalDigit)
  rw [whole, dropped] at mantissa
  have fraction :
      fractionLength (front.drop (front.takeWhile isDecimalDigit).length ++ rest) =
        fractionLength (front.drop (front.takeWhile isDecimalDigit).length) :=
    fractionLength_of_append (by rw [List.length_drop]; omega)
  rw [fraction] at mantissa
  rw [numberLength] at inside
  rw [numberLength, numberLength]
  rw [whole, dropped, fraction, List.drop_append_of_le_length mantissa] at inside ⊢
  split_ifs at inside ⊢
  · rfl
  · rw [exponentLength_of_append]
    rw [List.length_drop]
    omega

theorem wordLength_of_append (inside : wordLength (front ++ rest) ≤ front.length) :
    wordLength (front ++ rest) = wordLength front := by
  cases front with
  | nil => exact Nat.le_zero.mp inside
  | cons c front =>
    rw [List.cons_append, wordLength, wordLength]
    rw [List.cons_append, wordLength, List.length_cons] at inside
    split_ifs at inside ⊢
    · rw [takeWhile_of_append (by omega)]
    · rfl

theorem glyphLength_of_append {c : Char}
    (inside : glyphLength c (front ++ rest) ≤ front.length + 1) :
    glyphLength c (front ++ rest) = glyphLength c front := by
  cases front with
  | nil => exact Nat.le_antisymm inside (glyphLength_pos c rest)
  | cons op front => rfl

/-- An atom that is no quote is as long by itself as it is in its text. -/
theorem length_of_append {c : Char} (notQuote : c ≠ '"')
    (inside : length c (front ++ rest) ≤ front.length + 1) :
    length c (front ++ rest) = length c front := by
  -- No form fits the front alone that does not fit the whole, because its length is the same.
  have number (within : numberLength (c :: (front ++ rest)) ≤ front.length + 1) :
      numberLength (c :: (front ++ rest)) = numberLength (c :: front) :=
    @numberLength_of_append (c :: front) rest within
  have word (within : wordLength (c :: (front ++ rest)) ≤ front.length + 1) :
      wordLength (c :: (front ++ rest)) = wordLength (c :: front) :=
    @wordLength_of_append (c :: front) rest within
  rw [length, if_neg notQuote] at inside
  rw [length, length, if_neg notQuote, if_neg notQuote]
  by_cases isNumber : 0 < numberLength (c :: (front ++ rest))
  · rw [if_pos isNumber] at inside
    rw [← number inside, if_pos isNumber, if_pos isNumber]
  rw [if_neg isNumber] at inside
  rw [← number (by omega), if_neg isNumber, if_neg isNumber]
  by_cases isMarked : (c = '!' ∨ c = '?') ∧ 0 < wordLength (front ++ rest)
  · rw [if_pos isMarked] at inside
    have marked : wordLength (front ++ rest) = wordLength front :=
      wordLength_of_append (by omega)
    rw [← marked, if_pos isMarked, if_pos isMarked]
  have notMarked : ¬((c = '!' ∨ c = '?') ∧ 0 < wordLength front) := by
    rintro ⟨isMark, isWord⟩
    have none : wordLength (front ++ rest) = 0 := by
      by_contra some
      exact isMarked ⟨isMark, Nat.pos_of_ne_zero some⟩
    have marked := wordLength_of_append (none.trans_le (Nat.zero_le front.length))
    exact isWord.ne' (marked.symm.trans none)
  rw [if_neg isMarked] at inside
  rw [if_neg isMarked, if_neg notMarked]
  by_cases isWord : 0 < wordLength (c :: (front ++ rest))
  · rw [if_pos isWord] at inside
    rw [← word inside, if_pos isWord, if_pos isWord]
  · rw [if_neg isWord] at inside
    rw [← word (by omega), if_neg isWord, if_neg isWord, glyphLength_of_append inside]

/-- An atom that is no quote takes all of itself. -/
theorem length_of_first {c : Char} {body : List Char} (notQuote : c ≠ '"')
    (first : length c (body ++ rest) = body.length + 1) : length c body = body.length + 1 :=
  (length_of_append notQuote first.le).symm.trans first

end Alone

end Atom

/-- An atom of a text starts with a character that is not blank, and by itself it is one atom. -/
theorem exists_of_mem_atoms {text atom : List Char} (isAtom : atom ∈ atoms text) :
    ∃ c body, atom = c :: body ∧ isBlank c = false ∧ Atom.length c body = body.length + 1 := by
  induction text using atoms_induction with
  | nil => simp [atoms] at isAtom
  | blank c rest blank ih =>
    rw [atoms_cons_of_isBlank blank] at isAtom
    exact ih isAtom
  | plain c body rest visible notQuote goesOn first ih =>
    rw [atoms_cons_append visible first] at isAtom
    rcases List.mem_cons.mp isAtom with rfl | inRest
    · exact ⟨c, body, rfl, visible, Atom.length_of_first notQuote first⟩
    · exact ih inRest
  | quote quoted rest none ih =>
    rw [atoms_quote none] at isAtom
    rcases List.mem_cons.mp isAtom with rfl | inRest
    · exact ⟨'"', quoted ++ ['"'], rfl, rfl, Atom.length_quote none []⟩
    · exact ih inRest
  | openQuote quoted none =>
    rw [atoms_openQuote none, List.mem_singleton] at isAtom
    exact ⟨'"', quoted, isAtom, rfl, Atom.length_openQuote none⟩

/-! ### What is between atoms -/

/-- Whether a text is made of pieces, none of them empty, in their order, with nothing but blanks
before, between and behind them. -/
inductive SetApart : List (List Char) → List Char → Prop
  | nil {gap : List Char} (blank : ∀ c ∈ gap, isBlank c = true) : SetApart [] gap
  | cons {gap piece rest : List Char} {pieces : List (List Char)}
      (blank : ∀ c ∈ gap, isBlank c = true) (isSome : piece ≠ [])
      (apart : SetApart pieces rest) : SetApart (piece :: pieces) (gap ++ (piece ++ rest))

theorem SetApart.blank {pieces : List (List Char)} {text : List Char}
    (apart : SetApart pieces text) {c : Char} (blank : isBlank c = true) :
    SetApart pieces (c :: text) := by
  cases apart with
  | nil allBlank => exact .nil (List.forall_mem_cons.mpr ⟨blank, allBlank⟩)
  | cons allBlank isSome rest =>
    rw [← List.cons_append]
    exact .cons (List.forall_mem_cons.mpr ⟨blank, allBlank⟩) isSome rest

theorem SetApart.piece {pieces : List (List Char)} {piece rest : List Char} (isSome : piece ≠ [])
    (apart : SetApart pieces rest) : SetApart (piece :: pieces) (piece ++ rest) :=
  .cons (List.forall_mem_nil _) isSome apart

/-- Nothing of a text is lost but blanks. -/
theorem setApart_atoms (text : List Char) : SetApart (atoms text) text := by
  induction text using atoms_induction with
  | nil =>
    rw [atoms]
    exact .nil (by simp)
  | blank c rest blank ih =>
    rw [atoms_cons_of_isBlank blank]
    exact ih.blank blank
  | plain c body rest visible notQuote goesOn first ih =>
    rw [atoms_cons_append visible first]
    exact ih.piece (List.cons_ne_nil c body)
  | quote quoted rest none ih =>
    have whole : '"' :: (quoted ++ '"' :: rest) = '"' :: (quoted ++ ['"']) ++ rest := by simp
    rw [atoms_quote none, whole]
    exact ih.piece (List.cons_ne_nil _ _)
  | openQuote quoted none =>
    rw [atoms_openQuote none]
    have last : SetApart ['"' :: quoted] (('"' :: quoted) ++ []) :=
      (SetApart.nil (by simp)).piece (List.cons_ne_nil _ _)
    rwa [List.append_nil] at last

/-- Splitting a text loses nothing but blanks, and splitting the atoms with a space between them
gives the same atoms. -/
theorem atoms_lossless (text : List Char) :
    SetApart (atoms text) text ∧ atoms ([' '].intercalate (atoms text)) = atoms text := by
  refine ⟨setApart_atoms text, ?_⟩
  induction text using atoms_induction with
  | nil => simp [atoms]
  | blank c rest blank ih => rw [atoms_cons_of_isBlank blank, ih]
  | plain c body rest visible notQuote goesOn first ih =>
    have alone : atoms (c :: body) = [c :: body] :=
      atoms_of_length visible (Atom.length_of_first notQuote first)
    rw [atoms_cons_append visible first]
    exact atoms_intercalate_cons alone (quotesClosed_plain notQuote goesOn) ih
  | quote quoted rest none ih =>
    have alone : atoms ('"' :: (quoted ++ ['"'])) = ['"' :: (quoted ++ ['"'])] := by
      rw [atoms_quote none, atoms]
    rw [atoms_quote none]
    exact atoms_intercalate_cons alone (quotesClosed_quote none) ih
  | openQuote quoted none =>
    rw [atoms_openQuote none, List.intercalate_singleton, atoms_openQuote none]

end MatrixCalculator
