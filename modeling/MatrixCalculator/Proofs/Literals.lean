import MatrixCalculator.Proofs.AtomBoundaries
import MatrixCalculator.Token.Reading

/-!
# Literals

The grammar of numbers in digits of ASCII: digits with at most one point among or before them, and
an exponent or none. A `Literal` is one atom as far as it goes (`Literal.numberLength_chars`), and
that atom is read as the number it stands for (`Literal.literal?_chars`).
-/

set_option autoImplicit false

namespace MatrixCalculator

open Text

/-- An exponent as it is written. -/
structure Exponent where
  mark : Char
  isMark : mark = 'e' ∨ mark = 'E'
  sign : List Char
  isSign : sign = [] ∨ sign = ['+'] ∨ sign = ['-']
  digits : List Char
  areDigits : ∀ c ∈ digits, c.isDigit = true
  notEmpty : digits ≠ []

/-- A number as it is written, in digits before the point and digits behind it. -/
structure Literal where
  whole : List Char
  fraction : List Char
  exponent : Option Exponent
  wholeDigits : ∀ c ∈ whole, c.isDigit = true
  fractionDigits : ∀ c ∈ fraction, c.isDigit = true
  notEmpty : whole ≠ [] ∨ fraction ≠ []

namespace Exponent

/-- The characters of an exponent. -/
def chars (e : Exponent) : List Char :=
  e.mark :: (e.sign ++ e.digits)

/-- The power of ten that an exponent stands for. -/
def value (e : Exponent) : Int :=
  if e.sign = ['-'] then -(Number.ofDigits e.digits : Int) else Number.ofDigits e.digits

end Exponent

namespace Literal

/-- The point and the digits behind it; without digits there is no point. -/
def fractionChars (l : Literal) : List Char :=
  if l.fraction = [] then [] else '.' :: l.fraction

/-- The characters of the exponent, none without one. -/
def exponentChars (l : Literal) : List Char :=
  (l.exponent.map Exponent.chars).getD []

/-- The characters of a literal. -/
def chars (l : Literal) : List Char :=
  l.whole ++ (l.fractionChars ++ l.exponentChars)

/-- The double nearest to what a literal writes. -/
def value (l : Literal) : Float :=
  Number.nearest (Number.ofDigits (l.whole ++ l.fraction))
    ((l.exponent.map Exponent.value).getD 0 - l.fraction.length)

end Literal

/-! ### Runs of digits -/

section Runs

variable {p : Char → Bool} {front rest : List Char}

theorem takeWhile_append_of_head? (all : ∀ c ∈ front, p c = true)
    (stop : ∀ c ∈ rest.head?, p c = false) : (front ++ rest).takeWhile p = front := by
  rw [List.takeWhile_append_of_pos all]
  cases rest with
  | nil => simp
  | cons c rest => simp [stop c rfl]

theorem dropWhile_append_of_head? (all : ∀ c ∈ front, p c = true)
    (stop : ∀ c ∈ rest.head?, p c = false) : (front ++ rest).dropWhile p = rest := by
  rw [List.dropWhile_append_of_pos all]
  cases rest with
  | nil => rfl
  | cons c rest => simp [stop c rfl]

end Runs

theorem isDecimalDigit_of_forall {digits : List Char} (areDigits : ∀ c ∈ digits, c.isDigit = true) :
    ∀ c ∈ digits, isDecimalDigit c = true :=
  fun c isMem ↦ isDecimalDigit_of_isDigit (areDigits c isMem)

theorem ne_of_isDigit {c d : Char} (isDigit : c.isDigit = true) (noDigit : d.isDigit = false) :
    c ≠ d := by
  rintro rfl
  rw [isDigit] at noDigit
  cases noDigit

namespace Exponent

variable (e : Exponent)

theorem isDecimalDigit_mark : isDecimalDigit e.mark = false := by
  rcases e.isMark with isMark | isMark <;> rw [isMark] <;> rfl

theorem mem_chars {c : Char} (isMem : c ∈ e.chars) :
    c.isDigit = true ∨ c ∈ ['.', 'e', 'E', '+', '-'] := by
  rw [chars, List.mem_cons, List.mem_append] at isMem
  rcases isMem with rfl | inSign | inDigits
  · rcases e.isMark with isMark | isMark <;> simp [isMark]
  · rcases e.isSign with isSign | isSign | isSign <;> rw [isSign] at inSign <;> simp_all
  · exact Or.inl (e.areDigits c inDigits)

theorem exponentLength_chars : Atom.exponentLength e.chars = e.chars.length := by
  obtain ⟨first, others, written⟩ := List.exists_cons_of_ne_nil e.notEmpty
  have firstDigit : first.isDigit = true := e.areDigits first (by simp [written])
  have noSign : ¬(first = '+' ∨ first = '-') :=
    not_or.mpr ⟨ne_of_isDigit firstDigit rfl, ne_of_isDigit firstDigit rfl⟩
  have signed : Atom.signLength (e.sign ++ e.digits) = e.sign.length := by
    rcases e.isSign with isSign | isSign | isSign <;> rw [isSign]
    · simp [written, Atom.signLength, noSign]
    · rfl
    · rfl
  have run : e.digits.takeWhile isDecimalDigit = e.digits := by
    rw [List.takeWhile_eq_self_iff]
    exact isDecimalDigit_of_forall e.areDigits
  have some : e.digits.isEmpty = false := by simpa using e.notEmpty
  rw [chars, Atom.exponentLength, if_pos e.isMark, signed, List.drop_left, run]
  simp only [some, List.length_cons, List.length_append, Bool.false_eq_true, if_false]
  omega

theorem readExponent?_chars : Number.readExponent? e.chars = some e.value := by
  obtain ⟨first, others, written⟩ := List.exists_cons_of_ne_nil e.notEmpty
  have firstDigit : first.isDigit = true := e.areDigits first (by simp [written])
  have othersDigits : ∀ c ∈ others, c.isDigit = true :=
    fun c isMem ↦ e.areDigits c (by simp [written, isMem])
  have noMinus : first ≠ '-' := ne_of_isDigit firstDigit rfl
  have noPlus : first ≠ '+' := ne_of_isDigit firstDigit rfl
  unfold chars value
  rcases e.isSign with isSign | isSign | isSign
  · simpa [Number.readExponent?, e.isMark, isSign, written, noMinus, noPlus, firstDigit] using
      othersDigits
  · simpa [Number.readExponent?, e.isMark, isSign, written, firstDigit] using othersDigits
  · simpa [Number.readExponent?, e.isMark, isSign, written, firstDigit] using othersDigits

end Exponent

namespace Literal

variable (l : Literal)

theorem mem_chars {c : Char} (isMem : c ∈ l.chars) :
    c.isDigit = true ∨ c ∈ ['.', 'e', 'E', '+', '-'] := by
  rw [chars, List.mem_append, List.mem_append] at isMem
  rcases isMem with inWhole | inFraction | inExponent
  · exact Or.inl (l.wholeDigits c inWhole)
  · unfold fractionChars at inFraction
    split_ifs at inFraction
    · cases inFraction
    · rcases List.mem_cons.mp inFraction with rfl | inDigits
      · exact Or.inr (by simp)
      · exact Or.inl (l.fractionDigits c inDigits)
  · rcases written : l.exponent with _ | e
    · simp [exponentChars, written] at inExponent
    · exact e.mem_chars (by simpa [exponentChars, written] using inExponent)

theorem chars_ne_nil : l.chars ≠ [] := by
  rcases l.notEmpty with isSome | isSome
  · simp [chars, isSome]
  · simp [chars, fractionChars, isSome]

/-- An exponent starts with a letter. -/
theorem head?_exponentChars :
    ∀ c ∈ l.exponentChars.head?, isDecimalDigit c = false ∧ c ≠ '.' := by
  intro c isHead
  rcases written : l.exponent with _ | e
  · simp [exponentChars, written] at isHead
  · have isFirst : e.mark = c := by simpa [exponentChars, written, Exponent.chars] using isHead
    subst isFirst
    refine ⟨e.isDecimalDigit_mark, ?_⟩
    rcases e.isMark with isMark | isMark <;> rw [isMark] <;> decide

/-- What follows the digits before the point starts with no digit. -/
theorem head?_fractionChars_append :
    ∀ c ∈ (l.fractionChars ++ l.exponentChars).head?, isDecimalDigit c = false := by
  intro c isHead
  unfold fractionChars at isHead
  split_ifs at isHead
  · exact (l.head?_exponentChars c isHead).1
  · obtain rfl : '.' = c := by simpa using isHead
    rfl

theorem fractionLength_append :
    Atom.fractionLength (l.fractionChars ++ l.exponentChars) = l.fractionChars.length := by
  unfold fractionChars
  split_ifs with noFraction
  · rw [List.nil_append]
    unfold Atom.fractionLength
    split
    · rename_i tail written
      exact absurd rfl (l.head?_exponentChars '.' (by simp [written])).2
    · rfl
  · have run : (l.fraction ++ l.exponentChars).takeWhile isDecimalDigit = l.fraction :=
      takeWhile_append_of_head? (isDecimalDigit_of_forall l.fractionDigits)
        fun c isHead ↦ (l.head?_exponentChars c isHead).1
    rw [List.cons_append, Atom.fractionLength, run]
    simp [noFraction, Nat.add_comm]

theorem exponentLength_exponentChars :
    Atom.exponentLength l.exponentChars = l.exponentChars.length := by
  rcases written : l.exponent with _ | e
  · simp [exponentChars, written, Atom.exponentLength]
  · simpa [exponentChars, written] using e.exponentLength_chars

/-- A literal goes as far as a number can. -/
theorem numberLength_chars : Atom.numberLength l.chars = l.chars.length := by
  have run : l.chars.takeWhile isDecimalDigit = l.whole :=
    takeWhile_append_of_head? (isDecimalDigit_of_forall l.wholeDigits) l.head?_fractionChars_append
  have behindWhole : l.chars.drop l.whole.length = l.fractionChars ++ l.exponentChars :=
    List.drop_left
  have behindFraction :
      l.chars.drop (l.whole.length + l.fractionChars.length) = l.exponentChars := by
    rw [← List.drop_drop, behindWhole, List.drop_left]
  have isSome : l.whole.length + l.fractionChars.length ≠ 0 := by
    rcases l.notEmpty with isSome | isSome
    · simp [isSome]
    · simp [fractionChars, isSome]
  simp only [Atom.numberLength, run, behindWhole, l.fractionLength_append, behindFraction,
    l.exponentLength_exponentChars, if_neg isSome]
  simp [chars, Nat.add_assoc]

theorem readExponent?_exponentChars :
    Number.readExponent? l.exponentChars = some ((l.exponent.map Exponent.value).getD 0) := by
  rcases written : l.exponent with _ | e
  · simp [exponentChars, written, Number.readExponent?]
  · simpa [exponentChars, written] using e.readExponent?_chars

theorem readUnsigned?_chars : Number.readUnsigned? l.chars = some l.value := by
  have run : l.chars.takeWhile Char.isDigit = l.whole :=
    takeWhile_append_of_head? l.wholeDigits fun c isHead ↦
      isDigit_of_isDecimalDigit_eq_false (l.head?_fractionChars_append c isHead)
  have behind : l.chars.dropWhile Char.isDigit = l.fractionChars ++ l.exponentChars :=
    dropWhile_append_of_head? l.wholeDigits fun c isHead ↦
      isDigit_of_isDecimalDigit_eq_false (l.head?_fractionChars_append c isHead)
  have noDigit : ∀ c ∈ l.exponentChars.head?, c.isDigit = false := fun c isHead ↦
    isDigit_of_isDecimalDigit_eq_false (l.head?_exponentChars c isHead).1
  unfold Number.readUnsigned?
  rw [run, behind, fractionChars, value]
  by_cases noFraction : l.fraction = []
  · have isSome : l.whole ≠ [] := l.notEmpty.resolve_right (not_not_intro noFraction)
    have noPoint (tail : List Char) : l.exponentChars = '.' :: tail → False := fun written ↦
      (l.head?_exponentChars '.' (by simp [written])).2 rfl
    simp [noFraction, isSome, l.readExponent?_exponentChars]
  · have fractionRun : (l.fraction ++ l.exponentChars).takeWhile Char.isDigit = l.fraction :=
      takeWhile_append_of_head? l.fractionDigits noDigit
    have fractionBehind :
        (l.fraction ++ l.exponentChars).dropWhile Char.isDigit = l.exponentChars :=
      dropWhile_append_of_head? l.fractionDigits noDigit
    simp [noFraction, fractionRun, fractionBehind, l.readExponent?_exponentChars]

/-- A literal starts like a number. -/
theorem literal?_chars : Token.literal? l.chars = some l.value := by
  rw [← l.readUnsigned?_chars]
  cases started : l.whole with
  | cons c rest =>
    have isDigit : c.isDigit = true := l.wholeDigits c (by simp [started])
    have noPoint : c ≠ '.' := ne_of_isDigit isDigit rfl
    simp [chars, started, Token.literal?, isDigit, noPoint]
  | nil =>
    have isSome : l.fraction ≠ [] := l.notEmpty.resolve_left (not_not_intro started)
    obtain ⟨c, rest, written⟩ := List.exists_cons_of_ne_nil isSome
    have isDigit : c.isDigit = true := l.fractionDigits c (by simp [written])
    simp [chars, fractionChars, started, written, Token.literal?, isDigit]

end Literal

end MatrixCalculator
