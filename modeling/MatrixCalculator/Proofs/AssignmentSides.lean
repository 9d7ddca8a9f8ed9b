import Mathlib
import MatrixCalculator.Assignment
import MatrixCalculator.Proofs.Spacing

/-!
# The two sides of an equals sign

When a text is taken apart at its equals sign, and what becomes of the sides when the text is
squeezed first (`split_squeeze`): it makes no difference whether a text or one of its sides is
squeezed. A compound assignment is told from any other by what stands directly before its equals
sign (`parts_of_compound?`).
-/

set_option autoImplicit false

namespace MatrixCalculator

/-! ### The characters of a name -/

namespace Name

variable {c : Char}

theorem toNat_of_isRest (isRest : isRest c = true) : 48 ≤ c.toNat ∧ c.toNat ≤ 122 := by
  simp only [Name.isRest, Char.isAlphanum, Char.isAlpha, Char.isUpper, Char.isLower, Char.isDigit,
    Bool.or_eq_true, Bool.and_eq_true, decide_eq_true_eq, beq_iff_eq, ge_iff_le,
    UInt32.le_iff_toNat_le] at isRest
  rcases isRest with ((⟨low, high⟩ | ⟨low, high⟩) | ⟨low, high⟩) | rfl
  · exact ⟨Nat.le_trans (by decide) low, Nat.le_trans high (by decide)⟩
  · exact ⟨Nat.le_trans (by decide) low, Nat.le_trans high (by decide)⟩
  · exact ⟨Nat.le_trans (by decide) low, Nat.le_trans high (by decide)⟩
  · decide

theorem isBlank_of_isRest (isRest : isRest c = true) : Text.isBlank c = false := by
  have bounds := toNat_of_isRest isRest
  simp only [Text.isBlank, Bool.or_eq_false_iff, Bool.and_eq_false_iff, decide_eq_false_iff_not,
    beq_eq_false_iff_ne]
  omega

theorem isRest_of_isStart (isStart : isStart c = true) : isRest c = true := by
  rw [Name.isStart, Bool.or_eq_true] at isStart
  rw [Name.isRest, Char.isAlphanum, Bool.or_eq_true, Bool.or_eq_true]
  exact isStart.imp_left Or.inl

theorem isRest_of_isIdentifier {name : List Char} (isName : isIdentifier name = true)
    (isMem : c ∈ name) : isRest c = true := by
  cases name with
  | nil => cases isMem
  | cons d rest =>
    rw [isIdentifier, Bool.and_eq_true, List.all_eq_true] at isName
    rcases List.mem_cons.mp isMem with rfl | inRest
    · exact isRest_of_isStart isName.1
    · exact isName.2 c inRest

/-- What cannot stand in a name does not stand in one. -/
theorem not_mem_of_isIdentifier {name : List Char} (isName : isIdentifier name = true)
    (foreign : isRest c = false) : c ∉ name := by
  intro isMem
  rw [isRest_of_isIdentifier isName isMem] at foreign
  cases foreign

theorem isWord_of_isIdentifier {name : List Char} (isName : isIdentifier name = true) :
    Text.IsWord name := by
  refine ⟨?_, fun c isMem ↦ isBlank_of_isRest (isRest_of_isIdentifier isName isMem)⟩
  rintro rfl
  cases isName

end Name

namespace Assignment

open Text

/-! ### Taking a text apart -/

theorem splitOnce_append_cons {left : List Char} (noneLeft : '=' ∉ left) (right : List Char) :
    splitOnce (· == '=') (left ++ '=' :: right) = some (left, right) := by
  induction left with
  | nil => simp [splitOnce]
  | cons c left ih =>
    rw [List.mem_cons, not_or] at noneLeft
    have other : (c == '=') = false := by simpa using fun same : c = '=' ↦ noneLeft.1 same.symm
    rw [List.cons_append, splitOnce, other, ih noneLeft.2]
    rfl

/-- A text falls apart at its first equals sign in one way. -/
theorem append_cons_inj {left other right rest : List Char} (noneLeft : '=' ∉ left)
    (noneOther : '=' ∉ other) (same : left ++ '=' :: right = other ++ '=' :: rest) :
    left = other ∧ right = rest := by
  have parts : some (left, right) = some (other, rest) := by
    rw [← splitOnce_append_cons noneLeft, ← splitOnce_append_cons noneOther, same]
  exact Prod.mk.inj (Option.some.inj parts)

theorem split_of_not_mem {text : List Char} (none : '=' ∉ text) : split text = .ok .none := by
  rw [split, List.count_eq_zero.mpr none]
  rfl

theorem split_append_cons {left right : List Char} (noneLeft : '=' ∉ left)
    (noneRight : '=' ∉ right) :
    split (left ++ '=' :: right) =
      if trim left = [] ∨ trim right = [] then
        .error (.malformedAssignment (String.ofList (left ++ '=' :: right)))
      else .ok (some (trim left, trim right)) := by
  have once : (left ++ '=' :: right).count '=' = 1 := by
    simp [List.count_eq_zero.mpr noneLeft, List.count_eq_zero.mpr noneRight]
  rw [split, once]
  simp only [splitOnce_append_cons noneLeft, Bool.or_eq_true, List.isEmpty_iff]

/-- There is one equals sign at most in a text that is taken apart. -/
theorem count_le_one_of_split {text : List Char} {parts : Option (List Char × List Char)}
    (parted : split text = .ok parts) : text.count '=' ≤ 1 := by
  rcases counted : text.count '=' with _ | _ | count
  · exact Nat.zero_le 1
  · exact Nat.le_refl 1
  · rw [split, counted] at parted
    cases parted

theorem not_mem_or_exists_of_count {text : List Char} (once : text.count '=' ≤ 1) :
    '=' ∉ text ∨
      ∃ before behind, text = before ++ '=' :: behind ∧ '=' ∉ before ∧ '=' ∉ behind := by
  by_cases isMem : '=' ∈ text
  · obtain ⟨before, behind, rfl⟩ := List.append_of_mem isMem
    rw [List.count_append, List.count_cons_self] at once
    exact Or.inr ⟨before, behind, rfl, List.count_eq_zero.mp (by omega),
      List.count_eq_zero.mp (by omega)⟩
  · exact Or.inl isMem

/-- The sides of a text are what stands before and behind its only equals sign, trimmed. -/
theorem exists_of_split_eq_some {text left right : List Char}
    (parted : split text = .ok (some (left, right))) :
    ∃ before behind, text = before ++ '=' :: behind ∧ '=' ∉ before ∧ '=' ∉ behind ∧
      trim before = left ∧ trim behind = right ∧ left ≠ [] ∧ right ≠ [] := by
  rcases not_mem_or_exists_of_count (count_le_one_of_split parted) with
    none | ⟨before, behind, rfl, noneBefore, noneBehind⟩
  · rw [split_of_not_mem none] at parted
    cases parted
  · rw [split_append_cons noneBefore noneBehind] at parted
    split_ifs at parted with blank
    rw [not_or] at blank
    cases parted
    exact ⟨before, behind, rfl, noneBefore, noneBehind, rfl, rfl, blank.1, blank.2⟩

theorem not_mem_trim {text : List Char} (none : '=' ∉ text) : '=' ∉ trim text := by
  rw [← List.count_eq_zero, count_trim rfl, List.count_eq_zero]
  exact none

/-- Neither side of an equals sign has another. -/
theorem not_mem_left_of_split {text left right : List Char}
    (parted : split text = .ok (some (left, right))) : '=' ∉ left := by
  obtain ⟨before, behind, -, noneBefore, -, rfl, -⟩ := exists_of_split_eq_some parted
  exact not_mem_trim noneBefore

theorem not_mem_right_of_split {text left right : List Char}
    (parted : split text = .ok (some (left, right))) : '=' ∉ right := by
  obtain ⟨before, behind, -, -, noneBehind, -, rfl, -⟩ := exists_of_split_eq_some parted
  exact not_mem_trim noneBehind

theorem not_mem_of_split_eq_none {text : List Char} (whole : split text = .ok none) :
    '=' ∉ text := by
  rcases not_mem_or_exists_of_count (count_le_one_of_split whole) with
    none | ⟨before, behind, rfl, noneBefore, noneBehind⟩
  · exact none
  · rw [split_append_cons noneBefore noneBehind] at whole
    split_ifs at whole
    cases whole

/-- Squeezing a text squeezes its sides. -/
theorem split_squeeze {text left right : List Char}
    (parted : split text = .ok (some (left, right))) :
    split (squeeze text) = .ok (some (squeeze left, squeeze right)) := by
  obtain ⟨before, behind, rfl, noneBefore, noneBehind, rfl, rfl, leftSome, rightSome⟩ :=
    exists_of_split_eq_some parted
  obtain ⟨front, back, squeezed, ofFront, ofBack, inFront, inBack⟩ :=
    squeeze_append_cons (c := '=') rfl before behind
  have noneFront : '=' ∉ front := fun isMem ↦ (inFront _ isMem).elim (by decide) noneBefore
  have noneBack : '=' ∉ back := fun isMem ↦ (inBack _ isMem).elim (by decide) noneBehind
  have someFront : trim front ≠ [] := by rwa [ofFront, ne_eq, squeeze_eq_nil_iff]
  have someBack : trim back ≠ [] := by rwa [ofBack, ne_eq, squeeze_eq_nil_iff]
  rw [squeezed, split_append_cons noneFront noneBack, if_neg (not_or.mpr ⟨someFront, someBack⟩),
    ofFront, ofBack, squeeze_trim, squeeze_trim]

/-! ### Compound assignments -/

/-- The parts of a compound assignment in the order in which they stand in the text. -/
theorem parts_of_compound? {text name rest : List Char} {op : Char}
    (compound : compound? text = some (name, op, rest)) :
    ∃ lead gap, text = lead ++ name ++ gap ++ op :: '=' :: rest ∧
      (∀ c ∈ lead, isBlank c = true) ∧ (∀ c ∈ gap, isBlank c = true) ∧
      Name.isIdentifier name = true ∧ isCompound op = true := by
  unfold compound? at compound
  dsimp only at compound
  split_ifs at compound with isName
  split at compound
  · rename_i found mark behind gapped
    split_ifs at compound with isCompound
    obtain ⟨rfl, rfl, rfl⟩ : _ ∧ _ ∧ _ := by simpa using compound
    rw [Bool.and_eq_true] at isCompound
    refine ⟨text.takeWhile isBlank,
      ((trimStart text).dropWhile Name.isRest).takeWhile isBlank, ?_, ?_, ?_, isName, isCompound.1⟩
    · rw [List.append_assoc, List.append_assoc, ← gapped]
      simp only [trimStart, List.takeWhile_append_dropWhile]
    · exact fun c isMem ↦ List.mem_takeWhile_imp isMem
    · exact fun c isMem ↦ List.mem_takeWhile_imp isMem
  · cases compound

theorem isBlank_of_isCompound {op : Char} (isOp : isCompound op = true) : isBlank op = false := by
  simp only [isCompound, Bool.or_eq_true, beq_iff_eq] at isOp
  rcases isOp with ((((rfl | rfl) | rfl) | rfl) | rfl) | rfl <;> rfl

theorem isRest_of_isCompound {op : Char} (isOp : isCompound op = true) :
    Name.isRest op = false := by
  simp only [isCompound, Bool.or_eq_true, beq_iff_eq] at isOp
  rcases isOp with ((((rfl | rfl) | rfl) | rfl) | rfl) | rfl <;> rfl

/-- What stands before the equals sign of a compound assignment: a name and an operator. -/
theorem before_of_compound? {before behind name rest : List Char} {op : Char}
    (noneBefore : '=' ∉ before)
    (compound : compound? (before ++ '=' :: behind) = some (name, op, rest)) :
    ∃ lead gap, before = lead ++ name ++ gap ++ [op] ∧ behind = rest ∧
      (∀ c ∈ lead, isBlank c = true) ∧ (∀ c ∈ gap, isBlank c = true) ∧
      Name.isIdentifier name = true ∧ isCompound op = true := by
  obtain ⟨lead, gap, parts, leadBlank, gapBlank, isName, isOp⟩ := parts_of_compound? compound
  have noneBlank {blanks : List Char} (blank : ∀ c ∈ blanks, isBlank c = true) : '=' ∉ blanks :=
    fun isMem ↦ absurd (blank _ isMem) (by decide)
  have noneFront : '=' ∉ lead ++ name ++ gap ++ [op] := by
    simp only [List.mem_append, List.mem_singleton, not_or]
    refine ⟨⟨⟨noneBlank leadBlank, Name.not_mem_of_isIdentifier isName (by decide)⟩,
      noneBlank gapBlank⟩, ?_⟩
    rintro rfl
    exact absurd isOp (by decide)
  rw [List.append_cons (lead ++ name ++ gap)] at parts
  obtain ⟨rfl, rfl⟩ := append_cons_inj noneBefore noneFront parts
  exact ⟨lead, gap, rfl, rfl, leadBlank, gapBlank, isName, isOp⟩

/-- The left side of a compound assignment is its name and its operator. -/
theorem sides_of_compound? {text name rest left right : List Char} {op : Char}
    (compound : compound? text = some (name, op, rest))
    (parted : split text = .ok (some (left, right))) :
    ∃ gap, left = name ++ gap ++ [op] ∧ (∀ c ∈ gap, isBlank c = true) ∧
      Name.isIdentifier name = true ∧ isCompound op = true := by
  obtain ⟨before, behind, rfl, noneBefore, -, rfl, -⟩ := exists_of_split_eq_some parted
  obtain ⟨lead, gap, rfl, -, leadBlank, gapBlank, isName, isOp⟩ :=
    before_of_compound? noneBefore compound
  refine ⟨gap, ?_, gapBlank, isName, isOp⟩
  obtain ⟨first, others, rfl⟩ := List.exists_cons_of_ne_nil (Name.isWord_of_isIdentifier isName).1
  have visible := (Name.isWord_of_isIdentifier isName).2 first List.mem_cons_self
  have started : trimStart (lead ++ first :: (others ++ gap)) = first :: (others ++ gap) := by
    rw [trimStart_append_cons visible, trimStart_of_forall leadBlank, List.nil_append]
  rw [trim_append_cons (isBlank_of_isCompound isOp)]
  simp [trimEnd, started]

end Assignment

end MatrixCalculator
