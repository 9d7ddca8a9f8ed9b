import Mathlib
import MatrixCalculator.Number.Binary

/-!
# The exact values of doubles

A finite double stands for a rational number (`exactValue?`), which its parts give
(`Binary.value`). `Binary.toInt?` finds out whether that number is whole (`toInt?_eq_some_iff`), and
the comparison of a finite double with zero is that of its value (`lt_zero_iff_value`); the sign bit
alone does not decide it, for zero has one too. The whole numbers that fit a significand are values
of doubles (`exists_exactValue?`).
-/

set_option autoImplicit false

namespace MatrixCalculator

open Float.Model Float.Model.UnpackedFloat

/-! ### Parts -/

namespace Binary

/-- The number that the parts of a double stand for. -/
def value (b : Binary) : Rat :=
  (if b.negative then -1 else 1) * b.significand * 2 ^ b.exponent

theorem value_lt_zero_iff (b : Binary) : b.value < 0 ↔ b.negative = true ∧ b.significand ≠ 0 := by
  have scale : (0 : Rat) < 2 ^ b.exponent := zpow_pos two_pos _
  have magnitude : (0 : Rat) ≤ b.significand * 2 ^ b.exponent := by positivity
  rw [value, mul_assoc]
  cases b.negative with
  | false =>
    rw [if_neg Bool.false_ne_true, one_mul]
    exact iff_of_false magnitude.not_gt fun both ↦ Bool.false_ne_true both.1
  | true =>
    rw [if_pos rfl, neg_one_mul, neg_lt_zero, mul_pos_iff_of_pos_right scale, Nat.cast_pos,
      Nat.pos_iff_ne_zero]
    exact (and_iff_right rfl).symm

/-- A significand that is shifted to the left is whole, one that is shifted to the right is whole if
nothing is lost. -/
theorem shifted_eq_some_iff (significand : Nat) (exponent : Int) (k : Nat) :
    (if 0 ≤ exponent then some (significand <<< exponent.toNat)
      else if significand % (1 <<< exponent.natAbs) = 0 then
        some (significand >>> exponent.natAbs)
      else none) = some k ↔ (significand : Rat) * 2 ^ exponent = k := by
  cases exponent with
  | ofNat d =>
    rw [Int.ofNat_eq_natCast, if_pos (Int.natCast_nonneg d), Option.some_inj, Int.toNat_natCast,
      Nat.shiftLeft_eq, zpow_natCast]
    exact_mod_cast Iff.rfl
  | negSucc d =>
    have pos : 0 < 2 ^ (d + 1) := Nat.two_pow_pos (d + 1)
    have whole : (significand : Rat) * 2 ^ Int.negSucc d = k ↔ significand = k * 2 ^ (d + 1) := by
      rw [zpow_negSucc, mul_inv_eq_iff_eq_mul₀ (by positivity)]
      exact_mod_cast Iff.rfl
    rw [whole, if_neg (Int.negSucc_lt_zero d).not_ge, Int.natAbs_negSucc, Nat.one_shiftLeft,
      Nat.shiftRight_eq_div_pow]
    split_ifs with divides
    · rw [Option.some_inj]
      exact Nat.div_eq_iff_eq_mul_left pos (Nat.dvd_of_mod_eq_zero divides)
    · refine iff_of_false (fun same ↦ by cases same) fun same ↦ divides ?_
      rw [same, Nat.mul_mod_left]

/-- Whether a number is whole, and which one it is, can be told from its parts. -/
theorem toInt?_eq_some_iff (b : Binary) (n : Int) : b.toInt? = some n ↔ b.value = n := by
  obtain ⟨negative, significand, exponent⟩ := b
  rw [toInt?, Option.map_eq_some_iff]
  simp only [shifted_eq_some_iff]
  rw [value, mul_assoc]
  have magnitude : (0 : Rat) ≤ significand * 2 ^ exponent := by positivity
  generalize (significand : Rat) * 2 ^ exponent = x at magnitude ⊢
  constructor
  · rintro ⟨k, rfl, rfl⟩
    cases negative <;> simp
  · intro same
    cases negative with
    | false =>
      rw [if_neg Bool.false_ne_true, one_mul] at same
      subst same
      obtain ⟨k, rfl⟩ := Int.eq_ofNat_of_zero_le (Int.cast_nonneg_iff.mp magnitude)
      exact ⟨k, Int.cast_natCast k, rfl⟩
    | true =>
      rw [if_pos rfl, neg_one_mul, neg_eq_iff_eq_neg, ← Int.cast_neg] at same
      subst same
      obtain ⟨k, whole⟩ := Int.eq_ofNat_of_zero_le (Int.cast_nonneg_iff.mp magnitude)
      exact ⟨k, by rw [whole, Int.cast_natCast], by rw [if_pos rfl, ← whole, neg_neg]⟩

end Binary

/-- The number that a double stands for, if it is finite. -/
def exactValue? (x : Float) : Option Rat :=
  (Binary.ofFloat? x).map Binary.value

/-! ### Bits -/

theorem toNat_unpackMantissa (bits : BitVec Format.binary64.numBits) :
    (unpackMantissa bits).toNat = bits.toNat % 2 ^ 52 := by
  simp [unpackMantissa]

theorem toNat_unpackExponent (bits : BitVec Format.binary64.numBits) :
    (unpackExponent bits).toNat = bits.toNat / 2 ^ 52 % 2 ^ 11 := by
  simp [unpackExponent, Nat.shiftRight_eq_div_pow]

theorem toNat_unpackSign (bits : BitVec Format.binary64.numBits) :
    (unpackSign bits).toNat = bits.toNat / 2 ^ 63 := by
  have width : bits.toNat < 2 ^ 64 := bits.isLt
  simp only [unpackSign, BitVec.toNat_cast, BitVec.extractLsb_toNat, Nat.shiftRight_eq_div_pow]
  omega

/-- The parts of a double that its bits give. -/
theorem ofFloat?_eq (x : Float) :
    Binary.ofFloat? x =
      if x.toBits.toNat / 2 ^ 52 % 2 ^ 11 = 2047 then none
      else if x.toBits.toNat / 2 ^ 52 % 2 ^ 11 = 0 then
        some ⟨x.toBits.toNat / 2 ^ 63 == 1, x.toBits.toNat % 2 ^ 52, -1074⟩
      else
        some ⟨x.toBits.toNat / 2 ^ 63 == 1, x.toBits.toNat % 2 ^ 52 + 2 ^ 52,
          -1074 + (x.toBits.toNat / 2 ^ 52 % 2 ^ 11 - 1 : Nat)⟩ := by
  simp only [Binary.ofFloat?, Nat.shiftRight_eq_div_pow]
  rfl

theorem unpack_zero : (0.0 : Float).toModel.unpack = .zero .positive := rfl

theorem lt_zero_iff (x : Float) :
    x < 0.0 ↔ UnpackedFloat.compare x.toModel.unpack (.zero .positive) = some .lt := by
  rw [← unpack_zero]
  change decide (x.toModel < (0.0 : Float).toModel) = true ↔ _
  rw [decide_eq_true_iff]
  exact beq_iff_eq

theorem compare_finite_zero (sign : Sign) (mantissa : Nat) (exponent : Int) (pos : 0 < mantissa) :
    UnpackedFloat.compare (.finite sign mantissa exponent pos) (.zero .positive) = some .lt ↔
      sign = .negative := by
  cases sign with
  | negative => exact iff_of_true rfl rfl
  | positive => exact iff_of_false (fun same ↦ by cases same) fun same ↦ by cases same

theorem sign_eq_negative_iff (bits : BitVec Format.binary64.numBits) :
    Sign.ofBitVec (unpackSign bits) = .negative ↔ bits.toNat / 2 ^ 63 = 1 := by
  have width : bits.toNat < 2 ^ 64 := bits.isLt
  have read := toNat_unpackSign bits
  rw [Sign.ofBitVec]
  split_ifs with positive
  · rw [positive, BitVec.toNat_zero] at read
    exact iff_of_false (fun same ↦ by cases same) (by omega)
  · have nonzero : (unpackSign bits).toNat ≠ 0 := fun isZero ↦ positive (BitVec.eq_of_toNat_eq isZero)
    exact iff_of_true rfl (by omega)

/-- A word that is not that of NaN or an infinity is below zero iff its sign bit is set and any
other bit is. -/
theorem compare_unpack_zero_iff {bits : BitVec Format.binary64.numBits}
    (finite : bits.toNat / 2 ^ 52 % 2 ^ 11 ≠ 2047) :
    UnpackedFloat.compare (UnpackedFloat.unpack Format.binary64 bits) (.zero .positive) =
      some .lt ↔ bits.toNat / 2 ^ 63 = 1 ∧
        ¬(bits.toNat / 2 ^ 52 % 2 ^ 11 = 0 ∧ bits.toNat % 2 ^ 52 = 0) := by
  rw [← toNat_unpackExponent] at finite ⊢
  rw [← toNat_unpackMantissa, ← sign_eq_negative_iff, UnpackedFloat.unpack]
  have notFull : unpackExponent bits ≠ -1#_ := fun full ↦ finite (congrArg BitVec.toNat full)
  dsimp only
  rw [if_neg notFull]
  split_ifs with least zero
  · refine iff_of_false (fun same ↦ by cases same) fun both ↦ both.2 ⟨?_, ?_⟩
    · exact congrArg BitVec.toNat least
    · exact congrArg BitVec.toNat zero
  · rw [compare_finite_zero]
    exact (and_iff_left fun both ↦ zero (BitVec.eq_of_toNat_eq both.2)).symm
  · rw [compare_finite_zero]
    exact (and_iff_left fun both ↦ least (BitVec.eq_of_toNat_eq both.1)).symm

/-- A finite double is below zero iff its value is. -/
theorem lt_zero_iff_value {x : Float} {b : Binary} (parts : Binary.ofFloat? x = some b) :
    x < 0.0 ↔ b.value < 0 := by
  rw [ofFloat?_eq] at parts
  rw [lt_zero_iff, b.value_lt_zero_iff]
  split_ifs at parts with full least
  · refine (compare_unpack_zero_iff full).trans ?_
    rw [← Option.some.inj parts, beq_iff_eq]
    exact and_congr_right fun _ ↦ not_congr (and_iff_right least)
  · refine (compare_unpack_zero_iff full).trans ?_
    rw [← Option.some.inj parts, beq_iff_eq]
    exact and_congr_right fun _ ↦ iff_of_true (fun both ↦ least both.1) (by simp)

/-- A word is the bits of a double, unless its exponent is that of NaN and the infinities. -/
theorem exists_toBits {word : Nat} (lt : word < 2 ^ 64) (finite : word / 2 ^ 52 % 2 ^ 11 ≠ 2047) :
    ∃ x : Float, x.toBits.toNat = word := by
  have read : (UInt64.ofNat word).toBitVec.toNat = word := UInt64.toNat_ofNat_of_lt' lt
  have valid : Format.binary64.Valid (UInt64.ofNat word).toBitVec := by
    refine ⟨fun full _ ↦ absurd ?_ finite⟩
    rw [← read, ← toNat_unpackExponent, full]
    rfl
  exact ⟨⟨⟨UInt64.ofNat word, valid⟩⟩, read⟩

/-- The significand of a double can begin with the first binary digit of a whole number. -/
theorem exists_scaled {n : Nat} (pos : 0 < n) (lt : n < 2 ^ 53) :
    ∃ d ≤ 52, 2 ^ 52 ≤ n * 2 ^ d ∧ n * 2 ^ d < 2 ^ 53 := by
  have first : 2 ^ n.log2 ≤ n := Nat.log2_self_le pos.ne'
  have next : n < 2 ^ (n.log2 + 1) := Nat.lt_log2_self
  have short : n.log2 < 53 := (Nat.log2_lt pos.ne').mpr lt
  refine ⟨52 - n.log2, Nat.sub_le _ _, ?_, ?_⟩
  · have least := Nat.mul_le_mul_right (2 ^ (52 - n.log2)) first
    rwa [← Nat.pow_add, Nat.add_sub_of_le (Nat.lt_succ_iff.mp short)] at least
  · have most := Nat.mul_lt_mul_of_pos_right next (Nat.two_pow_pos (52 - n.log2))
    have digits : n.log2 + 1 + (52 - n.log2) = 53 := by omega
    rwa [← Nat.pow_add, digits] at most

/-- A whole number that is no longer than a significand is the value of a double. -/
theorem exists_exactValue? {n : Nat} (lt : n < 2 ^ 53) :
    ∃ x : Float, exactValue? x = some (n : Rat) := by
  rcases Nat.eq_zero_or_pos n with rfl | pos
  · exact ⟨0.0, by decide +kernel⟩
  · obtain ⟨d, short, least, most⟩ := exists_scaled pos lt
    have value : Binary.value ⟨false, n * 2 ^ d, -(d : Int)⟩ = n := by
      rw [Binary.value, if_neg Bool.false_ne_true, one_mul, zpow_neg, zpow_natCast, Nat.cast_mul,
        Nat.cast_pow, Nat.cast_ofNat]
      exact mul_inv_cancel_right₀ (by positivity) _
    generalize n * 2 ^ d = significand at least most value
    obtain ⟨word, fields⟩ : ∃ word, word = (1075 - d) * 2 ^ 52 + (significand - 2 ^ 52) :=
      ⟨_, rfl⟩
    have sign : word / 2 ^ 63 = 0 := by omega
    have field : word / 2 ^ 52 % 2 ^ 11 = 1075 - d := by omega
    have fraction : word % 2 ^ 52 = significand - 2 ^ 52 := by omega
    obtain ⟨x, bits⟩ : ∃ x : Float, x.toBits.toNat = word := exists_toBits (by omega) (by omega)
    refine ⟨x, ?_⟩
    have exponent : (-1074 : Int) + (1075 - d - 1 : Nat) = -d := by omega
    have whole : significand - 2 ^ 52 + 2 ^ 52 = significand := by omega
    rw [exactValue?, ofFloat?_eq, bits, field, fraction, sign, if_neg (by omega), if_neg (by omega),
      exponent, whole, Option.map_some]
    exact congrArg some value

end MatrixCalculator
