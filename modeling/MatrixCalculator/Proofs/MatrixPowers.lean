import Mathlib
import MatrixCalculator.Evaluation.Arithmetic
import MatrixCalculator.Proofs.ExactDoubles
import MatrixCalculator.Proofs.Inverses

/-!
# Powers of matrices

A power is found by squaring: what has been multiplied so far, times the power of the base that is
left, stays the same (`entries_powerFrom`). With exact cells it is therefore the product of as many
copies of the matrix, one factor after the other (`Matrix.product`).

The operator `.^` is one on doubles, but it looks at nothing of its base but the shape and the
powers. `Matrix.raised` is the operator for cells of any kind, with the exponent read on its own
(`copies`): a double is accepted iff its value is a whole number from zero to the largest exponent
(`copies_eq_ok_iff`). On doubles it is the operator itself (`matrixPowerOperands_eq`), and
`matrixPower_exact` says what it accepts and what it leaves.
-/

set_option autoImplicit false

namespace MatrixCalculator

/-! ### Repeated squaring -/

namespace Grid

variable {n : Nat}

/-- Squaring the base halves what is left of an exponent. -/
theorem entries_powerFrom (exponent : Nat) (base result : Grid Rat n n) :
    (powerFrom exponent base result).entries = result.entries * base.entries ^ exponent := by
  induction exponent using Nat.strongRecOn generalizing base result with
  | ind exponent ih =>
    rw [powerFrom]
    by_cases done : exponent = 0
    · rw [if_pos done, done, pow_zero, mul_one]
    · have less : exponent / 2 < exponent := by omega
      have squared : (if exponent / 2 = 0 then base else base.multiply base).entries ^
          (exponent / 2) = base.entries ^ (2 * (exponent / 2)) := by
        split_ifs with last
        · rw [last, mul_zero, pow_zero]
        · rw [entries_multiply, ← sq, ← pow_mul]
      rw [if_neg done]
      dsimp only
      rw [ih _ less, squared]
      split_ifs with odd
      · have digits : 2 * (exponent / 2) + 1 = exponent := by omega
        rw [entries_multiply, mul_assoc, ← pow_succ', digits]
      · have digits : 2 * (exponent / 2) = exponent := by omega
        rw [digits]

theorem entries_power (g : Grid Rat n n) (exponent : Nat) :
    (g.power exponent).entries = g.entries ^ exponent := by
  rw [power, entries_powerFrom, entries_identity, one_mul]

end Grid

namespace Matrix

open RowMajor (square_grid)

/-- The product of copies of a matrix, one factor after the other; of none it is the identity. -/
def product {α : Type} [Add α] [Mul α] [Zero α] [One α] (m : Matrix α) :
    Nat → Except MatrixError (Matrix α)
  | 0 => identity m.rows
  | count + 1 => do (← m.product count).multiply m

theorem product_grid {n : Nat} (g : Grid Rat n n) (pos : 0 < n) (count : Nat) :
    ∃ p : Grid Rat n n, (⟨n, n, g, pos, pos⟩ : Matrix Rat).product count =
      .ok ⟨n, n, p, pos, pos⟩ ∧ p.entries = g.entries ^ count := by
  induction count with
  | zero => exact ⟨.identity n, dif_pos pos, by rw [Grid.entries_identity, pow_zero]⟩
  | succ count ih =>
    obtain ⟨p, made, same⟩ := ih
    refine ⟨p.multiply g, ?_, by rw [Grid.entries_multiply, same, pow_succ]⟩
    rw [product, made, ok_bind]
    exact multiply_grid p g pos

theorem exists_grid {α : Type} {m : Matrix α} (isSquare : m.rows = m.cols) :
    ∃ (n : Nat) (g : Grid α n n) (pos : 0 < n), m = ⟨n, n, g, pos, pos⟩ := by
  obtain ⟨rows, cols, g, pos, _⟩ := m
  obtain rfl : rows = cols := isSquare
  exact ⟨rows, g, pos, rfl⟩

/-- A square matrix has all powers. -/
theorem exists_power {α : Type} [Cell α] {m : Matrix α} (isSquare : m.rows = m.cols)
    (exponent : Nat) : ∃ p, m.power exponent = .ok p := by
  obtain ⟨n, g, pos, rfl⟩ := exists_grid isSquare
  exact ⟨_, by rw [power, square_grid]; rfl⟩

/-- The power of a square matrix is the product of as many copies of it. -/
theorem exists_power_eq_product {m : Matrix Rat} (isSquare : m.rows = m.cols) (exponent : Nat) :
    ∃ p, m.power exponent = .ok p ∧ m.product exponent = .ok p := by
  obtain ⟨n, g, pos, rfl⟩ := exists_grid isSquare
  obtain ⟨p, made, same⟩ := product_grid g pos exponent
  obtain rfl : g.power exponent = p :=
    Grid.entries_injective ((g.entries_power exponent).trans same.symm)
  refine ⟨_, ?_, made⟩
  rw [power, square_grid]
  rfl

end Matrix

/-! ### Exponents -/

/-- The number of copies that an exponent asks for. -/
def copies : Option Float → Except ExponentProblem Nat
  | none => .error .notScalar
  | some x =>
    if x < 0.0 then .error (.negative x)
    else
      match (Binary.ofFloat? x).bind Binary.toInt? with
      | some n => if n ≤ maxExponent then .ok n.toNat else .error (.notWhole x)
      | none => .error (.notWhole x)

/-- The whole value of a double is read exactly. -/
theorem bind_toInt?_eq_some_iff (x : Float) (n : Int) :
    (Binary.ofFloat? x).bind Binary.toInt? = some n ↔ exactValue? x = some (n : Rat) := by
  rw [exactValue?]
  cases Binary.ofFloat? x with
  | none => exact iff_of_false (fun same ↦ by cases same) fun same ↦ by cases same
  | some b => exact (b.toInt?_eq_some_iff n).trans Option.some_inj.symm

/-- A double with a whole value is below zero iff that value is. -/
theorem lt_zero_iff_of_toInt? {x : Float} {k : Int}
    (value : (Binary.ofFloat? x).bind Binary.toInt? = some k) : x < 0.0 ↔ k < 0 := by
  obtain ⟨b, parts, same⟩ :=
    Option.map_eq_some_iff.mp ((bind_toInt?_eq_some_iff x k).mp value)
  rw [lt_zero_iff_value parts, same, Int.cast_lt_zero]

theorem copies_of_whole {x : Float} {k : Int}
    (value : (Binary.ofFloat? x).bind Binary.toInt? = some k) :
    copies (some x) =
      if k < 0 then .error (.negative x)
      else if k ≤ maxExponent then .ok k.toNat else .error (.notWhole x) := by
  rw [copies, value]
  simp only [lt_zero_iff_of_toInt? value]

theorem copies_of_not_whole {x : Float}
    (value : (Binary.ofFloat? x).bind Binary.toInt? = none) :
    copies (some x) = .error (if x < 0.0 then .negative x else .notWhole x) := by
  rw [copies, value]
  exact (apply_ite Except.error _ _ _).symm

/-- An exponent is accepted iff its value is a whole number from zero to the largest exponent. -/
theorem copies_eq_ok_iff (x : Float) (n : Nat) :
    copies (some x) = .ok n ↔ n ≤ maxExponent ∧ exactValue? x = some (n : Rat) := by
  rw [← Int.cast_natCast (R := Rat), ← bind_toInt?_eq_some_iff]
  rcases value : (Binary.ofFloat? x).bind Binary.toInt? with _ | k
  · rw [copies_of_not_whole value]
    exact iff_of_false (fun same ↦ by cases same) fun both ↦ by cases both.2
  · rw [copies_of_whole value, Option.some_inj]
    split_ifs with below small
    · exact iff_of_false (fun same ↦ by cases same) (by omega)
    · rw [Except.ok.injEq]
      omega
    · exact iff_of_false (fun same ↦ by cases same) (by omega)

/-- Any other exponent is refused for its sign or for not being whole. -/
theorem copies_eq_error {x : Float}
    (refused : ∀ n : Nat, n ≤ maxExponent → exactValue? x ≠ some (n : Rat)) :
    copies (some x) = .error (if x < 0.0 then .negative x else .notWhole x) := by
  rcases value : (Binary.ofFloat? x).bind Binary.toInt? with _ | k
  · exact copies_of_not_whole value
  · rw [copies_of_whole value]
    simp only [lt_zero_iff_of_toInt? value]
    split_ifs with below small
    · rfl
    · have counted : copies (some x) = .ok k.toNat := by
        rw [copies_of_whole value, if_neg below, if_pos small]
      obtain ⟨le, same⟩ := (copies_eq_ok_iff x k.toNat).mp counted
      exact absurd same (refused k.toNat le)
    · rfl

/-! ### The operator -/

/-- What `.^` leaves: of no copies the number one, otherwise a matrix. -/
inductive Raised (α : Type) where
  | one
  | matrix (m : Matrix α)

/-- The token for what `.^` leaves. -/
def Raised.token : Raised Float → Token
  | one => .number 1.0
  | matrix m => .plainMatrix m

/-- So many copies of a matrix, multiplied. -/
def Matrix.raisedTo {α : Type} [Cell α] (m : Matrix α) : Nat → Except MatrixError (Raised α)
  | 0 => .ok .one
  | 1 => .ok (.matrix m)
  | n + 2 => (m.power (n + 2)).map .matrix

/-- The operator `.^` on a matrix with cells of any kind and an exponent, which is missing if the
operand on the right is not a number. -/
def Matrix.raised {α : Type} [Cell α] (m : Matrix α) (exponent : Option Float) :
    Except EvalError (Raised α) :=
  if m.rows ≠ m.cols then .error (.matrix (.notSquare m.rows m.cols))
  else
    match copies exponent with
    | .error problem => .error (.invalidExponent problem)
    | .ok n => (m.raisedTo n).mapError .matrix

/-- On doubles, `Matrix.raised` is the operator itself. -/
theorem matrixPowerOperands_eq (base exponent : Operand) :
    matrixPowerOperands base exponent =
      (base.toMatrix.raised exponent.scalar?).map Raised.token := by
  rw [matrixPowerOperands, Matrix.raised]
  generalize base.toMatrix = m
  by_cases shape : m.rows ≠ m.cols
  · rw [if_pos shape, if_pos shape]
    rfl
  rw [if_neg shape, if_neg shape]
  rcases exponent.scalar? with _ | x
  · rfl
  dsimp only
  by_cases below : x < 0.0
  · simp only [copies, if_pos below]
    rfl
  rw [if_neg below]
  rcases value : (Binary.ofFloat? x).bind Binary.toInt? with _ | k
  · rw [copies_of_not_whole value, if_neg below]
    rfl
  have sign : ¬k < 0 := fun negative ↦ below ((lt_zero_iff_of_toInt? value).mpr negative)
  rw [copies_of_whole value, if_neg sign]
  -- `k` is kept as it is until its case is chosen: with `n + 2` for it, choosing evaluates the bound
  by_cases zero : k = 0
  · subst zero
    rw [if_pos (Int.natCast_nonneg maxExponent)]
    rfl
  by_cases one : k = 1
  · subst one
    have small : (1 : Int) ≤ maxExponent := Int.ofNat_le.mpr (by decide)
    rw [if_pos small]
    rfl
  simp only
  by_cases small : k ≤ maxExponent
  · obtain ⟨n, whole⟩ : ∃ n : Nat, k.toNat = n + 2 := ⟨k.toNat - 2, by omega⟩
    rw [if_pos small, if_pos small, whole]
    dsimp only [Matrix.raisedTo]
    cases m.power (n + 2) with
    | ok p => rfl
    | error error => rfl
  · rw [if_neg small, if_neg small]
    rfl

namespace Matrix

variable {α : Type} [Cell α] {m : Matrix α}

theorem raisedTo_of_power {n : Nat} {p : Matrix α} (made : m.power n = .ok p) :
    m.raisedTo n = .ok (if n = 0 then .one else if n = 1 then .matrix m else .matrix p) := by
  rcases n with _ | _ | n
  · rfl
  · rfl
  · rw [raisedTo, made, if_neg (Nat.succ_ne_zero _), if_neg (by omega)]
    rfl

theorem raised_of_not_square (notSquare : m.rows ≠ m.cols) (exponent : Option Float) :
    m.raised exponent = .error (.matrix (.notSquare m.rows m.cols)) :=
  if_pos notSquare

theorem raised_of_copies {x : Float} {n : Nat} {p : Matrix α} (isSquare : m.rows = m.cols)
    (count : copies (some x) = .ok n) (made : m.power n = .ok p) :
    m.raised (some x) =
      .ok (if n = 0 then .one else if n = 1 then .matrix m else .matrix p) := by
  rw [raised, if_neg (not_not.mpr isSquare), count]
  dsimp only
  rw [raisedTo_of_power made]
  rfl

theorem raised_of_refused {x : Float} (isSquare : m.rows = m.cols)
    (refused : ∀ n : Nat, n ≤ maxExponent → exactValue? x ≠ some (n : Rat)) :
    m.raised (some x) =
      .error (.invalidExponent (if x < 0.0 then .negative x else .notWhole x)) := by
  rw [raised, if_neg (not_not.mpr isSquare), copies_eq_error refused]

end Matrix

/-- The operator `.^` looks at nothing but the shape of its base, the powers of it and the value of
the exponent. Powers of exact cells are repeated products. The exponents that are accepted are the
whole numbers from zero to `4294967295`, each of which is the value of a double; they leave the
number one for none, the matrix as it stands for one, and otherwise the power. Any other exponent is
refused, as is any base that is not square. -/
theorem matrixPower_exact :
    (∀ base exponent : Operand, matrixPowerOperands base exponent =
        (base.toMatrix.raised exponent.scalar?).map Raised.token) ∧
      (∀ m : Matrix Rat, m.rows = m.cols → ∀ n : Nat,
        ∃ p, m.power n = .ok p ∧ m.product n = .ok p) ∧
      (∀ n : Nat, n ≤ 4294967295 → ∃ x : Float, exactValue? x = some (n : Rat)) ∧
      ∀ (α : Type) [Cell α] (m : Matrix α),
        (m.rows ≠ m.cols → ∀ exponent : Option Float,
          m.raised exponent = .error (.matrix (.notSquare m.rows m.cols))) ∧
        (m.rows = m.cols → ∀ x : Float,
          (∀ n : Nat, n ≤ 4294967295 → exactValue? x = some (n : Rat) →
            ∃ p, m.power n = .ok p ∧ m.raised (some x) =
              .ok (if n = 0 then .one else if n = 1 then .matrix m else .matrix p)) ∧
          ((∀ n : Nat, n ≤ 4294967295 → exactValue? x ≠ some (n : Rat)) →
            m.raised (some x) =
              .error (.invalidExponent (if x < 0.0 then .negative x else .notWhole x)))) := by
  refine ⟨matrixPowerOperands_eq, fun m isSquare n ↦ Matrix.exists_power_eq_product isSquare n,
    fun n small ↦ exists_exactValue? (by omega), fun α _ m ↦ ⟨Matrix.raised_of_not_square,
      fun isSquare x ↦ ⟨fun n small value ↦ ?_, Matrix.raised_of_refused isSquare⟩⟩⟩
  obtain ⟨p, made⟩ := Matrix.exists_power isSquare n
  have count : copies (some x) = .ok n := (copies_eq_ok_iff x n).mpr ⟨small, value⟩
  exact ⟨p, made, Matrix.raised_of_copies isSquare count made⟩

/-- The tenth power of the matrix of the Fibonacci numbers. -/
theorem matrixPower_exact_fibonacci :
    let m : Matrix Rat := ⟨2, 2, ⟨#v[#v[1, 1], #v[1, 0]]⟩, by decide, by decide⟩
    let p : Matrix Rat := ⟨2, 2, ⟨#v[#v[89, 55], #v[55, 34]]⟩, by decide, by decide⟩
    m.rows = m.cols ∧ exactValue? 10.0 = some ((10 : Nat) : Rat) ∧
      m.power 10 = .ok p ∧ m.raised (some 10.0) = .ok (.matrix p) := by
  intro m p
  have value : exactValue? 10.0 = some ((10 : Nat) : Rat) := by decide +kernel
  have multiplied : m.product 10 = .ok p := by decide +kernel
  obtain ⟨-, products, -, raises⟩ := matrixPower_exact
  obtain ⟨q, made, same⟩ := products m rfl 10
  obtain rfl : p = q := Except.ok.inj (multiplied.symm.trans same)
  obtain ⟨r, again, raised⟩ := ((raises Rat m).2 rfl 10.0).1 10 (by decide) value
  obtain rfl : p = r := Except.ok.inj (made.symm.trans again)
  exact ⟨rfl, value, made, raised⟩

end MatrixCalculator
