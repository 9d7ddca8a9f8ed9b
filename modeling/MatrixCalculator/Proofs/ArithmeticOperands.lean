import MatrixCalculator.Proofs.ProperResults

/-!
# Operands and results of arithmetic

What an operator computes is a number or a matrix without labels, whatever its operands are. The one
exception is the plus sign, which hands a table back as it stands (`plain_of_applyOperator`).

A number and a matrix of one cell can stand for each other as operands. Beside a matrix of several
cells they have one result, and beside anything else they succeed or fail alike, but for one case: a
number has no remainder by a matrix of one cell, although such a matrix has
(`outcome_cell_for_number`).
-/

set_option autoImplicit false

namespace MatrixCalculator

open Evaluation

/-- Whether the operator computes something. The other two assign a value and name a parameter. -/
def Operator.isArithmetic : Operator → Bool
  | .assign | .hint => false
  | _ => true

theorem applyBinary_of_isArithmetic {op : Operator} (arithmetic : op.isArithmetic = true)
    (left right : Token) :
    applyBinary op left right = (reading fun store ↦ do
      let a ← operand store op.symbol left
      let b ← operand store op.symbol right
      binaryResult op a b) := by
  cases op with
  | assign | hint => cases arithmetic
  | _ => rfl

/-! ### Results -/

/-- Whether a token is a number or a matrix without labels. -/
def Token.IsPlain (t : Token) : Prop :=
  (∃ x, t = .number x) ∨ ∃ m, t = .plainMatrix m

section Results

variable {op : Operator} {store left : Store} {t result : Token}

theorem Token.ComesFrom.isPlain {a b : Matrix Float} (comesFrom : t.ComesFrom a b) :
    t.IsPlain := by
  rcases comesFrom with isNumber | ⟨m, isMatrix, -⟩
  · exact Or.inl isNumber
  · exact Or.inr ⟨m, isMatrix⟩

/-- The plus sign leaves a table as it stands. -/
theorem keepOperand_cases (a : Operand) :
    (keepOperand a).IsPlain ∨
      ∃ table, a = .grid (.table table) ∧ keepOperand a = .matrix (.table table) := by
  rcases a with x | (m | table)
  · exact Or.inl (Or.inl ⟨x, rfl⟩)
  · exact Or.inl (Or.inr ⟨m, rfl⟩)
  · exact Or.inr ⟨table, rfl, rfl⟩

theorem plain_of_applyUnary {x : Token}
    (returns : (applyUnary op x).runOn store = (.ok result, left)) :
    left = store ∧ (result.IsPlain ∨ op = .identity ∧ ∃ table,
      operand store op.symbol x = .ok (.grid (.table table)) ∧
        result = .matrix (.table table)) := by
  unfold applyUnary at returns
  split at returns
  · rw [runOn_reading] at returns
    obtain ⟨value, same⟩ := Prod.mk.inj returns
    obtain ⟨a, -, rfl⟩ := exists_of_map_eq_ok value
    exact ⟨same.symm, Or.inl (comesFrom_negateOperand a).isPlain⟩
  · rw [runOn_reading] at returns
    obtain ⟨value, same⟩ := Prod.mk.inj returns
    obtain ⟨a, isOperand, rfl⟩ := exists_of_map_eq_ok value
    refine ⟨same.symm, ?_⟩
    rcases keepOperand_cases a with plain | ⟨table, rfl, kept⟩
    · exact Or.inl plain
    · exact Or.inr ⟨rfl, table, isOperand, kept⟩
  · cases returns

theorem plain_of_applyBinary (arithmetic : op.isArithmetic = true) {x y : Token}
    (returns : (applyBinary op x y).runOn store = (.ok result, left)) :
    left = store ∧ result.IsPlain := by
  rw [applyBinary_of_isArithmetic arithmetic, runOn_reading] at returns
  obtain ⟨value, same⟩ := Prod.mk.inj returns
  obtain ⟨a, -, value⟩ := exists_of_bind_eq_ok value
  obtain ⟨b, -, value⟩ := exists_of_bind_eq_ok value
  exact ⟨same.symm, (comesFrom_binaryResult value).isPlain⟩

/-- What an arithmetic operator makes of its operands is a number or a matrix without labels, unless
the operator is the plus sign and the operand a table, which is handed back. The store stays as it
is. -/
theorem plain_of_applyOperator (isOp : t.operator = some op) (arithmetic : op.isArithmetic = true)
    {operands : List Token}
    (returns : (applyOperator t operands).runOn store = (.ok result, left)) :
    left = store ∧ (result.IsPlain ∨ op = .identity ∧ ∃ x table, operands = [x] ∧
      operand store op.symbol x = .ok (.grid (.table table)) ∧
        result = .matrix (.table table)) := by
  rw [applyOperator, isOp] at returns
  rcases reversed : operands.reverse with _ | ⟨y, _ | ⟨x, rest⟩⟩
  · rw [reversed] at returns
    cases returns
  · rw [reversed] at returns
    obtain ⟨same, plain | ⟨isSign, table, isTable, kept⟩⟩ := plain_of_applyUnary returns
    · exact ⟨same, Or.inl plain⟩
    · exact ⟨same, Or.inr ⟨isSign, y, table, List.reverse_eq_iff.mp reversed, isTable, kept⟩⟩
  · rw [reversed] at returns
    obtain ⟨same, plain⟩ := plain_of_applyBinary arithmetic returns
    exact ⟨same, Or.inl plain⟩

/-- Twice a table is a matrix without labels. -/
theorem plain_of_twice_table :
    let table : Table := ⟨["x"], .scalar 3.0, rfl⟩
    let store : Store := ⟨{}, [("T", .table table)], by decide⟩
    let run := (applyOperator (.ofOperator .multiply) [.matrixRef "T", .number 2.0]).runOn store
    ∃ result left, run = (.ok result, left) ∧ result.IsPlain := by
  intro table store run
  have returns : run = (.ok (.plainMatrix ((Matrix.scalar 3.0).map (· * 2.0))), store) := rfl
  obtain ⟨-, plain | ⟨isSign, -⟩⟩ := plain_of_applyOperator rfl rfl returns
  · exact ⟨_, _, returns, plain⟩
  · cases isSign

/-- A table behind a plus sign stays a table. -/
theorem sign_keeps_table :
    let table : Table := ⟨["x"], .scalar 3.0, rfl⟩
    let store : Store := ⟨{}, [("T", .table table)], by decide⟩
    (applyOperator (.ofOperator .identity) [.matrixRef "T"]).runOn store =
        (.ok (.matrix (.table table)), store) ∧
      ¬(Token.matrix (.table table)).IsPlain := by
  intro table store
  refine ⟨rfl, ?_⟩
  rintro (⟨x, isNumber⟩ | ⟨m, isMatrix⟩)
  · cases isNumber
  · cases isMatrix

end Results

/-! ### Numbers and matrices of one cell -/

theorem Matrix.scalar?_scalar {α : Type} (x : α) : (Matrix.scalar x).scalar? = some x := by
  simp [scalar?, scalar]

theorem Matrix.eq_scalar_of_scalar? {α : Type} {m : Matrix α} {x : α} (only : m.scalar? = some x) :
    m = .scalar x := by
  obtain ⟨rows, cols, grid, rows_pos, cols_pos⟩ := m
  unfold scalar? at only
  split_ifs at only with single
  obtain ⟨rfl, rfl⟩ : rows = 1 ∧ cols = 1 := single
  have same : grid = .filled 1 1 x := by
    ext i j
    rw [Subsingleton.elim i ⟨0, rows_pos⟩, Subsingleton.elim j ⟨0, cols_pos⟩, Grid.cell_filled]
    exact Option.some.inj only
  rw [same]
  rfl

theorem Matrix.scalar?_eq_none_iff {α : Type} (m : Matrix α) :
    m.scalar? = none ↔ m.shape ≠ (1, 1) := by
  unfold scalar? shape
  by_cases single : m.rows = 1 ∧ m.cols = 1
  · rw [if_pos single]
    exact iff_of_false (Option.some_ne_none _) (not_not.mpr (Prod.ext single.1 single.2))
  · rw [if_neg single]
    exact iff_of_true rfl fun same ↦ single (Prod.mk.inj same)

theorem Operand.scalar?_eq (a : Operand) : a.scalar? = a.toMatrix.scalar? := by
  rcases a with x | v
  · exact (Matrix.scalar?_scalar x).symm
  · rfl

section Operands

variable {a a' b b' : Operand} {w : Value}

/-- Two matrices of which one has a single cell can be added, subtracted, multiplied and divided. -/
theorem exists_applyMatrices (operation : Arithmetic) {m n : Matrix Float} {x : Float}
    (single : m.scalar? = some x ∨ n.scalar? = some x) :
    ∃ result, operation.applyMatrices m n = .ok result := by
  unfold Arithmetic.applyMatrices
  by_cases same : m.shape = n.shape
  · rw [if_pos same]
    exact ⟨_, dif_pos (Prod.mk.inj same)⟩
  · rw [if_neg same]
    rcases ofLeft : m.scalar? with _ | y
    · have ofRight : n.scalar? = some x := single.resolve_left (by simp [ofLeft])
      rw [ofRight]
      exact ⟨_, rfl⟩
    · rcases n.scalar? with _ | z <;> exact ⟨_, rfl⟩

theorem isOk_evaluate (operation : Arithmetic) (a b : Operand) :
    (operation.evaluate a b).isOk = (operation.applyMatrices a.toMatrix b.toMatrix).isOk := by
  have single (x : Float) := Matrix.scalar?_scalar x
  rcases a with x | v
  · obtain ⟨m, made⟩ := exists_applyMatrices operation (n := b.toMatrix) (Or.inl (single x))
    rw [Operand.toMatrix, made]
    rcases b with y | w <;> rfl
  · rcases b with y | w
    · obtain ⟨m, made⟩ := exists_applyMatrices operation (m := v.toMatrix) (Or.inr (single y))
      rw [Operand.toMatrix, Operand.toMatrix, made]
      rfl
    · rw [Arithmetic.evaluate, Operand.toMatrix, Operand.toMatrix]
      rcases operation.applyMatrices v.toMatrix w.toMatrix with error | m <;> rfl

theorem isOk_powerOperands (base exponent : Operand) :
    (powerOperands base exponent).isOk = exponent.scalar?.isSome := by
  unfold powerOperands
  rcases exponent.scalar? with _ | e
  · rfl
  · rcases base with x | v <;> rfl

/-- There is a remainder by a number, and a remainder of a matrix by a matrix of one cell. -/
theorem isOk_moduloOperands (a b : Operand) :
    (moduloOperands a b).isOk = true ↔
      (∃ y, b = .scalar y) ∨ ∃ v w y, a = .grid v ∧ b = .grid w ∧ w.scalar? = some y := by
  rcases b with y | w
  · refine iff_of_true ?_ (Or.inl ⟨y, rfl⟩)
    rcases a with x | v <;> rfl
  · rcases a with x | v
    · refine iff_of_false Bool.false_ne_true ?_
      rintro (⟨y, same⟩ | ⟨v, w, y, same, -⟩) <;> cases same
    · rw [moduloOperands]
      rcases only : w.scalar? with _ | y
      · refine iff_of_false Bool.false_ne_true ?_
        rintro (⟨y, same⟩ | ⟨v, w, y, -, same, isSingle⟩) <;> cases same
        rw [only] at isSingle
        cases isSingle
      · exact iff_of_true rfl (Or.inr ⟨v, w, y, rfl, rfl, only⟩)

/-- Beside a matrix of several cells a number is calculated with as a matrix of one cell. -/
theorem evaluate_of_several (operation : Arithmetic) (several : w.scalar? = none) (a : Operand) :
    operation.evaluate a (.grid w) =
        ((operation.applyMatrices a.toMatrix w.toMatrix).map .plainMatrix).mapError .matrix ∧
      operation.evaluate (.grid w) a =
        ((operation.applyMatrices w.toMatrix a.toMatrix).map .plainMatrix).mapError .matrix := by
  rcases a with x | v
  · have other : w.toMatrix.shape ≠ (Matrix.scalar x).shape :=
      (Matrix.scalar?_eq_none_iff _).mp several
    have noCell : w.toMatrix.scalar? = none := several
    rw [Operand.toMatrix, Arithmetic.applyMatrices, Arithmetic.applyMatrices, if_neg other,
      if_neg other.symm, Matrix.scalar?_scalar, noCell]
    exact ⟨rfl, rfl⟩
  · rw [Arithmetic.evaluate, Arithmetic.evaluate, Operand.toMatrix]
    constructor
    · rcases operation.applyMatrices v.toMatrix w.toMatrix with error | m <;> rfl
    · rcases operation.applyMatrices w.toMatrix v.toMatrix with error | m <;> rfl

theorem moduloOperands_grid (a : Operand) :
    moduloOperands (.grid w) a = a.scalar?.elim (.error .invalidModulo)
      fun y ↦ .ok (.plainMatrix (w.toMatrix.map fun x ↦ remainder x y)) := by
  rcases a with y | v
  · rfl
  · rw [moduloOperands, Operand.scalar?]
    rcases v.scalar? with _ | y <;> rfl

theorem moduloOperands_of_several (several : w.scalar? = none) (a : Operand) :
    moduloOperands a (.grid w) = .error .invalidModulo := by
  rcases a with x | v
  · rfl
  · rw [moduloOperands, several]

/-- A matrix of one cell can stand for a number as a dividend, unless the divisor is a matrix of one
cell: it has a remainder by that, which a number has not. -/
theorem isOk_dividend (x : Float) (v : Value) (b : Operand) :
    (moduloOperands (.scalar x) b).isOk = (moduloOperands (.grid v) b).isOk ↔
      ¬∃ w y, b = .grid w ∧ w.scalar? = some y := by
  rw [Bool.eq_iff_iff, isOk_moduloOperands, isOk_moduloOperands]
  rcases b with y | w <;> simp

/-- A matrix of one cell can stand for a number as a divisor, unless the dividend is a number. -/
theorem isOk_divisor {v : Value} {x : Float} (only : v.scalar? = some x) (a : Operand) :
    (moduloOperands a (.scalar x)).isOk = (moduloOperands a (.grid v)).isOk ↔
      ¬∃ y, a = .scalar y := by
  rw [Bool.eq_iff_iff, isOk_moduloOperands, isOk_moduloOperands]
  rcases a with y | u <;> simp [only]

section Congruence

variable (left : a.toMatrix = a'.toMatrix) (right : b.toMatrix = b'.toMatrix)

include left right

/-- The matrix operators look at nothing but the matrices that their operands become. -/
theorem matrixResult_congr :
    matrixPowerOperands a b = matrixPowerOperands a' b' ∧
      matrixProductOperands a b = matrixProductOperands a' b' ∧
      matrixQuotientOperands a b = matrixQuotientOperands a' b' := by
  refine ⟨?_, ?_, ?_⟩
  · rw [matrixPowerOperands, matrixPowerOperands, left, b.scalar?_eq, b'.scalar?_eq, right]
  · rw [matrixProductOperands, matrixProductOperands, left, right]
  · rw [matrixQuotientOperands, matrixQuotientOperands, right]
    simp only [matrixProductOperands, left]

/-- Whether there is a result depends on the matrices that the operands become, unless it is a
remainder. -/
theorem isOk_binaryResult_congr {op : Operator} (noModulo : op ≠ .modulo) :
    (binaryResult op a b).isOk = (binaryResult op a' b').isOk := by
  obtain ⟨powers, products, quotients⟩ := matrixResult_congr left right
  cases op with
  | add | subtract | multiply | divide =>
    rw [binaryResult, binaryResult, isOk_evaluate, isOk_evaluate, left, right]
  | modulo => exact absurd rfl noModulo
  | power =>
    rw [binaryResult, binaryResult, isOk_powerOperands, isOk_powerOperands, b.scalar?_eq, right,
      b'.scalar?_eq]
  | matrixPower => rw [binaryResult, binaryResult, powers]
  | matrixMultiply => rw [binaryResult, binaryResult, products]
  | matrixDivide => rw [binaryResult, binaryResult, quotients]
  | assign | hint | negate | identity => rfl

omit right in
/-- Beside a matrix of several cells the result itself depends only on the matrix that the other
operand becomes. -/
theorem binaryResult_congr_of_several (op : Operator) (several : w.scalar? = none) :
    binaryResult op a (.grid w) = binaryResult op a' (.grid w) ∧
      binaryResult op (.grid w) a = binaryResult op (.grid w) a' := by
  obtain ⟨powers, products, quotients⟩ :=
    matrixResult_congr left (Eq.refl (Operand.grid w).toMatrix)
  obtain ⟨powers', products', quotients'⟩ :=
    matrixResult_congr (Eq.refl (Operand.grid w).toMatrix) left
  have same : a.scalar? = a'.scalar? := by rw [a.scalar?_eq, left, a'.scalar?_eq]
  have noCell : (Operand.grid w).scalar? = none := several
  cases op with
  | add | subtract | multiply | divide =>
    simp only [binaryResult, evaluate_of_several _ several, left, and_self]
  | modulo =>
    simp only [binaryResult, moduloOperands_of_several several, moduloOperands_grid, same, and_self]
  | power => simp only [binaryResult, powerOperands, noCell, same, and_self]
  | matrixPower => exact ⟨powers, powers'⟩
  | matrixMultiply => exact ⟨products, products'⟩
  | matrixDivide => exact ⟨quotients, quotients'⟩
  | assign | hint | negate | identity => exact ⟨rfl, rfl⟩

end Congruence

end Operands

/-- What an operator makes of two tokens. -/
def Operator.outcome (op : Operator) (store : Store) (left right : Token) :
    Except EvalError Token :=
  ((applyOperator (.ofOperator op) [left, right]).runOn store).1

theorem outcome_eq {op : Operator} (arithmetic : op.isArithmetic = true) (store : Store)
    (left right : Token) :
    op.outcome store left right = (do
      let a ← operand store op.symbol left
      let b ← operand store op.symbol right
      binaryResult op a b) := by
  change ((applyBinary op left right).runOn store).1 = _
  rw [applyBinary_of_isArithmetic arithmetic, runOn_reading]

/-- A number and a matrix of one cell that holds it are operands alike, on either side of every
arithmetic operator: beside a matrix of several cells they have the same result, and beside
anything else one of them has a result iff the other has. Only a remainder is refused where a number
is to be divided by a matrix of one cell. -/
theorem outcome_cell_for_number {op : Operator} (arithmetic : op.isArithmetic = true)
    {store : Store} {number cell : Token} {x : Float} {v : Value}
    (isNumber : operand store op.symbol number = .ok (.scalar x))
    (isCell : operand store op.symbol cell = .ok (.grid v)) (only : v.scalar? = some x)
    (other : Token) :
    ((op.outcome store number other).isOk = (op.outcome store cell other).isOk ↔
        ¬(op = .modulo ∧
          ∃ w y, operand store op.symbol other = .ok (.grid w) ∧ w.scalar? = some y)) ∧
      ((op.outcome store other number).isOk = (op.outcome store other cell).isOk ↔
        ¬(op = .modulo ∧ ∃ y, operand store op.symbol other = .ok (.scalar y))) ∧
      ∀ w, operand store op.symbol other = .ok (.grid w) → w.scalar? = none →
        op.outcome store number other = op.outcome store cell other ∧
          op.outcome store other number = op.outcome store other cell := by
  have same : (Operand.scalar x).toMatrix = (Operand.grid v).toMatrix :=
    (Matrix.eq_scalar_of_scalar? only).symm
  simp only [outcome_eq arithmetic, isNumber, isCell, ok_bind]
  rcases isOperand : operand store op.symbol other with error | b
  · refine ⟨iff_of_true rfl ?_, iff_of_true rfl ?_, ?_⟩
    · rintro ⟨-, w, y, isGrid, -⟩
      cases isGrid
    · rintro ⟨-, y, isScalar⟩
      cases isScalar
    · intro w isGrid
      cases isGrid
  · simp only [ok_bind, Except.ok.injEq]
    refine ⟨?_, ?_, ?_⟩
    · by_cases isModulo : op = .modulo
      · subst isModulo
        exact (isOk_dividend x v b).trans (by simp)
      · exact iff_of_true (isOk_binaryResult_congr same rfl isModulo) fun both ↦ isModulo both.1
    · by_cases isModulo : op = .modulo
      · subst isModulo
        exact (isOk_divisor only b).trans (by simp)
      · exact iff_of_true (isOk_binaryResult_congr rfl same isModulo) fun both ↦ isModulo both.1
    · rintro w rfl several
      exact binaryResult_congr_of_several same op several

/-- The remainders of a row of cells by a number, and by a name that is bound to one cell. -/
theorem outcome_cell_for_divisor :
    let row : Matrix Float := ⟨1, 2, ⟨#v[#v[3.0, 4.0]]⟩, by decide, by decide⟩
    let store : Store :=
      ⟨{}, [("A", .matrix (.scalar 2.0)), ("B", .matrix row)], by decide⟩
    (Operator.modulo.outcome store (.matrixRef "B") (.number 2.0)).isOk = true ∧
      Operator.modulo.outcome store (.matrixRef "B") (.number 2.0) =
        Operator.modulo.outcome store (.matrixRef "B") (.matrixRef "A") := by
  intro row store
  have only : (Value.matrix (.scalar 2.0)).scalar? = some 2.0 := rfl
  obtain ⟨-, -, several⟩ := @outcome_cell_for_number .modulo rfl store (.number 2.0)
    (.matrixRef "A") 2.0 (.matrix (.scalar 2.0)) rfl rfl only (.matrixRef "B")
  exact ⟨rfl, (several (.matrix row) rfl rfl).2⟩

/-- Five has no remainder by a matrix of one cell, but a matrix of one cell that holds five has. -/
theorem number_by_cell_refused :
    let cell (x : Float) := Token.plainMatrix (.scalar x)
    (Operator.modulo.outcome (.empty {}) (.number 5.0) (cell 3.0)).isOk = false ∧
      (Operator.modulo.outcome (.empty {}) (cell 5.0) (cell 3.0)).isOk = true :=
  ⟨rfl, rfl⟩

end MatrixCalculator
