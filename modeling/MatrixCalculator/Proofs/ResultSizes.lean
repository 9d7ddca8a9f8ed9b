import MatrixCalculator.Evaluation.Basic
import MatrixCalculator.Proofs.TokenReading

/-!
# Sizes of results

Operators and services make no matrix that is larger than what they are given, but for the services
that are asked for a size and for the two numbers of a shape. So a set of sizes that holds these is
never left: what an operator computes is a number, or a matrix whose numbers of rows and columns are
those of its operands (`comesFrom_binaryResult`), and what a built-in service hands back is of
allowed size if its arguments are (`Services.keepsSizes_of_mem_handlers`).
-/

set_option autoImplicit false

namespace MatrixCalculator

/-! ### Shapes of matrices -/

namespace Matrix

variable {α : Type} {m left right result : Matrix α}

theorem shape_of_zipWith {operation : String} {f : α → α → α}
    (made : zipWith operation f left right = .ok result) : result.shape = left.shape := by
  unfold zipWith at made
  split_ifs at made
  cases made
  rfl

theorem shape_of_multiply [Add α] [Mul α] [Zero α] (made : left.multiply right = .ok result) :
    result.rows = left.rows ∧ result.cols = right.cols := by
  unfold multiply at made
  split_ifs at made
  cases made
  exact ⟨rfl, rfl⟩

theorem cols_of_square {grid : Grid α m.rows m.rows} (isSquare : m.square = .ok grid) :
    m.cols = m.rows := by
  unfold square at isSquare
  split_ifs at isSquare with same
  exact same

theorem shape_ofSquare {grid : Grid α m.rows m.rows} (isSquare : m.square = .ok grid)
    (other : Grid α m.rows m.rows) : (m.ofSquare other).shape = m.shape := by
  rw [shape, shape, cols_of_square isSquare]
  rfl

variable [Cell α]

theorem shape_of_inverse (made : m.inverse = .ok result) : result.shape = m.shape := by
  obtain ⟨grid, isSquare, made⟩ := exists_of_bind_eq_ok made
  split at made
  · cases made
    exact shape_ofSquare isSquare _
  · cases made

theorem shape_of_factors {lower upper : Matrix α} (made : m.factors = .ok (lower, upper)) :
    lower.shape = m.shape ∧ upper.shape = m.shape := by
  obtain ⟨grid, isSquare, made⟩ := exists_of_bind_eq_ok made
  split at made
  · cases made
    exact ⟨shape_ofSquare isSquare _, shape_ofSquare isSquare _⟩
  · cases made

theorem shape_of_power {exponent : Nat} (made : m.power exponent = .ok result) :
    result.shape = m.shape := by
  obtain ⟨grid, isSquare, rfl⟩ := exists_of_map_eq_ok made
  exact shape_ofSquare isSquare _

omit [Cell α] in
theorem shape_of_subRange {rows cols : Span} (made : m.subRange rows cols = .ok result) :
    result.shape = (rows.length, cols.length) ∧ rows.length ≤ m.rows ∧ cols.length ≤ m.cols := by
  unfold subRange at made
  split_ifs at made with inside
  cases made
  refine ⟨rfl, ?_, ?_⟩ <;> rw [Span.length] <;> omega

end Matrix

/-! ### Operators -/

/-- Whether a token is a number, or a plain matrix with no other numbers of rows and columns than
two matrices have. -/
def Token.ComesFrom (left right : Matrix Float) (t : Token) : Prop :=
  (∃ x, t = .number x) ∨ ∃ m, t = .plainMatrix m ∧ (m.rows = left.rows ∨ m.rows = right.rows) ∧
    (m.cols = left.cols ∨ m.cols = right.cols)

section Operators

variable {left right m : Matrix Float} {a b : Operand} {t : Token}

theorem comesFrom_number (x : Float) : (Token.number x).ComesFrom left right :=
  Or.inl ⟨x, rfl⟩

theorem comesFrom_of_shape_left (same : m.shape = left.shape) :
    (Token.plainMatrix m).ComesFrom left right := by
  obtain ⟨rows, cols⟩ := Prod.mk.inj same
  exact Or.inr ⟨m, rfl, Or.inl rows, Or.inl cols⟩

theorem comesFrom_of_shape_right (same : m.shape = right.shape) :
    (Token.plainMatrix m).ComesFrom left right := by
  obtain ⟨rows, cols⟩ := Prod.mk.inj same
  exact Or.inr ⟨m, rfl, Or.inr rows, Or.inr cols⟩

theorem shape_of_applyMatrices {op : Arithmetic} (made : op.applyMatrices left right = .ok m) :
    m.shape = left.shape ∨ m.shape = right.shape := by
  unfold Arithmetic.applyMatrices at made
  split_ifs at made
  · exact Or.inl (Matrix.shape_of_zipWith made)
  · split at made
    · cases made
      exact Or.inl rfl
    · cases made
      exact Or.inr rfl
    · exact Or.inl (Matrix.shape_of_zipWith made)

theorem comesFrom_arithmetic {op : Arithmetic} (value : op.evaluate a b = .ok t) :
    t.ComesFrom a.toMatrix b.toMatrix := by
  unfold Arithmetic.evaluate at value
  split at value
  · cases value
    exact comesFrom_number _
  · cases value
    exact comesFrom_of_shape_left rfl
  · cases value
    exact comesFrom_of_shape_right rfl
  · split at value
    · rename_i made
      cases value
      exact (shape_of_applyMatrices made).elim comesFrom_of_shape_left comesFrom_of_shape_right
    · cases value

theorem comesFrom_moduloOperands (value : moduloOperands a b = .ok t) :
    t.ComesFrom a.toMatrix b.toMatrix := by
  unfold moduloOperands at value
  split at value
  · cases value
    exact comesFrom_number _
  · cases value
    exact comesFrom_of_shape_left rfl
  · split at value <;> cases value
    exact comesFrom_of_shape_left rfl
  · cases value

theorem comesFrom_powerOperands (value : powerOperands a b = .ok t) :
    t.ComesFrom a.toMatrix b.toMatrix := by
  unfold powerOperands at value
  split at value
  · cases value
  · split at value <;> cases value
    · exact comesFrom_number _
    · exact comesFrom_of_shape_left rfl

theorem comesFrom_matrixPowerOperands (value : matrixPowerOperands a b = .ok t) :
    t.ComesFrom a.toMatrix b.toMatrix := by
  unfold matrixPowerOperands at value
  dsimp only at value
  split_ifs at value
  split at value
  · cases value
  · split_ifs at value
    split at value
    · cases value
      exact comesFrom_number _
    · cases value
      exact comesFrom_of_shape_left rfl
    · split_ifs at value
      split at value
      · rename_i made
        cases value
        exact comesFrom_of_shape_left (Matrix.shape_of_power made)
      · cases value
    · cases value

theorem comesFrom_matrixProductOperands (value : matrixProductOperands a b = .ok t) :
    t.ComesFrom a.toMatrix b.toMatrix := by
  unfold matrixProductOperands at value
  split at value
  · rename_i made
    cases value
    obtain ⟨rows, cols⟩ := Matrix.shape_of_multiply made
    exact Or.inr ⟨_, rfl, Or.inl rows, Or.inr cols⟩
  · cases value

theorem comesFrom_matrixQuotientOperands (value : matrixQuotientOperands a b = .ok t) :
    t.ComesFrom a.toMatrix b.toMatrix := by
  unfold matrixQuotientOperands at value
  split at value
  · rename_i inverse made
    obtain ⟨rows, cols⟩ := Prod.mk.inj (Matrix.shape_of_inverse made)
    obtain isNumber | ⟨m, isMatrix, ofRows, ofCols⟩ := comesFrom_matrixProductOperands value
    · exact Or.inl isNumber
    · exact Or.inr ⟨m, isMatrix, rows ▸ ofRows, cols ▸ ofCols⟩
  · cases value

/-- Of two operands an operator makes a number, or a matrix with rows and columns as many as one of
them has. -/
theorem comesFrom_binaryResult {op : Operator} (value : binaryResult op a b = .ok t) :
    t.ComesFrom a.toMatrix b.toMatrix := by
  cases op with
  | add | subtract | multiply | divide => exact comesFrom_arithmetic value
  | modulo => exact comesFrom_moduloOperands value
  | power => exact comesFrom_powerOperands value
  | matrixPower => exact comesFrom_matrixPowerOperands value
  | matrixMultiply => exact comesFrom_matrixProductOperands value
  | matrixDivide => exact comesFrom_matrixQuotientOperands value
  | assign | hint | negate | identity => cases value

theorem comesFrom_negateOperand (a : Operand) :
    (negateOperand a).ComesFrom a.toMatrix a.toMatrix := by
  cases a with
  | scalar x => exact comesFrom_number _
  | grid v => exact comesFrom_of_shape_left rfl

end Operators

/-! ### Allowed sizes -/

/-- Whether the numbers of rows and columns of a matrix are allowed. -/
def Matrix.Sized (allowed : Nat → Prop) (m : Matrix Float) : Prop :=
  allowed m.rows ∧ allowed m.cols

/-- Whether the numbers of rows and columns of a value are allowed. -/
def Value.Sized (allowed : Nat → Prop) (v : Value) : Prop :=
  v.toMatrix.Sized allowed

/-- Whether the allowed sizes include those that services make on their own: that of a shape, and
all that the limits let a service be asked for. Parts of a matrix have to be of allowed size too. -/
structure Admits (limits : Limits) (allowed : Nat → Prop) : Prop where
  two : allowed 2
  requested : allowed limits.maxDimension
  smaller : ∀ {n m : Nat}, n ≤ m → allowed m → allowed n

theorem Admits.one {limits : Limits} {allowed : Nat → Prop} (admits : Admits limits allowed) :
    allowed 1 :=
  admits.smaller (by decide) admits.two

/-- The values that an argument holds. -/
def Argument.carried : Argument → List Value
  | .matrix v => [v]
  | .int _ | .float _ | .text _ | .null => []

/-- The values that a service hands back. -/
def ServiceOutput.carried : ServiceOutput → List Value
  | .value v => [v]
  | .values vs => vs
  | .number _ | .void | .null => []

namespace Services

/-- Whether a service that receives values of allowed sizes hands back such. -/
def KeepsSizes (handler : Handler) : Prop :=
  ∀ (allowed : Nat → Prop) (limits : Limits), Admits limits allowed →
    ∀ args output, (∀ a ∈ args, ∀ v ∈ a.carried, v.Sized allowed) →
      handler args limits = .ok output → ∀ v ∈ output.carried, v.Sized allowed

section Sizes

variable {allowed : Nat → Prop} {limits : Limits} {args : List Argument} {output : ServiceOutput}

theorem sized_of_valueAt (sized : ∀ a ∈ args, ∀ v ∈ a.carried, v.Sized allowed) {index : Nat}
    {value : Value} (found : valueAt args index = .ok value) : value.Sized allowed := by
  unfold valueAt at found
  split at found
  · rename_i isAt
    cases found
    exact sized _ (List.mem_of_getElem? isAt) value List.mem_cons_self
  · cases found

theorem sized_of_matrixAt (sized : ∀ a ∈ args, ∀ v ∈ a.carried, v.Sized allowed) {index : Nat}
    {m : Matrix Float} (found : matrixAt args index = .ok m) : m.Sized allowed := by
  obtain ⟨value, isValue, rfl⟩ := exists_of_map_eq_ok found
  exact sized_of_valueAt sized isValue

theorem sized_of_shape {m other : Matrix Float} (same : other.shape = m.shape)
    (sized : m.Sized allowed) : other.Sized allowed := by
  obtain ⟨rows, cols⟩ := Prod.mk.inj same
  exact ⟨rows ▸ sized.1, cols ▸ sized.2⟩

theorem allowed_of_dimension (admits : Admits limits allowed) {n : Int} {what : String} {size : Nat}
    (inLimits : dimension n what limits = .ok size) : allowed size := by
  unfold dimension at inLimits
  split_ifs at inLimits with small large
  cases inLimits
  exact admits.smaller (by omega) admits.requested

theorem sized_of_answer {result : Except MatrixError (Matrix Float)}
    (answered : answer result = .ok output) (sized : ∀ m, result = .ok m → m.Sized allowed) :
    ∀ v ∈ output.carried, v.Sized allowed := by
  unfold answer at answered
  split at answered
  · rename_i m
    cases answered
    exact List.forall_mem_singleton.mpr (sized m rfl)
  · cases answered

theorem keepsSizes_identity : KeepsSizes identity := by
  intro allowed limits admits args output sized made
  obtain ⟨n, -, made⟩ := exists_of_bind_eq_ok made
  obtain ⟨size, inLimits, made⟩ := exists_of_bind_eq_ok made
  refine sized_of_answer made fun m ofSize ↦ ?_
  unfold Matrix.identity at ofSize
  split_ifs at ofSize
  cases ofSize
  exact ⟨allowed_of_dimension admits inLimits, allowed_of_dimension admits inLimits⟩

theorem keepsSizes_fill : KeepsSizes fill := by
  intro allowed limits admits args output sized made
  obtain ⟨r, -, made⟩ := exists_of_bind_eq_ok made
  obtain ⟨rows, rowsInLimits, made⟩ := exists_of_bind_eq_ok made
  obtain ⟨c, -, made⟩ := exists_of_bind_eq_ok made
  obtain ⟨cols, colsInLimits, made⟩ := exists_of_bind_eq_ok made
  obtain ⟨x, -, made⟩ := exists_of_bind_eq_ok made
  refine sized_of_answer made fun m ofSize ↦ ?_
  unfold Matrix.filled at ofSize
  split_ifs at ofSize
  cases ofSize
  exact ⟨allowed_of_dimension admits rowsInLimits, allowed_of_dimension admits colsInLimits⟩

/-- A service that answers with a matrix made of its first argument keeps sizes if the making does
so. -/
theorem keepsSizes_answer (f : Matrix Float → Except MatrixError (Matrix Float))
    (kept : ∀ (allowed : Nat → Prop) (m result : Matrix Float), f m = .ok result →
      m.Sized allowed → result.Sized allowed) :
    KeepsSizes (fun args _ ↦ do answer (f (← matrixAt args 0))) := by
  intro allowed limits admits args output sized made
  obtain ⟨m, found, made⟩ := exists_of_bind_eq_ok made
  exact sized_of_answer made fun result ofThis ↦
    kept allowed m result ofThis (sized_of_matrixAt sized found)

/-- A service that answers with a number hands back no value. -/
theorem keepsSizes_answerNumber (f : Matrix Float → Except MatrixError Float) :
    KeepsSizes (fun args _ ↦ do answerNumber (f (← matrixAt args 0))) := by
  intro allowed limits admits args output sized made
  obtain ⟨m, -, made⟩ := exists_of_bind_eq_ok made
  unfold answerNumber at made
  split at made <;> cases made
  exact List.forall_mem_nil _

theorem keepsSizes_transpose : KeepsSizes transpose := by
  refine keepsSizes_answer (fun m ↦ .ok m.transpose) fun allowed m result made sized ↦ ?_
  cases made
  exact ⟨sized.2, sized.1⟩

theorem keepsSizes_inverse : KeepsSizes inverse :=
  keepsSizes_answer Matrix.inverse fun _ _ _ made ↦ sized_of_shape (Matrix.shape_of_inverse made)

theorem keepsSizes_absolute : KeepsSizes absolute := by
  refine keepsSizes_answer (fun m ↦ .ok (m.map Float.abs)) fun allowed m result made sized ↦ ?_
  cases made
  exact sized

theorem keepsSizes_toMatrix : KeepsSizes toMatrix := by
  refine keepsSizes_answer .ok fun allowed m result made sized ↦ ?_
  cases made
  exact sized

theorem keepsSizes_round : KeepsSizes round := by
  intro allowed limits admits args output sized made
  obtain ⟨places, -, made⟩ := exists_of_bind_eq_ok made
  split_ifs at made
  obtain ⟨m, found, made⟩ := exists_of_bind_eq_ok made
  have ofMatrix := sized_of_matrixAt sized found
  refine sized_of_answer made fun result rounded ↦ ?_
  cases rounded
  exact ofMatrix

theorem keepsSizes_shape : KeepsSizes shape := by
  intro allowed limits admits args output sized made
  obtain ⟨value, -, made⟩ := exists_of_bind_eq_ok made
  refine sized_of_answer made fun m ofCells ↦ ?_
  cases ofCells
  exact ⟨admits.one, admits.two⟩

theorem keepsSizes_factors : KeepsSizes factors := by
  intro allowed limits admits args output sized made
  obtain ⟨m, found, made⟩ := exists_of_bind_eq_ok made
  split at made
  · rename_i lower upper factored
    cases made
    obtain ⟨ofLower, ofUpper⟩ := Matrix.shape_of_factors factored
    have ofMatrix := sized_of_matrixAt sized found
    exact List.forall_mem_cons.mpr ⟨sized_of_shape ofLower ofMatrix,
      List.forall_mem_singleton.mpr (sized_of_shape ofUpper ofMatrix)⟩
  · cases made

theorem keepsSizes_toTable : KeepsSizes toTable := by
  intro allowed limits admits args output sized made
  obtain ⟨value, found, made⟩ := exists_of_bind_eq_ok made
  have ofValue := sized_of_valueAt sized found
  split at made <;> cases made <;> exact List.forall_mem_singleton.mpr ofValue

/-- A summary has one row and as many columns as before. -/
theorem keepsSizes_summary (f : List Float → Float) :
    KeepsSizes (fun args _ ↦ do return .value ((← valueAt args 0).summarizeColumns f)) := by
  intro allowed limits admits args output sized made
  obtain ⟨value, found, made⟩ := exists_of_bind_eq_ok made
  cases made
  have ofValue := sized_of_valueAt sized found
  cases value <;> exact List.forall_mem_singleton.mpr ⟨admits.one, ofValue.2⟩

theorem shape_of_subRange {v result : Value} {rows cols : Span}
    (made : v.subRange rows cols = .ok result) :
    result.toMatrix.rows ≤ v.toMatrix.rows ∧ result.toMatrix.cols ≤ v.toMatrix.cols := by
  have bounded {m part : Matrix Float} (made : m.subRange rows cols = .ok part) :
      part.rows ≤ m.rows ∧ part.cols ≤ m.cols := by
    obtain ⟨same, fewRows, fewCols⟩ := Matrix.shape_of_subRange made
    obtain ⟨ofRows, ofCols⟩ := Prod.mk.inj same
    exact ⟨ofRows ▸ fewRows, ofCols ▸ fewCols⟩
  cases v with
  | matrix m =>
    obtain ⟨part, ofMatrix, rfl⟩ := exists_of_map_eq_ok made
    exact bounded ofMatrix
  | table t =>
    obtain ⟨part, ofTable, rfl⟩ := exists_of_map_eq_ok made
    obtain ⟨inner, ofMatrix, labelled⟩ := exists_of_bind_eq_ok ofTable
    unfold Table.ofLabels at labelled
    split_ifs at labelled
    cases labelled
    exact bounded ofMatrix

theorem keepsSizes_subMatrix : KeepsSizes subMatrix := by
  intro allowed limits admits args output sized made
  obtain ⟨value, found, made⟩ := exists_of_bind_eq_ok made
  obtain ⟨top, -, made⟩ := exists_of_bind_eq_ok made
  obtain ⟨bottom, -, made⟩ := exists_of_bind_eq_ok made
  obtain ⟨left, -, made⟩ := exists_of_bind_eq_ok made
  obtain ⟨right, -, made⟩ := exists_of_bind_eq_ok made
  split at made
  · rename_i selected isPart
    cases made
    have ofValue := sized_of_valueAt sized found
    obtain ⟨fewRows, fewCols⟩ := shape_of_subRange isPart
    exact List.forall_mem_singleton.mpr
      ⟨admits.smaller fewRows ofValue.1, admits.smaller fewCols ofValue.2⟩
  · cases made

/-- Every built-in service keeps sizes. -/
theorem keepsSizes_of_mem_handlers {entry : (String × String) × Handler}
    (isHandler : entry ∈ handlers) : KeepsSizes entry.2 := by
  simp only [handlers, List.mem_cons, List.not_mem_nil, or_false] at isHandler
  rcases isHandler with rfl | rfl | rfl | rfl | rfl | rfl | rfl | rfl | rfl | rfl | rfl | rfl |
    rfl | rfl | rfl | rfl
  · exact keepsSizes_identity
  · exact keepsSizes_fill
  · exact keepsSizes_transpose
  · exact keepsSizes_answerNumber Matrix.determinant
  · exact keepsSizes_inverse
  · exact keepsSizes_answerNumber fun m ↦ .ok (Float.ofNat m.rank)
  · exact keepsSizes_answerNumber Matrix.trace
  · exact keepsSizes_shape
  · exact keepsSizes_subMatrix
  · exact keepsSizes_factors
  · exact keepsSizes_absolute
  · exact keepsSizes_round
  · exact keepsSizes_toTable
  · exact keepsSizes_toMatrix
  · exact keepsSizes_summary columnMean
  · exact keepsSizes_summary columnSum

end Sizes

end Services

end MatrixCalculator
