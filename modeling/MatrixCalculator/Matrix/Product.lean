import MatrixCalculator.Matrix.Grid

/-!
# Products and powers

A row of a product collects the rows of the right factor, each times one cell of the left factor, in
the order of the columns of the left factor. Powers are computed by repeated squaring.
-/

set_option autoImplicit false

namespace MatrixCalculator.Grid

variable {α : Type} {r c n : Nat}

/-- A row of cells with a multiple of another row added to it. -/
def addMultiple [Add α] [Mul α] (total : Vector α c) (factor : α) (row : Vector α c) : Vector α c :=
  total.zipWith (fun x y ↦ x + factor * y) row

/-- The product of two grids, of which the left has as many columns as the right has rows. -/
def multiply [Add α] [Mul α] [Zero α] (left : Grid α r n) (right : Grid α n c) : Grid α r c :=
  ofRows fun i ↦
    Fin.foldl n (fun total k ↦ addMultiple total (left.cell i k) (right.row k))
      (Vector.replicate c 0)

/-- Multiplies `result` by the powers of `base` that the binary digits of `exponent` call for, the
last digit first. -/
def powerFrom [Add α] [Mul α] [Zero α] (exponent : Nat) (base result : Grid α n n) : Grid α n n :=
  if exponent = 0 then
    result
  else
    let result := if exponent % 2 = 1 then result.multiply base else result
    let base := if exponent / 2 = 0 then base else base.multiply base
    powerFrom (exponent / 2) base result
termination_by exponent

/-- The product of `exponent` copies of a square grid, the identity for none. -/
def power [Add α] [Mul α] [Zero α] [One α] (g : Grid α n n) (exponent : Nat) : Grid α n n :=
  powerFrom exponent g (identity n)

end MatrixCalculator.Grid
