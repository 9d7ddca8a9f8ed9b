import MatrixCalculator.Matrix.Cell

/-!
# Grids of cells

A `Grid α r c` holds `r` rows of `c` cells each; its size is part of its type, so no index is ever
out of range. `Grid.cell` is the view through which everything else is described: a grid is known
when its cells are (`Grid.ext`), and every operation that builds a grid says which cells it has.
-/

set_option autoImplicit false

namespace MatrixCalculator

/-- `r` rows of `c` cells. -/
structure Grid (α : Type) (r c : Nat) where
  rows : Vector (Vector α c) r
  deriving DecidableEq, Repr

namespace Grid

variable {α β γ : Type} {r c n : Nat}

/-- A row of the grid. -/
def row (g : Grid α r c) (i : Fin r) : Vector α c :=
  g.rows[i]

/-- The cell in a row and a column. -/
def cell (g : Grid α r c) (i : Fin r) (j : Fin c) : α :=
  (g.row i)[j]

/-- The grid with the given rows. -/
def ofRows (row : Fin r → Vector α c) : Grid α r c :=
  ⟨Vector.ofFn row⟩

/-- The grid with the given cells. -/
def ofCells (cell : Fin r → Fin c → α) : Grid α r c :=
  ofRows fun i ↦ Vector.ofFn (cell i)

@[simp]
theorem row_ofRows (row : Fin r → Vector α c) (i : Fin r) : (ofRows row).row i = row i := by
  simp [ofRows, Grid.row]

@[simp]
theorem cell_ofRows (row : Fin r → Vector α c) (i : Fin r) (j : Fin c) :
    (ofRows row).cell i j = (row i)[j] := by
  simp [cell]

@[simp]
theorem cell_ofCells (f : Fin r → Fin c → α) (i : Fin r) (j : Fin c) :
    (ofCells f).cell i j = f i j := by
  simp [ofCells]

/-- Grids with the same cells are equal. -/
@[ext]
theorem ext {g h : Grid α r c} (same : ∀ i j, g.cell i j = h.cell i j) : g = h := by
  obtain ⟨rows⟩ := g
  obtain ⟨rows'⟩ := h
  congr
  refine Vector.ext fun i hi ↦ Vector.ext fun j hj ↦ ?_
  simpa [cell, row] using same ⟨i, hi⟩ ⟨j, hj⟩

/-- The cells, each changed by `f`. -/
def map (f : α → β) (g : Grid α r c) : Grid β r c :=
  ⟨g.rows.map (Vector.map f)⟩

@[simp]
theorem cell_map (f : α → β) (g : Grid α r c) (i : Fin r) (j : Fin c) :
    (g.map f).cell i j = f (g.cell i j) := by
  simp [map, cell, row]

/-- The cells of two grids, combined where they meet. -/
def zipWith (f : α → β → γ) (g : Grid α r c) (h : Grid β r c) : Grid γ r c :=
  ofRows fun i ↦ (g.row i).zipWith f (h.row i)

@[simp]
theorem cell_zipWith (f : α → β → γ) (g : Grid α r c) (h : Grid β r c) (i : Fin r) (j : Fin c) :
    (zipWith f g h).cell i j = f (g.cell i j) (h.cell i j) := by
  simp [zipWith, cell]

/-- The same cell everywhere. -/
def filled (r c : Nat) (x : α) : Grid α r c :=
  ofCells fun _ _ ↦ x

@[simp]
theorem cell_filled (x : α) (i : Fin r) (j : Fin c) : (filled r c x).cell i j = x := by
  simp [filled]

/-- Ones on the diagonal and zeros elsewhere. -/
def identity [Zero α] [One α] (n : Nat) : Grid α n n :=
  ofCells fun i j ↦ if i = j then 1 else 0

@[simp]
theorem cell_identity [Zero α] [One α] (i j : Fin n) :
    (identity n : Grid α n n).cell i j = if i = j then 1 else 0 := by
  simp [identity]

/-- Rows become columns. -/
def transpose (g : Grid α r c) : Grid α c r :=
  ofCells fun i j ↦ g.cell j i

@[simp]
theorem cell_transpose (g : Grid α r c) (i : Fin c) (j : Fin r) :
    g.transpose.cell i j = g.cell j i := by
  simp [transpose]

/-- The grid with two rows exchanged. -/
def swapRows (g : Grid α r c) (a b : Fin r) : Grid α r c :=
  ofRows fun i ↦ g.row (if i = a then b else if i = b then a else i)

@[simp]
theorem cell_swapRows (g : Grid α r c) (a b i : Fin r) (j : Fin c) :
    (g.swapRows a b).cell i j = g.cell (if i = a then b else if i = b then a else i) j := by
  simp [swapRows, cell]

/-- The cells of the diagonal, added up from the first. -/
def trace [Cell α] (g : Grid α n n) : α :=
  sumOf n fun i ↦ g.cell i i

/-- The rows as lists. -/
def toRows (g : Grid α r c) : List (List α) :=
  g.rows.toList.map Vector.toList

/-- The cells of a column, from the top. -/
def column (g : Grid α r c) (j : Fin c) : List α :=
  g.rows.toList.map fun row ↦ row[j]

end Grid

end MatrixCalculator
