import MatrixCalculator.Registry.Services

/-!
# The built-in functions

The functions of the services `matrix` and `table`, and the two of the service `session`, which have
no handler because they act on the session itself.
-/

set_option autoImplicit false

namespace MatrixCalculator.Registry

/-- The function that clears the history of the session. -/
def cleanUpName : String := "CleanUp"

/-- The function that shows all functions and constants. -/
def helpName : String := "Help"

/-- A parameter that must be given. -/
def needed (name : String) (type : ParameterType) : Parameter :=
  ⟨name, type, true, none⟩

/-- A parameter that may be left out. -/
def optional (name : String) (type : ParameterType) (default : Argument) : Parameter :=
  ⟨name, type, false, some default⟩

/-- The built-in functions in the order in which they are listed. -/
def builtinFunctions : List Descriptor :=
  [⟨"Identity", ["Eye"], [needed "size" .int], .matrix, "matrix",
      "Square identity matrix of the given size"⟩,
    ⟨"Fill", [], [needed "rows" .int, needed "cols" .int, optional "value" .float (.float 0.0)],
      .matrix, "matrix", "Matrix of the given shape with every cell set to value"⟩,
    ⟨"Transpose", [], [needed "matrix" .matrix], .matrix, "matrix", "Rows become columns"⟩,
    ⟨"Determinant", ["Det"], [needed "matrix" .matrix], .float, "matrix",
      "Determinant of a square matrix"⟩,
    ⟨"Inverse", ["Inv"], [needed "matrix" .matrix], .matrix, "matrix",
      "Inverse of a non-singular square matrix"⟩,
    ⟨"Rank", [], [needed "matrix" .matrix], .int, "matrix",
      "Number of linearly independent rows"⟩,
    ⟨"Trace", [], [needed "matrix" .matrix], .float, "matrix",
      "Sum of the main diagonal of a square matrix"⟩,
    ⟨"Shape", [], [needed "matrix" .matrix], .matrix, "matrix",
      "1x2 matrix holding the row and column count"⟩,
    ⟨"SubMatrix", [],
      [needed "matrix" .matrix, needed "r1" .int, needed "r2" .int, needed "c1" .int,
        needed "c2" .int],
      .matrix, "matrix",
      "Rows r1..r2 and columns c1..c2 (zero-based, end exclusive); tables keep their column names"⟩,
    ⟨"LU", [], [needed "matrix" .matrix], .matrices, "matrix",
      "LU decomposition; assign with L,U = !LU(A)"⟩,
    ⟨"Abs", [], [needed "matrix" .matrix], .matrix, "matrix", "Absolute value of every cell"⟩,
    ⟨"Round", [], [needed "matrix" .matrix, optional "decimals" .int (.int 0)], .matrix, "matrix",
      "Rounds every cell to the given number of decimals"⟩,
    ⟨"ToTable", [], [needed "matrix" .matrix], .matrix, "table",
      "Table with columns named col1, col2, ..."⟩,
    ⟨"ToMatrix", [], [needed "table" .matrix], .matrix, "table",
      "Drops the column names of a table"⟩,
    ⟨"Mean", [], [needed "table" .matrix], .matrix, "table",
      "Mean of every column, as a single row"⟩,
    ⟨"Sum", [], [needed "table" .matrix], .matrix, "table",
      "Sum of every column, as a single row"⟩,
    ⟨cleanUpName, [], [], .void, "session", "Clears the command history"⟩,
    ⟨helpName, [], [], .void, "session", "Lists every function and special value"⟩]

/-- The built-in functions with their handlers. -/
def builtin : Registry where
  functions := builtinFunctions
  apart := by decide +kernel
  handlers := Services.handlers

end MatrixCalculator.Registry
