import MatrixCalculator.Registry.Builtin
import MatrixCalculator.Registry.Metadata

/-!
# The document of the built-in functions

The built-in functions are described by a metadata document. What is read of it are the functions of
`Registry.builtin`, all of them and in that order (`Registry.builtin_of_ofText`).
-/

set_option autoImplicit false

namespace MatrixCalculator.Registry

/-- The metadata document of the built-in functions. -/
def builtinText : String :=
  "\x7b
  \"functions\": [
    \x7b
      \"name\": \"Identity\",
      \"aliases\": [\"Eye\"],
      \"service\": \"matrix\",
      \"returns\": \"Matrix\",
      \"description\": \"Square identity matrix of the given size\",
      \"params\": [\x7b \"name\": \"size\", \"type\": \"int\", \"required\": true \x7d]
    \x7d,
    \x7b
      \"name\": \"Fill\",
      \"service\": \"matrix\",
      \"returns\": \"Matrix\",
      \"description\": \"Matrix of the given shape with every cell set to value\",
      \"params\": [
        \x7b \"name\": \"rows\", \"type\": \"int\", \"required\": true \x7d,
        \x7b \"name\": \"cols\", \"type\": \"int\", \"required\": true \x7d,
        \x7b \"name\": \"value\", \"type\": \"float\", \"default\": 0 \x7d
      ]
    \x7d,
    \x7b
      \"name\": \"Transpose\",
      \"service\": \"matrix\",
      \"returns\": \"Matrix\",
      \"description\": \"Rows become columns\",
      \"params\": [\x7b \"name\": \"matrix\", \"type\": \"Matrix\", \"required\": true \x7d]
    \x7d,
    \x7b
      \"name\": \"Determinant\",
      \"aliases\": [\"Det\"],
      \"service\": \"matrix\",
      \"returns\": \"float\",
      \"description\": \"Determinant of a square matrix\",
      \"params\": [\x7b \"name\": \"matrix\", \"type\": \"Matrix\", \"required\": true \x7d]
    \x7d,
    \x7b
      \"name\": \"Inverse\",
      \"aliases\": [\"Inv\"],
      \"service\": \"matrix\",
      \"returns\": \"Matrix\",
      \"description\": \"Inverse of a non-singular square matrix\",
      \"params\": [\x7b \"name\": \"matrix\", \"type\": \"Matrix\", \"required\": true \x7d]
    \x7d,
    \x7b
      \"name\": \"Rank\",
      \"service\": \"matrix\",
      \"returns\": \"int\",
      \"description\": \"Number of linearly independent rows\",
      \"params\": [\x7b \"name\": \"matrix\", \"type\": \"Matrix\", \"required\": true \x7d]
    \x7d,
    \x7b
      \"name\": \"Trace\",
      \"service\": \"matrix\",
      \"returns\": \"float\",
      \"description\": \"Sum of the main diagonal of a square matrix\",
      \"params\": [\x7b \"name\": \"matrix\", \"type\": \"Matrix\", \"required\": true \x7d]
    \x7d,
    \x7b
      \"name\": \"Shape\",
      \"service\": \"matrix\",
      \"returns\": \"Matrix\",
      \"description\": \"1x2 matrix holding the row and column count\",
      \"params\": [\x7b \"name\": \"matrix\", \"type\": \"Matrix\", \"required\": true \x7d]
    \x7d,
    \x7b
      \"name\": \"SubMatrix\",
      \"service\": \"matrix\",
      \"returns\": \"Matrix\",
      \"description\": \"Rows r1..r2 and columns c1..c2 (zero-based, end exclusive); tables keep their column names\",
      \"params\": [
        \x7b \"name\": \"matrix\", \"type\": \"Matrix\", \"required\": true \x7d,
        \x7b \"name\": \"r1\", \"type\": \"int\", \"required\": true \x7d,
        \x7b \"name\": \"r2\", \"type\": \"int\", \"required\": true \x7d,
        \x7b \"name\": \"c1\", \"type\": \"int\", \"required\": true \x7d,
        \x7b \"name\": \"c2\", \"type\": \"int\", \"required\": true \x7d
      ]
    \x7d,
    \x7b
      \"name\": \"LU\",
      \"service\": \"matrix\",
      \"returns\": \"Matrices\",
      \"description\": \"LU decomposition; assign with L,U = !LU(A)\",
      \"params\": [\x7b \"name\": \"matrix\", \"type\": \"Matrix\", \"required\": true \x7d]
    \x7d,
    \x7b
      \"name\": \"Abs\",
      \"service\": \"matrix\",
      \"returns\": \"Matrix\",
      \"description\": \"Absolute value of every cell\",
      \"params\": [\x7b \"name\": \"matrix\", \"type\": \"Matrix\", \"required\": true \x7d]
    \x7d,
    \x7b
      \"name\": \"Round\",
      \"service\": \"matrix\",
      \"returns\": \"Matrix\",
      \"description\": \"Rounds every cell to the given number of decimals\",
      \"params\": [
        \x7b \"name\": \"matrix\", \"type\": \"Matrix\", \"required\": true \x7d,
        \x7b \"name\": \"decimals\", \"type\": \"int\", \"default\": 0 \x7d
      ]
    \x7d,
    \x7b
      \"name\": \"ToTable\",
      \"service\": \"table\",
      \"returns\": \"Matrix\",
      \"description\": \"Table with columns named col1, col2, ...\",
      \"params\": [\x7b \"name\": \"matrix\", \"type\": \"Matrix\", \"required\": true \x7d]
    \x7d,
    \x7b
      \"name\": \"ToMatrix\",
      \"service\": \"table\",
      \"returns\": \"Matrix\",
      \"description\": \"Drops the column names of a table\",
      \"params\": [\x7b \"name\": \"table\", \"type\": \"Matrix\", \"required\": true \x7d]
    \x7d,
    \x7b
      \"name\": \"Mean\",
      \"service\": \"table\",
      \"returns\": \"Matrix\",
      \"description\": \"Mean of every column, as a single row\",
      \"params\": [\x7b \"name\": \"table\", \"type\": \"Matrix\", \"required\": true \x7d]
    \x7d,
    \x7b
      \"name\": \"Sum\",
      \"service\": \"table\",
      \"returns\": \"Matrix\",
      \"description\": \"Sum of every column, as a single row\",
      \"params\": [\x7b \"name\": \"table\", \"type\": \"Matrix\", \"required\": true \x7d]
    \x7d,
    \x7b
      \"name\": \"CleanUp\",
      \"service\": \"session\",
      \"returns\": \"void\",
      \"description\": \"Clears the command history\"
    \x7d,
    \x7b
      \"name\": \"Help\",
      \"service\": \"session\",
      \"returns\": \"void\",
      \"description\": \"Lists every function and special value\"
    \x7d
  ]
\x7d
"

set_option maxRecDepth 100000 in
/-- The functions of the document are the built-in ones. -/
theorem functions_ofText_builtinText :
    (ofText builtinText).toOption.map functions = some builtinFunctions := by
  -- The characters of a literal are those that it is written with; to find them by its bytes takes
  -- far too long.
  have characters : builtinText.toList = _ := String.toList_ofList
  rw [ofText, Json.read?, characters]
  decide +kernel

/-- A registry is known by its functions and its handlers. -/
theorem eq_builtin_of_functions {r : Registry} (same : r.functions = builtinFunctions) :
    { r with handlers := Services.handlers } = builtin := by
  obtain ⟨functions, apart, handlers⟩ := r
  subst same
  rfl

/-- With the handlers of the services, what is read of the document is the built-in registry. -/
theorem builtin_of_ofText :
    (ofText builtinText).map (fun r ↦ { r with handlers := Services.handlers }) = .ok builtin := by
  have read := functions_ofText_builtinText
  generalize ofText builtinText = result at read ⊢
  cases result with
  | error error => cases read
  | ok r => exact congrArg Except.ok (eq_builtin_of_functions (Option.some.inj read))

end MatrixCalculator.Registry
