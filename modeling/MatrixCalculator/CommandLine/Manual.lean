import MatrixCalculator.Help

/-!
# The manual

The pages of the manual that the command line shows: a table of contents and a page for each topic.
A page may be asked for by several names.
-/

set_option autoImplicit false

namespace MatrixCalculator

/-- The pages of the manual. -/
inductive Page where
  | language
  | operators
  | assignment
  | functions
  | tables
  deriving DecidableEq, Repr

namespace Page

/-- The names by which a page may be asked for. -/
def names : Page → List String
  | language => ["syntax"]
  | operators => ["operators", "ops"]
  | assignment => ["assignment", "assign", "variables"]
  | functions => ["functions", "function", "fns"]
  | tables => ["tables", "table", "dataframes"]

/-- The page with a name, in whatever case. No letter outside ASCII turns into one of a page's name
in lower case, so the case of ASCII letters is all that matters; a hyphen is read as an underscore.
-/
def ofName? (name : String) : Option Page :=
  let name := String.ofList (name.toList.map fun c ↦ if c = '-' then '_' else c.toLower)
  [language, operators, assignment, functions, tables].find? fun page ↦ page.names.contains name

end Page

namespace Manual

/-- The lines of a text, each with its line end. -/
def page (lines : List String) : String :=
  String.join (lines.map (· ++ "\n"))

/-- The table of contents. -/
def contents : String :=
  page [
    "MXE DOCUMENTATION",
    "",
    "mxe evaluates matrix expressions. Every command is one expression, optionally",
    "followed by ';'-separated display settings. Named matrices live for the whole",
    "session.",
    "",
    "DOCUMENTATION TOPICS",
    "",
    "  syntax            Numbers, names, functions, special values and help queries",
    "  operators         Arithmetic, matrix operators, precedence and unary signs",
    "  assignment        Creating and updating named matrices",
    "  functions         Every built-in function with its signature",
    "  tables            Tables (matrices with named columns)",
    "",
    "QUICK REFERENCE",
    "",
    "  A = !Identity(3)         Create a matrix",
    "  B = A .* A + 1           Matrix product, element-wise add",
    "  !Fill(cols:3, rows:2)    Named arguments",
    "  L,U = !LU(A)             Several results at once",
    "  ?Inverse                 Help for one function, value or matrix",
    "  ?                        Help for everything",
    "",
    "Run 'mxe doc <topic>' for a topic, or 'mxe doc <Name>' for a function."]

/-- How expressions are written. -/
def language : String :=
  page [
    "SYNTAX - Values and Names",
    "",
    "NUMBERS",
    "  42   3.14   .5   1e-3",
    "    Plain numbers. A number stored under a name becomes a 1x1 matrix.",
    "",
    "NAMES",
    "  A   data_2024   _tmp",
    "    Letters, digits and underscores, not starting with a digit. A name",
    "    refers to the matrix bound to it; using an unbound name is an error.",
    "",
    "    Constraints:",
    "      - Names are case-sensitive",
    "      - Names are limited in length (see --max-name-length)",
    "",
    "FUNCTIONS",
    "  !Name(arg, arg, ...)",
    "    Functions are written with a '!' prefix.",
    "",
    "    Examples:",
    "      !Identity(3)",
    "      !Fill(2, 3, 0.5)",
    "      !Determinant(A)",
    "",
    "    Named arguments:",
    "      !Fill(cols:3, rows:2)",
    "      !Fill(2, 3, value:7)",
    "",
    "    Constraints:",
    "      - Once an argument is named, the rest must be named too",
    "      - A parameter can't be given twice",
    "      - Optional parameters take their default when left out",
    "",
    "SPECIAL VALUES",
    "  !pi  !e  !tau  !phi  !inf  !nan  !null",
    "    Constants, written like functions without parentheses.",
    "",
    "TEXT",
    "  \"hello\"",
    "    Quoted text, only accepted by functions with a dynamic parameter.",
    "",
    "HELP QUERIES",
    "  ?           Everything: functions and special values",
    "  ?Inverse    One function",
    "  ?pi         One special value",
    "  ?A          The shape of the matrix A",
    "",
    "SETTINGS",
    "  A .* B ; compact",
    "    Everything after the first ';' is kept as display settings and",
    "    doesn't take part in evaluation."]

/-- The operators. -/
def operators : String :=
  page [
    "OPERATORS - Arithmetic and Matrix Operators",
    "",
    "ELEMENT-WISE",
    "  +  -  *  /",
    "    Numbers, or matrices of the same shape. A number or 1x1 matrix on",
    "    either side is applied to every element.",
    "",
    "    Examples:",
    "      A + 1",
    "      A * B",
    "      2 / A",
    "",
    "  %",
    "    Remainder. The divisor must be a number or a 1x1 matrix.",
    "",
    "  ^",
    "    Raises a number, or every element of a matrix, to a numeric power.",
    "      0 ^ 0    =>  NaN",
    "      0 ^ -1   =>  Infinity",
    "      0 ^ 2    =>  0",
    "",
    "MATRIX",
    "  .*",
    "    Matrix product. The left operand's column count must match the right",
    "    operand's row count.",
    "",
    "  ./",
    "    Multiplies by the inverse of the right operand: A ./ B is A .* B^-1.",
    "    Fails when B is singular.",
    "",
    "  .^",
    "    Repeated matrix product of a square matrix with itself.",
    "      A .^ 0   =>  1",
    "      A .^ 1   =>  A",
    "      A .^ 3   =>  A .* A .* A",
    "    The exponent must be a whole number, zero or more.",
    "",
    "UNARY SIGNS",
    "  -A   +A   4 - -3",
    "    A '+' or '-' at the start, after '(' or ',' or after another operator",
    "    is a sign, not a subtraction.",
    "",
    "PRECEDENCE (highest first)",
    "  u- u+         signs                    right to left",
    "  ^ .^          powers                   right to left",
    "  * / % .* ./   products                 left to right",
    "  + -           sums                     left to right",
    "  :             named argument",
    "  =             assignment               right to left",
    "",
    "  Parentheses group as usual: 2 * (3 + 4)  =>  14"]

/-- Assignments. -/
def assignment : String :=
  page [
    "ASSIGNMENT - Named Matrices",
    "",
    "CREATE OR UPDATE",
    "  NAME = expression",
    "    Binds the result to NAME. Numbers are stored as 1x1 matrices.",
    "",
    "    Examples:",
    "      A = 5",
    "      B = !Identity(3) * 2",
    "      A = A .* B",
    "",
    "    Constraints:",
    "      - Exactly one '=' per command",
    "      - Creating a new name counts against the session limit",
    "        (--max-matrices, --max-tables); updating an existing one doesn't",
    "",
    "COMPOUND",
    "  NAME += expression    (also -=  *=  /=  %=  ^=)",
    "    Short for NAME = NAME + (expression).",
    "",
    "SEVERAL RESULTS",
    "  N1,N2 = expression",
    "    For functions returning several matrices.",
    "",
    "    Example:",
    "      L,U = !LU(A)",
    "",
    "FAILED COMMANDS",
    "  A command that fails leaves every binding as it was, even if part of it",
    "  ran before the error."]

/-- Tables. -/
def tables : String :=
  page [
    "TABLES - Matrices with Named Columns",
    "",
    "CREATING",
    "  T = !ToTable(A)",
    "    Labels the columns of A col1, col2, ...",
    "",
    "  mxe --load T=data.json eval \"T\"",
    "    An array of objects becomes a table, columns in the key order of the",
    "    first object. An array of arrays becomes a plain matrix.",
    "",
    "USING",
    "  !Mean(T)   !Sum(T)",
    "    One row with the mean or sum of every column, labels kept.",
    "",
    "  !ToMatrix(T)",
    "    Drops the labels.",
    "",
    "  T * 2",
    "    Arithmetic works on the numbers; the result is a plain matrix.",
    "",
    "LIMITS",
    "  Tables have their own ceiling (--max-tables), separate from matrices."]

/-- The text of a page. The page on functions lists those of the registry. -/
def text (registry : Registry) : Page → String
  | .language => language
  | .operators => operators
  | .assignment => assignment
  | .functions => Help.overview registry
  | .tables => tables

/-- What the manual says under a name: a page, or else the help on a function or a constant, whose
name may be given with its mark. The answer is the name without the mark if there is nothing under
it. -/
def find (registry : Registry) (name : String) : Except String String :=
  match Page.ofName? name with
  | some page => .ok (text registry page)
  | none =>
    let name := String.ofList (name.toList.dropWhile fun c ↦ c == '!' || c == '?')
    match registry.find? name, Constant.find? name with
    | some d, _ => .ok d.help
    | none, some constant => .ok constant.help
    | none, none => .error name

end Manual

end MatrixCalculator
