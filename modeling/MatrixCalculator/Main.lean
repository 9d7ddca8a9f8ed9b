import MatrixCalculator.CommandLine.Basic

/-!
# The program

Reads the standard input and the files to be loaded, and hands them to `CommandLine.run`.
-/

set_option autoImplicit false

namespace MatrixCalculator

/-- What a file holds, or why it cannot be read. -/
def readPath (path : String) : IO (Except FileError String) := do
  try
    match String.fromUTF8? (← IO.FS.readBinFile path) with
    | some text => return .ok text
    | none => return .error .noText
  catch error =>
    match error with
    | .noFileOrDirectory .. => return .error .notFound
    | .inappropriateType _ 20 _ => return .error .notDirectory
    | .inappropriateType _ 21 _ => return .error .isDirectory
    | .invalidArgument _ 36 _ => return .error .nameTooLong
    | other => return .error (.other (toString other))

/-- The files that the arguments ask for. -/
def readFiles (arguments : List String) : IO CommandLine.Files := do
  match CommandLine.Request.ofArguments arguments with
  | .run options _ =>
    let contents ← options.loads.mapM fun load ↦ return (load.path, ← readPath load.path)
    return fun path ↦ (contents.lookup path).getD (.error .notFound)
  | _ => return fun _ ↦ .error .notFound

/-- Whether a task reads the standard input. -/
def readsInput (arguments : List String) : Bool :=
  match CommandLine.Request.ofArguments arguments with
  | .run _ (.eval []) => true
  | .run _ .repl => true
  | _ => false

end MatrixCalculator

open MatrixCalculator in
/-- Runs the program on its arguments. -/
def main (arguments : List String) : IO UInt32 := do
  let input ← if readsInput arguments then (← IO.getStdin).readToEnd else pure ""
  let files ← readFiles arguments
  let loggers (verbose : Bool) : Logger := .upTo (if verbose then .debug else .warning)
  match CommandLine.run loggers arguments input files with
  | some report =>
    for line in report.lines do
      match line with
      | .out text => IO.print text
      | .err text | .log text => IO.eprint text
    match report.code? with
    | some code => return UInt32.ofNat code
    | none => throw (.userError "a column is too wide to be shown")
  | none =>
    IO.eprintln "mxe: the arguments are not understood"
    return UInt32.ofNat CommandLine.misuseCode
