import MatrixCalculator.Evaluation.Error
import MatrixCalculator.Registry.Metadata
import MatrixCalculator.Value.Document

/-!
# What can go wrong on the command line
-/

set_option autoImplicit false

namespace MatrixCalculator

/-- Why a file cannot be read. -/
inductive FileError where
  | notFound
  | isDirectory
  /-- The path goes through something that is no directory. -/
  | notDirectory
  | nameTooLong
  /-- The bytes of the file are no text. -/
  | noText
  | other (message : String)
  deriving DecidableEq, Repr

/-- The message for a file that cannot be read, in the words of the system. -/
def FileError.message : FileError → String
  | .notFound => "No such file or directory (os error 2)"
  | .isDirectory => "Is a directory (os error 21)"
  | .notDirectory => "Not a directory (os error 20)"
  | .nameTooLong => "File name too long (os error 36)"
  | .noText => "stream did not contain valid UTF-8"
  | .other message => message

/-- Why the program does not do what it is asked to. -/
inductive CommandLineError where
  | evaluation (error : EvalError)
  | metadata (error : MetadataError)
  | store (error : StoreError)
  /-- A file that holds no JSON document. -/
  | noJson
  | file (error : FileError)
  | data (error : DocumentError)
  /-- A value to be loaded that is not given as a name and a file. -/
  | malformedLoad (argument : String)
  | unknownTopic (name : String)

/-- The message that the program ends with. The reason for which a text is no JSON document is not
told. -/
def CommandLineError.message : CommandLineError → String
  | .evaluation error => "Evaluation error: " ++ error.message
  | .metadata error => "Function metadata error: " ++ error.message
  | .store error => "Can't bind value: " ++ error.message
  | .noJson => "Invalid JSON: "
  | .file error => "IO error: " ++ error.message
  | .data error => "Invalid data: " ++ error.message
  | .malformedLoad argument => s!"Expected NAME=PATH, got '{argument}'"
  | .unknownTopic name =>
    s!"Unknown topic: '{name}'\nRun 'mxe doc' to see available topics."

/-- Whether the error comes from another part of the program. -/
def CommandLineError.hasCause : CommandLineError → Bool
  | .evaluation _ | .metadata _ | .store _ | .noJson | .file _ => true
  | .data _ | .malformedLoad _ | .unknownTopic _ => false

end MatrixCalculator
