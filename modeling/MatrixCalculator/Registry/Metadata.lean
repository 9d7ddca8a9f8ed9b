import MatrixCalculator.Json.Reading
import MatrixCalculator.Registry.Basic

/-!
# Functions from a metadata document

A metadata document is an object whose key `functions` holds an array of functions, each an object
with a name, a service, a return type and, if need be, aliases, parameters and a description.
`Registry.ofDocument` reads the functions in order and stops at the first thing amiss.
-/

set_option autoImplicit false

namespace MatrixCalculator

/-- What is wrong with a metadata document. The owner of a field is the function or the parameter it
should be in. -/
inductive MetadataError where
  | noJson
  | noFunctions
  | definedTwice (key : String)
  | missingField (owner field : String)
  | unknownReturnType (function type : String)
  | aliasesNotArray (function : String)
  | aliasNotString (function : String)
  | parametersNotArray (function : String)
  | requiredAfterOptional (function parameter : String)
  | unknownType (function parameter type : String)
  | unfitDefault (function parameter : String) (type : ParameterType)
  deriving DecidableEq, Repr

/-- What is wrong, in words. The reason for which a text is no JSON document is not told. -/
def MetadataError.reason : MetadataError → String
  | .noJson => ""
  | .noFunctions => "missing 'functions' array"
  | .definedTwice key => s!"function name '{key}' is defined twice"
  | .missingField owner field => s!"{owner} is missing string field '{field}'"
  | .unknownReturnType function type => s!"{function} has unknown return type '{type}'"
  | .aliasesNotArray function => s!"{function}: 'aliases' must be an array"
  | .aliasNotString function => s!"{function} has a non-string alias"
  | .parametersNotArray function => s!"{function}: 'params' must be an array"
  | .requiredAfterOptional function parameter =>
    s!"{function}: required parameter '{parameter}' follows an optional one"
  | .unknownType function parameter type => s!"{function}.{parameter} has unknown type '{type}'"
  | .unfitDefault function parameter type =>
    s!"{function}.{parameter} has a default that isn't a {type.name}"

/-- The message for a document that cannot be read. -/
def MetadataError.message (error : MetadataError) : String :=
  "Invalid function metadata: " ++ error.reason

namespace Metadata

/-- A string field of an object. -/
def field (entry : Json) (key owner : String) : Except MetadataError String :=
  match (entry.member? key).bind Json.string? with
  | some s => .ok s
  | none => .error (.missingField owner key)

/-- A default, which may be null for any type. A parameter of type int takes whole numbers only, and
no default makes a matrix. -/
def default? (document : Json) (type : ParameterType) : Option Argument :=
  match document, type with
  | .null, _ => some .null
  | number, .int => number.int?.map .int
  | number, .float => number.float?.map .float
  | .string s, .dynamic => some (.text s)
  | number, .dynamic => number.float?.map .float
  | _, .matrix => none

/-- A parameter. Without a word on it, a parameter is required if it has no default. -/
def parameter (function : String) (entry : Json) : Except MetadataError Parameter := do
  let owner := "parameter of " ++ function
  let name ← field entry "name" owner
  let typeName ← field entry "type" owner
  let some type := ParameterType.ofName? typeName
    | .error (.unknownType function name typeName)
  let default? ← match entry.member? "default" with
    | none => pure none
    | some document =>
      match default? document type with
      | some argument => pure (some argument)
      | none => .error (.unfitDefault function name type)
  let required := ((entry.member? "required").bind Json.bool?).getD default?.isNone
  return { name, type, required, default? }

/-- The names by which a function goes beside its own. -/
def aliases (function : String) (entry : Json) : Except MetadataError (List String) :=
  match entry.member? "aliases" with
  | none => .ok []
  | some (.array items) => items.mapM fun item ↦
    match item.string? with
    | some s => .ok s
    | none => .error (.aliasNotString function)
  | some _ => .error (.aliasesNotArray function)

/-- The parameters of a function. -/
def parameters (function : String) (entry : Json) : Except MetadataError (List Parameter) :=
  match entry.member? "params" with
  | none => .ok []
  | some (.array items) => items.mapM (parameter function)
  | some _ => .error (.parametersNotArray function)

/-- The first required parameter behind an optional one. -/
def lateRequired? (parameters : List Parameter) : Option Parameter :=
  (parameters.dropWhile Parameter.required).find? Parameter.required

/-- A function. -/
def function (entry : Json) : Except MetadataError Descriptor := do
  let name ← field entry "name" "function"
  let service ← field entry "service" name
  let returnName ← field entry "returns" name
  let some returns := ReturnType.ofName? returnName
    | .error (.unknownReturnType name returnName)
  let description := ((entry.member? "description").bind Json.string?).getD ""
  let aliases ← aliases name entry
  let parameters ← parameters name entry
  if let some late := lateRequired? parameters then
    .error (.requiredAfterOptional name late.name)
  return { name, aliases, parameters, returns, service, description }

end Metadata

namespace Registry

/-- Adds a function that a document describes. -/
def addEntry (r : Registry) (entry : Json) : Except MetadataError Registry := do
  (r.add (← Metadata.function entry)).mapError .definedTwice

/-- The functions of a metadata document, without handlers. -/
def ofDocument (document : Json) : Except MetadataError Registry :=
  match (document.member? "functions").bind Json.items? with
  | some entries => entries.foldlM addEntry empty
  | none => .error .noFunctions

/-- The functions of a metadata document in text. -/
def ofText (text : String) : Except MetadataError Registry :=
  match Json.read? text with
  | some document => ofDocument document
  | none => .error .noJson

end Registry

end MatrixCalculator
