import MatrixCalculator.CommandLine.Error
import MatrixCalculator.Text.Blank

/-!
# Files under their paths

`Files` is what can be read under a path. `Files.ofDirectory` says it for a directory of which the
files are known: a path is followed step by step (`Place.step`) from that directory, or from the
root if it starts with a slash. Of the directories above only their existence is known, so a name
that is looked up there is not found.
-/

set_option autoImplicit false

namespace MatrixCalculator.CommandLine

/-- What can be read under a path. -/
abbrev Files := String → Except FileError String

/-- Files and what they hold, each under its steps from one directory. -/
abbrev Entries := List (List (List Char) × String)

/-- The number of bytes that a text takes. -/
def byteCount (text : List Char) : Nat :=
  (String.ofList text).utf8ByteSize

/-- Where a path has led so far. -/
inductive Place where
  /-- A directory above the known one, or the root. -/
  | above
  /-- The directory that these steps lead to from the known one. -/
  | directory (steps : List (List Char))
  | file (text : String)
  deriving DecidableEq, Repr

namespace Place

/-- The most bytes that a name in a directory can have. -/
def longestName : Nat := 255

/-- The most bytes that a path can have. -/
def longestPath : Nat := 4095

/-- Looks up a name in a directory of the entries. A directory is there if a file is below it. -/
def find (entries : Entries) (steps : List (List Char)) : Except FileError Place :=
  match entries.lookup steps with
  | some text => .ok (.file text)
  | none =>
    if entries.any fun entry ↦ steps.isPrefixOf entry.1 then .ok (.directory steps)
    else .error .notFound

/-- Follows one step of a path. A dot, and the nothing between two slashes, stay in a directory and
two dots leave it. No step leads on from a file, not even one that would stay. -/
def step (entries : Entries) (place : Place) (name : List Char) : Except FileError Place :=
  match place with
  | .file _ => .error .notDirectory
  | .above =>
    if name.isEmpty || name = ['.'] || name = ['.', '.'] then .ok .above
    else if byteCount name > longestName then .error .nameTooLong
    else .error .notFound
  | .directory steps =>
    if name.isEmpty || name = ['.'] then .ok (.directory steps)
    else if name = ['.', '.'] then .ok (if steps.isEmpty then .above else .directory steps.dropLast)
    else if byteCount name > longestName then .error .nameTooLong
    else find entries (steps ++ [name])

/-- What is read at a place. -/
def read : Place → Except FileError String
  | .file text => .ok text
  | .above | .directory _ => .error .isDirectory

end Place

/-- The steps of a path. -/
def pathSteps (path : List Char) : List (List Char) :=
  Text.split (· == '/') path

/-- Follows a whole path. -/
def follow (entries : Entries) (path : List Char) : Except FileError Place :=
  (pathSteps path).foldlM (Place.step entries)
    (if path.head? = some '/' then .above else .directory [])

/-- The files in a directory and below it, under their paths from there. -/
def Files.ofDirectory (entries : List (String × String)) : Files := fun path ↦ do
  if byteCount path.toList > Place.longestPath then .error .nameTooLong
  let place ← follow (entries.map fun (name, text) ↦ (pathSteps name.toList, text)) path.toList
  place.read

/-- A path may leave a directory that is there and come back into it. -/
example : follow [([['d'], ['a']], "1")] ['.', '/', 'd', '/', '.', '.', '/', '/', 'd', '/', 'a'] =
    .ok (.file "1") := by
  rfl

/-- A path cannot leave a file. -/
example : follow [([['a']], "1")] ['a', '/', '.', '.', '/', 'a'] = .error .notDirectory := by
  rfl

/-- A path cannot leave a directory that is not there. -/
example : follow [([['a']], "1")] ['b', '/', '.', '.', '/', 'a'] = .error .notFound := by
  rfl

end MatrixCalculator.CommandLine
