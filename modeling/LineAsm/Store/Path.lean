import LineAsm.Text.Blank

/-!
# Paths of files

A path is a text whose components stand between slashes.  Empty components, and
components of a single dot, name nothing and are left out when the file that a path
names is looked for.
-/

set_option autoImplicit false

namespace LineAsm.Path

/-- The components of a path that are not empty. -/
def components (path : String) : List String :=
  ((Text.fields (· == '/') path.toList).filter fun part => !part.isEmpty).map String.ofList

/-- The name of the file that a path names; a path that ends in two dots names none. -/
def fileName? (path : String) : Option String :=
  match ((components path).filter (· != ".")).getLast? with
  | none => none
  | some name => if name = ".." then none else some name

/-- The extension of a file name: the text behind its last dot, unless that dot is
its first character. -/
def nameExtension? (name : List Char) : Option (List Char) :=
  let extension := (name.reverse.takeWhile (· != '.')).reverse
  let stem := (name.reverse.dropWhile (· != '.')).drop 1
  if '.' ∈ name ∧ stem ≠ [] then some extension else none

/-- The extension of the file that a path names. -/
def extension? (path : String) : Option String :=
  (fileName? path).bind fun name => (nameExtension? name.toList).map String.ofList

/-! ## Sources and artifacts -/

/-- The extension of a source. -/
def sourceExtension : String := "jasm"

/-- What is appended to the path of a source to name its artifact. -/
def artifactSuffix : String := "~"

/-- Whether a path names a source. -/
def isSource (path : String) : Bool := extension? path == some sourceExtension

/-- Whether a path names an artifact. -/
def isArtifact (path : String) : Bool :=
  extension? path == some (sourceExtension ++ artifactSuffix)

/-- The path of the artifact of a program. -/
def artifactOf (path : String) : String := path ++ artifactSuffix

end LineAsm.Path
