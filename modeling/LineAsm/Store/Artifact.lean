import LineAsm.Program
import LineAsm.Store.Host
import LineAsm.Store.Path

/-!
# Programs in files

A program is read from a source or from an artifact, which are told apart by the
extension of the file, and its artifact is written to a file that must not exist.
-/

set_option autoImplicit false

namespace LineAsm

/-- Why a program could not be read from or written to a file. -/
inductive ArtifactError where
  | unsupportedExtension (path : String)
  | alreadyExists (path : String)
  | file (cause : FileError)
  deriving DecidableEq, Repr, Inhabited

/-- The wording of an error. -/
def ArtifactError.message : ArtifactError → String
  | .unsupportedExtension path =>
    "file extension not supported: " ++ path ++ " (expected .jasm or .jasm~)"
  | .alreadyExists path => "could not create '" ++ path ++ "': file already exists"
  | .file cause => cause.message

namespace Path

/-- The form in which the file that a path names gives its program. -/
def form (path : String) : ProgramForm :=
  if isArtifact path then .artifact else .source

end Path

namespace Host

variable {m : Type → Type} [Monad m]

/-- The text of a source or an artifact.  The extension is looked at before the
file. -/
def readProgramText (host : Host m) (path : String) : m (Except ArtifactError String) := do
  if !Path.isSource path && !Path.isArtifact path then
    return .error (.unsupportedExtension path)
  else
    match ← host.readText path with
    | .error cause => return .error (.file cause)
    | .ok text => return .ok text

/-- Write the artifact of a program to a file that does not exist. -/
def writeArtifact (host : Host m) (path : String) (program : Program) :
    m (Except ArtifactError Unit) := do
  match ← host.create path program.artifact.toUTF8 with
  | .ok () => return .ok ()
  | .error .exists => return .error (.alreadyExists path)
  | .error cause => return .error (.file cause)

end Host

end LineAsm
