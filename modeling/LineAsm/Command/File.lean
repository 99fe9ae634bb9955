import LineAsm.Command.Result
import LineAsm.Program
import LineAsm.Store.Artifact

/-!
# Files of commands

How the commands load a program from a file and save an artifact or a text, and the
failures that they end with when a file or the program in it is at fault.
-/

set_option autoImplicit false

namespace LineAsm

/-! ## Failures -/

/-- An error of a file that holds a program is a failure of its own. -/
def ArtifactError.failure (cause : ArtifactError) : Failure := .plain cause.message

/-- The chain of causes of a compile error: a line that cannot be decoded names its
error twice, with and without the number of the line. -/
def CompileError.causes (error : CompileError) : List String :=
  match error with
  | .link _ => [error.message]
  | .decode _ cause => [error.message, cause.message]

/-- The failure to compile the program of a file. -/
def CompileError.failure (path : String) (error : CompileError) : Failure :=
  ⟨"compiling " ++ path, error.causes⟩

/-! ## Loading and saving -/

namespace Host

variable {m : Type → Type} [Monad m]

/-- The program of a source or an artifact. -/
def loadProgram (host : Host m) (path : String) : ExceptT Failure m Program := do
  match ← host.readProgramText path with
  | .error cause => throw cause.failure
  | .ok text =>
    match Program.compile (Path.form path) text with
    | .error cause => throw (cause.failure path)
    | .ok program => return program

/-- Write the artifact of a program to a file that does not exist, or fail. -/
def saveArtifact (host : Host m) (path : String) (program : Program) :
    ExceptT Failure m Unit := do
  match ← host.writeArtifact path program with
  | .error cause => throw cause.failure
  | .ok () => return ()

/-- Write a text to a file, whether it exists or not, or fail. -/
def saveText (host : Host m) (path text : String) : ExceptT Failure m Unit := do
  match ← host.overwrite path text.toUTF8 with
  | .error cause => throw (.plain cause.message)
  | .ok () => return ()

end Host

end LineAsm
