/-!
# Hosts of files

What a command needs of the place where files live: to read a file, to create one
that does not exist, and to write one whether it exists or not.  A host gives these
operations in a monad of its choice, so the commands are defined once for a directory
in memory and for the directories of a computer.
-/

set_option autoImplicit false

namespace LineAsm

/-- Why an operation on a file failed. -/
inductive FileError where
  | notFound
  | exists
  | notDirectory
  | isDirectory
  | nameTooLong
  | nulInName
  | invalidText
  /-- Any other reason, in the words of the host. -/
  | other (reason : String)
  deriving DecidableEq, Repr, Inhabited

/-- The wording of an error. -/
def FileError.message : FileError → String
  | .notFound => "No such file or directory (os error 2)"
  | .exists => "File exists (os error 17)"
  | .notDirectory => "Not a directory (os error 20)"
  | .isDirectory => "Is a directory (os error 21)"
  | .nameTooLong => "File name too long (os error 36)"
  | .nulInName => "file name contained an unexpected NUL byte"
  | .invalidText => "stream did not contain valid UTF-8"
  | .other reason => reason

/-- A place where files live. -/
structure Host (m : Type → Type) where
  /-- The contents of a file. -/
  read : String → m (Except FileError ByteArray)
  /-- Create a file that does not exist, with the given contents. -/
  create : String → ByteArray → m (Except FileError Unit)
  /-- Give a file new contents, creating it if it does not exist. -/
  overwrite : String → ByteArray → m (Except FileError Unit)

namespace Host

variable {m : Type → Type} [Monad m]

/-- The contents of a file of text, which must be valid UTF-8. -/
def readText (host : Host m) (path : String) : m (Except FileError String) := do
  match ← host.read path with
  | .error failure => return .error failure
  | .ok content =>
    match String.fromUTF8? content with
    | none => return .error .invalidText
    | some text => return .ok text

end Host

end LineAsm
