/-!
# Results of commands

A command ends with an exit status and two texts.  A failure is a message and the
chain of its causes, the nearest cause first; a command that fails ends with status
one and reports the failure on its second text.  A command line that is not understood
ends with status two.
-/

set_option autoImplicit false

namespace LineAsm

/-! ## Failures -/

/-- What went wrong, and why. -/
structure Failure where
  message : String
  causes : List String
  deriving DecidableEq, Repr, Inhabited

namespace Failure

/-- A failure without a cause. -/
def plain (message : String) : Failure := ⟨message, []⟩

/-- The causes as indented lines, which are numbered when there are several. -/
def causeLines (causes : List String) : List String :=
  match causes with
  | [cause] => ["    " ++ cause ++ "\n"]
  | causes => (causes.zipIdx).map fun (cause, number) =>
    "    " ++ toString number ++ ": " ++ cause ++ "\n"

/-- The report of a failure. -/
def report (failure : Failure) : String :=
  let causes :=
    if failure.causes.isEmpty then ""
    else "\nCaused by:\n" ++ String.join (causeLines failure.causes)
  "Error: " ++ failure.message ++ "\n" ++ causes

/-- A failure on one line, with colons between the causes. -/
def oneLine (failure : Failure) : String :=
  ": ".intercalate (failure.message :: failure.causes)

end Failure

/-! ## Results -/

/-- How a command ended and what it wrote. -/
structure CommandResult where
  exitStatus : Nat
  output : String
  errors : String
  deriving DecidableEq, Repr, Inhabited

namespace CommandResult

/-- A command that did what it was asked for. -/
def success (output errors : String) : CommandResult := ⟨0, output, errors⟩

/-- A command that failed after writing some output. -/
def failed (output : String) (failure : Failure) : CommandResult := ⟨1, output, failure.report⟩

/-- A command line that was not understood. -/
def refused : CommandResult := ⟨2, "", ""⟩

end CommandResult

end LineAsm
