import LineAsm.Command.Inspect
import LineAsm.Command.Run

/-!
# The program

The first word of the command line chooses between the command that runs a program and
the command that inspects one; the other words are that command's own.  Files are those
of the computer, and the output of a program is shown while it runs.
-/

set_option autoImplicit false

namespace LineAsm.Terminal

/-! ## Files -/

/-- The number of an error of the system, which some operations give negated. -/
def errorNumber (code : UInt32) : UInt32 :=
  if code < 0x80000000 then code else 0 - code

/-- The reason of an error whose number is known, or else the words of the system. -/
def numbered (code : UInt32) (failure : IO.Error) : FileError :=
  match (errorNumber code).toNat with
  | 2 => .notFound
  | 13 => .other "Permission denied (os error 13)"
  | 17 => .exists
  | 20 => .notDirectory
  | 21 => .isDirectory
  | 36 => .nameTooLong
  | _ => .other (toString failure)

/-- The reason of an error of the system. -/
def fileError (failure : IO.Error) : FileError :=
  match failure with
  | .noFileOrDirectory .. => .notFound
  | .alreadyExists .. => .exists
  | .permissionDenied _ code _ => numbered code failure
  | .inappropriateType _ code _ => numbered code failure
  | .invalidArgument _ code _ => numbered code failure
  | failure => .other (toString failure)

/-- Do something with the file that a path names and give the reason if it fails. -/
def attempt {α : Type} (path : String) (action : IO α) : IO (Except FileError α) := do
  if '\x00' ∈ path.toList then return .error .nulInName
  try
    return .ok (← action)
  catch failure => return .error (fileError failure)

/-- The files of the computer. -/
def host : Host IO where
  read := fun path => attempt path (IO.FS.readBinFile path)
  create := fun path content => attempt path do
    (← IO.FS.Handle.mk path .writeNew).write content
  overwrite := fun path content => attempt path (IO.FS.writeBinFile path content)

/-! ## Output -/

/-- Show a text at once, and give the reason if that fails. -/
def display (text : String) : IO (Option String) := do
  try
    let output ← IO.getStdout
    output.putStr text
    output.flush
    return none
  catch failure => return some (toString failure)

/-- Show what a command wrote and end with its exit status. -/
def finish (result : CommandResult) : IO UInt32 := do
  let output ← IO.getStdout
  output.putStr result.output
  output.flush
  let errors ← IO.getStderr
  errors.putStr result.errors
  errors.flush
  return UInt32.ofNat result.exitStatus

/-! ## Running -/

/-- Run a program line by line and show what each line writes. -/
partial def drive (program : Program) (machine : Machine) : IO (Machine × Option Trap) := do
  match machine.runFor program Console.stream 0 "" with
  | some outcome => return (outcome.machine, outcome.trap)
  | none =>
    let outcome := machine.step program Console.stream ""
    let failure ← if outcome.console.isEmpty then pure none else display outcome.console
    match failure.map (Trap.console outcome.machine.line) <|> outcome.trap with
    | some trap => return (outcome.machine, some trap)
    | none => drive program outcome.machine

/-- Carry out a command line that runs a program. -/
def run (words : List String) : IO UInt32 := do
  match RunCommand.options words with
  | .error reason => finish (RunCommand.interrupted reason)
  | .ok options =>
    match ← (RunCommand.prepare host options).run with
    | .error failure => finish (.failed "" failure)
    | .ok (program, config) =>
      let (machine, trap) ← drive program (Machine.initial config)
      let tables := RunCommand.display options machine
      match ← (RunCommand.conclude host options machine trap).run with
      | .error failure => finish (.failed tables failure)
      | .ok () => finish (.success tables "")

/-- Carry out a command line that inspects a program. -/
def inspect (words : List String) : IO UInt32 := do
  finish (← InspectCommand.execute host words)

end LineAsm.Terminal

/-- Choose the command by the first word. -/
def main (words : List String) : IO UInt32 :=
  match words with
  | "run" :: later => LineAsm.Terminal.run later
  | "inspect" :: later => LineAsm.Terminal.inspect later
  | _ => do
    let usage := LineAsm.RunCommand.helpText ++ "\n" ++ LineAsm.InspectCommand.helpText
    (← IO.getStderr).putStr usage
    return 2
