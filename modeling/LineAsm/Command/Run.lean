import LineAsm.Command.Argument
import LineAsm.Command.File
import LineAsm.Machine.ConfigDocument
import LineAsm.Machine.Run
import LineAsm.Machine.Snapshot

/-!
# The command that runs a program

The command does its work in a fixed order: it reads the configuration, loads the
program, writes the artifact if asked to, runs the program, shows the tables if asked
to, saves a snapshot if asked to, and reports the trap that stopped the program if one
did.  The first of these that fails ends the command.

The work before the run is `RunCommand.prepare` and the work after it is
`RunCommand.conclude`; `RunCommand.perform` puts them together with a run whose output
is collected.
-/

set_option autoImplicit false

namespace LineAsm

/-! ## Options -/

/-- What the command is asked to do. -/
structure RunOptions where
  maxSteps : Option Nat
  maxCallDepth : Option Nat
  config : Option String
  emit : Bool
  dumpRegisters : Bool
  dumpState : Option String
  input : String
  deriving DecidableEq, Repr, Inhabited

namespace RunCommand

/-- The options that take a value. -/
inductive ValueOption where
  | maxSteps | maxCallDepth | config | dumpState
  deriving DecidableEq, Repr, Inhabited

/-- What has been read of a command line. -/
structure Draft where
  maxSteps : Option Nat
  maxCallDepth : Option Nat
  config : Option String
  emit : Bool
  dumpRegisters : Bool
  dumpState : Option String
  input : Option String
  /-- The option whose value is the next word. -/
  pending : Option ValueOption
  /-- Whether the end mark has been read. -/
  plainOnly : Bool
  deriving DecidableEq, Repr, Inhabited

namespace Draft

/-- Nothing read yet. -/
def empty : Draft := ⟨none, none, none, false, false, none, none, none, false⟩

/-- Read the value of an option. -/
def store (draft : Draft) (option : ValueOption) (value : String) :
    Except Interruption Draft := do
  match option with
  | .maxSteps =>
    return { draft with
      maxSteps := ← Argument.once draft.maxSteps (← Argument.limit value), pending := none }
  | .maxCallDepth =>
    return { draft with
      maxCallDepth := ← Argument.once draft.maxCallDepth (← Argument.limit value)
      pending := none }
  | .config =>
    return { draft with
      config := ← Argument.once draft.config (← Argument.path value), pending := none }
  | .dumpState =>
    return { draft with
      dumpState := ← Argument.once draft.dumpState (← Argument.path value), pending := none }

/-- Read an option that takes a value, which is attached or is the next word. -/
def option (draft : Draft) (option : ValueOption) (attached : Option String) :
    Except Interruption Draft :=
  match attached with
  | some value => draft.store option value
  | none => .ok { draft with pending := some option }

/-- Read the path of the program. -/
def plain (draft : Draft) (word : String) : Except Interruption Draft := do
  return { draft with input := ← Argument.once draft.input (← Argument.path word) }

/-- Read an option by its name. -/
def long (draft : Draft) (name : String) (attached : Option String) :
    Except Interruption Draft :=
  match name, attached with
  | "max-steps", attached => draft.option .maxSteps attached
  | "max-call-depth", attached => draft.option .maxCallDepth attached
  | "config", attached => draft.option .config attached
  | "dump-state", attached => draft.option .dumpState attached
  | "emit", none => do return { draft with emit := ← Argument.flag draft.emit }
  | "dump-registers", none => do
    return { draft with dumpRegisters := ← Argument.flag draft.dumpRegisters }
  | "help", none => .error .help
  | "version", none => .error .version
  | _, _ => .error .refused

/-- Read the next word. -/
def read (draft : Draft) (word : String) : Except Interruption Draft :=
  match draft.pending with
  | some option =>
    if Argument.canBeValue word then draft.store option word else .error .refused
  | none =>
    if draft.plainOnly then draft.plain word
    else match Argument.ofWord word with
      | .plain word => draft.plain word
      | .endMark => .ok { draft with plainOnly := true }
      | .short 'h' => .error .help
      | .short 'V' => .error .version
      | .short _ => .error .refused
      | .long name attached => draft.long name attached

/-- The options of a command line that has been read to its end. -/
def finish (draft : Draft) : Except Interruption RunOptions :=
  match draft.pending, draft.input with
  | none, some input =>
    .ok
      { maxSteps := draft.maxSteps
        maxCallDepth := draft.maxCallDepth
        config := draft.config
        emit := draft.emit
        dumpRegisters := draft.dumpRegisters
        dumpState := draft.dumpState
        input := input }
  | _, _ => .error .refused

end Draft

/-- Read a command line. -/
def options (words : List String) : Except Interruption RunOptions := do
  (← words.foldlM Draft.read Draft.empty).finish

/-! ## The work of the command -/

section Work

variable {m : Type → Type} [Monad m]

/-- The configuration of a run: that of the file, if there is one, with its limits
replaced by those of the command line. -/
def configuration (host : Host m) (options : RunOptions) : ExceptT Failure m Config := do
  let base ← match options.config with
    | none => pure Config.unlimited
    | some path =>
      match ← host.readText path with
      | .error cause => throw ⟨"reading config " ++ path, [cause.message]⟩
      | .ok text =>
        match Config.ofText? text with
        | none => throw (.plain ("parsing config " ++ path))
        | some config => pure config
  return ⟨options.maxSteps <|> base.maxSteps, options.maxCallDepth <|> base.maxCallDepth⟩

/-- The work before the run: the program to run and the configuration to run it
under.  An artifact is written for a source only. -/
def prepare (host : Host m) (options : RunOptions) : ExceptT Failure m (Program × Config) := do
  let config ← configuration host options
  let program ← host.loadProgram options.input
  if options.emit && !Path.isArtifact options.input then
    host.saveArtifact (Path.artifactOf options.input) program
  return (program, config)

/-- The tables of a machine, each with a line feed behind it. -/
def tables (machine : Machine) : String :=
  machine.registers.table ++ "\n" ++ machine.callStack.table ++ "\n"

/-- What is shown after the run. -/
def display (options : RunOptions) (machine : Machine) : String :=
  if options.dumpRegisters then tables machine else ""

/-- The work after the run: save the snapshot, then report the trap. -/
def conclude (host : Host m) (options : RunOptions) (machine : Machine) (trap : Option Trap) :
    ExceptT Failure m Unit := do
  match options.dumpState with
  | none => pure ()
  | some path => host.saveText path machine.snapshot
  match trap with
  | none => return ()
  | some trap => throw ⟨"running " ++ options.input, [trap.message]⟩

/-- Do the work of the command.  There is no result when the program runs forever. -/
def perform (host : Host m) (options : RunOptions) : m (Option CommandResult) := do
  match ← (prepare host options).run with
  | .error failure => return some (.failed "" failure)
  | .ok (program, config) =>
    match (Machine.initial config).run program Console.stream "" with
    | none => return none
    | some outcome =>
      let output := outcome.console ++ display options outcome.machine
      match ← (conclude host options outcome.machine outcome.trap).run with
      | .error failure => return some (.failed output failure)
      | .ok () => return some (.success output "")

end Work

/-! ## The command line -/

/-- The name and version of the command. -/
def versionText : String := "jasm-rs 0.1.0\n"

/-- How the command is used. -/
def helpText : String :=
  "Compile and run a program on the register machine\n\n"
    ++ "Usage: run [OPTIONS] <JASMFILE>\n\n"
    ++ "Options:\n"
    ++ "      --max-steps <MAX_STEPS>            Stop with an error after this many lines\n"
    ++ "      --max-call-depth <MAX_CALL_DEPTH>  Maximum nesting depth of calls\n"
    ++ "      --config <FILE>                    Machine configuration in JSON\n"
    ++ "      --emit                             Also write the resolved artifact\n"
    ++ "      --dump-registers                   Print the register table after the run\n"
    ++ "      --dump-state <FILE>                Write the final machine state as JSON\n"
    ++ "  -h, --help                             Print help\n"
    ++ "  -V, --version                          Print version\n"

/-- The result of a command line that was not read to its end. -/
def interrupted : Interruption → CommandResult
  | .refused => .refused
  | .help => .success helpText ""
  | .version => .success versionText ""

/-- Carry out a command line. -/
def execute {m : Type → Type} [Monad m] (host : Host m) (words : List String) :
    m (Option CommandResult) :=
  match options words with
  | .error reason => pure (some (interrupted reason))
  | .ok options => perform host options

end RunCommand

end LineAsm
