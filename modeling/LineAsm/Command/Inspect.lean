import LineAsm.Command.Argument
import LineAsm.Command.File
import LineAsm.Flow.Report
import LineAsm.Listing

/-!
# The command that inspects a program

The command loads the program of a file and then does one of three things: it writes
the artifact of the program to a file that must not exist, or it gives the listing of
the program, or the report of its control flow, as text or as JSON, on its output or
in a file that is overwritten.
-/

set_option autoImplicit false

namespace LineAsm

/-! ## Options -/

/-- In which form a listing or a report is given. -/
inductive OutputFormat where
  | text | json
  deriving DecidableEq, Repr, Inhabited

/-- What to do with the program. -/
inductive Inspection where
  | compile (out : Option String)
  | listing (format : OutputFormat) (out : Option String)
  | analyze (format : OutputFormat) (out : Option String)
  deriving DecidableEq, Repr, Inhabited

/-- What the command is asked to do. -/
structure InspectOptions where
  input : String
  inspection : Inspection
  deriving DecidableEq, Repr, Inhabited

namespace InspectCommand

/-- The words that say what to do. -/
inductive Subcommand where
  | compile | listing | analyze
  deriving DecidableEq, Repr, Inhabited

/-- The subcommand named by a word. -/
def Subcommand.ofWord? : String → Option Subcommand
  | "compile" => some .compile
  | "listing" => some .listing
  | "analyze" => some .analyze
  | _ => none

/-- The options that take a value. -/
inductive ValueOption where
  | format | out
  deriving DecidableEq, Repr, Inhabited

/-- Where in a command line the next word stands. -/
inductive Phase where
  /-- Before the word that says what to do. -/
  | start
  /-- Behind a subcommand, where only options may stand. -/
  | behind (subcommand : Subcommand)
  /-- Behind the word that asks for help, where one topic may stand. -/
  | helping (topicGiven : Bool)
  deriving DecidableEq, Repr, Inhabited

/-- What has been read of a command line. -/
structure Draft where
  input : Option String
  phase : Phase
  format : Option OutputFormat
  out : Option String
  /-- The option whose value is the next word. -/
  pending : Option ValueOption
  /-- Whether the end mark has been read. -/
  plainOnly : Bool
  deriving DecidableEq, Repr, Inhabited

namespace Draft

/-- Nothing read yet. -/
def empty : Draft := ⟨none, .start, none, none, none, false⟩

/-- Read the name of a format. -/
def formatOf : String → Except Interruption OutputFormat
  | "text" => .ok .text
  | "json" => .ok .json
  | _ => .error .refused

/-- Read the value of an option. -/
def store (draft : Draft) (option : ValueOption) (value : String) :
    Except Interruption Draft := do
  match option with
  | .format =>
    return { draft with
      format := ← Argument.once draft.format (← formatOf value), pending := none }
  | .out =>
    return { draft with
      out := ← Argument.once draft.out (← Argument.path value), pending := none }

/-- Read an option that takes a value, which is attached or is the next word. -/
def option (draft : Draft) (option : ValueOption) (attached : Option String) :
    Except Interruption Draft :=
  match attached with
  | some value => draft.store option value
  | none => .ok { draft with pending := some option }

/-- Read the path of the program. -/
def plain (draft : Draft) (word : String) : Except Interruption Draft := do
  return { draft with input := ← Argument.once draft.input (← Argument.path word) }

/-- The phase that a plain word opens, if it is not the path of the program. -/
def phaseOf? (word : String) : Option Phase :=
  if word = "help" then some (.helping false)
  else (Subcommand.ofWord? word).map .behind

/-- Read a word before the subcommand. -/
def readBefore (draft : Draft) (word : String) : Except Interruption Draft :=
  if draft.plainOnly then draft.plain word
  else match Argument.ofWord word with
    | .plain word =>
      match phaseOf? word with
      | some phase => .ok { draft with phase := phase }
      | none => draft.plain word
    | .endMark => .ok { draft with plainOnly := true }
    | .short 'h' => .error .help
    | .short 'V' => .error .version
    | .short _ => .error .refused
    | .long "help" none => .error .help
    | .long "version" none => .error .version
    | .long _ _ => .error .refused

/-- Read a word behind the subcommand, where only options may stand. -/
def readBehind (draft : Draft) (subcommand : Subcommand) (word : String) :
    Except Interruption Draft :=
  if draft.plainOnly then .error .refused
  else match Argument.ofWord word with
    | .plain _ => .error .refused
    | .endMark => .ok { draft with plainOnly := true }
    | .short 'h' => .error .help
    | .short _ => .error .refused
    | .long "help" none => .error .help
    | .long "out" attached => draft.option .out attached
    | .long "format" attached =>
      if subcommand = .compile then .error .refused else draft.option .format attached
    | .long _ _ => .error .refused

/-- Read a word behind the request for help.  The only topics are the words that open
a phase, and none of them has topics of its own. -/
def readTopic (draft : Draft) (topicGiven : Bool) (word : String) : Except Interruption Draft :=
  if topicGiven || (phaseOf? word).isNone then .error .refused
  else .ok { draft with phase := .helping true }

/-- Read the next word. -/
def read (draft : Draft) (word : String) : Except Interruption Draft :=
  match draft.pending, draft.phase with
  | some option, _ =>
    if Argument.canBeValue word then draft.store option word else .error .refused
  | none, .start => draft.readBefore word
  | none, .behind subcommand => draft.readBehind subcommand word
  | none, .helping topicGiven => draft.readTopic topicGiven word

/-- What a subcommand asks for. -/
def inspection (draft : Draft) : Subcommand → Inspection
  | .compile => .compile draft.out
  | .listing => .listing (draft.format.getD .text) draft.out
  | .analyze => .analyze (draft.format.getD .text) draft.out

/-- The options of a command line that has been read to its end. -/
def finish (draft : Draft) : Except Interruption InspectOptions :=
  match draft.pending, draft.phase, draft.input with
  | none, .behind subcommand, some input => .ok ⟨input, draft.inspection subcommand⟩
  | none, .helping _, _ => .error .help
  | _, _, _ => .error .refused

end Draft

/-- Read a command line. -/
def options (words : List String) : Except Interruption InspectOptions := do
  (← words.foldlM Draft.read Draft.empty).finish

/-! ## The work of the command -/

/-- A listing in the given form. -/
def listingText (program : Program) : OutputFormat → String
  | .text => program.listingText
  | .json => program.listingDocument.indented ++ "\n"

/-- A report in the given form. -/
def reportText (program : Program) : OutputFormat → String
  | .text => (Flow.report program).text
  | .json => (Flow.report program).document.indented ++ "\n"

section Work

variable {m : Type → Type} [Monad m]

/-- Give a text on the output, or in a file that is overwritten. -/
def deliver (host : Host m) (out : Option String) (text : String) :
    ExceptT Failure m CommandResult := do
  match out with
  | none => return .success text ""
  | some path =>
    host.saveText path text
    return .success "" ""

/-- Inspect the program of a file. -/
def inspect (host : Host m) (options : InspectOptions) : ExceptT Failure m CommandResult := do
  let program ← host.loadProgram options.input
  match options.inspection with
  | .compile out =>
    let path := out.getD (Path.artifactOf options.input)
    host.saveArtifact path program
    return .success "" ("wrote " ++ path ++ " (" ++ toString program.size ++ " lines)\n")
  | .listing format out => deliver host out (listingText program format)
  | .analyze format out => deliver host out (reportText program format)

/-- Do the work of the command. -/
def perform (host : Host m) (options : InspectOptions) : m CommandResult := do
  match ← (inspect host options).run with
  | .error failure => return .failed "" failure
  | .ok result => return result

end Work

/-! ## The command line -/

/-- The name and version of the command. -/
def versionText : String := "jasm-asm 0.1.0\n"

/-- How the command is used. -/
def helpText : String :=
  "Compile and inspect a program\n\n"
    ++ "Usage: inspect <JASMFILE> <COMMAND>\n\n"
    ++ "Commands:\n"
    ++ "  compile [--out <FILE>]  Write the artifact, which must not exist\n"
    ++ "  listing [--format <FORMAT>] [--out <FILE>]\n"
    ++ "                          Print the resolved program\n"
    ++ "  analyze [--format <FORMAT>] [--out <FILE>]\n"
    ++ "                          Print the control-flow report\n\n"
    ++ "Options:\n"
    ++ "  -h, --help     Print help\n"
    ++ "  -V, --version  Print version\n"

/-- The result of a command line that was not read to its end. -/
def interrupted : Interruption → CommandResult
  | .refused => .refused
  | .help => .success helpText ""
  | .version => .success versionText ""

/-- Carry out a command line. -/
def execute {m : Type → Type} [Monad m] (host : Host m) (words : List String) : m CommandResult :=
  match options words with
  | .error reason => pure (interrupted reason)
  | .ok options => perform host options

end InspectCommand

end LineAsm
