import LineAsm.Instruction.Decoding
import LineAsm.Label.Resolution
import LineAsm.Source.Normal

/-!
# Programs

A program is a row of lines, each with its resolved text and its instruction, and
the table of its labels.  It is assembled from a text in three steps: the
addressed lines are found, their label operands are resolved, and the resolved
lines are decoded one after the other while the blocks are paired.

Pairing keeps the open headers, innermost first (`Assembly`).  A closing bracket
takes the innermost of them: it learns the line of its header and the header
learns its line.  The first line that cannot be decoded, or that closes a block
that was never opened, is an error at that line; a block still open at the end is
an error at the line of the innermost open header.
-/

set_option autoImplicit false

namespace LineAsm

/-! ## Errors -/

/-- Why a text is no program. -/
inductive CompileError where
  | link (cause : LinkError)
  | decode (line : Nat) (cause : DecodeError)
  deriving DecidableEq, Repr, Inhabited

/-- The wording of an error, which starts with the line it arose at. -/
def CompileError.message : CompileError → String
  | .link cause => cause.message
  | .decode line cause => "line " ++ toString line ++ ": " ++ cause.message

/-! ## Programs -/

/-- An addressed line: its resolved text and its instruction. -/
structure Line where
  text : String
  instruction : Instruction
  deriving DecidableEq, Repr, Inhabited

/-- An assembled program, whose lines are addressed from one. -/
structure Program where
  lines : Array Line
  labels : LabelTable
  deriving DecidableEq, Repr, Inhabited

namespace Program

/-- How many lines a program has. -/
def size (program : Program) : Nat := program.lines.size

/-- The line with the given number. -/
def line? (program : Program) (number : Nat) : Option Line :=
  if number = 0 then none else program.lines[number - 1]?

/-- The instruction at the line with the given number. -/
def instruction? (program : Program) (number : Nat) : Option Instruction :=
  (program.line? number).map (·.instruction)

/-- The resolved text of a program, one line of text per line. -/
def artifact (program : Program) : String :=
  String.join (program.lines.toList.map fun line => line.text ++ "\n")

end Program

/-! ## Decoding lines and pairing blocks -/

/-- A program under assembly: the lines so far and the lines of the headers that
are still open, innermost first. -/
structure Assembly where
  lines : Array Line
  openHeaders : List Nat
  deriving DecidableEq, Repr, Inhabited

namespace Assembly

/-- Nothing assembled yet. -/
def empty : Assembly := ⟨#[], []⟩

/-- Tell the header of a block at which line the block is closed. -/
def close (lines : Array Line) (header closing : Nat) : Array Line :=
  lines.modify (header - 1) fun line =>
    { line with instruction := line.instruction.closeAt closing }

/-- Append a line with its instruction and pair it with an open header if it is a
closing bracket. -/
def push (assembly : Assembly) (text : String) (instruction : Instruction) :
    Except CompileError Assembly :=
  let number := assembly.lines.size + 1
  match instruction with
  | .endIter _ =>
    match assembly.openHeaders with
    | [] => .error (.decode number .unmatchedBlockEnd)
    | header :: outer =>
      .ok { lines := (close assembly.lines header number).push ⟨text, .endIter header⟩
            openHeaders := outer }
  | instruction =>
    .ok { lines := assembly.lines.push ⟨text, instruction⟩
          openHeaders :=
            if instruction.opensBlock then number :: assembly.openHeaders
            else assembly.openHeaders }

/-- Decode a resolved line and append it. -/
def add (assembly : Assembly) (text : String) : Except CompileError Assembly :=
  match Instruction.ofTokens (Statement.ofLine text).tokens with
  | .error cause => .error (.decode (assembly.lines.size + 1) cause)
  | .ok instruction => assembly.push text instruction

/-- Decode and append resolved lines in order, up to the first error. -/
def addAll (assembly : Assembly) : List String → Except CompileError Assembly
  | [] => .ok assembly
  | text :: later =>
    match assembly.add text with
    | .error failure => .error failure
    | .ok extended => extended.addAll later

/-- The assembled lines, when every block has been closed. -/
def finish (assembly : Assembly) : Except CompileError (Array Line) :=
  match assembly.openHeaders with
  | [] => .ok assembly.lines
  | header :: _ => .error (.decode header .unclosedBlock)

end Assembly

namespace Program

/-- Decode resolved lines and pair their blocks. -/
def decodeLines (resolved : List String) : Except CompileError (Array Line) :=
  match Assembly.empty.addAll resolved with
  | .error failure => .error failure
  | .ok assembly => assembly.finish

/-- Assemble a program from a text of the given form. -/
def compile (form : ProgramForm) (text : String) : Except CompileError Program :=
  match link form (Source.normalLines text) with
  | .error cause => .error (.link cause)
  | .ok (labels, resolved) =>
    match decodeLines resolved with
    | .error failure => .error failure
    | .ok lines => .ok ⟨lines, labels⟩

end Program

end LineAsm
