import LineAsm.Instruction.Rendering
import LineAsm.Machine.CallStack
import LineAsm.Program
import LineAsm.Register.File

/-!
# The state of the machine

The machine has a program counter, a register file, a call stack and a stack of
loop frames, one for each block that has been entered and not been left through
its closing bracket.  It counts the lines it has executed.
-/

set_option autoImplicit false

namespace LineAsm

/-! ## Configuration and loop frames -/

/-- Limits on a run; an absent limit is no limit. -/
structure Config where
  maxSteps : Option Nat
  maxCallDepth : Option Nat
  deriving DecidableEq, Repr, Inhabited

/-- The configuration without limits. -/
def Config.unlimited : Config := ⟨none, none⟩

/-- What a loop sets before each pass. -/
inductive Induction where
  /-- The register `target` gets the value of the bank's register with the index of
  the pass. -/
  | through (bank : Bank) (target : Register)
  /-- The register gets the number of the pass. -/
  | count (register : Register)
  deriving DecidableEq, Repr, Inhabited

/-- A loop that has been entered: the line of its header and the index of the
current and of the last pass. -/
structure LoopFrame where
  header : Nat
  induction : Induction
  index : Int32
  last : Int32
  deriving DecidableEq, Repr, Inhabited

/-! ## Traps -/

/-- Why a run was stopped. -/
inductive Trap where
  | divisionByZero (line : Nat)
  | stackUnderflow (line : Nat)
  | stackOverflow (line depth : Nat)
  | loopFrame (line : Nat)
  | stepLimit (steps : Nat)
  | console (line : Nat) (reason : String)
  deriving DecidableEq, Repr, Inhabited

/-- The wording of a trap. -/
def Trap.message : Trap → String
  | .divisionByZero line => "line " ++ toString line ++ ": division by zero"
  | .stackUnderflow line => "line " ++ toString line ++ ": RET with an empty call stack"
  | .stackOverflow line depth =>
    "line " ++ toString line ++ ": call depth " ++ toString depth
      ++ " exceeds the configured limit"
  | .loopFrame line =>
    "line " ++ toString line ++ ": ')' reached without an active loop for its block"
  | .stepLimit steps => "step limit reached after " ++ toString steps ++ " steps"
  | .console line reason => "line " ++ toString line ++ ": console error: " ++ reason

/-! ## The machine -/

/-- The state of the machine. -/
structure Machine where
  /-- The line to execute next. -/
  pc : Nat
  /-- The line executed last. -/
  line : Nat
  registers : RegisterFile
  callStack : CallStack
  /-- The loops that have been entered, the latest first. -/
  loops : List LoopFrame
  /-- How many lines have been executed. -/
  steps : Nat
  config : Config
  deriving DecidableEq, Repr, Inhabited

namespace Machine

/-- The machine before its first step. -/
def initial (config : Config) : Machine where
  pc := 1
  line := 0
  registers := .fresh
  callStack := .empty
  loops := []
  steps := 0
  config := config

/-- Start anew under the same configuration. -/
def reset (machine : Machine) : Machine := initial machine.config

/-- A machine is halted when its program counter is past the last line. -/
def isHalted (program : Program) (machine : Machine) : Bool :=
  program.size < machine.pc

/-- Whether as many lines have been executed as the configuration allows. -/
def atStepLimit (machine : Machine) : Bool :=
  match machine.config.maxSteps with
  | none => false
  | some limit => limit ≤ machine.steps

/-- The value of an operand. -/
def valueOf (machine : Machine) : Operand → Int32
  | .register register => machine.registers.get register
  | .literal value => value

/-- Give a register a value. -/
def assign (machine : Machine) (register : Register) (value : Int32) : Machine :=
  { machine with registers := machine.registers.put register value }

end Machine

end LineAsm
