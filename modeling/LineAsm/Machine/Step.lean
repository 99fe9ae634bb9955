import LineAsm.Machine.Console
import LineAsm.Machine.State

/-!
# Executing instructions

An instruction acts on the machine alone (`Machine.apply`) or on the console alone
(`Machine.execute` at an output instruction).  An instruction that traps leaves the
machine as it was.

The program counter is advanced before the instruction acts, so a jump overwrites
it and a line that traps has already been counted.
-/

set_option autoImplicit false

namespace LineAsm

/-! ## Arithmetic -/

/-- The result of an arithmetic operation on 32-bit words.  Sums, differences and
products wrap around; a quotient is rounded toward zero and a remainder has the
sign of the dividend.  Nothing can be divided by zero. -/
def ArithmeticOp.apply? (op : ArithmeticOp) (left right : Int32) : Option Int32 :=
  match op with
  | .add => some (left + right)
  | .sub => some (left - right)
  | .mul => some (left * right)
  | .div => if right = 0 then none else some (left / right)
  | .mod => if right = 0 then none else some (left % right)

/-! ## Output -/

/-- The character with a code point, or the replacement character when there is
none. -/
def characterOf (code : Nat) : Char :=
  if code.isValidChar then Char.ofNat code else '\ufffd'

/-- The text that an output instruction writes. -/
def Printable.text (registers : RegisterFile) : Printable → String
  | .decimal register => toString (registers.get register) ++ "\n"
  | .character register =>
    String.singleton (characterOf (registers.get register).toUInt32.toNat)
  | .hex register => String.ofList (Nat.toDigits 16 (registers.get register).toUInt32.toNat)
  | .newLine => "\n"
  | .tab => "\t"

namespace Machine

/-! ## Loops -/

/-- Set what a loop sets before the pass its frame is at. -/
def beginPass (machine : Machine) (frame : LoopFrame) : Machine :=
  match frame.induction with
  | .through bank target =>
    machine.assign target (machine.registers.get ⟨bank, frame.index.toNatClampNeg⟩)
  | .count register => machine.assign register frame.index

/-- Forget the loop with the given header, wherever it stands among the frames. -/
def leaveLoop (machine : Machine) (header : Nat) : Machine :=
  { machine with loops := machine.loops.filter (·.header != header) }

/-- Enter a loop at its first pass.  A loop that is entered again while it is still
active starts anew. -/
def enterLoop (machine : Machine) (frame : LoopFrame) : Machine :=
  let begun := (machine.leaveLoop frame.header).beginPass frame
  { begun with loops := frame :: begun.loops }

/-- Reach the closing bracket of a loop: start its next pass, or leave it after the
last.  Frames above the loop's own belong to inner loops that were left by a jump
and are dropped. -/
def closeLoop (machine : Machine) (header : Nat) : Except Trap Machine :=
  match machine.loops.dropWhile (·.header != header) with
  | [] => .error (.loopFrame machine.line)
  | frame :: outer =>
    if frame.index < frame.last then
      let next := { frame with index := frame.index + 1 }
      .ok { machine.beginPass next with loops := next :: outer, pc := header + 1 }
    else .ok { machine with loops := outer }

/-! ## Calls -/

/-- Whether as many calls are under way as the configuration allows. -/
def atCallLimit (machine : Machine) : Bool :=
  match machine.config.maxCallDepth with
  | none => false
  | some limit => limit ≤ machine.callStack.depth

/-- Call the subroutine at a line.  The record left on the stack names it by its
label, or by its line when it has no label. -/
def call (program : Program) (machine : Machine) (target : Nat) : Except Trap Machine :=
  if machine.atCallLimit then
    .error (.stackOverflow machine.line (machine.callStack.depth + 1))
  else
    let label := (program.labels.nameAt? target).getD (toString target)
    .ok { machine with
      callStack := machine.callStack.push label (machine.line + 1)
      pc := target }

/-- Return to the line after the latest call. -/
def returnFromCall (machine : Machine) : Except Trap Machine :=
  match machine.callStack.pop? with
  | none => .error (.stackUnderflow machine.line)
  | some (record, earlier) => .ok { machine with callStack := earlier, pc := record.line }

/-! ## Instructions -/

/-- What an instruction does to the machine.  An output instruction does nothing to
it. -/
def apply (program : Program) (machine : Machine) : Instruction → Except Trap Machine
  | .nop => .ok machine
  | .put target source => .ok (machine.assign target (machine.valueOf source))
  | .copy target source => .ok (machine.assign target (machine.registers.get source))
  | .swap first second =>
    .ok { machine with registers := machine.registers.swap first second }
  | .free register => .ok { machine with registers := machine.registers.free register }
  | .arithmetic op target left right =>
    match op.apply? (machine.valueOf left) (machine.valueOf right) with
    | none => .error (.divisionByZero machine.line)
    | some value => .ok (machine.assign target value)
  | .inc register => .ok (machine.assign register (machine.registers.get register + 1))
  | .dec register => .ok (machine.assign register (machine.registers.get register - 1))
  | .jump line => .ok { machine with pc := line }
  | .branch _ condition left right line =>
    if condition.holds (machine.registers.get left) (machine.valueOf right) then
      .ok { machine with pc := line }
    else .ok machine
  | .call line => machine.call program line
  | .ret => machine.returnFromCall
  | .iterThrough first last target _ =>
    .ok (machine.enterLoop
      { header := machine.line
        induction := .through first.bank target
        index := Int32.ofNat first.index
        last := Int32.ofNat last.index })
  | .iterFor register count closing =>
    if count = 0 then .ok { machine.leaveLoop machine.line with pc := closing + 1 }
    else .ok (machine.enterLoop
      { header := machine.line
        induction := .count register
        index := 0
        last := count - 1 })
  | .endIter header => machine.closeLoop header
  | .write _ => .ok machine
  | .clearScreen => .ok machine

end Machine

/-- What a machine and a console have become, and the trap that stopped the machine
if one did. -/
structure Outcome (σ : Type) where
  machine : Machine
  console : σ
  trap : Option Trap

namespace Machine

variable {σ : Type}

/-- Execute an instruction on a machine and a console. -/
def execute (program : Program) (sink : Console σ) (machine : Machine) (console : σ)
    (instruction : Instruction) : Outcome σ :=
  match instruction with
  | .write item =>
    let (after, failure) := sink.write (item.text machine.registers) console
    ⟨machine, after, failure.map (.console machine.line)⟩
  | .clearScreen =>
    let (after, failure) := sink.clear console
    ⟨machine, after, failure.map (.console machine.line)⟩
  | instruction =>
    match machine.apply program instruction with
    | .ok next => ⟨next, console, none⟩
    | .error trap => ⟨machine, console, some trap⟩

/-- The machine about to act on the line its program counter is at: the line is
counted and the program counter is at the line after it. -/
def fetch (machine : Machine) : Machine :=
  { machine with line := machine.pc, pc := machine.pc + 1, steps := machine.steps + 1 }

/-- Execute the line the program counter is at; where there is none, do nothing. -/
def step (program : Program) (sink : Console σ) (machine : Machine) (console : σ) : Outcome σ :=
  match program.instruction? machine.pc with
  | none => ⟨machine, console, none⟩
  | some instruction => machine.fetch.execute program sink console instruction

end Machine

end LineAsm
