import LineAsm.Machine.Step
import LineAsm.Proofs.Program.BlockTree

/-!
# Evaluating a block tree

The meaning of a tree without jumps and calls, by its structure and without a program
counter, loop frames or line numbers other than those that errors name.  A line changes
the registers or writes to the console.  A block is evaluated pass by pass: a counted
block as often as its header says, with the number of the pass in its register, and a
block over registers once for each of them, with the value that the register has at that
moment.  The first error ends the evaluation.
-/

set_option autoImplicit false

namespace LineAsm

/-! ## Passes -/

namespace LoopHead

/-- The number of the first pass of a block. -/
def firstPass : LoopHead → Nat
  | .through first _ _ => first.index
  | .count _ _ => 0

/-- How many passes a block makes. -/
def passCount : LoopHead → Nat
  | .through first last _ => last.index + 1 - first.index
  | .count _ passes => passes.toNatClampNeg

/-- What the header of a block sets before a pass. -/
def startPass : LoopHead → Nat → RegisterFile → RegisterFile
  | .through first _ target, pass, registers =>
    registers.put target (registers.get ⟨first.bank, pass⟩)
  | .count register _, pass, registers => registers.put register (Int32.ofNat pass)

end LoopHead

namespace Structured

/-- The registers and the console after an evaluation, and the error that ended it. -/
structure Result (σ : Type) where
  registers : RegisterFile
  console : σ
  trap : Option Trap

variable {σ : Type}

/-- Go on after an evaluation, unless an error has ended it. -/
def Result.andThen (result : Result σ) (next : RegisterFile → σ → Result σ) : Result σ :=
  match result.trap with
  | none => next result.registers result.console
  | some _ => result

/-- Make a number of passes through a body, the first of which has the given number. -/
def repeatFrom (start : Nat → RegisterFile → RegisterFile) (body : RegisterFile → σ → Result σ) :
    Nat → Nat → RegisterFile → σ → Result σ
  | _, 0, registers, console => ⟨registers, console, none⟩
  | pass, count + 1, registers, console =>
    (body (start pass registers) console).andThen (repeatFrom start body (pass + 1) count)

/-! ## Lines -/

/-- The value of an operand. -/
def valueOf (registers : RegisterFile) : Operand → Int32
  | .register register => registers.get register
  | .literal value => value

/-- What the instruction of a line does to the registers and the console.  Jumps, calls
and brackets have no meaning here. -/
def effect (sink : Console σ) (line : Nat) (instruction : Instruction) (registers : RegisterFile)
    (console : σ) : Result σ :=
  match instruction with
  | .put target source => ⟨registers.put target (valueOf registers source), console, none⟩
  | .copy target source => ⟨registers.put target (registers.get source), console, none⟩
  | .swap first second => ⟨registers.swap first second, console, none⟩
  | .free register => ⟨registers.put register 0, console, none⟩
  | .arithmetic op target left right =>
    match op.apply? (valueOf registers left) (valueOf registers right) with
    | some value => ⟨registers.put target value, console, none⟩
    | none => ⟨registers, console, some (.divisionByZero line)⟩
  | .inc register => ⟨registers.put register (registers.get register + 1), console, none⟩
  | .dec register => ⟨registers.put register (registers.get register - 1), console, none⟩
  | .write item =>
    ⟨registers, (sink.write (item.text registers) console).1,
      (sink.write (item.text registers) console).2.map (.console line)⟩
  | .clearScreen =>
    ⟨registers, (sink.clear console).1, (sink.clear console).2.map (.console line)⟩
  | _ => ⟨registers, console, none⟩

/-! ## Trees -/

/-- **The meaning of a tree** whose first line has the given number. -/
def eval (sink : Console σ) : BlockTree → Nat → RegisterFile → σ → Result σ
  | .done, _, registers, console => ⟨registers, console, none⟩
  | .line instruction _ next, line, registers, console =>
    (effect sink line instruction registers console).andThen (eval sink next (line + 1))
  | .loop head body next, line, registers, console =>
    (repeatFrom head.startPass (eval sink body (line + 1)) head.firstPass head.passCount registers
      console).andThen (eval sink next (line + body.size + 2))

end Structured

end LineAsm
