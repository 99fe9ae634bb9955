import LineAsm.Opcode
import LineAsm.Register

/-!
# Instructions

One instruction per addressed line, with its operands read and its targets as
line numbers counted from one.  A block header carries the line of its closing
bracket and a closing bracket the line of its header; both are zero until the
blocks of a program have been paired.
-/

set_option autoImplicit false

namespace LineAsm

/-! ## Operands -/

/-- A value operand: a register, or a literal. -/
inductive Operand where
  | register (register : Register)
  | literal (value : Int32)
  deriving DecidableEq, Repr, Inhabited

/-- Which outcomes of a comparison take a conditional jump. -/
structure Condition where
  less : Bool
  equal : Bool
  greater : Bool
  deriving DecidableEq, Repr, Inhabited

namespace Condition

/-- Whether a condition admits the outcome of comparing two values. -/
def holds (condition : Condition) (left right : Int32) : Bool :=
  if left < right then condition.less
  else if left = right then condition.equal
  else condition.greater

end Condition

/-- The operations with two value operands and a destination. -/
inductive ArithmeticOp where
  | add | sub | mul | div | mod
  deriving DecidableEq, Repr, Inhabited

/-- The operation code of an arithmetic operation. -/
def ArithmeticOp.opcode : ArithmeticOp → Opcode
  | .add => .add
  | .sub => .sub
  | .mul => .mul
  | .div => .div
  | .mod => .mod

/-- What an output instruction writes. -/
inductive Printable where
  /-- The value in decimal, and a line feed. -/
  | decimal (register : Register)
  /-- The character with the value as its code point. -/
  | character (register : Register)
  /-- The value as an unsigned hexadecimal number. -/
  | hex (register : Register)
  | newLine
  | tab
  deriving DecidableEq, Repr, Inhabited

/-- The operation code of an output instruction. -/
def Printable.opcode : Printable → Opcode
  | .decimal _ => .writeDecimal
  | .character _ => .writeCharacter
  | .hex _ => .writeHex
  | .newLine => .newLine
  | .tab => .tab

/-! ## Instructions -/

/-- The instruction of one line. -/
inductive Instruction where
  /-- A line without an instruction. -/
  | nop
  | put (target : Register) (source : Operand)
  | copy (target source : Register)
  | swap (first second : Register)
  | free (register : Register)
  | arithmetic (op : ArithmeticOp) (target : Register) (left right : Operand)
  | inc (register : Register)
  | dec (register : Register)
  | jump (line : Nat)
  /-- Jump when the condition admits the comparison of the two operands. -/
  | branch (opcode : Opcode) (condition : Condition) (left : Register) (right : Operand)
      (line : Nat)
  | call (line : Nat)
  | ret
  /-- Repeat a block for each register of a bank from `first` to `last`, whose
  value is copied to `target` before each pass. -/
  | iterThrough (first last target : Register) (closing : Nat)
  /-- Repeat a block `count` times, numbering the passes in `register` from zero. -/
  | iterFor (register : Register) (count : Int32) (closing : Nat)
  /-- The end of the block opened at the line `header`. -/
  | endIter (header : Nat)
  | write (item : Printable)
  | clearScreen
  deriving DecidableEq, Repr, Inhabited

namespace Instruction

/-- The operation code of an instruction; a line without an instruction has none. -/
def opcode? : Instruction → Option Opcode
  | .nop => none
  | .put .. => some .put
  | .copy .. => some .copy
  | .swap .. => some .swap
  | .free .. => some .free
  | .arithmetic op .. => some op.opcode
  | .inc .. => some .inc
  | .dec .. => some .dec
  | .jump .. => some .jump
  | .branch opcode .. => some opcode
  | .call .. => some .call
  | .ret => some .ret
  | .iterThrough .. => some .iterThrough
  | .iterFor .. => some .iterFor
  | .endIter .. => some .endIter
  | .write item => some item.opcode
  | .clearScreen => some .clearScreen

/-- The line named by a jump, a conditional jump or a call. -/
def target? : Instruction → Option Nat
  | .jump line => some line
  | .branch _ _ _ _ line => some line
  | .call line => some line
  | _ => none

/-- Whether an instruction opens a block. -/
def opensBlock : Instruction → Bool
  | .iterThrough .. => true
  | .iterFor .. => true
  | _ => false

/-- The header of a block with the line of its closing bracket filled in. -/
def closeAt (line : Nat) : Instruction → Instruction
  | .iterThrough first last target _ => .iterThrough first last target line
  | .iterFor register count _ => .iterFor register count line
  | other => other

end Instruction

end LineAsm
