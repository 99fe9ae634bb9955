import LineAsm.Instruction

/-!
# The canonical text of an instruction

The mnemonic and the operands with single spaces between them.  Labels, comments
and the lines of paired brackets are no part of it.
-/

set_option autoImplicit false

namespace LineAsm

/-- The text of a value operand. -/
def Operand.text : Operand → String
  | .register source => source.text
  | .literal value => toString value

namespace Instruction

/-- The words of an instruction in canonical form. -/
def canonicalWords : Instruction → List String
  | .nop => []
  | .put target source => [Opcode.mnemonic .put, target.text, source.text]
  | .copy target source => [Opcode.mnemonic .copy, target.text, source.text]
  | .swap first second => [Opcode.mnemonic .swap, first.text, second.text]
  | .free register => [Opcode.mnemonic .free, register.text]
  | .arithmetic op target left right =>
    [op.opcode.mnemonic, target.text, left.text, right.text]
  | .inc register => [Opcode.mnemonic .inc, register.text]
  | .dec register => [Opcode.mnemonic .dec, register.text]
  | .jump line => [Opcode.mnemonic .jump, toString line]
  | .branch opcode _ left right line =>
    -- An operation with two operands compares with an implied zero.
    if opcode.arity = 2 then [opcode.mnemonic, left.text, toString line]
    else [opcode.mnemonic, left.text, right.text, toString line]
  | .call line => [Opcode.mnemonic .call, toString line]
  | .ret => [Opcode.mnemonic .ret]
  | .iterThrough first last target _ =>
    [Opcode.mnemonic .iterThrough, "|" ++ first.text ++ ":" ++ last.text ++ "|", rangeArrow,
      target.text, blockOpen]
  | .iterFor register count _ =>
    [Opcode.mnemonic .iterFor, "|" ++ register.text ++ ":" ++ toString count ++ "|", blockOpen]
  | .endIter _ => [blockClose]
  | .write item => match item with
    | .decimal register => [Opcode.mnemonic .writeDecimal, register.text]
    | .character register => [Opcode.mnemonic .writeCharacter, register.text]
    | .hex register => [Opcode.mnemonic .writeHex, register.text]
    | .newLine => [Opcode.mnemonic .newLine]
    | .tab => [Opcode.mnemonic .tab]
  | .clearScreen => [Opcode.mnemonic .clearScreen]

/-- The canonical text of an instruction; empty for a line without one. -/
def text (instruction : Instruction) : String :=
  " ".intercalate instruction.canonicalWords

end Instruction

end LineAsm
