import LineAsm.Instruction

/-!
# Reading an instruction from its words

The first word is a mnemonic and the others are its operands.  The number of
operands is checked first; then they are read from left to right, and the first
that does not fit gives the error.  A block header is the exception: its fixed
words and the shape of its range are checked before its registers are read.

An operand that starts with an ASCII letter is meant as a register and must name
one; every other value operand is a literal.  Block headers and closing brackets
are read without the line they are paired with.
-/

set_option autoImplicit false

namespace LineAsm

/-! ## Errors -/

/-- Why the words of a line are no instruction, or why a block is not balanced. -/
inductive DecodeError where
  | unknownMnemonic (word : String)
  | invalidRegister (word : String)
  | expectedRegister (word : String)
  | invalidLiteral (word : String)
  | arity (opcode : Opcode) (found : Nat)
  | unexpectedWord (expected found : String)
  | malformedRange (word : String)
  | mixedBanks (first last : Register)
  | descendingRange (first last : Register)
  | negativeCount (count : Int32)
  | invalidTarget (word : String)
  | unclosedBlock
  | unmatchedBlockEnd
  deriving DecidableEq, Repr, Inhabited

/-- The wording of an error. -/
def DecodeError.message : DecodeError → String
  | .unknownMnemonic word => "Unexpected instruction value: '" ++ word ++ "'"
  | .invalidRegister word => "Invalid register: '" ++ word ++ "'"
  | .expectedRegister word => "Expected a register, found '" ++ word ++ "'"
  | .invalidLiteral word => "Invalid operand literal: '" ++ word ++ "'"
  | .arity opcode found =>
    opcode.mnemonic ++ " takes " ++ toString opcode.arity ++ " operand(s), found "
      ++ toString found
  | .unexpectedWord expected found => "Expected '" ++ expected ++ "', found '" ++ found ++ "'"
  | .malformedRange word => "Malformed range '" ++ word ++ "', expected |R1:R2| or |R:n|"
  | .mixedBanks first last =>
    "Registers of different type in range: " ++ first.text ++ ", " ++ last.text
  | .descendingRange first last =>
    "Invalid registers order in range: " ++ first.text ++ ", " ++ last.text
  | .negativeCount count =>
    "Iteration count must be non-negative, found " ++ toString count
  | .invalidTarget word => "Invalid jump target: '" ++ word ++ "'"
  | .unclosedBlock => "Block opened here is never closed with ')'"
  | .unmatchedBlockEnd => "')' without an open ITER_THROUGH/ITER_FOR block"

namespace Decoding

/-! ## Operands -/

/-- A word that starts with an ASCII letter is meant as a register. -/
def isRegisterLike (word : String) : Bool :=
  match word.toList with
  | [] => false
  | c :: _ => c.isAlpha

/-- Read a register. -/
def register (word : String) : Except DecodeError Register :=
  if isRegisterLike word then
    match Register.ofText? word with
    | some register => .ok register
    | none => .error (.invalidRegister word)
  else .error (.expectedRegister word)

/-- Read a register or a literal. -/
def operand (word : String) : Except DecodeError Operand :=
  if isRegisterLike word then (register word).map .register
  else match Text.word32? word.toList with
    | some value => .ok (.literal value)
    | none => .error (.invalidLiteral word)

/-- Line numbers fit a word of 64 bits. -/
def lineBound : Nat := UInt64.size

/-- Read the number of a line: digits only, and not zero. -/
def target (word : String) : Except DecodeError Nat :=
  match Text.natural? word.toList with
  | some line => if 1 ≤ line ∧ line < lineBound then .ok line else .error (.invalidTarget word)
  | none => .error (.invalidTarget word)

/-- Read the number of passes of a block, which takes a minus sign but no plus
sign. -/
def passes (text : List Char) : Except DecodeError Int32 :=
  let word := String.ofList text
  if text.head? = some '+' then .error (.invalidLiteral word)
  else match Text.word32? text with
    | none => .error (.invalidLiteral word)
    | some count => if count < 0 then .error (.negativeCount count) else .ok count

/-- Check a fixed word. -/
def expect (expected word : String) : Except DecodeError Unit :=
  if word = expected then .ok () else .error (.unexpectedWord expected word)

/-- The two parts of a range `|left:right|`: neither is empty, and only one colon
stands between the bars. -/
def range? : List Char → Option (List Char × List Char)
  | '|' :: rest =>
    if rest.getLast? = some '|' then
      let inner := rest.dropLast
      let left := inner.takeWhile (· != ':')
      match inner.dropWhile (· != ':') with
      | _ :: right =>
        if left.isEmpty || right.isEmpty || right.contains ':' then none else some (left, right)
      | [] => none
    else none
  | _ => none

/-- Read a range. -/
def range (word : String) : Except DecodeError (List Char × List Char) :=
  match range? word.toList with
  | some parts => .ok parts
  | none => .error (.malformedRange word)

/-! ## Instructions -/

/-- The outcomes on which a conditional jump is taken. -/
def conditionOf : Opcode → Condition
  | .jumpZero | .jumpEqual => ⟨false, true, false⟩
  | .jumpNonzero | .jumpNotEqual => ⟨true, false, true⟩
  | .jumpGreater => ⟨false, false, true⟩
  | .jumpLess => ⟨true, false, false⟩
  | .jumpGreaterEqual => ⟨false, true, true⟩
  | .jumpLessEqual => ⟨true, true, false⟩
  | _ => ⟨false, false, false⟩

/-- Read the operands of an arithmetic instruction. -/
def arithmetic (op : ArithmeticOp) (target left right : String) :
    Except DecodeError Instruction := do
  return .arithmetic op (← register target) (← operand left) (← operand right)

/-- Read the operands of a jump on comparing a register with zero. -/
def zeroBranch (opcode : Opcode) (left line : String) : Except DecodeError Instruction := do
  return .branch opcode (conditionOf opcode) (← register left) (.literal 0) (← target line)

/-- Read the operands of a jump on comparing a register with a value. -/
def branch (opcode : Opcode) (left right line : String) : Except DecodeError Instruction := do
  return .branch opcode (conditionOf opcode) (← register left) (← operand right) (← target line)

/-- Read the header `|first:last| -> target (` of a block over registers. -/
def iterThrough (bounds arrow dst opening : String) : Except DecodeError Instruction := do
  let (left, right) ← range bounds
  expect rangeArrow arrow
  expect blockOpen opening
  let first ← register (String.ofList left)
  let last ← register (String.ofList right)
  let target ← register dst
  if !first.sameBank last then throw (.mixedBanks first last)
  if !first.isBefore last then throw (.descendingRange first last)
  return .iterThrough first last target 0

/-- Read the header `|register:count| (` of a counted block. -/
def iterFor (bounds opening : String) : Except DecodeError Instruction := do
  let (left, right) ← range bounds
  expect blockOpen opening
  let counter ← register (String.ofList left)
  let count ← passes right
  return .iterFor counter count 0

/-- Read the operands of an operation.  Another number of operands than the
operation takes is an arity error, whatever they are. -/
def operands (opcode : Opcode) (words : List String) : Except DecodeError Instruction :=
  match opcode, words with
  | .put, [dst, src] => return .put (← register dst) (← operand src)
  | .copy, [dst, src] => return .copy (← register dst) (← register src)
  | .swap, [first, second] => return .swap (← register first) (← register second)
  | .free, [reg] => return .free (← register reg)
  | .add, [dst, left, right] => arithmetic .add dst left right
  | .sub, [dst, left, right] => arithmetic .sub dst left right
  | .mul, [dst, left, right] => arithmetic .mul dst left right
  | .div, [dst, left, right] => arithmetic .div dst left right
  | .mod, [dst, left, right] => arithmetic .mod dst left right
  | .inc, [reg] => return .inc (← register reg)
  | .dec, [reg] => return .dec (← register reg)
  | .jump, [line] => return .jump (← target line)
  | .jumpZero, [left, line] => zeroBranch .jumpZero left line
  | .jumpNonzero, [left, line] => zeroBranch .jumpNonzero left line
  | .jumpEqual, [left, right, line] => branch .jumpEqual left right line
  | .jumpNotEqual, [left, right, line] => branch .jumpNotEqual left right line
  | .jumpGreater, [left, right, line] => branch .jumpGreater left right line
  | .jumpLess, [left, right, line] => branch .jumpLess left right line
  | .jumpGreaterEqual, [left, right, line] => branch .jumpGreaterEqual left right line
  | .jumpLessEqual, [left, right, line] => branch .jumpLessEqual left right line
  | .call, [line] => return .call (← target line)
  | .ret, [] => return .ret
  | .iterThrough, [bounds, arrow, dst, opening] => iterThrough bounds arrow dst opening
  | .iterFor, [bounds, opening] => iterFor bounds opening
  | .endIter, [] => return .endIter 0
  | .writeDecimal, [reg] => return .write (.decimal (← register reg))
  | .writeCharacter, [reg] => return .write (.character (← register reg))
  | .writeHex, [reg] => return .write (.hex (← register reg))
  | .clearScreen, [] => return .clearScreen
  | .newLine, [] => return .write .newLine
  | .tab, [] => return .write .tab
  | opcode, words => .error (.arity opcode words.length)

end Decoding

/-- Read the instruction of a line from its words; no words are no instruction. -/
def Instruction.ofTokens (tokens : List String) : Except DecodeError Instruction :=
  match tokens with
  | [] => .ok .nop
  | word :: operands =>
    match Opcode.ofMnemonic? word with
    | none => .error (.unknownMnemonic word)
    | some opcode => Decoding.operands opcode operands

end LineAsm
