/-!
# Operation codes

The thirty-one operations of the machine with the columns of the instruction
table: mnemonic, family, number of operands and, for a jump or a call, the place
of the operand that names its target.  Mnemonics are matched exactly, upper and
lower case included, and no two operations share one (`Opcode.ofMnemonic?_mnemonic`).
-/

set_option autoImplicit false

namespace LineAsm

/-! ## Families -/

/-- What an operation works on. -/
inductive Family where
  | data | arithmetic | control | range | output
  deriving DecidableEq, Repr, Inhabited

namespace Family

/-- The families in the alphabetical order of their names. -/
def byName : List Family := [.arithmetic, .control, .data, .output, .range]

/-- The name of a family in reports. -/
def name : Family → String
  | .data => "Data"
  | .arithmetic => "Arith"
  | .control => "Control"
  | .range => "Range"
  | .output => "Output"

end Family

/-! ## Operations -/

/-- The operations of the machine, in the order of the instruction table. -/
inductive Opcode where
  | put | copy | swap | free
  | add | sub | mul | div | mod | inc | dec
  | jump | jumpZero | jumpNonzero
  | jumpEqual | jumpNotEqual | jumpGreater | jumpLess | jumpGreaterEqual | jumpLessEqual
  | call | ret
  | iterThrough | iterFor | endIter
  | writeDecimal | writeCharacter | writeHex | clearScreen | newLine | tab
  deriving DecidableEq, Repr, Inhabited

namespace Opcode

/-- All operations, in the order of the instruction table. -/
def all : List Opcode :=
  [.put, .copy, .swap, .free,
    .add, .sub, .mul, .div, .mod, .inc, .dec,
    .jump, .jumpZero, .jumpNonzero,
    .jumpEqual, .jumpNotEqual, .jumpGreater, .jumpLess, .jumpGreaterEqual, .jumpLessEqual,
    .call, .ret,
    .iterThrough, .iterFor, .endIter,
    .writeDecimal, .writeCharacter, .writeHex, .clearScreen, .newLine, .tab]

/-- The word that names an operation in a program. -/
def mnemonic : Opcode → String
  | .put => "PUT"
  | .copy => "COPY"
  | .swap => "SWAP"
  | .free => "FREE"
  | .add => "ADD"
  | .sub => "SUB"
  | .mul => "MUL"
  | .div => "DIV"
  | .mod => "MOD"
  | .inc => "INC"
  | .dec => "DEC"
  | .jump => "JMP"
  | .jumpZero => "JZ"
  | .jumpNonzero => "JNZ"
  | .jumpEqual => "JE"
  | .jumpNotEqual => "JNE"
  | .jumpGreater => "JG"
  | .jumpLess => "JL"
  | .jumpGreaterEqual => "JGE"
  | .jumpLessEqual => "JLE"
  | .call => "CALL"
  | .ret => "RET"
  | .iterThrough => "ITER_THROUGH"
  | .iterFor => "ITER_FOR"
  | .endIter => ")"
  | .writeDecimal => "_SHOW"
  | .writeCharacter => "_ASCII"
  | .writeHex => "_HEX"
  | .clearScreen => "_CLS"
  | .newLine => "_NEWL"
  | .tab => "_TAB"

/-- The family of an operation. -/
def family : Opcode → Family
  | .put | .copy | .swap | .free => .data
  | .add | .sub | .mul | .div | .mod | .inc | .dec => .arithmetic
  | .jump | .jumpZero | .jumpNonzero => .control
  | .jumpEqual | .jumpNotEqual | .jumpGreater => .control
  | .jumpLess | .jumpGreaterEqual | .jumpLessEqual => .control
  | .call | .ret => .control
  | .iterThrough | .iterFor | .endIter => .range
  | .writeDecimal | .writeCharacter | .writeHex | .clearScreen | .newLine | .tab => .output

/-- How many words follow the mnemonic.  The arrow and the opening bracket of a
block header count as words of their own. -/
def arity : Opcode → Nat
  | .put | .copy | .swap => 2
  | .free => 1
  | .add | .sub | .mul | .div | .mod => 3
  | .inc | .dec => 1
  | .jump => 1
  | .jumpZero | .jumpNonzero => 2
  | .jumpEqual | .jumpNotEqual | .jumpGreater => 3
  | .jumpLess | .jumpGreaterEqual | .jumpLessEqual => 3
  | .call => 1
  | .ret => 0
  | .iterThrough => 4
  | .iterFor => 2
  | .endIter => 0
  | .writeDecimal | .writeCharacter | .writeHex => 1
  | .clearScreen | .newLine | .tab => 0

/-- Whether an operation has an operand that names a line. -/
def takesLabel : Opcode → Bool
  | .jump | .jumpZero | .jumpNonzero => true
  | .jumpEqual | .jumpNotEqual | .jumpGreater => true
  | .jumpLess | .jumpGreaterEqual | .jumpLessEqual => true
  | .call => true
  | _ => false

/-- The place of the operand that names a line, counted in words from the
mnemonic at place zero; it is the last operand. -/
def labelPlace? (opcode : Opcode) : Option Nat :=
  if opcode.takesLabel then some opcode.arity else none

/-- The operation named by a mnemonic. -/
def ofMnemonic? (text : String) : Option Opcode :=
  all.find? (·.mnemonic == text)

/-- A mnemonic names its own operation and no earlier one. -/
theorem ofMnemonic?_mnemonic (opcode : Opcode) : ofMnemonic? opcode.mnemonic = some opcode := by
  cases opcode <;> decide

/-- A word that names an operation is that operation's mnemonic. -/
theorem mnemonic_of_ofMnemonic? {text : String} {opcode : Opcode}
    (named : ofMnemonic? text = some opcode) : opcode.mnemonic = text := by
  simpa using List.find?_some named

end Opcode

/-! ## Fixed words of block headers -/

/-- The word that opens a block. -/
def blockOpen : String := "("

/-- The word that closes a block. -/
def blockClose : String := ")"

/-- The word between a range of registers and the register it is copied to. -/
def rangeArrow : String := "->"

end LineAsm
