import LineAsm.Proofs.Instruction.Completeness
import LineAsm.Proofs.Program.Decoded
import LineAsm.Proofs.Text.Numeral
import Mathlib.Data.List.Forall2

/-!
# Sentences

What an instruction takes from the words of its line are its parameters, and `Writes` says how
each kind of parameter is written.  A sentence (`Sentence`) is a mnemonic and the parameters of
an instruction of this mnemonic, written in their order with one word for each.  Numbers are
written as numerals and conditional jumps compare as their mnemonics say (`Instruction.Plain`),
so that no function of the decoder is named.

The rules that the decoder was seen to follow, one for each shape of operands, say the same
(`Decoding.sentence_of_spells`, `Decoding.spells_of_sentence`).
-/

set_option autoImplicit false

namespace LineAsm

/-! ## How parameters are written -/

/-- A register is written as the letter of its bank and one digit. -/
inductive RegisterName : String → Register → Prop where
  | mk (bank : Bank) {digit : Char} (isDigit : digit.isDigit = true) :
      RegisterName (String.ofList [bank.letter, digit]) ⟨bank, digit.toNat - '0'.toNat⟩

/-- What an instruction takes from one word of its line. -/
inductive Parameter where
  | register (named : Register)
  | value (operand : Operand)
  /-- The number of a line. -/
  | line (number : Nat)
  /-- The registers of one bank that a block runs through. -/
  | span (first last : Register)
  /-- The register that numbers the passes of a block, and how many there are. -/
  | count (counter : Register) (passes : Int32)
  | arrow
  | opening
  deriving DecidableEq, Repr, Inhabited

/-- **How a parameter is written.** -/
inductive Writes : String → Parameter → Prop where
  | register {word : String} {named : Register} (name : RegisterName word named) :
      Writes word (.register named)
  | registerValue {word : String} {named : Register} (name : RegisterName word named) :
      Writes word (.value (.register named))
  | literal {word : String} {value : Int32}
      (numeral : Text.SignedNumeral word.toList value.toInt) :
      Writes word (.value (.literal value))
  | line {word : String} {number : Nat} (numeral : Text.Numeral word.toList number)
      (positive : 1 ≤ number) (fits : number < UInt64.size) : Writes word (.line number)
  | span {left right : String} {first last : Register} (isFirst : RegisterName left first)
      (isLast : RegisterName right last) (oneBank : first.bank = last.bank)
      (ascending : first.index < last.index) :
      Writes ("|" ++ left ++ ":" ++ right ++ "|") (.span first last)
  | count {left right : String} {counter : Register} {passes : Int32}
      (isCounter : RegisterName left counter)
      (numeral : Text.SignedNumeral right.toList passes.toInt)
      (noPlus : right.toList.head? ≠ some '+') (notNegative : 0 ≤ passes.toInt) :
      Writes ("|" ++ left ++ ":" ++ right ++ "|") (.count counter passes)
  | arrow : Writes "->" .arrow
  | opening : Writes "(" .opening

/-! ## What instructions carry -/

/-- The parameters of an instruction in the order in which they are written. -/
def Instruction.parameters : Instruction → List Parameter
  | .nop => []
  | .put target source => [.register target, .value source]
  | .copy target source => [.register target, .register source]
  | .swap first second => [.register first, .register second]
  | .free register => [.register register]
  | .arithmetic _ target left right => [.register target, .value left, .value right]
  | .inc register => [.register register]
  | .dec register => [.register register]
  | .jump line => [.line line]
  | .branch opcode _ left right line =>
    -- An operation with two operands compares with an implied zero.
    if opcode.arity = 2 then [.register left, .line line]
    else [.register left, .value right, .line line]
  | .call line => [.line line]
  | .ret => []
  | .iterThrough first last target _ => [.span first last, .arrow, .register target, .opening]
  | .iterFor register count _ => [.count register count, .opening]
  | .endIter _ => []
  | .write item => item.registers.map .register
  | .clearScreen => []

/-- The comparison on which a conditional jump is taken; no other operation compares. -/
def Opcode.comparison? : Opcode → Option (Int → Int → Prop)
  | .jumpZero | .jumpEqual => some fun left right => left = right
  | .jumpNonzero | .jumpNotEqual => some fun left right => left ≠ right
  | .jumpGreater => some fun left right => right < left
  | .jumpLess => some fun left right => left < right
  | .jumpGreaterEqual => some fun left right => right ≤ left
  | .jumpLessEqual => some fun left right => left ≤ right
  | _ => none

/-- Instructions as a line says them on its own: brackets are not paired, and a conditional
jump compares as its mnemonic says, with zero when it has no second operand. -/
def Instruction.Plain : Instruction → Prop
  | .branch opcode condition _ right _ =>
    (∃ compares, opcode.comparison? = some compares ∧
      ∀ one other : Int32, condition.holds one other = true ↔ compares one.toInt other.toInt) ∧
      (opcode.arity = 2 → right = .literal 0)
  | .iterThrough _ _ _ closing => closing = 0
  | .iterFor _ _ closing => closing = 0
  | .endIter header => header = 0
  | _ => True

/-- **Words that are read as an instruction**: none at all, or a mnemonic and behind it, one
word for each, what the instruction of this mnemonic carries. -/
inductive Sentence : List String → Instruction → Prop where
  | empty : Sentence [] .nop
  | words {opcode : Opcode} {operands : List String} {instruction : Instruction}
      (operation : instruction.opcode? = some opcode) (plain : instruction.Plain)
      (written : List.Forall₂ Writes operands instruction.parameters) :
      Sentence (opcode.mnemonic :: operands) instruction

/-! ## Registers -/

/-- **Names of registers are read as the registers.** -/
theorem ofText?_eq_some_iff {word : String} {register : Register} :
    Register.ofText? word = some register ↔ RegisterName word register := by
  have read (bank : Bank) {digit : Char} (isDigit : digit.isDigit = true) :
      Register.ofText? (String.ofList [bank.letter, digit]) =
        some ⟨bank, digit.toNat - '0'.toNat⟩ := by
    have bounds := Char.isDigit_iff_toNat.mp isDigit
    have single : digit.toNat - '0'.toNat < Bank.size := by
      have nine : '9'.toNat = '0'.toNat + 9 := rfl
      rw [Bank.size]
      omega
    rw [Register.ofText?, String.toList_ofList]
    simp only [Bank.ofLetter?_letter, Text.natural?_eq_some_iff.mpr (.digit isDigit),
      Option.bind_some, Register.ofIndex?, if_pos single]
  constructor
  · intro named
    obtain ⟨digit, written, isDigit⟩ := Register.ofText?_eq_some named
    obtain rfl : word = String.ofList [register.bank.letter, digit] := by
      rw [← written, String.ofList_toList]
    rw [read register.bank isDigit] at named
    have name := RegisterName.mk register.bank isDigit
    rwa [Option.some.inj named] at name
  · rintro ⟨bank, isDigit⟩
    exact read bank isDigit

namespace Decoding

theorem spellsOperand_iff {word : String} {operand : Operand} :
    SpellsOperand word operand ↔ Writes word (.value operand) := by
  constructor
  · rintro (named | read)
    · exact .registerValue (ofText?_eq_some_iff.mp named)
    · exact .literal (Text.word32?_eq_some_iff.mp read)
  · rintro (_ | name | numeral)
    · exact .register (ofText?_eq_some_iff.mpr name)
    · exact .literal (Text.word32?_eq_some_iff.mpr numeral)

theorem writes_register_iff {word : String} {named : Register} :
    Writes word (.register named) ↔ Register.ofText? word = some named := by
  rw [ofText?_eq_some_iff]
  exact ⟨fun | .register name => name, .register⟩

theorem writes_line_iff {word : String} {number : Nat} :
    Writes word (.line number) ↔ target word = .ok number := by
  rw [target_eq_ok_iff, Text.natural?_eq_some_iff]
  exact ⟨fun | .line numeral positive fits => ⟨numeral, positive, fits⟩,
    fun ⟨numeral, positive, fits⟩ => .line numeral positive fits⟩

end Decoding

/-! ## Comparisons -/

/-- A condition is given by the outcomes of comparing. -/
theorem Condition.eq_of_holds {condition other : Condition}
    (same : ∀ left right, condition.holds left right = other.holds left right) :
    condition = other := by
  obtain ⟨less, equal, greater⟩ := condition
  obtain rfl : less = other.less := same 0 1
  obtain rfl : equal = other.equal := same 0 0
  obtain rfl : greater = other.greater := same 1 0
  rfl

/-- **A conditional jump compares as its mnemonic says.** -/
theorem Decoding.holds_conditionOf {opcode : Opcode} {compares : Int → Int → Prop}
    (known : opcode.comparison? = some compares) (left right : Int32) :
    (conditionOf opcode).holds left right = true ↔ compares left.toInt right.toInt := by
  have order : left.toInt < right.toInt ∧ left < right ∨
      left.toInt = right.toInt ∧ ¬ left < right ∧ left = right ∨
      right.toInt < left.toInt ∧ ¬ left < right ∧ left ≠ right := by
    rw [ne_eq, Int32.lt_iff_toInt_lt, ← Int32.toInt_inj]
    omega
  -- Each outcome of the comparison is settled for all mnemonics that compare.
  rcases order with ⟨less, below⟩ | ⟨equal, notBelow, same⟩ | ⟨greater, notBelow, other⟩
  · rw [Condition.holds, if_pos below]
    cases opcode <;> cases known <;>
      simp only [conditionOf, true_iff, Bool.false_eq_true, false_iff] <;> omega
  · rw [Condition.holds, if_neg notBelow, if_pos same]
    cases opcode <;> cases known <;>
      simp only [conditionOf, true_iff, Bool.false_eq_true, false_iff] <;> omega
  · rw [Condition.holds, if_neg notBelow, if_neg other]
    cases opcode <;> cases known <;>
      simp only [conditionOf, true_iff, Bool.false_eq_true, false_iff] <;> omega

namespace Decoding

/-! ## Sentences and the rules of the grammar -/

variable {opcode : Opcode} {words : List String} {instruction : Instruction}

/-- The condition of a plain conditional jump is the one that the decoder gives it. -/
theorem eq_conditionOf {condition : Condition} {compares : Int → Int → Prop}
    (known : opcode.comparison? = some compares)
    (holds : ∀ one other : Int32,
      condition.holds one other = true ↔ compares one.toInt other.toInt) :
    condition = conditionOf opcode := by
  refine Condition.eq_of_holds fun left right => ?_
  rw [Bool.eq_iff_iff, holds, holds_conditionOf known]

theorem plain_branch_conditionOf {left : Register} {right : Operand} {line : Nat}
    (known : opcode.comparison?.isSome = true) (zero : opcode.arity = 2 → right = .literal 0) :
    (Instruction.branch opcode (conditionOf opcode) left right line).Plain := by
  obtain ⟨compares, known⟩ := Option.isSome_iff_exists.mp known
  exact ⟨⟨compares, known, holds_conditionOf known⟩, zero⟩

/-- What the grammar spells is a sentence. -/
theorem sentence_of_spells (spells : Spells opcode words instruction) :
    instruction.opcode? = some opcode ∧ instruction.Plain ∧
      List.Forall₂ Writes words instruction.parameters := by
  have register {word : String} {named : Register}
      (isRegister : Register.ofText? word = some named) : Writes word (.register named) :=
    writes_register_iff.mpr isRegister
  cases spells with
  | put isTarget isSource =>
      exact ⟨rfl, trivial, .cons (register isTarget)
        (.cons (spellsOperand_iff.mp isSource) .nil)⟩
  | copy isFirst isSecond | swap isFirst isSecond =>
      exact ⟨rfl, trivial, .cons (register isFirst) (.cons (register isSecond) .nil)⟩
  | arithmetic op isTarget isLeft isRight =>
      exact ⟨rfl, trivial, .cons (register isTarget) (.cons (spellsOperand_iff.mp isLeft)
        (.cons (spellsOperand_iff.mp isRight) .nil))⟩
  | jump isLine | call isLine =>
      exact ⟨rfl, trivial, .cons (writes_line_iff.mpr isLine) .nil⟩
  | zeroBranch jumps isLeft isLine =>
      have written := List.Forall₂.cons (register isLeft)
        (.cons (writes_line_iff.mpr isLine) .nil)
      simp only [List.mem_cons, List.not_mem_nil, or_false] at jumps
      rcases jumps with rfl | rfl <;>
        exact ⟨rfl, plain_branch_conditionOf rfl fun _ => rfl, written⟩
  | branch jumps isLeft isRight isLine =>
      have written := List.Forall₂.cons (register isLeft)
        (.cons (spellsOperand_iff.mp isRight) (.cons (writes_line_iff.mpr isLine) .nil))
      simp only [List.mem_cons, List.not_mem_nil, or_false] at jumps
      rcases jumps with rfl | rfl | rfl | rfl | rfl | rfl <;>
        exact ⟨rfl, plain_branch_conditionOf rfl nofun, written⟩
  | iterThrough isFirst isLast isTarget oneBank ascending =>
      exact ⟨rfl, rfl, .cons (.span (ofText?_eq_some_iff.mp isFirst)
        (ofText?_eq_some_iff.mp isLast) oneBank ascending)
        (.cons .arrow (.cons (register isTarget) (.cons .opening .nil)))⟩
  | iterFor isRegister noPlus isCount notNegative =>
      exact ⟨rfl, rfl, .cons (.count (ofText?_eq_some_iff.mp isRegister)
        (Text.word32?_eq_some_iff.mp isCount) noPlus
        (Int32.le_iff_toInt_le.mp (Int32.not_lt.mp notNegative))) (.cons .opening .nil)⟩
  | free isRegister | inc isRegister | dec isRegister | writeDecimal isRegister
  | writeCharacter isRegister | writeHex isRegister =>
      exact ⟨rfl, trivial, .cons (register isRegister) .nil⟩
  | ret | endIter | clearScreen | newLine | tab => exact ⟨rfl, by constructor, .nil⟩

/-- A conditional jump has one register and compares it with zero, or it has a value as well. -/
theorem jumps_of_comparison? {compares : Int → Int → Prop}
    (known : opcode.comparison? = some compares) :
    opcode ∈ [Opcode.jumpZero, .jumpNonzero] ∧ opcode.arity = 2 ∨
      opcode ∈ [Opcode.jumpEqual, .jumpNotEqual, .jumpGreater, .jumpLess, .jumpGreaterEqual,
        .jumpLessEqual] ∧ opcode.arity ≠ 2 := by
  cases opcode <;> cases known <;> decide

/-- A sentence is what the grammar spells. -/
theorem spells_of_sentence (operation : instruction.opcode? = some opcode)
    (plain : instruction.Plain) (written : List.Forall₂ Writes words instruction.parameters) :
    Spells opcode words instruction := by
  cases instruction with
  | nop => cases operation
  | put target source =>
      obtain _ | ⟨isTarget, _ | ⟨isSource, _ | _⟩⟩ := written
      cases operation
      exact .put (writes_register_iff.mp isTarget) (spellsOperand_iff.mpr isSource)
  | copy target source =>
      obtain _ | ⟨isTarget, _ | ⟨isSource, _ | _⟩⟩ := written
      cases operation
      exact .copy (writes_register_iff.mp isTarget) (writes_register_iff.mp isSource)
  | swap first second =>
      obtain _ | ⟨isFirst, _ | ⟨isSecond, _ | _⟩⟩ := written
      cases operation
      exact .swap (writes_register_iff.mp isFirst) (writes_register_iff.mp isSecond)
  | free register =>
      obtain _ | ⟨isRegister, _ | _⟩ := written
      cases operation
      exact .free (writes_register_iff.mp isRegister)
  | arithmetic op target left right =>
      obtain _ | ⟨isTarget, _ | ⟨isLeft, _ | ⟨isRight, _ | _⟩⟩⟩ := written
      cases operation
      exact .arithmetic op (writes_register_iff.mp isTarget) (spellsOperand_iff.mpr isLeft)
        (spellsOperand_iff.mpr isRight)
  | inc register =>
      obtain _ | ⟨isRegister, _ | _⟩ := written
      cases operation
      exact .inc (writes_register_iff.mp isRegister)
  | dec register =>
      obtain _ | ⟨isRegister, _ | _⟩ := written
      cases operation
      exact .dec (writes_register_iff.mp isRegister)
  | jump line =>
      obtain _ | ⟨isLine, _ | _⟩ := written
      cases operation
      exact .jump (writes_line_iff.mp isLine)
  | branch named condition left right line =>
      obtain rfl := Option.some.inj operation
      obtain ⟨⟨compares, known, holds⟩, zero⟩ := plain
      obtain rfl := eq_conditionOf known holds
      rw [Instruction.parameters] at written
      rcases jumps_of_comparison? known with ⟨jumps, two⟩ | ⟨jumps, notTwo⟩
      · rw [if_pos two] at written
        obtain _ | ⟨isLeft, _ | ⟨isLine, _ | _⟩⟩ := written
        obtain rfl := zero two
        exact .zeroBranch jumps (writes_register_iff.mp isLeft) (writes_line_iff.mp isLine)
      · rw [if_neg notTwo] at written
        obtain _ | ⟨isLeft, _ | ⟨isRight, _ | ⟨isLine, _ | _⟩⟩⟩ := written
        exact .branch jumps (writes_register_iff.mp isLeft) (spellsOperand_iff.mpr isRight)
          (writes_line_iff.mp isLine)
  | call line =>
      obtain _ | ⟨isLine, _ | _⟩ := written
      cases operation
      exact .call (writes_line_iff.mp isLine)
  | ret =>
      obtain _ | _ := written
      cases operation
      exact .ret
  | iterThrough first last target closing =>
      obtain _ | ⟨isSpan, _ | ⟨isArrow, _ | ⟨isTarget, _ | ⟨isOpening, _ | _⟩⟩⟩⟩ := written
      cases isArrow
      cases isOpening
      cases operation
      obtain rfl : closing = 0 := plain
      cases isSpan with
      | span isFirst isLast oneBank ascending =>
          exact .iterThrough (ofText?_eq_some_iff.mpr isFirst) (ofText?_eq_some_iff.mpr isLast)
            (writes_register_iff.mp isTarget) oneBank ascending
  | iterFor register count closing =>
      obtain _ | ⟨isCount, _ | ⟨isOpening, _ | _⟩⟩ := written
      cases isOpening
      cases operation
      obtain rfl : closing = 0 := plain
      cases isCount with
      | count isCounter numeral noPlus notNegative =>
          exact .iterFor (ofText?_eq_some_iff.mpr isCounter) noPlus
            (Text.word32?_eq_some_iff.mpr numeral)
            (Int32.not_lt.mpr (Int32.le_iff_toInt_le.mpr notNegative))
  | endIter header =>
      obtain _ | _ := written
      cases operation
      obtain rfl : header = 0 := plain
      exact .endIter
  | write item =>
      cases operation
      cases item with
      | decimal register =>
          obtain _ | ⟨isRegister, _ | _⟩ := written
          exact .writeDecimal (writes_register_iff.mp isRegister)
      | character register =>
          obtain _ | ⟨isRegister, _ | _⟩ := written
          exact .writeCharacter (writes_register_iff.mp isRegister)
      | hex register =>
          obtain _ | ⟨isRegister, _ | _⟩ := written
          exact .writeHex (writes_register_iff.mp isRegister)
      | newLine =>
          obtain _ | _ := written
          exact .newLine
      | tab =>
          obtain _ | _ := written
          exact .tab
  | clearScreen =>
      obtain _ | _ := written
      cases operation
      exact .clearScreen

end Decoding

end LineAsm
