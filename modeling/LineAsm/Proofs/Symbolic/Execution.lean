import LineAsm.Proofs.Instruction.Sentence
import LineAsm.Proofs.Machine.Arithmetic
import LineAsm.Proofs.Symbolic.Machine

/-!
# Executing a line and executing its instruction

An operation without a label operand does in the symbolic machine what the instruction
spelled by its words does, when the other bracket of a block is where the instruction
says (`effect_of_spells`).  An operation with a label operand does what the instruction
does that is spelled with the line of the label in the place of its name
(`effect_of_spells_label`).
-/

set_option autoImplicit false

namespace LineAsm

/-! ## Reading operands again -/

/-- A number is no register. -/
theorem Register.ofText?_eq_none_of_word32? {word : String} {value : Int32}
    (read : Text.word32? word.toList = some value) : ofText? word = none := by
  cases named : ofText? word with
  | none => rfl
  | some register =>
      obtain ⟨digit, text, -⟩ := ofText?_eq_some named
      have first := Text.isDigit_or_sign_of_word32? read register.bank.letter (by simp [text])
      refine absurd first ?_
      cases register.bank <;> decide

/-- The index of a valid register is read back from a word. -/
theorem Register.toNatClampNeg_index {register : Register} (valid : register.Valid) :
    (Int32.ofNat register.index).toNatClampNeg = register.index := by
  have small : register.index < 2 ^ 31 := Nat.lt_trans valid (by decide)
  exact Int32.toNatClampNeg_ofNat_of_lt small

namespace Instruction

theorem eq_head_of_unpaired {instruction : Instruction} {head : LoopHead}
    (paired : instruction.unpaired = head.instruction 0) :
    ∃ closing, instruction = head.instruction closing := by
  cases head with
  | through first last target =>
      cases instruction with
      | iterThrough _ _ _ closing =>
          obtain ⟨rfl, rfl, rfl⟩ : _ ∧ _ ∧ _ := by simpa [unpaired, closeAt, LoopHead.instruction]
            using paired
          exact ⟨closing, rfl⟩
      | _ => cases paired
  | count register passes =>
      cases instruction with
      | iterFor _ _ closing =>
          obtain ⟨rfl, rfl⟩ : _ ∧ _ := by simpa [unpaired, closeAt, LoopHead.instruction]
            using paired
          exact ⟨closing, rfl⟩
      | _ => cases paired

theorem eq_endIter_of_unpaired {instruction : Instruction}
    (paired : instruction.unpaired = .endIter 0) : ∃ header, instruction = .endIter header := by
  cases instruction with
  | endIter header => exact ⟨header, rfl⟩
  | _ => cases paired

end Instruction

namespace Symbolic

open Decoding (Spells SpellsOperand)

theorem value?_of_spells (machine : Machine) {word : String} {operand : Operand}
    (spells : SpellsOperand word operand) :
    value? machine.registers word = some (machine.valueOf operand) := by
  rw [value?]
  cases spells with
  | register named => rw [named]; rfl
  | literal read => rw [Register.ofText?_eq_none_of_word32? read]; exact read

/-- The parts of a range are read back when they hold neither a bar nor a colon. -/
theorem range?_append {left right : String}
    (leftPlain : ∀ c ∈ left.toList, (c == '|' || c == ':') = false)
    (rightPlain : ∀ c ∈ right.toList, (c == '|' || c == ':') = false) :
    range? ("|" ++ left ++ ":" ++ right ++ "|") = some (left, right) := by
  have cut : Text.fields (fun c => c == '|' || c == ':')
      ("|" ++ left ++ ":" ++ right ++ "|").toList = [[], left.toList, right.toList, []] := by
    have whole : ("|" ++ left ++ ":" ++ right ++ "|").toList =
        [] ++ '|' :: (left.toList ++ ':' :: (right.toList ++ '|' :: [])) := by simp
    rw [whole, Text.fields_append_separator [] _ (by decide),
      Text.fields_of_forall_not_append _ leftPlain (by decide),
      Text.fields_of_forall_not_append _ rightPlain (by decide)]
    rfl
  rw [range?]
  rw [cut]
  simp

theorem plain_of_ofText? {word : String} {register : Register}
    (named : Register.ofText? word = some register) :
    ∀ c ∈ word.toList, (c == '|' || c == ':') = false := by
  intro c mem
  have letter := Register.isAlphanum_of_ofText? named c mem
  simp only [Bool.or_eq_false_iff, beq_eq_false_iff_ne]
  refine ⟨?_, ?_⟩ <;> rintro rfl <;> revert letter <;> decide

theorem plain_of_word32? {text : List Char} {value : Int32}
    (read : Text.word32? text = some value) :
    ∀ c ∈ text, (c == '|' || c == ':') = false := by
  intro c mem
  have digit := Text.isDigit_or_sign_of_word32? read c mem
  simp only [Bool.or_eq_false_iff, beq_eq_false_iff_ne]
  refine ⟨?_, ?_⟩ <;> rintro rfl <;> revert digit <;> decide

/-! ## Operations without a label -/

section

variable {σ : Type} {lines : List String} {program : Program} {sink : Console σ}
  {machine : Machine} {console : σ} {opcode : Opcode} {operands : List String}
  {instruction raw : Instruction}

variable (program sink machine console) in
theorem calculate_eq (op : ArithmeticOp) {dst one other : String} {target : Register}
    {left right : Operand} (isTarget : Register.ofText? dst = some target)
    (isLeft : SpellsOperand one left) (isRight : SpellsOperand other right) :
    (calculate machine op.integer? dst one other).map (·.outcome sink machine console) =
      some (machine.execute program sink console (.arithmetic op target left right)) := by
  unfold calculate Machine.execute Machine.apply
  simp only [isTarget, value?_of_spells machine isLeft, value?_of_spells machine isRight,
    ArithmeticOp.apply?_eq, Option.bind_eq_bind, Option.bind_some]
  cases op.integer? (machine.valueOf left).toInt (machine.valueOf right).toInt <;> rfl

/-- **An operation without a label operand** does what the instruction spelled by its
words does. -/
theorem effect_of_spells (spells : Spells opcode operands raw)
    (noLabel : opcode.takesLabel = false) (paired : instruction.unpaired = raw)
    (closes : ∀ head closing, instruction = LoopHead.instruction head closing →
      Bracket.closing? (lines.map bracketOf) machine.line = some closing)
    (opens : ∀ header, instruction = .endIter header →
      Bracket.header? (lines.map bracketOf) machine.line = some header) :
    (effect lines machine opcode operands).map (·.outcome sink machine console) =
      some (machine.execute program sink console instruction) := by
  cases spells with
  | put isTarget isSource =>
      obtain rfl := Instruction.eq_of_unpaired paired rfl
      simp only [effect, isTarget, value?_of_spells machine isSource]
      rfl
  | copy isTarget isSource =>
      obtain rfl := Instruction.eq_of_unpaired paired rfl
      simp only [effect, isTarget, isSource]
      rfl
  | swap isFirst isSecond =>
      obtain rfl := Instruction.eq_of_unpaired paired rfl
      simp only [effect, isFirst, isSecond]
      rfl
  | free isRegister =>
      obtain rfl := Instruction.eq_of_unpaired paired rfl
      simp only [effect, isRegister]
      rfl
  | arithmetic op isTarget isLeft isRight =>
      obtain rfl := Instruction.eq_of_unpaired paired rfl
      have same := calculate_eq program sink machine console op isTarget isLeft isRight
      cases op <;> exact same
  | inc isRegister =>
      obtain rfl := Instruction.eq_of_unpaired paired rfl
      simp only [effect, isRegister, Int32.ofInt_add, Int32.ofInt_toInt]
      rfl
  | dec isRegister =>
      obtain rfl := Instruction.eq_of_unpaired paired rfl
      simp only [effect, isRegister, Int32.ofInt_sub, Int32.ofInt_toInt]
      rfl
  | jump => cases noLabel
  | zeroBranch jumps =>
      simp only [List.mem_cons, List.not_mem_nil, or_false] at jumps
      rcases jumps with rfl | rfl <;> cases noLabel
  | branch jumps =>
      simp only [List.mem_cons, List.not_mem_nil, or_false] at jumps
      rcases jumps with rfl | rfl | rfl | rfl | rfl | rfl <;> cases noLabel
  | call => cases noLabel
  | ret =>
      obtain rfl := Instruction.eq_of_unpaired paired rfl
      simp only [effect, Machine.execute, Machine.apply, Machine.returnFromCall]
      cases machine.callStack.pop? <;> rfl
  | @iterThrough left right dst first last target isFirst isLast isTarget oneBank ascending =>
      obtain ⟨closing, rfl⟩ :=
        Instruction.eq_head_of_unpaired (show _ = LoopHead.instruction (.through _ _ _) 0 from paired)
      have bounds := range?_append (plain_of_ofText? isFirst) (plain_of_ofText? isLast)
      have index := Register.toNatClampNeg_index (Register.valid_of_ofText? isFirst)
      simp only [effect, bounds, isFirst, isLast, isTarget, Option.bind_eq_bind, Option.bind_some,
        Machine.execute, Machine.apply, LoopHead.instruction, Machine.enterLoop, Machine.beginPass,
        index]
      rfl
  | @iterFor left right register count isRegister noPlus isCount notNegative =>
      obtain ⟨closing, rfl⟩ :=
        Instruction.eq_head_of_unpaired (show _ = LoopHead.instruction (.count _ _) 0 from paired)
      have bounds := range?_append (plain_of_ofText? isRegister) (plain_of_word32? isCount)
      simp only [effect, bounds, isRegister, isCount, closes _ closing rfl, Option.bind_eq_bind,
        Option.bind_some, Machine.execute, Machine.apply, LoopHead.instruction]
      by_cases none : count = 0
      · simp only [none, if_true]
        rfl
      · simp only [none, if_false]
        rfl
  | endIter =>
      obtain ⟨header, rfl⟩ := Instruction.eq_endIter_of_unpaired paired
      simp only [effect, opens header rfl, Option.bind_eq_bind, Option.bind_some, Machine.execute,
        Machine.apply, Machine.closeLoop]
      cases machine.loops.dropWhile (fun frame => frame.header != header) with
      | nil => rfl
      | cons frame outer =>
          by_cases again : frame.index < frame.last
          · simp only [again, if_true]
            cases frame with
            | mk header induction index last => cases induction <;> rfl
          · simp only [again, if_false]
            rfl
  | writeDecimal isRegister =>
      obtain rfl := Instruction.eq_of_unpaired paired rfl
      simp only [effect, isRegister]
      rfl
  | writeCharacter isRegister =>
      obtain rfl := Instruction.eq_of_unpaired paired rfl
      simp only [effect, isRegister]
      rfl
  | writeHex isRegister =>
      obtain rfl := Instruction.eq_of_unpaired paired rfl
      simp only [effect, isRegister]
      rfl
  | clearScreen =>
      obtain rfl := Instruction.eq_of_unpaired paired rfl
      rfl
  | newLine =>
      obtain rfl := Instruction.eq_of_unpaired paired rfl
      rfl
  | tab =>
      obtain rfl := Instruction.eq_of_unpaired paired rfl
      rfl

/-! ## Operations with a label -/

/-- The number of a line is read back. -/
theorem eq_of_target {number line : Nat} (isLine : Decoding.target (toString number) = .ok line) :
    line = number := by
  have read := (Decoding.target_eq_ok_iff.mp isLine).1
  rw [show (toString number).toList = Nat.toDigits 10 number by simp, Text.natural?_toDigits] at read
  exact (Option.some.inj read).symm

variable (program sink machine console) in
theorem jumpWhen_eq (opcode : Opcode) {one name : String} {left : Register} (right : Operand)
    {target : Nat} (isLeft : Register.ofText? one = some left)
    (found : lineOf? lines name = some target) {compares : Int → Int → Prop}
    (known : opcode.comparison? = some compares) {relation : Int → Int → Bool}
    (decides : ∀ first second, relation first second = true ↔ compares first second) :
    (jumpWhen lines machine relation one (some (machine.valueOf right)) name).map
        (·.outcome sink machine console) =
      some (machine.execute program sink console
        (.branch opcode (Decoding.conditionOf opcode) left right target)) := by
  have holds (first second : Int32) :
      (Decoding.conditionOf opcode).holds first second = relation first.toInt second.toInt := by
    rw [Bool.eq_iff_iff, Decoding.holds_conditionOf known, decides]
  unfold jumpWhen Machine.execute Machine.apply
  simp only [isLeft, found, holds, Option.bind_eq_bind, Option.bind_some]
  cases relation (machine.registers.get left).toInt (machine.valueOf right).toInt <;> rfl

/-- **An operation with a label operand** does what the instruction does that is spelled
with the line of the label. -/
theorem effect_of_spells_label {name : String} {target : Nat}
    (spells : Spells opcode operands raw) (label : opcode.takesLabel = true)
    (paired : instruction.unpaired = raw)
    (resolved : operands[opcode.arity - 1]? = some (toString target))
    (found : lineOf? lines name = some target)
    (named : program.labels.nameAt? target = some name) :
    (effect lines machine opcode (operands.set (opcode.arity - 1) name)).map
        (·.outcome sink machine console) =
      some (machine.execute program sink console instruction) := by
  cases spells with
  | jump isLine =>
      obtain rfl := Instruction.eq_of_unpaired paired rfl
      obtain rfl := Option.some.inj resolved
      obtain rfl := eq_of_target isLine
      simp only [Opcode.arity, Nat.sub_self, List.set_cons_zero, effect, found]
      rfl
  | call isLine =>
      obtain rfl := Instruction.eq_of_unpaired paired rfl
      obtain rfl := Option.some.inj resolved
      obtain rfl := eq_of_target isLine
      simp only [Opcode.arity, Nat.sub_self, List.set_cons_zero, effect, found, named,
        Option.bind_eq_bind, Option.bind_some, Machine.execute, Machine.apply, Machine.call,
        Machine.atCallLimit]
      cases machine.config.maxCallDepth with
      | none => rfl
      | some limit =>
          by_cases full : limit ≤ machine.callStack.depth
          · have beyond : limit < machine.callStack.depth + 1 := by omega
            simp only [Option.any_some, full, beyond, decide_true, if_true]
            rfl
          · have within : ¬ limit < machine.callStack.depth + 1 := by omega
            simp only [Option.any_some, full, within, decide_false, Bool.false_eq_true, if_false]
            rfl
  | zeroBranch jumps isLeft isLine =>
      obtain rfl := Instruction.eq_of_unpaired paired rfl
      simp only [List.mem_cons, List.not_mem_nil, or_false] at jumps
      have arity : opcode.arity = 2 := by rcases jumps with rfl | rfl <;> rfl
      rw [arity] at resolved ⊢
      obtain rfl := Option.some.inj resolved
      obtain rfl := eq_of_target isLine
      simp only [Nat.reduceSub, List.set_cons_succ, List.set_cons_zero]
      rcases jumps with rfl | rfl <;>
        exact jumpWhen_eq program sink machine console _ (.literal 0) isLeft found rfl
          fun _ _ => decide_eq_true_iff
  | branch jumps isLeft isRight isLine =>
      obtain rfl := Instruction.eq_of_unpaired paired rfl
      simp only [List.mem_cons, List.not_mem_nil, or_false] at jumps
      have arity : opcode.arity = 3 := by
        rcases jumps with rfl | rfl | rfl | rfl | rfl | rfl <;> rfl
      rw [arity] at resolved ⊢
      obtain rfl := Option.some.inj resolved
      obtain rfl := eq_of_target isLine
      have value := value?_of_spells machine isRight
      simp only [Nat.reduceSub, List.set_cons_succ, List.set_cons_zero]
      rcases jumps with rfl | rfl | rfl | rfl | rfl | rfl <;> simp only [effect, value] <;>
        exact jumpWhen_eq program sink machine console _ _ isLeft found rfl
          fun _ _ => decide_eq_true_iff
  | arithmetic op => cases op <;> cases label
  | _ => cases label

end

end Symbolic

end LineAsm
