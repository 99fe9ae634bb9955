import LineAsm.Proofs.Structured.Steps

/-!
# What the decoder has checked of a program

Every instruction of a program is one that the grammar spells, the lines of its brackets
aside (`Program.spells_of_mem_instructions`).  So every register that a line names is one
of the sixty (`Program.valid_of_mem_registers`), every line that a jump or a call names is
counted from one (`Program.one_le_of_target?`), and the headers of blocks are valid
(`Program.valid_of_mem_instructions`).
-/

set_option autoImplicit false

namespace LineAsm

/-! ## The registers that an instruction names -/

/-- The register of an operand, if it is one. -/
def Operand.registers : Operand → List Register
  | .register named => [named]
  | .literal _ => []

/-- The register that an output instruction writes. -/
def Printable.registers : Printable → List Register
  | .decimal register | .character register | .hex register => [register]
  | .newLine | .tab => []

/-- The registers that an instruction names. -/
def Instruction.registers : Instruction → List Register
  | .put target source => target :: source.registers
  | .copy target source => [target, source]
  | .swap first second => [first, second]
  | .free register | .inc register | .dec register => [register]
  | .arithmetic _ target left right => target :: (left.registers ++ right.registers)
  | .branch _ _ left right _ => left :: right.registers
  | .iterThrough first last target _ => [first, last, target]
  | .iterFor register _ _ => [register]
  | .write item => item.registers
  | .nop | .jump _ | .call _ | .ret | .endIter _ | .clearScreen => []

@[simp]
theorem Instruction.registers_unpaired (instruction : Instruction) :
    instruction.unpaired.registers = instruction.registers := by
  cases instruction <;> rfl

@[simp]
theorem Instruction.target?_unpaired (instruction : Instruction) :
    instruction.unpaired.target? = instruction.target? := by
  cases instruction <;> rfl

/-! ## What the grammar guarantees -/

namespace Decoding

theorem SpellsOperand.valid {word : String} {operand : Operand}
    (spells : SpellsOperand word operand) : ∀ register ∈ operand.registers, register.Valid := by
  intro register mem
  cases spells with
  | register named =>
      obtain rfl := List.mem_singleton.mp mem
      exact Register.valid_of_ofText? named
  | literal read => cases mem

variable {opcode : Opcode} {words : List String} {instruction : Instruction}

/-- **The registers that a line spells are among the sixty.** -/
theorem Spells.valid (spells : Spells opcode words instruction) :
    ∀ register ∈ instruction.registers, register.Valid := by
  have named {word : String} {register : Register} (read : Register.ofText? word = some register) :
      register.Valid := Register.valid_of_ofText? read
  intro register mem
  cases spells with
  | put isTarget isSource =>
      rcases List.mem_cons.mp mem with rfl | inSource
      · exact named isTarget
      · exact isSource.valid register inSource
  | copy isTarget isSource =>
      rcases List.mem_pair.mp mem with rfl | rfl
      · exact named isTarget
      · exact named isSource
  | swap isFirst isSecond =>
      rcases List.mem_pair.mp mem with rfl | rfl
      · exact named isFirst
      · exact named isSecond
  | arithmetic op isTarget isLeft isRight =>
      rcases List.mem_cons.mp mem with rfl | inOperands
      · exact named isTarget
      · rcases List.mem_append.mp inOperands with inLeft | inRight
        · exact isLeft.valid register inLeft
        · exact isRight.valid register inRight
  | zeroBranch _ isLeft =>
      obtain rfl := List.mem_singleton.mp mem
      exact named isLeft
  | branch _ isLeft isRight =>
      rcases List.mem_cons.mp mem with rfl | inRight
      · exact named isLeft
      · exact isRight.valid register inRight
  | iterThrough isFirst isLast isTarget =>
      rcases List.mem_cons.mp mem with rfl | later
      · exact named isFirst
      · rcases List.mem_pair.mp later with rfl | rfl
        · exact named isLast
        · exact named isTarget
  | free isRegister | inc isRegister | dec isRegister | iterFor isRegister
  | writeDecimal isRegister | writeCharacter isRegister | writeHex isRegister =>
      obtain rfl := List.mem_singleton.mp mem
      exact named isRegister
  | _ => cases mem

/-- The lines that a jump or a call spells are counted from one. -/
theorem Spells.one_le_target (spells : Spells opcode words instruction) {line : Nat}
    (leads : instruction.target? = some line) : 1 ≤ line := by
  cases spells with
  | jump isLine | zeroBranch _ _ isLine | branch _ _ _ isLine | call isLine =>
      obtain rfl := Option.some.inj leads
      exact (target_eq_ok_iff.mp isLine).2.1
  | _ => cases leads

end Decoding

/-! ## The instructions of a program -/

namespace Program

variable {form : ProgramForm} {text : String} {program : Program} {instruction : Instruction}

theorem mem_instructions_of_instruction? {line : Nat}
    (here : program.instruction? line = some instruction) : instruction ∈ program.instructions := by
  rw [instruction?_eq] at here
  split at here
  · cases here
  · exact List.mem_of_getElem? here

/-- **An instruction of a program is one that the grammar spells**, the line of its bracket
aside. -/
theorem spells_of_mem_instructions (compiled : compile form text = .ok program)
    (mem : instruction ∈ program.instructions) :
    instruction.unpaired = .nop ∨
      ∃ opcode words, Decoding.Spells opcode words instruction.unpaired := by
  obtain ⟨resolved, -, decoded⟩ := compile_eq_ok_iff.mp compiled
  obtain ⟨line, inside, rfl⟩ := List.mem_map.mp mem
  have spelled := ofTokens_of_mem_lines decoded (Array.mem_toList_iff.mp inside)
  rcases Instruction.ofTokens_cases spelled with ⟨-, none⟩ | ⟨_, operands, opcode, -, -, spells⟩
  · exact .inl none
  · exact .inr ⟨opcode, operands, spells⟩

/-- **Every register that a program names is one of the sixty.** -/
theorem valid_of_mem_registers (compiled : compile form text = .ok program)
    (mem : instruction ∈ program.instructions) :
    ∀ register ∈ instruction.registers, register.Valid := by
  intro register named
  rw [← Instruction.registers_unpaired] at named
  rcases spells_of_mem_instructions compiled mem with none | ⟨_, _, spells⟩
  · rw [none] at named
    cases named
  · exact spells.valid register named

/-- **Every line that a jump or a call names is counted from one.** -/
theorem one_le_of_target? (compiled : compile form text = .ok program)
    (mem : instruction ∈ program.instructions) {line : Nat}
    (leads : instruction.target? = some line) : 1 ≤ line := by
  rw [← Instruction.target?_unpaired] at leads
  rcases spells_of_mem_instructions compiled mem with none | ⟨_, _, spells⟩
  · rw [none] at leads
    cases leads
  · exact spells.one_le_target leads

/-- The decoder checks the headers of blocks. -/
theorem valid_of_mem_instructions (compiled : compile form text = .ok program)
    {head : LoopHead} {closing : Nat} (mem : head.instruction closing ∈ program.instructions) :
    head.Valid := by
  have unpaired : (head.instruction closing).unpaired = head.instruction 0 := by cases head <;> rfl
  rcases spells_of_mem_instructions compiled mem with none | ⟨_, _, spells⟩
  · rw [unpaired] at none
    cases head <;> cases none
  · rw [unpaired] at spells
    cases head with
    | through first last target =>
        cases spells with
        | iterThrough _ isLast _ _ ascending =>
            exact ⟨ascending, Register.valid_of_ofText? isLast⟩
    | count register passes =>
        cases spells with
        | iterFor _ _ _ notNegative => exact Int32.not_lt.mp notNegative

end Program

end LineAsm
