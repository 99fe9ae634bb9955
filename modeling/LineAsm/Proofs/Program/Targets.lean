import LineAsm.Proofs.Program.Decoded
import LineAsm.Proofs.Program.Lines
import LineAsm.Proofs.Relocation.Lines
import LineAsm.Proofs.Symbolic.Execution

/-!
# The labels that jumps and calls name

In the table of an assembled program the name at a line is the label that the text defines
there (`Program.nameAt?_eq_labelAt?`).  In a source the last word of a jump or a call is a
label, and the line that the instruction leads to is the one that this label is defined at
(`Program.exists_label_of_target?`); a call is written as its mnemonic and the label
(`Program.tokens_of_call`).
-/

set_option autoImplicit false

namespace LineAsm

/-- Words without a label operand spell an instruction that leads to no line. -/
theorem Decoding.Spells.target?_eq_none {opcode : Opcode} {words : List String}
    {instruction : Instruction} (spells : Spells opcode words instruction)
    (takesNone : opcode.takesLabel = false) : instruction.target? = none := by
  cases spells with
  | jump | call => cases takesNone
  | zeroBranch jumps =>
      simp only [List.mem_cons, List.not_mem_nil, or_false] at jumps
      rcases jumps with rfl | rfl <;> cases takesNone
  | branch jumps =>
      simp only [List.mem_cons, List.not_mem_nil, or_false] at jumps
      rcases jumps with rfl | rfl | rfl | rfl | rfl | rfl <;> cases takesNone
  | _ => rfl

namespace Program

variable {form : ProgramForm} {text : String} {program : Program} {number target : Nat}

/-- The name that the table of a program gives for a line is the label defined there. -/
theorem nameAt?_eq_labelAt? (compiled : compile form text = .ok program) (number : Nat) :
    program.labels.nameAt? number = labelAt? (Source.normalLines text) number := by
  obtain ⟨resolved, linked, -⟩ := compile_eq_ok_iff.mp compiled
  exact LabelTable.nameAt?_eq_labelAt? (link_eq_ok_iff.mp linked).1 number

/-- The addressed line of the text that an instruction stands for. -/
theorem exists_raw_of_instruction? (compiled : compile form text = .ok program)
    {instruction : Instruction} (here : program.instruction? number = some instruction) :
    ∃ raw resolved line, Symbolic.lineAt? (Source.normalLines text) number = some raw ∧
      program.labels.resolveLine form line raw = .ok resolved ∧
      Instruction.ofTokens (Statement.ofLine resolved).tokens = .ok instruction.unpaired := by
  obtain ⟨found, there, rfl⟩ := Option.map_eq_some_iff.mp here
  rw [line?] at there
  split at there
  · cases there
  · rename_i positive
    have inside : number - 1 < (Source.normalLines text).length := by
      rw [← size_of_compile compiled]
      exact (Array.getElem?_eq_some_iff.mp there).1
    have isRaw := List.getElem?_eq_getElem inside
    obtain ⟨line, at_, atPlace, done, read⟩ := exists_line_of_compile compiled isRaw
    obtain rfl := Option.some.inj (there.symm.trans atPlace)
    refine ⟨_, _, at_, ?_, done, read⟩
    rw [Symbolic.lineAt?, if_neg positive]
    exact isRaw

section Source

variable (compiled : compile .source text = .ok program)
include compiled

/-- **A jump or a call of a source leads to the line of the label that it names.**  The label
is the last of its words; the others are those that spell the instruction. -/
theorem exists_label_of_target? {instruction : Instruction}
    (here : program.instruction? number = some instruction)
    (leads : instruction.target? = some target) :
    ∃ raw opcode operands name,
      Symbolic.lineAt? (Source.normalLines text) number = some raw ∧
      opcode.takesLabel = true ∧ Decoding.Spells opcode operands instruction.unpaired ∧
      (Statement.ofLine raw).tokens = opcode.mnemonic :: operands.set (opcode.arity - 1) name ∧
      labelAt? (Source.normalLines text) target = some name := by
  obtain ⟨raw, resolved, line, isRaw, done, read⟩ := exists_raw_of_instruction? compiled here
  rw [← Instruction.target?_unpaired] at leads
  rcases Instruction.ofTokens_cases read with
    ⟨-, none⟩ | ⟨word, operands, opcode, tokens, named, spells⟩
  · rw [none] at leads
    cases leads
  · have mnemonic := Opcode.mnemonic_of_ofMnemonic? named
    rcases LabelTable.tokens_of_resolveLine done tokens named with
      ⟨takesNone, -⟩ | ⟨takes, name, digits, last, resolves, words⟩
    · rw [spells.target?_eq_none takesNone] at leads
      cases leads
    · refine ⟨raw, opcode, operands, name, isRaw, takes, spells, mnemonic ▸ words, ?_⟩
      obtain ⟨spelled, found, isLast, isLine, leads'⟩ := spells.exists_target takes
      obtain rfl := Option.some.inj (leads.symm.trans leads')
      obtain rfl := Option.some.inj (last.symm.trans isLast)
      rcases LabelTable.resolveOperand_eq_ok resolves with ⟨already, -⟩ | ⟨-, _, defined, rfl⟩
      · cases already
      · obtain rfl := Symbolic.eq_of_target isLine
        obtain ⟨_, linked, -⟩ := compile_eq_ok_iff.mp compiled
        exact (LabelTable.line?_eq_some_iff (link_eq_ok_iff.mp linked).1).mp defined

/-- **A call of a source** is written as its mnemonic and the label of the line that it
leads to. -/
theorem tokens_of_call (here : program.instruction? number = some (.call target)) :
    ∃ raw name, Symbolic.lineAt? (Source.normalLines text) number = some raw ∧
      (Statement.ofLine raw).tokens = [Opcode.call.mnemonic, name] ∧
      labelAt? (Source.normalLines text) target = some name := by
  obtain ⟨raw, opcode, operands, name, isRaw, -, spells, tokens, label⟩ :=
    exists_label_of_target? compiled here rfl
  cases spells with
  | call => exact ⟨raw, name, isRaw, tokens, label⟩

end Source

end Program

end LineAsm
