import LineAsm.Proofs.Program.Lines
import LineAsm.Proofs.Symbolic.Execution

/-!
# Assembling keeps the meaning of a source

One step of an assembled program is one step of the symbolic machine on the addressed
lines of the source, from every state of the machine and on every console
(`step_eq_machine_step`).

The lines of the source have the brackets of the program (`map_bracketOf`), so a scan of
the source finds the lines that pairing has written into the brackets; and the line that
the symbolic machine finds for a label is the one that stands in the resolved operand
(`lineOf?_eq_some`).
-/

set_option autoImplicit false

namespace LineAsm.Symbolic

variable {form : ProgramForm} {text : String} {program : Program}

/-! ## Labels -/

/-- The line of a label in the table is the first line that defines it. -/
theorem lineOf?_eq_some {lines : List String} {table : LabelTable}
    (built : LabelTable.ofLines lines = .ok table) {name : String} {target : Nat}
    (found : table.line? name = some target) : lineOf? lines name = some target := by
  have labelled := (LabelTable.line?_eq_some_iff built).mp found
  rw [labelAt?] at labelled
  split at labelled
  · cases labelled
  · rename_i positive
    obtain ⟨raw, atTarget, label⟩ := Option.bind_eq_some_iff.mp labelled
    cases search : lines.findIdx? (fun text => labelOf? text == some name) with
    | none =>
        have absent := List.findIdx?_eq_none_iff.mp search raw (List.mem_of_getElem? atTarget)
        simp [label] at absent
    | some place =>
        obtain ⟨inside, defines, -⟩ := List.findIdx?_eq_some_iff_getElem.mp search
        -- The first line that defines the label is the only one.
        have here : labelAt? lines (place + 1) = some name := by
          simpa [labelAt?, List.getElem?_eq_getElem inside] using defines
        have same := (LabelTable.line?_eq_some_iff built).mpr here
        rw [lineOf?, search]
        exact same.symm.trans found

/-! ## Brackets -/

/-- A line has the bracket of the instruction that it is assembled to. -/
theorem bracketOf_eq {table : LabelTable} {raw : String} {line : Line} {number : Nat}
    (done : table.resolveLine form number raw = .ok line.text)
    (read : Instruction.ofTokens (Statement.ofLine line.text).tokens =
      .ok line.instruction.unpaired) : bracketOf raw = line.instruction.bracket := by
  have same : line.instruction.unpaired.bracket = line.instruction.bracket := by
    cases line.instruction <;> rfl
  rw [← same]
  generalize line.instruction.unpaired = instruction at read
  rcases Instruction.ofTokens_cases read with
    ⟨none, rfl⟩ | ⟨word, operands, opcode, tokens, named, spells⟩
  · have noWords := LabelTable.tokens_eq_nil_of_resolveLine done none
    simp [bracketOf, noWords, Instruction.bracket]
  · have first : (Statement.ofLine raw).tokens.head?.bind Opcode.ofMnemonic? = some opcode := by
      rcases LabelTable.tokens_of_resolveLine done tokens named with
        ⟨-, words⟩ | ⟨-, _, _, -, -, words⟩ <;> simp [words, named]
    rw [bracketOf, first]
    cases spells with
    | arithmetic op => cases op <;> rfl
    | zeroBranch jumps =>
        simp only [List.mem_cons, List.not_mem_nil, or_false] at jumps
        rcases jumps with rfl | rfl <;> rfl
    | branch jumps =>
        simp only [List.mem_cons, List.not_mem_nil, or_false] at jumps
        rcases jumps with rfl | rfl | rfl | rfl | rfl | rfl <;> rfl
    | _ => rfl

/-- **The lines of a text have the brackets of the program.** -/
theorem map_bracketOf (compiled : Program.compile form text = .ok program) :
    (Source.normalLines text).map bracketOf = program.instructions.map (·.bracket) := by
  have size := Program.size_of_compile compiled
  apply List.ext_getElem?
  intro place
  rw [List.getElem?_map, List.getElem?_map, Program.getElem?_instructions]
  cases found : (Source.normalLines text)[place]? with
  | none =>
      have outside : program.lines.size ≤ place :=
        Nat.le_trans (Nat.le_of_eq size) (List.getElem?_eq_none_iff.mp found)
      rw [Array.getElem?_eq_none outside]
      rfl
  | some raw =>
      obtain ⟨line, number, atPlace, done, read⟩ := Program.exists_line_of_compile compiled found
      rw [atPlace]
      exact congrArg some (bracketOf_eq done read)

/-! ## One step -/

section

variable {σ : Type} (compiled : Program.compile .source text = .ok program) (sink : Console σ)
  (machine : Machine) (console : σ)
include compiled

/-- What the words of a line do is what the instruction of the line does. -/
theorem perform_eq {place : Nat} {raw : String}
    (found : (Source.normalLines text)[place]? = some raw) (here : machine.line = place + 1) :
    ∃ line, program.lines[place]? = some line ∧
      (perform (Source.normalLines text) machine (Statement.ofLine raw).tokens).map
          (·.outcome sink machine console) =
        some (machine.execute program sink console line.instruction) := by
  obtain ⟨line, number, atPlace, done, read⟩ := Program.exists_line_of_compile compiled found
  obtain ⟨resolved, linked, -⟩ := Program.compile_eq_ok_iff.mp compiled
  have built := (link_eq_ok_iff.mp linked).1
  obtain ⟨tree, written⟩ := Program.exists_blockTree compiled
  have instruction : (tree.code 1)[place]? = some line.instruction := by
    rw [← written, Program.getElem?_instructions, atPlace]
    rfl
  have closes : ∀ head closing, line.instruction = LoopHead.instruction head closing →
      Bracket.closing? ((Source.normalLines text).map bracketOf) machine.line = some closing := by
    intro head closing same
    rw [map_bracketOf compiled, written, here]
    exact (BlockTree.closing?_of_header (instruction.trans (congrArg some same))).1
  have opens : ∀ header, line.instruction = .endIter header →
      Bracket.header? ((Source.normalLines text).map bracketOf) machine.line = some header := by
    intro header same
    rw [map_bracketOf compiled, written, here]
    exact BlockTree.header?_of_endIter (instruction.trans (congrArg some same))
  refine ⟨line, atPlace, ?_⟩
  rcases Instruction.ofTokens_cases read with
    ⟨none, nop⟩ | ⟨word, operands, opcode, tokens, named, spells⟩
  · rw [LabelTable.tokens_eq_nil_of_resolveLine done none, Instruction.eq_of_unpaired nop rfl]
    rfl
  · rcases LabelTable.tokens_of_resolveLine done tokens named with
      ⟨noLabel, words⟩ | ⟨label, name, number, last, resolves, words⟩
    · rw [words, perform, named]
      exact effect_of_spells spells noLabel rfl closes opens
    · rcases LabelTable.resolveOperand_eq_ok resolves with ⟨already, -⟩ | ⟨-, target, defined, rfl⟩
      · cases already
      · have named' : program.labels.nameAt? target = some name := by
          rw [LabelTable.nameAt?_eq_labelAt? built]
          exact (LabelTable.line?_eq_some_iff built).mp defined
        rw [words, perform, named]
        exact effect_of_spells_label spells label rfl last (lineOf?_eq_some built defined) named'

/-- **Assembling keeps the meaning of a source**: from every state and on every console,
a step of the program is a step of the symbolic machine on the lines of the source. -/
theorem step_eq_machine_step :
    step (Source.normalLines text) sink machine console =
      some (machine.step program sink console) := by
  rw [step, lineAt?, Machine.step, Program.instruction?, Program.line?]
  by_cases zero : machine.pc = 0
  · simp only [zero, if_true]
    rfl
  · simp only [zero, if_false]
    cases found : (Source.normalLines text)[machine.pc - 1]? with
    | none =>
        have size := Program.size_of_compile compiled
        have outside : program.lines.size ≤ machine.pc - 1 :=
          Nat.le_trans (Nat.le_of_eq size) (List.getElem?_eq_none_iff.mp found)
        rw [Array.getElem?_eq_none outside]
        rfl
    | some raw =>
        have here : machine.fetch.line = machine.pc - 1 + 1 := by
          change machine.pc = _
          omega
        obtain ⟨line, atPlace, same⟩ :=
          perform_eq compiled sink machine.fetch console found here
        rw [atPlace]
        exact same

end

/-- A source in which one label is named like a register and another one is a number,
and the call leads into a block that its header skips. -/
def registerLabelSource : String :=
  "A0: CALL 7 // in\nITER_FOR |B0:0| (\n7: INC A0\n)\nJE A0 A0 A0\n"

/-- What it is assembled to. -/
def registerLabelProgram : Program where
  lines := #[⟨"A0: CALL 3 // in", .call 3⟩, ⟨"ITER_FOR |B0:0| (", .iterFor ⟨.b, 0⟩ 0 4⟩,
    ⟨"7: INC A0", .inc ⟨.a, 0⟩⟩, ⟨")", .endIter 2⟩,
    ⟨"JE A0 A0 1", .branch .jumpEqual ⟨false, true, false⟩ ⟨.a, 0⟩ (.register ⟨.a, 0⟩) 1⟩]
  labels := ⟨[("7", 3), ("A0", 1)]⟩

theorem step_eq_machine_step_registerLabel :
    Program.compile .source registerLabelSource = .ok registerLabelProgram ∧
      step (Source.normalLines registerLabelSource) .stream (.initial .unlimited) "" =
        some (Machine.step registerLabelProgram .stream (.initial .unlimited) "") :=
  have compiled : Program.compile .source registerLabelSource = .ok registerLabelProgram := by
    decide +kernel
  ⟨compiled, step_eq_machine_step compiled .stream (.initial .unlimited) ""⟩

end LineAsm.Symbolic
