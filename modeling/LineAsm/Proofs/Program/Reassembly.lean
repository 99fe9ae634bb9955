import LineAsm.Proofs.Instruction.Disassembly
import LineAsm.Proofs.Relocation.Lines

/-!
# A canonical listing is assembled to the same instructions

The canonical text of a program holds no labels, no comments and none of the lines that
brackets are paired with.  All of its lines are normal and hold nothing but the canonical words
of their instructions (`Program.ofLine_text`), and linking leaves them as they are, because the
target of a jump is a number already (`LabelTable.resolveLine_of_decoded`).  So the lines are
decoded as the instructions of the program without the lines of their brackets, and pairing
finds these lines again (`Program.exists_compile_canonicalText`).

A line that only defines a label has no canonical text.  It would be dropped and the lines
behind it would move up, so a program with such a line is left out.
-/

set_option autoImplicit false

namespace LineAsm

/-! ## Lines without labels -/

namespace LabelTable

/-- Lines that define no label add none to a table. -/
theorem defineAll_of_none {lines : List String} (none : ∀ text ∈ lines, labelOf? text = none)
    (table : LabelTable) (start : Nat) : table.defineAll start lines = .ok table := by
  induction lines generalizing start with
  | nil => rfl
  | cons text later ih =>
      obtain ⟨first, rest⟩ := List.forall_mem_cons.mp none
      rw [defineAll, define_of_none first]
      exact ih rest (start + 1)

/-- **A line that can be decoded needs no linking**: an artifact keeps it, when it is written
as its statement is. -/
theorem resolveLine_of_decoded {text : String} {instruction : Instruction}
    (decoded : Instruction.ofTokens (Statement.ofLine text).tokens = .ok instruction)
    (written : (Statement.ofLine text).render = text) (table : LabelTable) (line : Nat) :
    table.resolveLine .artifact line text = .ok text := by
  cases takes : (Statement.ofLine text).labelPlace? with
  | none => exact resolveLine_of_none takes table .artifact line
  | some place =>
      obtain ⟨word, isWord, named⟩ := Option.bind_eq_some_iff.mp takes
      obtain ⟨opcode, isOpcode, placed⟩ := Option.bind_eq_some_iff.mp named
      rcases Instruction.ofTokens_cases decoded with
        ⟨none, -⟩ | ⟨word', operands, opcode', tokens, isOpcode', spells⟩
      · rw [none] at isWord
        cases isWord
      · obtain rfl : word' = word := by simpa [tokens] using isWord
        obtain rfl := Option.some.inj (isOpcode'.symm.trans isOpcode)
        rw [Opcode.labelPlace?] at placed
        split at placed
        · rename_i takesLabel
          obtain rfl := Option.some.inj placed
          -- The operand in which a label may stand is read as a number, so it is digits already.
          obtain ⟨number, target, last, isLine, -⟩ := spells.exists_target takesLabel
          have positive : opcode'.arity - 1 + 1 = opcode'.arity := by
            revert takesLabel
            cases opcode' <;> decide
          have operand : (Statement.ofLine text).tokens[opcode'.arity]? = some number := by
            rw [tokens, ← positive, List.getElem?_cons_succ]
            exact last
          have digits := (Text.natural?_eq_some (Decoding.target_eq_ok_iff.mp isLine).1).1
          have already : table.resolveOperand .artifact line number = .ok number :=
            if_pos (Bool.and_eq_true_iff.mpr ⟨by decide, digits⟩)
          obtain ⟨inside, isNumber⟩ := List.getElem?_eq_some_iff.mp operand
          rw [resolveLine_of_some takes operand already, Statement.withToken, ← isNumber,
            List.set_getElem_self, written]
        · cases placed

end LabelTable

/-! ## Canonical lines -/

namespace Instruction

@[simp]
theorem text_unpaired (instruction : Instruction) :
    instruction.unpaired.text = instruction.text := by
  cases instruction <;> rfl

/-- The statement that the canonical text of an instruction holds. -/
def statement (instruction : Instruction) : Statement :=
  ⟨none, instruction.canonicalWords, none⟩

theorem render_statement (instruction : Instruction) :
    instruction.statement.render = instruction.text := by
  simp [Statement.render, statement, text]

variable {words : List String} {instruction : Instruction}

/-- A line can hold the canonical words of an instruction. -/
theorem wellFormed_statement (sentence : Sentence words instruction) :
    instruction.statement.WellFormed where
  label := nofun
  tokens token mem := by
    have visible := sentence.canonical.visibleWord token mem
    exact ⟨fun empty => visible.nonempty (String.toList_eq_nil_iff.mpr empty), visible.solid⟩
  first _ token isFirst := by
    have canonical := sentence.canonical
    rw [statement] at isFirst
    generalize instruction.canonicalWords = written at canonical isFirst
    cases canonical with
    | empty => cases isFirst
    | words =>
        obtain rfl := Option.some.inj isFirst
        exact (Opcode.mnemonic_visibleWord _).2
  comment := nofun

theorem ofLine_text (sentence : Sentence words instruction) :
    Statement.ofLine instruction.text = instruction.statement := by
  rw [← render_statement]
  exact Statement.ofLine_render (wellFormed_statement sentence)

theorem normalLine_text (sentence : Sentence words instruction) (some : instruction ≠ .nop) :
    Source.NormalLine instruction.text.toList := by
  rw [← render_statement]
  refine Source.normalLine_render (wellFormed_statement sentence) ?_ nofun
  cases sentence with
  | empty => exact absurd rfl some
  | words operation =>
      rw [statement, canonicalWords_eq, operation]
      exact List.cons_ne_nil _ _

end Instruction

/-! ## Programs -/

namespace Program

/-- The canonical texts of the instructions of a program, one on each line. -/
def canonicalText (program : Program) : String :=
  String.join (program.instructions.map (·.text ++ "\n"))

variable {form : ProgramForm} {text : String} {program : Program}

/-- The instructions of a program have sentences, the lines of their brackets aside. -/
theorem exists_sentence (compiled : compile form text = .ok program) {instruction : Instruction}
    (mem : instruction ∈ program.instructions) : ∃ words, Sentence words instruction.unpaired := by
  obtain ⟨_, -, decoded⟩ := compile_eq_ok_iff.mp compiled
  obtain ⟨line, inside, rfl⟩ := List.mem_map.mp mem
  exact ⟨_, Instruction.ofTokens_eq_ok_iff.mp
    (ofTokens_of_mem_lines decoded (Array.mem_toList_iff.mp inside))⟩

/-- A canonical line holds the canonical words. -/
theorem ofLine_text (compiled : compile form text = .ok program) {instruction : Instruction}
    (mem : instruction ∈ program.instructions) :
    Statement.ofLine instruction.text = instruction.unpaired.statement := by
  obtain ⟨_, sentence⟩ := exists_sentence compiled mem
  rw [← Instruction.text_unpaired]
  exact Instruction.ofLine_text sentence

/-- A canonical line is decoded as its instruction without the line of its bracket. -/
theorem ofTokens_text_of_mem (compiled : compile form text = .ok program)
    {instruction : Instruction} (mem : instruction ∈ program.instructions) :
    Instruction.ofTokens (Statement.ofLine instruction.text).tokens = .ok instruction.unpaired := by
  obtain ⟨_, sentence⟩ := exists_sentence compiled mem
  rw [ofLine_text compiled mem]
  exact Instruction.ofTokens_eq_ok_iff.mpr sentence.canonical

/-- The canonical lines are linked without a change, and define no label. -/
theorem link_canonical (compiled : compile form text = .ok program) :
    link .artifact (program.instructions.map (·.text)) =
      .ok (LabelTable.empty, program.instructions.map (·.text)) := by
  refine link_eq_ok_iff.mpr ⟨LabelTable.defineAll_of_none ?_ _ 1,
    LabelTable.resolveFrom_eq_self ?_ 1⟩
  · intro line mem
    obtain ⟨instruction, inside, rfl⟩ := List.mem_map.mp mem
    rw [labelOf?, ofLine_text compiled inside]
    rfl
  · intro line mem
    obtain ⟨instruction, inside, rfl⟩ := List.mem_map.mp mem
    refine LabelTable.resolveLine_of_decoded (ofTokens_text_of_mem compiled inside) ?_ _
    rw [ofLine_text compiled inside, Instruction.render_statement, Instruction.text_unpaired]

/-- The addressed lines of the canonical text are the canonical lines. -/
theorem normalLines_canonicalText (compiled : compile form text = .ok program)
    (full : ∀ instruction ∈ program.instructions, instruction ≠ .nop) :
    Source.normalLines program.canonicalText = program.instructions.map (·.text) := by
  have lines : program.canonicalText =
      String.join ((program.instructions.map (·.text)).map (· ++ "\n")) := by
    rw [canonicalText, List.map_map]
    rfl
  rw [lines]
  refine Source.normalLines_terminated ?_
  intro line mem
  obtain ⟨instruction, inside, rfl⟩ := List.mem_map.mp mem
  obtain ⟨_, sentence⟩ := exists_sentence compiled inside
  rw [← Instruction.text_unpaired]
  refine Instruction.normalLine_text sentence ?_
  intro isNop
  refine full instruction inside ?_
  cases instruction with
  | nop => rfl
  | _ => cases isNop

/-- The canonical lines are decoded as the instructions of the program. -/
theorem instructions_decodeLines_canonical (compiled : compile form text = .ok program) :
    (decodeLines (program.instructions.map (·.text))).map
        (fun lines => lines.toList.map (·.instruction)) = .ok program.instructions := by
  obtain ⟨resolved, -, decoded⟩ := compile_eq_ok_iff.mp compiled
  have read : (program.instructions.map (·.text)).map
        (fun text => Instruction.ofTokens (Statement.ofLine text).tokens) =
      resolved.map fun text => Instruction.ofTokens (Statement.ofLine text).tokens := by
    rw [← texts_of_decodeLines decoded, instructions, List.map_map, List.map_map, List.map_map]
    refine List.map_congr_left fun line mem => ?_
    have inside : line.instruction ∈ program.instructions := List.mem_map.mpr ⟨line, mem, rfl⟩
    exact (ofTokens_text_of_mem compiled inside).trans
      (ofTokens_of_mem_lines decoded (Array.mem_toList_iff.mp mem)).symm
  rw [instructions_decodeLines_of_read read, decoded]
  rfl

/-- **A canonical listing is assembled to the same instructions**, with the same targets and the
same pairs of brackets, and its label table is empty. -/
theorem exists_compile_canonicalText (compiled : compile form text = .ok program)
    (full : ∀ instruction ∈ program.instructions, instruction ≠ .nop) :
    ∃ again, compile .artifact program.canonicalText = .ok again ∧
      again.instructions = program.instructions ∧ again.labels = LabelTable.empty := by
  have same := instructions_decodeLines_canonical compiled
  cases decoded : decodeLines (program.instructions.map (·.text)) with
  | error failure =>
      rw [decoded] at same
      cases same
  | ok lines =>
      rw [decoded] at same
      refine ⟨⟨lines, LabelTable.empty⟩, compile_eq_ok_iff.mpr ⟨_, ?_, decoded⟩,
        Except.ok.inj same, rfl⟩
      rw [normalLines_canonicalText compiled full]
      exact link_canonical compiled

/-- A source with a block, a label and numbers that are not written in the canonical way. -/
def countdownSource : String :=
  "top:DEC A0 // down\nITER_FOR |A1:003| (\n  PUT A2 -0\n)\nJNZ A0 top\n"

/-- What it is compiled to. -/
def countdownProgram : Program where
  lines := #[⟨"top:DEC A0 // down", .dec ⟨.a, 0⟩⟩,
    ⟨"ITER_FOR |A1:003| (", .iterFor ⟨.a, 1⟩ 3 4⟩, ⟨"PUT A2 -0", .put ⟨.a, 2⟩ (.literal 0)⟩,
    ⟨")", .endIter 2⟩,
    ⟨"JNZ A0 1", .branch .jumpNonzero ⟨true, false, true⟩ ⟨.a, 0⟩ (.literal 0) 1⟩]
  labels := ⟨[("top", 1)]⟩

theorem exists_compile_canonicalText_countdown :
    compile .source countdownSource = .ok countdownProgram ∧
      countdownProgram.canonicalText = "DEC A0\nITER_FOR |A1:3| (\nPUT A2 0\n)\nJNZ A0 1\n" ∧
      ∃ again, compile .artifact countdownProgram.canonicalText = .ok again ∧
        again.instructions = countdownProgram.instructions ∧ again.labels = LabelTable.empty := by
  have compiled : compile .source countdownSource = .ok countdownProgram := by decide +kernel
  exact ⟨compiled, by decide +kernel, exists_compile_canonicalText compiled (by decide)⟩

end Program

end LineAsm
