import LineAsm.Proofs.Label.Resolution
import LineAsm.Proofs.Program.Assembly

/-!
# The lines of a program and the lines of its text

The lines of a program stand for the addressed lines of its text one by one
(`Program.size_of_compile`, `Program.exists_line_of_compile`): the text of a line is the
addressed line with its label operand resolved, and its instruction is the one that this
text spells, the line of its bracket aside.

Resolving a line changes nothing but the last operand of a jump or a call
(`LabelTable.tokens_of_resolveLine`).
-/

set_option autoImplicit false

namespace LineAsm

namespace LabelTable

variable {table : LabelTable} {form : ProgramForm} {line : Nat} {text resolved : String}

/-- A line without words has none before it was resolved. -/
theorem tokens_eq_nil_of_resolveLine (done : table.resolveLine form line text = .ok resolved)
    (none : (Statement.ofLine resolved).tokens = []) : (Statement.ofLine text).tokens = [] := by
  rcases resolveLine_cases done with ⟨-, rfl⟩ | ⟨place, _, number, -, -, -, -, read⟩
  · exact none
  · rw [read] at none
    simpa [Statement.withToken] using none

/-- **The words of a line before it was resolved**: only the operand of a jump or a call
was another one. -/
theorem tokens_of_resolveLine (done : table.resolveLine form line text = .ok resolved)
    {word : String} {operands : List String} {opcode : Opcode}
    (tokens : (Statement.ofLine resolved).tokens = word :: operands)
    (named : Opcode.ofMnemonic? word = some opcode) :
    (opcode.takesLabel = false ∧ (Statement.ofLine text).tokens = word :: operands) ∨
      opcode.takesLabel = true ∧ ∃ operand number,
        operands[opcode.arity - 1]? = some number ∧
        table.resolveOperand form line operand = .ok number ∧
        (Statement.ofLine text).tokens = word :: operands.set (opcode.arity - 1) operand := by
  have place (statement : Statement) (words : statement.tokens = word :: operands) :
      statement.labelPlace? = opcode.labelPlace? := by
    simp [Statement.labelPlace?, words, named]
  rcases resolveLine_cases done with
    ⟨none, rfl⟩ | ⟨place', operand, number, has, at_, found, -, read⟩
  · rw [place _ tokens] at none
    refine .inl ⟨?_, tokens⟩
    simpa [Opcode.labelPlace?] using none
  · have later := Statement.labelPlace?_ne_zero has
    rw [← Statement.labelPlace?_withToken later number, ← read, place _ tokens] at has
    have takes : opcode.takesLabel = true ∧ opcode.arity = place' := by
      simpa [Opcode.labelPlace?] using has
    obtain ⟨last, rfl⟩ : ∃ last, place' = last + 1 := ⟨place' - 1, by omega⟩
    have words : (Statement.ofLine text).tokens.set (last + 1) number = word :: operands := by
      rw [← tokens, read]
      rfl
    refine .inr ⟨takes.1, operand, number, ?_, found, ?_⟩
    · have inside := (List.getElem?_eq_some_iff.mp at_).1
      have there : ((Statement.ofLine text).tokens.set (last + 1) number)[last + 1]? =
          some number := List.getElem?_set_self inside
      rw [words, List.getElem?_cons_succ] at there
      rw [takes.2, Nat.add_sub_cancel, there]
    · have back : ((Statement.ofLine text).tokens.set (last + 1) number).set (last + 1) operand =
          (Statement.ofLine text).tokens := by
        obtain ⟨inside, same⟩ := List.getElem?_eq_some_iff.mp at_
        rw [List.set_set, ← same, List.set_getElem_self]
      rw [← back, words, takes.2, Nat.add_sub_cancel, List.set_cons_succ]

end LabelTable

namespace Program

variable {form : ProgramForm} {text : String} {program : Program}

/-- A program has as many lines as its text has addressed lines. -/
theorem size_of_compile (compiled : compile form text = .ok program) :
    program.size = (Source.normalLines text).length := by
  obtain ⟨resolved, linked, decoded⟩ := compile_eq_ok_iff.mp compiled
  have one := (LabelTable.forall₂_of_resolveFrom (link_eq_ok_iff.mp linked).2).length_eq
  rw [one, ← texts_of_decodeLines decoded, List.length_map, Array.length_toList]
  rfl

/-- **A line of a program** is the addressed line at its place, resolved and read. -/
theorem exists_line_of_compile (compiled : compile form text = .ok program) {place : Nat}
    {raw : String} (found : (Source.normalLines text)[place]? = some raw) :
    ∃ line number, program.lines[place]? = some line ∧
      program.labels.resolveLine form number raw = .ok line.text ∧
      Instruction.ofTokens (Statement.ofLine line.text).tokens =
        .ok line.instruction.unpaired := by
  obtain ⟨resolved, linked, decoded⟩ := compile_eq_ok_iff.mp compiled
  have one := LabelTable.forall₂_of_resolveFrom (link_eq_ok_iff.mp linked).2
  rw [← texts_of_decodeLines decoded, List.forall₂_map_right_iff] at one
  obtain ⟨inside, rfl⟩ := List.getElem?_eq_some_iff.mp found
  have there : place < program.lines.toList.length := one.length_eq ▸ inside
  obtain ⟨number, done⟩ := (List.forall₂_iff_get.mp one).2 place inside there
  have line : program.lines[place]? = some program.lines.toList[place] := by
    rw [← Array.getElem?_toList]
    exact List.getElem?_eq_getElem there
  exact ⟨_, number, line, done, ofTokens_of_mem_lines decoded (Array.mem_of_getElem? line)⟩

end Program

end LineAsm
