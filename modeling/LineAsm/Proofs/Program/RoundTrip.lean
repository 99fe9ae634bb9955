import LineAsm.Proofs.Label.Resolution
import LineAsm.Proofs.Program.Assembly

/-!
# An artifact is read back as the program it was written for

The resolved lines of a program are normal, so the artifact is cut into exactly these
lines (`normalLines_artifact`).  They are left as they are when they are linked again,
and their labels are those of the first reading, so that the same lines are decoded
with the same table (`compile_artifact`).
-/

set_option autoImplicit false

namespace LineAsm.Program

variable {form : ProgramForm} {text : String} {program : Program}

theorem artifact_eq_join (program : Program) :
    program.artifact = String.join ((program.lines.toList.map (·.text)).map (· ++ "\n")) := by
  rw [artifact, List.map_map]
  rfl

/-- The lines of a text are normal after they have been linked. -/
theorem normalLine_of_mem_linked {table : LabelTable} {resolved : List String} {line : String}
    (linked : link form (Source.normalLines text) = .ok (table, resolved))
    (mem : line ∈ resolved) : Source.NormalLine line.toList := by
  obtain ⟨-, done⟩ := link_eq_ok_iff.mp linked
  obtain ⟨raw, here, number, one⟩ := LabelTable.exists_of_mem_resolved done mem
  exact LabelTable.normalLine_resolveLine (Source.normalLine_of_mem_normalLines here) one

/-- **The addressed lines of an artifact are the texts of the program.** -/
theorem normalLines_artifact (compiled : compile form text = .ok program) :
    Source.normalLines program.artifact = program.lines.toList.map (·.text) := by
  obtain ⟨resolved, linked, decoded⟩ := compile_eq_ok_iff.mp compiled
  rw [artifact_eq_join, texts_of_decodeLines decoded]
  exact Source.normalLines_terminated fun line mem => normalLine_of_mem_linked linked mem

/-- **An artifact compiles to the program it was written for**: the same lines with
their texts and paired instructions, and the same label table.  In particular its own
artifact is the same text. -/
theorem compile_artifact (compiled : compile form text = .ok program) :
    compile .artifact program.artifact = .ok program := by
  obtain ⟨resolved, linked, decoded⟩ := compile_eq_ok_iff.mp compiled
  refine compile_eq_ok_iff.mpr ⟨resolved, ?_, decoded⟩
  rw [normalLines_artifact compiled, texts_of_decodeLines decoded]
  exact link_resolved linked

/-- A text with the addressed lines of the artifact compiles to the same program. -/
theorem compile_of_normalLines (compiled : compile form text = .ok program) {other : String}
    (lines : Source.normalLines other = program.lines.toList.map (·.text)) :
    compile .artifact other = .ok program := by
  obtain ⟨resolved, linked, decoded⟩ := compile_eq_ok_iff.mp compiled
  refine compile_eq_ok_iff.mpr ⟨resolved, ?_, decoded⟩
  rw [lines, texts_of_decodeLines decoded]
  exact link_resolved linked

/-- A source in which a label is a number, another holds a slash, and a comment is
glued to an operand. -/
def numericLabelSource : String := "// head\n 3:INC A0 // up\n\nJZ A1 e/nd// skip\nJMP 3\ne/nd:\n"

/-- What it compiles to: the label 3 is at line 1. -/
def numericLabelProgram : Program where
  lines := #[⟨"3:INC A0 // up", .inc ⟨.a, 0⟩⟩,
    ⟨"JZ A1 4 // skip", .branch .jumpZero ⟨false, true, false⟩ ⟨.a, 1⟩ (.literal 0) 4⟩,
    ⟨"JMP 1", .jump 1⟩, ⟨"e/nd:", .nop⟩]
  labels := ⟨[("3", 1), ("e/nd", 4)]⟩

theorem compile_artifact_numericLabel :
    compile .source numericLabelSource = .ok numericLabelProgram ∧
      compile .artifact numericLabelProgram.artifact = .ok numericLabelProgram :=
  have compiled : compile .source numericLabelSource = .ok numericLabelProgram := by
    decide +kernel
  ⟨compiled, compile_artifact compiled⟩

end LineAsm.Program
