import LineAsm.Proofs.Label.Renaming
import LineAsm.Proofs.Program.BlockTree
import LineAsm.Proofs.Program.Lines

/-!
# Names of labels are opaque

A source whose labels are renamed is compiled to the same instructions, and the renamed labels
stand at the same lines (`Program.compile_renamed`).  The names of labels may be chosen freely:
a label called like a number, a register or a mnemonic captures no other word of a line, and
no other word captures it.
-/

set_option autoImplicit false

namespace LineAsm.Program

open Statement (LabelName)

variable {text : String} {program : Program}

/-- The names that the lines of a source hold are names of labels: a label is not empty, and
an operand that names a line is a label. -/
theorem labelName_of_holds (compiled : compile .source text = .ok program) {line name : String}
    (mem : line ∈ Source.normalLines text) (holds : (Statement.ofLine line).Holds name) :
    LabelName name := by
  obtain ⟨resolved, linked, -⟩ := compile_eq_ok_iff.mp compiled
  have built := (link_eq_ok_iff.mp linked).1
  cases holds with
  | label defines => exact LabelTable.labelName_of_ofLines built mem defines
  | operand takes names =>
      obtain ⟨place, found⟩ := List.mem_iff_getElem?.mp mem
      obtain ⟨_, number, -, done, -⟩ := exists_line_of_compile compiled found
      rcases LabelTable.resolveLine_cases done with
        ⟨takesNone, -⟩ | ⟨place, operand, _, takes', at_, resolves, -, -⟩
      · rw [takesNone] at takes
        cases takes
      · obtain rfl := Option.some.inj (takes.symm.trans takes')
        obtain rfl := Option.some.inj (names.symm.trans at_)
        rcases LabelTable.resolveOperand_eq_ok resolves with ⟨already, -⟩ | ⟨-, target, defined, -⟩
        · cases already
        · exact LabelTable.labelName_of_line? built defined

section Renamed

variable {rename : String → String} (compiled : compile .source text = .ok program)
  (renames : Renaming rename)
include compiled renames

/-- The renamed text has the renamed lines. -/
theorem normalLines_renamed :
    Source.normalLines (Source.renamed rename text) =
      (Source.normalLines text).map (renameLine rename) := by
  refine Source.normalLines_terminated ?_
  intro other mem
  obtain ⟨line, inText, rfl⟩ := List.mem_map.mp mem
  exact normalLine_renameLine
    (fun name holds => renames.names (labelName_of_holds compiled inText holds))
    (Source.normalLine_of_mem_normalLines inText)

theorem renamedLines_renamed :
    RenamedLines rename (Source.normalLines text)
      (Source.normalLines (Source.renamed rename text)) := by
  rw [normalLines_renamed compiled renames, RenamedLines, List.forall₂_map_right_iff,
    List.forall₂_same]
  intro line mem
  exact ofLine_renameLine fun name holds =>
    renames.names (labelName_of_holds compiled mem holds)

/-- **A text whose lines are read as the renamed statements** compiles to the same
instructions, and its table has the renamed labels at the same lines and no others. -/
theorem exists_compile_of_renamedLines {other : String}
    (reads : RenamedLines rename (Source.normalLines text) (Source.normalLines other)) :
    ∃ renamed, compile .source other = .ok renamed ∧
      renamed.instructions = program.instructions ∧
      ∀ called target, renamed.labels.line? called = some target ↔
        ∃ name, program.labels.line? name = some target ∧ rename name = called := by
  obtain ⟨resolved, linked, decoded⟩ := compile_eq_ok_iff.mp compiled
  obtain ⟨built, done⟩ := link_eq_ok_iff.mp linked
  obtain ⟨table, otherBuilt, labels⟩ := LabelTable.exists_ofLines_renamed renames built reads
  have names : ∀ name target, program.labels.line? name = some target →
      table.line? (rename name) = some target :=
    fun name target defined => (labels _ _).mpr ⟨name, defined, rfl⟩
  obtain ⟨outs, resolves, words⟩ := LabelTable.exists_forall₂_renamed names reads
    (LabelTable.forall₂_of_resolveFrom done)
  have same := instructions_decodeLines_congr words
  rw [decoded] at same
  rcases cases_of_map_eq same with ⟨_, -, failure⟩ | ⟨lines, _, otherDecoded, again, instructions⟩
  · cases failure
  · obtain rfl := Except.ok.inj again
    refine ⟨⟨lines, table⟩, compile_eq_ok_iff.mpr ⟨outs, ?_, otherDecoded⟩, instructions, labels⟩
    exact link_eq_ok_iff.mpr ⟨otherBuilt, LabelTable.resolveFrom_of_forall₂ resolves 1⟩

/-- **Names of labels are opaque.**  A source with its labels renamed compiles to the same
instructions, its table has the new name of a label at the line of the old one, and it has no
labels but the renamed ones. -/
theorem compile_renamed :
    ∃ renamed, compile .source (Source.renamed rename text) = .ok renamed ∧
      renamed.instructions = program.instructions ∧
      (∀ name, LabelName name →
        renamed.labels.line? (rename name) = program.labels.line? name) ∧
      ∀ called target, renamed.labels.line? called = some target →
        ∃ name, program.labels.line? name = some target ∧ rename name = called := by
  obtain ⟨renamed, otherCompiled, instructions, labels⟩ :=
    exists_compile_of_renamedLines compiled renames (renamedLines_renamed compiled renames)
  refine ⟨renamed, otherCompiled, instructions, ?_, fun called target => (labels _ _).mp⟩
  intro name valid
  apply Option.ext
  intro target
  rw [labels]
  constructor
  · rintro ⟨old, defined, same⟩
    obtain ⟨_, linked, -⟩ := compile_eq_ok_iff.mp compiled
    have oldValid := LabelTable.labelName_of_line? (link_eq_ok_iff.mp linked).1 defined
    rwa [renames.distinct oldValid valid same] at defined
  · exact fun defined => ⟨name, defined, rfl⟩

end Renamed

/-- A source with a label that is called like a register. -/
def opaqueSource : String := "f: JZ A0 A0 // go\nA0: INC A0 // up\n\nCALL f\n"

/-- What it is compiled to. -/
def opaqueProgram : Program where
  lines := #[⟨"f: JZ A0 2 // go", .branch .jumpZero ⟨false, true, false⟩ ⟨.a, 0⟩ (.literal 0) 2⟩,
    ⟨"A0: INC A0 // up", .inc ⟨.a, 0⟩⟩, ⟨"CALL 1", .call 1⟩]
  labels := ⟨[("A0", 2), ("f", 1)]⟩

theorem compile_renamed_mnemonic :
    compile .source opaqueSource = .ok opaqueProgram ∧
      Renaming (Equiv.swap "f" "JZ") ∧
      Source.renamed (Equiv.swap "f" "JZ") opaqueSource =
        "JZ: JZ A0 A0 // go\nA0: INC A0 // up\nCALL JZ\n" ∧
      ∃ renamed, compile .source (Source.renamed (Equiv.swap "f" "JZ") opaqueSource) = .ok renamed ∧
        renamed.instructions = opaqueProgram.instructions ∧
        renamed.labels.line? "JZ" = some 1 := by
  have compiled : compile .source opaqueSource = .ok opaqueProgram := by decide +kernel
  have renames : Renaming (Equiv.swap "f" "JZ") :=
    renaming_swap (by decide +kernel) (by decide +kernel)
  refine ⟨compiled, renames, by decide +kernel, ?_⟩
  obtain ⟨renamed, otherCompiled, instructions, labels, -⟩ := compile_renamed compiled renames
  refine ⟨renamed, otherCompiled, instructions, ?_⟩
  have moved := labels "f" (by decide +kernel)
  rwa [Equiv.swap_apply_left] at moved

end LineAsm.Program
