import LineAsm.Proofs.Program.BlockTree
import LineAsm.Proofs.Program.Lines
import LineAsm.Proofs.Relocation.Lines
import Mathlib.Order.Monotone.Basic

/-!
# Assembling at moved lines

Two assemblies are compared line by line: the lines of the first stand in the second at
their moved places, and name moved lines (`Assembly.Moved`).  Appending a line to both keeps
this (`Assembly.Moved.push`), since a bracket that closes finds the moved header, and so does
appending a line to the second alone (`MovedLines.append_right`).
-/

set_option autoImplicit false

namespace LineAsm

/-! ## Moved lines -/

namespace Instruction

@[simp]
theorem bracket_mapLines (move : Nat → Nat) (instruction : Instruction) :
    (instruction.mapLines move).bracket = instruction.bracket := by
  cases instruction <;> rfl

theorem mapLines_closeAt (move : Nat → Nat) (instruction : Instruction) (line : Nat) :
    (instruction.closeAt line).mapLines move = (instruction.mapLines move).closeAt (move line) := by
  cases instruction <;> rfl

end Instruction

variable {move : Nat → Nat} {lines others : List Instruction}

/-- The lines of a row stand in another one at their moved places, and name moved lines. -/
def MovedLines (move : Nat → Nat) (lines others : List Instruction) : Prop :=
  ∀ place instruction, lines[place]? = some instruction →
    others[move (place + 1) - 1]? = some (instruction.mapLines move)

namespace MovedLines

/-- One line more in both rows. -/
theorem append (moved : MovedLines move lines others)
    (order : others.length + 1 = move (lines.length + 1)) (last : Instruction) :
    MovedLines move (lines ++ [last]) (others ++ [last.mapLines move]) := by
  intro place instruction found
  rcases Nat.lt_trichotomy place lines.length with before | rfl | behind
  · rw [List.getElem?_append_left before] at found
    have old := moved place instruction found
    rw [List.getElem?_append_left (List.getElem?_eq_some_iff.mp old).1, old]
  · rw [List.getElem?_concat_length] at found
    obtain rfl := Option.some.inj found
    rw [← order, Nat.add_sub_cancel, List.getElem?_concat_length]
  · rw [List.getElem?_eq_none (by rw [List.length_append, List.length_singleton]; omega)] at found
    cases found

/-- One line more in the second row. -/
theorem append_right (moved : MovedLines move lines others) (last : Instruction) :
    MovedLines move lines (others ++ [last]) := by
  intro place instruction found
  have old := moved place instruction found
  rw [List.getElem?_append_left (List.getElem?_eq_some_iff.mp old).1, old]

/-- A header in both rows learns the line of its closing bracket. -/
theorem close (ascending : StrictMono move) (moved : MovedLines move lines others) {header : Nat}
    (positive : 1 ≤ header) (closing : Nat) :
    MovedLines move (lines.modify (header - 1) (·.closeAt closing))
      (others.modify (move header - 1) (·.closeAt (move closing))) := by
  intro place instruction found
  have headerMoved : 1 ≤ move header := Nat.lt_of_le_of_lt (Nat.zero_le _) (ascending positive)
  have placeMoved : 1 ≤ move (place + 1) :=
    Nat.lt_of_le_of_lt (Nat.zero_le _) (ascending (Nat.succ_pos place))
  rw [List.getElem?_modify] at found ⊢
  by_cases same : header = place + 1
  · subst same
    simp only [Nat.add_sub_cancel, if_true] at found ⊢
    obtain ⟨old, was, rfl⟩ := Option.map_eq_some_iff.mp found
    rw [moved place old was, Instruction.mapLines_closeAt]
    rfl
  · have different : move header ≠ move (place + 1) := fun equal => same (ascending.injective equal)
    have elsewhere : ¬ header - 1 = place := by omega
    have otherElsewhere : ¬ move header - 1 = move (place + 1) - 1 := by omega
    simp only [elsewhere, otherElsewhere, if_false] at found ⊢
    obtain ⟨old, was, rfl⟩ := Option.map_eq_some_iff.mp found
    rw [moved place old was]
    rfl

end MovedLines

/-! ## Moved assemblies -/

namespace Assembly

variable {assembly other : Assembly}

/-- The lines of an assembly stand in another one at their moved places, and the open headers
are the moved ones. -/
structure Moved (move : Nat → Nat) (assembly other : Assembly) : Prop where
  positive : ∀ header ∈ assembly.openHeaders, 1 ≤ header
  headers : other.openHeaders = assembly.openHeaders.map move
  lines : MovedLines move assembly.instructions other.instructions

namespace Moved

/-- **Appending a line to both assemblies** keeps them moved. -/
theorem push (ascending : StrictMono move) (moved : Moved move assembly other)
    (order : other.lines.size + 1 = move (assembly.lines.size + 1)) {text : String}
    {instruction : Instruction} {next : Assembly}
    (pushed : assembly.push text instruction = .ok next) (otherText : String) :
    ∃ otherNext, other.push otherText (instruction.mapLines move) = .ok otherNext ∧
      Moved move next otherNext := by
  obtain ⟨positive, headers, lines⟩ := moved
  have lengths : other.instructions.length + 1 = move (assembly.instructions.length + 1) := by
    rw [length_instructions, length_instructions, order]
  rcases push_cases pushed with ⟨opens, rfl⟩ | ⟨header, outer, closes, open_, rfl⟩ | ⟨plain, rfl⟩
  · refine ⟨_, push_of_opening (by rw [Instruction.bracket_mapLines, opens]), ?_, ?_, ?_⟩
    · intro header mem
      rcases List.mem_cons.mp mem with rfl | old
      · exact Nat.le_add_left 1 _
      · exact positive header old
    · rw [List.map_cons, ← headers, order]
    · simpa [instructions] using lines.append lengths instruction
  · obtain ⟨old, rfl⟩ := Instruction.eq_endIter_of_closing closes
    rw [open_, List.map_cons] at headers
    have isOpen : 1 ≤ header := positive header (open_ ▸ .head _)
    refine ⟨_, push_of_closing rfl headers, ?_, rfl, ?_⟩
    · exact fun inner mem => positive inner (open_ ▸ .tail _ mem)
    · have closed := lines.close ascending isOpen (assembly.lines.size + 1)
      have longer := closed.append (by simpa using lengths) (.endIter header)
      rw [← order] at longer
      simpa [instructions, instructions_close, Instruction.mapLines] using longer
  · refine ⟨_, push_of_plain (by rw [Instruction.bracket_mapLines, plain]), positive, headers, ?_⟩
    simpa [instructions] using lines.append lengths instruction

/-- **Appending rows of lines to both assemblies** keeps them moved, when each line of the
second row spells the moved instruction of the line of the first. -/
theorem addAll (ascending : StrictMono move) {texts otherTexts : List String}
    (spelled : List.Forall₂ (SpellsMoved move) texts otherTexts)
    (moved : Moved move assembly other)
    (order : ∀ count < texts.length,
      other.lines.size + count + 1 = move (assembly.lines.size + count + 1))
    {final : Assembly} (added : assembly.addAll texts = .ok final) :
    ∃ otherFinal, other.addAll otherTexts = .ok otherFinal ∧ Moved move final otherFinal := by
  induction spelled generalizing assembly other with
  | nil =>
      obtain rfl := Except.ok.inj added
      exact ⟨other, rfl, moved⟩
  | @cons text otherText texts otherTexts one _ ih =>
      obtain ⟨next, first, rest⟩ := addAll_cons_eq_ok_iff.mp added
      obtain ⟨instruction, read, pushed⟩ := add_eq_ok_iff.mp first
      obtain ⟨otherNext, otherPushed, nextMoved⟩ :=
        moved.push ascending (order 0 (Nat.succ_pos _)) pushed otherText
      have otherFirst := add_eq_ok_iff.mpr ⟨_, one instruction read, otherPushed⟩
      have later : ∀ count < texts.length,
          otherNext.lines.size + count + 1 = move (next.lines.size + count + 1) := by
        intro count inside
        have behind := order (count + 1) (Nat.succ_lt_succ inside)
        rw [size_add first, size_add otherFirst]
        simpa only [Nat.add_assoc, Nat.add_comm 1] using behind
      obtain ⟨otherFinal, otherRest, finalMoved⟩ := ih nextMoved later rest
      exact ⟨otherFinal, addAll_cons_eq_ok_iff.mpr ⟨otherNext, otherFirst, otherRest⟩, finalMoved⟩

end Moved

end Assembly

end LineAsm
