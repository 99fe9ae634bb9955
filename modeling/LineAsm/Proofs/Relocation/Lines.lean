import LineAsm.Proofs.Instruction.Completeness
import LineAsm.Proofs.Label.Resolution

/-!
# Lines that name moved lines

When the lines of a program move, what their instructions name moves with them
(`Instruction.mapLines`).  A line of a source whose label stands at a moved line is resolved
to the same line with another number in it, and is read as the instruction that names the
moved line (`LabelTable.exists_resolveLine_moved`).
-/

set_option autoImplicit false

namespace LineAsm

/-! ## Instructions -/

/-- An instruction with the lines that it names moved. -/
def Instruction.mapLines (move : Nat → Nat) : Instruction → Instruction
  | .jump line => .jump (move line)
  | .branch opcode condition left right line => .branch opcode condition left right (move line)
  | .call line => .call (move line)
  | .iterThrough first last target closing => .iterThrough first last target (move closing)
  | .iterFor register count closing => .iterFor register count (move closing)
  | .endIter header => .endIter (move header)
  | other => other

section Spelled

variable {move : Nat → Nat} {opcode : Opcode} {words : List String} {instruction : Instruction}

namespace Decoding

/-- The line that an instruction names is spelled by the last operand. -/
theorem Spells.exists_target (spells : Spells opcode words instruction)
    (takes : opcode.takesLabel = true) :
    ∃ word line, words[opcode.arity - 1]? = some word ∧ target word = .ok line ∧
      instruction.target? = some line := by
  cases spells with
  | jump isLine | call isLine => exact ⟨_, _, rfl, isLine, rfl⟩
  | zeroBranch jumps _ isLine =>
      simp only [List.mem_cons, List.not_mem_nil, or_false] at jumps
      rcases jumps with rfl | rfl <;> exact ⟨_, _, rfl, isLine, rfl⟩
  | branch jumps _ _ isLine =>
      simp only [List.mem_cons, List.not_mem_nil, or_false] at jumps
      rcases jumps with rfl | rfl | rfl | rfl | rfl | rfl <;> exact ⟨_, _, rfl, isLine, rfl⟩
  | arithmetic op => cases op <;> cases takes
  | _ => cases takes

/-- With another line in the last operand, the words spell the instruction that names it. -/
theorem Spells.mapLines (spells : Spells opcode words instruction)
    (takes : opcode.takesLabel = true) {word : String}
    (leads : ∀ line, instruction.target? = some line → target word = .ok (move line)) :
    Spells opcode (words.set (opcode.arity - 1) word) (instruction.mapLines move) := by
  cases spells with
  | jump => exact .jump (leads _ rfl)
  | call => exact .call (leads _ rfl)
  | zeroBranch jumps isLeft =>
      have moved := Spells.zeroBranch jumps isLeft (leads _ rfl)
      simp only [List.mem_cons, List.not_mem_nil, or_false] at jumps
      rcases jumps with rfl | rfl <;> exact moved
  | branch jumps isLeft isRight =>
      have moved := Spells.branch jumps isLeft isRight (leads _ rfl)
      simp only [List.mem_cons, List.not_mem_nil, or_false] at jumps
      rcases jumps with rfl | rfl | rfl | rfl | rfl | rfl <;> exact moved
  | arithmetic op => cases op <;> cases takes
  | _ => cases takes

/-- Words without a label operand spell an instruction that names no line. -/
theorem Spells.mapLines_eq_self (spells : Spells opcode words instruction)
    (takesNone : opcode.takesLabel = false) (zero : move 0 = 0) :
    instruction.mapLines move = instruction := by
  cases spells with
  | jump | call => cases takesNone
  | zeroBranch jumps =>
      simp only [List.mem_cons, List.not_mem_nil, or_false] at jumps
      rcases jumps with rfl | rfl <;> cases takesNone
  | branch jumps =>
      simp only [List.mem_cons, List.not_mem_nil, or_false] at jumps
      rcases jumps with rfl | rfl | rfl | rfl | rfl | rfl <;> cases takesNone
  | iterThrough | iterFor | endIter => simp only [Instruction.mapLines, zero]
  | _ => rfl

theorem target_toString {line : Nat} (positive : 1 ≤ line) (fits : line < lineBound) :
    target (toString line) = .ok line := by
  refine target_eq_ok_iff.mpr ⟨?_, positive, fits⟩
  simpa using Text.natural?_toDigits line

end Decoding

/-! ## Words -/

/-- A statement without a label operand is read as an instruction that names no line. -/
theorem Instruction.mapLines_eq_self {statement : Statement} (zero : move 0 = 0)
    (none : statement.labelPlace? = none) (read : ofTokens statement.tokens = .ok instruction) :
    instruction.mapLines move = instruction := by
  rcases ofTokens_cases read with ⟨-, rfl⟩ | ⟨word, operands, opcode, tokens, named, spells⟩
  · rfl
  · refine spells.mapLines_eq_self ?_ zero
    simpa [Statement.labelPlace?, tokens, named, Opcode.labelPlace?] using none

/-- A statement with another line in its label operand is read as the instruction that names
that line. -/
theorem Instruction.ofTokens_mapLines {statement : Statement} {place line : Nat}
    (has : statement.labelPlace? = some place)
    (read : ofTokens (statement.tokens.set place (toString line)) = .ok instruction)
    (positive : 1 ≤ move line) (fits : move line < Decoding.lineBound) :
    ofTokens (statement.tokens.set place (toString (move line))) =
      .ok (instruction.mapLines move) := by
  obtain ⟨word, first, placed⟩ := Option.bind_eq_some_iff.mp has
  obtain ⟨opcode, named, placed⟩ := Option.bind_eq_some_iff.mp placed
  have takes : opcode.takesLabel = true ∧ opcode.arity = place := by
    simpa [Opcode.labelPlace?] using placed
  obtain ⟨operands, tokens⟩ := List.head?_eq_some_iff.mp first
  obtain ⟨last, rfl⟩ := Nat.exists_eq_succ_of_ne_zero (Statement.labelPlace?_ne_zero has)
  rw [tokens, List.set_cons_succ] at read ⊢
  rcases ofTokens_cases read with ⟨none, -⟩ | ⟨_, _, other, same, named', spells⟩
  · cases none
  · obtain ⟨rfl, rfl⟩ := List.cons.inj same
    obtain rfl := Option.some.inj (named.symm.trans named')
    have arity : opcode.arity - 1 = last := by omega
    obtain ⟨spelled, found, atLast, isLine, leads⟩ := spells.exists_target takes.1
    rw [arity] at atLast
    have inside : last < operands.length := by
      have within := (List.getElem?_eq_some_iff.mp atLast).1
      rwa [List.length_set] at within
    rw [List.getElem?_set_self inside] at atLast
    obtain rfl := Option.some.inj atLast
    obtain rfl : found = line := by
      have number := (Decoding.target_eq_ok_iff.mp isLine).1
      have written : Text.natural? (toString line).toList = some line := by
        simpa using Text.natural?_toDigits line
      exact Option.some.inj (number.symm.trans written)
    have movedLeads : ∀ other, instruction.target? = some other →
        Decoding.target (toString (move found)) = .ok (move other) := by
      intro other leads'
      obtain rfl := Option.some.inj (leads.symm.trans leads')
      exact Decoding.target_toString positive fits
    have moved := spells.mapLines takes.1 movedLeads
    rw [arity, List.set_set] at moved
    exact ofTokens_of_spells named moved

/-! ## Lines -/

/-- A line spells the instruction of another one with the lines that it names moved. -/
def SpellsMoved (move : Nat → Nat) (text other : String) : Prop :=
  ∀ instruction, Instruction.ofTokens (Statement.ofLine text).tokens = .ok instruction →
    Instruction.ofTokens (Statement.ofLine other).tokens = .ok (instruction.mapLines move)

/-- **A line of a source whose label has moved** is resolved as well, and is read as the
instruction that names the moved line. -/
theorem LabelTable.exists_resolveLine_moved {table moved : LabelTable} {line : Nat}
    {text out : String} (zero : move 0 = 0)
    (labels : ∀ name target, table.line? name = some target →
      moved.line? name = some (move target) ∧ 1 ≤ move target ∧
        move target < Decoding.lineBound)
    (done : table.resolveLine .source line text = .ok out) :
    ∃ other, (∀ line, moved.resolveLine .source line text = .ok other) ∧
      SpellsMoved move out other := by
  rcases resolveLine_cases done with
    ⟨none, rfl⟩ | ⟨place, operand, number, has, at_, found, written, read⟩
  · refine ⟨out, resolveLine_of_none none moved .source, ?_⟩
    intro instruction reads
    rw [Instruction.mapLines_eq_self zero none reads]
    exact reads
  · rcases resolveOperand_eq_ok found with ⟨already, -⟩ | ⟨-, target, defined, rfl⟩
    · cases already
    · obtain ⟨movedDefined, positive, fits⟩ := labels operand target defined
      have movedFound (line : Nat) :
          moved.resolveOperand .source line operand = .ok (toString (move target)) := by
        simp [resolveOperand, isResolved, movedDefined]
      refine ⟨_, fun line => resolveLine_of_some has at_ (movedFound line), ?_⟩
      intro instruction reads
      have wellFormed := (Statement.wellFormed_ofLine text).withToken
        (Statement.labelPlace?_ne_zero has) (Text.isDigits_toString (move target))
      rw [read] at reads
      rw [Statement.ofLine_render wellFormed]
      exact Instruction.ofTokens_mapLines has reads positive fits

end Spelled

end LineAsm
