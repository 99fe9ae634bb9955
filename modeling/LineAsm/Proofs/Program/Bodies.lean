import LineAsm.Flow.Reachability
import LineAsm.Proofs.Program.Matching
import Mathlib.Data.List.Sort

/-!
# The bodies of blocks

The body of a block is the lines behind its header, up to and with its closing bracket
(`Program.inBody`).  A block that is opened in the body of another one is closed before it
(`Program.closing_lt_closing`), so the blocks around a line stand in the order of their
headers, innermost first (`Program.around`).

The theorems of the last section say how the blocks around a line change when control
passes to the next line, enters a block, starts its next pass, leaves it or skips it.
-/

set_option autoImplicit false

namespace LineAsm

/-- The line of the closing bracket that a header carries. -/
def Instruction.closing? : Instruction → Option Nat
  | .iterThrough _ _ _ closing => some closing
  | .iterFor _ _ closing => some closing
  | _ => none

theorem Instruction.exists_head_of_closing? {instruction : Instruction} {closing : Nat}
    (carries : instruction.closing? = some closing) :
    ∃ head : LoopHead, instruction = head.instruction closing := by
  cases instruction with
  | iterThrough first last target line =>
      obtain rfl := Option.some.inj carries
      exact ⟨.through first last target, rfl⟩
  | iterFor register passes line =>
      obtain rfl := Option.some.inj carries
      exact ⟨.count register passes, rfl⟩
  | _ => cases carries

theorem LoopHead.closing?_instruction (head : LoopHead) (closing : Nat) :
    (head.instruction closing).closing? = some closing := by
  cases head <;> rfl

namespace Program

/-! ## Bodies -/

/-- The line of the closing bracket of the block with the given header. -/
def closing? (program : Program) (header : Nat) : Option Nat :=
  (program.instruction? header).bind Instruction.closing?

theorem closing?_of_instruction? {program : Program} {line closing : Nat}
    {instruction : Instruction} (here : program.instruction? line = some instruction)
    (carries : instruction.closing? = some closing) : program.closing? line = some closing := by
  rw [closing?, here]
  exact carries

/-- Whether a line lies in the body of the block with the given header. -/
def inBody (program : Program) (header line : Nat) : Bool :=
  (program.closing? header).any fun closing => header < line ∧ line ≤ closing

theorem inBody_iff {program : Program} {header line : Nat} :
    program.inBody header line = true ↔
      ∃ closing, program.closing? header = some closing ∧ header < line ∧ line ≤ closing := by
  simp [inBody, Option.any_eq_true]

section Compiled

variable {form : ProgramForm} {text : String} {program : Program}
  {header closing other otherClosing line : Nat}
  (compiled : compile form text = .ok program)
include compiled

/-- **A block** as its header, its body and its closing bracket stand in the program. -/
theorem exists_body_of_closing? (closes : program.closing? header = some closing) :
    ∃ (tree : BlockTree) (before later : List Instruction) (head : LoopHead) (body : BlockTree),
      program.instructions = tree.code 1 ∧ header = 1 + before.length ∧
      closing = header + body.size + 1 ∧
      tree.code 1 = before ++ head.instruction closing ::
        (body.code (header + 1) ++ .endIter header :: later) := by
  obtain ⟨tree, written⟩ := exists_blockTree compiled
  obtain ⟨instruction, here, carries⟩ := Option.bind_eq_some_iff.mp closes
  obtain ⟨head, rfl⟩ := Instruction.exists_head_of_closing? carries
  rw [instruction?_eq, written] at here
  split at here
  · cases here
  · rename_i positive
    obtain ⟨before, after, row, place⟩ := BlockTree.exists_append_of_getElem? here
    have atHeader : header = 1 + before.length := by omega
    obtain ⟨inner, body, later, same, rfl⟩ :=
      BlockTree.exists_block_of_opening row (by simp) atHeader
    have ends := (BlockTree.head_of_instruction_eq same).2
    exact ⟨tree, before, later, head, body, written, atHeader, ends, row⟩

/-- A block is closed behind its header. -/
theorem lt_closing (closes : program.closing? header = some closing) : header < closing := by
  obtain ⟨-, -, -, -, body, -, -, rfl, -⟩ := exists_body_of_closing? compiled closes
  omega

/-- The line that closes a block carries its header. -/
theorem instruction?_closing (closes : program.closing? header = some closing) :
    program.instruction? closing = some (.endIter header) := by
  obtain ⟨tree, before, later, head, body, written, atHeader, ends, row⟩ :=
    exists_body_of_closing? compiled closes
  have place : closing - 1 =
      (before ++ head.instruction closing :: body.code (header + 1)).length := by
    simp only [List.length_append, List.length_cons, BlockTree.length_code]
    omega
  rw [instruction?_eq, if_neg (by omega), written, row, place, ← List.cons_append,
    ← List.append_assoc]
  exact BlockTree.getElem?_append_cons_self _ _ _

/-- A closing bracket closes the block of the header that it carries. -/
theorem closing?_of_endIter (here : program.instruction? closing = some (.endIter header)) :
    program.closing? header = some closing := by
  obtain ⟨tree, written⟩ := exists_blockTree compiled
  rw [instruction?_eq, written] at here
  split at here
  · cases here
  · rename_i positive
    obtain ⟨after, head, atHeader⟩ := BlockTree.header_of_endIter here
    rw [← written, Nat.sub_add_cancel (Nat.one_le_iff_ne_zero.mpr positive)] at atHeader
    rw [closing?, instruction?_eq, if_neg (by omega), atHeader]
    exact head.closing?_instruction closing

/-- **Blocks are nested**: a block that is opened in the body of another one is closed
before it. -/
theorem closing_lt_closing (closes : program.closing? header = some closing)
    (otherCloses : program.closing? other = some otherClosing) (behind : header < other)
    (before : other < closing) : otherClosing < closing := by
  obtain ⟨tree, earlier, later, head, body, written, atHeader, ends, row⟩ :=
    exists_body_of_closing? compiled closes
  obtain ⟨instruction, here, carries⟩ := Option.bind_eq_some_iff.mp otherCloses
  obtain ⟨otherHead, rfl⟩ := Instruction.exists_head_of_closing? carries
  -- The other header stands in the body, which is a row of a tree.
  have inside : (body.code (header + 1))[other - header - 1]? =
      some (otherHead.instruction otherClosing) := by
    rw [instruction?_eq, if_neg (by omega), written, row,
      List.getElem?_append_right (by omega)] at here
    have place : other - 1 - earlier.length = (other - header - 1) + 1 := by omega
    rw [place, List.getElem?_cons_succ, List.getElem?_append_left] at here
    · exact here
    · rw [BlockTree.length_code]
      omega
  obtain ⟨first, rest, split, place⟩ := BlockTree.exists_append_of_getElem? inside
  have atOther : other = header + 1 + first.length := by omega
  obtain ⟨_, inner, last, same, rfl⟩ :=
    BlockTree.exists_block_of_opening split (by simp) atOther
  have otherEnds := (BlockTree.head_of_instruction_eq same).2
  have sizes := congrArg List.length split
  simp only [List.length_append, List.length_cons, BlockTree.length_code] at sizes
  omega

end Compiled

/-! ## The blocks around a line -/

/-- The headers of the blocks whose bodies a line lies in, innermost first. -/
def around (program : Program) (line : Nat) : List Nat :=
  program.numbers.reverse.filter (program.inBody · line)

section Around

variable {program : Program} {header line target : Nat}

theorem mem_around_iff : header ∈ program.around line ↔ program.inBody header line = true := by
  rw [around, List.mem_filter, List.mem_reverse, mem_numbers]
  refine and_iff_right_of_imp ?_
  intro inside
  obtain ⟨closing, closes, -, -⟩ := inBody_iff.mp inside
  obtain ⟨instruction, here, -⟩ := Option.bind_eq_some_iff.mp closes
  obtain ⟨found, there, -⟩ := Option.map_eq_some_iff.mp here
  exact Option.isSome_iff_exists.mpr ⟨found, there⟩

theorem lt_of_mem_around (mem : header ∈ program.around line) : header < line := by
  obtain ⟨closing, -, behind, -⟩ := inBody_iff.mp (mem_around_iff.mp mem)
  exact behind

/-- No block stands around the first line. -/
theorem around_one (program : Program) : program.around 1 = [] := by
  refine List.eq_nil_iff_forall_not_mem.mpr ?_
  intro header mem
  have before := lt_of_mem_around mem
  have inside := List.mem_reverse.mp (List.mem_of_mem_filter mem)
  have positive := (hasLine_iff.mp (mem_numbers.mp inside)).1
  omega

theorem around_descending (program : Program) (line : Nat) :
    (program.around line).Pairwise (· > ·) := by
  refine List.Pairwise.filter _ (List.pairwise_reverse.mpr ?_)
  exact List.pairwise_lt_range'

/-- A descending row is part of another one that holds all its members. -/
theorem sublist_of_descending {row whole : List Nat} (descends : row.Pairwise (· > ·))
    (wholeDescends : whole.Pairwise (· > ·)) (members : ∀ number ∈ row, number ∈ whole) :
    row.Sublist whole :=
  List.sublist_of_subperm_of_pairwise (List.subperm_of_subset descends.nodup members) descends
    wholeDescends

/-- Control that enters no body keeps the blocks around it. -/
theorem around_sublist (enters : ∀ header, program.inBody header target = true →
    program.inBody header line = true) :
    (program.around target).Sublist (program.around line) :=
  List.monotone_filter_right _ enters

/-- Behind a line that is no header stand no blocks but those around the line. -/
theorem around_succ_sublist (plain : program.closing? line = none) :
    (program.around (line + 1)).Sublist (program.around line) := by
  refine around_sublist ?_
  intro header inside
  obtain ⟨closing, closes, behind, upTo⟩ := inBody_iff.mp inside
  have different : header ≠ line := by
    rintro rfl
    rw [plain] at closes
    cases closes
  exact inBody_iff.mpr ⟨closing, closes, by omega, by omega⟩

/-- Behind a header stands its block, and the blocks around the header. -/
theorem around_succ_sublist_cons (program : Program) (line : Nat) :
    (program.around (line + 1)).Sublist (line :: program.around line) := by
  refine sublist_of_descending (program.around_descending _)
    (List.pairwise_cons.mpr ⟨fun _ mem => lt_of_mem_around mem, program.around_descending _⟩) ?_
  intro header mem
  obtain ⟨closing, closes, behind, upTo⟩ := inBody_iff.mp (mem_around_iff.mp mem)
  by_cases same : header = line
  · exact List.mem_cons.mpr (.inl same)
  · exact List.mem_cons_of_mem _ (mem_around_iff.mpr
      (inBody_iff.mpr ⟨closing, closes, by omega, by omega⟩))

variable {form : ProgramForm} {text : String} {closing : Nat}
  (compiled : compile form text = .ok program)
include compiled

/-- Behind the closing bracket of a block stand the blocks around its header. -/
theorem around_behind_sublist (closes : program.closing? header = some closing) :
    (program.around (closing + 1)).Sublist (program.around header) := by
  refine around_sublist ?_
  intro other inside
  obtain ⟨otherClosing, otherCloses, behind, upTo⟩ := inBody_iff.mp inside
  have positive := lt_closing compiled closes
  have notHeader : other ≠ header := by
    rintro rfl
    obtain rfl := Option.some.inj (closes.symm.trans otherCloses)
    omega
  have notClosing : other ≠ closing := by
    rintro rfl
    rw [closing?, instruction?_closing compiled closes] at otherCloses
    cases otherCloses
  by_cases within : header < other
  · have nested := closing_lt_closing compiled closes otherCloses within (by omega)
    omega
  · exact inBody_iff.mpr ⟨otherClosing, otherCloses, by omega, by omega⟩

/-- **The innermost block around a closing bracket** is the one that it closes.  The blocks
around the first line of its body are the same, and behind it stand the others. -/
theorem around_closing (closes : program.closing? header = some closing) :
    ∃ outer, program.around closing = header :: outer ∧
      (program.around (header + 1)).Sublist (header :: outer) ∧
      (program.around (closing + 1)).Sublist outer := by
  have positive := lt_closing compiled closes
  have inside : ∀ other, program.inBody other (header + 1) = true →
      program.inBody other closing = true := by
    intro other inside
    obtain ⟨otherClosing, otherCloses, behind, upTo⟩ := inBody_iff.mp inside
    by_cases same : other = header
    · subst same
      exact inBody_iff.mpr ⟨closing, closes, positive, Nat.le_refl _⟩
    · have nested := closing_lt_closing compiled otherCloses closes (by omega) (by omega)
      exact inBody_iff.mpr ⟨otherClosing, otherCloses, by omega, by omega⟩
  have isAround : header ∈ program.around closing :=
    mem_around_iff.mpr (inBody_iff.mpr ⟨closing, closes, positive, Nat.le_refl _⟩)
  have greatest : ∀ other ∈ program.around closing, other ≤ header := by
    intro other mem
    obtain ⟨otherClosing, otherCloses, behind, upTo⟩ := inBody_iff.mp (mem_around_iff.mp mem)
    by_contra within
    have nested := closing_lt_closing compiled closes otherCloses (by omega) behind
    omega
  have descends := program.around_descending closing
  cases row : program.around closing with
  | nil =>
      rw [row] at isAround
      cases isAround
  | cons first outer =>
      rw [row] at isAround greatest descends
      have same : first = header := by
        have least := greatest first (.head _)
        rcases List.mem_cons.mp isAround with same | later
        · exact same.symm
        · have above : first > header := (List.pairwise_cons.mp descends).1 header later
          omega
      subst same
      refine ⟨outer, rfl, row ▸ around_sublist inside, ?_⟩
      have outerDescends := (List.pairwise_cons.mp descends).2
      refine sublist_of_descending (program.around_descending _) outerDescends ?_
      intro other mem
      have before := lt_of_mem_around
        ((around_behind_sublist compiled closes).subset mem)
      have plain : program.closing? closing = none := by
        rw [closing?, instruction?_closing compiled closes]
        rfl
      have kept : other ∈ first :: outer := row ▸ (around_succ_sublist plain).subset mem
      rcases List.mem_cons.mp kept with rfl | later
      · exact absurd before (Nat.lt_irrefl _)
      · exact later

end Around

end Program

end LineAsm
