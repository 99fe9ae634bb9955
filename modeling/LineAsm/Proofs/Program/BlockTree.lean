import LineAsm.Proofs.Program.Assembly

/-!
# The block tree of a program

A block tree is a sequence of lines in which blocks are nested.  Written from a line
on, it is a row of instructions in which every header carries the line of its closing
bracket and every closing bracket the line of its header (`BlockTree.code`).

Every assembled program is such a row (`exists_blockTree`).  The invariant of the
assembly is that the lines so far are a tree for each open header, one inside the
other, and a tree for the part behind the innermost header (`Opened`): a line without
a bracket extends the innermost tree, a header starts a new one, and a closing bracket
makes the innermost tree a block of the one around it.
-/

set_option autoImplicit false

namespace LineAsm

/-! ## Trees -/

/-- The header of a block without the line of the closing bracket. -/
inductive LoopHead where
  | through (first last target : Register)
  | count (register : Register) (passes : Int32)
  deriving DecidableEq, Repr, Inhabited

/-- The instruction of a header whose block is closed at a line. -/
def LoopHead.instruction : LoopHead → Nat → Instruction
  | .through first last target, closing => .iterThrough first last target closing
  | .count register passes, closing => .iterFor register passes closing

@[simp]
theorem LoopHead.bracket_instruction (head : LoopHead) (closing : Nat) :
    (head.instruction closing).bracket = .opening := by
  cases head <;> rfl

@[simp]
theorem LoopHead.closeAt_instruction (head : LoopHead) (old closing : Nat) :
    (head.instruction old).closeAt closing = head.instruction closing := by
  cases head <;> rfl

theorem Instruction.exists_head {instruction : Instruction}
    (opens : instruction.bracket = .opening) :
    ∃ (head : LoopHead) (closing : Nat), instruction = head.instruction closing := by
  cases instruction with
  | iterThrough first last target closing => exact ⟨.through first last target, closing, rfl⟩
  | iterFor register passes closing => exact ⟨.count register passes, closing, rfl⟩
  | _ => cases opens

/-- A sequence of lines in which blocks are nested. -/
inductive BlockTree where
  | done
  /-- A line without a bracket, and what follows it. -/
  | line (instruction : Instruction) (plain : instruction.bracket = .neither) (next : BlockTree)
  /-- A block with its header and its body, and what follows its closing bracket. -/
  | loop (head : LoopHead) (body next : BlockTree)

namespace BlockTree

/-- How many lines a tree takes. -/
def size : BlockTree → Nat
  | .done => 0
  | .line _ _ next => next.size + 1
  | .loop _ body next => body.size + next.size + 2

/-- The instructions of a tree that is written from a line on. -/
def code : BlockTree → Nat → List Instruction
  | .done, _ => []
  | .line instruction _ next, start => instruction :: next.code (start + 1)
  | .loop head body next, start =>
    head.instruction (start + body.size + 1) ::
      (body.code (start + 1) ++ .endIter start :: next.code (start + body.size + 2))

@[simp]
theorem length_code (tree : BlockTree) (start : Nat) : (tree.code start).length = tree.size := by
  induction tree generalizing start with
  | done => rfl
  | line instruction plain next ih => simp [code, size, ih]
  | loop head body next ihBody ihNext =>
      simp only [code, size, List.length_cons, List.length_append, ihBody, ihNext]
      omega

/-- One tree behind another. -/
def append : BlockTree → BlockTree → BlockTree
  | .done, later => later
  | .line instruction plain next, later => .line instruction plain (next.append later)
  | .loop head body next, later => .loop head body (next.append later)

theorem code_append (tree later : BlockTree) (start : Nat) :
    (tree.append later).code start = tree.code start ++ later.code (start + tree.size) := by
  induction tree generalizing start with
  | done => rfl
  | line instruction plain next ih =>
      have shift : start + 1 + next.size = start + (next.size + 1) := by omega
      simp only [append, code, size, ih, shift, List.cons_append]
  | loop head body next _ ih =>
      have shift : start + body.size + 2 + next.size = start + (body.size + next.size + 2) := by
        omega
      simp only [append, code, size, ih, shift, List.cons_append, List.append_assoc]

theorem head_of_instruction_eq {head other : LoopHead} {closing otherClosing : Nat}
    (same : head.instruction closing = other.instruction otherClosing) :
    head = other ∧ closing = otherClosing := by
  cases head <;> cases other <;> cases same <;> exact ⟨rfl, rfl⟩

/-- **A tree is given by its lines.** -/
theorem code_injective {tree other : BlockTree} {start : Nat}
    (same : tree.code start = other.code start) : tree = other := by
  induction tree generalizing other start with
  | done =>
      cases other with
      | done => rfl
      | line | loop => cases same
  | line instruction plain next ih =>
      cases other with
      | done => cases same
      | line =>
          obtain ⟨rfl, later⟩ := List.cons.inj same
          obtain rfl := ih later
          rfl
      | loop =>
          obtain ⟨rfl, -⟩ := List.cons.inj same
          simp at plain
  | loop head body next ihBody ihNext =>
      cases other with
      | done => cases same
      | line _ plain =>
          obtain ⟨rfl, -⟩ := List.cons.inj same
          simp at plain
      | loop otherHead otherBody otherNext =>
          -- Equal headers carry the same closing line, so the bodies have the same length.
          obtain ⟨headers, later⟩ := List.cons.inj same
          obtain ⟨rfl, closing⟩ := head_of_instruction_eq headers
          have sizes : body.size = otherBody.size := by omega
          obtain ⟨bodies, rest⟩ := List.append_inj later (by simpa using sizes)
          obtain rfl := ihBody bodies
          obtain rfl := ihNext (List.cons.inj rest).2
          rfl

end BlockTree

/-! ## Lines with open blocks -/

/-- Lines in which the headers at the given lines, innermost first, are open. -/
inductive Opened : List Nat → List Instruction → Prop where
  | outermost (tree : BlockTree) : Opened [] (tree.code 1)
  | within {headers : List Nat} {before : List Instruction} (outer : Opened headers before)
      (head : LoopHead) (closing : Nat) (tree : BlockTree) :
      Opened ((before.length + 1) :: headers)
        (before ++ head.instruction closing :: tree.code (before.length + 2))

theorem modify_length_append {α : Type} (before : List α) (here : α) (after : List α)
    (change : α → α) :
    (before ++ here :: after).modify before.length change = before ++ change here :: after := by
  induction before with
  | nil => rfl
  | cons first before ih => exact congrArg (first :: ·) ih

namespace Opened

/-- A tree may follow the lines. -/
theorem append {headers : List Nat} {lines : List Instruction} (opened : Opened headers lines)
    (tree : BlockTree) : Opened headers (lines ++ tree.code (lines.length + 1)) := by
  cases opened with
  | outermost first =>
      have joined := outermost (first.append tree)
      rw [BlockTree.code_append, Nat.add_comm 1] at joined
      rwa [BlockTree.length_code]
  | @within headers before outer head closing inner =>
      have joined := within outer head closing (inner.append tree)
      have shift : before.length + 2 + inner.size = before.length + (inner.size + 1) + 1 := by omega
      rw [BlockTree.code_append, shift] at joined
      rw [List.length_append, List.length_cons, BlockTree.length_code, List.append_assoc,
        List.cons_append]
      exact joined

theorem plain {headers : List Nat} {lines : List Instruction} (opened : Opened headers lines)
    {instruction : Instruction} (plain : instruction.bracket = .neither) :
    Opened headers (lines ++ [instruction]) :=
  opened.append (.line instruction plain .done)

theorem opening {headers : List Nat} {lines : List Instruction} (opened : Opened headers lines)
    (head : LoopHead) (closing : Nat) :
    Opened ((lines.length + 1) :: headers) (lines ++ [head.instruction closing]) :=
  opened.within head closing .done

/-- The innermost block is closed: its header learns the line of the closing bracket. -/
theorem closing {header : Nat} {headers : List Nat} {lines : List Instruction}
    (opened : Opened (header :: headers) lines) :
    Opened headers (lines.modify (header - 1) (·.closeAt (lines.length + 1)) ++
      [.endIter header]) := by
  cases opened with
  | @within _ before outer head old tree =>
      have joined := outer.append (.loop head tree .done)
      have place : before.length + 1 - 1 = before.length := rfl
      have count : (before ++ head.instruction old :: tree.code (before.length + 2)).length + 1 =
          before.length + 1 + tree.size + 1 := by
        simp only [List.length_append, List.length_cons, BlockTree.length_code]
        omega
      rw [place, count, modify_length_append, LoopHead.closeAt_instruction, List.append_assoc,
        List.cons_append]
      exact joined

end Opened

/-! ## Assembled programs -/

namespace Assembly

/-- **The invariant of the assembly.** -/
theorem opened_push {assembly next : Assembly} {text : String} {instruction : Instruction}
    (opened : Opened assembly.openHeaders assembly.instructions)
    (pushed : assembly.push text instruction = .ok next) :
    Opened next.openHeaders next.instructions := by
  rcases push_cases pushed with ⟨opens, rfl⟩ | ⟨header, outer, closes, headers, rfl⟩ | ⟨plain, rfl⟩
  · obtain ⟨head, closing, rfl⟩ := Instruction.exists_head opens
    have joined := opened.opening head closing
    simpa [instructions] using joined
  · rw [headers] at opened
    have joined := opened.closing
    rw [length_instructions] at joined
    simpa [instructions, Assembly.instructions_close] using joined
  · have joined := opened.plain plain
    simpa [instructions] using joined

theorem opened_addAll {assembly final : Assembly} {later : List String}
    (opened : Opened assembly.openHeaders assembly.instructions)
    (added : assembly.addAll later = .ok final) :
    Opened final.openHeaders final.instructions := by
  induction later generalizing assembly with
  | nil =>
      obtain rfl := Except.ok.inj added
      exact opened
  | cons text later ih =>
      obtain ⟨next, one, rest⟩ := addAll_cons_eq_ok_iff.mp added
      obtain ⟨instruction, -, pushed⟩ := add_eq_ok_iff.mp one
      exact ih (opened_push opened pushed) rest

theorem opened_of_addAll {lines : List String} {assembly : Assembly}
    (assembled : empty.addAll lines = .ok assembly) :
    Opened assembly.openHeaders assembly.instructions :=
  opened_addAll (.outermost .done) assembled

end Assembly

namespace Program

/-- The instructions of a program in the order of their lines. -/
def instructions (program : Program) : List Instruction :=
  program.lines.toList.map (·.instruction)

theorem getElem?_instructions (program : Program) (place : Nat) :
    program.instructions[place]? = program.lines[place]?.map (·.instruction) := by
  simp [instructions]

theorem instruction?_eq (program : Program) (number : Nat) :
    program.instruction? number =
      if number = 0 then none else program.instructions[number - 1]? := by
  rw [instruction?, line?]
  split
  · rfl
  · exact (getElem?_instructions program _).symm

/-- **Every assembled program is written from a block tree.** -/
theorem exists_blockTree {form : ProgramForm} {text : String} {program : Program}
    (compiled : compile form text = .ok program) :
    ∃ tree : BlockTree, program.instructions = tree.code 1 := by
  obtain ⟨resolved, -, decoded⟩ := compile_eq_ok_iff.mp compiled
  have opened := Assembly.opened_of_addAll (decodeLines_eq_ok_iff.mp decoded)
  generalize lines : Assembly.instructions ⟨program.lines, []⟩ = written at opened
  cases opened with
  | outermost tree => exact ⟨tree, lines⟩

end Program

end LineAsm
