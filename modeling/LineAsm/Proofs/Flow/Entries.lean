import LineAsm.Proofs.Flow.Blocks
import LineAsm.Proofs.Machine.InPlace

/-!
# Basic blocks partition a program and are entered at their starts

There is one block for each start of an analysis (`map_start_blocksFrom`), and each block ends
where the next one starts (`isChain_blocksFrom`).  So the blocks of a program follow each other
from its first line to its end (`partitions_blocks`).

An edge other than a fallthrough leads to a start, when it leads to a line of the program.  A
return has no edge.  It leads to the line behind a call, and that line is a start when the call
leads to a line of the program.  A call that leads past the end is no place to cut at, but no
run comes back from it.  So the invariant of a run is that, while control is at a line of the
program, every record on the call stack stands for a start (`ReturnsCut`).

Hence control goes from any line to the next one or to the start of a block
(`blocks_single_entry`).
-/

set_option autoImplicit false

namespace LineAsm.Flow

/-! ## The row of blocks -/

/-- **The blocks follow each other from the first line of a program to its end**, so that each
line lies in one of them.  An empty program has no block. -/
structure Partitions (program : Program) (blocks : List Block) : Prop where
  nonempty : ∀ block ∈ blocks, block.start < block.stop
  ascending : blocks.Pairwise fun block later => block.start < later.start
  contiguous : blocks.IsChain fun block next => block.stop = next.start
  first : blocks.head?.map (·.start) = if program.size = 0 then none else some 1
  last : blocks.getLast?.map (·.stop) = if program.size = 0 then none else some (program.size + 1)
  lines : ∀ line, program.hasLine line = true → ∃! block, block ∈ blocks ∧ block.Contains line

section Rows

variable (stop : Nat) (starts : List Nat)

theorem map_start_blocksFrom : (Analysis.blocksFrom stop starts).map (·.start) = starts := by
  fun_induction Analysis.blocksFrom stop starts with
  | case1 => rfl
  | case2 start => rfl
  | case3 start next later ih => rw [List.map_cons, ih]

theorem isChain_blocksFrom :
    (Analysis.blocksFrom stop starts).IsChain fun block next => block.stop = next.start := by
  fun_induction Analysis.blocksFrom stop starts with
  | case1 => exact .nil
  | case2 start => exact .singleton _
  | case3 start next later ih =>
      refine List.isChain_cons.mpr ⟨fun block isNext => ?_, ih⟩
      have starting := congrArg List.head? (map_start_blocksFrom stop (next :: later))
      rw [List.head?_map, Option.mem_def.mp isNext] at starting
      exact (Option.some.inj starting).symm

/-- The last block goes up to the end. -/
theorem getLast?_blocksFrom :
    (Analysis.blocksFrom stop starts).getLast?.map (·.stop) =
      if starts = [] then none else some stop := by
  fun_induction Analysis.blocksFrom stop starts with
  | case1 => rfl
  | case2 start => rfl
  | case3 start next later ih =>
      rw [if_neg (List.cons_ne_nil _ _)] at ih ⊢
      obtain ⟨block, isLast, ends⟩ := Option.map_eq_some_iff.mp ih
      rw [List.getLast?_cons, isLast, Option.getD_some, Option.map_some, ends]

end Rows

section Program

variable {program : Program}

theorem head?_starts (analysis : Analysis) :
    (analysis.starts program).head? = if program.size = 0 then none else some 1 := by
  have cut : analysis.isCut program 1 = true := by simp [Analysis.isCut]
  rw [Analysis.starts, Program.numbers]
  cases program.size with
  | zero => rfl
  | succ later =>
      rw [List.range'_succ, List.filter_cons_of_pos cut, List.head?_cons, if_neg (by omega)]

theorem starts_eq_nil_iff {analysis : Analysis} :
    analysis.starts program = [] ↔ program.size = 0 := by
  rw [← List.head?_eq_none_iff, head?_starts]
  split <;> simp [*]

/-- **The blocks of an analysis partition the program.** -/
theorem partitions_blocks (analysis : Analysis) :
    Partitions program (analysis.blocks program) where
  nonempty _ mem := (undivided_of_mem_blocks mem).nonempty
  ascending := by
    rw [← List.pairwise_map, Analysis.blocks, map_start_blocksFrom]
    exact starts_ascending
  contiguous := isChain_blocksFrom _ _
  first := by rw [← List.head?_map, Analysis.blocks, map_start_blocksFrom, head?_starts]
  last := by simp only [Analysis.blocks, getLast?_blocksFrom, starts_eq_nil_iff]
  lines _ := existsUnique_block analysis

/-! ## Where control enters a block -/

theorem exists_block_of_isCut {analysis : Analysis} {line : Nat}
    (isLine : program.hasLine line = true) (cut : analysis.isCut program line = true) :
    ∃ block ∈ analysis.blocks program, block.start = line := by
  have isStart := mem_starts_iff.mpr ⟨isLine, cut⟩
  rw [← map_start_blocksFrom (program.size + 1) (analysis.starts program)] at isStart
  exact List.mem_map.mp isStart

/-- Control is covered by the analysis; and while it is at a line of the program, the
analysis cuts the program at the line of every record on the call stack. -/
structure ReturnsCut (program : Program) (place : Nat) (stack : CallStack) : Prop
    extends Covered program place stack where
  cuts : program.hasLine place = true →
    ∀ record ∈ stack.records, (analyze program).isCut program record.line = true

theorem returnsCut_initial (program : Program) (config : Config) :
    ReturnsCut program (Machine.initial config).pc (Machine.initial config).callStack where
  toCovered := covered_initial program config
  cuts := fun _ _ mem => (nomatch mem)

section Passes

variable {line target : Nat} {stack later : CallStack} {instruction : Instruction}
  (covered : ReturnsCut program line stack)
  (here : program.instruction? line = some instruction)
  (leads : Passes line stack instruction target later)
include covered here leads

/-- **Control that passes keeps the returns cut.** -/
theorem ReturnsCut.passes : ReturnsCut program target later := by
  have visited := covered.line (hasLine_of_instruction? here)
  have cuts := covered.cuts (hasLine_of_instruction? here)
  refine ⟨covered.toCovered.passes here leads, fun inside => ?_⟩
  cases leads with
  | edge _ => exact cuts
  | call target label =>
      -- The call is an edge to a line, for control is now at one.
      have first : (target, .call) ∈ successors line (.call target) := List.mem_cons_self ..
      have calls : (⟨line, target, .call⟩ : Edge) ∈ (analyze program).edges :=
        mem_edges_iff.mpr ⟨visited, mem_edgesFrom here first⟩
      exact List.forall_mem_cons.mpr ⟨isCut_of_edge calls nofun inside (.inr rfl), cuts⟩
  | return_ latest =>
      have records := CallStack.records_of_pop? latest
      exact fun record mem => cuts record (by simp [records, mem])

/-- Control passes to the next line or to a cut. -/
theorem ReturnsCut.lands (inside : program.hasLine target = true) :
    target = line + 1 ∨ (analyze program).isCut program target = true := by
  have isLine := hasLine_of_instruction? here
  have edges : ∀ {kind : EdgeKind}, (target, kind) ∈ successors line instruction →
      (⟨line, target, kind⟩ : Edge) ∈ (analyze program).edges := fun mem =>
    mem_edges_iff.mpr ⟨covered.line isLine, mem_edgesFrom here mem⟩
  cases leads with
  | @edge _ _ kind mem =>
      by_cases falls : kind = .fallthrough
      · subst falls
        exact .inl (target_eq_of_fallthrough mem)
      · exact .inr (isCut_of_edge (edges mem) falls inside (.inl rfl))
  | call target label =>
      exact .inr (isCut_of_edge (edges (List.mem_cons_self ..)) nofun inside (.inl rfl))
  | return_ latest =>
      have records := CallStack.records_of_pop? latest
      exact .inr (covered.cuts isLine _ (by simp [records]))

end Passes

variable {σ : Type} {sink : Console σ}

theorem returnsCut_of_runs {first last : Machine × σ}
    (runs : Machine.Runs program sink (fun cause => ¬ isUnderflow cause) first last)
    (covered : ReturnsCut program first.1.pc first.1.callStack) :
    ReturnsCut program last.1.pc last.1.callStack :=
  keeps_of_passes (ReturnsCut program) ReturnsCut.passes runs covered

/-- A step goes to the next line or to a cut, also when it traps. -/
theorem ReturnsCut.lands_of_step {machine next : Machine} {console after : σ}
    {trap : Option Trap} (covered : ReturnsCut program machine.pc machine.callStack)
    (stepped : machine.step program sink console = ⟨next, after, trap⟩)
    (inside : program.hasLine next.pc = true) :
    next.pc = machine.pc + 1 ∨ (analyze program).isCut program next.pc = true := by
  cases here : program.instruction? machine.pc with
  | none =>
      rw [Machine.step_eq_self here] at stepped
      cases stepped
      obtain ⟨instruction, stands⟩ := Program.exists_instruction_of_hasLine inside
      rw [here] at stands
      cases stands
  | some instruction =>
      by_cases underflow : trap = some (.stackUnderflow machine.pc)
      · subst underflow
        rw [Machine.step_eq here] at stepped
        obtain ⟨rfl, -⟩ := Machine.eq_of_execute_of_trap stepped
        exact .inl rfl
      · exact covered.lands here (passes_of_step here stepped underflow) inside

/-- **Basic blocks partition the program and have a single entry.**  A step of a run that does
not lead to the next line leads to the start of a block or leaves the program, whether it
jumps, calls, returns, repeats a loop or skips one.  So a block is entered at its start.  The
run may go on behind any trap but that of a return without a call. -/
theorem blocks_single_entry (program : Program) :
    Partitions program ((analyze program).blocks program) ∧
      ∀ {σ : Type} (sink : Console σ) (config : Config) (start console : σ) (machine : Machine),
        Machine.Runs program sink (fun cause => ¬ isUnderflow cause)
          (.initial config, start) (machine, console) →
        ∀ next after trap, machine.step program sink console = ⟨next, after, trap⟩ →
          program.hasLine next.pc = true →
          (next.pc ≠ machine.pc + 1 →
            ∃ block ∈ (analyze program).blocks program, block.start = next.pc) ∧
          ∀ block ∈ (analyze program).blocks program, block.Contains next.pc →
            ¬ block.Contains machine.pc → block.start = next.pc := by
  refine ⟨partitions_blocks _, ?_⟩
  intro σ sink config start console machine runs next after trap stepped inside
  have covered := returnsCut_of_runs runs (returnsCut_initial program config)
  have lands := covered.lands_of_step stepped inside
  have entry : next.pc ≠ machine.pc + 1 →
      ∃ block ∈ (analyze program).blocks program, block.start = next.pc := fun moves =>
    exists_block_of_isCut inside (lands.resolve_left moves)
  refine ⟨entry, fun block mem contains outside => ?_⟩
  by_cases moves : next.pc = machine.pc + 1
  · obtain ⟨lower, upper⟩ := contains
    have before : ¬ (block.start ≤ machine.pc ∧ machine.pc < block.stop) := outside
    omega
  · obtain ⟨other, otherMem, starts⟩ := entry moves
    have nonempty := (partitions_blocks _).nonempty other otherMem
    have same := ((partitions_blocks _).lines next.pc inside).unique ⟨mem, contains⟩
      ⟨otherMem, Nat.le_of_eq starts, by omega⟩
    rw [same, starts]

/-- The return of a subroutine leads to the line behind the call, where a block starts. -/
theorem blocks_single_entry_subroutine :
    Machine.Runs subroutineProgram .stream (fun cause => ¬ isUnderflow cause)
        (.initial .unlimited, "") (subroutineMachine, "") ∧
      ∃ next, subroutineMachine.step subroutineProgram .stream "" = ⟨next, "", none⟩ ∧
        subroutineProgram.hasLine next.pc = true ∧ next.pc ≠ subroutineMachine.pc + 1 ∧
        ∃ block ∈ (analyze subroutineProgram).blocks subroutineProgram, block.start = next.pc := by
  have runs : Machine.Runs subroutineProgram .stream (fun cause => ¬ isUnderflow cause)
      (.initial .unlimited, "") (subroutineMachine, "") :=
    .single ⟨none, rfl, fun _ mem => (nomatch mem)⟩
  obtain ⟨-, enters⟩ := blocks_single_entry subroutineProgram
  have entered := enters .stream .unlimited "" "" _ runs _ _ _ rfl (by decide)
  exact ⟨runs, _, rfl, by decide, by decide, entered.1 (by decide)⟩

end Program

end LineAsm.Flow
