import LineAsm.Proofs.Flow.Soundness
import LineAsm.Proofs.Program.Decoded

/-!
# Basic blocks and the lines at which control leaves them

The blocks between ascending starts divide the lines from the first start on
(`existsUnique_block`), and none of them is divided by a start (`Undivided`).  So a block
ends behind each of its lines that is followed by a start or by the end of the program
(`stop_eq_of_isCut`).

The line behind a return is a start, and so is the line behind an edge other than a
fallthrough, when that edge leads to a line of the program.  Hence control leaves a block
at its last line or leaves the program (`blocks_single_exit`).  An edge that leads past the
end is no place to cut at: it may leave from the middle of a block
(`exit_inside_block`).
-/

set_option autoImplicit false

namespace LineAsm.Flow

/-- A line lies in a block. -/
def Block.Contains (block : Block) (line : Nat) : Prop :=
  block.start ≤ line ∧ line < block.stop

/-! ## Blocks between ascending starts -/

/-- A block goes from one of the starts to the next one or to the end, and no start
divides it. -/
structure Undivided (starts : List Nat) (stop : Nat) (block : Block) : Prop where
  start : block.start ∈ starts
  nonempty : block.start < block.stop
  bounded : block.stop ≤ stop
  ends : block.stop ∈ starts ∨ block.stop = stop
  whole : ∀ other ∈ starts, other ≤ block.start ∨ block.stop ≤ other

variable {starts : List Nat} {stop : Nat}

theorem undivided_of_mem_blocksFrom (ascending : starts.Pairwise (· < ·))
    (below : ∀ start ∈ starts, start < stop) {block : Block}
    (mem : block ∈ Analysis.blocksFrom stop starts) : Undivided starts stop block := by
  fun_induction Analysis.blocksFrom stop starts with
  | case1 => cases mem
  | case2 start =>
      obtain rfl := List.mem_singleton.mp mem
      have inside := below start (List.mem_cons_self ..)
      refine ⟨List.mem_cons_self .., inside, Nat.le_refl _, .inr rfl, ?_⟩
      intro other isStart
      exact .inl (Nat.le_of_eq (List.mem_singleton.mp isStart))
  | case3 start next later ih =>
      obtain ⟨first, rest⟩ := List.pairwise_cons.mp ascending
      have step := first next (List.mem_cons_self ..)
      rcases List.mem_cons.mp mem with rfl | mem
      · have inside := below next (List.mem_cons_of_mem _ (List.mem_cons_self ..))
        refine ⟨List.mem_cons_self .., step, Nat.le_of_lt inside, .inl (by simp), ?_⟩
        intro other isStart
        rcases List.mem_cons.mp isStart with rfl | behind
        · exact .inl (Nat.le_refl _)
        · rcases List.mem_cons.mp behind with rfl | later
          · exact .inr (Nat.le_refl _)
          · exact .inr (Nat.le_of_lt ((List.pairwise_cons.mp rest).1 other later))
      · obtain ⟨isStart, nonempty, bounded, ends, whole⟩ :=
          ih rest (fun other inside => below other (List.mem_cons_of_mem _ inside)) mem
        refine ⟨List.mem_cons_of_mem _ isStart, nonempty, bounded,
          ends.imp_left (List.mem_cons_of_mem _), ?_⟩
        intro other mem
        rcases List.mem_cons.mp mem with rfl | later
        · exact .inl (Nat.le_of_lt (first _ isStart))
        · exact whole other later

theorem exists_mem_blocksFrom (ascending : starts.Pairwise (· < ·)) {line : Nat}
    (inside : line < stop) (behind : ∃ start ∈ starts, start ≤ line) :
    ∃ block ∈ Analysis.blocksFrom stop starts, block.Contains line := by
  fun_induction Analysis.blocksFrom stop starts with
  | case1 =>
      obtain ⟨start, mem, -⟩ := behind
      cases mem
  | case2 start =>
      obtain ⟨other, mem, before⟩ := behind
      obtain rfl := List.mem_singleton.mp mem
      exact ⟨⟨other, stop⟩, List.mem_cons_self .., before, inside⟩
  | case3 start next later ih =>
      obtain ⟨first, rest⟩ := List.pairwise_cons.mp ascending
      by_cases past : next ≤ line
      · obtain ⟨block, mem, contains⟩ := ih rest ⟨next, List.mem_cons_self .., past⟩
        exact ⟨block, List.mem_cons_of_mem _ mem, contains⟩
      · obtain ⟨other, mem, before⟩ := behind
        have least : start ≤ line := by
          rcases List.mem_cons.mp mem with rfl | later
          · exact before
          · exact Nat.le_trans (Nat.le_of_lt (first other later)) before
        exact ⟨⟨start, next⟩, List.mem_cons_self .., least, Nat.lt_of_not_le past⟩

/-- Two undivided blocks with a line in common are one block. -/
theorem Undivided.eq_of_contains {block other : Block} (undivided : Undivided starts stop block)
    (otherUndivided : Undivided starts stop other) {line : Nat} (contains : block.Contains line)
    (otherContains : other.Contains line) : block = other := by
  obtain ⟨lower, upper⟩ := contains
  obtain ⟨otherLower, otherUpper⟩ := otherContains
  have sameStart : block.start = other.start := by
    have := undivided.whole other.start otherUndivided.start
    have := otherUndivided.whole block.start undivided.start
    omega
  have sameStop : block.stop = other.stop := by
    have := undivided.bounded
    have := otherUndivided.bounded
    rcases undivided.ends with isStart | last <;>
      rcases otherUndivided.ends with otherStart | otherLast
    · have := undivided.whole other.stop otherStart
      have := otherUndivided.whole block.stop isStart
      omega
    · have := otherUndivided.whole block.stop isStart
      omega
    · have := undivided.whole other.stop otherStart
      omega
    · omega
  cases block
  cases other
  exact congrArg₂ Block.mk sameStart sameStop

/-! ## The blocks of a program -/

section Program

variable {program : Program} {analysis : Analysis} {block : Block} {line : Nat}

theorem mem_starts_iff :
    line ∈ analysis.starts program ↔
      program.hasLine line = true ∧ analysis.isCut program line = true := by
  rw [Analysis.starts, List.mem_filter, Program.mem_numbers]

theorem starts_ascending : (analysis.starts program).Pairwise (· < ·) :=
  List.Pairwise.filter _ List.pairwise_lt_range'

theorem lt_of_mem_starts (isStart : line ∈ analysis.starts program) : line < program.size + 1 :=
  Nat.lt_succ_of_le (Program.hasLine_iff.mp (mem_starts_iff.mp isStart).1).2

theorem undivided_of_mem_blocks (mem : block ∈ analysis.blocks program) :
    Undivided (analysis.starts program) (program.size + 1) block :=
  undivided_of_mem_blocksFrom starts_ascending (fun _ => lt_of_mem_starts) mem

/-- **Every line of a program lies in exactly one block.** -/
theorem existsUnique_block (analysis : Analysis) (isLine : program.hasLine line = true) :
    ∃! block, block ∈ analysis.blocks program ∧ block.Contains line := by
  obtain ⟨positive, inside⟩ := Program.hasLine_iff.mp isLine
  have first : 1 ∈ analysis.starts program := by
    refine mem_starts_iff.mpr ⟨Program.hasLine_iff.mpr (by omega), ?_⟩
    simp [Analysis.isCut]
  obtain ⟨block, mem, contains⟩ :=
    exists_mem_blocksFrom starts_ascending (Nat.lt_succ_of_le inside) ⟨1, first, positive⟩
  refine ⟨block, ⟨mem, contains⟩, ?_⟩
  rintro other ⟨otherMem, otherContains⟩
  exact (undivided_of_mem_blocks otherMem).eq_of_contains (undivided_of_mem_blocks mem)
    otherContains contains

/-- **A block ends where the program is cut or ends.** -/
theorem stop_eq_of_isCut (mem : block ∈ analysis.blocks program) (contains : block.Contains line)
    (cut : line = program.size ∨ analysis.isCut program (line + 1) = true) :
    block.stop = line + 1 := by
  have undivided := undivided_of_mem_blocks mem
  obtain ⟨lower, upper⟩ := contains
  have bounded := undivided.bounded
  by_cases last : line = program.size
  · omega
  · have isCut := cut.resolve_left last
    have isStart : line + 1 ∈ analysis.starts program :=
      mem_starts_iff.mpr ⟨Program.hasLine_iff.mpr (by omega), isCut⟩
    have := undivided.whole (line + 1) isStart
    omega

/-! ## Where control leaves a block -/

theorem isCut_of_return (isReturn : line ∈ analysis.returns) :
    analysis.isCut program (line + 1) = true := by
  have cut : analysis.returns.any (fun place => line + 1 = place + 1) = true :=
    List.any_eq_true.mpr ⟨line, isReturn, decide_eq_true rfl⟩
  rw [Analysis.isCut, cut, Bool.or_true]

/-- An edge cuts the program at the line that it leads to and behind the line that it leaves. -/
theorem isCut_of_edge {edge : Edge} (mem : edge ∈ analysis.edges)
    (transfers : edge.kind ≠ .fallthrough) (inside : program.hasLine edge.target = true)
    (place : line = edge.target ∨ line = edge.source + 1) :
    analysis.isCut program line = true := by
  have cut : analysis.edges.any (fun other =>
      other.kind != .fallthrough && program.hasLine other.target
        && (line = other.target || line = other.source + 1)) = true := by
    refine List.any_eq_true.mpr ⟨edge, mem, ?_⟩
    simp [transfers, inside, place]
  rw [Analysis.isCut, cut, Bool.or_true, Bool.true_or]

/-- Control transfers from a line, by a return or by an edge other than a fallthrough,
and does not leave the program from before its last line. -/
def TransfersInside (program : Program) (line : Nat) : Prop :=
  line ∈ (analyze program).returns ∨
    ∃ edge ∈ (analyze program).edges, edge.source = line ∧ edge.kind ≠ .fallthrough ∧
      (program.hasLine edge.target = true ∨ line = program.size)

theorem stop_eq_of_transfersInside (mem : block ∈ (analyze program).blocks program)
    (contains : block.Contains line) (transfers : TransfersInside program line) :
    block.stop = line + 1 := by
  refine stop_eq_of_isCut mem contains ?_
  rcases transfers with isReturn | ⟨edge, found, rfl, transfers, inside | last⟩
  · exact .inr (isCut_of_return isReturn)
  · exact .inr (isCut_of_edge found transfers inside (.inr rfl))
  · exact .inl last

/-- A fallthrough leads to the next line. -/
theorem target_eq_of_fallthrough {target : Nat} {instruction : Instruction}
    (leads : (target, .fallthrough) ∈ successors line instruction) : target = line + 1 := by
  cases instruction with
  | ret | jump => simp [successors] at leads
  | _ => simpa [successors] using leads

/-- The places to which edges lead are counted from one. -/
theorem one_le_of_mem_successors {form : ProgramForm} {text : String}
    (compiled : Program.compile form text = .ok program) {instruction : Instruction}
    (here : program.instruction? line = some instruction) {target : Nat} {kind : EdgeKind}
    (leads : (target, kind) ∈ successors line instruction) : 1 ≤ target := by
  have named : ∀ other, instruction.target? = some other → 1 ≤ other := fun _ =>
    Program.one_le_of_target? compiled (Program.mem_instructions_of_instruction? here)
  cases instruction with
  | ret => cases leads
  | jump other | branch _ _ _ _ other | call other =>
      have positive := named other rfl
      simp only [successors, List.mem_cons, Prod.mk.injEq, List.not_mem_nil, or_false] at leads
      omega
  | _ =>
      simp only [successors, List.mem_cons, Prod.mk.injEq, List.not_mem_nil, or_false] at leads
      omega

/-- **Control leaves a block at its last line or leaves the program.**  Every line of a
program lies in one block.  A line from which control transfers is the last of its block,
unless an edge leads from it past the end of the program; and where a run goes on from
a line that is not the last of its block, it goes to the next line or past the end.  The run
may go on behind any trap but that of a return without a call. -/
theorem blocks_single_exit {form : ProgramForm} {text : String}
    (compiled : Program.compile form text = .ok program) :
    (∀ line, program.hasLine line = true →
        ∃! block, block ∈ (analyze program).blocks program ∧ block.Contains line) ∧
      (∀ block ∈ (analyze program).blocks program, ∀ line, block.Contains line →
        TransfersInside program line → block.stop = line + 1) ∧
      ∀ {σ : Type} (sink : Console σ) (config : Config) (start console : σ) (machine : Machine),
        Machine.Runs program sink (fun cause => ¬ isUnderflow cause)
          (.initial config, start) (machine, console) →
        ∀ next after, machine.step program sink console = ⟨next, after, none⟩ →
          program.hasLine machine.pc = true →
          ∀ block ∈ (analyze program).blocks program, block.Contains machine.pc →
            block.stop ≠ machine.pc + 1 →
            next.pc = machine.pc + 1 ∨ program.size < next.pc := by
  refine ⟨fun line => existsUnique_block (analyze program),
    fun block mem line contains => stop_eq_of_transfersInside mem contains, ?_⟩
  intro σ sink config start console machine runs next after stepped isLine block mem contains inner
  obtain ⟨found, atLine⟩ := Option.isSome_iff_exists.mp isLine
  have here : program.instruction? machine.pc = some found.instruction := by
    rw [Program.instruction?, atLine, Option.map_some]
  have covered := covered_of_runs runs (covered_initial program config)
  have visited := covered.line isLine
  have passes := passes_of_step here stepped (by simp)
  generalize next.pc = place at passes ⊢
  generalize next.callStack = later at passes
  have stays : ¬ TransfersInside program machine.pc := fun transfers =>
    inner (stop_eq_of_transfersInside mem contains transfers)
  have onlyFalls : ∀ target kind, (target, kind) ∈ successors machine.pc found.instruction →
      target = machine.pc + 1 ∨ program.size < target := by
    intro target kind leads
    by_cases falls : kind = .fallthrough
    · subst falls
      exact .inl (target_eq_of_fallthrough leads)
    · refine .inr (Nat.lt_of_not_le fun inside => stays (.inr ?_))
      have positive := one_le_of_mem_successors compiled here leads
      exact ⟨⟨machine.pc, target, kind⟩, mem_edges_iff.mpr ⟨visited, mem_edgesFrom here leads⟩, rfl,
        falls, .inl (Program.hasLine_iff.mpr ⟨positive, inside⟩)⟩
  generalize found.instruction = instruction at here passes onlyFalls
  cases passes with
  | edge leads => exact onlyFalls _ _ leads
  | call target label => exact onlyFalls _ _ (List.mem_cons_self ..)
  | return_ latest =>
      exact absurd (.inl (mem_returns_iff.mpr ⟨mem_reachable_iff.mpr visited, here⟩)) stays

/-- A line before a call, and a subroutine between a jump and the line that it leads to. -/
def callSource : String := "PUT A0 1\nCALL f\nJMP e\nf: RET\ne:\n"

/-- What it is compiled to. -/
def callProgram : Program where
  lines := #[⟨"PUT A0 1", .put ⟨.a, 0⟩ (.literal 1)⟩, ⟨"CALL 4", .call 4⟩, ⟨"JMP 5", .jump 5⟩,
    ⟨"f: RET", .ret⟩, ⟨"e:", .nop⟩]
  labels := ⟨[("e", 5), ("f", 4)]⟩

theorem blocks_single_exit_call :
    Program.compile .source callSource = .ok callProgram ∧
      (⟨1, 3⟩ : Block) ∈ (analyze callProgram).blocks callProgram ∧
      (TransfersInside callProgram 2 ∧ (⟨1, 3⟩ : Block).stop = 2 + 1) ∧
      ∀ next after, (Machine.initial .unlimited).step callProgram .stream "" = ⟨next, after, none⟩ →
        next.pc = 2 ∨ callProgram.size < next.pc := by
  have compiled : Program.compile .source callSource = .ok callProgram := by decide +kernel
  have blocks : (analyze callProgram).blocks callProgram =
      [⟨1, 3⟩, ⟨3, 4⟩, ⟨4, 5⟩, ⟨5, 6⟩] := by cbv
  have edges : (analyze callProgram).edges =
      [⟨1, 2, .fallthrough⟩, ⟨2, 4, .call⟩, ⟨2, 3, .fallthrough⟩, ⟨3, 5, .jump⟩,
        ⟨5, 6, .fallthrough⟩] := by cbv
  have mem : (⟨1, 3⟩ : Block) ∈ (analyze callProgram).blocks callProgram := by simp [blocks]
  have calls : (⟨2, 4, .call⟩ : Edge) ∈ (analyze callProgram).edges := by simp [edges]
  have transfers : TransfersInside callProgram 2 :=
    .inr ⟨_, calls, rfl, by decide, .inl (by decide)⟩
  obtain ⟨-, ends, goesOn⟩ := blocks_single_exit compiled
  refine ⟨compiled, mem, ⟨transfers, ends _ mem 2 ⟨by decide, by decide⟩ transfers⟩, ?_⟩
  intro next after stepped
  exact goesOn .stream .unlimited "" "" _ .refl next after stepped (by decide) _ mem
    ⟨by decide, by decide⟩ (by decide)

/-- A jump past the end before the last line. -/
def exitProgram : Program where
  lines := #[⟨"JMP 3", .jump 3⟩, ⟨"INC A0", .inc ⟨.a, 0⟩⟩]
  labels := ⟨[]⟩

/-- **A block may be left in its middle for the end of the program.**  The edge of the jump
cuts nothing, since it leads to no line. -/
theorem exit_inside_block :
    Program.compile .artifact "JMP 3\nINC A0\n" = .ok exitProgram ∧
      1 ∈ (analyze exitProgram).reachable ∧
      (⟨1, 3, .jump⟩ : Edge) ∈ (analyze exitProgram).edges ∧
      (⟨1, 3⟩ : Block) ∈ (analyze exitProgram).blocks exitProgram ∧
      ∃ next, (Machine.initial .unlimited).step exitProgram .stream "" = ⟨next, "", none⟩ ∧
        next.pc = 3 := by
  have compiled : Program.compile .artifact "JMP 3\nINC A0\n" = .ok exitProgram := by
    decide +kernel
  have edges : (analyze exitProgram).edges = [⟨1, 3, .jump⟩] := by cbv
  have blocks : (analyze exitProgram).blocks exitProgram = [⟨1, 3⟩] := by cbv
  have jumps : (⟨1, 3, .jump⟩ : Edge) ∈ (analyze exitProgram).edges := by simp [edges]
  have reachable : 1 ∈ (analyze exitProgram).reachable :=
    mem_reachable_iff.mpr (mem_edges_iff.mp jumps).1
  have mem : (⟨1, 3⟩ : Block) ∈ (analyze exitProgram).blocks exitProgram := by simp [blocks]
  exact ⟨compiled, reachable, jumps, mem, _, rfl, rfl⟩

end Program

end LineAsm.Flow
