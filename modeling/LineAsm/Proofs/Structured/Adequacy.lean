import LineAsm.Proofs.Machine.BoundedRuns
import LineAsm.Proofs.Program.Decoded

/-!
# Loops mean what the structured text says

A compiled program without jumps, calls and returns is the text of exactly one block tree,
and running it from the start agrees with evaluating that tree (`exists_runFor_eval`): the
run ends; without an error it ends behind the last line, within no loop and with the
registers and the console of the evaluation; at an error it traps at the same line with
the same cause.

The simulation goes by induction on the tree (`agrees_eval`).  A block (`agrees_block`) is an
induction on the passes that are left (`agrees_repeatFrom`), with the frame of the block on
top of the frames around it.  The invariant is that every frame belongs to a line above the
tree, so a header finds no frame of its own and a closing bracket finds its frame on top.
-/

set_option autoImplicit false

namespace LineAsm

/-- Instructions that go to another line, blocks aside. -/
def Instruction.jumps : Instruction → Bool
  | .jump _ | .branch .. | .call _ | .ret => true
  | _ => false

theorem Instruction.straight_of_plain {instruction : Instruction}
    (plain : instruction.bracket = .neither) (stays : instruction.jumps = false) :
    instruction.straight = true := by
  cases instruction with
  | jump | branch | call | ret => cases stays
  | iterThrough | iterFor | endIter => cases plain
  | _ => rfl

/-! ## Code within a program -/

namespace Program

/-- Instructions stand in a program from a line on. -/
def Holds (program : Program) (start : Nat) (code : List Instruction) : Prop :=
  ∀ (place : Nat) (instruction : Instruction), code[place]? = some instruction →
    program.instruction? (start + place) = some instruction

variable {program : Program} {start : Nat}

theorem holds_instructions (program : Program) : program.Holds 1 program.instructions := by
  intro place instruction found
  rw [instruction?_eq, if_neg (by omega), Nat.add_sub_cancel_left, found]

theorem Holds.head {instruction : Instruction} {later : List Instruction}
    (holds : program.Holds start (instruction :: later)) :
    program.instruction? start = some instruction := holds 0 instruction rfl

theorem Holds.tail {instruction : Instruction} {later : List Instruction}
    (holds : program.Holds start (instruction :: later)) : program.Holds (start + 1) later := by
  intro place other found
  rw [Nat.add_assoc, Nat.add_comm 1]
  exact holds (place + 1) other found

theorem Holds.left {code later : List Instruction} (holds : program.Holds start (code ++ later)) :
    program.Holds start code := by
  intro place instruction found
  exact holds place instruction (List.getElem?_append_left
    (List.getElem?_eq_some_iff.mp found).1 ▸ found)

theorem Holds.right {code later : List Instruction} (holds : program.Holds start (code ++ later)) :
    program.Holds (start + code.length) later := by
  intro place instruction found
  rw [Nat.add_assoc]
  refine holds (code.length + place) instruction ?_
  rw [List.getElem?_append_right (Nat.le_add_right _ _), Nat.add_sub_cancel_left, found]

end Program

/-! ## Agreement -/

namespace Structured

variable {σ : Type} {program : Program} {sink : Console σ} {line : Nat} {loops : List LoopFrame}

/-- A run agrees with an evaluation that leads to a line.  Without an error the run comes to
the line, within the given loops; an error is a trap of the run. -/
inductive Agrees (program : Program) (sink : Console σ) (before : Machine × σ) (line : Nat)
    (loops : List LoopFrame) : Result σ → Prop where
  | reaches {after : Machine × σ} {registers : RegisterFile}
      (runs : Machine.Runs program sink Machine.noTrap before after)
      (ready : Ready after.1 line registers loops) :
      Agrees program sink before line loops ⟨registers, after.2, none⟩
  | traps {last : Machine × σ} {stopped : Machine} {console : σ} {cause : Trap}
      (runs : Machine.Runs program sink Machine.noTrap before last)
      (stops : last.1.step program sink last.2 = ⟨stopped, console, some cause⟩) :
      Agrees program sink before line loops ⟨stopped.registers, console, some cause⟩

/-- Steps without a trap may come first. -/
theorem Agrees.after_runs {before middle : Machine × σ} {result : Result σ}
    (runs : Machine.Runs program sink Machine.noTrap before middle)
    (agrees : Agrees program sink middle line loops result) :
    Agrees program sink before line loops result := by
  cases agrees with
  | reaches later ready => exact .reaches (runs.trans later) ready
  | traps later stops => exact .traps (runs.trans later) stops

theorem Agrees.after_step {machine next : Machine} {console after : σ} {result : Result σ}
    (stepped : machine.step program sink console = ⟨next, after, none⟩)
    (agrees : Agrees program sink (next, after) line loops result) :
    Agrees program sink (machine, console) line loops result :=
  agrees.after_runs (.single (.of_step stepped))

/-- One evaluation after the other. -/
theorem Agrees.andThen {before : Machine × σ} {middle : Nat} {inner : List LoopFrame}
    {first : Result σ} {next : RegisterFile → σ → Result σ}
    (agrees : Agrees program sink before middle inner first)
    (later : ∀ (machine : Machine) (registers : RegisterFile) (console : σ),
      Ready machine middle registers inner →
      Agrees program sink (machine, console) line loops (next registers console)) :
    Agrees program sink before line loops (first.andThen next) := by
  cases agrees with
  | reaches runs ready => exact (later _ _ _ ready).after_runs runs
  | traps runs stops => exact .traps runs stops

/-- **A line without control flow** agrees with its effect. -/
theorem agrees_effect {instruction : Instruction} (only : instruction.straight = true)
    (here : program.instruction? line = some instruction) {machine : Machine}
    {registers : RegisterFile} (ready : Ready machine line registers loops) (console : σ) :
    Agrees program sink (machine, console) (line + 1) loops
      (effect sink line instruction registers console) := by
  obtain ⟨next, stepped, after⟩ := step_straight only here ready sink console
  generalize effect sink line instruction registers console = result at stepped after
  obtain ⟨later, written, trap⟩ := result
  cases trap with
  | none => exact .after_step stepped (.reaches .refl after)
  | some cause =>
      obtain rfl := after.holds
      exact .traps .refl stepped

/-! ## Blocks -/

/-- **The passes that are left of a block**, of which the first has just been started. -/
theorem agrees_repeatFrom {head : LoopHead} (valid : head.Valid) {header closing : Nat}
    (close : program.instruction? closing = some (.endIter header))
    {body : RegisterFile → σ → Result σ}
    (agrees : ∀ (pass : Nat) (machine : Machine) (registers : RegisterFile) (console : σ),
      Ready machine (header + 1) registers (head.frame header pass :: loops) →
      Agrees program sink (machine, console) closing (head.frame header pass :: loops)
        (body registers console))
    {pass left : Nat} (counted : pass + (left + 1) = head.firstPass + head.passCount)
    {machine : Machine} {registers : RegisterFile} (console : σ)
    (ready : Ready machine (header + 1) (head.startPass pass registers)
      (head.frame header pass :: loops)) :
    Agrees program sink (machine, console) (closing + 1) loops
      (repeatFrom head.startPass body pass (left + 1) registers console) := by
  induction left generalizing pass machine registers console with
  | zero =>
      refine (agrees pass machine _ console ready).andThen ?_
      intro machine registers console ready
      obtain ⟨next, stepped, after⟩ := step_leave valid counted close ready sink console
      exact .after_step stepped (.reaches .refl after)
  | succ left ih =>
      refine (agrees pass machine _ console ready).andThen ?_
      intro machine registers console ready
      have more : pass + 1 < head.firstPass + head.passCount := by omega
      obtain ⟨next, stepped, after⟩ := step_again valid more close ready sink console
      exact .after_step stepped (ih (by omega) console after)

/-- **A block** agrees with its passes, from its header to behind its closing bracket. -/
theorem agrees_block {head : LoopHead} (valid : head.Valid) {header closing : Nat}
    (enter : program.instruction? header = some (head.instruction closing))
    (close : program.instruction? closing = some (.endIter header))
    (others : ∀ frame ∈ loops, frame.header ≠ header) {body : RegisterFile → σ → Result σ}
    (agrees : ∀ (pass : Nat) (machine : Machine) (registers : RegisterFile) (console : σ),
      Ready machine (header + 1) registers (head.frame header pass :: loops) →
      Agrees program sink (machine, console) closing (head.frame header pass :: loops)
        (body registers console))
    {machine : Machine} {registers : RegisterFile} (ready : Ready machine header registers loops)
    (console : σ) :
    Agrees program sink (machine, console) (closing + 1) loops
      (repeatFrom head.startPass body head.firstPass head.passCount registers console) := by
  cases count : head.passCount with
  | zero =>
      obtain ⟨next, stepped, after⟩ := step_skip valid count enter others ready sink console
      exact .after_step stepped (.reaches .refl after)
  | succ left =>
      have some : 0 < head.passCount := by omega
      obtain ⟨next, stepped, after⟩ := step_enter valid some enter others ready sink console
      exact .after_step stepped (agrees_repeatFrom valid close agrees (by omega) console after)

/-- What is needed of a tree: no jumps, and headers that the decoder has checked. -/
def Regular : BlockTree → Prop
  | .done => True
  | .line instruction _ next => instruction.straight = true ∧ Regular next
  | .loop head body next => head.Valid ∧ Regular body ∧ Regular next

/-- **Running the lines of a tree agrees with evaluating it.** -/
theorem agrees_eval {tree : BlockTree} (regular : Regular tree) {start : Nat}
    (holds : program.Holds start (tree.code start))
    (above : ∀ frame ∈ loops, frame.header < start) {machine : Machine}
    {registers : RegisterFile} (ready : Ready machine start registers loops) (console : σ) :
    Agrees program sink (machine, console) (start + tree.size) loops
      (eval sink tree start registers console) := by
  induction tree generalizing start loops machine registers console with
  | done => exact .reaches .refl ready
  | line instruction plain next ih =>
      refine (agrees_effect regular.1 holds.head ready console).andThen ?_
      intro machine registers console ready
      have later := ih regular.2 holds.tail (fun frame mem => Nat.lt_succ_of_lt (above frame mem))
        ready console
      rwa [Nat.add_assoc, Nat.add_comm 1] at later
  | loop head body next ihBody ihNext =>
      obtain ⟨valid, regularBody, regularNext⟩ := regular
      have inside := holds.tail
      have behind := inside.right
      rw [BlockTree.length_code, Nat.add_right_comm] at behind
      have close := behind.head
      have others : ∀ frame ∈ loops, frame.header ≠ start :=
        fun frame mem => Nat.ne_of_lt (above frame mem)
      have agrees (pass : Nat) (machine : Machine) (registers : RegisterFile) (console : σ)
          (ready : Ready machine (start + 1) registers (head.frame start pass :: loops)) :
          Agrees program sink (machine, console) (start + body.size + 1)
            (head.frame start pass :: loops) (eval sink body (start + 1) registers console) := by
        rw [Nat.add_right_comm]
        -- The frame of this block is above its body too.
        refine ihBody regularBody inside.left ?_ ready console
        intro frame mem
        rcases List.mem_cons.mp mem with rfl | outer
        · exact Nat.lt_succ_self start
        · exact Nat.lt_succ_of_lt (above frame outer)
      have block := agrees_block valid holds.head close others agrees ready console
      refine block.andThen ?_
      intro machine registers console ready
      have later := ihNext regularNext behind.tail
        (fun frame mem => Nat.lt_of_lt_of_le (above frame mem) (by omega)) ready console
      have place : start + body.size + 2 + next.size = start + (body.loop head next).size := by
        simp only [BlockTree.size]
        omega
      rwa [place] at later

/-! ## Programs -/

theorem regular_of_code {tree : BlockTree} {start : Nat}
    (stays : ∀ instruction ∈ tree.code start, instruction.jumps = false)
    (checked : ∀ (head : LoopHead) (closing : Nat),
      head.instruction closing ∈ tree.code start → head.Valid) : Regular tree := by
  induction tree generalizing start with
  | done => trivial
  | line instruction plain next ih =>
      have later (other : Instruction) (mem : other ∈ next.code (start + 1)) :
          other ∈ (BlockTree.line instruction plain next).code start := .tail _ mem
      exact ⟨Instruction.straight_of_plain plain (stays _ (.head _)),
        ih (fun other mem => stays other (later other mem))
          (fun head closing mem => checked head closing (later _ mem))⟩
  | loop head body next ihBody ihNext =>
      have inside (other : Instruction) (mem : other ∈ body.code (start + 1)) :
          other ∈ (BlockTree.loop head body next).code start := .tail _ (List.mem_append_left _ mem)
      have behind (other : Instruction) (mem : other ∈ next.code (start + body.size + 2)) :
          other ∈ (BlockTree.loop head body next).code start :=
        .tail _ (List.mem_append_right _ (.tail _ mem))
      exact ⟨checked head _ (.head _),
        ihBody (fun other mem => stays other (inside other mem))
          (fun head closing mem => checked head closing (inside _ mem)),
        ihNext (fun other mem => stays other (behind other mem))
          (fun head closing mem => checked head closing (behind _ mem))⟩

/-- A run ends as an evaluation does: with its registers, console and error, and without
an error behind the last line and within no loop. -/
structure EndsAs (program : Program) (outcome : Outcome σ) (result : Result σ) : Prop where
  registers : outcome.machine.registers = result.registers
  console : outcome.console = result.console
  trap : outcome.trap = result.trap
  behind : result.trap = none → outcome.machine.pc = program.size + 1 ∧ outcome.machine.loops = []

theorem exists_runFor_of_agrees {machine : Machine} {console : σ} {result : Result σ}
    (unlimited : machine.config.maxSteps = none)
    (agrees : Agrees program sink (machine, console) (program.size + 1) [] result) :
    ∃ fuel outcome, machine.runFor program sink fuel console = some outcome ∧
      EndsAs program outcome result := by
  cases agrees with
  | @reaches after registers runs ready =>
      have halted : after.1.isHalted program = true :=
        decide_eq_true (by rw [ready.atLine]; exact Nat.lt_succ_self _)
      obtain ⟨fuel, ends⟩ :=
        (Machine.exists_runFor_iff unlimited).mpr ⟨after, runs, .inl ⟨halted, rfl⟩⟩
      exact ⟨fuel, _, ends, ready.holds, rfl, rfl, fun _ => ⟨ready.atLine, ready.within⟩⟩
  | @traps last stopped written cause runs stops =>
      have trapped : (⟨stopped, written, some cause⟩ : Outcome σ).trap ≠ none :=
        Option.some_ne_none cause
      obtain ⟨fuel, ends⟩ :=
        (Machine.exists_runFor_iff unlimited).mpr ⟨last, runs, .inr ⟨trapped, stops⟩⟩
      exact ⟨fuel, _, ends, rfl, rfl, rfl, fun none => absurd none (Option.some_ne_none cause)⟩

/-- **Loops mean what the structured text says.**  A compiled program without jumps, calls
and returns is the text of one block tree, and its run without a step limit ends as the
evaluation of the tree does, on every console. -/
theorem exists_runFor_eval {form : ProgramForm} {text : String}
    (compiled : Program.compile form text = .ok program)
    (stays : ∀ instruction ∈ program.instructions, instruction.jumps = false) :
    (∃! tree : BlockTree, program.instructions = tree.code 1) ∧
      ∀ tree : BlockTree, program.instructions = tree.code 1 →
        ∀ {σ : Type} (sink : Console σ) (console : σ) (maxCallDepth : Option Nat),
          ∃ fuel outcome,
            (Machine.initial ⟨none, maxCallDepth⟩).runFor program sink fuel console = some outcome ∧
              EndsAs program outcome (eval sink tree 1 .fresh console) := by
  refine ⟨?_, ?_⟩
  · obtain ⟨tree, written⟩ := Program.exists_blockTree compiled
    exact ⟨tree, written, fun other same => BlockTree.code_injective (same.symm.trans written)⟩
  · intro tree written σ sink console maxCallDepth
    have regular : Regular tree := by
      rw [written] at stays
      exact regular_of_code stays fun head closing mem =>
        Program.valid_of_mem_instructions compiled (written ▸ mem)
    have holds : program.Holds 1 (tree.code 1) := written ▸ program.holds_instructions
    have size : 1 + tree.size = program.size + 1 := by
      rw [← BlockTree.length_code tree 1, ← written, Program.instructions, List.length_map,
        Array.length_toList, Nat.add_comm]
      rfl
    have agrees : Agrees program sink (.initial ⟨none, maxCallDepth⟩, console) (1 + tree.size) []
        (eval sink tree 1 .fresh console) :=
      agrees_eval regular holds (fun _ mem => absurd mem List.not_mem_nil) ⟨rfl, rfl, rfl⟩
        console
    rw [size] at agrees
    exact exists_runFor_of_agrees rfl agrees

/-- A block over registers within a counted block, whose body sets the counting register and
one of the registers that it goes through. -/
def nestedSource : String :=
  "ITER_FOR |C0:2| (\nITER_THROUGH |A0:A1| -> C0 (\nINC A1\n_SHOW C0\n)\n)\n"

/-- What it is compiled to. -/
def nestedProgram : Program where
  lines := #[⟨"ITER_FOR |C0:2| (", .iterFor ⟨.c, 0⟩ 2 6⟩,
    ⟨"ITER_THROUGH |A0:A1| -> C0 (", .iterThrough ⟨.a, 0⟩ ⟨.a, 1⟩ ⟨.c, 0⟩ 5⟩,
    ⟨"INC A1", .inc ⟨.a, 1⟩⟩, ⟨"_SHOW C0", .write (.decimal ⟨.c, 0⟩)⟩, ⟨")", .endIter 2⟩,
    ⟨")", .endIter 1⟩]
  labels := ⟨[]⟩

/-- Its tree. -/
def nestedTree : BlockTree :=
  .loop (.count ⟨.c, 0⟩ 2)
    (.loop (.through ⟨.a, 0⟩ ⟨.a, 1⟩ ⟨.c, 0⟩)
      (.line (.inc ⟨.a, 1⟩) rfl (.line (.write (.decimal ⟨.c, 0⟩)) rfl .done)) .done) .done

theorem exists_runFor_eval_nested :
    Program.compile .source nestedSource = .ok nestedProgram ∧
      (∀ instruction ∈ nestedProgram.instructions, instruction.jumps = false) ∧
      nestedProgram.instructions = nestedTree.code 1 ∧
      ∃ fuel outcome,
        (Machine.initial .unlimited).runFor nestedProgram .stream fuel "" = some outcome ∧
          EndsAs nestedProgram outcome (eval .stream nestedTree 1 .fresh "") := by
  have compiled : Program.compile .source nestedSource = .ok nestedProgram := by decide +kernel
  have stays : ∀ instruction ∈ nestedProgram.instructions, instruction.jumps = false := by decide
  have written : nestedProgram.instructions = nestedTree.code 1 := rfl
  exact ⟨compiled, stays, written,
    (exists_runFor_eval compiled stays).2 nestedTree written .stream "" none⟩

example : (eval .stream nestedTree 1 .fresh "").console = "0\n1\n0\n3\n" := by decide +kernel

end Structured

end LineAsm
