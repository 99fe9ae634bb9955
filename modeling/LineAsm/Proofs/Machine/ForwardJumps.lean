import LineAsm.Proofs.Machine.Calls
import LineAsm.Proofs.Machine.Nesting
import LineAsm.Proofs.Machine.StepLimit

/-!
# Programs whose jumps lead forward

A program without calls whose jumps lead forward goes back at closing brackets only, to the
next pass of a block.  Blocks are nested, bodies are left and entered by jumps, and frames
are dropped and started anew, so no counter of the machine alone goes down at every step.
What goes down is the work that is left to do (`Machine.workLeft`).

The work from a line on is counted from the end of the program (`Program.work`): the line is
one step, and the lines behind it are done once, or behind a header once for each of its
passes.  The lines behind the closing bracket are counted for each pass with the body, so that
a pass may leave the body for any of them.  A machine has the work from its line on before it,
and for each of its frames the work behind the header, once for each pass that is still to
come.  Every step takes some of it away (`Orderly.workLeft_lt`), and so the run ends within
the work from the first line on (`run_ends_of_jumpsForward`).
-/

set_option autoImplicit false

namespace LineAsm

/-! ## Passes -/

/-- How many passes a header starts. -/
def Instruction.passCount : Instruction → Nat
  | .iterThrough first last target _ => (LoopHead.through first last target).passCount
  | .iterFor register passes _ => (LoopHead.count register passes).passCount
  | _ => 0

/-- How many passes of a loop are still to come behind the one that it is at. -/
def LoopFrame.passesLeft (frame : LoopFrame) : Nat :=
  (frame.last.toInt - frame.index.toInt).toNat

/-- The next pass is one of those that are still to come. -/
theorem LoopFrame.passesLeft_succ {frame : LoopFrame} (more : frame.index < frame.last) :
    { frame with index := frame.index + 1 }.passesLeft + 1 = frame.passesLeft := by
  have below := Int32.lt_iff_toInt_lt.mp more
  have number := Machine.toInt_of_checkedWord (Machine.checkedWord_succ more)
  simp only [passesLeft]
  omega

namespace Program

variable {program : Program}

/-- How many passes the header at a line starts; there are none at a line without a
header. -/
def passCount (program : Program) (line : Nat) : Nat :=
  (program.instruction? line).elim 0 Instruction.passCount

/-- Fewer passes are still to come than the header has started. -/
theorem passesLeft_lt_passCount {frame : LoopFrame} (fits : Machine.Matches program frame) :
    frame.passesLeft < program.passCount frame.header := by
  cases fits with
  | through atHeader sets started within ends =>
      rw [passCount, atHeader]
      simp only [Option.elim_some, Instruction.passCount, LoopHead.passCount, LoopFrame.passesLeft]
      omega
  | @count register passes closing atHeader sets started within ends =>
      rw [passCount, atHeader]
      simp only [Option.elim_some, Instruction.passCount, LoopHead.passCount, LoopFrame.passesLeft]
      change _ < passes.toInt.toNat
      omega

/-! ## The work from a line on -/

/-- The work in as many of the last lines of a program. -/
def workOfLast (program : Program) : Nat → Nat
  | 0 => 0
  | count + 1 =>
    1 + max 1 (program.passCount (program.size - count)) * program.workOfLast count

/-- **The work from a line on**: a bound on the steps from there that looks at no register. -/
def work (program : Program) (line : Nat) : Nat :=
  program.workOfLast (program.size + 1 - line)

theorem work_eq {line : Nat} (inside : line ≤ program.size) :
    program.work line = 1 + max 1 (program.passCount line) * program.work (line + 1) := by
  have here : program.size - (program.size - line) = line := by omega
  have before : program.size + 1 - line = program.size - line + 1 := by omega
  have behind : program.size + 1 - (line + 1) = program.size - line := by omega
  rw [work, work, before, behind, workOfLast, here]

/-- There is less work behind a line than from it on. -/
theorem work_succ_lt {line : Nat} (inside : line ≤ program.size) :
    program.work (line + 1) < program.work line := by
  rw [work_eq inside, Nat.lt_iff_add_one_le, Nat.add_comm]
  exact Nat.add_le_add_left (Nat.le_mul_of_pos_left _ (Nat.le_max_left 1 _)) 1

theorem work_lt_of_lt {line other : Nat} (inside : line ≤ program.size) (behind : line < other) :
    program.work other < program.work line := by
  induction other, behind using Nat.le_induction with
  | base => exact work_succ_lt inside
  | succ other behind ih =>
      refine Nat.lt_of_le_of_lt ?_ ih
      by_cases within : other ≤ program.size
      · exact Nat.le_of_lt (work_succ_lt within)
      · have none : program.size + 1 - (other + 1) = 0 := by omega
        rw [work, none]
        exact Nat.zero_le _

/-! ## Programs whose jumps lead forward -/

/-- **The jumps of a program lead forward** when it has no calls and no jump of it leads to
its own line or to one before it. -/
structure JumpsForward (program : Program) : Prop where
  noCall : ∀ {line target : Nat}, program.instruction? line ≠ some (.call target)
  forward : ∀ {line target : Nat} {instruction : Instruction},
    program.instruction? line = some instruction → instruction.target? = some target →
    line < target

/-- Whether the jumps of a program lead forward is seen line by line. -/
theorem jumpsForward_iff :
    program.JumpsForward ↔
      ∀ line ∈ program.numbers, ∀ instruction ∈ program.instruction? line,
        instruction.isCall = false ∧ ∀ target ∈ instruction.target?, line < target := by
  constructor
  · intro jumps line inside instruction here
    refine ⟨?_, fun target leads => jumps.forward here leads⟩
    cases instruction with
    | call target => exact (jumps.noCall here).elim
    | _ => rfl
  · intro checked
    constructor
    · intro line target here
      have other := (checked line (mem_numbers_of_instruction? here) _ here).1
      cases other
    · intro line target instruction here leads
      exact (checked line (mem_numbers_of_instruction? here) instruction here).2 target leads

instance (program : Program) : Decidable program.JumpsForward :=
  decidable_of_iff _ jumpsForward_iff.symm

/-- A stack without calls stays empty where no line is a call. -/
theorem JumpsForward.callStack_of_step {σ : Type} {sink : Console σ} {machine next : Machine}
    {console after : σ} {trap : Option Trap} (jumps : program.JumpsForward)
    (uncalled : machine.callStack = .empty)
    (stepped : machine.step program sink console = ⟨next, after, trap⟩) :
    next.callStack = .empty := by
  cases Machine.stackChange_of_step stepped with
  | keeps same => exact same.trans uncalled
  | calls here => exact (jumps.noCall here).elim
  | returns here popped =>
      rw [uncalled] at popped
      cases popped

end Program

namespace Machine

variable {σ : Type} {program : Program} {sink : Console σ} {machine next : Machine}

/-! ## The work that is left -/

/-- The work in the passes that are still to come: the lines behind the header of each frame,
once for each of its passes. -/
def loopsWork (program : Program) : List LoopFrame → Nat
  | [] => 0
  | frame :: outer =>
    frame.passesLeft * program.work (frame.header + 1) + loopsWork program outer

theorem loopsWork_le (program : Program) {loops later : List LoopFrame}
    (kept : later.Sublist loops) : loopsWork program later ≤ loopsWork program loops := by
  induction kept with
  | slnil => exact Nat.le_refl _
  | cons frame _ ih => exact Nat.le_add_left_of_le ih
  | cons_cons frame _ ih => exact Nat.add_le_add_left ih _

/-- **The work that a machine has left**: that from its line on, and that in the passes which
are still to come. -/
def workLeft (program : Program) (machine : Machine) : Nat :=
  program.work machine.pc + loopsWork program machine.loops

/-- Control that passes to a line behind, with frames that the machine has had. -/
theorem workLeft_lt_of_pc {line : Nat} (inside : line ≤ program.size) (behind : line < next.pc)
    {loops : List LoopFrame} (kept : next.loops.Sublist loops) :
    next.workLeft program < program.work line + loopsWork program loops :=
  Nat.add_lt_add_of_lt_of_le (Program.work_lt_of_lt inside behind) (loopsWork_le program kept)

/-- Control that passes into a block: the work at the header makes up for all the passes. -/
theorem workLeft_enterLoop {frame : LoopFrame} (inside : frame.header ≤ program.size)
    (entered : machine.pc = frame.header + 1) (fits : Matches program frame) :
    (machine.enterLoop frame).workLeft program <
      program.work frame.header + loopsWork program machine.loops := by
  have few := Program.passesLeft_lt_passCount fits
  have outer := loopsWork_le program
    (List.filter_sublist (l := machine.loops) (p := (·.header != frame.header)))
  have passes : (1 + frame.passesLeft) * program.work (frame.header + 1) ≤
      max 1 (program.passCount frame.header) * program.work (frame.header + 1) :=
    Nat.mul_le_mul_right _ (by omega)
  rw [enterLoop_eq, workLeft, loopsWork, Program.work_eq inside]
  simp only [entered]
  rw [Nat.add_mul, Nat.one_mul] at passes
  omega

/-- The frame that a closing bracket finds is that of its block. -/
theorem header_of_dropWhile {header : Nat} {frame : LoopFrame} {outer loops : List LoopFrame}
    (active : loops.dropWhile (·.header != header) = frame :: outer) : frame.header = header := by
  have stops := List.head?_dropWhile_not (·.header != header) loops
  rw [active] at stops
  exact bne_eq_false_iff_eq.mp stops

/-- Control that goes back to a block: the next pass is one of those that were to come. -/
theorem loopsWork_again (program : Program) {frame : LoopFrame} {outer loops : List LoopFrame}
    (top : (frame :: outer).Sublist loops) (more : frame.index < frame.last) :
    program.work (frame.header + 1) +
        loopsWork program ({ frame with index := frame.index + 1 } :: outer) ≤
      loopsWork program loops := by
  have before := loopsWork_le program top
  rw [loopsWork, ← LoopFrame.passesLeft_succ more, Nat.add_mul, Nat.one_mul] at before
  rw [loopsWork]
  dsimp only
  omega

section Compiled

variable {form : ProgramForm} {text : String} (compiled : Program.compile form text = .ok program)
  (jumps : program.JumpsForward)
include compiled jumps

/-- **Acting takes some of the work away.** -/
theorem workLeft_lt_of_acts {instruction : Instruction}
    (here : program.instruction? machine.pc = some instruction)
    (inside : machine.pc ≤ program.size) (uncalled : machine.callStack = .empty)
    (acts : Acts program machine.fetch instruction next) :
    next.workLeft program < machine.workLeft program := by
  have same : machine.loops.Sublist machine.loops := .refl _
  have behind : machine.pc < machine.pc + 1 := Nat.lt_succ_self _
  cases acts with
  | straight | passed => exact workLeft_lt_of_pc inside behind same
  | jump | taken => exact workLeft_lt_of_pc inside (jumps.forward here rfl) same
  | call => exact (jumps.noCall here).elim
  | ret latest =>
      -- Without a call there is nothing to return to, so this return would have trapped.
      have none : machine.callStack.pop? = some _ := latest
      rw [uncalled] at none
      cases none
  | through => exact workLeft_enterLoop inside rfl (matches_through compiled here)
  | count register closing some =>
      exact workLeft_enterLoop inside rfl (matches_count compiled here some)
  | skip register closing =>
      -- The line behind the bracket is behind the header, as the block is closed behind it.
      have closes : program.closing? machine.pc = some closing := by
        rw [Program.closing?, here]
        rfl
      have after := Program.lt_closing compiled closes
      exact workLeft_lt_of_pc inside (Nat.lt_succ_of_lt after) List.filter_sublist
  | @again header frame outer active more =>
      have top : (frame :: outer).Sublist machine.loops := active ▸ List.dropWhile_sublist _
      obtain rfl := header_of_dropWhile active
      have again := loopsWork_again program top more
      have some := Program.work_lt_of_lt inside behind
      rw [beginPass_eq]
      simp only [workLeft]
      omega
  | @leave header frame outer active last =>
      have top : (frame :: outer).Sublist machine.loops := active ▸ List.dropWhile_sublist _
      exact workLeft_lt_of_pc inside behind ((List.sublist_cons_self ..).trans top)

/-- **A step takes some of the work away**, also when it traps. -/
theorem Orderly.workLeft_lt (orderly : Orderly program machine)
    (running : machine.isHalted program = false) (uncalled : machine.callStack = .empty)
    {console after : σ} {trap : Option Trap}
    (stepped : machine.step program sink console = ⟨next, after, trap⟩) :
    next.workLeft program < machine.workLeft program := by
  have inside : machine.pc ≤ program.size := Nat.le_of_not_lt (of_decide_eq_false running)
  obtain ⟨instruction, here⟩ := exists_instruction_of_running orderly.counter running
  rw [step_eq here] at stepped
  have does := does_execute program sink machine.fetch console instruction
  rw [stepped] at does
  cases does with
  | acts acts => exact workLeft_lt_of_acts compiled jumps here inside uncalled acts
  | writes | clears | traps => exact workLeft_lt_of_pc inside (Nat.lt_succ_self _) (.refl _)

/-- **A run takes no more steps than there is work.** -/
theorem Orderly.workLeft_add_le {count : Nat} {first last : Machine × σ}
    (orderly : Orderly program first.1) (uncalled : first.1.callStack = .empty)
    (advances : Advances program sink count first last) :
    last.1.workLeft program + count ≤ first.1.workLeft program := by
  induction advances with
  | start => exact Nat.le_refl _
  | @step count first next last running stepped _ ih =>
      have less := orderly.workLeft_lt compiled jumps running uncalled stepped
      have rest := ih (orderly.step compiled stepped) (jumps.callStack_of_step uncalled stepped)
      omega

end Compiled

/-! ## Runs -/

/-- **Only jumps backward and calls make a program run forever.**  Without a step limit, a
program without calls whose jumps lead forward comes to a halt or to a line that traps,
whatever the console does, and it does so within the work from its first line on. -/
theorem run_ends_of_jumpsForward {form : ProgramForm} {text : String}
    (compiled : Program.compile form text = .ok program) (jumps : program.JumpsForward)
    {config : Config} (unlimited : config.maxSteps = none) (sink : Console σ) (start : σ) :
    ∃ outcome, (Machine.initial config).runFor program sink (program.work 1) start = some outcome ∧
      (outcome.trap = none ∧ outcome.machine.isHalted program = true ∨
        ∃ cause, outcome.trap = some cause ∧ ∀ steps, cause ≠ .stepLimit steps) := by
  have stands := runStands_runFor program sink (program.work 1) (.initial config) start
  generalize (initial config).runFor program sink (program.work 1) start = ending at stands ⊢
  cases stands with
  | halted _ _ halts => exact ⟨_, rfl, .inl ⟨rfl, halts⟩⟩
  | limited advanced _ _ full =>
      rw [atStepLimit_of_unlimited (advanced.maxSteps_eq.trans unlimited)] at full
      cases full
  | @trapped count last _ _ traps =>
      obtain ⟨cause, caused⟩ := Option.ne_none_iff_exists'.mp traps
      refine ⟨_, rfl, .inr ⟨cause, caused, ?_⟩⟩
      rintro steps rfl
      exact trap_ne_stepLimit _ _ _ _ caused
  | @unfinished last advanced running =>
      -- All the work would be done, but there is some at the line that the machine is at.
      have spent := (orderly_initial program config).workLeft_add_le compiled jumps rfl advanced
      have more := Program.work_lt_of_lt (Nat.le_of_not_lt (of_decide_eq_false running))
        (Nat.lt_succ_self _)
      change last.1.workLeft program + program.work 1 ≤ program.work 1 + 0 at spent
      rw [workLeft] at spent
      omega

/-- Two blocks, a jump into the inner one past both headers, and a jump out of it. -/
def forwardSource : String :=
  "JE A0 1 in\nITER_FOR |C0:2| (\nITER_THROUGH |A0:A2| -> Z0 (\nJE Z0 1 out\nin: INC A1\n)\n"
    ++ "out:\n)\n"

/-- What it is compiled to. -/
def forwardProgram : Program where
  lines := #[⟨"JE A0 1 5", .branch .jumpEqual ⟨false, true, false⟩ ⟨.a, 0⟩ (.literal 1) 5⟩,
    ⟨"ITER_FOR |C0:2| (", .iterFor ⟨.c, 0⟩ 2 8⟩,
    ⟨"ITER_THROUGH |A0:A2| -> Z0 (", .iterThrough ⟨.a, 0⟩ ⟨.a, 2⟩ ⟨.z, 0⟩ 6⟩,
    ⟨"JE Z0 1 7", .branch .jumpEqual ⟨false, true, false⟩ ⟨.z, 0⟩ (.literal 1) 7⟩,
    ⟨"in: INC A1", .inc ⟨.a, 1⟩⟩, ⟨")", .endIter 3⟩, ⟨"out:", .nop⟩, ⟨")", .endIter 2⟩]
  labels := ⟨[("in", 5), ("out", 7)]⟩

theorem run_ends_of_jumpsForward_nested :
    Program.compile .source forwardSource = .ok forwardProgram ∧ forwardProgram.JumpsForward ∧
      forwardProgram.work 1 = 34 ∧
      ∃ outcome, (Machine.initial .unlimited).runFor forwardProgram .stream 34 "" = some outcome ∧
        outcome.result = .ok 21 ∧ outcome.machine.isHalted forwardProgram = true := by
  have compiled : Program.compile .source forwardSource = .ok forwardProgram := by decide +kernel
  have jumps : forwardProgram.JumpsForward := by decide +kernel
  have work : forwardProgram.work 1 = 34 := by decide +kernel
  have unlimited : Config.unlimited.maxSteps = none := rfl
  obtain ⟨outcome, finished, ending⟩ :=
    run_ends_of_jumpsForward compiled jumps unlimited .stream ""
  rw [work] at finished
  have halts : ((Machine.initial .unlimited).runFor forwardProgram .stream 34 "").map
      Outcome.result = some (.ok 21) := by decide +kernel
  rw [finished] at halts
  have result : outcome.result = .ok 21 := Option.some.inj halts
  refine ⟨compiled, jumps, work, outcome, finished, result, ?_⟩
  rcases ending with ⟨-, halted⟩ | ⟨cause, caused, -⟩
  · exact halted
  · cases (Outcome.result_eq_ok_iff.mp result).1.symm.trans caused

end Machine

end LineAsm
