import LineAsm.Proofs.Machine.BoundedRuns
import LineAsm.Proofs.Machine.LoopStack

/-!
# The step limit

No instruction looks at the step limit, so a step does the same under every limit
(`step_withMaxSteps`), and a run under a limit is the beginning of the run under a looser
one.  Where it ends otherwise than at its limit, the other run ends with it; where it ends at
its limit, the machine that it leaves can be run on under the looser limit as if it had never
stopped (`run_resumes`).

In a compiled program the program counter never gets to the line before the first, so every
step of a machine that is not halted executes a line and counts it.  A run under a limit
therefore always ends, and it ends at the limit exactly when it has neither halted nor trapped
within the lines that the limit leaves it (`run_within_stepLimit`).
-/

set_option autoImplicit false

namespace LineAsm

/-! ## Results of runs -/

namespace Machine

/-- A machine under another step limit. -/
def withMaxSteps (machine : Machine) (limit : Option Nat) : Machine :=
  { machine with config := { machine.config with maxSteps := limit } }

end Machine

namespace Outcome

variable {σ : Type}

/-- An outcome whose machine is under another step limit. -/
def withMaxSteps (outcome : Outcome σ) (limit : Option Nat) : Outcome σ :=
  { outcome with machine := outcome.machine.withMaxSteps limit }

/-- What a run returns: how many lines the machine has executed, or the trap that stopped
it. -/
def result (outcome : Outcome σ) : Except Trap Nat :=
  match outcome.trap with
  | none => .ok outcome.machine.steps
  | some cause => .error cause

theorem result_eq_ok_iff {outcome : Outcome σ} {count : Nat} :
    outcome.result = .ok count ↔ outcome.trap = none ∧ outcome.machine.steps = count := by
  rw [result]
  cases outcome.trap <;> simp

theorem result_eq_error_iff {outcome : Outcome σ} {cause : Trap} :
    outcome.result = .error cause ↔ outcome.trap = some cause := by
  rw [result]
  cases outcome.trap <;> simp

/-- Go on from the end of a run under another step limit: a machine that was stopped at its
limit runs on, and everything else has ended. -/
def resumeFor (outcome : Outcome σ) (program : Program) (sink : Console σ) (limit : Option Nat)
    (given : Nat) : Option (Outcome σ) :=
  match outcome.trap with
  | some (.stepLimit _) =>
    (outcome.machine.withMaxSteps limit).runFor program sink given outcome.console
  | _ => some (outcome.withMaxSteps limit)

end Outcome

namespace Machine

variable {σ : Type} {program : Program} {sink : Console σ} {machine : Machine} {console : σ}
  {outcome : Outcome σ}

/-! ## Steps under another limit -/

theorem beginPass_withMaxSteps (frame : LoopFrame) (limit : Option Nat) :
    (machine.withMaxSteps limit).beginPass frame =
      (machine.beginPass frame).withMaxSteps limit := by
  unfold beginPass
  cases frame.induction <;> rfl

theorem closeLoop_withMaxSteps (header : Nat) (limit : Option Nat) :
    (machine.withMaxSteps limit).closeLoop header =
      (machine.closeLoop header).map (·.withMaxSteps limit) := by
  have loops : (machine.withMaxSteps limit).loops = machine.loops := rfl
  unfold closeLoop
  rw [loops]
  cases machine.loops.dropWhile (·.header != header) with
  | nil => rfl
  | cons frame outer =>
      simp only [beginPass_withMaxSteps]
      split <;> rfl

theorem apply_withMaxSteps (instruction : Instruction) (limit : Option Nat) :
    (machine.withMaxSteps limit).apply program instruction =
      (machine.apply program instruction).map (·.withMaxSteps limit) := by
  have values (operand : Operand) :
      (machine.withMaxSteps limit).valueOf operand = machine.valueOf operand := by
    cases operand <;> rfl
  cases instruction with
  | arithmetic op target left right =>
      simp only [apply, values]
      cases op.apply? (machine.valueOf left) (machine.valueOf right) <;> rfl
  | branch opcode condition left right line =>
      simp only [apply, values]
      change (if condition.holds (machine.registers.get left) _ = true then _ else _) = _
      split <;> rfl
  | call line =>
      have room : (machine.withMaxSteps limit).atCallLimit = machine.atCallLimit := rfl
      simp only [apply, call, room]
      split <;> rfl
  | ret =>
      have stack : (machine.withMaxSteps limit).callStack = machine.callStack := rfl
      simp only [apply, returnFromCall, stack]
      cases machine.callStack.pop? <;> rfl
  | iterFor register count closing =>
      simp only [apply]
      split <;> rfl
  | endIter header => exact closeLoop_withMaxSteps header limit
  | put target source =>
      simp only [apply, values]
      rfl
  | _ => rfl

theorem execute_withMaxSteps (instruction : Instruction) (limit : Option Nat) :
    (machine.withMaxSteps limit).execute program sink console instruction =
      (machine.execute program sink console instruction).withMaxSteps limit := by
  cases instruction with
  | write | clearScreen => rfl
  | _ =>
      simp only [execute, apply_withMaxSteps]
      cases machine.apply program _ <;> rfl

/-- **A step does the same under every step limit.** -/
theorem step_withMaxSteps (program : Program) (machine : Machine) (limit : Option Nat)
    (sink : Console σ) (console : σ) :
    (machine.withMaxSteps limit).step program sink console =
      (machine.step program sink console).withMaxSteps limit := by
  cases here : program.instruction? machine.pc with
  | none =>
      have nowhere : program.instruction? (machine.withMaxSteps limit).pc = none := here
      rw [step_eq_self here, step_eq_self nowhere]
      rfl
  | some instruction =>
      have there : program.instruction? (machine.withMaxSteps limit).pc = some instruction := here
      rw [step_eq here, step_eq there, ← execute_withMaxSteps]
      rfl

/-- Only a run is stopped at a step limit, not a step. -/
theorem trap_ne_stepLimit (machine : Machine) (sink : Console σ) (console : σ) (steps : Nat) :
    (machine.step program sink console).trap ≠ some (.stepLimit steps) := by
  cases here : program.instruction? machine.pc with
  | none =>
      rw [step_eq_self here]
      nofun
  | some instruction =>
      rw [step_eq here]
      have does := does_execute program sink machine.fetch console instruction
      generalize machine.fetch.execute program sink console instruction = outcome at does ⊢
      cases does with
      | acts => nofun
      | writes item =>
          dsimp only
          cases (sink.write (item.text machine.fetch.registers) console).2 <;> nofun
      | clears =>
          dsimp only
          cases (sink.clear console).2 <;> nofun
      | traps traps => cases traps <;> nofun

/-! ## Resuming a run -/

/-- A run ends with an outcome when there is a number of steps that suffices for it. -/
def EndsWith (program : Program) (sink : Console σ) (machine : Machine) (console : σ)
    (outcome : Outcome σ) : Prop :=
  ∃ given, machine.runFor program sink given console = some outcome

/-- Where a run has ended otherwise than at its limit, there is nothing to resume. -/
theorem resumeFor_of_ended (ended : ∀ steps, outcome.trap ≠ some (.stepLimit steps))
    (limit : Option Nat) (given : Nat) :
    outcome.resumeFor program sink limit given = some (outcome.withMaxSteps limit) := by
  rw [Outcome.resumeFor]
  split
  · rename_i steps limited
    exact absurd limited (ended steps)
  · rfl

/-- A machine that is below its limit is below a looser one. -/
theorem atStepLimit_of_looser {limit : Nat} {later : Option Nat}
    (limited : machine.config.maxSteps = some limit) (looser : ∀ bound ∈ later, limit ≤ bound)
    (below : machine.atStepLimit = false) : (machine.withMaxSteps later).atStepLimit = false := by
  cases later with
  | none => rfl
  | some bound =>
      rw [atStepLimit, limited] at below
      have short : ¬ limit ≤ machine.steps := of_decide_eq_false below
      have least := looser bound rfl
      exact decide_eq_false fun full : bound ≤ machine.steps => short (Nat.le_trans least full)

/-- **A run under a looser limit comes to where a run under a limit ends**, by the steps that
this one has taken, and goes on from there. -/
theorem exists_runFor_eq_resumeFor {limit : Nat} {later : Option Nat}
    (limited : machine.config.maxSteps = some limit) (looser : ∀ bound ∈ later, limit ≤ bound)
    {given : Nat} (ended : machine.runFor program sink given console = some outcome) :
    ∃ taken, ∀ more, (machine.withMaxSteps later).runFor program sink (taken + more) console =
      outcome.resumeFor program sink later more := by
  induction given using Nat.strongRecOn generalizing machine console with
  | ind given ih =>
      have turn := turn_runFor program sink given machine console
      generalize same : machine.runFor program sink given console = ending at turn
      rw [ended] at same
      cases turn with
      | halted halts =>
          obtain rfl := Option.some.inj same
          have halts' : (machine.withMaxSteps later).isHalted program = true := halts
          exact ⟨0, fun more => runFor_of_isHalted halts' (0 + more)⟩
      | limited running full =>
          -- The machine has taken no step since, so the looser run goes on from itself.
          obtain rfl := Option.some.inj same
          exact ⟨0, fun more => by rw [Nat.zero_add]; rfl⟩
      | unfinished => cases same
      | trapped running below traps =>
          obtain rfl := Option.some.inj same
          have running' : (machine.withMaxSteps later).isHalted program = false := running
          have alike := step_withMaxSteps program machine later sink console
          have traps' : ((machine.withMaxSteps later).step program sink console).trap ≠ none := by
            rw [alike]
            exact traps
          refine ⟨1, fun more => ?_⟩
          rw [Nat.add_comm, runFor_succ_of_trap running'
            (atStepLimit_of_looser limited looser below) traps', alike,
            resumeFor_of_ended (trap_ne_stepLimit machine sink console)]
      | @passes given next after running below stepped =>
          have running' : (machine.withMaxSteps later).isHalted program = false := running
          have alike := step_withMaxSteps program machine later sink console
          rw [stepped] at alike
          obtain ⟨taken, goesOn⟩ := ih given (Nat.lt_succ_self given)
            ((congrArg Config.maxSteps (config_of_step stepped)).trans limited) same.symm
          refine ⟨taken + 1, fun more => ?_⟩
          rw [Nat.add_right_comm, runFor_succ_of_step running'
            (atStepLimit_of_looser limited looser below) alike]
          exact goesOn more

/-- **A step limit only observes, and a run that it has stopped can be resumed.**  Let a run
under a limit end with an outcome, and let another limit be looser.  When the run has not
ended at its limit, the run from the same machine under the other limit ends with the same
outcome.  When it has, the stopped machine under the other limit ends as the first machine
does under it, and runs forever when that one does. -/
theorem run_resumes {limit : Nat} {later : Option Nat}
    (limited : machine.config.maxSteps = some limit) (looser : ∀ bound ∈ later, limit ≤ bound)
    (ended : EndsWith program sink machine console outcome) :
    ((∀ steps, outcome.trap ≠ some (.stepLimit steps)) →
        EndsWith program sink (machine.withMaxSteps later) console (outcome.withMaxSteps later)) ∧
      ∀ steps, outcome.trap = some (.stepLimit steps) → ∀ final,
        EndsWith program sink (outcome.machine.withMaxSteps later) outcome.console final ↔
          EndsWith program sink (machine.withMaxSteps later) console final := by
  obtain ⟨given, finished⟩ := ended
  obtain ⟨taken, goesOn⟩ := exists_runFor_eq_resumeFor limited looser finished
  constructor
  · intro other
    exact ⟨taken + 0, (goesOn 0).trans (resumeFor_of_ended other later 0)⟩
  · intro steps stopped final
    have resumes (more : Nat) :
        (machine.withMaxSteps later).runFor program sink (taken + more) console =
          (outcome.machine.withMaxSteps later).runFor program sink more outcome.console := by
      rw [goesOn, Outcome.resumeFor, stopped]
    constructor
    · rintro ⟨more, ends⟩
      exact ⟨taken + more, (resumes more).trans ends⟩
    · rintro ⟨more, ends⟩
      exact ⟨more, (resumes more).symm.trans (runFor_mono (Nat.le_add_left more taken) ends)⟩

/-- A block that calls a subroutine in each of its passes. -/
def callingSource : String := "ITER_FOR |C0:2| (\nCALL f\n)\nJMP end\nf: RET\nend:\n"

/-- What it is compiled to. -/
def callingProgram : Program where
  lines := #[⟨"ITER_FOR |C0:2| (", .iterFor ⟨.c, 0⟩ 2 3⟩, ⟨"CALL 5", .call 5⟩, ⟨")", .endIter 1⟩,
    ⟨"JMP 6", .jump 6⟩, ⟨"f: RET", .ret⟩, ⟨"end:", .nop⟩]
  labels := ⟨[("end", 6), ("f", 5)]⟩

/-- The machine in the subroutine, in the first pass of the block. -/
def callingMachine : Machine :=
  { Machine.initial ⟨some 2, none⟩ with
    pc := 5, line := 2, callStack := ⟨[⟨"f", 3⟩]⟩
    registers := RegisterFile.fresh.put ⟨.c, 0⟩ 0
    loops := [⟨1, .count ⟨.c, 0⟩, 0, 1⟩], steps := 2 }

/-- The run is stopped in the subroutine; resumed, it returns to the block and ends. -/
theorem run_resumes_calling :
    EndsWith callingProgram .stream (.initial ⟨some 2, none⟩) ""
        ⟨callingMachine, "", some (.stepLimit 2)⟩ ∧
      ∃ final, final.result = .ok 9 ∧
        EndsWith callingProgram .stream (callingMachine.withMaxSteps none) "" final ∧
        EndsWith callingProgram .stream (.initial ⟨none, none⟩) "" final := by
  have ended : EndsWith callingProgram .stream (.initial ⟨some 2, none⟩) ""
      ⟨callingMachine, "", some (.stepLimit 2)⟩ := ⟨2, rfl⟩
  have unlimited : ((initial ⟨none, none⟩).runFor callingProgram .stream 9 "").map Outcome.result =
      some (.ok 9) := by decide +kernel
  obtain ⟨final, finished, result⟩ := Option.map_eq_some_iff.mp unlimited
  have looser : ∀ bound ∈ (none : Option Nat), 2 ≤ bound := nofun
  have resumed := (run_resumes rfl looser ended).2 2 rfl final
  exact ⟨ended, final, result, resumed.mpr ⟨9, finished⟩, 9, finished⟩

/-! ## Every line is counted -/

/-- A machine that is not halted has a line to execute, unless its program counter is at the
line before the first. -/
theorem exists_instruction_of_running (counter : 1 ≤ machine.pc)
    (running : machine.isHalted program = false) :
    ∃ instruction, program.instruction? machine.pc = some instruction := by
  have inside : machine.pc ≤ program.size := Nat.le_of_not_lt (of_decide_eq_false running)
  exact Program.exists_instruction_of_hasLine (Program.hasLine_iff.mpr ⟨counter, inside⟩)

/-- A step at a line counts the line, also when it traps. -/
theorem steps_of_step {instruction : Instruction}
    (here : program.instruction? machine.pc = some instruction) (sink : Console σ) (console : σ) :
    (machine.step program sink console).machine.steps = machine.steps + 1 := by
  rw [step_eq here]
  have does := does_execute program sink machine.fetch console instruction
  generalize machine.fetch.execute program sink console instruction = outcome at does
  cases does with
  | acts acts => exact acts.keeps.2.1
  | _ => rfl

/-- A machine under a limit is at it when it has executed as many lines, or more. -/
theorem atStepLimit_eq_decide {limit : Nat} (limited : machine.config.maxSteps = some limit) :
    machine.atStepLimit = decide (limit ≤ machine.steps) := by
  rw [atStepLimit, limited]

section Compiled

variable {form : ProgramForm} {text : String} (compiled : Program.compile form text = .ok program)
include compiled

/-- **As many lines are counted as steps are taken.** -/
theorem Orderly.steps_of_advances {count : Nat} {first last : Machine × σ}
    (orderly : Orderly program first.1) (advances : Advances program sink count first last) :
    last.1.steps = first.1.steps + count := by
  induction advances with
  | start => rfl
  | @step count first next last running stepped _ ih =>
      obtain ⟨instruction, here⟩ := exists_instruction_of_running orderly.counter running
      have counted := steps_of_step here sink first.2
      rw [stepped] at counted
      change next.1.steps = first.1.steps + 1 at counted
      rw [ih (orderly.step compiled stepped), counted]
      omega

/-- **A bounded run takes the steps that its limit leaves room for**, and goes on from
there. -/
theorem Orderly.runFor_of_advances {limit count : Nat} {first last : Machine × σ}
    (orderly : Orderly program first.1) (limited : first.1.config.maxSteps = some limit)
    (advances : Advances program sink count first last) (room : count ≤ limit - first.1.steps)
    (more : Nat) :
    first.1.runFor program sink (count + more) first.2 =
      last.1.runFor program sink more last.2 := by
  induction advances with
  | start => rw [Nat.zero_add]
  | @step count first next last running stepped later ih =>
      have below : first.1.atStepLimit = false := by
        rw [atStepLimit_eq_decide limited]
        exact decide_eq_false (by omega)
      have counted := orderly.steps_of_advances compiled (.step running stepped (.start _))
      have still : next.1.config.maxSteps = some limit :=
        (congrArg Config.maxSteps (config_of_step stepped)).trans limited
      rw [Nat.add_right_comm, runFor_succ_of_step running below stepped]
      exact ih (orderly.step compiled stepped) still (by omega)

/-- **A run under a limit ends** within the lines that the limit leaves it. -/
theorem Orderly.exists_runFor {limit : Nat} (orderly : Orderly program machine)
    (limited : machine.config.maxSteps = some limit) (sink : Console σ) (console : σ) :
    ∃ outcome, machine.runFor program sink (limit - machine.steps) console = some outcome := by
  have stands := runStands_runFor program sink (limit - machine.steps) machine console
  generalize machine.runFor program sink (limit - machine.steps) console = ending at stands ⊢
  cases stands with
  | @unfinished last advanced _ below =>
      -- Each of the steps has counted a line, so the machine is at its limit by now.
      have counted := orderly.steps_of_advances compiled advanced
      rw [atStepLimit_eq_decide (advanced.maxSteps_eq.trans limited)] at below
      have short := of_decide_eq_false below
      dsimp only at counted
      omega
  | _ => exact ⟨_, rfl⟩

end Compiled

/-! ## Where a run under a limit ends -/

/-- **What a run under a limit returns**, from a machine that has executed some lines already.
It has executed no more lines than the limit leaves it.  It has come to a halt and returns the
count of lines, or it is not halted and has come to the limit by just the steps that the limit
leaves it, or it has ended at a line that traps.  Steps to a halt or to a trap that the limit
leaves room for are taken, the last of them also. -/
structure KeepsLimit (program : Program) (sink : Console σ) (limit : Nat)
    (first : Machine × σ) (outcome : Outcome σ) : Prop where
  executed : outcome.machine.steps ≤ max limit first.1.steps
  returned : ∀ count, outcome.result = .ok count →
    outcome.machine.isHalted program = true ∧ count = outcome.machine.steps
  limited : ∀ steps, outcome.result = .error (.stepLimit steps) →
    outcome.machine.isHalted program = false ∧ steps = max limit first.1.steps ∧
      outcome.machine.steps = steps ∧
      Advances program sink (limit - first.1.steps) first (outcome.machine, outcome.console)
  halts : ∀ count last, Advances program sink count first last → count ≤ limit - first.1.steps →
    last.1.isHalted program = true → outcome = ⟨last.1, last.2, none⟩
  traps : ∀ count last, Advances program sink count first last → count < limit - first.1.steps →
    (last.1.step program sink last.2).trap ≠ none → outcome = last.1.step program sink last.2

/-- A run that returns a count of lines has come to a halt. -/
theorem isHalted_of_result_ok {given : Nat} {first : Machine × σ}
    (stands : RunStands program sink given first (some outcome)) {count : Nat}
    (ok : outcome.result = .ok count) :
    outcome.machine.isHalted program = true ∧ count = outcome.machine.steps := by
  obtain ⟨untrapped, counted⟩ := Outcome.result_eq_ok_iff.mp ok
  cases stands with
  | halted _ _ halts => exact ⟨halts, counted.symm⟩
  | limited => cases untrapped
  | trapped _ _ traps => exact (traps untrapped).elim

/-- A run that returns the trap of the step limit has come to the limit by steps alone. -/
theorem exists_advances_of_stepLimit {given : Nat} {first : Machine × σ}
    (stands : RunStands program sink given first (some outcome)) {steps : Nat}
    (limited : outcome.result = .error (.stepLimit steps)) :
    ∃ count ≤ given, Advances program sink count first (outcome.machine, outcome.console) ∧
      outcome.machine.isHalted program = false ∧ outcome.machine.atStepLimit = true ∧
      steps = outcome.machine.steps := by
  have trapped := Outcome.result_eq_error_iff.mp limited
  cases stands with
  | halted => cases trapped
  | limited advanced within running full =>
      obtain rfl := Trap.stepLimit.inj (Option.some.inj trapped)
      exact ⟨_, within, advanced, running, full, rfl⟩
  | trapped => exact (trap_ne_stepLimit _ _ _ _ trapped).elim

section Compiled

variable {form : ProgramForm} {text : String} (compiled : Program.compile form text = .ok program)
include compiled

theorem Orderly.steps_le_of_stands {given : Nat} {first : Machine × σ}
    (orderly : Orderly program first.1)
    (stands : RunStands program sink given first (some outcome)) :
    outcome.machine.steps ≤ first.1.steps + given := by
  cases stands with
  | halted advanced within | limited advanced within =>
      have counted := orderly.steps_of_advances compiled advanced
      dsimp only
      omega
  | @trapped count last advanced within traps =>
      have counted := orderly.steps_of_advances compiled advanced
      have still : Orderly program last.1 :=
        orderly_of_runs compiled (advanced.runs noTrap) orderly
      obtain ⟨instruction, here⟩ :=
        exists_instruction_of_running still.counter (isHalted_of_trap traps)
      rw [steps_of_step here]
      omega

/-- **A machine in order keeps its limit.** -/
theorem Orderly.keepsLimit {limit : Nat} (orderly : Orderly program machine)
    (limited : machine.config.maxSteps = some limit)
    (finished : machine.runFor program sink (limit - machine.steps) console = some outcome) :
    KeepsLimit program sink limit (machine, console) outcome := by
  have stands := runStands_runFor program sink (limit - machine.steps) machine console
  rw [finished] at stands
  have counted {count : Nat} {last : Machine × σ}
      (advances : Advances program sink count (machine, console) last) :
      last.1.steps = machine.steps + count := orderly.steps_of_advances compiled advances
  -- The run goes on from wherever the limit leaves room to go to.
  have goesOn {count : Nat} {last : Machine × σ}
      (advances : Advances program sink count (machine, console) last)
      (room : count ≤ limit - machine.steps) :
      last.1.runFor program sink (limit - machine.steps - count) last.2 = some outcome := by
    rw [← orderly.runFor_of_advances compiled limited advances room, Nat.add_sub_cancel' room]
    exact finished
  refine ⟨?_, fun count ok => isHalted_of_result_ok stands ok, ?_, ?_, ?_⟩
  · have most := orderly.steps_le_of_stands compiled stands
    dsimp only at most ⊢
    omega
  · intro steps stopped
    obtain ⟨count, within, advanced, running, full, rfl⟩ :=
      exists_advances_of_stepLimit stands stopped
    rw [atStepLimit_eq_decide (advanced.maxSteps_eq.trans limited)] at full
    have reached := of_decide_eq_true full
    have taken := counted advanced
    dsimp only at reached taken ⊢
    obtain rfl : count = limit - machine.steps := by omega
    exact ⟨running, by omega, rfl, advanced⟩
  · intro count last advanced within halts
    have ends := goesOn advanced within
    rw [runFor_of_isHalted halts] at ends
    exact (Option.some.inj ends).symm
  · intro count last advanced within traps
    have taken := counted advanced
    have below : last.1.atStepLimit = false := by
      rw [atStepLimit_eq_decide (advanced.maxSteps_eq.trans limited)]
      dsimp only at within
      exact decide_eq_false (by omega)
    have ends := goesOn advanced (Nat.le_of_lt within)
    obtain ⟨more, room⟩ := Nat.exists_eq_add_one.mpr (Nat.sub_pos_of_lt within)
    dsimp only at room
    rw [room, runFor_succ_of_trap (isHalted_of_trap traps) below traps] at ends
    exact (Option.some.inj ends).symm

end Compiled

/-- **A step limit makes every run end, exactly at the limit.**  Under a limit, from whatever
machine steps have led to, also steps behind traps, the run ends within the lines that the
limit leaves it, whatever the console does, and its outcome keeps the limit. -/
theorem run_within_stepLimit {τ : Type} {form : ProgramForm} {text : String}
    (compiled : Program.compile form text = .ok program) {config : Config} {limit : Nat}
    (limited : config.maxSteps = some limit) {other : Console τ} {start left : τ}
    (runs : Runs program other (fun _ => True) (.initial config, start) (machine, left))
    (sink : Console σ) (console : σ) :
    ∃ outcome, machine.runFor program sink (limit - machine.steps) console = some outcome ∧
      KeepsLimit program sink limit (machine, console) outcome := by
  have orderly := orderly_of_runs compiled runs (orderly_initial program config)
  have still : machine.config.maxSteps = some limit :=
    (congrArg Config.maxSteps (config_of_runs runs)).trans limited
  obtain ⟨outcome, finished⟩ := orderly.exists_runFor compiled still sink console
  exact ⟨outcome, finished, orderly.keepsLimit compiled still finished⟩

/-- The run from the subroutine comes to its halt by just the lines that the limit leaves. -/
theorem run_within_stepLimit_calling :
    Program.compile .source callingSource = .ok callingProgram ∧
      Runs callingProgram .stream (fun _ => True) (.initial ⟨some 9, none⟩, "")
        (callingMachine.withMaxSteps (some 9), "") ∧
      ∃ outcome, (callingMachine.withMaxSteps (some 9)).runFor callingProgram .stream 7 "" =
          some outcome ∧
        outcome.result = .ok 9 ∧ outcome.machine.isHalted callingProgram = true ∧
        KeepsLimit callingProgram .stream 9 (callingMachine.withMaxSteps (some 9), "") outcome := by
  have compiled : Program.compile .source callingSource = .ok callingProgram := by decide +kernel
  have runs : Runs callingProgram .stream (fun _ => True) (.initial ⟨some 9, none⟩, "")
      (callingMachine.withMaxSteps (some 9), "") :=
    .tail (b := ({ callingMachine.withMaxSteps (some 9) with
        pc := 2, line := 1, callStack := .empty, steps := 1 }, ""))
      (.single ⟨none, rfl, fun _ _ => trivial⟩) ⟨none, rfl, fun _ _ => trivial⟩
  obtain ⟨outcome, finished, keeps⟩ := run_within_stepLimit compiled rfl runs .stream ""
  have halts : ((callingMachine.withMaxSteps (some 9)).runFor callingProgram .stream 7 "").map
      Outcome.result = some (.ok 9) := by decide +kernel
  have result : outcome.result = .ok 9 := by
    have same := congrArg (Option.map Outcome.result) finished
    exact Option.some.inj (same.symm.trans halts)
  exact ⟨compiled, runs, outcome, finished, result, (keeps.returned 9 result).1, keeps⟩

end Machine

end LineAsm
