import LineAsm.Proofs.Machine.BoundedRuns
import LineAsm.Proofs.Relocation.Insertion
import LineAsm.Proofs.Structured.Steps

/-!
# Running a relocated program

A program with an empty line more does what the program without it does.  Its machine
mirrors the other one (`Mirrors`): the registers are the same, the frames have moved
headers, and control is at the moved line, or at the empty line when the other machine is at
the line behind the place (`ComesTo`).  The same holds of the lines that calls return to,
since a call is left for the line behind it.

At moved lines both machines execute the same instruction, and mirror each other afterwards
(`OutcomeMirrors`, `step_mirrors`); at the empty line one machine takes a step alone
(`step_blank`).  By induction on the lines executed, one program finishes exactly when the
other does, and in the same way (`Program.relocated_runs`).
-/

set_option autoImplicit false

namespace LineAsm

/-! ## Moved traps and frames -/

/-- A trap with its line moved. -/
def Trap.mapLine (move : Nat → Nat) : Trap → Trap
  | .divisionByZero line => .divisionByZero (move line)
  | .stackUnderflow line => .stackUnderflow (move line)
  | .stackOverflow line depth => .stackOverflow (move line) depth
  | .loopFrame line => .loopFrame (move line)
  | .stepLimit steps => .stepLimit steps
  | .console line reason => .console (move line) reason

/-- A frame with its header moved. -/
def LoopFrame.mapHeader (move : Nat → Nat) (frame : LoopFrame) : LoopFrame :=
  { frame with header := move frame.header }

section Frames

variable {move : Nat → Nat} (injective : Function.Injective move) (loops : List LoopFrame)
  (header : Nat)
include injective

theorem bne_header_mapHeader (frame : LoopFrame) :
    ((frame.mapHeader move).header != move header) = (frame.header != header) := by
  rw [Bool.eq_iff_iff, bne_iff_ne, bne_iff_ne]
  exact not_congr injective.eq_iff

theorem filter_mapHeader :
    (loops.map (·.mapHeader move)).filter (·.header != move header) =
      (loops.filter (·.header != header)).map (·.mapHeader move) := by
  rw [List.filter_map]
  congr 2
  funext frame
  exact bne_header_mapHeader injective header frame

theorem dropWhile_mapHeader :
    (loops.map (·.mapHeader move)).dropWhile (·.header != move header) =
      (loops.dropWhile (·.header != header)).map (·.mapHeader move) := by
  rw [List.dropWhile_map]
  congr 2
  funext frame
  exact bne_header_mapHeader injective header frame

end Frames

/-! ## Machines that mirror each other -/

/-- Where control comes to when a line has been put behind `place` others: to the moved line,
or to the new line on the way to the one behind it. -/
inductive ComesTo (place : Nat) : Nat → Nat → Prop where
  | moved (line : Nat) : ComesTo place line (shift place line)
  | blank : ComesTo place (place + 1) (place + 1)

theorem ComesTo.aligned_or_blank {place line other : Nat} (comes : ComesTo place line other) :
    other = shift place line ∨ line = place + 1 ∧ other = place + 1 := by
  cases comes with
  | moved => exact .inl rfl
  | blank => exact .inr ⟨rfl, rfl⟩

/-- The line behind a line is come to from the line behind the moved one. -/
theorem comesTo_succ (place line : Nat) : ComesTo place (line + 1) (shift place line + 1) := by
  rcases Nat.lt_trichotomy line place with before | rfl | behind
  · have stays : ComesTo place (line + 1) (shift place (line + 1)) := .moved _
    rw [shift_of_le before] at stays
    rw [shift_of_le (Nat.le_of_lt before)]
    exact stays
  · rw [shift_of_le (Nat.le_refl line)]
    exact .blank
  · have moves : ComesTo place (line + 1) (shift place (line + 1)) := .moved _
    rw [shift_of_lt (Nat.lt_succ_of_lt behind)] at moves
    rw [shift_of_lt behind]
    exact moves

namespace Machine

variable {place : Nat} {machine other : Machine}

/-- **The machine of a relocated program mirrors another one.** -/
structure Mirrors (place : Nat) (machine other : Machine) : Prop where
  counter : ComesTo place machine.pc other.pc
  registers : other.registers = machine.registers
  loops : other.loops = machine.loops.map (·.mapHeader (shift place))
  records : List.Forall₂ (fun record otherRecord : ReturnRecord =>
    ComesTo place record.line otherRecord.line) machine.callStack.records other.callStack.records
  config : other.config = machine.config

/-- What machines and consoles have become when one mirrors the other. -/
structure OutcomeMirrors {σ : Type} (place : Nat) (outcome other : Outcome σ) : Prop where
  machine : Mirrors place outcome.machine other.machine
  console : other.console = outcome.console
  trap : other.trap = outcome.trap.map (·.mapLine (shift place))

theorem mirrors_initial (place : Nat) (config : Config) :
    Mirrors place (.initial config) (.initial config) where
  counter := by
    cases place with
    | zero => exact .blank
    | succ place =>
        have stays : ComesTo (place + 1) 1 (shift (place + 1) 1) := .moved 1
        rwa [shift_of_le (Nat.succ_le_succ (Nat.zero_le place))] at stays
  registers := rfl
  loops := rfl
  records := .nil
  config := rfl

/-- Starting a pass sets the same registers. -/
theorem registers_beginPass (same : other.registers = machine.registers) (frame : LoopFrame)
    (move : Nat → Nat) :
    (other.beginPass (frame.mapHeader move)).registers = (machine.beginPass frame).registers := by
  unfold beginPass LoopFrame.mapHeader
  cases frame.induction <;> simp only [assign, same]

theorem Mirrors.filter_loops (mirrors : Mirrors place machine other) (header : Nat) :
    other.loops.filter (·.header != shift place header) =
      (machine.loops.filter (·.header != header)).map (·.mapHeader (shift place)) := by
  rw [mirrors.loops]
  exact filter_mapHeader (shift_strictMono place).injective machine.loops header

theorem Mirrors.dropWhile_loops (mirrors : Mirrors place machine other) (header : Nat) :
    other.loops.dropWhile (·.header != shift place header) =
      (machine.loops.dropWhile (·.header != header)).map (·.mapHeader (shift place)) := by
  rw [mirrors.loops]
  exact dropWhile_mapHeader (shift_strictMono place).injective machine.loops header

theorem Mirrors.enterLoop (mirrors : Mirrors place machine other) (frame : LoopFrame) :
    Mirrors place (machine.enterLoop frame)
      (other.enterLoop (frame.mapHeader (shift place))) := by
  rw [enterLoop_eq, enterLoop_eq]
  refine ⟨mirrors.counter, registers_beginPass mirrors.registers frame _, ?_, mirrors.records,
    mirrors.config⟩
  exact congrArg (_ :: ·) (mirrors.filter_loops frame.header)

/-- Equal registers give operands equal values. -/
theorem valueOf_congr (same : other.registers = machine.registers) (operand : Operand) :
    other.valueOf operand = machine.valueOf operand := by
  cases operand with
  | register named => exact congrArg (·.get named) same
  | literal value => rfl

theorem Mirrors.depth (mirrors : Mirrors place machine other) :
    other.callStack.depth = machine.callStack.depth :=
  mirrors.records.length_eq.symm

theorem Mirrors.atCallLimit (mirrors : Mirrors place machine other) :
    other.atCallLimit = machine.atCallLimit := by
  unfold Machine.atCallLimit
  rw [mirrors.config, mirrors.depth]

/-! ## Instructions -/

variable {σ : Type} {program moved : Program} (sink : Console σ) (console : σ)

/-- An effect on another line traps at that line. -/
theorem effect_mapLine (move : Nat → Nat) (line : Nat) (instruction : Instruction)
    (registers : RegisterFile) :
    Structured.effect sink (move line) instruction registers console =
      { Structured.effect sink line instruction registers console with
        trap := (Structured.effect sink line instruction registers console).trap.map
          (·.mapLine move) } := by
  cases instruction with
  | arithmetic op target left right =>
      simp only [Structured.effect]
      cases op.apply? (Structured.valueOf registers left) (Structured.valueOf registers right) <;>
        rfl
  | write item =>
      simp only [Structured.effect]
      cases (sink.write (item.text registers) console).2 <;> rfl
  | clearScreen =>
      simp only [Structured.effect]
      cases (sink.clear console).2 <;> rfl
  | _ => rfl

section Instructions

variable (mirrors : Mirrors place machine other) (line : other.line = shift place machine.line)
include mirrors line

/-- An instruction without control flow does the same to a machine that mirrors another one. -/
theorem execute_mirrors_straight {instruction : Instruction}
    (only : instruction.straight = true) :
    OutcomeMirrors place (machine.execute program sink console instruction)
      (other.execute moved sink console (instruction.mapLines (shift place))) := by
  have names : instruction.mapLines (shift place) = instruction := by
    cases instruction with
    | jump | branch | call | iterThrough | iterFor | endIter => cases only
    | _ => rfl
  rw [names, Structured.execute_straight only, Structured.execute_straight only, line,
    mirrors.registers, effect_mapLine]
  exact ⟨⟨mirrors.counter, rfl, mirrors.loops, mirrors.records, mirrors.config⟩, rfl, rfl⟩

/-- A call is left for the line behind the moved one. -/
theorem execute_mirrors_call (target : Nat) :
    OutcomeMirrors place (machine.execute program sink console (.call target))
      (other.execute moved sink console (.call (shift place target))) := by
  simp only [execute, apply, call, mirrors.atCallLimit, mirrors.depth]
  cases machine.atCallLimit with
  | true => exact ⟨mirrors, rfl, by rw [line]; rfl⟩
  | false =>
      have returns := comesTo_succ place machine.line
      rw [← line] at returns
      exact ⟨⟨.moved target, mirrors.registers, mirrors.loops, .cons returns mirrors.records,
        mirrors.config⟩, rfl, rfl⟩

/-- A return comes to where its call is left for. -/
theorem execute_mirrors_ret :
    OutcomeMirrors place (machine.execute program sink console .ret)
      (other.execute moved sink console .ret) := by
  have corresponds := mirrors.records
  simp only [execute, apply, returnFromCall, CallStack.pop?]
  cases records : machine.callStack.records with
  | nil =>
      rw [records] at corresponds
      simp only [List.forall₂_nil_left_iff.mp corresponds]
      exact ⟨mirrors, rfl, by rw [line]; rfl⟩
  | cons record earlier =>
      rw [records] at corresponds
      obtain ⟨otherRecord, otherEarlier, returns, later, otherRecords⟩ :=
        List.forall₂_cons_left_iff.mp corresponds
      simp only [otherRecords]
      exact ⟨⟨returns, mirrors.registers, mirrors.loops, later, mirrors.config⟩, rfl, rfl⟩

/-- A closing bracket finds the moved frame. -/
theorem execute_mirrors_endIter (header : Nat) :
    OutcomeMirrors place (machine.execute program sink console (.endIter header))
      (other.execute moved sink console (.endIter (shift place header))) := by
  simp only [execute, apply, closeLoop, mirrors.dropWhile_loops header]
  cases machine.loops.dropWhile (·.header != header) with
  | nil => exact ⟨mirrors, rfl, by rw [line]; rfl⟩
  | cons frame outer =>
      have fields : (frame.mapHeader (shift place)).index = frame.index ∧
          (frame.mapHeader (shift place)).last = frame.last := ⟨rfl, rfl⟩
      simp only [List.map_cons, fields]
      by_cases more : frame.index < frame.last
      · have started := registers_beginPass mirrors.registers
          { frame with index := frame.index + 1 } (shift place)
        simp only [if_pos more]
        rw [beginPass_eq other, beginPass_eq machine]
        exact ⟨⟨comesTo_succ place header, started, rfl, mirrors.records, mirrors.config⟩,
          rfl, rfl⟩
      · simp only [if_neg more]
        exact ⟨⟨mirrors.counter, mirrors.registers, rfl, mirrors.records, mirrors.config⟩,
          rfl, rfl⟩

/-- **A moved instruction does the same** to a machine that mirrors another one. -/
theorem execute_mirrors (instruction : Instruction) :
    OutcomeMirrors place (machine.execute program sink console instruction)
      (other.execute moved sink console (instruction.mapLines (shift place))) := by
  have same := mirrors.registers
  cases instruction with
  | jump target =>
      exact ⟨⟨.moved target, same, mirrors.loops, mirrors.records, mirrors.config⟩, rfl, rfl⟩
  | branch opcode condition left right target =>
      have value := valueOf_congr same right
      simp only [execute, apply, Instruction.mapLines, same, value]
      by_cases holds : condition.holds (machine.registers.get left) (machine.valueOf right) = true
      · simp only [if_pos holds]
        exact ⟨⟨.moved target, rfl, mirrors.loops, mirrors.records, mirrors.config⟩, rfl, rfl⟩
      · simp only [if_neg holds]
        exact ⟨mirrors, rfl, rfl⟩
  | call target => exact execute_mirrors_call sink console mirrors line target
  | ret => exact execute_mirrors_ret sink console mirrors line
  | iterThrough first last target closing =>
      have entered := mirrors.enterLoop ⟨machine.line, .through first.bank target,
        Int32.ofNat first.index, Int32.ofNat last.index⟩
      simp only [execute, apply, Instruction.mapLines, line]
      exact ⟨entered, rfl, rfl⟩
  | iterFor register count closing =>
      simp only [execute, apply, Instruction.mapLines, line]
      by_cases none : count = 0
      · simp only [if_pos none]
        exact ⟨⟨comesTo_succ place closing, same, mirrors.filter_loops machine.line,
          mirrors.records, mirrors.config⟩, rfl, rfl⟩
      · simp only [if_neg none]
        exact ⟨mirrors.enterLoop ⟨machine.line, .count register, 0, count - 1⟩, rfl, rfl⟩
  | endIter header => exact execute_mirrors_endIter sink console mirrors line header
  | _ => exact execute_mirrors_straight sink console mirrors line rfl

end Instructions

/-! ## Steps -/

theorem Mirrors.fetch (mirrors : Mirrors place machine other)
    (aligned : other.pc = shift place machine.pc) :
    Mirrors place machine.fetch other.fetch where
  counter := by
    have next := comesTo_succ place machine.pc
    rwa [← aligned] at next
  registers := mirrors.registers
  loops := mirrors.loops
  records := mirrors.records
  config := mirrors.config

/-- **At moved lines the machines step alike.** -/
theorem step_mirrors (relocated : program.Relocated place moved)
    (mirrors : Mirrors place machine other) (aligned : other.pc = shift place machine.pc) :
    OutcomeMirrors place (machine.step program sink console) (other.step moved sink console) := by
  have there := relocated.others machine.pc
  rw [← aligned] at there
  cases here : program.instruction? machine.pc with
  | none =>
      rw [here] at there
      rw [step_eq_self here, step_eq_self there]
      exact ⟨mirrors, rfl, rfl⟩
  | some instruction =>
      rw [here] at there
      rw [step_eq here, step_eq there]
      exact execute_mirrors sink console (mirrors.fetch aligned) aligned instruction

/-- The step at the empty line leads to the moved line. -/
theorem step_blank (relocated : program.Relocated place moved)
    (mirrors : Mirrors place machine other) (here : machine.pc = place + 1)
    (atBlank : other.pc = place + 1) :
    other.step moved sink console = ⟨other.fetch, console, none⟩ ∧
      Mirrors place machine other.fetch ∧ other.fetch.pc = shift place machine.pc := by
  have blank := relocated.blank
  rw [← atBlank] at blank
  have aligned : other.fetch.pc = shift place machine.pc := by
    rw [here, shift_of_lt (Nat.lt_succ_self place)]
    exact congrArg (· + 1) atBlank
  refine ⟨step_eq blank sink console, ⟨?_, mirrors.registers, mirrors.loops, mirrors.records,
    mirrors.config⟩, aligned⟩
  rw [aligned]
  exact .moved machine.pc

/-- A machine that mirrors another one comes to the moved line, at once or after the empty
line. -/
theorem exists_aligned (relocated : program.Relocated place moved)
    (mirrors : Mirrors place machine other) :
    ∃ next, Runs moved sink noTrap (other, console) (next, console) ∧
      Mirrors place machine next ∧ next.pc = shift place machine.pc := by
  rcases mirrors.counter.aligned_or_blank with aligned | ⟨here, atBlank⟩
  · exact ⟨other, .refl, mirrors, aligned⟩
  · obtain ⟨stepped, next, aligned⟩ := step_blank sink console relocated mirrors here atBlank
    exact ⟨other.fetch, .single (.of_step stepped), next, aligned⟩

/-- At moved lines one machine is halted exactly when the other is. -/
theorem isHalted_of_aligned (relocated : program.Relocated place moved)
    (aligned : other.pc = shift place machine.pc) :
    other.isHalted moved = machine.isHalted program := by
  have past : moved.size < shift place machine.pc ↔ program.size < machine.pc := by
    have inside := relocated.inside
    have size := relocated.size
    unfold shift
    split <;> omega
  unfold isHalted
  rw [aligned]
  exact decide_eq_decide.mpr past

/-- No run ends at the empty line. -/
theorem aligned_of_ends (relocated : program.Relocated place moved)
    (mirrors : Mirrors place machine other)
    (ends : other.isHalted moved = true ∨ (other.step moved sink console).trap ≠ none) :
    other.pc = shift place machine.pc := by
  rcases mirrors.counter.aligned_or_blank with aligned | ⟨here, atBlank⟩
  · exact aligned
  · rcases ends with halted | trapped
    · have past : moved.size < other.pc := of_decide_eq_true halted
      have inside := relocated.inside
      have size := relocated.size
      omega
    · rw [(step_blank sink console relocated mirrors here atBlank).1] at trapped
      exact absurd rfl trapped

/-! ## Runs -/

section Runs

variable {console} (relocated : program.Relocated place moved)
  (mirrors : Mirrors place machine other)
include relocated mirrors

/-- A run of the program is followed by the relocated program. -/
theorem exists_runs_moved {last : Machine × σ}
    (runs : Runs program sink noTrap (machine, console) last) :
    ∃ otherLast, Runs moved sink noTrap (other, console) (otherLast, last.2) ∧
      Mirrors place last.1 otherLast := by
  induction runs with
  | refl => exact ⟨other, .refl, mirrors⟩
  | @tail middle last _ step ih =>
      obtain ⟨otherMiddle, before, middleMirrors⟩ := ih
      obtain ⟨next, skips, nextMirrors, aligned⟩ :=
        exists_aligned sink middle.2 relocated middleMirrors
      have alike := step_mirrors sink middle.2 relocated nextMirrors aligned
      cases stepped : next.step moved sink middle.2 with
      | mk otherLast written trap =>
          rw [step.step_eq, stepped] at alike
          obtain ⟨lastMirrors, console, trapped⟩ := alike
          obtain rfl : written = last.2 := console
          obtain rfl : trap = none := trapped
          exact ⟨otherLast, (before.trans skips).tail (.of_step stepped), lastMirrors⟩

/-- A run of the relocated program is followed by the program, which waits while the other
one is at the empty line. -/
theorem exists_runs_unmoved {otherLast : Machine × σ}
    (runs : Runs moved sink noTrap (other, console) otherLast) :
    ∃ last, Runs program sink noTrap (machine, console) (last, otherLast.2) ∧
      Mirrors place last otherLast.1 := by
  induction runs with
  | refl => exact ⟨machine, .refl, mirrors⟩
  | @tail otherMiddle otherLast _ step ih =>
      obtain ⟨middle, before, middleMirrors⟩ := ih
      rcases middleMirrors.counter.aligned_or_blank with aligned | ⟨here, atBlank⟩
      · have alike := step_mirrors sink otherMiddle.2 relocated middleMirrors aligned
        cases stepped : middle.step program sink otherMiddle.2 with
        | mk last written trap =>
            rw [step.step_eq, stepped] at alike
            obtain ⟨lastMirrors, console, trapped⟩ := alike
            obtain rfl : otherLast.2 = written := console
            obtain rfl : trap = none := Option.map_eq_none_iff.mp trapped.symm
            exact ⟨last, before.tail (.of_step stepped), lastMirrors⟩
      · obtain ⟨stepped, waits, -⟩ :=
          step_blank sink otherMiddle.2 relocated middleMirrors here atBlank
        obtain ⟨otherMachine, written⟩ := otherLast
        cases step.step_eq.symm.trans stepped
        exact ⟨middle, before, waits⟩

/-! ## Finished runs -/

/-- **The relocated program finishes** when the program does, and in the same way. -/
theorem exists_runFor_moved (unlimited : machine.config.maxSteps = none) {fuel : Nat}
    {outcome : Outcome σ} (finished : machine.runFor program sink fuel console = some outcome) :
    ∃ more otherOutcome, other.runFor moved sink more console = some otherOutcome ∧
      OutcomeMirrors place outcome otherOutcome := by
  have otherUnlimited : other.config.maxSteps = none := by rw [mirrors.config, unlimited]
  obtain ⟨last, runs, ending⟩ := (exists_runFor_iff unlimited).mp ⟨fuel, finished⟩
  obtain ⟨otherLast, otherRuns, lastMirrors⟩ := exists_runs_moved sink relocated mirrors runs
  obtain ⟨next, skips, nextMirrors, aligned⟩ := exists_aligned sink last.2 relocated lastMirrors
  have reaches := otherRuns.trans skips
  rcases ending with ⟨halted, rfl⟩ | ⟨trapped, stops⟩
  · rw [← isHalted_of_aligned relocated aligned] at halted
    obtain ⟨more, otherFinished⟩ :=
      (exists_runFor_iff otherUnlimited).mpr ⟨_, reaches, .inl ⟨halted, rfl⟩⟩
    exact ⟨more, _, otherFinished, nextMirrors, rfl, rfl⟩
  · have alike := step_mirrors sink last.2 relocated nextMirrors aligned
    rw [stops] at alike
    have otherTrapped : (next.step moved sink last.2).trap ≠ none := by
      rw [alike.trap]
      exact mt Option.map_eq_none_iff.mp trapped
    obtain ⟨more, otherFinished⟩ :=
      (exists_runFor_iff otherUnlimited).mpr ⟨_, reaches, .inr ⟨otherTrapped, rfl⟩⟩
    exact ⟨more, _, otherFinished, alike⟩

/-- **The program finishes** when the relocated program does, and in the same way. -/
theorem exists_runFor_unmoved (unlimited : machine.config.maxSteps = none) {fuel : Nat}
    {otherOutcome : Outcome σ}
    (finished : other.runFor moved sink fuel console = some otherOutcome) :
    ∃ less outcome, machine.runFor program sink less console = some outcome ∧
      OutcomeMirrors place outcome otherOutcome := by
  have otherUnlimited : other.config.maxSteps = none := by rw [mirrors.config, unlimited]
  obtain ⟨otherLast, otherRuns, ending⟩ := (exists_runFor_iff otherUnlimited).mp ⟨fuel, finished⟩
  obtain ⟨last, runs, lastMirrors⟩ := exists_runs_unmoved sink relocated mirrors otherRuns
  have aligned : otherLast.1.pc = shift place last.pc := by
    refine aligned_of_ends sink otherLast.2 relocated lastMirrors ?_
    rcases ending with ⟨halted, -⟩ | ⟨trapped, stops⟩
    · exact .inl halted
    · exact .inr (stops ▸ trapped)
  rcases ending with ⟨halted, rfl⟩ | ⟨trapped, stops⟩
  · rw [isHalted_of_aligned relocated aligned] at halted
    obtain ⟨less, finished⟩ := (exists_runFor_iff unlimited).mpr ⟨_, runs, .inl ⟨halted, rfl⟩⟩
    exact ⟨less, _, finished, lastMirrors, rfl, rfl⟩
  · have alike := step_mirrors sink otherLast.2 relocated lastMirrors aligned
    rw [stops] at alike
    have trapped : (last.step program sink otherLast.2).trap ≠ none := by
      intro none
      rw [alike.trap, none] at trapped
      exact trapped rfl
    obtain ⟨less, finished⟩ := (exists_runFor_iff unlimited).mpr ⟨_, runs, .inr ⟨trapped, rfl⟩⟩
    exact ⟨less, _, finished, alike⟩

end Runs

/-- **The runs of two machines mirror each other**: each finishes when the other does, in the
same way, and neither does when the other runs forever. -/
structure RunsMirror (place : Nat) (program moved : Program) (sink : Console σ) (console : σ)
    (machine other : Machine) : Prop where
  forth : ∀ fuel outcome, machine.runFor program sink fuel console = some outcome →
    ∃ more otherOutcome, other.runFor moved sink more console = some otherOutcome ∧
      OutcomeMirrors place outcome otherOutcome
  back : ∀ fuel otherOutcome, other.runFor moved sink fuel console = some otherOutcome →
    ∃ less outcome, machine.runFor program sink less console = some outcome ∧
      OutcomeMirrors place outcome otherOutcome
  forever : (∀ fuel, machine.runFor program sink fuel console = none) ↔
    ∀ fuel, other.runFor moved sink fuel console = none

/-- **Runs without a step limit mirror each other** from machines that do. -/
theorem Mirrors.runsMirror (mirrors : Mirrors place machine other)
    (relocated : program.Relocated place moved) (unlimited : machine.config.maxSteps = none) :
    RunsMirror place program moved sink console machine other where
  forth _ _ finished := exists_runFor_moved sink relocated mirrors unlimited finished
  back _ _ finished := exists_runFor_unmoved sink relocated mirrors unlimited finished
  forever := by
    constructor
    · intro forever fuel
      refine Option.eq_none_iff_forall_ne_some.mpr fun otherOutcome finished => ?_
      obtain ⟨less, outcome, ends, -⟩ :=
        exists_runFor_unmoved sink relocated mirrors unlimited finished
      rw [forever less] at ends
      cases ends
    · intro forever fuel
      refine Option.eq_none_iff_forall_ne_some.mpr fun outcome finished => ?_
      obtain ⟨more, otherOutcome, ends, -⟩ :=
        exists_runFor_moved sink relocated mirrors unlimited finished
      rw [forever more] at ends
      cases ends

end Machine

namespace Program

/-- **Lines are relocatable.**  A source to which a line has been added that only defines a
new label is assembled when it was before, and under every limit of calls and on every console
the program runs as it did before: it halts, traps or runs forever as before, with the same
registers and the same output, and a trap is of the same kind at the moved line.

Line numbers have to fit their words of 64 bits, as those of any text that fits in memory
do. -/
theorem relocated_runs {text longer name : String} {program : Program}
    {before after : List String} (compiled : compile .source text = .ok program)
    (lines : Source.normalLines text = before ++ after)
    (inserted : Source.normalLines longer = before ++ (name ++ ":") :: after)
    (valid : Statement.LabelName name) (fresh : program.labels.line? name = none)
    (fits : program.size + 1 < Decoding.lineBound) :
    ∃ moved, compile .source longer = .ok moved ∧
      ∀ (σ : Type) (sink : Console σ) (console : σ) (maxCallDepth : Option Nat),
        Machine.RunsMirror before.length program moved sink console
          (.initial ⟨none, maxCallDepth⟩) (.initial ⟨none, maxCallDepth⟩) := by
  obtain ⟨moved, longerCompiled, relocated⟩ :=
    exists_relocated compiled lines inserted valid fresh fits
  refine ⟨moved, longerCompiled, ?_⟩
  intro σ sink console maxCallDepth
  exact (Machine.mirrors_initial before.length ⟨none, maxCallDepth⟩).runsMirror sink console
    relocated rfl

/-- A loop around a call, and a return that has no call. -/
def returningSource : String :=
  "ITER_FOR |C0:2| (\nCALL f\n)\nJMP end\nf: INC A0\nRET\nend: _SHOW A0\nRET\n"

/-- The same with a label at the line that the call returns to. -/
def labelledSource : String :=
  "ITER_FOR |C0:2| (\nCALL f\nback:\n)\nJMP end\nf: INC A0\nRET\nend: _SHOW A0\nRET\n"

/-- What the first one is compiled to. -/
def returningProgram : Program where
  lines := #[⟨"ITER_FOR |C0:2| (", .iterFor ⟨.c, 0⟩ 2 3⟩, ⟨"CALL 5", .call 5⟩,
    ⟨")", .endIter 1⟩, ⟨"JMP 7", .jump 7⟩, ⟨"f: INC A0", .inc ⟨.a, 0⟩⟩, ⟨"RET", .ret⟩,
    ⟨"end: _SHOW A0", .write (.decimal ⟨.a, 0⟩)⟩, ⟨"RET", .ret⟩]
  labels := ⟨[("end", 7), ("f", 5)]⟩

/-- The lines before the label. -/
def linesBefore : List String := ["ITER_FOR |C0:2| (", "CALL f"]

/-- The lines behind the label. -/
def linesBehind : List String := [")", "JMP end", "f: INC A0", "RET", "end: _SHOW A0", "RET"]

theorem relocated_runs_returning :
    compile .source returningSource = .ok returningProgram ∧
      Source.normalLines returningSource = linesBefore ++ linesBehind ∧
      Source.normalLines labelledSource = linesBefore ++ ("back" ++ ":") :: linesBehind ∧
      ∃ moved, compile .source labelledSource = .ok moved ∧
        ∀ (σ : Type) (sink : Console σ) (console : σ) (maxCallDepth : Option Nat),
          Machine.RunsMirror 2 returningProgram moved sink console
            (.initial ⟨none, maxCallDepth⟩) (.initial ⟨none, maxCallDepth⟩) := by
  have compiled : compile .source returningSource = .ok returningProgram := by decide +kernel
  have lines : Source.normalLines returningSource = linesBefore ++ linesBehind := by
    decide +kernel
  have inserted : Source.normalLines labelledSource =
      linesBefore ++ ("back" ++ ":") :: linesBehind := by decide +kernel
  have unbroken : ∀ c ∈ "back".toList, Text.isBlank c = false := by
    intro c mem
    simp only [String.reduceToList, List.mem_cons, List.not_mem_nil, or_false] at mem
    rcases mem with rfl | rfl | rfl | rfl <;> rfl
  have valid : Statement.LabelName "back" :=
    ⟨by decide, ⟨unbroken, Statement.markFree_of_not_mem (by decide)⟩, by decide⟩
  exact ⟨compiled, lines, inserted,
    relocated_runs compiled lines inserted valid (by decide +kernel) (by decide +kernel)⟩

end Program

end LineAsm
