import LineAsm.Proofs.Machine.Calls
import LineAsm.Proofs.Program.Bodies

/-!
# Frames of loops that a run leaves alone

A step leaves the loop frames as they are, drops the frame of the block whose header it
executes, or drops the frames above that of the block whose closing bracket it executes
(`LoopChange`).  The first searches all frames and the second drops whatever it finds on its
way, but neither reaches a frame whose block is another one, nor any frame below such a frame
(`suffix_of_step`).

So while a run executes none of the brackets of the blocks that have a frame, these frames stay
at the bottom of the stack as they are, in whatever order other blocks are entered, left by
jumps, restarted and closed.  A subroutine that is called in a loop and keeps to other blocks
returns with the frames of the caller as they were (`loops_kept_outside`).
-/

set_option autoImplicit false

namespace LineAsm.Machine

variable {σ : Type} {program : Program} {sink : Console σ} {machine next : Machine}
  {console after : σ} {trap : Option Trap} {frames : List LoopFrame}

/-! ## One step -/

/-- **What a step does to the loop frames.** -/
inductive LoopChange (program : Program) (machine next : Machine) : Prop where
  | keeps (same : next.loops = machine.loops)
  | enters {closing : Nat} {frame : LoopFrame}
      (opens : program.closing? machine.pc = some closing)
      (pushed : next.loops = frame :: machine.loops.filter (·.header != machine.pc))
  | skips {closing : Nat} (opens : program.closing? machine.pc = some closing)
      (dropped : next.loops = machine.loops.filter (·.header != machine.pc))
  | repeats {header : Nat} {frame counted : LoopFrame} {outer : List LoopFrame}
      (here : program.instruction? machine.pc = some (.endIter header))
      (active : machine.loops.dropWhile (·.header != header) = frame :: outer)
      (counts : next.loops = counted :: outer)
  | leaves {header : Nat} {frame : LoopFrame} {outer : List LoopFrame}
      (here : program.instruction? machine.pc = some (.endIter header))
      (active : machine.loops.dropWhile (·.header != header) = frame :: outer)
      (popped : next.loops = outer)

theorem loops_enterLoop (machine : Machine) (frame : LoopFrame) :
    (machine.enterLoop frame).loops = frame :: machine.loops.filter (·.header != frame.header) := by
  rw [enterLoop_eq]

theorem loopChange_of_step (stepped : machine.step program sink console = ⟨next, after, trap⟩) :
    LoopChange program machine next := by
  cases here : program.instruction? machine.pc with
  | none =>
      rw [step_eq_self here] at stepped
      cases stepped
      exact .keeps rfl
  | some instruction =>
      rw [step_eq here] at stepped
      have does := does_execute program sink machine.fetch console instruction
      rw [stepped] at does
      cases does with
      | acts acts =>
          cases acts with
          | through | count =>
              exact .enters (Program.closing?_of_instruction? here rfl) (loops_enterLoop ..)
          | skip => exact .skips (Program.closing?_of_instruction? here rfl) rfl
          | again active more => exact .repeats here active rfl
          | leave active last => exact .leaves here active rfl
          | _ => exact .keeps rfl
      | writes | clears | traps => exact .keeps rfl

/-- A line is a bracket of a block that has one of the given frames: its header or the closing
bracket that belongs to it. -/
def IsBracketOf (program : Program) (frames : List LoopFrame) (line : Nat) : Prop :=
  ∃ frame ∈ frames, frame.header = line ∨ program.closing? frame.header = some line

/-- Frames of other blocks are kept where the frames of one block are taken out. -/
theorem suffix_filter {loops : List LoopFrame} {header : Nat} (bottom : frames <:+ loops)
    (others : ∀ frame ∈ frames, frame.header ≠ header) :
    frames <:+ loops.filter (·.header != header) := by
  have kept : frames.filter (·.header != header) = frames :=
    List.filter_eq_self.mpr fun frame mem => bne_iff_ne.mpr (others frame mem)
  exact kept ▸ bottom.filter _

/-- Frames of other blocks lie below the frame of a block that is found above them. -/
theorem suffix_of_dropWhile {loops outer : List LoopFrame} {header : Nat} {frame : LoopFrame}
    (bottom : frames <:+ loops) (others : ∀ frame ∈ frames, frame.header ≠ header)
    (found : loops.dropWhile (·.header != header) = frame :: outer) : frames <:+ outer := by
  obtain ⟨above, rfl⟩ := bottom
  have passed : frames.dropWhile (·.header != header) = [] :=
    List.dropWhile_eq_nil_iff.mpr fun frame mem => bne_iff_ne.mpr (others frame mem)
  rw [List.dropWhile_append] at found
  split at found
  · -- The frame would be one of those at the bottom.
    rw [passed] at found
    cases found
  · rename_i nonempty
    cases split : above.dropWhile (·.header != header) with
    | nil => simp [split] at nonempty
    | cons first rest =>
        rw [split] at found
        obtain ⟨-, rfl⟩ := List.cons.inj found
        exact List.suffix_append rest frames

section Compiled

variable {form : ProgramForm} {text : String} (compiled : Program.compile form text = .ok program)
include compiled

/-- **A step at no bracket of their blocks keeps frames at the bottom.** -/
theorem suffix_of_step (bottom : frames <:+ machine.loops)
    (outside : ¬ IsBracketOf program frames machine.pc)
    (stepped : machine.step program sink console = ⟨next, after, trap⟩) :
    frames <:+ next.loops := by
  have atHeader : ∀ frame ∈ frames, frame.header ≠ machine.pc :=
    fun frame mem same => outside ⟨frame, mem, .inl same⟩
  have atClosing {header : Nat} (here : program.instruction? machine.pc = some (.endIter header)) :
      ∀ frame ∈ frames, frame.header ≠ header := by
    rintro frame mem rfl
    exact outside ⟨frame, mem, .inr (Program.closing?_of_endIter compiled here)⟩
  cases loopChange_of_step stepped with
  | keeps same => exact same ▸ bottom
  | enters _ pushed =>
      rw [pushed]
      exact (suffix_filter bottom atHeader).trans (List.suffix_cons _ _)
  | skips _ dropped => exact dropped ▸ suffix_filter bottom atHeader
  | repeats here active counts =>
      rw [counts]
      exact (suffix_of_dropWhile bottom (atClosing here) active).trans (List.suffix_cons _ _)
  | leaves here active popped => exact popped ▸ suffix_of_dropWhile bottom (atClosing here) active

end Compiled

/-! ## Runs -/

/-- Steps of a run at no bracket of the blocks that have one of the given frames.  The run may
go on behind any trap. -/
def StepsOutside (program : Program) (sink : Console σ) (frames : List LoopFrame)
    (before after : Machine × σ) : Prop :=
  Steps program sink (fun _ => True) before after ∧ ¬ IsBracketOf program frames before.1.pc

/-- Steps of a subroutine at no bracket of the blocks that have one of the given frames: the
call stack stays deeper than it was at the call. -/
def SubroutineOutside (program : Program) (sink : Console σ) (caller : Machine)
    (before after : Machine × σ) : Prop :=
  StepsOutside program sink caller.loops before after ∧
    caller.callStack.depth < after.1.callStack.depth

/-- A step that executes neither the header nor the closing bracket of a block keeps all
frames. -/
theorem loops_of_step {instruction : Instruction}
    (here : program.instruction? machine.pc = some instruction)
    (plain : instruction.closing? = none) (inner : ∀ header, instruction ≠ .endIter header)
    (stepped : machine.step program sink console = ⟨next, after, trap⟩) :
    next.loops = machine.loops := by
  have noHeader {closing : Nat} (opens : program.closing? machine.pc = some closing) : False := by
    rw [Program.closing?, here, Option.bind_some, plain] at opens
    cases opens
  have noBracket {header : Nat}
      (closes : program.instruction? machine.pc = some (.endIter header)) : False :=
    inner header (Option.some.inj (here.symm.trans closes))
  cases loopChange_of_step stepped with
  | keeps same => exact same
  | enters opens => exact (noHeader opens).elim
  | skips opens => exact (noHeader opens).elim
  | repeats closes => exact (noBracket closes).elim
  | leaves closes => exact (noBracket closes).elim

/-- A call that does not trap leaves a record that resumes behind it. -/
theorem exists_record_of_call {target : Nat}
    (here : program.instruction? machine.pc = some (.call target))
    (stepped : machine.step program sink console = ⟨next, after, none⟩) :
    ∃ label, next.callStack.records = ⟨label, machine.pc + 1⟩ :: machine.callStack.records := by
  rw [step_of_call here] at stepped
  split at stepped
  · cases stepped
  · cases stepped
    exact ⟨_, rfl⟩

section Compiled

variable {form : ProgramForm} {text : String} (compiled : Program.compile form text = .ok program)
include compiled

theorem suffix_of_runs {first last : Machine × σ} (bottom : frames <:+ first.1.loops)
    (runs : Relation.ReflTransGen (StepsOutside program sink frames) first last) :
    frames <:+ last.1.loops := by
  induction runs with
  | refl => exact bottom
  | tail _ step ih =>
      obtain ⟨⟨trap, stepped, -⟩, outside⟩ := step
      exact suffix_of_step compiled ih outside stepped

/-- **Frames of loops that a run leaves alone are kept.**  From every state on, and at every
point of every run that executes neither the header nor the closing bracket of a block with a
frame in that state, the frames of that state are an unchanged bottom part of the stack of
frames.  So a subroutine that is called in that state, and executes none of these brackets,
returns behind the call with the frames of the caller as they were. -/
theorem loops_kept_outside (machine : Machine) (console : σ) :
    (∀ last : Machine × σ,
        Relation.ReflTransGen (StepsOutside program sink machine.loops) (machine, console) last →
        machine.loops <:+ last.1.loops) ∧
      ∀ target, program.instruction? machine.pc = some (.call target) →
        ∀ called after, machine.step program sink console = ⟨called, after, none⟩ →
        ∀ last : Machine × σ,
          Relation.ReflTransGen (SubroutineOutside program sink machine) (called, after) last →
          machine.loops <:+ last.1.loops ∧
          ∀ next written trap, last.1.step program sink last.2 = ⟨next, written, trap⟩ →
            next.callStack.depth ≤ machine.callStack.depth →
            trap = none ∧ next.pc = machine.pc + 1 ∧ next.callStack = machine.callStack ∧
              machine.loops <:+ next.loops := by
  refine ⟨fun last runs => suffix_of_runs compiled List.suffix_rfl runs, ?_⟩
  intro target here called after stepped last runs
  have entered : called.loops = machine.loops := loops_of_step here rfl (by simp) stepped
  have start : machine.loops <:+ called.loops := entered ▸ List.suffix_rfl
  have outside : Relation.ReflTransGen (StepsOutside program sink machine.loops)
      (called, after) last := Relation.ReflTransGen.mono (fun _ _ step => step.1) _ _ runs
  have bottom : machine.loops <:+ last.1.loops := suffix_of_runs compiled start outside
  refine ⟨bottom, ?_⟩
  intro next written trap returned shallow
  obtain ⟨label, stands⟩ := exists_record_of_call here stepped
  have above : Relation.ReflTransGen (StepsAbove program sink machine.callStack.depth)
      (called, after) last :=
    Relation.ReflTransGen.mono (fun _ _ step => ⟨step.1.1, step.2⟩) _ _ runs
  have returns : ReturnsTo program sink machine (called, after) := returnsTo_of_records stands
  obtain ⟨isReturn, done, behind, stack⟩ :=
    returns.back last above next written trap returned shallow
  refine ⟨done, behind, stack, ?_⟩
  rw [loops_of_step isReturn rfl (by simp) returned]
  exact bottom

end Compiled

/-- A subroutine that returns from within a block of its own, called in a block. -/
def innerReturnSource : String :=
  "ITER_FOR |A0:2| (\nCALL f\n)\nJMP end\nf: ITER_FOR |B0:3| (\nRET\n)\nend:\n"

/-- What it is compiled to. -/
def innerReturnProgram : Program where
  lines := #[⟨"ITER_FOR |A0:2| (", .iterFor ⟨.a, 0⟩ 2 3⟩, ⟨"CALL 5", .call 5⟩,
    ⟨")", .endIter 1⟩, ⟨"JMP 8", .jump 8⟩, ⟨"f: ITER_FOR |B0:3| (", .iterFor ⟨.b, 0⟩ 3 7⟩,
    ⟨"RET", .ret⟩, ⟨")", .endIter 5⟩, ⟨"end:", .nop⟩]
  labels := ⟨[("end", 8), ("f", 5)]⟩

/-- The machine at the call, in the second pass of its block. -/
def secondPassMachine : Machine :=
  { Machine.initial .unlimited with
    pc := 2, line := 3, loops := [⟨1, .count ⟨.a, 0⟩, 1, 1⟩], steps := 6 }

/-- The machine in the subroutine. -/
def calledMachine : Machine :=
  { secondPassMachine with pc := 5, line := 2, callStack := ⟨[⟨"f", 3⟩]⟩, steps := 7 }

/-- The machine in the block of the subroutine. -/
def innerMachine : Machine :=
  { calledMachine with
    pc := 6, line := 5, loops := ⟨5, .count ⟨.b, 0⟩, 0, 2⟩ :: secondPassMachine.loops, steps := 8 }

theorem loops_kept_outside_subroutine :
    Program.compile .source innerReturnSource = .ok innerReturnProgram ∧
      secondPassMachine.step innerReturnProgram .stream "" = ⟨calledMachine, "", none⟩ ∧
      SubroutineOutside innerReturnProgram .stream secondPassMachine (calledMachine, "")
        (innerMachine, "") ∧
      ∃ next, innerMachine.step innerReturnProgram .stream "" = ⟨next, "", none⟩ ∧
        next.pc = 3 ∧ next.loops.length = 2 ∧ secondPassMachine.loops <:+ next.loops := by
  have compiled : Program.compile .source innerReturnSource = .ok innerReturnProgram := by
    decide +kernel
  have calls : secondPassMachine.step innerReturnProgram .stream "" = ⟨calledMachine, "", none⟩ :=
    rfl
  have outside : ¬ IsBracketOf innerReturnProgram secondPassMachine.loops 5 := by
    rintro ⟨frame, mem, bracket⟩
    obtain rfl := List.mem_singleton.mp mem
    revert bracket
    decide
  have enters : SubroutineOutside innerReturnProgram .stream secondPassMachine (calledMachine, "")
      (innerMachine, "") :=
    ⟨⟨⟨none, rfl, fun _ _ => trivial⟩, outside⟩, by decide⟩
  have returns := (loops_kept_outside compiled secondPassMachine "").2 5 rfl calledMachine "" calls
    (innerMachine, "") (.single enters)
  obtain ⟨-, behind, -, kept⟩ := returns.2 _ _ _ rfl (by decide)
  exact ⟨compiled, calls, enters, _, rfl, behind, rfl, kept⟩

end LineAsm.Machine
