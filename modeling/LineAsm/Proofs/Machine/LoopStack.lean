import LineAsm.Flow.Reachability
import LineAsm.Proofs.Machine.Checked
import LineAsm.Proofs.Machine.Steps
import Mathlib.Data.List.Perm.Subperm

/-!
# The stack of loop frames

Whatever order a run leaves and enters blocks in, each of its loop frames belongs to a
header of the program, agrees with the operands of that header and counts no further than
they say (`Matches`), and no block has two frames.  This is kept by every step, one that
traps included (`Orderly.step`), and so holds after every run (`orderly_of_runs`).

It is what the checks of the machine need: a step of the machine with its checks is a step
of the machine (`loops_orderly`).
-/

set_option autoImplicit false

namespace LineAsm

/-- The lines of a program that are headers of blocks. -/
def Program.headers (program : Program) : List Nat :=
  program.numbers.filter fun line => (program.instruction? line).any Instruction.opensBlock

namespace Machine

variable {σ : Type} {program : Program} {sink : Console σ} {machine next : Machine}

/-! ## Frames and their headers -/

/-- **A frame matches the header at its line**: it sets what the header says, and the number
of its pass lies between the first and the last that the header says. -/
inductive Matches (program : Program) (frame : LoopFrame) : Prop where
  | through {first last target : Register} {closing : Nat}
      (atHeader : program.instruction? frame.header = some (.iterThrough first last target closing))
      (sets : frame.induction = .through first.bank target)
      (started : (first.index : Int) ≤ frame.index.toInt)
      (within : frame.index.toInt ≤ frame.last.toInt)
      (ends : frame.last.toInt = last.index)
      (digit : last.index ≤ 9)
  | count {register : Register} {passes : Int32} {closing : Nat}
      (atHeader : program.instruction? frame.header = some (.iterFor register passes closing))
      (sets : frame.induction = .count register)
      (started : 0 ≤ frame.index.toInt)
      (within : frame.index.toInt ≤ frame.last.toInt)
      (ends : frame.last.toInt = passes.toInt - 1)

/-- A frame that is not at its last pass still matches at its next one. -/
theorem Matches.succ {frame : LoopFrame} (fits : Matches program frame)
    (more : frame.index < frame.last) :
    Matches program { frame with index := frame.index + 1 } := by
  have below := Int32.lt_iff_toInt_lt.mp more
  have number := toInt_of_checkedWord (checkedWord_succ more)
  cases fits with
  | through atHeader sets started within ends digit =>
      exact .through atHeader sets (by dsimp only; omega) (by dsimp only; omega) ends digit
  | count atHeader sets started within ends =>
      exact .count atHeader sets (by dsimp only; omega) (by dsimp only; omega) ends

/-- The header of a matching frame is the header of a block. -/
theorem Matches.opensBlock {frame : LoopFrame} (fits : Matches program frame) :
    ∃ instruction, program.instruction? frame.header = some instruction ∧
      instruction.opensBlock = true := by
  cases fits with
  | through atHeader => exact ⟨_, atHeader, rfl⟩
  | count atHeader => exact ⟨_, atHeader, rfl⟩

section Compiled

variable {form : ProgramForm} {text : String} (compiled : Program.compile form text = .ok program)
include compiled

/-- The registers of a matching frame are among the sixty. -/
theorem Matches.startable {frame : LoopFrame} (fits : Matches program frame) :
    Startable frame := by
  cases fits with
  | through atHeader sets started within ends digit =>
      have named := Program.valid_of_mem_registers compiled
        (Program.mem_instructions_of_instruction? atHeader)
      rw [Startable, sets]
      exact ⟨by omega, by omega, named _ (by simp [Instruction.registers])⟩
  | count atHeader sets =>
      have named := Program.valid_of_mem_registers compiled
        (Program.mem_instructions_of_instruction? atHeader)
      rw [Startable, sets]
      exact named _ (by simp [Instruction.registers])

/-- The frame of the first pass of a block over registers matches its header. -/
theorem matches_through {header : Nat} {first last target : Register} {closing : Nat}
    (atHeader : program.instruction? header = some (.iterThrough first last target closing)) :
    Matches program ⟨header, .through first.bank target, Int32.ofNat first.index,
      Int32.ofNat last.index⟩ := by
  have valid : (LoopHead.through first last target).Valid :=
    Program.valid_of_mem_instructions compiled (Program.mem_instructions_of_instruction? atHeader)
  obtain ⟨ascending, digit⟩ := valid
  have least := toInt_of_checkedWord (checkedWord_digit (Nat.lt_trans ascending digit))
  have greatest := toInt_of_checkedWord (checkedWord_digit digit)
  refine .through atHeader rfl ?_ ?_ greatest (Nat.le_of_lt_succ digit)
  · exact Int.le_of_eq least.symm
  · rw [least, greatest]
    omega

/-- The frame of the first pass of a counted block matches its header. -/
theorem matches_count {header : Nat} {register : Register} {passes : Int32} {closing : Nat}
    (atHeader : program.instruction? header = some (.iterFor register passes closing))
    (some : passes ≠ 0) : Matches program ⟨header, .count register, 0, passes - 1⟩ := by
  have valid : (LoopHead.count register passes).Valid :=
    Program.valid_of_mem_instructions compiled (Program.mem_instructions_of_instruction? atHeader)
  have notNegative : 0 ≤ passes.toInt := Int32.le_iff_toInt_le.mp valid
  have notZero : passes.toInt ≠ 0 := fun zero => some (Int32.toInt_inj.mp zero)
  have greatest := toInt_of_checkedWord (checkedWord_pred notNegative)
  refine .count atHeader rfl (Int.le_refl 0) ?_ greatest
  rw [greatest]
  change (0 : Int) ≤ _
  omega

end Compiled

/-! ## The invariant -/

/-- **The invariant of a run**: the program counter and the lines to return to are counted
from one, no block has two frames, and each frame matches its header. -/
structure Orderly (program : Program) (machine : Machine) : Prop where
  counter : 1 ≤ machine.pc
  records : ∀ record ∈ machine.callStack.records, 1 ≤ record.line
  distinct : (machine.loops.map (·.header)).Nodup
  frames : ∀ frame ∈ machine.loops, Matches program frame

theorem orderly_initial (program : Program) (config : Config) :
    Orderly program (.initial config) where
  counter := Nat.le_refl 1
  records := fun _ mem => (nomatch mem)
  distinct := List.nodup_nil
  frames := fun _ mem => (nomatch mem)

theorem Orderly.fetch (orderly : Orderly program machine) : Orderly program machine.fetch :=
  ⟨Nat.le_add_left 1 machine.pc, orderly.records, orderly.distinct, orderly.frames⟩

/-- Entering a block drops the frame that it had, so that it has only the new one. -/
theorem Orderly.enterLoop (orderly : Orderly program machine) {frame : LoopFrame}
    (fits : Matches program frame) : Orderly program (machine.enterLoop frame) := by
  rw [enterLoop_eq]
  refine ⟨orderly.counter, orderly.records, ?_, ?_⟩
  · refine List.nodup_cons.mpr ⟨?_, orderly.distinct.sublist ((List.filter_sublist ..).map _)⟩
    intro again
    obtain ⟨other, kept, same⟩ := List.mem_map.mp again
    exact bne_iff_ne.mp (List.mem_filter.mp kept).2 same
  · intro other mem
    rcases List.mem_cons.mp mem with rfl | kept
    · exact fits
    · exact orderly.frames other (List.mem_of_mem_filter kept)

/-- Taking frames off the top keeps the rest in order. -/
theorem Orderly.drop (orderly : Orderly program machine) {later : List LoopFrame}
    (kept : later.Sublist machine.loops) : Orderly program { machine with loops := later } :=
  ⟨orderly.counter, orderly.records, orderly.distinct.sublist (kept.map _),
    fun frame mem => orderly.frames frame (kept.subset mem)⟩

section Compiled

variable {form : ProgramForm} {text : String} (compiled : Program.compile form text = .ok program)
include compiled

/-- **Acting keeps the invariant.** -/
theorem Orderly.acts (orderly : Orderly program machine) {instruction : Instruction}
    (here : program.instruction? machine.line = some instruction)
    (acts : Acts program machine instruction next) : Orderly program next := by
  have leads {line : Nat} (target : instruction.target? = some line) : 1 ≤ line :=
    Program.one_le_of_target? compiled (Program.mem_instructions_of_instruction? here) target
  have ⟨counter, records, distinct, frames⟩ := orderly
  cases acts with
  | straight => exact ⟨counter, records, distinct, frames⟩
  | jump => exact ⟨leads rfl, records, distinct, frames⟩
  | taken => exact ⟨leads rfl, records, distinct, frames⟩
  | passed => exact ⟨counter, records, distinct, frames⟩
  | call line =>
      refine ⟨leads rfl, ?_, distinct, frames⟩
      intro record mem
      rcases List.mem_cons.mp mem with rfl | earlier
      · exact Nat.le_add_left 1 _
      · exact records record earlier
  | @ret record earlier latest =>
      have all := CallStack.records_of_pop? latest
      refine ⟨records record (by simp [all]), ?_, distinct, frames⟩
      intro other mem
      exact records other (by simp [all, mem])
  | through => exact orderly.enterLoop (matches_through compiled here)
  | count _ _ some => exact orderly.enterLoop (matches_count compiled here some)
  | skip register closing =>
      have kept := orderly.drop
        (List.filter_sublist (l := machine.loops) (p := (·.header != machine.line)))
      exact ⟨Nat.le_add_left 1 closing, kept.records, kept.distinct, kept.frames⟩
  | @again header frame outer active more =>
      have top : (frame :: outer).Sublist machine.loops := active ▸ List.dropWhile_sublist _
      have kept := orderly.drop top
      rw [beginPass_eq]
      refine ⟨Nat.le_add_left 1 header, kept.records, kept.distinct, ?_⟩
      intro other mem
      rcases List.mem_cons.mp mem with rfl | below
      · exact (kept.frames frame (.head _)).succ more
      · exact kept.frames other (.tail _ below)
  | @leave header frame outer active last =>
      have top : (frame :: outer).Sublist machine.loops := active ▸ List.dropWhile_sublist _
      exact orderly.drop ((List.sublist_cons_self ..).trans top)

/-- **A step keeps the invariant**, also when it traps. -/
theorem Orderly.step (orderly : Orderly program machine) {console after : σ} {trap : Option Trap}
    (stepped : machine.step program sink console = ⟨next, after, trap⟩) : Orderly program next := by
  cases here : program.instruction? machine.pc with
  | none =>
      rw [step_eq_self here] at stepped
      cases stepped
      exact orderly
  | some instruction =>
      rw [step_eq here] at stepped
      have does := does_execute program sink machine.fetch console instruction
      rw [stepped] at does
      cases does with
      | acts acts => exact orderly.fetch.acts compiled here acts
      | writes => exact orderly.fetch
      | clears => exact orderly.fetch
      | traps => exact orderly.fetch

theorem orderly_of_runs {resumes : Trap → Prop} {first last : Machine × σ}
    (runs : Runs program sink resumes first last) (orderly : Orderly program first.1) :
    Orderly program last.1 :=
  runs.keeps (Orderly program) (fun _ _ _ _ _ before stepped _ => before.step compiled stepped)
    orderly

/-- What the checks of a step need. -/
theorem Orderly.checks (orderly : Orderly program machine) {instruction : Instruction}
    (here : program.instruction? machine.pc = some instruction) :
    Checks machine.fetch instruction where
  registers := Program.valid_of_mem_registers compiled
    (Program.mem_instructions_of_instruction? here)
  headers := by
    rintro head closing rfl
    exact Program.valid_of_mem_instructions compiled
      (Program.mem_instructions_of_instruction? here)
  frames := fun frame mem more => ((orderly.frames frame mem).succ more).startable compiled

end Compiled

/-! ## Runs -/

/-- There are at most as many frames as headers of blocks. -/
theorem Orderly.length_loops_le (orderly : Orderly program machine) :
    machine.loops.length ≤ program.headers.length := by
  rw [← List.length_map (f := (·.header))]
  refine (orderly.distinct.subperm ?_).length_le
  intro header mem
  obtain ⟨frame, active, rfl⟩ := List.mem_map.mp mem
  obtain ⟨instruction, atHeader, opens⟩ := (orderly.frames frame active).opensBlock
  exact List.mem_filter.mpr
    ⟨Program.mem_numbers_of_instruction? atHeader, by rw [atHeader]; exact opens⟩

/-- With the checks that the invariant lets pass, a step is the same. -/
theorem Orderly.step?_eq {form : ProgramForm} {text : String}
    (compiled : Program.compile form text = .ok program) (orderly : Orderly program machine)
    (sink : Console σ) (console : σ) :
    machine.step? program sink console = some (machine.step program sink console) := by
  cases here : program.instruction? machine.pc with
  | none => rw [Machine.step?, Machine.step, here]
  | some instruction =>
      rw [Machine.step?, Machine.step, here]
      exact execute?_eq (orderly.checks compiled here) sink console

/-- **The stack of loop frames is in order after every run**, also after one that went on
behind traps: the program counter is counted from one, no two frames have one header, each
frame matches its header, every register that the program names is one of the sixty cells,
and none of the checks of the next step fails. -/
theorem loops_orderly {form : ProgramForm} {text : String}
    (compiled : Program.compile form text = .ok program) {config : Config} {start console : σ}
    (runs : Runs program sink (fun _ => True) (.initial config, start) (machine, console)) :
    1 ≤ machine.pc ∧ (machine.loops.map (·.header)).Nodup ∧
      machine.loops.length ≤ program.headers.length ∧
      (∀ frame ∈ machine.loops, Matches program frame) ∧
      (∀ instruction ∈ program.instructions, ∀ register ∈ instruction.registers,
        register.index ≤ 9) ∧
      (∀ register : Register, register.index ≤ 9 → register.slot < RegisterFile.size) ∧
      (∀ register other : Register, register.index ≤ 9 → other.index ≤ 9 →
        register.slot = other.slot → register = other) ∧
      machine.step? program sink console = some (machine.step program sink console) := by
  have orderly := orderly_of_runs compiled runs (orderly_initial program config)
  refine ⟨orderly.counter, orderly.distinct, orderly.length_loops_le, orderly.frames, ?_, ?_, ?_,
    orderly.step?_eq compiled sink console⟩
  · intro instruction mem register named
    exact Nat.le_of_lt_succ (Program.valid_of_mem_registers compiled mem register named)
  · intro register digit
    exact RegisterFile.slot_lt (Nat.lt_succ_of_le digit)
  · intro register other digit otherDigit same
    exact Register.slot_injective (Nat.lt_succ_of_le digit) (Nat.lt_succ_of_le otherDigit) same

/-- A block whose body traps, and a jump out of the block behind the trap. -/
def trappingSource : String :=
  "ITER_THROUGH |A0:A1| -> Z0 (\nDIV B0 B0 0\nJMP end\n)\nend:\n"

/-- What it is compiled to. -/
def trappingProgram : Program where
  lines := #[⟨"ITER_THROUGH |A0:A1| -> Z0 (", .iterThrough ⟨.a, 0⟩ ⟨.a, 1⟩ ⟨.z, 0⟩ 4⟩,
    ⟨"DIV B0 B0 0", .arithmetic .div ⟨.b, 0⟩ (.register ⟨.b, 0⟩) (.literal 0)⟩,
    ⟨"JMP 5", .jump 5⟩, ⟨")", .endIter 1⟩, ⟨"end:", .nop⟩]
  labels := ⟨[("end", 5)]⟩

/-- The machine that has jumped out of the block, whose frame it still has. -/
def escapedMachine : Machine :=
  { Machine.initial .unlimited with
    pc := 5, line := 3, loops := [⟨1, .through .a ⟨.z, 0⟩, 0, 1⟩], steps := 3 }

theorem loops_orderly_escaped :
    Program.compile .source trappingSource = .ok trappingProgram ∧
      Runs trappingProgram .stream (fun _ => True) (.initial .unlimited, "") (escapedMachine, "") ∧
      escapedMachine.loops.length ≤ trappingProgram.headers.length ∧
      escapedMachine.step? trappingProgram .stream "" =
        some (escapedMachine.step trappingProgram .stream "") := by
  have compiled : Program.compile .source trappingSource = .ok trappingProgram := by decide +kernel
  have runs : Runs trappingProgram .stream (fun _ => True) (.initial .unlimited, "")
      (escapedMachine, "") := by
    refine .tail (b := ({ escapedMachine with pc := 3, line := 2, steps := 2 }, ""))
      (.tail (b := ({ escapedMachine with pc := 2, line := 1, steps := 1 }, "")) (.single ?_) ?_) ?_
    · exact ⟨none, rfl, fun _ _ => trivial⟩
    · exact ⟨some (.divisionByZero 2), rfl, fun _ _ => trivial⟩
    · exact ⟨none, rfl, fun _ _ => trivial⟩
  obtain ⟨-, -, few, -, -, -, -, checked⟩ := loops_orderly compiled runs
  exact ⟨compiled, runs, few, checked⟩

end Machine

end LineAsm
