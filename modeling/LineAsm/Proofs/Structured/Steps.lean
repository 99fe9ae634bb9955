import LineAsm.Proofs.Machine.Inversion
import LineAsm.Proofs.Structured.Evaluation

/-!
# The machine at the lines of a block

What one step of the machine does at a line of a tree, in terms of the structured
meaning: at a line without control flow it is the effect of the line (`step_straight`), at
a header it starts the first pass or skips the block (`step_enter`, `step_skip`), and at a
closing bracket it starts the next pass or leaves the block (`step_again`, `step_leave`).

The pass that a block is in is a natural number; its frame carries the number as a word
(`LoopHead.frame`), which is the same because no pass of a valid header has a number that a
word cannot hold (`LoopHead.lt_of_pass`).
-/

set_option autoImplicit false

namespace LineAsm

/-! ## The frame of a block -/

namespace LoopHead

/-- What the decoder has checked of a header. -/
def Valid : LoopHead → Prop
  | .through first last _ => first.index < last.index ∧ last.Valid
  | .count _ passes => 0 ≤ passes

/-- What the frame of a block sets before each pass. -/
def induction : LoopHead → Induction
  | .through first _ target => .through first.bank target
  | .count register _ => .count register

/-- The frame of a block during a pass. -/
def frame (head : LoopHead) (header pass : Nat) : LoopFrame where
  header := header
  induction := head.induction
  index := Int32.ofNat pass
  last := Int32.ofNat (head.firstPass + head.passCount - 1)

variable {head : LoopHead}

/-- The numbers of the passes are words that are not negative. -/
theorem lt_of_pass (valid : head.Valid) {pass : Nat}
    (inside : pass < head.firstPass + head.passCount) : pass < Int32.size / 2 := by
  have half : Int32.size / 2 = 2147483648 := rfl
  cases head with
  | through first last target =>
      have small : last.index < 10 := valid.2
      have ascending := valid.1
      simp only [firstPass, passCount] at inside
      omega
  | count register passes =>
      have bounded := Int32.toNatClampNeg_lt passes
      simp only [firstPass, passCount] at inside
      omega

/-- A block without a pass counts to zero. -/
theorem eq_count_zero (valid : head.Valid) (none : head.passCount = 0) :
    ∃ register, head = .count register 0 := by
  cases head with
  | through first last target =>
      have ascending := valid.1
      simp only [passCount] at none
      omega
  | count register passes =>
      have zero : passes ≤ 0 := Int32.toNatClampNeg_eq_zero_iff.mp none
      exact ⟨register, congrArg _ (Int32.le_antisymm zero valid)⟩

theorem apply_instruction (valid : head.Valid) (some : 0 < head.passCount) (program : Program)
    (machine : Machine) (closing : Nat) :
    machine.apply program (head.instruction closing) =
      .ok (machine.enterLoop (head.frame machine.line head.firstPass)) := by
  cases head with
  | through first last target =>
      have ascending := valid.1
      have same : first.index + (last.index + 1 - first.index) - 1 = last.index := by omega
      simp only [instruction, Machine.apply, frame, firstPass, passCount, induction, same]
  | count register passes =>
      have nonzero : passes ≠ 0 := by
        rintro rfl
        exact Nat.lt_irrefl 0 some
      have same : Int32.ofNat (0 + passes.toNatClampNeg - 1) = passes - 1 := by
        have positive : 1 ≤ passes.toNatClampNeg := some
        rw [Nat.zero_add, Int32.ofNat_sub _ _ positive, Int32.ofNat_toNatClampNeg passes valid]
        rfl
      simp only [instruction, Machine.apply, if_neg nonzero, frame, firstPass, passCount, induction,
        same]
      rfl

theorem beginPass_frame (valid : head.Valid) {pass : Nat}
    (inside : pass < head.firstPass + head.passCount) (machine : Machine) (header : Nat) :
    machine.beginPass (head.frame header pass) =
      { machine with registers := head.startPass pass machine.registers } := by
  cases head with
  | through first last target =>
      simp only [Machine.beginPass, frame, induction, Int32.toNatClampNeg_ofNat_of_lt
        (lt_of_pass valid inside)]
      rfl
  | count register passes => rfl

theorem frame_succ (head : LoopHead) (header pass : Nat) :
    { head.frame header pass with index := (head.frame header pass).index + 1 } =
      head.frame header (pass + 1) := by
  simp only [frame, Int32.ofNat_add]
  rfl

theorem frame_lt_iff (valid : head.Valid) {header pass : Nat}
    (inside : pass < head.firstPass + head.passCount) :
    (head.frame header pass).index < (head.frame header pass).last ↔
      pass + 1 < head.firstPass + head.passCount := by
  have last : head.firstPass + head.passCount - 1 < head.firstPass + head.passCount := by omega
  rw [frame, Int32.ofNat_lt_iff_lt (lt_of_pass valid inside) (lt_of_pass valid last)]
  omega

end LoopHead

namespace Structured

/-! ## Steps -/

/-- A machine is about to execute a line, with these registers and within these loops. -/
structure Ready (machine : Machine) (line : Nat) (registers : RegisterFile)
    (loops : List LoopFrame) : Prop where
  atLine : machine.pc = line
  holds : machine.registers = registers
  within : machine.loops = loops

section

variable {σ : Type} {program : Program} {machine : Machine} {line header closing pass : Nat}
  {registers : RegisterFile} {loops : List LoopFrame} {instruction : Instruction}
  {head : LoopHead}

/-- An instruction without control flow has its effect and nothing else. -/
theorem execute_straight (only : instruction.straight = true) (sink : Console σ)
    (machine : Machine) (console : σ) :
    machine.execute program sink console instruction =
      ⟨{ machine with registers :=
          (effect sink machine.line instruction machine.registers console).registers },
        (effect sink machine.line instruction machine.registers console).console,
        (effect sink machine.line instruction machine.registers console).trap⟩ := by
  cases instruction with
  | put target source => cases source <;> rfl
  | arithmetic op target left right =>
      have value (operand : Operand) : machine.valueOf operand = valueOf machine.registers operand := by
        cases operand <;> rfl
      simp only [Machine.execute, Machine.apply, effect, value]
      cases op.apply? (valueOf machine.registers left) (valueOf machine.registers right) <;> rfl
  | jump | branch | call | ret | iterThrough | iterFor | endIter => cases only
  | _ => rfl

/-- A bracket acts on the machine alone. -/
theorem execute_bracket {next : Machine} (brackets : instruction.bracket ≠ .neither)
    (applied : machine.apply program instruction = .ok next) (sink : Console σ) (console : σ) :
    machine.execute program sink console instruction = ⟨next, console, none⟩ := by
  cases instruction with
  | iterThrough | iterFor | endIter => simp only [Machine.execute, applied]
  | _ => exact absurd rfl brackets

theorem step_straight (only : instruction.straight = true)
    (here : program.instruction? line = some instruction)
    (ready : Ready machine line registers loops) (sink : Console σ) (console : σ) :
    ∃ next, machine.step program sink console =
        ⟨next, (effect sink line instruction registers console).console,
          (effect sink line instruction registers console).trap⟩ ∧
      Ready next (line + 1) (effect sink line instruction registers console).registers loops := by
  obtain ⟨rfl, rfl, rfl⟩ := ready
  rw [Machine.step_eq here, execute_straight only]
  exact ⟨_, rfl, ⟨rfl, rfl, rfl⟩⟩

/-- Frames of other blocks are not left. -/
theorem filter_header (others : ∀ frame ∈ loops, frame.header ≠ header) :
    loops.filter (·.header != header) = loops := by
  rw [List.filter_eq_self]
  intro frame mem
  exact bne_iff_ne.mpr (others frame mem)

/-- A header starts the first pass of its block. -/
theorem step_enter (valid : head.Valid) (some : 0 < head.passCount)
    (here : program.instruction? line = Option.some (head.instruction closing))
    (others : ∀ frame ∈ loops, frame.header ≠ line)
    (ready : Ready machine line registers loops) (sink : Console σ) (console : σ) :
    ∃ next, machine.step program sink console = ⟨next, console, none⟩ ∧
      Ready next (line + 1) (head.startPass head.firstPass registers)
        (head.frame line head.firstPass :: loops) := by
  obtain ⟨rfl, rfl, rfl⟩ := ready
  have inside : head.firstPass < head.firstPass + head.passCount := by omega
  have applied := LoopHead.apply_instruction valid some program machine.fetch closing
  refine ⟨machine.fetch.enterLoop (head.frame machine.fetch.line head.firstPass), ?_, ?_⟩
  · rw [Machine.step_eq here, execute_bracket (by simp) applied]
  · rw [Machine.enterLoop_eq, LoopHead.beginPass_frame valid inside]
    refine ⟨rfl, rfl, ?_⟩
    exact congrArg (_ :: ·) (filter_header others)

/-- The header of a block without a pass goes behind the block. -/
theorem step_skip (valid : head.Valid) (none : head.passCount = 0)
    (here : program.instruction? line = some (head.instruction closing))
    (others : ∀ frame ∈ loops, frame.header ≠ line)
    (ready : Ready machine line registers loops) (sink : Console σ) (console : σ) :
    ∃ next, machine.step program sink console = ⟨next, console, Option.none⟩ ∧
      Ready next (closing + 1) registers loops := by
  obtain ⟨rfl, rfl, rfl⟩ := ready
  obtain ⟨register, rfl⟩ := LoopHead.eq_count_zero valid none
  rw [Machine.step_eq here]
  exact ⟨_, rfl, ⟨rfl, rfl, filter_header others⟩⟩

/-- At the closing bracket of the innermost loop its frame decides. -/
theorem closeLoop_of_loops {frame : LoopFrame} (within : machine.loops = frame :: loops) :
    machine.closeLoop frame.header =
      if frame.index < frame.last then
        .ok { machine.beginPass { frame with index := frame.index + 1 } with
          loops := { frame with index := frame.index + 1 } :: loops
          pc := frame.header + 1 }
      else .ok { machine with loops := loops } := by
  rw [Machine.closeLoop, within, List.dropWhile_cons_of_neg (by simp)]

/-- A closing bracket starts the next pass of its block. -/
theorem step_again (valid : head.Valid) (more : pass + 1 < head.firstPass + head.passCount)
    (here : program.instruction? line = some (.endIter header))
    (ready : Ready machine line registers (head.frame header pass :: loops)) (sink : Console σ)
    (console : σ) :
    ∃ next, machine.step program sink console = ⟨next, console, none⟩ ∧
      Ready next (header + 1) (head.startPass (pass + 1) registers)
        (head.frame header (pass + 1) :: loops) := by
  obtain ⟨rfl, rfl, within⟩ := ready
  change machine.fetch.loops = _ at within
  have inside : pass < head.firstPass + head.passCount := by omega
  have closed := closeLoop_of_loops within
  rw [if_pos ((LoopHead.frame_lt_iff valid inside).mpr more), LoopHead.frame_succ,
    LoopHead.beginPass_frame valid more] at closed
  have brackets : (Instruction.endIter header).bracket ≠ .neither := nofun
  rw [Machine.step_eq here]
  exact ⟨_, execute_bracket brackets closed sink console, ⟨rfl, rfl, rfl⟩⟩

/-- After the last pass a closing bracket leaves its block. -/
theorem step_leave (valid : head.Valid) (last : pass + 1 = head.firstPass + head.passCount)
    (here : program.instruction? line = some (.endIter header))
    (ready : Ready machine line registers (head.frame header pass :: loops)) (sink : Console σ)
    (console : σ) :
    ∃ next, machine.step program sink console = ⟨next, console, none⟩ ∧
      Ready next (line + 1) registers loops := by
  obtain ⟨rfl, rfl, within⟩ := ready
  change machine.fetch.loops = _ at within
  have inside : pass < head.firstPass + head.passCount := by omega
  have closed := closeLoop_of_loops within
  rw [if_neg fun more => absurd ((LoopHead.frame_lt_iff valid inside).mp more) (by omega)] at closed
  have brackets : (Instruction.endIter header).bracket ≠ .neither := nofun
  rw [Machine.step_eq here]
  exact ⟨_, execute_bracket brackets closed sink console, ⟨rfl, rfl, rfl⟩⟩

end

end Structured

end LineAsm
