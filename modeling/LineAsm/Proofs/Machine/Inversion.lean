import LineAsm.Machine.Step

/-!
# What a step can do

An instruction that acts without a trap changes the machine in one of the ways that
`Machine.Acts` lists, with the condition under which it does so (`acts_of_apply`); most
instructions change the registers and nothing else (`Instruction.straight`).  `Machine.Traps`
lists when an instruction traps (`traps_of_apply`), and executing an instruction is an
act, output or a trap (`does_execute`).
-/

set_option autoImplicit false

namespace LineAsm

/-- Instructions that move no control and touch neither loops nor calls. -/
def Instruction.straight : Instruction → Bool
  | .jump _ | .branch .. | .call _ | .ret | .iterThrough .. | .iterFor .. | .endIter _ => false
  | _ => true

theorem CallStack.records_of_pop? {stack earlier : CallStack} {record : ReturnRecord}
    (latest : stack.pop? = some (record, earlier)) : stack.records = record :: earlier.records := by
  rw [CallStack.pop?] at latest
  split at latest
  · cases latest
  · rename_i records
    obtain ⟨rfl, rfl⟩ := Prod.mk.inj (Option.some.inj latest)
    exact records

namespace Machine

/-! ## Passes of a loop -/

/-- Starting a pass changes the registers and nothing else. -/
theorem beginPass_eq (machine : Machine) (frame : LoopFrame) :
    machine.beginPass frame = { machine with registers := (machine.beginPass frame).registers } := by
  rw [beginPass]
  cases frame.induction <;> rfl

/-- A loop is entered by starting its first pass and putting its frame on top. -/
theorem enterLoop_eq (machine : Machine) (frame : LoopFrame) :
    machine.enterLoop frame =
      { machine with
        registers := (machine.beginPass frame).registers
        loops := frame :: machine.loops.filter (·.header != frame.header) } := by
  unfold enterLoop beginPass
  cases frame.induction <;> rfl

/-! ## Instructions -/

variable (program : Program)

/-- **What an instruction does when it does not trap.** -/
inductive Acts (machine : Machine) : Instruction → Machine → Prop where
  | straight {instruction : Instruction} (only : instruction.straight = true)
      (registers : RegisterFile) : Acts machine instruction { machine with registers := registers }
  | jump (line : Nat) : Acts machine (.jump line) { machine with pc := line }
  | taken {opcode : Opcode} {condition : Condition} {left : Register} {right : Operand} {line : Nat}
      (holds : condition.holds (machine.registers.get left) (machine.valueOf right) = true) :
      Acts machine (.branch opcode condition left right line) { machine with pc := line }
  | passed {opcode : Opcode} {condition : Condition} {left : Register} {right : Operand} {line : Nat}
      (fails : condition.holds (machine.registers.get left) (machine.valueOf right) = false) :
      Acts machine (.branch opcode condition left right line) machine
  | call (line : Nat) (room : machine.atCallLimit = false) :
      Acts machine (.call line) { machine with
        callStack := machine.callStack.push
          ((program.labels.nameAt? line).getD (toString line)) (machine.line + 1)
        pc := line }
  | ret {record : ReturnRecord} {earlier : CallStack}
      (latest : machine.callStack.pop? = some (record, earlier)) :
      Acts machine .ret { machine with callStack := earlier, pc := record.line }
  | through (first last target : Register) (closing : Nat) :
      Acts machine (.iterThrough first last target closing) (machine.enterLoop
        ⟨machine.line, .through first.bank target, Int32.ofNat first.index, Int32.ofNat last.index⟩)
  | count (register : Register) {passes : Int32} (closing : Nat) (some : passes ≠ 0) :
      Acts machine (.iterFor register passes closing)
        (machine.enterLoop ⟨machine.line, .count register, 0, passes - 1⟩)
  | skip (register : Register) (closing : Nat) :
      Acts machine (.iterFor register 0 closing)
        { machine.leaveLoop machine.line with pc := closing + 1 }
  | again {header : Nat} {frame : LoopFrame} {outer : List LoopFrame}
      (active : machine.loops.dropWhile (·.header != header) = frame :: outer)
      (more : frame.index < frame.last) :
      Acts machine (.endIter header)
        { machine.beginPass { frame with index := frame.index + 1 } with
          loops := { frame with index := frame.index + 1 } :: outer
          pc := header + 1 }
  | leave {header : Nat} {frame : LoopFrame} {outer : List LoopFrame}
      (active : machine.loops.dropWhile (·.header != header) = frame :: outer)
      (last : ¬ frame.index < frame.last) :
      Acts machine (.endIter header) { machine with loops := outer }

variable {program} {machine next : Machine} {instruction : Instruction}

theorem acts_of_apply (applied : machine.apply program instruction = .ok next) :
    Acts program machine instruction next := by
  cases instruction with
  | jump line =>
      obtain rfl := Except.ok.inj applied
      exact .jump line
  | branch opcode condition left right line =>
      simp only [apply] at applied
      split at applied
      · rename_i holds
        obtain rfl := Except.ok.inj applied
        exact .taken holds
      · rename_i fails
        obtain rfl := Except.ok.inj applied
        exact .passed (Bool.eq_false_iff.mpr fails)
  | call line =>
      simp only [apply, call] at applied
      split at applied
      · cases applied
      · rename_i room
        obtain rfl := Except.ok.inj applied
        exact .call line (Bool.eq_false_iff.mpr room)
  | ret =>
      simp only [apply, returnFromCall] at applied
      split at applied
      · cases applied
      · rename_i record earlier latest
        obtain rfl := Except.ok.inj applied
        exact .ret latest
  | iterThrough first last target closing =>
      obtain rfl := Except.ok.inj applied
      exact .through first last target closing
  | iterFor register passes closing =>
      simp only [apply] at applied
      split at applied
      · rename_i none
        obtain rfl := Except.ok.inj applied
        rw [none]
        exact .skip register closing
      · rename_i some
        obtain rfl := Except.ok.inj applied
        exact .count register closing some
  | endIter header =>
      simp only [apply, closeLoop] at applied
      split at applied
      · cases applied
      · rename_i frame outer active
        split at applied
        · rename_i more
          obtain rfl := Except.ok.inj applied
          exact .again active more
        · rename_i last
          obtain rfl := Except.ok.inj applied
          exact .leave active last
  | arithmetic op target left right =>
      simp only [apply] at applied
      split at applied
      · cases applied
      · obtain rfl := Except.ok.inj applied
        exact .straight rfl _
  | nop =>
      obtain rfl := Except.ok.inj applied
      exact .straight rfl machine.registers
  | write item =>
      obtain rfl := Except.ok.inj applied
      exact .straight rfl machine.registers
  | clearScreen =>
      obtain rfl := Except.ok.inj applied
      exact .straight rfl machine.registers
  | _ =>
      obtain rfl := Except.ok.inj applied
      exact .straight rfl _

/-- An instruction that acts without a trap keeps the line, the count of lines and the
configuration. -/
theorem Acts.keeps (acts : Acts program machine instruction next) :
    next.line = machine.line ∧ next.steps = machine.steps ∧ next.config = machine.config := by
  cases acts with
  | through => rw [enterLoop_eq]; exact ⟨rfl, rfl, rfl⟩
  | count => rw [enterLoop_eq]; exact ⟨rfl, rfl, rfl⟩
  | again => rw [beginPass_eq]; exact ⟨rfl, rfl, rfl⟩
  | _ => exact ⟨rfl, rfl, rfl⟩

/-! ## Instructions that trap -/

/-- **When an instruction traps.** -/
inductive Traps (machine : Machine) : Instruction → Trap → Prop where
  | divisionByZero {op : ArithmeticOp} {target : Register} {left right : Operand}
      (fails : op.apply? (machine.valueOf left) (machine.valueOf right) = none) :
      Traps machine (.arithmetic op target left right) (.divisionByZero machine.line)
  | stackOverflow (line : Nat) (full : machine.atCallLimit = true) :
      Traps machine (.call line) (.stackOverflow machine.line (machine.callStack.depth + 1))
  | stackUnderflow (empty : machine.callStack.pop? = none) :
      Traps machine .ret (.stackUnderflow machine.line)
  | loopFrame {header : Nat} (inactive : machine.loops.dropWhile (·.header != header) = []) :
      Traps machine (.endIter header) (.loopFrame machine.line)

theorem traps_of_apply {cause : Trap} (failed : machine.apply program instruction = .error cause) :
    Traps machine instruction cause := by
  cases instruction with
  | arithmetic op target left right =>
      simp only [apply] at failed
      split at failed
      · rename_i fails
        obtain rfl := Except.error.inj failed
        exact .divisionByZero fails
      · cases failed
  | call line =>
      simp only [apply, call] at failed
      split at failed
      · rename_i full
        obtain rfl := Except.error.inj failed
        exact .stackOverflow line full
      · cases failed
  | ret =>
      simp only [apply, returnFromCall] at failed
      split at failed
      · rename_i empty
        obtain rfl := Except.error.inj failed
        exact .stackUnderflow empty
      · cases failed
  | endIter header =>
      simp only [apply, closeLoop] at failed
      split at failed
      · rename_i inactive
        obtain rfl := Except.error.inj failed
        exact .loopFrame inactive
      · split at failed <;> cases failed
  | branch =>
      simp only [apply] at failed
      split at failed <;> cases failed
  | iterFor =>
      simp only [apply] at failed
      split at failed <;> cases failed
  | _ => cases failed

/-! ## Instructions on a machine and a console -/

variable {σ : Type}

/-- **What executing an instruction can do**: act on the machine alone, send output to the
console, or trap and leave both as they were. -/
inductive Does (program : Program) (sink : Console σ) (machine : Machine) (console : σ) :
    Instruction → Outcome σ → Prop where
  | acts {instruction : Instruction} {next : Machine}
      (acts : Acts program machine instruction next) :
      Does program sink machine console instruction ⟨next, console, none⟩
  | writes (item : Printable) :
      Does program sink machine console (.write item)
        ⟨machine, (sink.write (item.text machine.registers) console).1,
          (sink.write (item.text machine.registers) console).2.map (.console machine.line)⟩
  | clears :
      Does program sink machine console .clearScreen
        ⟨machine, (sink.clear console).1, (sink.clear console).2.map (.console machine.line)⟩
  | traps {instruction : Instruction} {cause : Trap} (traps : Traps machine instruction cause) :
      Does program sink machine console instruction ⟨machine, console, some cause⟩

theorem does_execute (program : Program) (sink : Console σ) (machine : Machine) (console : σ)
    (instruction : Instruction) :
    Does program sink machine console instruction
      (machine.execute program sink console instruction) := by
  cases instruction with
  | write item => exact .writes item
  | clearScreen => exact .clears
  | _ =>
      simp only [execute]
      split
      · rename_i applied
        exact .acts (acts_of_apply applied)
      · rename_i failed
        exact .traps (traps_of_apply failed)

/-- A step executes the instruction at the program counter on the fetched machine. -/
theorem step_eq {program : Program} {machine : Machine} {instruction : Instruction}
    (here : program.instruction? machine.pc = some instruction) (sink : Console σ) (console : σ) :
    machine.step program sink console = machine.fetch.execute program sink console instruction := by
  rw [step, here]

/-- Where there is no line, a step does nothing. -/
theorem step_eq_self {program : Program} {machine : Machine}
    (nowhere : program.instruction? machine.pc = none) (sink : Console σ) (console : σ) :
    machine.step program sink console = ⟨machine, console, none⟩ := by
  rw [step, nowhere]

end Machine

end LineAsm
