import LineAsm.Proofs.Machine.Calls
import LineAsm.Proofs.Machine.Checked

/-!
# Traps leave the machine as it was

`Machine.execute` gives the machine behind an instruction as a whole, so that it cannot say
what an instruction has changed by the time it traps.  Here the machine and the console are
changed in place, one change after the other, and a trap keeps the changes made before it
(`InPlace.execute`).  A block is entered by dropping its frame, setting its register and
pushing the new frame; a return takes the record off the stack before it looks whether there
was one; a closing bracket drops the frames above its own before it looks at its own.

Both executors end alike (`InPlace.execute_eq`, `InPlace.step_eq`).  So no trap comes behind
a change of the machine, and none but a failure of the console behind a change of the
console; and each trap arises under one condition on the instruction and on the state
before it (`Trap.Arises`).  Together this is `InPlace.traps_change_nothing`.
-/

set_option autoImplicit false

namespace LineAsm

variable {σ : Type} {program : Program} {sink : Console σ} {machine next : Machine}
  {console after : σ} {instruction : Instruction} {cause : Trap}

/-! ## Changes in place -/

/-- A row of changes to a machine and a console.  A trap ends the row and keeps what was
changed before it. -/
abbrev Changes (σ α : Type) := EStateM Trap (Machine × σ) α

namespace InPlace

def look : Changes σ Machine := return (← get).1

def change (how : Machine → Machine) : Changes σ Unit :=
  modify fun (machine, console) => (how machine, console)

def assign (register : Register) (value : Int32) : Changes σ Unit :=
  change (·.assign register value)

def goTo (line : Nat) : Changes σ Unit := change ({ · with pc := line })

def setLoops (loops : List LoopFrame) : Changes σ Unit := change ({ · with loops := loops })

/-- Send output to the console, which may have taken a part of it when it fails. -/
def output (send : σ → σ × Option String) : Changes σ Unit := do
  let (machine, console) ← get
  let (after, failure) := send console
  set (machine, after)
  match failure with
  | none => pure ()
  | some reason => throw (.console machine.line reason)

/-- Set what a loop sets before the pass its frame is at. -/
def beginPass (frame : LoopFrame) : Changes σ Unit := do
  match frame.induction with
  | .through bank target =>
    assign target ((← look).registers.get ⟨bank, frame.index.toNatClampNeg⟩)
  | .count register => assign register frame.index

/-- Drop the frame that a block has, set what its first pass sets and push its new frame. -/
def enterLoop (frame : LoopFrame) : Changes σ Unit := do
  setLoops ((← look).loops.filter (·.header != frame.header))
  beginPass frame
  setLoops (frame :: (← look).loops)

/-- Drop the frames above the latest one of a block, look at the frame that is on top then,
and count it up for the next pass or take it off. -/
def closeLoop (header : Nat) : Changes σ Unit := do
  match (← look).loops.findIdx? (·.header == header) with
  | none => throw (.loopFrame (← look).line)
  | some place =>
    setLoops ((← look).loops.drop place)
    match (← look).loops with
    | [] => throw (.loopFrame (← look).line)
    | frame :: outer =>
      if frame.index < frame.last then
        let counted := { frame with index := frame.index + 1 }
        setLoops (counted :: outer)
        beginPass counted
        goTo (header + 1)
      else setLoops outer

/-- Leave the record of a call and go to the line called. -/
def call (program : Program) (target : Nat) : Changes σ Unit := do
  if (← look).atCallLimit then
    throw (.stackOverflow (← look).line ((← look).callStack.depth + 1))
  let label := (program.labels.nameAt? target).getD (toString target)
  change fun machine =>
    { machine with callStack := machine.callStack.push label (machine.line + 1) }
  goTo target

/-- Take the latest record off the stack, which leaves an empty stack empty, and go where it
says. -/
def returnFromCall : Changes σ Unit := do
  let latest := (← look).callStack.peek?
  change fun machine => { machine with callStack := ⟨machine.callStack.records.tail⟩ }
  match latest with
  | none => throw (.stackUnderflow (← look).line)
  | some record => goTo record.line

/-- **Execute an instruction in place.** -/
def execute (program : Program) (sink : Console σ) (instruction : Instruction) :
    Changes σ Unit := do
  let machine ← look
  match instruction with
  | .nop => pure ()
  | .put target source => assign target (machine.valueOf source)
  | .copy target source => assign target (machine.registers.get source)
  | .swap first second =>
    change fun machine => { machine with registers := machine.registers.swap first second }
  | .free register =>
    change fun machine => { machine with registers := machine.registers.free register }
  | .arithmetic op target left right =>
    match op.apply? (machine.valueOf left) (machine.valueOf right) with
    | none => throw (.divisionByZero machine.line)
    | some value => assign target value
  | .inc register => assign register (machine.registers.get register + 1)
  | .dec register => assign register (machine.registers.get register - 1)
  | .jump line => goTo line
  | .branch _ condition left right line =>
    if condition.holds (machine.registers.get left) (machine.valueOf right) then goTo line
  | .call line => call program line
  | .ret => returnFromCall
  | .iterThrough first last target _ =>
    enterLoop ⟨machine.line, .through first.bank target, Int32.ofNat first.index,
      Int32.ofNat last.index⟩
  | .iterFor register count closing =>
    if count = 0 then
      setLoops (machine.loops.filter (·.header != machine.line))
      goTo (closing + 1)
    else enterLoop ⟨machine.line, .count register, 0, count - 1⟩
  | .endIter header => closeLoop header
  | .write item => output (sink.write (item.text machine.registers))
  | .clearScreen => output sink.clear

/-- Execute in place the line that the program counter is at. -/
def step (program : Program) (sink : Console σ) : Changes σ Unit := do
  let machine ← look
  match program.instruction? machine.pc with
  | none => pure ()
  | some instruction =>
    change ({ · with line := machine.pc })
    goTo (machine.pc + 1)
    change fun machine => { machine with steps := machine.steps + 1 }
    execute program sink instruction

end InPlace

/-! ## Both executors end alike -/

/-- How a row of changes ends that comes to an outcome. -/
def Outcome.ending : Outcome σ → EStateM.Result Trap (Machine × σ) Unit
  | ⟨machine, console, none⟩ => .ok () (machine, console)
  | ⟨machine, console, some cause⟩ => .error cause (machine, console)

namespace InPlace

/-! What follows a look or a change sees the machine as it then is. -/

section Changes

variable {α : Type} (machine : Machine) (console : σ)

@[simp]
theorem look_bind (rest : Machine → Changes σ α) :
    (look >>= rest) (machine, console) = rest machine (machine, console) := rfl

@[simp]
theorem setLoops_bind (loops : List LoopFrame) (rest : Unit → Changes σ α) :
    (setLoops loops >>= rest) (machine, console) =
      rest () ({ machine with loops := loops }, console) := rfl

end Changes

theorem enterLoop_eq (machine : Machine) (console : σ) (frame : LoopFrame) :
    enterLoop frame (machine, console) = .ok () (machine.enterLoop frame, console) := by
  obtain ⟨header, induction, index, last⟩ := frame
  cases induction <;> rfl

theorem output_eq (machine : Machine) (console : σ) (send : σ → σ × Option String) :
    output send (machine, console) =
      Outcome.ending ⟨machine, (send console).1,
        (send console).2.map (.console machine.line)⟩ := by
  change (match (send console).2 with | none => _ | some reason => _ : Changes σ Unit) _ = _
  cases (send console).2 <;> rfl

theorem call_eq (program : Program) (machine : Machine) (console : σ) (target : Nat) :
    call program target (machine, console) =
      (machine.outcome console (machine.call program target)).ending := by
  simp only [call, Machine.call, look_bind]
  split <;> rfl

theorem returnFromCall_eq (machine : Machine) (console : σ) :
    returnFromCall (machine, console) =
      (machine.outcome console machine.returnFromCall).ending := by
  obtain ⟨pc, line, registers, ⟨records⟩, loops, steps, config⟩ := machine
  cases records <;> rfl

theorem closeLoop_eq (machine : Machine) (console : σ) (header : Nat) :
    closeLoop header (machine, console) =
      (machine.outcome console (machine.closeLoop header)).ending := by
  simp only [closeLoop, Machine.closeLoop, look_bind]
  rcases Machine.drop_findIdx? machine.loops header with
    ⟨none, gone⟩ | ⟨place, frame, outer, found, left, kept⟩
  · rw [none, gone]
    rfl
  · rw [found, kept]
    simp only [look_bind, setLoops_bind, left]
    split
    · obtain ⟨own, induction, index, last⟩ := frame
      cases induction <;> rfl
    · rfl

/-- **Executed in place, an instruction comes to the same outcome.** -/
theorem execute_eq (program : Program) (sink : Console σ) (machine : Machine) (console : σ)
    (instruction : Instruction) :
    execute program sink instruction (machine, console) =
      (machine.execute program sink console instruction).ending := by
  cases instruction with
  | arithmetic op target left right =>
      simp only [execute, Machine.execute, Machine.apply, look_bind]
      cases op.apply? (machine.valueOf left) (machine.valueOf right) <;> rfl
  | branch opcode condition left right line =>
      simp only [execute, Machine.execute, Machine.apply, look_bind]
      split <;> rfl
  | call line => exact call_eq program machine console line
  | ret => exact returnFromCall_eq machine console
  | iterThrough first last target closing =>
      simp only [execute, look_bind]
      exact enterLoop_eq machine console _
  | iterFor register count closing =>
      simp only [execute, Machine.execute, Machine.apply, look_bind]
      split
      · rfl
      · exact enterLoop_eq machine console _
  | endIter header => exact closeLoop_eq machine console header
  | write item => exact output_eq machine console _
  | clearScreen => exact output_eq machine console _
  | _ => rfl

theorem step_eq (program : Program) (sink : Console σ) (machine : Machine) (console : σ) :
    step program sink (machine, console) = (machine.step program sink console).ending := by
  cases here : program.instruction? machine.pc with
  | none =>
      rw [Machine.step_eq_self here]
      simp only [step, look_bind, here]
      rfl
  | some instruction =>
      rw [Machine.step_eq here]
      simp only [step, look_bind, here]
      exact execute_eq program sink machine.fetch console instruction

end InPlace

/-! ## When a trap arises -/

theorem ArithmeticOp.apply?_eq_none_iff {op : ArithmeticOp} {left right : Int32} :
    op.apply? left right = none ↔ (op = .div ∨ op = .mod) ∧ right = 0 := by
  unfold ArithmeticOp.apply?
  cases op <;> simp

theorem CallStack.pop?_eq_none_iff {stack : CallStack} :
    stack.pop? = none ↔ stack.records = [] := by
  obtain ⟨records⟩ := stack
  cases records <;> simp [pop?]

/-- **When executing an instruction traps**: the condition of each trap on the instruction, the
machine and the console before it. -/
def Trap.Arises (sink : Console σ) (machine : Machine) (console : σ) (instruction : Instruction) :
    Trap → Prop
  | .divisionByZero line =>
    line = machine.line ∧ ∃ op target left right,
      instruction = .arithmetic op target left right ∧ (op = .div ∨ op = .mod) ∧
        machine.valueOf right = 0
  | .stackUnderflow line =>
    line = machine.line ∧ instruction = .ret ∧ machine.callStack.records = []
  | .stackOverflow line depth =>
    line = machine.line ∧ depth = machine.callStack.depth + 1 ∧
      (∃ target, instruction = .call target) ∧
        ∃ limit, machine.config.maxCallDepth = some limit ∧ limit < depth
  | .loopFrame line =>
    line = machine.line ∧ ∃ header, instruction = .endIter header ∧
      ∀ frame ∈ machine.loops, frame.header ≠ header
  | .stepLimit _ => False
  | .console line reason =>
    line = machine.line ∧
      ((∃ item, instruction = .write item ∧
          (sink.write (item.text machine.registers) console).2 = some reason) ∨
        instruction = .clearScreen ∧ (sink.clear console).2 = some reason)

namespace Machine

theorem arises_of_traps (traps : Traps machine instruction cause) :
    cause.Arises sink machine console instruction := by
  cases traps with
  | divisionByZero fails =>
      obtain ⟨divides, zero⟩ := ArithmeticOp.apply?_eq_none_iff.mp fails
      exact ⟨rfl, _, _, _, _, rfl, divides, zero⟩
  | stackOverflow line full =>
      obtain ⟨limit, limited, deep⟩ := atCallLimit_eq_true_iff.mp full
      exact ⟨rfl, rfl, ⟨line, rfl⟩, limit, limited, Nat.lt_succ_of_le deep⟩
  | stackUnderflow empty => exact ⟨rfl, rfl, CallStack.pop?_eq_none_iff.mp empty⟩
  | @loopFrame header inactive =>
      refine ⟨rfl, header, rfl, ?_⟩
      intro frame mem
      simpa using List.dropWhile_eq_nil_iff.mp inactive frame mem

theorem trap_execute_iff :
    (machine.execute program sink console instruction).trap = some cause ↔
      cause.Arises sink machine console instruction := by
  constructor
  · intro trapped
    have does := does_execute program sink machine console instruction
    generalize machine.execute program sink console instruction = outcome at trapped does
    cases does with
    | acts => cases trapped
    | writes item =>
        obtain ⟨reason, failed, rfl⟩ := Option.map_eq_some_iff.mp trapped
        exact ⟨rfl, .inl ⟨item, rfl, failed⟩⟩
    | clears =>
        obtain ⟨reason, failed, rfl⟩ := Option.map_eq_some_iff.mp trapped
        exact ⟨rfl, .inr ⟨rfl, failed⟩⟩
    | traps traps =>
        obtain rfl := Option.some.inj trapped
        exact arises_of_traps traps
  · intro arises
    cases cause with
    | divisionByZero line =>
        obtain ⟨rfl, op, target, left, right, rfl, divides, zero⟩ := arises
        simp only [execute, apply, ArithmeticOp.apply?_eq_none_iff.mpr ⟨divides, zero⟩]
    | stackUnderflow line =>
        obtain ⟨rfl, rfl, empty⟩ := arises
        simp only [execute, apply, returnFromCall, CallStack.pop?_eq_none_iff.mpr empty]
    | stackOverflow line depth =>
        obtain ⟨rfl, rfl, ⟨target, rfl⟩, limit, limited, deep⟩ := arises
        have full := atCallLimit_eq_true_iff.mpr ⟨limit, limited, Nat.le_of_lt_succ deep⟩
        simp only [execute, apply, call, full, if_true]
    | loopFrame line =>
        obtain ⟨rfl, header, rfl, absent⟩ := arises
        have inactive : machine.loops.dropWhile (·.header != header) = [] :=
          List.dropWhile_eq_nil_iff.mpr fun frame mem => by simpa using absent frame mem
        simp only [execute, apply, closeLoop, inactive]
    | stepLimit => cases arises
    | console line reason =>
        obtain ⟨rfl, ⟨item, rfl, failed⟩ | ⟨rfl, failed⟩⟩ := arises
        · simp only [execute, failed, Option.map_some]
        · simp only [execute, failed, Option.map_some]

/-- An instruction that traps leaves the machine as it was, and unless the console failed it
leaves the console as it was. -/
theorem eq_of_execute_of_trap
    (trapped : machine.execute program sink console instruction = ⟨next, after, some cause⟩) :
    next = machine ∧ ((∃ line reason, cause = .console line reason) ∨ after = console) := by
  have does := does_execute program sink machine console instruction
  rw [trapped] at does
  generalize reached : (⟨next, after, some cause⟩ : Outcome σ) = outcome at does
  cases does with
  | acts => cases reached
  | writes item =>
      obtain ⟨rfl, -, failed⟩ := Outcome.mk.inj reached
      obtain ⟨reason, -, rfl⟩ := Option.map_eq_some_iff.mp failed.symm
      exact ⟨rfl, .inl ⟨_, reason, rfl⟩⟩
  | clears =>
      obtain ⟨rfl, -, failed⟩ := Outcome.mk.inj reached
      obtain ⟨reason, -, rfl⟩ := Option.map_eq_some_iff.mp failed.symm
      exact ⟨rfl, .inl ⟨_, reason, rfl⟩⟩
  | traps =>
      obtain ⟨rfl, rfl, -⟩ := Outcome.mk.inj reached
      exact ⟨rfl, .inr rfl⟩

end Machine

/-! ## Traps -/

theorem Outcome.ending_eq_error_iff {outcome : Outcome σ} :
    outcome.ending = .error cause (next, after) ↔ outcome = ⟨next, after, some cause⟩ := by
  obtain ⟨machine, console, trap⟩ := outcome
  cases trap with
  | none => exact iff_of_false nofun nofun
  | some other =>
      constructor
      · rintro ⟨⟩
        rfl
      · rintro ⟨⟩
        rfl

namespace InPlace

/-- **A trap leaves the machine as it was**, although the machine is changed in place and a
trap takes nothing back.  An instruction that traps has changed no part of the machine, and
unless the console failed it has sent nothing there; so a step that traps has fetched its line
and done nothing else.  Each trap arises under its own condition, and there is no other. -/
theorem traps_change_nothing (program : Program) (sink : Console σ) (machine : Machine)
    (console : σ) :
    (∀ instruction cause next after,
        execute program sink instruction (machine, console) = .error cause (next, after) →
        next = machine ∧ ((∃ line reason, cause = .console line reason) ∨ after = console)) ∧
      (∀ cause next after, step program sink (machine, console) = .error cause (next, after) →
        next = { machine with
          pc := machine.pc + 1, line := machine.pc, steps := machine.steps + 1 } ∧
        ((∃ line reason, cause = .console line reason) ∨ after = console)) ∧
      (∀ instruction cause,
        (∃ reached, execute program sink instruction (machine, console) = .error cause reached) ↔
          cause.Arises sink machine console instruction) ∧
      (∀ instruction, execute program sink instruction (machine, console) =
        (machine.execute program sink console instruction).ending) ∧
      step program sink (machine, console) = (machine.step program sink console).ending := by
  refine ⟨?_, ?_, ?_, execute_eq program sink machine console, step_eq program sink machine console⟩
  · intro instruction cause next after trapped
    rw [execute_eq, Outcome.ending_eq_error_iff] at trapped
    exact Machine.eq_of_execute_of_trap trapped
  · intro cause next after trapped
    rw [step_eq, Outcome.ending_eq_error_iff] at trapped
    cases here : program.instruction? machine.pc with
    | none =>
        rw [Machine.step_eq_self here] at trapped
        cases trapped
    | some instruction =>
        rw [Machine.step_eq here] at trapped
        exact Machine.eq_of_execute_of_trap trapped
  · intro instruction cause
    have traps : (machine.execute program sink console instruction).trap = some cause ↔
        cause.Arises sink machine console instruction := Machine.trap_execute_iff
    rw [execute_eq, ← traps]
    constructor
    · rintro ⟨⟨next, after⟩, trapped⟩
      rw [Outcome.ending_eq_error_iff.mp trapped]
    · intro trapped
      exact ⟨(_, _), Outcome.ending_eq_error_iff.mpr (by rw [← trapped])⟩

/-- A return in a block of a program without a call. -/
def strayReturnSource : String := "ITER_FOR |A0:2| (\nRET\n)\n"

/-- What it is compiled to. -/
def strayReturnProgram : Program where
  lines := #[⟨"ITER_FOR |A0:2| (", .iterFor ⟨.a, 0⟩ 2 3⟩, ⟨"RET", .ret⟩, ⟨")", .endIter 1⟩]
  labels := ⟨[]⟩

/-- The machine that has entered the block. -/
def enteredMachine : Machine :=
  { Machine.initial .unlimited with
    pc := 2, line := 1, loops := [⟨1, .count ⟨.a, 0⟩, 0, 1⟩], steps := 1 }

/-- The return traps at a step and leaves the frame of the block; a bracket of another block
and a full console leave the machine as it was. -/
theorem traps_change_nothing_return :
    Program.compile .source strayReturnSource = .ok strayReturnProgram ∧
      (∃ next, step strayReturnProgram .stream (enteredMachine, "") =
          .error (.stackUnderflow 2) (next, "") ∧
        next = { enteredMachine with pc := 3, line := 2, steps := 2 }) ∧
      (∃ reached, execute strayReturnProgram .stream (.endIter 3) (enteredMachine, "") =
          .error (.loopFrame 1) reached ∧ reached = (enteredMachine, "")) ∧
      ∃ reached, execute strayReturnProgram .bounded (.write .tab) (enteredMachine, ⟨"A", 0⟩) =
          .error (.console 1 "console full") reached ∧ reached.1 = enteredMachine := by
  have compiled : Program.compile .source strayReturnSource = .ok strayReturnProgram := by
    decide +kernel
  obtain ⟨executed, stepped, arises, -⟩ :=
    traps_change_nothing strayReturnProgram .stream enteredMachine ""
  obtain ⟨written, -, fails, -⟩ :=
    traps_change_nothing strayReturnProgram .bounded enteredMachine ⟨"A", 0⟩
  refine ⟨compiled, ⟨_, rfl, (stepped (.stackUnderflow 2) _ _ rfl).1⟩, ?_, ?_⟩
  · obtain ⟨⟨next, after⟩, trapped⟩ :=
      (arises (.endIter 3) (.loopFrame 1)).mpr ⟨rfl, 3, rfl, by decide⟩
    obtain ⟨same, ⟨line, reason, isConsole⟩ | kept⟩ := executed _ _ _ _ trapped
    · cases isConsole
    · exact ⟨_, trapped, Prod.ext same kept⟩
  · obtain ⟨⟨next, after⟩, trapped⟩ :=
      (fails (.write .tab) (.console 1 "console full")).mpr ⟨rfl, .inl ⟨.tab, rfl, rfl⟩⟩
    exact ⟨_, trapped, (written _ _ _ _ trapped).1⟩

end InPlace

end LineAsm
