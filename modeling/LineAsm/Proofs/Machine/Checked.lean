import LineAsm.Proofs.Program.Decoded

/-!
# The machine with its checks

The machine reads an absent register as zero, computes the numbers of passes in words that
wrap around, and looks for the frame of a block only once.  Here is the same machine with
all of this checked (`Machine.step?`): it gives no outcome when an instruction reads or
writes a register that is none of the sixty, when the number of a pass does not fit a word,
or when the frame that a closing bracket has found is gone once the frames above it have
been dropped.

Where the registers that an instruction names are valid and the frames are sound, no check
fails (`Machine.perform?_eq`).
-/

set_option autoImplicit false

namespace LineAsm

/-! ## Checked registers and words -/

namespace RegisterFile

/-- Read a register that is one of the sixty. -/
def read? (file : RegisterFile) (register : Register) : Option Int32 :=
  if register.Valid then some (file.get register) else none

/-- Write a register that is one of the sixty. -/
def write? (file : RegisterFile) (register : Register) (value : Int32) : Option RegisterFile :=
  if register.Valid then some (file.put register value) else none

theorem read?_eq {register : Register} (valid : register.Valid) (file : RegisterFile) :
    file.read? register = some (file.get register) := if_pos valid

theorem write?_eq {register : Register} (valid : register.Valid) (file : RegisterFile)
    (value : Int32) : file.write? register value = some (file.put register value) := if_pos valid

end RegisterFile

/-- The word of an integer that fits one. -/
def checkedWord (value : Int) : Option Int32 :=
  if Int32.minValue.toInt ≤ value ∧ value ≤ Int32.maxValue.toInt then some (Int32.ofInt value)
  else none

/-- The text of an output instruction whose register is one of the sixty. -/
def Printable.text? (registers : RegisterFile) (item : Printable) : Option String :=
  if ∀ register ∈ item.registers, register.Valid then some (item.text registers) else none

namespace Machine

variable {machine : Machine} {program : Program}

/-! ## Checked instructions -/

def valueOf? (machine : Machine) : Operand → Option Int32
  | .register register => machine.registers.read? register
  | .literal value => some value

def assign? (machine : Machine) (register : Register) (value : Int32) : Option Machine :=
  (machine.registers.write? register value).map fun registers => { machine with registers }

/-- Start a pass; the number of a register is not negative. -/
def beginPass? (machine : Machine) (frame : LoopFrame) : Option Machine :=
  match frame.induction with
  | .through bank target =>
    if frame.index < 0 then none
    else do
      let value ← machine.registers.read? ⟨bank, frame.index.toNatClampNeg⟩
      machine.assign? target value
  | .count register => machine.assign? register frame.index

def enterLoop? (machine : Machine) (frame : LoopFrame) : Option Machine := do
  let begun ← (machine.leaveLoop frame.header).beginPass? frame
  some { begun with loops := frame :: begun.loops }

/-- Reach a closing bracket: find the latest frame of the block, drop the frames above it,
and look at the latest frame that is left. -/
def closeLoop? (machine : Machine) (header : Nat) : Option (Except Trap Machine) :=
  match machine.loops.findIdx? (·.header == header) with
  | none => some (.error (.loopFrame machine.line))
  | some place =>
    match machine.loops.drop place with
    | [] => none
    | frame :: outer =>
      if frame.index < frame.last then do
        let index ← checkedWord (frame.index.toInt + 1)
        let begun ← machine.beginPass? { frame with index }
        some (.ok { begun with loops := { frame with index } :: outer, pc := header + 1 })
      else some (.ok { machine with loops := outer })

/-- What an instruction does, when none of its checks fails. -/
def perform? (program : Program) (machine : Machine) :
    Instruction → Option (Except Trap Machine)
  | .put target source => do
    let value ← machine.valueOf? source
    return .ok (← machine.assign? target value)
  | .copy target source => do
    let value ← machine.registers.read? source
    return .ok (← machine.assign? target value)
  | .swap first second => do
    let one ← machine.registers.read? first
    let other ← machine.registers.read? second
    return .ok (← (← machine.assign? first other).assign? second one)
  | .free register => do
    return .ok (← machine.assign? register 0)
  | .arithmetic op target left right => do
    let leftValue ← machine.valueOf? left
    let rightValue ← machine.valueOf? right
    match op.apply? leftValue rightValue with
    | none => return .error (.divisionByZero machine.line)
    | some value => return .ok (← machine.assign? target value)
  | .inc register => do
    let value ← machine.registers.read? register
    return .ok (← machine.assign? register (value + 1))
  | .dec register => do
    let value ← machine.registers.read? register
    return .ok (← machine.assign? register (value - 1))
  | .branch _ condition left right line => do
    let leftValue ← machine.registers.read? left
    let rightValue ← machine.valueOf? right
    return .ok (if condition.holds leftValue rightValue then { machine with pc := line }
      else machine)
  | .iterThrough first last target _ => do
    let index ← checkedWord first.index
    let last ← checkedWord last.index
    return .ok (← machine.enterLoop? ⟨machine.line, .through first.bank target, index, last⟩)
  | .iterFor register count closing =>
    if count = 0 then some (.ok { machine.leaveLoop machine.line with pc := closing + 1 })
    else do
      let last ← checkedWord (count.toInt - 1)
      return .ok (← machine.enterLoop? ⟨machine.line, .count register, 0, last⟩)
  | .endIter header => machine.closeLoop? header
  | other => some (machine.apply program other)

variable {σ : Type}

/-- What has become of a machine and a console once an instruction has acted or trapped. -/
def outcome (machine : Machine) (console : σ) : Except Trap Machine → Outcome σ
  | .ok next => ⟨next, console, none⟩
  | .error trap => ⟨machine, console, some trap⟩

/-- Execute an instruction, when none of its checks fails. -/
def execute? (program : Program) (sink : Console σ) (machine : Machine) (console : σ)
    (instruction : Instruction) : Option (Outcome σ) :=
  match instruction with
  | .write item => do
    let text ← item.text? machine.registers
    let (after, failure) := sink.write text console
    return ⟨machine, after, failure.map (.console machine.line)⟩
  | .clearScreen => some (machine.execute program sink console .clearScreen)
  | instruction => (machine.perform? program instruction).map (machine.outcome console)

/-- Execute the line the program counter is at, when none of its checks fails. -/
def step? (program : Program) (sink : Console σ) (machine : Machine) (console : σ) :
    Option (Outcome σ) :=
  match program.instruction? machine.pc with
  | none => some ⟨machine, console, none⟩
  | some instruction => machine.fetch.execute? program sink console instruction

/-! ## When no check fails -/

theorem valueOf?_eq {operand : Operand} (valid : ∀ register ∈ operand.registers, register.Valid) :
    machine.valueOf? operand = some (machine.valueOf operand) := by
  cases operand with
  | register named => exact RegisterFile.read?_eq (valid named (List.mem_singleton.mpr rfl)) _
  | literal value => rfl

theorem assign?_eq {register : Register} (valid : register.Valid) (value : Int32) :
    machine.assign? register value = some (machine.assign register value) := by
  rw [assign?, RegisterFile.write?_eq valid, Option.map_some]
  rfl

/-- The registers that are read and written when the pass of a frame is started are among
the sixty. -/
def Startable (frame : LoopFrame) : Prop :=
  match frame.induction with
  | .through _ target => 0 ≤ frame.index.toInt ∧ frame.index.toInt ≤ 9 ∧ target.Valid
  | .count register => register.Valid

theorem beginPass?_eq {frame : LoopFrame} (startable : Startable frame) :
    machine.beginPass? frame = some (machine.beginPass frame) := by
  obtain ⟨header, induction, index, last⟩ := frame
  cases induction with
  | through bank target =>
      obtain ⟨notNegative, digit, valid⟩ := startable
      have valid' : Register.Valid ⟨bank, index.toNatClampNeg⟩ := by
        rw [← Int32.toNat_toInt]
        exact Int.toNat_lt' (by decide) |>.mpr (Int.lt_add_one_of_le digit)
      have positive : ¬ index < 0 := by
        rw [Int32.lt_iff_toInt_lt]
        exact Int.not_lt.mpr notNegative
      simp only [beginPass?, if_neg positive, RegisterFile.read?_eq valid', assign?_eq valid]
      rfl
  | count register => exact assign?_eq startable index

theorem enterLoop?_eq {frame : LoopFrame} (startable : Startable frame) :
    machine.enterLoop? frame = some (machine.enterLoop frame) := by
  rw [enterLoop?, beginPass?_eq startable]
  rfl

/-- A checked word stands for its integer. -/
theorem toInt_of_checkedWord {value : Int} {word : Int32}
    (checked : checkedWord value = some word) : word.toInt = value := by
  rw [checkedWord] at checked
  split at checked
  · rename_i fits
    obtain rfl := Option.some.inj checked
    exact Int32.toInt_ofInt_of_le fits.1 (Int.lt_add_one_of_le fits.2)
  · cases checked

theorem checkedWord_succ {index last : Int32} (more : index < last) :
    checkedWord (index.toInt + 1) = some (index + 1) := by
  have lower := Int32.minValue_le_toInt index
  have upper := Int32.toInt_le last
  have below := Int32.lt_iff_toInt_lt.mp more
  rw [checkedWord, if_pos (by omega), Int32.ofInt_add, Int32.ofInt_toInt]
  rfl

theorem checkedWord_pred {count : Int32} (notNegative : 0 ≤ count.toInt) :
    checkedWord (count.toInt - 1) = some (count - 1) := by
  have upper := Int32.toInt_le count
  have least : Int32.minValue.toInt = -2147483648 := rfl
  rw [checkedWord, if_pos (by omega), Int32.ofInt_sub, Int32.ofInt_toInt]
  rfl

theorem checkedWord_digit {index : Nat} (digit : index < 10) :
    checkedWord index = some (Int32.ofNat index) := by
  have least : Int32.minValue.toInt = -2147483648 := rfl
  have greatest : Int32.maxValue.toInt = 2147483647 := rfl
  rw [checkedWord, if_pos (by omega), Int32.ofInt_eq_ofNat]

/-! ## Closing brackets -/

/-- Dropping what is above the latest frame of a block leaves that frame the latest. -/
theorem drop_findIdx? (loops : List LoopFrame) (header : Nat) :
    (loops.findIdx? (·.header == header) = none ∧
        loops.dropWhile (·.header != header) = []) ∨
      ∃ place frame outer, loops.findIdx? (·.header == header) = some place ∧
        loops.drop place = frame :: outer ∧
        loops.dropWhile (·.header != header) = frame :: outer := by
  induction loops with
  | nil => exact .inl ⟨rfl, rfl⟩
  | cons first later ih =>
      by_cases same : first.header = header
      · refine .inr ⟨0, first, later, ?_, rfl, ?_⟩
        · simp [List.findIdx?_cons, same]
        · simp [same]
      · have test : (first.header == header) = false := beq_eq_false_iff_ne.mpr same
        have other : (first.header != header) = true := bne_iff_ne.mpr same
        rw [List.findIdx?_cons, test,
          List.dropWhile_cons_of_pos (p := fun frame : LoopFrame => frame.header != header) other]
        rcases ih with ⟨none, gone⟩ | ⟨place, frame, outer, found, left, kept⟩
        · exact .inl ⟨by simp [none], gone⟩
        · exact .inr ⟨place + 1, frame, outer, by simp [found], left, kept⟩

/-- The frame that a closing bracket finds is still there when the frames above it have
been dropped, and the number of its next pass fits a word. -/
theorem closeLoop?_eq {header : Nat}
    (startable : ∀ frame ∈ machine.loops, frame.index < frame.last →
      Startable { frame with index := frame.index + 1 }) :
    machine.closeLoop? header = some (machine.closeLoop header) := by
  rw [closeLoop?]
  rw [closeLoop]
  rcases drop_findIdx? machine.loops header with
    ⟨none, gone⟩ | ⟨place, frame, outer, found, left, kept⟩
  · simp only [none, gone]
  · simp only [found, left, kept]
    by_cases more : frame.index < frame.last
    · have mem : frame ∈ machine.loops :=
        List.mem_of_mem_drop (i := place) (left ▸ List.mem_cons_self ..)
      simp only [if_pos more, checkedWord_succ more, beginPass?_eq (startable frame mem more),
        Option.bind_eq_bind, Option.bind_some]
    · simp only [if_neg more]

/-! ## Instructions -/

/-- What an instruction needs for its checks not to fail. -/
structure Checks (machine : Machine) (instruction : Instruction) : Prop where
  registers : ∀ register ∈ instruction.registers, register.Valid
  headers : ∀ (head : LoopHead) (closing : Nat), instruction = head.instruction closing → head.Valid
  frames : ∀ frame ∈ machine.loops, frame.index < frame.last →
    Startable { frame with index := frame.index + 1 }

theorem perform?_eq {instruction : Instruction} (checks : Checks machine instruction) :
    machine.perform? program instruction = some (machine.apply program instruction) := by
  obtain ⟨valid, headers, frames⟩ := checks
  cases instruction with
  | put target source =>
      obtain ⟨isTarget, isSource⟩ := List.forall_mem_cons.mp valid
      simp only [perform?, apply, valueOf?_eq isSource, assign?_eq isTarget, Option.bind_eq_bind,
        Option.bind_some, Option.pure_def]
  | copy target source =>
      obtain ⟨isTarget, isSource⟩ : target.Valid ∧ source.Valid := by
        simpa [Instruction.registers] using valid
      simp only [perform?, apply, RegisterFile.read?_eq isSource, assign?_eq isTarget,
        Option.bind_eq_bind, Option.bind_some, Option.pure_def]
  | swap first second =>
      obtain ⟨isFirst, isSecond⟩ : first.Valid ∧ second.Valid := by
        simpa [Instruction.registers] using valid
      simp only [perform?, apply, RegisterFile.read?_eq isFirst, RegisterFile.read?_eq isSecond,
        assign?_eq isFirst, assign?_eq isSecond, Option.bind_eq_bind, Option.bind_some,
        Option.pure_def]
      rfl
  | free register =>
      have isRegister := valid register (List.mem_singleton.mpr rfl)
      simp only [perform?, apply, assign?_eq isRegister, Option.bind_eq_bind, Option.bind_some,
        Option.pure_def]
      rfl
  | inc register | dec register =>
      have isRegister := valid register (List.mem_singleton.mpr rfl)
      simp only [perform?, apply, RegisterFile.read?_eq isRegister, assign?_eq isRegister,
        Option.bind_eq_bind, Option.bind_some, Option.pure_def]
  | arithmetic op target left right =>
      obtain ⟨isTarget, operands⟩ := List.forall_mem_cons.mp valid
      obtain ⟨isLeft, isRight⟩ := List.forall_mem_append.mp operands
      simp only [perform?, apply, valueOf?_eq isLeft, valueOf?_eq isRight, assign?_eq isTarget,
        Option.bind_eq_bind, Option.bind_some, Option.pure_def]
      cases op.apply? (machine.valueOf left) (machine.valueOf right) <;> rfl
  | branch opcode condition left right line =>
      obtain ⟨isLeft, isRight⟩ := List.forall_mem_cons.mp valid
      simp only [perform?, apply, RegisterFile.read?_eq isLeft, valueOf?_eq isRight,
        Option.bind_eq_bind, Option.bind_some, Option.pure_def]
      split <;> rfl
  | iterThrough first last target closing =>
      obtain ⟨isFirst, isLast, isTarget⟩ : first.Valid ∧ last.Valid ∧ target.Valid := by
        simpa [Instruction.registers] using valid
      have startable : Startable ⟨machine.line, .through first.bank target,
          Int32.ofNat first.index, Int32.ofNat last.index⟩ := by
        have digit : first.index < 10 := isFirst
        have number := toInt_of_checkedWord (checkedWord_digit digit)
        refine ⟨?_, ?_, isTarget⟩
        · rw [number]
          exact Int.natCast_nonneg _
        · rw [number]
          omega
      simp only [perform?, apply, checkedWord_digit isFirst, checkedWord_digit isLast,
        enterLoop?_eq startable, Option.bind_eq_bind, Option.bind_some, Option.pure_def]
  | iterFor register count closing =>
      have notNegative : 0 ≤ count.toInt :=
        Int32.le_iff_toInt_le.mp (headers (.count register count) closing rfl)
      have isRegister := valid register (List.mem_singleton.mpr rfl)
      have startable : Startable ⟨machine.line, .count register, 0, count - 1⟩ := isRegister
      simp only [perform?, apply, checkedWord_pred notNegative, enterLoop?_eq startable,
        Option.bind_eq_bind, Option.bind_some, Option.pure_def]
      split <;> rfl
  | endIter header => exact closeLoop?_eq frames
  | _ => rfl

/-- **Where no check fails, the checked machine executes as the machine does.** -/
theorem execute?_eq {instruction : Instruction} (checks : Checks machine instruction)
    (sink : Console σ) (console : σ) :
    machine.execute? program sink console instruction =
      some (machine.execute program sink console instruction) := by
  cases instruction with
  | write item =>
      have text : item.text? machine.registers = some (item.text machine.registers) :=
        if_pos checks.registers
      simp only [execute?, execute, text, Option.bind_eq_bind, Option.bind_some, Option.pure_def]
  | clearScreen => rfl
  | _ =>
      simp only [execute?, perform?_eq checks, Option.map_some]
      rfl

end Machine

end LineAsm
