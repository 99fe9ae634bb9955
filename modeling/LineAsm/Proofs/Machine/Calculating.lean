import LineAsm.Proofs.Machine.Arithmetic
import LineAsm.Proofs.Machine.BoundedRuns
import LineAsm.Proofs.Program.BlockTree
import Mathlib.Data.Int.ModEq

/-!
# Exact calculation modulo the number of words

What an arithmetic operation gives on integers is said without rounding or wrapping
(`ArithmeticOp.Exact`): a quotient is the one that leaves a remainder smaller than the divisor
and with the sign of the dividend (`Divides`), which is the quotient rounded toward zero
(`divides_iff`).  A line with an arithmetic instruction leaves in its target the only word that
is congruent to this result modulo the number of words, and changes no other register
(`Calculates`, `Machine.step_calculates`).

Congruences add and multiply, so a quotient times its divisor, with the remainder added, is the
dividend again, even where the quotient does not fit a word (`restores`).  Both are put together
in `Machine.arithmetic_exact`.
-/

set_option autoImplicit false

namespace LineAsm

/-! ## Exact results -/

/-- **Division of integers**: the quotient is rounded toward zero, so what remains is smaller
than the divisor and has the sign of the dividend. -/
structure Divides (left right quotient remainder : Int) : Prop where
  whole : left = quotient * right + remainder
  small : remainder.natAbs < right.natAbs
  sign : remainder = 0 ∨ remainder.sign = left.sign

/-- **The exact result of an operation on integers.** -/
inductive ArithmeticOp.Exact (left right : Int) : ArithmeticOp → Int → Prop where
  | add : Exact left right .add (left + right)
  | sub : Exact left right .sub (left - right)
  | mul : Exact left right .mul (left * right)
  | div {quotient remainder : Int} (divides : Divides left right quotient remainder) :
      Exact left right .div quotient
  | mod {quotient remainder : Int} (divides : Divides left right quotient remainder) :
      Exact left right .mod remainder

/-- **One integer is divided by another in one way.** -/
theorem divides_iff {left right quotient remainder : Int} (nonzero : right ≠ 0) :
    Divides left right quotient remainder ↔
      quotient = left.tdiv right ∧ remainder = left.tmod right := by
  constructor
  · rintro ⟨whole, small, sign⟩
    have parts : remainder + right * quotient = left := by
      rw [whole, Int.mul_comm, Int.add_comm]
    rw [eq_comm, eq_comm (a := remainder)]
    rcases Int.le_total 0 left with nonneg | nonpos
    · refine (Int.tdiv_tmod_unique nonneg nonzero).mpr ⟨parts, ?_, by omega⟩
      rcases sign with zero | same
      · exact zero.ge
      · exact Int.sign_nonneg_iff.mp (same ▸ Int.sign_nonneg_iff.mpr nonneg)
    · refine (Int.tdiv_tmod_unique' nonpos nonzero).mpr ⟨parts, by omega, ?_⟩
      rcases sign with zero | same
      · exact zero.le
      · exact Int.sign_nonpos_iff.mp (same ▸ Int.sign_nonpos_iff.mpr nonpos)
  · rintro ⟨rfl, rfl⟩
    refine ⟨(Int.tdiv_mul_add_tmod left right).symm, ?_, ?_⟩
    · rw [Int.natAbs_tmod]
      exact Nat.mod_lt _ (Int.natAbs_pos.mpr nonzero)
    · by_cases divides : right ∣ left
      · exact .inl (Int.tmod_eq_zero_of_dvd divides)
      · exact .inr ((Int.sign_tmod left right).trans (if_neg divides))

/-! ## Words -/

/-- **The word of an integer** is the only one that is congruent to it. -/
theorem Int32.toInt_modEq_iff {word : Int32} {value : Int} :
    word.toInt ≡ value [ZMOD Int32.size] ↔ word = Int32.ofInt value := by
  constructor
  · intro congruent
    have wrapped : word.toInt.bmod Int32.size = value.bmod Int32.size := by
      rw [← Int.emod_bmod, ← Int.emod_bmod value]
      exact congrArg (Int.bmod · Int32.size) congruent
    rw [← Int32.toInt_inj, Int32.toInt_ofInt, ← wrapped, Int32.toInt_bmod_size]
  · rintro rfl
    rw [Int32.toInt_ofInt]
    exact Int.bmod_emod

/-- **Operations have exact results**, and their words are those that the machine computes. -/
theorem ArithmeticOp.exists_exact (op : ArithmeticOp) (left : Int32) {right : Int32}
    (defined : op = .div ∨ op = .mod → right ≠ 0) :
    ∃ result, op.Exact left.toInt right.toInt result ∧
      op.apply? left right = some (Int32.ofInt result) := by
  have divides (nonzero : right ≠ 0) :
      Divides left.toInt right.toInt (left.toInt.tdiv right.toInt)
          (left.toInt.tmod right.toInt) ∧ right.toInt ≠ 0 := by
    have nonzero : right.toInt ≠ 0 := fun zero => nonzero (Int32.toInt_inj.mp zero)
    exact ⟨(divides_iff nonzero).mpr ⟨rfl, rfl⟩, nonzero⟩
  rw [apply?_eq]
  cases op with
  | add => exact ⟨_, .add, rfl⟩
  | sub => exact ⟨_, .sub, rfl⟩
  | mul => exact ⟨_, .mul, rfl⟩
  | div =>
      obtain ⟨parts, nonzero⟩ := divides (defined (.inl rfl))
      exact ⟨_, .div parts, by rw [integer?, if_neg nonzero, Option.map_some]⟩
  | mod =>
      obtain ⟨parts, nonzero⟩ := divides (defined (.inr rfl))
      exact ⟨_, .mod parts, by rw [integer?, if_neg nonzero, Option.map_some]⟩

/-! ## Steps -/

/-- **Registers after an exact operation** on two words: the target holds the only word that is
congruent to the exact result modulo the number of words, and no other register has changed. -/
structure Calculates (op : ArithmeticOp) (left right : Int32) (target : Register)
    (before after : RegisterFile) : Prop where
  exact : ∃ result, op.Exact left.toInt right.toInt result ∧
    ∀ word : Int32, word.toInt ≡ result [ZMOD Int32.size] ↔ word = after.get target
  kept : ∀ other : Register, other.Valid → other ≠ target → after.get other = before.get other

namespace Machine

variable {σ : Type} {program : Program} {sink : Console σ} {machine : Machine} {console : σ}
  {op : ArithmeticOp} {target : Register} {left right : Operand}

/-- The machine behind a line that has changed the registers and nothing else. -/
def passLine (machine : Machine) (registers : RegisterFile) : Machine :=
  { machine.fetch with registers := registers }

/-- **A line with an arithmetic instruction** changes the registers only, and calculates. -/
theorem step_calculates
    (here : program.instruction? machine.pc = some (.arithmetic op target left right))
    (valid : target.Valid) (defined : op = .div ∨ op = .mod → machine.valueOf right ≠ 0)
    (sink : Console σ) (console : σ) :
    ∃ registers,
      machine.step program sink console = ⟨machine.passLine registers, console, none⟩ ∧
        Calculates op (machine.valueOf left) (machine.valueOf right) target machine.registers
          registers := by
  obtain ⟨result, exact, applied⟩ := op.exists_exact (machine.valueOf left) defined
  refine ⟨machine.registers.put target (Int32.ofInt result), ?_, ⟨result, exact, fun word => ?_⟩,
    fun other otherValid different => ?_⟩
  · have values (operand : Operand) : machine.fetch.valueOf operand = machine.valueOf operand := by
      cases operand <;> rfl
    rw [step_eq here]
    simp only [execute, apply, values, applied]
    rfl
  · rw [RegisterFile.get_put_self _ valid]
    exact Int32.toInt_modEq_iff
  · exact RegisterFile.get_put_of_ne _ valid otherValid different _

/-- A run goes on behind a line that calculates. -/
theorem runFor_calculates (machine : Machine)
    (here : program.instruction? machine.pc = some (.arithmetic op target left right))
    (valid : target.Valid) (defined : op = .div ∨ op = .mod → machine.valueOf right ≠ 0)
    (below : machine.atStepLimit = false) (sink : Console σ) (console : σ) (given : Nat) :
    ∃ registers,
      machine.runFor program sink (given + 1) console =
          (machine.passLine registers).runFor program sink given console ∧
        Calculates op (machine.valueOf left) (machine.valueOf right) target machine.registers
          registers := by
  obtain ⟨registers, stepped, calculates⟩ := step_calculates here valid defined sink console
  have running : machine.isHalted program = false := by
    refine Bool.eq_false_iff.mpr fun halted => ?_
    rw [instruction?_of_isHalted halted] at here
    cases here
  exact ⟨registers, runFor_succ_of_step running below stepped given, calculates⟩

end Machine

/-! ## Quotient and remainder give the dividend back -/

/-- Divide, and put the dividend together again from the quotient and the remainder. -/
def restoring (quotient remainder dividend divisor : Register) : List Instruction :=
  [.arithmetic .div quotient (.register dividend) (.register divisor),
    .arithmetic .mod remainder (.register dividend) (.register divisor),
    .arithmetic .mul quotient (.register quotient) (.register divisor),
    .arithmetic .add quotient (.register quotient) (.register remainder)]

/-- The word of an exact result is the one that the target holds. -/
theorem Calculates.exists_modEq {op : ArithmeticOp} {left right : Int32} {target : Register}
    {before after : RegisterFile} (calculates : Calculates op left right target before after) :
    ∃ result, op.Exact left.toInt right.toInt result ∧
      (after.get target).toInt ≡ result [ZMOD Int32.size] := by
  obtain ⟨result, exact, congruent⟩ := calculates.exact
  exact ⟨result, exact, (congruent _).mpr rfl⟩

/-- **A dividend is put together again** from its quotient and its remainder. -/
theorem restores {quotient remainder dividend divisor : Register}
    {first second third fourth last : RegisterFile}
    (distinct : [quotient, remainder, dividend, divisor].Nodup)
    (valid : ∀ register ∈ [quotient, remainder, dividend, divisor], register.Valid)
    (nonzero : first.get divisor ≠ 0)
    (divided : Calculates .div (first.get dividend) (first.get divisor) quotient first second)
    (remained : Calculates .mod (second.get dividend) (second.get divisor) remainder second third)
    (multiplied : Calculates .mul (third.get quotient) (third.get divisor) quotient third fourth)
    (added : Calculates .add (fourth.get quotient) (fourth.get remainder) quotient fourth last) :
    last.get quotient = first.get dividend ∧
      ∀ other : Register, other.Valid → other ≠ quotient → other ≠ remainder →
        last.get other = first.get other := by
  simp only [List.nodup_cons, List.mem_cons, List.not_mem_nil, or_false, not_or] at distinct
  simp only [List.forall_mem_cons] at valid
  obtain ⟨⟨qr, qa, qb⟩, ⟨ra, rb⟩, ab, -⟩ := distinct
  obtain ⟨qValid, rValid, aValid, bValid, -⟩ := valid
  have kept : ∀ other : Register, other.Valid → other ≠ quotient → other ≠ remainder →
      last.get other = first.get other := fun other otherValid notQ notR =>
    calc last.get other = fourth.get other := added.kept other otherValid notQ
      _ = third.get other := multiplied.kept other otherValid notQ
      _ = second.get other := remained.kept other otherValid notR
      _ = first.get other := divided.kept other otherValid notQ
  refine ⟨?_, kept⟩
  have nonzero : (first.get divisor).toInt ≠ 0 := fun zero => nonzero (Int32.toInt_inj.mp zero)
  -- Every operand is read from a register that no line before has changed, or the line before.
  rw [divided.kept _ aValid (Ne.symm qa), divided.kept _ bValid (Ne.symm qb)] at remained
  rw [remained.kept _ qValid qr, remained.kept _ bValid (Ne.symm rb),
    divided.kept _ bValid (Ne.symm qb)] at multiplied
  rw [multiplied.kept _ rValid (Ne.symm qr)] at added
  have ⟨_, .div parts, isQuotient⟩ := divided.exists_modEq
  have ⟨_, .mod otherParts, isRemainder⟩ := remained.exists_modEq
  have ⟨_, .mul, isProduct⟩ := multiplied.exists_modEq
  have ⟨_, .add, isSum⟩ := added.exists_modEq
  obtain ⟨rfl, -⟩ := (divides_iff nonzero).mp parts
  obtain ⟨rfl, rfl⟩ := (divides_iff nonzero).mp otherParts
  have sum : (last.get quotient).toInt ≡ (first.get dividend).toInt [ZMOD Int32.size] := by
    rw [otherParts.whole]
    exact isSum.trans ((isProduct.trans (isQuotient.mul_right _)).add isRemainder)
  rw [Int32.toInt_modEq_iff.mp sum, Int32.ofInt_toInt]

namespace Machine

variable {σ : Type} {program : Program} {machine : Machine}

/-- A machine is below its step limit while it has room for a line more. -/
theorem atStepLimit_of_room (room : ∀ limit ∈ machine.config.maxSteps, machine.steps < limit) :
    machine.atStepLimit = false := by
  unfold atStepLimit
  cases limited : machine.config.maxSteps with
  | none => rfl
  | some limit => exact decide_eq_false (Nat.not_le_of_lt (room limit limited))

/-- The lines that restore a dividend calculate one after the other. -/
theorem runFor_restoring {quotient remainder dividend divisor : Register}
    (instructions : program.instructions = restoring quotient remainder dividend divisor)
    (start : machine.pc = 1) (room : ∀ limit ∈ machine.config.maxSteps, machine.steps + 4 ≤ limit)
    (quotientValid : quotient.Valid) (remainderValid : remainder.Valid)
    (divisorValid : divisor.Valid) (apart : divisor ≠ quotient)
    (nonzero : machine.registers.get divisor ≠ 0) (sink : Console σ) (console : σ) :
    ∃ (second third fourth : RegisterFile) (last : Machine),
      machine.runFor program sink 4 console = some ⟨last, console, none⟩ ∧
        Calculates .div (machine.registers.get dividend) (machine.registers.get divisor) quotient
          machine.registers second ∧
        Calculates .mod (second.get dividend) (second.get divisor) remainder second third ∧
        Calculates .mul (third.get quotient) (third.get divisor) quotient third fourth ∧
        Calculates .add (fourth.get quotient) (fourth.get remainder) quotient fourth
          last.registers := by
  have lineAt (place : Nat) : program.instruction? (machine.pc + place) =
      (restoring quotient remainder dividend divisor)[place]? := by
    rw [start, Program.instruction?_eq, if_neg (by omega), instructions, Nat.add_sub_cancel_left]
  have below {later : Machine} (config : later.config = machine.config)
      (steps : later.steps < machine.steps + 4) : later.atStepLimit = false :=
    atStepLimit_of_room fun limit limited =>
      Nat.lt_of_lt_of_le steps (room limit (config ▸ limited))
  obtain ⟨second, ran, divided⟩ := runFor_calculates machine (lineAt 0) quotientValid
    (fun _ => nonzero) (below rfl (by omega)) sink console 3
  have nonzero : second.get divisor ≠ 0 := by
    rwa [divided.kept divisor divisorValid apart]
  let two := machine.passLine second
  obtain ⟨third, ranOn, remained⟩ := runFor_calculates two (lineAt 1) remainderValid
    (fun _ => nonzero) (below rfl (show machine.steps + 1 < machine.steps + 4 by omega)) sink
    console 2
  let three := two.passLine third
  obtain ⟨fourth, ranFurther, multiplied⟩ := runFor_calculates three (lineAt 2)
    quotientValid (by simp) (below rfl (show machine.steps + 2 < machine.steps + 4 by omega)) sink
    console 1
  let four := three.passLine fourth
  obtain ⟨last, ranOut, added⟩ := runFor_calculates four (lineAt 3)
    quotientValid (by simp) (below rfl (show machine.steps + 3 < machine.steps + 4 by omega)) sink
    console 0
  have halted : (four.passLine last).isHalted program = true := by
    have size : program.size = 4 := by
      rw [Program.size, ← Array.length_toList, ← List.length_map (·.instruction)]
      exact congrArg List.length instructions
    have line : (four.passLine last).pc = machine.pc + 4 := rfl
    exact decide_eq_true (by rw [size, line, start]; decide)
  refine ⟨second, third, fourth, four.passLine last, ?_, divided, remained, multiplied, added⟩
  rw [ran, ranOn, ranFurther, ranOut, runFor_of_isHalted halted]

/-- **Arithmetic is exact modulo the number of words.**  A line with an arithmetic instruction
that does not divide by zero leaves in its target, which may be one of its operands, the word
of the exact result, and changes no other register.  So a program that divides a word, and adds
the remainder to the quotient times the divisor, ends with the word that it has divided. -/
theorem arithmetic_exact (program : Program) (machine : Machine) (sink : Console σ) (console : σ) :
    (∀ op target left right,
      program.instruction? machine.pc = some (.arithmetic op target left right) → target.Valid →
      (op = .div ∨ op = .mod → machine.valueOf right ≠ 0) →
      ∃ registers,
        machine.step program sink console = ⟨machine.passLine registers, console, none⟩ ∧
          Calculates op (machine.valueOf left) (machine.valueOf right) target machine.registers
            registers) ∧
    (∀ quotient remainder dividend divisor,
      [quotient, remainder, dividend, divisor].Nodup →
      (∀ register ∈ [quotient, remainder, dividend, divisor], register.Valid) →
      program.instructions = restoring quotient remainder dividend divisor → machine.pc = 1 →
      (∀ limit ∈ machine.config.maxSteps, machine.steps + 4 ≤ limit) →
      machine.registers.get divisor ≠ 0 →
      ∃ last : Machine, machine.runFor program sink 4 console = some ⟨last, console, none⟩ ∧
        last.registers.get quotient = machine.registers.get dividend ∧
          ∀ other : Register, other.Valid → other ≠ quotient → other ≠ remainder →
            last.registers.get other = machine.registers.get other) := by
  refine ⟨fun op target left right here valid defined =>
    step_calculates here valid defined sink console, ?_⟩
  intro quotient remainder dividend divisor distinct valid instructions start room nonzero
  have apart : divisor ≠ quotient := by
    rintro rfl
    simp at distinct
  obtain ⟨second, third, fourth, last, ran, divided, remained, multiplied, added⟩ :=
    runFor_restoring instructions start room (valid _ (by simp)) (valid _ (by simp))
      (valid _ (by simp)) apart nonzero sink console
  exact ⟨last, ran, restores distinct valid nonzero divided remained multiplied added⟩

/-- The smallest word is divided by minus one. -/
def smallestSource : String := "DIV A0 B0 B1\nMOD A1 B0 B1\nMUL A0 A0 B1\nADD A0 A0 A1\n"

/-- What it is compiled to. -/
def smallestProgram : Program where
  lines := #[
    ⟨"DIV A0 B0 B1", .arithmetic .div ⟨.a, 0⟩ (.register ⟨.b, 0⟩) (.register ⟨.b, 1⟩)⟩,
    ⟨"MOD A1 B0 B1", .arithmetic .mod ⟨.a, 1⟩ (.register ⟨.b, 0⟩) (.register ⟨.b, 1⟩)⟩,
    ⟨"MUL A0 A0 B1", .arithmetic .mul ⟨.a, 0⟩ (.register ⟨.a, 0⟩) (.register ⟨.b, 1⟩)⟩,
    ⟨"ADD A0 A0 A1", .arithmetic .add ⟨.a, 0⟩ (.register ⟨.a, 0⟩) (.register ⟨.a, 1⟩)⟩]
  labels := .empty

/-- The machine before it, with room for its lines only. -/
def smallestMachine : Machine :=
  { Machine.initial ⟨some 4, none⟩ with
    registers := (RegisterFile.fresh.put ⟨.b, 0⟩ Int32.minValue).put ⟨.b, 1⟩ (-1) }

/-- The quotient of the smallest word by minus one is no word; the line leaves the smallest word
itself, and the program still ends with the dividend. -/
theorem arithmetic_exact_smallest :
    Program.compile .source smallestSource = .ok smallestProgram ∧
      (∃ registers,
        smallestMachine.step smallestProgram .stream "" =
            ⟨smallestMachine.passLine registers, "", none⟩ ∧
          registers.get ⟨.a, 0⟩ = Int32.minValue) ∧
      ∃ last : Machine,
        smallestMachine.runFor smallestProgram .stream 4 "" = some ⟨last, "", none⟩ ∧
          last.registers.get ⟨.a, 0⟩ = Int32.minValue := by
  obtain ⟨calculates, restores⟩ := arithmetic_exact smallestProgram smallestMachine .stream ""
  refine ⟨by decide +kernel, ?_, ?_⟩
  · obtain ⟨registers, stepped, calculated⟩ := calculates .div ⟨.a, 0⟩ (.register ⟨.b, 0⟩)
      (.register ⟨.b, 1⟩) rfl (by decide) (fun _ => by decide +kernel)
    have ⟨_, .div parts, congruent⟩ := calculated.exact
    obtain ⟨rfl, -⟩ := (divides_iff (by decide +kernel)).mp parts
    exact ⟨registers, stepped, ((congruent Int32.minValue).mp (by decide +kernel)).symm⟩
  · obtain ⟨last, ran, restored, -⟩ := restores ⟨.a, 0⟩ ⟨.a, 1⟩ ⟨.b, 0⟩ ⟨.b, 1⟩ (by decide)
      (by decide) rfl rfl (by rintro limit ⟨⟩; decide) (by decide +kernel)
    exact ⟨last, ran, restored.trans (by decide +kernel)⟩

end Machine

end LineAsm
