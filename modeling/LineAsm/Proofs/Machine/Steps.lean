import LineAsm.Proofs.Machine.Inversion
import Mathlib.Logic.Relation

/-!
# Runs as sequences of steps

A run is a sequence of steps, each from the state in which the one before it has left the
machine and the console.  A run ends at its first trap, but a caller may step on after a
trap; so a run is given by the traps after which it goes on (`Machine.Steps`).
-/

set_option autoImplicit false

namespace LineAsm.Machine

variable {σ : Type}

/-- A step of a run that goes on after the given traps. -/
def Steps (program : Program) (sink : Console σ) (resumes : Trap → Prop)
    (before after : Machine × σ) : Prop :=
  ∃ trap : Option Trap, before.1.step program sink before.2 = ⟨after.1, after.2, trap⟩ ∧
    ∀ cause ∈ trap, resumes cause

/-- Any number of steps of a run that goes on after the given traps. -/
abbrev Runs (program : Program) (sink : Console σ) (resumes : Trap → Prop) :
    Machine × σ → Machine × σ → Prop :=
  Relation.ReflTransGen (Steps program sink resumes)

variable {program : Program} {sink : Console σ} {resumes : Trap → Prop}

/-- **What every step keeps holds after a run.** -/
theorem Runs.keeps (holds : Machine → Prop)
    (kept : ∀ (machine next : Machine) (console after : σ) (trap : Option Trap),
      holds machine → machine.step program sink console = ⟨next, after, trap⟩ →
      (∀ cause ∈ trap, resumes cause) → holds next)
    {first last : Machine × σ} (runs : Runs program sink resumes first last)
    (start : holds first.1) : holds last.1 := by
  induction runs with
  | refl => exact start
  | tail _ step before =>
      obtain ⟨trap, stepped, goesOn⟩ := step
      exact kept _ _ _ _ trap before stepped goesOn

/-! ## Steps without a trap -/

/-- No trap: the run ends at its first one. -/
def noTrap (_ : Trap) : Prop := False

theorem Steps.of_step {before after : Machine × σ}
    (stepped : before.1.step program sink before.2 = ⟨after.1, after.2, none⟩) :
    Steps program sink resumes before after :=
  ⟨none, stepped, fun _ mem => (nomatch mem)⟩

theorem Steps.step_eq {before after : Machine × σ}
    (steps : Steps program sink noTrap before after) :
    before.1.step program sink before.2 = ⟨after.1, after.2, none⟩ := by
  obtain ⟨trap, stepped, goesOn⟩ := steps
  cases trap with
  | none => exact stepped
  | some cause => exact (goesOn cause rfl).elim

theorem config_of_step {machine next : Machine} {console after : σ} {trap : Option Trap}
    (stepped : machine.step program sink console = ⟨next, after, trap⟩) :
    next.config = machine.config := by
  cases here : program.instruction? machine.pc with
  | none =>
      rw [step_eq_self here] at stepped
      cases stepped
      rfl
  | some instruction =>
      rw [Machine.step_eq here] at stepped
      have does := does_execute program sink machine.fetch console instruction
      rw [stepped] at does
      cases does with
      | acts acts => exact acts.keeps.2.2
      | writes => rfl
      | clears => rfl
      | traps => rfl

theorem config_of_runs {first last : Machine × σ} (runs : Runs program sink resumes first last) :
    last.1.config = first.1.config :=
  runs.keeps (fun machine => machine.config = first.1.config)
    (fun _ _ _ _ _ before stepped _ => (config_of_step stepped).trans before) rfl

/-! ## Halted machines -/

theorem instruction?_of_isHalted {machine : Machine} (halted : machine.isHalted program = true) :
    program.instruction? machine.pc = none := by
  have past : program.size < machine.pc := of_decide_eq_true halted
  rw [Program.instruction?, Program.line?]
  split
  · rfl
  · rw [Array.getElem?_eq_none (show program.lines.size ≤ machine.pc - 1 by
      rw [Program.size] at past; omega)]
    rfl

/-- A machine whose step traps is not halted. -/
theorem isHalted_of_trap {machine : Machine} {console : σ}
    (traps : (machine.step program sink console).trap ≠ none) :
    machine.isHalted program = false := by
  refine Bool.eq_false_iff.mpr fun halted => traps ?_
  rw [step_eq_self (instruction?_of_isHalted halted)]

end LineAsm.Machine
