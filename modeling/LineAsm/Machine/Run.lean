import LineAsm.Machine.Step

/-!
# Running a program

A run executes lines until the machine is halted, a line traps, or the configured
number of lines has been executed.  `Machine.runFor` gives a run a number of lines
to finish in and has no answer when they do not suffice, so a program runs forever
exactly when no number of lines gives an answer.  More lines never change an answer
(`Machine.runFor_mono`).
-/

set_option autoImplicit false

namespace LineAsm

namespace Machine

variable {σ : Type}

/-! ## Runs -/

/-- Run a program within a number of lines.  Whether the machine is halted is asked
before each line, then whether the step limit is reached. -/
def runFor (program : Program) (sink : Console σ) :
    Nat → Machine → σ → Option (Outcome σ)
  | fuel, machine, console =>
    if machine.isHalted program then some ⟨machine, console, none⟩
    else if machine.atStepLimit then
      some ⟨machine, console, some (.stepLimit machine.steps)⟩
    else match fuel with
      | 0 => none
      | fuel + 1 =>
        match machine.step program sink console with
        | ⟨next, after, none⟩ => runFor program sink fuel next after
        | stopped => some stopped

/-- The counter of executed lines is a word of 64 bits. -/
def stepCapacity : Nat := UInt64.size

/-- Run a program for as long as the counter of executed lines can count. -/
def run (program : Program) (sink : Console σ) (machine : Machine) (console : σ) :
    Option (Outcome σ) :=
  machine.runFor program sink stepCapacity console

/-- A run that has finished within some lines finishes in the same way within
more. -/
theorem runFor_mono {program : Program} {sink : Console σ} {fuel more : Nat} {machine : Machine}
    {console : σ} {outcome : Outcome σ} (enough : fuel ≤ more)
    (finished : machine.runFor program sink fuel console = some outcome) :
    machine.runFor program sink more console = some outcome := by
  induction fuel generalizing more machine console with
  | zero =>
      unfold runFor at finished ⊢
      by_cases halted : machine.isHalted program = true
      · simpa only [halted, if_true] using finished
      · by_cases limited : machine.atStepLimit = true
        · simpa only [halted, limited, if_true] using finished
        · simp [halted, limited] at finished
  | succ fuel ih =>
      obtain ⟨more, rfl⟩ : ∃ n, more = n + 1 := ⟨more - 1, by omega⟩
      unfold runFor at finished ⊢
      by_cases halted : machine.isHalted program = true
      · simpa only [halted, if_true] using finished
      · by_cases limited : machine.atStepLimit = true
        · simpa only [halted, limited, if_true] using finished
        · simp only [halted, limited, Bool.false_eq_true, if_false] at finished ⊢
          generalize machine.step program sink console = reached at finished ⊢
          obtain ⟨next, after, trap⟩ := reached
          cases trap with
          | none => exact ih (by omega) finished
          | some trap => exact finished

/-! ## Traces -/

/-- How a trace ended. -/
inductive TraceEnd where
  | halted
  | exhausted
  | trapped (trap : Trap)
  deriving DecidableEq, Repr, Inhabited

/-- The machine after each line of a trace, the way the trace ended, and what the
machine and the console are then. -/
structure Trace (σ : Type) where
  visited : List Machine
  ending : TraceEnd
  machine : Machine
  console : σ

/-- Execute at most a number of lines and keep the machine after each of them, a
line that traps included.  The step limit is not looked at. -/
def trace (program : Program) (sink : Console σ) : Nat → Machine → σ → Trace σ
  | 0, machine, console => ⟨[], .exhausted, machine, console⟩
  | count + 1, machine, console =>
    if machine.isHalted program then ⟨[], .halted, machine, console⟩
    else
      match machine.step program sink console with
      | ⟨next, after, some trap⟩ => ⟨[next], .trapped trap, next, after⟩
      | ⟨next, after, none⟩ =>
        let later := trace program sink count next after
        { later with visited := next :: later.visited }

end Machine

end LineAsm
