import LineAsm.Machine.Run
import LineAsm.Proofs.Machine.Steps

/-!
# How a bounded run stands

A run takes one turn after the other: it ends, or it takes a step and goes on (`Turn`).  Step
by step it goes on while the machine is not halted and nothing traps (`Advances`).  Given a
number of steps to finish in, it has come to a halt, to the step limit or to a line that traps
within them, or it has taken them all and is not finished (`RunStands`).  Every statement
about how long a run takes is read off from this.

Without a step limit, steps without a trap may be put before a bounded run, so a run finishes
exactly when steps without a trap lead to its end (`exists_runFor_iff`).
-/

set_option autoImplicit false

namespace LineAsm.Machine

variable {σ : Type} {program : Program} {sink : Console σ} {resumes : Trap → Prop}

/-! ## One turn -/

section Turns

variable {machine : Machine} {console : σ}

theorem runFor_of_isHalted (halts : machine.isHalted program = true) (given : Nat) :
    machine.runFor program sink given console = some ⟨machine, console, none⟩ := by
  unfold runFor
  rw [if_pos halts]

theorem runFor_of_atStepLimit (running : machine.isHalted program = false)
    (full : machine.atStepLimit = true) (given : Nat) :
    machine.runFor program sink given console =
      some ⟨machine, console, some (.stepLimit machine.steps)⟩ := by
  unfold runFor
  rw [running, full]
  rfl

theorem runFor_succ_of_trap (running : machine.isHalted program = false)
    (below : machine.atStepLimit = false)
    (traps : (machine.step program sink console).trap ≠ none) (given : Nat) :
    machine.runFor program sink (given + 1) console =
      some (machine.step program sink console) := by
  rw [runFor, running, below]
  generalize machine.step program sink console = reached at traps ⊢
  obtain ⟨next, after, trap⟩ := reached
  cases trap with
  | none => exact (traps rfl).elim
  | some cause => rfl

theorem runFor_succ_of_step (running : machine.isHalted program = false)
    (below : machine.atStepLimit = false) {next : Machine} {after : σ}
    (stepped : machine.step program sink console = ⟨next, after, none⟩) (given : Nat) :
    machine.runFor program sink (given + 1) console = next.runFor program sink given after := by
  rw [runFor, running, below, stepped]
  rfl

end Turns

/-- **What one turn of a run does** that may still take a number of steps: the run ends, or it
takes a step and goes on. -/
inductive Turn (program : Program) (sink : Console σ) (machine : Machine) (console : σ) :
    Nat → Option (Outcome σ) → Prop where
  | halted {given : Nat} (halts : machine.isHalted program = true) :
      Turn program sink machine console given (some ⟨machine, console, none⟩)
  | limited {given : Nat} (running : machine.isHalted program = false)
      (full : machine.atStepLimit = true) :
      Turn program sink machine console given
        (some ⟨machine, console, some (.stepLimit machine.steps)⟩)
  | unfinished (running : machine.isHalted program = false) (below : machine.atStepLimit = false) :
      Turn program sink machine console 0 none
  | trapped {given : Nat} (running : machine.isHalted program = false)
      (below : machine.atStepLimit = false)
      (traps : (machine.step program sink console).trap ≠ none) :
      Turn program sink machine console (given + 1) (some (machine.step program sink console))
  | passes {given : Nat} {next : Machine} {after : σ} (running : machine.isHalted program = false)
      (below : machine.atStepLimit = false)
      (stepped : machine.step program sink console = ⟨next, after, none⟩) :
      Turn program sink machine console (given + 1) (next.runFor program sink given after)

theorem turn_runFor (program : Program) (sink : Console σ) (given : Nat) (machine : Machine)
    (console : σ) :
    Turn program sink machine console given (machine.runFor program sink given console) := by
  cases halts : machine.isHalted program with
  | true =>
      rw [runFor_of_isHalted halts]
      exact .halted halts
  | false =>
      cases full : machine.atStepLimit with
      | true =>
          rw [runFor_of_atStepLimit halts full]
          exact .limited halts full
      | false =>
          cases given with
          | zero =>
              rw [runFor, halts, full]
              exact .unfinished halts full
          | succ given =>
              by_cases traps : (machine.step program sink console).trap = none
              · have stepped : machine.step program sink console = ⟨_, _, none⟩ :=
                  congrArg (Outcome.mk _ _) traps
                rw [runFor_succ_of_step halts full stepped]
                exact .passes halts full stepped
              · rw [runFor_succ_of_trap halts full traps]
                exact .trapped halts full traps

/-! ## A run within a number of steps -/

/-- **A run has gone on for a number of steps**: before each of them the machine was not
halted, and none of them trapped.  Step limits are not looked at. -/
inductive Advances (program : Program) (sink : Console σ) :
    Nat → Machine × σ → Machine × σ → Prop where
  | start (state : Machine × σ) : Advances program sink 0 state state
  | step {count : Nat} {first next last : Machine × σ}
      (running : first.1.isHalted program = false)
      (stepped : first.1.step program sink first.2 = ⟨next.1, next.2, none⟩)
      (later : Advances program sink count next last) :
      Advances program sink (count + 1) first last

/-- A run that has gone on for a number of steps is a run. -/
theorem Advances.runs {count : Nat} {first last : Machine × σ}
    (advances : Advances program sink count first last) (resumes : Trap → Prop) :
    Runs program sink resumes first last := by
  induction advances with
  | start => exact .refl
  | step _ stepped _ ih => exact .head (.of_step stepped) ih

theorem Advances.maxSteps_eq {count : Nat} {first last : Machine × σ}
    (advances : Advances program sink count first last) :
    last.1.config.maxSteps = first.1.config.maxSteps :=
  congrArg Config.maxSteps (config_of_runs (advances.runs noTrap))

/-- **How a run stands** that was given a number of steps to finish in. -/
inductive RunStands (program : Program) (sink : Console σ) (given : Nat) (first : Machine × σ) :
    Option (Outcome σ) → Prop where
  | halted {count : Nat} {last : Machine × σ} (advanced : Advances program sink count first last)
      (within : count ≤ given) (halts : last.1.isHalted program = true) :
      RunStands program sink given first (some ⟨last.1, last.2, none⟩)
  | limited {count : Nat} {last : Machine × σ} (advanced : Advances program sink count first last)
      (within : count ≤ given) (running : last.1.isHalted program = false)
      (full : last.1.atStepLimit = true) :
      RunStands program sink given first (some ⟨last.1, last.2, some (.stepLimit last.1.steps)⟩)
  | trapped {count : Nat} {last : Machine × σ} (advanced : Advances program sink count first last)
      (within : count < given) (traps : (last.1.step program sink last.2).trap ≠ none) :
      RunStands program sink given first (some (last.1.step program sink last.2))
  | unfinished {last : Machine × σ} (advanced : Advances program sink given first last)
      (running : last.1.isHalted program = false) (below : last.1.atStepLimit = false) :
      RunStands program sink given first none

/-- A run that was given one step more may have started one step earlier. -/
theorem RunStands.step {given : Nat} {first next : Machine × σ} {ending : Option (Outcome σ)}
    (running : first.1.isHalted program = false)
    (stepped : first.1.step program sink first.2 = ⟨next.1, next.2, none⟩)
    (stands : RunStands program sink given next ending) :
    RunStands program sink (given + 1) first ending := by
  cases stands with
  | halted advanced within halts =>
      exact .halted (.step running stepped advanced) (Nat.succ_le_succ within) halts
  | limited advanced within open_ full =>
      exact .limited (.step running stepped advanced) (Nat.succ_le_succ within) open_ full
  | trapped advanced within traps =>
      exact .trapped (.step running stepped advanced) (Nat.succ_lt_succ within) traps
  | unfinished advanced open_ below =>
      exact .unfinished (.step running stepped advanced) open_ below

/-- **A bounded run stands in one of these ways.** -/
theorem runStands_runFor (program : Program) (sink : Console σ) (given : Nat) (machine : Machine)
    (console : σ) :
    RunStands program sink given (machine, console)
      (machine.runFor program sink given console) := by
  induction given using Nat.strongRecOn generalizing machine console with
  | ind given ih =>
      have turn := turn_runFor program sink given machine console
      generalize machine.runFor program sink given console = ending at turn ⊢
      cases turn with
      | halted halts => exact .halted (.start _) (Nat.zero_le _) halts
      | limited running full => exact .limited (.start _) (Nat.zero_le _) running full
      | unfinished running below => exact .unfinished (.start _) running below
      | trapped running below traps => exact .trapped (.start (machine, console)) (by omega) traps
      | @passes given next after running below stepped =>
          have later := ih given (Nat.lt_succ_self _) next after
          exact later.step running stepped

/-- **How a bounded run ends**: after steps without a trap, it is halted, at the step limit,
or at a line that traps. -/
theorem runs_of_runFor {fuel : Nat} {machine : Machine} {console : σ} {outcome : Outcome σ}
    (finished : machine.runFor program sink fuel console = some outcome) :
    ∃ last : Machine × σ, Runs program sink resumes (machine, console) last ∧
      (last.1.isHalted program = true ∧ outcome = ⟨last.1, last.2, none⟩ ∨
        last.1.atStepLimit = true ∧ outcome = ⟨last.1, last.2, some (.stepLimit last.1.steps)⟩ ∨
        outcome.trap ≠ none ∧ last.1.step program sink last.2 = outcome) := by
  have stands := runStands_runFor program sink fuel machine console
  rw [finished] at stands
  cases stands with
  | halted advanced _ halts => exact ⟨_, advanced.runs resumes, .inl ⟨halts, rfl⟩⟩
  | limited advanced _ _ full => exact ⟨_, advanced.runs resumes, .inr (.inl ⟨full, rfl⟩)⟩
  | trapped advanced _ traps => exact ⟨_, advanced.runs resumes, .inr (.inr ⟨traps, rfl⟩)⟩

/-! ## Runs without a step limit -/

theorem atStepLimit_of_unlimited {machine : Machine} (unlimited : machine.config.maxSteps = none) :
    machine.atStepLimit = false := by
  rw [atStepLimit, unlimited]

/-- A step that traps is a bounded run. -/
theorem runFor_of_trap {machine : Machine} {console : σ} {outcome : Outcome σ}
    (unlimited : machine.config.maxSteps = none) (trapped : outcome.trap ≠ none)
    (stops : machine.step program sink console = outcome) :
    machine.runFor program sink 1 console = some outcome := by
  subst stops
  exact runFor_succ_of_trap (isHalted_of_trap trapped) (atStepLimit_of_unlimited unlimited)
    trapped 0

/-- A bounded run may start one step earlier. -/
theorem exists_runFor_of_step {before after : Machine × σ} {fuel : Nat} {outcome : Outcome σ}
    (stepped : before.1.step program sink before.2 = ⟨after.1, after.2, none⟩)
    (unlimited : before.1.config.maxSteps = none)
    (finished : after.1.runFor program sink fuel after.2 = some outcome) :
    ∃ more, before.1.runFor program sink more before.2 = some outcome := by
  cases halted : before.1.isHalted program with
  | true =>
      rw [step_eq_self (instruction?_of_isHalted halted)] at stepped
      refine ⟨fuel, ?_⟩
      obtain ⟨machine, console⟩ := before
      obtain ⟨next, written⟩ := after
      cases stepped
      exact finished
  | false =>
      have taken := runFor_succ_of_step halted (atStepLimit_of_unlimited unlimited) stepped fuel
      exact ⟨fuel + 1, taken.trans finished⟩

/-- **Steps without a trap may be put before a bounded run.** -/
theorem exists_runFor_of_runs {first last : Machine × σ} {fuel : Nat} {outcome : Outcome σ}
    (runs : Runs program sink noTrap first last) (unlimited : first.1.config.maxSteps = none)
    (finished : last.1.runFor program sink fuel last.2 = some outcome) :
    ∃ more, first.1.runFor program sink more first.2 = some outcome := by
  induction runs using Relation.ReflTransGen.head_induction_on with
  | refl => exact ⟨fuel, finished⟩
  | head step _ ih =>
      have stepped := step.step_eq
      obtain ⟨more, later⟩ :=
        ih ((congrArg Config.maxSteps (config_of_step stepped)).trans unlimited)
      exact exists_runFor_of_step stepped unlimited later

/-- **A run without a step limit finishes** when steps without a trap lead to a machine that
is halted or to a line that traps. -/
theorem exists_runFor_iff {machine : Machine} {console : σ} {outcome : Outcome σ}
    (unlimited : machine.config.maxSteps = none) :
    (∃ fuel, machine.runFor program sink fuel console = some outcome) ↔
      ∃ last : Machine × σ, Runs program sink noTrap (machine, console) last ∧
        (last.1.isHalted program = true ∧ outcome = ⟨last.1, last.2, none⟩ ∨
          outcome.trap ≠ none ∧ last.1.step program sink last.2 = outcome) := by
  have kept {last : Machine × σ} (runs : Runs program sink noTrap (machine, console) last) :
      last.1.config.maxSteps = none :=
    (congrArg Config.maxSteps (config_of_runs runs)).trans unlimited
  constructor
  · rintro ⟨fuel, finished⟩
    obtain ⟨last, runs, ending⟩ := runs_of_runFor finished
    refine ⟨last, runs, ?_⟩
    rcases ending with halts | ⟨limited, -⟩ | traps
    · exact .inl halts
    · rw [atStepLimit_of_unlimited (kept runs)] at limited
      cases limited
    · exact .inr traps
  · rintro ⟨last, runs, ⟨halted, rfl⟩ | ⟨trapped, stops⟩⟩
    · exact exists_runFor_of_runs runs unlimited (runFor_of_isHalted halted 0)
    · exact exists_runFor_of_runs runs unlimited (runFor_of_trap (kept runs) trapped stops)

end LineAsm.Machine
