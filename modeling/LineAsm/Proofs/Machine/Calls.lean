import LineAsm.Proofs.Machine.Steps
import LineAsm.Proofs.Program.Targets

/-!
# Calls and returns

A step leaves the call stack as it is, puts one record on it at a call, or takes one off at
a return (`StackChange`).  Everything that is said here of the call stack follows from that.

Every record on the stack was put there by a call of the run (`exists_call_of_runs`), and it
carries the name of the line called: the label that is defined there, or its number
(`CallRecord`).  The stack is never deeper than the configuration allows, and a call traps
exactly when the stack is as deep as that already (`step_of_call`).  While the stack is deeper
than it was at a call, the records of that time stand unchanged at its bottom, and the step
after which it is no deeper is a return to the line behind the call (`ReturnsTo`).

None of this asks how calls are interleaved with jumps and loops (`calls_return`).
-/

set_option autoImplicit false

namespace LineAsm

/-- The name of a line that is called: the label defined there, or its number when there is
none. -/
def calleeName (lines : List String) (target : Nat) : String :=
  (labelAt? lines target).getD (toString target)

namespace Machine

variable {σ : Type} {program : Program} {sink : Console σ} {machine next : Machine}
  {console after : σ} {trap : Option Trap}

/-! ## One step -/

/-- **What a step does to the call stack.** -/
inductive StackChange (program : Program) (machine next : Machine) (trap : Option Trap) : Prop where
  | keeps (same : next.callStack = machine.callStack)
  | calls {target : Nat} (here : program.instruction? machine.pc = some (.call target))
      (room : machine.atCallLimit = false)
      (pushed : next.callStack = machine.callStack.push
        ((program.labels.nameAt? target).getD (toString target)) (machine.pc + 1))
      (done : trap = none)
  | returns {record : ReturnRecord} (here : program.instruction? machine.pc = some .ret)
      (popped : machine.callStack.pop? = some (record, next.callStack))
      (goes : next.pc = record.line) (done : trap = none)

theorem stackChange_of_step (stepped : machine.step program sink console = ⟨next, after, trap⟩) :
    StackChange program machine next trap := by
  cases here : program.instruction? machine.pc with
  | none =>
      rw [step_eq_self here] at stepped
      cases stepped
      exact .keeps rfl
  | some instruction =>
      rw [step_eq here] at stepped
      have does := does_execute program sink machine.fetch console instruction
      rw [stepped] at does
      cases does with
      | acts acts =>
          cases acts with
          | call target room => exact .calls here room rfl rfl
          | ret latest => exact .returns here latest rfl rfl
          | through => exact .keeps (by rw [enterLoop_eq]; rfl)
          | count => exact .keeps (by rw [enterLoop_eq]; rfl)
          | again => exact .keeps (by rw [beginPass_eq]; rfl)
          | _ => exact .keeps rfl
      | writes | clears | traps => exact .keeps rfl

/-! ## The depth of the stack -/

/-- A machine that may not call has as many records as its limit, or more. -/
theorem atCallLimit_eq_true_iff :
    machine.atCallLimit = true ↔
      ∃ limit, machine.config.maxCallDepth = some limit ∧ limit ≤ machine.callStack.depth := by
  rw [atCallLimit]
  cases machine.config.maxCallDepth <;> simp

/-- The stack is no deeper than the configuration allows. -/
def WithinLimit (machine : Machine) : Prop :=
  ∀ limit, machine.config.maxCallDepth = some limit → machine.callStack.depth ≤ limit

theorem withinLimit_initial (config : Config) : (initial config).WithinLimit :=
  fun limit _ => Nat.zero_le limit

theorem WithinLimit.step (within : machine.WithinLimit)
    (stepped : machine.step program sink console = ⟨next, after, trap⟩) : next.WithinLimit := by
  intro limit limited
  rw [config_of_step stepped] at limited
  have below := within limit limited
  cases stackChange_of_step stepped with
  | keeps same => rwa [same]
  | calls here room pushed =>
      rw [pushed, CallStack.depth_push]
      by_contra deeper
      have full := atCallLimit_eq_true_iff.mpr ⟨limit, limited, by omega⟩
      rw [room] at full
      cases full
  | returns here popped =>
      have records := congrArg List.length (CallStack.records_of_pop? popped)
      rw [List.length_cons] at records
      change next.callStack.records.length ≤ limit
      change machine.callStack.records.length ≤ limit at below
      omega

/-- A machine within its limit may not call exactly when it is as deep as the limit. -/
theorem WithinLimit.atCallLimit_iff (within : machine.WithinLimit) :
    machine.atCallLimit = true ↔
      machine.config.maxCallDepth = some machine.callStack.depth := by
  rw [atCallLimit_eq_true_iff]
  constructor
  · rintro ⟨limit, limited, deep⟩
    rw [limited, Nat.le_antisymm deep (within limit limited)]
  · exact fun limited => ⟨_, limited, Nat.le_refl _⟩

/-- **A call** traps when the machine is at its limit, and leaves its record otherwise. -/
theorem step_of_call {target : Nat}
    (here : program.instruction? machine.pc = some (.call target)) (sink : Console σ)
    (console : σ) :
    machine.step program sink console =
      if machine.atCallLimit = true then
        ⟨machine.fetch, console,
          some (.stackOverflow machine.pc (machine.callStack.depth + 1))⟩
      else
        ⟨{ machine.fetch with
            callStack := machine.callStack.push
              ((program.labels.nameAt? target).getD (toString target)) (machine.pc + 1)
            pc := target }, console, none⟩ := by
  have fetched : machine.fetch.atCallLimit = machine.atCallLimit := rfl
  rw [step_eq here]
  cases full : machine.atCallLimit <;> simp only [execute, apply, call, fetched, full] <;> rfl

/-! ## The records of calls -/

/-- **The record of a call** at a line: it resumes behind the line, and it carries the name of
the line called.  In a source this is the label written behind the mnemonic of the call. -/
structure CallRecord (form : ProgramForm) (text : String) (program : Program) (line : Nat)
    (record : ReturnRecord) : Prop where
  resumes : record.line = line + 1
  names : ∃ target, program.instruction? line = some (.call target) ∧
    record.label = calleeName (Source.normalLines text) target
  written : form = .source → ∃ raw, Symbolic.lineAt? (Source.normalLines text) line = some raw ∧
    (Statement.ofLine raw).tokens = [Opcode.call.mnemonic, record.label]

section Compiled

variable {form : ProgramForm} {text : String} (compiled : Program.compile form text = .ok program)
include compiled

/-- A call leaves its record. -/
theorem callRecord_of_call {line target : Nat}
    (here : program.instruction? line = some (.call target)) :
    CallRecord form text program line
      ⟨(program.labels.nameAt? target).getD (toString target), line + 1⟩ := by
  have named := Program.nameAt?_eq_labelAt? compiled target
  refine ⟨rfl, ⟨target, here, by rw [named]; rfl⟩, ?_⟩
  rintro rfl
  obtain ⟨raw, name, isRaw, tokens, label⟩ := Program.tokens_of_call compiled here
  refine ⟨raw, isRaw, ?_⟩
  rw [tokens, named, label]
  rfl

/-- **Every record was put on the stack by a call of the run**, on top of the records that
are still below it. -/
theorem exists_call_of_runs {resumes : Trap → Prop} {first last : Machine × σ}
    (runs : Runs program sink resumes first last) (empty : first.1.callStack.records = [])
    {above below : List ReturnRecord} {record : ReturnRecord}
    (stands : last.1.callStack.records = above ++ record :: below) :
    ∃ caller called : Machine × σ, Runs program sink resumes first caller ∧
      caller.1.step program sink caller.2 = ⟨called.1, called.2, none⟩ ∧
      Runs program sink resumes called last ∧
      caller.1.callStack.records = below ∧ called.1.callStack.records = record :: below ∧
      CallRecord form text program caller.1.pc record := by
  induction runs generalizing above with
  | refl =>
      rw [empty] at stands
      simp at stands
  | @tail middle last earlier step ih =>
      -- A record that stood before the step was put there earlier in the run.
      have older {above : List ReturnRecord}
          (stood : middle.1.callStack.records = above ++ record :: below) :
          ∃ caller called : Machine × σ, Runs program sink resumes first caller ∧
            caller.1.step program sink caller.2 = ⟨called.1, called.2, none⟩ ∧
            Runs program sink resumes called last ∧
            caller.1.callStack.records = below ∧ called.1.callStack.records = record :: below ∧
            CallRecord form text program caller.1.pc record := by
        obtain ⟨caller, called, toCaller, calls, fromCalled, rest⟩ := ih stood
        exact ⟨caller, called, toCaller, calls, fromCalled.tail step, rest⟩
      obtain ⟨trap, stepped, goesOn⟩ := step
      cases stackChange_of_step stepped with
      | keeps same => exact older (same ▸ stands)
      | returns here popped =>
          have records := CallStack.records_of_pop? popped
          rw [stands, ← List.cons_append] at records
          exact older records
      | calls here room pushed done =>
          have records := congrArg CallStack.records pushed
          rw [stands] at records
          rcases List.append_eq_cons_iff.mp records with ⟨rfl, same⟩ | ⟨others, -, same⟩
          · obtain ⟨rfl, rfl⟩ := List.cons.inj same
            rw [done] at stepped
            exact ⟨middle, last, earlier, stepped, .refl, rfl, stands,
              callRecord_of_call compiled here⟩
          · exact older same

end Compiled

/-! ## Coming back from a call -/

/-- Steps of a run that leave the call stack deeper than a given depth. -/
def StepsAbove (program : Program) (sink : Console σ) (depth : Nat)
    (before after : Machine × σ) : Prop :=
  Steps program sink (fun _ => True) before after ∧ depth < after.1.callStack.depth

/-- The record of a call and those below it stand unchanged while the stack is deeper than it
was at the call. -/
theorem exists_above_of_runs {record : ReturnRecord} {bottom : List ReturnRecord}
    {called last : Machine × σ} (stands : called.1.callStack.records = record :: bottom)
    (runs : Relation.ReflTransGen (StepsAbove program sink bottom.length) called last) :
    ∃ above, last.1.callStack.records = above ++ record :: bottom := by
  induction runs with
  | refl => exact ⟨[], stands⟩
  | @tail middle last _ step ih =>
      obtain ⟨⟨trap, stepped, -⟩, deep⟩ := step
      obtain ⟨above, stood⟩ := ih
      cases stackChange_of_step stepped with
      | keeps same => exact ⟨above, same ▸ stood⟩
      | calls here room pushed =>
          have records := congrArg CallStack.records pushed
          exact ⟨_ :: above, records.trans (congrArg (List.cons _) stood)⟩
      | returns here popped =>
          have records := CallStack.records_of_pop? popped
          rw [stood] at records
          rcases List.append_eq_cons_iff.mp records with ⟨-, same⟩ | ⟨others, -, same⟩
          · -- The record of the call is not taken off, as the stack stays deeper.
            have short := congrArg List.length (List.cons.inj same).2
            change bottom.length < last.1.callStack.records.length at deep
            omega
          · exact ⟨others, same⟩

/-- The step after which the stack is no deeper than at a call returns from that call. -/
theorem return_of_step {record : ReturnRecord} {above bottom : List ReturnRecord}
    (stands : machine.callStack.records = above ++ record :: bottom)
    (stepped : machine.step program sink console = ⟨next, after, trap⟩)
    (back : next.callStack.depth ≤ bottom.length) :
    program.instruction? machine.pc = some .ret ∧ trap = none ∧ next.pc = record.line ∧
      next.callStack.records = bottom := by
  have deep := congrArg List.length stands
  rw [List.length_append, List.length_cons] at deep
  change next.callStack.records.length ≤ _ at back
  cases stackChange_of_step stepped with
  | keeps same =>
      rw [same] at back
      omega
  | calls here room pushed =>
      have records := congrArg (·.records.length) pushed
      simp only [CallStack.push, List.length_cons] at records
      omega
  | returns here popped goes done =>
      have records := CallStack.records_of_pop? popped
      rw [stands] at records
      rcases List.append_eq_cons_iff.mp records with ⟨-, same⟩ | ⟨others, -, same⟩
      · obtain ⟨rfl, rest⟩ := List.cons.inj same
        exact ⟨here, done, goes, rest.symm⟩
      · have long := congrArg List.length same
        rw [List.length_append, List.length_cons] at long
        omega

/-- **What follows a call** that did not trap.  However the run goes on, the records of the
caller stand unchanged at the bottom of the stack while it is deeper than at the call, and the
step after which it is no deeper is a return to the line behind the call, with the stack of
the caller. -/
structure ReturnsTo (program : Program) (sink : Console σ) (caller : Machine)
    (called : Machine × σ) : Prop where
  below : ∀ last : Machine × σ,
    Relation.ReflTransGen (StepsAbove program sink caller.callStack.depth) called last →
    caller.callStack.records <:+ last.1.callStack.records
  back : ∀ last : Machine × σ,
    Relation.ReflTransGen (StepsAbove program sink caller.callStack.depth) called last →
    ∀ next written trap, last.1.step program sink last.2 = ⟨next, written, trap⟩ →
      next.callStack.depth ≤ caller.callStack.depth →
      program.instruction? last.1.pc = some .ret ∧ trap = none ∧
        next.pc = caller.pc + 1 ∧ next.callStack = caller.callStack

theorem returnsTo_of_records {label : String} {called : Machine × σ}
    (stands : called.1.callStack.records =
      ⟨label, machine.pc + 1⟩ :: machine.callStack.records) :
    ReturnsTo program sink machine called where
  below last runs := by
    obtain ⟨above, stood⟩ := exists_above_of_runs stands runs
    rw [stood]
    exact (List.suffix_cons _ _).trans (List.suffix_append _ _)
  back last runs next written trap stepped shallow := by
    obtain ⟨above, stood⟩ := exists_above_of_runs stands runs
    obtain ⟨returns, done, goes, rest⟩ := return_of_step stood stepped shallow
    exact ⟨returns, done, goes, congrArg CallStack.mk rest⟩

/-! ## Runs -/

/-- **Calls and returns keep their discipline in every run**, also in one that goes on behind
traps.  Each record on the stack was put there by a call of the run, on the records below it;
the stack is within its limit; a call traps exactly when the stack is as deep as the limit,
and otherwise goes to its target with its record on top, to be returned from to the line
behind it. -/
theorem calls_return {form : ProgramForm} {text : String}
    (compiled : Program.compile form text = .ok program) {config : Config} {start : σ}
    (runs : Runs program sink (fun _ => True) (.initial config, start) (machine, console)) :
    (∀ above record below, machine.callStack.records = above ++ record :: below →
        ∃ caller called : Machine × σ,
          Runs program sink (fun _ => True) (.initial config, start) caller ∧
          caller.1.step program sink caller.2 = ⟨called.1, called.2, none⟩ ∧
          Runs program sink (fun _ => True) called (machine, console) ∧
          caller.1.callStack.records = below ∧ called.1.callStack.records = record :: below ∧
          CallRecord form text program caller.1.pc record) ∧
      (∀ limit, config.maxCallDepth = some limit → machine.callStack.depth ≤ limit) ∧
      ∀ target, program.instruction? machine.pc = some (.call target) →
        (∀ limit, config.maxCallDepth = some limit →
          ((machine.step program sink console).trap =
              some (.stackOverflow machine.pc (limit + 1)) ↔
            machine.callStack.depth = limit)) ∧
        (config.maxCallDepth ≠ some machine.callStack.depth →
          ∃ called record, machine.step program sink console = ⟨called, console, none⟩ ∧
            called.pc = target ∧
            called.callStack.records = record :: machine.callStack.records ∧
            CallRecord form text program machine.pc record ∧
            ReturnsTo program sink machine (called, console)) := by
  have within : machine.WithinLimit := runs.keeps WithinLimit
    (fun _ _ _ _ _ before stepped _ => before.step stepped) (withinLimit_initial config)
  have same : machine.config = config := config_of_runs runs
  refine ⟨fun above record below stands => exists_call_of_runs compiled runs rfl stands,
    same ▸ within, ?_⟩
  intro target here
  have full := within.atCallLimit_iff
  have stepped := step_of_call here sink console
  rw [same] at full
  refine ⟨?_, ?_⟩
  · intro limit limited
    rw [limited, Option.some.injEq] at full
    rw [stepped]
    split
    · rename_i deep
      obtain rfl := full.mp deep
      simp
    · rename_i room
      exact iff_of_false nofun fun deep => room (full.mpr deep.symm)
  · intro room
    rw [if_neg (fun deep => room (full.mp deep))] at stepped
    exact ⟨_, _, stepped, rfl, rfl, callRecord_of_call compiled here, returnsTo_of_records rfl⟩

/-- A subroutine that calls itself. -/
def recursiveSource : String := "CALL f\nJMP end\nf: CALL f // again\nRET\nend:\n"

/-- What it is compiled to. -/
def recursiveProgram : Program where
  lines := #[⟨"CALL 3", .call 3⟩, ⟨"JMP 5", .jump 5⟩, ⟨"f: CALL 3 // again", .call 3⟩,
    ⟨"RET", .ret⟩, ⟨"end:", .nop⟩]
  labels := ⟨[("end", 5), ("f", 3)]⟩

/-- The machine in the subroutine, with as many calls as it may make. -/
def recursiveMachine : Machine :=
  { Machine.initial ⟨none, some 1⟩ with pc := 3, line := 1, callStack := ⟨[⟨"f", 2⟩]⟩, steps := 1 }

theorem calls_return_recursive :
    Program.compile .source recursiveSource = .ok recursiveProgram ∧
      Runs recursiveProgram .stream (fun _ => True) (.initial ⟨none, some 1⟩, "")
        (recursiveMachine, "") ∧
      (recursiveMachine.step recursiveProgram .stream "").trap = some (.stackOverflow 3 2) ∧
      ∃ called record,
        (Machine.initial ⟨none, some 1⟩).step recursiveProgram .stream "" = ⟨called, "", none⟩ ∧
        called.callStack.records = [record] ∧
        CallRecord .source recursiveSource recursiveProgram 1 record ∧
        ReturnsTo recursiveProgram .stream (.initial ⟨none, some 1⟩) (called, "") := by
  have compiled : Program.compile .source recursiveSource = .ok recursiveProgram := by
    decide +kernel
  have runs : Runs recursiveProgram .stream (fun _ => True) (.initial ⟨none, some 1⟩, "")
      (recursiveMachine, "") := .single ⟨none, rfl, fun _ _ => trivial⟩
  have start : Runs recursiveProgram .stream (fun _ => True) (.initial ⟨none, some 1⟩, "")
      (.initial ⟨none, some 1⟩, "") := .refl
  have atStart := (calls_return compiled start).2.2 3 rfl
  have within := (calls_return compiled runs).2.2 3 rfl
  refine ⟨compiled, runs, (within.1 1 rfl).mpr rfl, ?_⟩
  obtain ⟨called, record, stepped, -, stands, isRecord, returns⟩ := atStart.2 (by decide)
  exact ⟨called, record, stepped, stands, isRecord, returns⟩

end Machine

end LineAsm
