import LineAsm.Proofs.Flow.Visits
import LineAsm.Proofs.Machine.Steps

/-!
# The analysis is sound for execution

Control passes from a line along one of its edges, into a subroutine, or back from one
(`Passes`), and nothing else happens to the call stack.  A return has no edge, so the
invariant of a run speaks of the call stack too: every record stands for a call at a line
that the search has visited (`Covered`).

It follows that every line that is executed is reported as reachable, and that control
passes along reported edges or from a reported return to the line after a reachable call
(`analyze_sound`).
-/

set_option autoImplicit false

namespace LineAsm.Flow

variable {σ : Type} {program : Program} {sink : Console σ}

/-! ## How control passes -/

/-- How control passes from a line: the place it passes to, and the call stack then. -/
inductive Passes (line : Nat) (stack : CallStack) : Instruction → Nat → CallStack → Prop where
  | edge {instruction : Instruction} {target : Nat} {kind : EdgeKind}
      (leads : (target, kind) ∈ successors line instruction) :
      Passes line stack instruction target stack
  | call (target : Nat) (label : String) :
      Passes line stack (.call target) target (stack.push label (line + 1))
  | return_ {record : ReturnRecord} {earlier : CallStack}
      (latest : stack.pop? = some (record, earlier)) :
      Passes line stack .ret record.line earlier

section Instructions

variable {machine next : Machine} {instruction : Instruction}

theorem mem_successors_of_straight {line : Nat} (only : instruction.straight = true) :
    (line + 1, .fallthrough) ∈ successors line instruction := by
  cases instruction with
  | jump => cases only
  | ret => cases only
  | _ => simp [successors]

/-- An instruction that acts without a trap passes control. -/
theorem passes_of_acts (acts : Machine.Acts program machine instruction next)
    (fetched : machine.pc = machine.line + 1) :
    Passes machine.line machine.callStack instruction next.pc next.callStack := by
  cases acts with
  | straight only registers =>
      change Passes _ _ _ machine.pc _
      rw [fetched]
      exact .edge (mem_successors_of_straight only)
  | jump line => exact .edge (List.mem_singleton.mpr rfl)
  | taken holds => exact .edge (List.mem_cons_self ..)
  | passed fails =>
      rw [fetched]
      exact .edge (List.mem_cons_of_mem _ (List.mem_singleton.mpr rfl))
  | call line room => exact .call line _
  | ret latest => exact .return_ latest
  | through first last target closing =>
      rw [Machine.enterLoop_eq]
      change Passes _ _ _ machine.pc _
      rw [fetched]
      exact .edge (List.mem_singleton.mpr rfl)
  | count register closing some =>
      rw [Machine.enterLoop_eq]
      change Passes _ _ _ machine.pc _
      rw [fetched]
      exact .edge (List.mem_cons_self ..)
  | skip register closing => exact .edge (List.mem_cons_of_mem _ (List.mem_singleton.mpr rfl))
  | again active more =>
      rw [Machine.beginPass_eq]
      exact .edge (List.mem_cons_self ..)
  | leave active last =>
      change Passes _ _ _ machine.pc _
      rw [fetched]
      exact .edge (List.mem_cons_of_mem _ (List.mem_singleton.mpr rfl))

/-- A trap is passed over to the next line, except that of a return without a call. -/
theorem mem_successors_of_traps {cause : Trap} (traps : Machine.Traps machine instruction cause)
    (other : cause ≠ .stackUnderflow machine.line) :
    (machine.line + 1, .fallthrough) ∈ successors machine.line instruction := by
  cases traps with
  | stackUnderflow => exact absurd rfl other
  | _ => simp [successors]

/-- **A step passes control**, unless it is a return without a call. -/
theorem passes_of_step {console after : σ} {trap : Option Trap}
    (here : program.instruction? machine.pc = some instruction)
    (stepped : machine.step program sink console = ⟨next, after, trap⟩)
    (other : trap ≠ some (.stackUnderflow machine.pc)) :
    Passes machine.pc machine.callStack instruction next.pc next.callStack := by
  rw [Machine.step_eq here] at stepped
  have does := Machine.does_execute program sink machine.fetch console instruction
  rw [stepped] at does
  cases does with
  | acts acts => exact passes_of_acts acts rfl
  | writes item => exact .edge (mem_successors_of_straight rfl)
  | clears => exact .edge (mem_successors_of_straight rfl)
  | traps traps =>
      exact .edge (mem_successors_of_traps traps fun same => other (congrArg some same))

end Instructions

/-! ## The invariant of a run -/

/-- Control is at a visited line or past the program, and the call stack stands for calls
at visited lines. -/
structure Covered (program : Program) (place : Nat) (stack : CallStack) : Prop where
  line : program.hasLine place = true → place ∈ visits program
  records : ∀ record ∈ stack.records, ∃ call target : Nat,
    call ∈ visits program ∧ program.instruction? call = some (.call target) ∧
      record.line = call + 1

theorem covered_initial (program : Program) (config : Config) :
    Covered program (Machine.initial config).pc (Machine.initial config).callStack where
  line := one_mem_visits
  records := fun _ mem => (nomatch mem)

theorem hasLine_of_instruction? {line : Nat} {instruction : Instruction}
    (here : program.instruction? line = some instruction) : program.hasLine line = true :=
  Program.mem_numbers.mp (Program.mem_numbers_of_instruction? here)

theorem mem_edgesFrom {line target : Nat} {kind : EdgeKind} {instruction : Instruction}
    (here : program.instruction? line = some instruction)
    (leads : (target, kind) ∈ successors line instruction) :
    ⟨line, target, kind⟩ ∈ edgesFrom program line := by
  rw [edgesFrom, here]
  exact List.mem_map.mpr ⟨(target, kind), leads, rfl⟩

/-- The lines of the program that follow a visited line are visited. -/
theorem mem_visits_of_successor {line target : Nat} {kind : EdgeKind} {instruction : Instruction}
    (visited : line ∈ visits program) (here : program.instruction? line = some instruction)
    (leads : (target, kind) ∈ successors line instruction)
    (inside : program.hasLine target = true) : target ∈ visits program := by
  have leaves := mem_edgesFrom here leads
  exact mem_visits_of_edge visited leaves inside

/-- **Control that passes from a visited line stays covered.** -/
theorem Covered.passes {line target : Nat} {stack later : CallStack} {instruction : Instruction}
    (covered : Covered program line stack) (here : program.instruction? line = some instruction)
    (passes : Passes line stack instruction target later) : Covered program target later := by
  have visited := covered.line (hasLine_of_instruction? here)
  cases passes with
  | edge leads => exact ⟨mem_visits_of_successor visited here leads, covered.records⟩
  | call target label =>
      refine ⟨mem_visits_of_successor visited here (List.mem_cons_self ..), ?_⟩
      intro record mem
      rcases List.mem_cons.mp mem with rfl | mem
      · exact ⟨line, target, visited, here, rfl⟩
      · exact covered.records record mem
  | @return_ record earlier latest =>
      have records := CallStack.records_of_pop? latest
      obtain ⟨call, target, calls, atCall, same⟩ := covered.records record (by simp [records])
      refine ⟨?_, fun other mem => covered.records other (by simp [records, mem])⟩
      rw [same]
      exact mem_visits_of_successor calls atCall (List.mem_cons_of_mem _ (List.mem_singleton.mpr rfl))

/-- The trap of a return without a call, after which no run goes on. -/
def isUnderflow : Trap → Prop
  | .stackUnderflow _ => True
  | _ => False

/-- **What control keeps wherever it passes holds after a run.** -/
theorem keeps_of_passes (holds : Nat → CallStack → Prop)
    (kept : ∀ {line target : Nat} {stack later : CallStack} {instruction : Instruction},
      holds line stack → program.instruction? line = some instruction →
      Passes line stack instruction target later → holds target later)
    {first last : Machine × σ}
    (runs : Machine.Runs program sink (fun cause => ¬ isUnderflow cause) first last)
    (start : holds first.1.pc first.1.callStack) : holds last.1.pc last.1.callStack := by
  refine runs.keeps (fun machine => holds machine.pc machine.callStack) ?_ start
  intro machine next console after trap before stepped goesOn
  cases here : program.instruction? machine.pc with
  | none =>
      rw [Machine.step_eq_self here] at stepped
      cases stepped
      exact before
  | some instruction =>
      refine kept before here (passes_of_step here stepped ?_)
      rintro rfl
      exact goesOn _ rfl trivial

/-- What a run has covered. -/
theorem covered_of_runs {first last : Machine × σ}
    (runs : Machine.Runs program sink (fun cause => ¬ isUnderflow cause) first last)
    (covered : Covered program first.1.pc first.1.callStack) :
    Covered program last.1.pc last.1.callStack :=
  keeps_of_passes (Covered program) Covered.passes runs covered

/-- **The analysis is sound for execution.**  Every line that a run from the start comes
to is reported as reachable and not as unreachable.  When it does not trap, control
passes along a reported edge, or from a reported return to the line after a reachable
call.  The run may go on behind any trap but that of a return without a call. -/
theorem analyze_sound {config : Config} {start console : σ} {machine : Machine}
    (runs : Machine.Runs program sink (fun cause => ¬ isUnderflow cause)
      (.initial config, start) (machine, console))
    {instruction : Instruction} (here : program.instruction? machine.pc = some instruction) :
    machine.pc ∈ (analyze program).reachable ∧
      machine.pc ∉ (report program).unreachable ∧
      ∀ next after, machine.step program sink console = ⟨next, after, none⟩ →
        (∃ edge ∈ (analyze program).edges, edge.source = machine.pc ∧ edge.target = next.pc) ∨
          machine.pc ∈ (analyze program).returns ∧
            ∃ call ∈ (analyze program).reachable,
              (∃ target, program.instruction? call = some (.call target)) ∧
                next.pc = call + 1 := by
  have covered := covered_of_runs runs (covered_initial program config)
  have visited := covered.line (hasLine_of_instruction? here)
  have reachable := mem_reachable_iff.mpr visited
  refine ⟨reachable, fun listed => (mem_unreachable_iff.mp listed).2 reachable, ?_⟩
  intro next after stepped
  have passes := passes_of_step here stepped (by simp)
  generalize next.pc = place at passes
  generalize next.callStack = later at passes
  cases passes with
  | @edge _ _ kind leads =>
      exact .inl ⟨⟨machine.pc, place, kind⟩,
        mem_edges_iff.mpr ⟨visited, mem_edgesFrom here leads⟩, rfl, rfl⟩
  | call _ label =>
      have leads : (place, .call) ∈ successors machine.pc (.call place) := List.mem_cons_self ..
      exact .inl ⟨⟨machine.pc, place, .call⟩,
        mem_edges_iff.mpr ⟨visited, mem_edgesFrom here leads⟩, rfl, rfl⟩
  | @return_ record earlier latest =>
      have records := CallStack.records_of_pop? latest
      obtain ⟨call, target, calls, atCall, same⟩ := covered.records record (by simp [records])
      exact .inr ⟨mem_returns_iff.mpr ⟨reachable, here⟩, call, mem_reachable_iff.mpr calls,
        ⟨target, atCall⟩, same⟩

/-- A program whose subroutine stands between a jump and the line that it leads to. -/
def subroutineProgram : Program where
  lines := #[⟨"CALL 3", .call 3⟩, ⟨"JMP 4", .jump 4⟩, ⟨"f: RET", .ret⟩, ⟨"e:", .nop⟩]
  labels := ⟨[("e", 4), ("f", 3)]⟩

/-- The machine in the subroutine. -/
def subroutineMachine : Machine :=
  { Machine.initial .unlimited with pc := 3, line := 1, callStack := ⟨[⟨"f", 2⟩]⟩, steps := 1 }

theorem analyze_sound_subroutine :
    Machine.Runs subroutineProgram .stream (fun cause => ¬ isUnderflow cause)
        (.initial .unlimited, "") (subroutineMachine, "") ∧
      subroutineProgram.instruction? subroutineMachine.pc = some .ret ∧
      ∀ next after,
        subroutineMachine.step subroutineProgram .stream "" = ⟨next, after, none⟩ →
        (∃ edge ∈ (analyze subroutineProgram).edges,
            edge.source = subroutineMachine.pc ∧ edge.target = next.pc) ∨
          subroutineMachine.pc ∈ (analyze subroutineProgram).returns ∧
            ∃ call ∈ (analyze subroutineProgram).reachable,
              (∃ target, subroutineProgram.instruction? call = some (.call target)) ∧
                next.pc = call + 1 := by
  have runs : Machine.Runs subroutineProgram .stream (fun cause => ¬ isUnderflow cause)
      (.initial .unlimited, "") (subroutineMachine, "") :=
    .single ⟨none, rfl, fun _ mem => (nomatch mem)⟩
  have here : subroutineProgram.instruction? subroutineMachine.pc = some .ret := rfl
  exact ⟨runs, here, (analyze_sound runs here).2.2⟩

end LineAsm.Flow
