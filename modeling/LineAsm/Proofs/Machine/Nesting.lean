import LineAsm.Proofs.Machine.BoundedRuns
import LineAsm.Proofs.Program.Bodies

/-!
# Programs that keep to their blocks

A program keeps to its blocks when no jump enters the body of a block from outside and no
call stands in the body of a block (`Program.KeepsToBlocks`).  Jumps out of a body, within
it, to its closing bracket and back to a header are allowed.  Such a program never reaches a
closing bracket without a loop frame for its block (`no_loopFrame`).

A jump out of a body leaves the frame of the block behind, and a header that is executed
again takes its frame out of the middle, so frames of blocks that were left may stand
between the others.  What every step keeps is that the blocks around the program counter
have frames in the order of their nesting, whatever stands between them (`Framed`).
-/

set_option autoImplicit false

namespace LineAsm

/-- Whether an instruction is a call. -/
def Instruction.isCall : Instruction → Bool
  | .call _ => true
  | _ => false

namespace Program

/-- **A program keeps to its blocks** when its jumps and calls enter no body from outside and
its calls stand in no body. -/
structure KeepsToBlocks (program : Program) : Prop where
  enters : ∀ {source target : Nat} {instruction : Instruction},
    program.instruction? source = some instruction → instruction.target? = some target →
    ∀ header, program.inBody header target = true → program.inBody header source = true
  calls : ∀ {source target : Nat}, program.instruction? source = some (.call target) →
    ∀ header, program.inBody header source = false

theorem KeepsToBlocks.around_call {program : Program} (keeps : program.KeepsToBlocks)
    {source target : Nat} (here : program.instruction? source = some (.call target)) :
    program.around source = [] :=
  List.filter_eq_nil_iff.mpr fun header _ => Bool.eq_false_iff.mp (keeps.calls here header)

/-- Whether a program keeps to its blocks is seen line by line. -/
theorem keepsToBlocks_iff {program : Program} :
    program.KeepsToBlocks ↔
      ∀ source ∈ program.numbers, ∀ instruction ∈ program.instruction? source,
        (∀ target ∈ instruction.target?, program.around target ⊆ program.around source) ∧
          (instruction.isCall = true → program.around source = []) := by
  constructor
  · intro keeps source inside instruction here
    refine ⟨?_, ?_⟩
    · intro target leads header mem
      exact mem_around_iff.mpr (keeps.enters here leads header (mem_around_iff.mp mem))
    · intro calls
      cases instruction with
      | call target =>
          exact keeps.around_call here
      | _ => cases calls
  · intro checked
    refine ⟨?_, ?_⟩
    · intro source target instruction here leads header inside
      have kept := (checked source (mem_numbers_of_instruction? here) instruction here).1 target leads
      exact mem_around_iff.mp (kept (mem_around_iff.mpr inside))
    · intro source target here header
      have outside := (checked source (mem_numbers_of_instruction? here) _ here).2 rfl
      refine Bool.eq_false_iff.mpr fun inside => ?_
      have mem := mem_around_iff.mpr inside
      rw [outside] at mem
      cases mem

instance (program : Program) : Decidable program.KeepsToBlocks :=
  decidable_of_iff _ keepsToBlocks_iff.symm

end Program

namespace Machine

/-! ## Frames in the order of nesting -/

/-- The headers of the frames of a machine, the latest first. -/
def activeHeaders (machine : Machine) : List Nat := machine.loops.map (·.header)

/-- Dropping the frames above that of a block leaves the frames of the blocks around it. -/
theorem dropWhile_of_sublist {header : Nat} {outer : List Nat} {loops : List LoopFrame}
    (nested : (header :: outer).Sublist (loops.map (·.header))) :
    ∃ frame later, loops.dropWhile (·.header != header) = frame :: later ∧
      frame.header = header ∧ outer.Sublist (later.map (·.header)) := by
  induction loops with
  | nil => cases nested
  | cons first later ih =>
      by_cases same : first.header = header
      · refine ⟨first, later, List.dropWhile_cons_of_neg (by simp [same]), same, ?_⟩
        rw [List.map_cons, same] at nested
        exact List.cons_sublist_cons.mp nested
      · have other : (first.header != header) = true := bne_iff_ne.mpr same
        have below : (header :: outer).Sublist (later.map (·.header)) := by
          cases nested with
          | cons _ below => exact below
          | cons_cons => exact absurd rfl same
        obtain ⟨frame, rest, kept, isFrame, around⟩ := ih below
        exact ⟨frame, rest,
          (List.dropWhile_cons_of_pos (p := fun frame : LoopFrame => frame.header != header)
            other).trans kept, isFrame, around⟩

/-- Frames of blocks that a row does not name may be taken out of what it is a part of. -/
theorem sublist_filter_of_not_mem {header : Nat} {row : List Nat} {loops : List LoopFrame}
    (nested : row.Sublist (loops.map (·.header))) (absent : header ∉ row) :
    row.Sublist ((loops.filter (·.header != header)).map (·.header)) := by
  have kept : row.filter (· != header) = row := by
    refine List.filter_eq_self.mpr ?_
    intro other mem
    refine bne_iff_ne.mpr ?_
    rintro rfl
    exact absent mem
  have filtered := nested.filter (· != header)
  rwa [kept, List.filter_map] at filtered

variable {σ : Type} {program : Program} {sink : Console σ} {machine next : Machine}

/-- **The invariant of a program that keeps to its blocks**: the blocks around the program
counter have frames in the order of their nesting, and calls return behind lines with a
call. -/
structure Framed (program : Program) (machine : Machine) : Prop where
  nested : (program.around machine.pc).Sublist machine.activeHeaders
  records : ∀ record ∈ machine.callStack.records,
    ∃ call target, program.instruction? call = some (.call target) ∧ record.line = call + 1

theorem framed_initial (program : Program) (config : Config) :
    Framed program (.initial config) where
  nested := program.around_one ▸ List.nil_sublist _
  records := fun _ mem => (nomatch mem)

/-- Control that passes to the line behind one that is no header. -/
theorem Framed.fetch (framed : Framed program machine) {instruction : Instruction}
    (here : program.instruction? machine.pc = some instruction)
    (plain : instruction.closing? = none) : Framed program machine.fetch where
  nested := by
    have closes : program.closing? machine.pc = none := by
      rw [Program.closing?, here]
      exact plain
    exact (Program.around_succ_sublist closes).trans framed.nested
  records := framed.records

/-- Control that passes into a block, which gets a frame on top of the others. -/
theorem Framed.enterLoop (framed : Framed program machine) {frame : LoopFrame}
    (own : frame.header = machine.pc) : Framed program (machine.fetch.enterLoop frame) := by
  rw [enterLoop_eq]
  refine ⟨?_, framed.records⟩
  have outside : machine.pc ∉ program.around machine.pc := fun mem =>
    absurd (Program.lt_of_mem_around mem) (Nat.lt_irrefl _)
  have outer := sublist_filter_of_not_mem framed.nested outside
  have entered := (program.around_succ_sublist_cons machine.pc).trans (outer.cons_cons machine.pc)
  change List.Sublist _ (frame.header :: (machine.loops.filter (·.header != frame.header)).map _)
  rw [own]
  exact entered

section Compiled

variable {form : ProgramForm} {text : String} (compiled : Program.compile form text = .ok program)
include compiled

/-- At a closing bracket the block has a frame, and the frames below it are those of the
blocks around the header. -/
theorem Framed.dropWhile (framed : Framed program machine) {header : Nat}
    (here : program.instruction? machine.pc = some (.endIter header)) :
    ∃ frame later, machine.loops.dropWhile (·.header != header) = frame :: later ∧
      (program.around (header + 1)).Sublist (frame.header :: later.map (·.header)) ∧
      (program.around (machine.pc + 1)).Sublist (later.map (·.header)) := by
  have closes := Program.closing?_of_endIter compiled here
  obtain ⟨outer, around, again, behind⟩ := Program.around_closing compiled closes
  have nested := framed.nested
  rw [around] at nested
  obtain ⟨frame, later, kept, rfl, below⟩ := dropWhile_of_sublist nested
  exact ⟨frame, later, kept, again.trans (below.cons_cons _), behind.trans below⟩

variable (keeps : program.KeepsToBlocks)
include keeps

/-- **Acting keeps the invariant.** -/
theorem Framed.acts (framed : Framed program machine) {instruction : Instruction}
    (here : program.instruction? machine.pc = some instruction)
    (acts : Acts program machine.fetch instruction next) : Framed program next := by
  have jumps {target : Nat} (leads : instruction.target? = some target) :
      (program.around target).Sublist machine.activeHeaders :=
    (Program.around_sublist (keeps.enters here leads)).trans framed.nested
  cases acts with
  | straight only registers =>
      have fetched := framed.fetch here (by cases instruction <;> first | rfl | cases only)
      exact ⟨fetched.nested, fetched.records⟩
  | jump => exact ⟨jumps rfl, framed.records⟩
  | taken => exact ⟨jumps rfl, framed.records⟩
  | passed => exact framed.fetch here rfl
  | call target =>
      refine ⟨jumps rfl, ?_⟩
      intro record mem
      rcases List.mem_cons.mp mem with rfl | earlier
      · exact ⟨machine.pc, target, here, rfl⟩
      · exact framed.records record earlier
  | @ret record earlier latest =>
      have all : machine.callStack.records = record :: earlier.records :=
        CallStack.records_of_pop? latest
      refine ⟨?_, fun other mem => framed.records other (all ▸ .tail _ mem)⟩
      obtain ⟨call, target, atCall, behind⟩ := framed.records record (all ▸ .head _)
      have plain : program.closing? call = none := by
        rw [Program.closing?, atCall]
        rfl
      have outside := Program.around_succ_sublist plain
      rw [keeps.around_call atCall, ← behind] at outside
      exact outside.trans (List.nil_sublist _)
  | through | count => exact framed.enterLoop rfl
  | skip register closing =>
      have outside : machine.pc ∉ program.around machine.pc := fun mem =>
        absurd (Program.lt_of_mem_around mem) (Nat.lt_irrefl _)
      have closes : program.closing? machine.pc = some closing := by
        rw [Program.closing?, here]
        rfl
      exact ⟨(Program.around_behind_sublist compiled closes).trans
        (sublist_filter_of_not_mem framed.nested outside), framed.records⟩
  | @again header frame outer active more =>
      obtain ⟨first, later, kept, again, -⟩ := framed.dropWhile compiled here
      obtain ⟨rfl, rfl⟩ := List.cons.inj (active.symm.trans kept)
      rw [beginPass_eq]
      exact ⟨again, framed.records⟩
  | @leave header frame outer active last =>
      obtain ⟨first, later, kept, -, behind⟩ := framed.dropWhile compiled here
      obtain ⟨rfl, rfl⟩ := List.cons.inj (active.symm.trans kept)
      exact ⟨behind, framed.records⟩

/-- **A step keeps the invariant and traps with no missing frame.** -/
theorem Framed.step (framed : Framed program machine) {console after : σ} {trap : Option Trap}
    (stepped : machine.step program sink console = ⟨next, after, trap⟩) :
    Framed program next ∧ ∀ line, trap ≠ some (.loopFrame line) := by
  cases here : program.instruction? machine.pc with
  | none =>
      rw [step_eq_self here] at stepped
      cases stepped
      exact ⟨framed, fun line => nofun⟩
  | some instruction =>
      rw [step_eq here] at stepped
      have does := does_execute program sink machine.fetch console instruction
      rw [stepped] at does
      cases does with
      | acts acts => exact ⟨framed.acts compiled keeps here acts, fun line => nofun⟩
      | writes =>
          refine ⟨framed.fetch here rfl, fun line => ?_⟩
          cases (sink.write _ console).2 <;> nofun
      | clears =>
          refine ⟨framed.fetch here rfl, fun line => ?_⟩
          cases (sink.clear console).2 <;> nofun
      | traps traps =>
          cases traps with
          | loopFrame inactive =>
              obtain ⟨frame, later, kept, -⟩ := framed.dropWhile compiled here
              have missing := inactive.symm.trans kept
              cases missing
          | _ => exact ⟨framed.fetch here rfl, fun line => nofun⟩

theorem framed_of_runs {resumes : Trap → Prop} {first last : Machine × σ}
    (runs : Runs program sink resumes first last) (framed : Framed program first.1) :
    Framed program last.1 :=
  runs.keeps (Framed program)
    (fun _ _ _ _ _ before stepped _ => (before.step compiled keeps stepped).1) framed

end Compiled

/-! ## Runs -/

/-- **A program that keeps to its blocks never misses a loop frame**, neither at a step of a
run, be it one that went on behind other traps, nor at the end of a bounded run. -/
theorem no_loopFrame {form : ProgramForm} {text : String}
    (compiled : Program.compile form text = .ok program) (keeps : program.KeepsToBlocks)
    (config : Config) (start : σ) (line : Nat) :
    (∀ (machine : Machine) (console : σ),
        Runs program sink (fun _ => True) (.initial config, start) (machine, console) →
        (machine.step program sink console).trap ≠ some (.loopFrame line)) ∧
      ∀ (fuel : Nat) (outcome : Outcome σ),
        (Machine.initial config).runFor program sink fuel start = some outcome →
        outcome.trap ≠ some (.loopFrame line) := by
  have steps (machine : Machine) (console : σ)
      (runs : Runs program sink (fun _ => True) (.initial config, start) (machine, console)) :
      (machine.step program sink console).trap ≠ some (.loopFrame line) := by
    have framed := framed_of_runs compiled keeps runs (framed_initial program config)
    have stepped : machine.step program sink console = ⟨_, _, _⟩ := rfl
    exact (framed.step compiled keeps stepped).2 line
  refine ⟨steps, ?_⟩
  intro fuel outcome finished
  obtain ⟨⟨machine, console⟩, runs, ending⟩ := runs_of_runFor finished
  rcases ending with ⟨-, rfl⟩ | ⟨-, rfl⟩ | ⟨-, rfl⟩
  · nofun
  · nofun
  · exact steps machine console runs

/-- A jump out of the inner one of two blocks. -/
def breakingSource : String :=
  "ITER_FOR |C0:3| (\nITER_FOR |C1:5| (\nINC B0\nJE C1 1 brk\n)\nbrk: INC B1\n)\n"

/-- What it is compiled to. -/
def breakingProgram : Program where
  lines := #[⟨"ITER_FOR |C0:3| (", .iterFor ⟨.c, 0⟩ 3 7⟩,
    ⟨"ITER_FOR |C1:5| (", .iterFor ⟨.c, 1⟩ 5 5⟩, ⟨"INC B0", .inc ⟨.b, 0⟩⟩,
    ⟨"JE C1 1 6", .branch .jumpEqual ⟨false, true, false⟩ ⟨.c, 1⟩ (.literal 1) 6⟩,
    ⟨")", .endIter 2⟩, ⟨"brk: INC B1", .inc ⟨.b, 1⟩⟩, ⟨")", .endIter 1⟩]
  labels := ⟨[("brk", 6)]⟩

theorem no_loopFrame_breaking :
    Program.compile .source breakingSource = .ok breakingProgram ∧
      breakingProgram.KeepsToBlocks ∧
      ∀ (maxSteps : Option Nat) (line fuel : Nat) (outcome : Outcome String),
        (Machine.initial ⟨maxSteps, none⟩).runFor breakingProgram .stream fuel "" = some outcome →
        outcome.trap ≠ some (.loopFrame line) := by
  have compiled : Program.compile .source breakingSource = .ok breakingProgram := by
    decide +kernel
  have keeps : breakingProgram.KeepsToBlocks := by decide +kernel
  refine ⟨compiled, keeps, ?_⟩
  intro maxSteps line
  exact (no_loopFrame compiled keeps ⟨maxSteps, none⟩ "" line).2

end Machine

end LineAsm
