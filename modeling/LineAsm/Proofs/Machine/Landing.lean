import LineAsm.Proofs.Machine.LoopStack
import LineAsm.Proofs.Program.Bodies
import LineAsm.Proofs.Program.Targets

/-!
# Where control lands

A line of a source whose mnemonic takes a label leads to the one line that defines the label
of its operand, and no other line leads anywhere (`Leads`, `Program.leads_of_lineAt?`).

So the program counter never leaves a program by more than one line.  A jump and a call go to
the line of a label, a return goes behind a call, the next pass of a block goes behind its
header, and a block without a pass goes behind its closing bracket (`Bounded`).  A machine is
therefore halted exactly when its program counter is behind the last line
(`control_stays_inside`).
-/

set_option autoImplicit false

namespace LineAsm

/-- **Where a line of a source leads**: to the one line that defines the label named by its
operand, or nowhere when its mnemonic takes no label. -/
inductive Leads (lines : List String) (raw : String) : Option Nat → Prop where
  | label {place target : Nat} {name : String}
      (takes : (Statement.ofLine raw).labelPlace? = some place)
      (names : (Statement.ofLine raw).tokens[place]? = some name)
      (defined : ∀ line, labelAt? lines line = some name ↔ line = target) :
      Leads lines raw (some target)
  | nowhere (takesNone : (Statement.ofLine raw).labelPlace? = none) : Leads lines raw none

namespace Program

theorem le_size_of_instruction? {program : Program} {line : Nat} {instruction : Instruction}
    (here : program.instruction? line = some instruction) : line ≤ program.size :=
  (hasLine_iff.mp (mem_numbers.mp (mem_numbers_of_instruction? here))).2

/-! ## The targets of lines -/

section Source

variable {text : String} {program : Program} (compiled : compile .source text = .ok program)
include compiled

/-- A label of a source stands at one line. -/
theorem labelAt?_iff_of_labelAt? {name : String} {target : Nat}
    (defined : labelAt? (Source.normalLines text) target = some name) (line : Nat) :
    labelAt? (Source.normalLines text) line = some name ↔ line = target := by
  obtain ⟨_, linked, -⟩ := compile_eq_ok_iff.mp compiled
  have built := (link_eq_ok_iff.mp linked).1
  constructor
  · intro again
    have one := (LabelTable.line?_eq_some_iff built).mpr again
    have other := (LabelTable.line?_eq_some_iff built).mpr defined
    exact Option.some.inj (one.symm.trans other)
  · rintro rfl
    exact defined

/-- The target of an instruction is one of the lines of the program. -/
theorem target?_inside {line target : Nat} {instruction : Instruction}
    (here : program.instruction? line = some instruction)
    (leads : instruction.target? = some target) : 1 ≤ target ∧ target ≤ program.size := by
  obtain ⟨_, _, _, _, -, -, -, -, defined⟩ := exists_label_of_target? compiled here leads
  rw [size_of_compile compiled]
  exact inside_of_labelAt? defined

/-- **The instruction of a line leads where the line leads.** -/
theorem leads_of_lineAt? {number : Nat} {raw : String}
    (isRaw : Symbolic.lineAt? (Source.normalLines text) number = some raw) :
    ∃ instruction, program.instruction? number = some instruction ∧
      Leads (Source.normalLines text) raw instruction.target? := by
  have hasLine : program.hasLine number = true := by
    rw [hasLine_iff, size_of_compile compiled]
    rw [Symbolic.lineAt?] at isRaw
    split at isRaw
    · cases isRaw
    · have inside := (List.getElem?_eq_some_iff.mp isRaw).1
      omega
  obtain ⟨line, atNumber⟩ := Option.isSome_iff_exists.mp hasLine
  have here : program.instruction? number = some line.instruction := by
    rw [instruction?, atNumber]
    rfl
  refine ⟨line.instruction, here, ?_⟩
  cases leads : line.instruction.target? with
  | some target =>
      obtain ⟨other, opcode, operands, name, isOther, takes, spells, tokens, defined⟩ :=
        exists_label_of_target? compiled here leads
      obtain rfl := Option.some.inj (isRaw.symm.trans isOther)
      obtain ⟨word, found, last, -⟩ := spells.exists_target takes
      have inside : opcode.arity - 1 < operands.length := (List.getElem?_eq_some_iff.mp last).1
      have placed : (Statement.ofLine raw).labelPlace? = some (opcode.arity - 1 + 1) := by
        have positive : 1 ≤ opcode.arity := by
          revert takes
          cases opcode <;> decide
        simp only [Statement.labelPlace?, tokens, List.head?_cons, Option.bind_some,
          Opcode.ofMnemonic?_mnemonic, Opcode.labelPlace?, takes, if_true]
        rw [Nat.sub_add_cancel positive]
      refine .label placed ?_ (labelAt?_iff_of_labelAt? compiled defined)
      rw [tokens, List.getElem?_cons_succ]
      exact List.getElem?_set_self inside
  | none =>
      obtain ⟨other, resolved, number, isOther, done, read⟩ :=
        exists_raw_of_instruction? compiled here
      obtain rfl := Option.some.inj (isRaw.symm.trans isOther)
      refine .nowhere ?_
      rcases Instruction.ofTokens_cases read with
        ⟨empty, -⟩ | ⟨word, operands, opcode, tokens, named, spells⟩
      · simp [Statement.labelPlace?, LabelTable.tokens_eq_nil_of_resolveLine done empty]
      · rcases LabelTable.tokens_of_resolveLine done tokens named with
          ⟨takesNone, words⟩ | ⟨takes, -⟩
        · simp [Statement.labelPlace?, words, named, Opcode.labelPlace?, takesNone]
        · obtain ⟨_, target, -, -, leads'⟩ := spells.exists_target takes
          rw [Instruction.target?_unpaired, leads] at leads'
          cases leads'

end Source

end Program

namespace Machine

variable {σ : Type} {program : Program} {sink : Console σ} {machine next : Machine}

/-! ## The bound on the program counter -/

/-- **The bound that a run keeps to**: the program counter and the lines to return to are at
most one behind the last line. -/
structure Bounded (program : Program) (machine : Machine) : Prop where
  counter : machine.pc ≤ program.size + 1
  records : ∀ record ∈ machine.callStack.records, record.line ≤ program.size + 1

theorem bounded_initial (program : Program) (config : Config) :
    Bounded program (.initial config) where
  counter := Nat.le_add_left 1 _
  records := fun _ mem => (nomatch mem)

theorem Bounded.fetch (bounded : Bounded program machine) {instruction : Instruction}
    (here : program.instruction? machine.pc = some instruction) : Bounded program machine.fetch :=
  ⟨Nat.succ_le_succ (Program.le_size_of_instruction? here), bounded.records⟩

section Compiled

variable {text : String} (compiled : Program.compile .source text = .ok program)
include compiled

/-- **Acting keeps the bound.** -/
theorem Bounded.acts (bounded : Bounded program machine) {instruction : Instruction}
    (here : program.instruction? machine.line = some instruction)
    (acts : Acts program machine instruction next) : Bounded program next := by
  have leads {target : Nat} (target? : instruction.target? = some target) :
      target ≤ program.size + 1 :=
    Nat.le_succ_of_le (Program.target?_inside compiled here target?).2
  have ⟨counter, records⟩ := bounded
  cases acts with
  | straight => exact ⟨counter, records⟩
  | jump => exact ⟨leads rfl, records⟩
  | taken => exact ⟨leads rfl, records⟩
  | passed => exact ⟨counter, records⟩
  | call line =>
      refine ⟨leads rfl, ?_⟩
      intro record mem
      rcases List.mem_cons.mp mem with rfl | earlier
      · exact Nat.succ_le_succ (Program.le_size_of_instruction? here)
      · exact records record earlier
  | @ret record earlier latest =>
      have all := CallStack.records_of_pop? latest
      exact ⟨records record (all ▸ .head _), fun other mem => records other (all ▸ .tail _ mem)⟩
  | through | count =>
      rw [enterLoop_eq]
      exact ⟨counter, records⟩
  | skip register closing =>
      have closes : program.closing? machine.line = some closing := by
        rw [Program.closing?, here]
        rfl
      have bracket := Program.instruction?_closing compiled closes
      exact ⟨Nat.succ_le_succ (Program.le_size_of_instruction? bracket), records⟩
  | @again header =>
      have closes := Program.closing?_of_endIter compiled here
      obtain ⟨opening, atHeader, -⟩ := Option.bind_eq_some_iff.mp closes
      rw [beginPass_eq]
      exact ⟨Nat.succ_le_succ (Program.le_size_of_instruction? atHeader), records⟩
  | leave => exact ⟨counter, records⟩

/-- **A step keeps the bound**, also when it traps. -/
theorem Bounded.step (bounded : Bounded program machine) {console after : σ} {trap : Option Trap}
    (stepped : machine.step program sink console = ⟨next, after, trap⟩) : Bounded program next := by
  cases here : program.instruction? machine.pc with
  | none =>
      rw [step_eq_self here] at stepped
      cases stepped
      exact bounded
  | some instruction =>
      rw [step_eq here] at stepped
      have does := does_execute program sink machine.fetch console instruction
      rw [stepped] at does
      cases does with
      | acts acts => exact (bounded.fetch here).acts compiled here acts
      | writes | clears | traps => exact bounded.fetch here

theorem bounded_of_runs {resumes : Trap → Prop} {first last : Machine × σ}
    (runs : Runs program sink resumes first last) (bounded : Bounded program first.1) :
    Bounded program last.1 :=
  runs.keeps (Bounded program) (fun _ _ _ _ _ before stepped _ => before.step compiled stepped)
    bounded

end Compiled

/-! ## Runs -/

/-- **Control stays inside.**  The instruction of each line of a source leads where the line
leads, to a line of the program; and after every run, also one that went on behind traps, the
program counter is at a line of the program or one behind the last, where the machine is
halted. -/
theorem control_stays_inside {text : String}
    (compiled : Program.compile .source text = .ok program) :
    (∀ number raw, Symbolic.lineAt? (Source.normalLines text) number = some raw →
        ∃ instruction, program.instruction? number = some instruction ∧
          Leads (Source.normalLines text) raw instruction.target? ∧
          ∀ target, instruction.target? = some target → 1 ≤ target ∧ target ≤ program.size) ∧
      ∀ (sink : Console σ) (config : Config) (start console : σ) (machine : Machine),
        Runs program sink (fun _ => True) (.initial config, start) (machine, console) →
        1 ≤ machine.pc ∧ machine.pc ≤ program.size + 1 ∧
          (machine.isHalted program = true ↔ machine.pc = program.size + 1) := by
  refine ⟨?_, ?_⟩
  · intro number raw isRaw
    obtain ⟨instruction, here, leads⟩ := Program.leads_of_lineAt? compiled isRaw
    exact ⟨instruction, here, leads, fun _ target => Program.target?_inside compiled here target⟩
  · intro sink config start console machine runs
    have lower : 1 ≤ machine.pc :=
      (orderly_of_runs compiled runs (orderly_initial program config)).counter
    have upper : machine.pc ≤ program.size + 1 :=
      (bounded_of_runs compiled runs (bounded_initial program config)).counter
    refine ⟨lower, upper, ?_⟩
    rw [isHalted, decide_eq_true_iff]
    omega

/-- A jump over a call, with a label on the last line. -/
def landingSource : String := "JMP 1 // not a number\nf: RET\n1: CALL f\n"

/-- What it is compiled to. -/
def landingProgram : Program where
  lines := #[⟨"JMP 3 // not a number", .jump 3⟩, ⟨"f: RET", .ret⟩, ⟨"1: CALL 2", .call 2⟩]
  labels := ⟨[("1", 3), ("f", 2)]⟩

theorem control_stays_inside_landing :
    Program.compile .source landingSource = .ok landingProgram ∧
      Leads (Source.normalLines landingSource) "JMP 1 // not a number" (some 3) ∧
      ∀ (machine : Machine) (console : String),
        Runs landingProgram .stream (fun _ => True) (.initial .unlimited, "") (machine, console) →
        machine.pc ≤ 4 := by
  have compiled : Program.compile .source landingSource = .ok landingProgram := by decide +kernel
  obtain ⟨lines, states⟩ := @control_stays_inside String _ _ compiled
  obtain ⟨instruction, here, leads, -⟩ := lines 1 "JMP 1 // not a number" (by decide +kernel)
  obtain rfl : Instruction.jump 3 = instruction := Option.some.inj here
  refine ⟨compiled, leads, ?_⟩
  intro machine console runs
  exact (states .stream .unlimited "" console machine runs).2.1

end Machine

end LineAsm
