import LineAsm.Proofs.Machine.StepLimit
import Mathlib.Data.List.DropRight

/-!
# Output and runs

An output instruction sends a text or a clear to the console and does nothing else to the
machine than any other line: the program counter and the count of lines move on.  So a step is
what it does to the machine alone, and what it sends to the console
(`Machine.step_eq_silentStep`).

Consoles are compared with the one that writes down what it was sent and never fails
(`Console.transcript`).  A step on a console that keeps what it was sent is the step on the
transcript, with what the console keeps of it (`Machine.step_of_keeps`), and so are traces and
runs.  On a console that refuses what a line sends, the run ends at this line, with the machine
that the line leaves (`Machine.endsWith_of_refused`).

A stream keeps what everything sent prints, a buffer what was sent behind the last clear, and a
stream that runs full as much as it has room for.  The three runs are put together in
`Machine.output_only_cuts`.
-/

set_option autoImplicit false

namespace LineAsm

/-! ## What is sent to a console -/

/-- What an output instruction sends to its console. -/
inductive Output where
  | text (written : String)
  | clear
  deriving DecidableEq, Repr, Inhabited

namespace Output

/-- What is written for an output by a console that clears by writing. -/
def written : Output → String
  | .text written => written
  | .clear => Console.clearSequence

/-- What is written for outputs, one after the other. -/
def printed (sent : List Output) : String :=
  String.join (sent.map written)

/-- The outputs behind the last clear. -/
def sinceClear (sent : List Output) : List Output :=
  sent.rtakeWhile (· != .clear)

theorem printed_cons (output : Output) (sent : List Output) :
    printed (output :: sent) = output.written ++ printed sent :=
  String.join_cons

theorem printed_concat (sent : List Output) (output : Output) :
    printed (sent ++ [output]) = printed sent ++ output.written := by
  rw [printed, List.map_append, String.join_append, List.map_singleton, String.join_cons]
  exact congrArg (printed sent ++ ·) String.append_empty

end Output

/-- What an instruction sends to a console, if it sends anything. -/
def Instruction.output? (registers : RegisterFile) : Instruction → Option Output
  | .write item => some (.text (item.text registers))
  | .clearScreen => some .clear
  | _ => none

namespace Console

variable {σ : Type}

/-- A console takes an output by a write or by a clear. -/
def take (sink : Console σ) : Output → σ → σ × Option String
  | .text written => sink.write written
  | .clear => sink.clear

/-- A console takes outputs one after the other, up to the first that fails. -/
def takeAll (sink : Console σ) (start : σ) : List Output → σ × Option String
  | [] => (start, none)
  | output :: later =>
    match sink.take output start with
    | (after, none) => sink.takeAll after later
    | (after, some reason) => (after, some reason)

/-- The console that writes down what it was sent and never fails. -/
def transcript : Console (List Output) where
  write := fun written sent => (sent ++ [.text written], none)
  clear := fun sent => (sent ++ [.clear], none)

/-- A console has taken all outputs, and has kept something of them. -/
def Keeps (sink : Console σ) (start : σ) (keep : List Output → σ) (sent : List Output) : Prop :=
  sink.takeAll start sent = (keep sent, none)

theorem takeAll_append (sink : Console σ) (start : σ) (sent later : List Output) :
    sink.takeAll start (sent ++ later) =
      match sink.takeAll start sent with
      | (after, none) => sink.takeAll after later
      | (after, some reason) => (after, some reason) := by
  induction sent generalizing start with
  | nil => rfl
  | cons output sent ih =>
      rw [List.cons_append, takeAll, takeAll]
      split
      · exact ih _
      · rfl

/-- A console that has kept what was sent before takes one output more from there. -/
theorem Keeps.takeAll_concat {sink : Console σ} {start : σ} {keep : List Output → σ}
    {sent : List Output} (kept : sink.Keeps start keep sent) (output : Output) :
    sink.takeAll start (sent ++ [output]) = sink.take output (keep sent) := by
  rw [takeAll_append, kept]
  dsimp only
  rw [takeAll]
  rcases sink.take output (keep sent) with ⟨after, _ | reason⟩ <;> rfl

/-! ## What consoles keep -/

/-- A stream keeps what is written for everything that it was sent. -/
theorem keeps_stream (sent : List Output) : stream.Keeps "" Output.printed sent := by
  induction sent using List.reverseRecOn with
  | nil => rfl
  | append_singleton sent output ih =>
      rw [Keeps, ih.takeAll_concat, Output.printed_concat]
      cases output <;> rfl

/-- **A buffer** keeps what was sent behind the last clear, and counts the clears. -/
theorem keeps_buffer (sent : List Output) :
    buffer.Keeps .empty
      (fun sent => ⟨Output.printed (Output.sinceClear sent), sent.count .clear⟩) sent := by
  induction sent using List.reverseRecOn with
  | nil => rfl
  | append_singleton sent output ih =>
      rw [Keeps, ih.takeAll_concat, List.count_append]
      cases output with
      | text written =>
          have kept : Output.sinceClear (sent ++ [.text written]) =
              Output.sinceClear sent ++ [.text written] :=
            List.rtakeWhile_concat_pos _ _ _ rfl
          rw [kept, Output.printed_concat]
          rfl
      | clear =>
          have kept : Output.sinceClear (sent ++ [.clear]) = [] :=
            List.rtakeWhile_concat_neg _ _ _ (by decide)
          rw [kept]
          rfl

/-- **A stream that runs full** keeps outputs as long as it has room for them, and refuses the
first that it has no room for. -/
theorem takeAll_bounded (text : String) (room : Nat) (sent : List Output) :
    bounded.takeAll ⟨text, room⟩ sent =
      if sent.length ≤ room then (⟨text ++ Output.printed sent, room - sent.length⟩, none)
      else (⟨text ++ Output.printed (sent.take room), 0⟩, some "console full") := by
  have nothing : text ++ Output.printed [] = text := String.append_empty
  induction sent generalizing text room with
  | nil =>
      rw [nothing]
      exact (if_pos (Nat.zero_le room)).symm
  | cons output sent ih =>
      cases room with
      | zero =>
          have refused : bounded.take output ⟨text, 0⟩ = (⟨text, 0⟩, some "console full") := by
            cases output <;> rfl
          rw [takeAll, refused, List.take_zero, nothing]
          exact (if_neg (Nat.not_succ_le_zero sent.length)).symm
      | succ room =>
          have taken : bounded.take output ⟨text, room + 1⟩ =
              (⟨text ++ output.written, room⟩, none) := by
            cases output <;> rfl
          rw [takeAll, taken]
          dsimp only
          rw [ih _ _ String.append_empty, List.take_succ_cons, Output.printed_cons,
            Output.printed_cons, ← String.append_assoc, ← String.append_assoc, List.length_cons,
            Nat.add_sub_add_right]
          simp only [Nat.add_le_add_iff_right]

theorem keeps_bounded {room : Nat} {sent : List Output} (within : sent.length ≤ room) :
    bounded.Keeps ⟨"", room⟩ (fun sent => ⟨Output.printed sent, room - sent.length⟩) sent := by
  rw [Keeps, takeAll_bounded, if_pos within, String.empty_append]

end Console

/-! ## Steps -/

/-- The outcome of a run on another console. -/
def Outcome.mapConsole {σ τ : Type} (keep : σ → τ) (outcome : Outcome σ) : Outcome τ :=
  ⟨outcome.machine, keep outcome.console, outcome.trap⟩

namespace Machine

variable {σ : Type} {program : Program} {sink : Console σ} {start : σ} {keep : List Output → σ}
  {machine : Machine} {sent : List Output} {count room : Nat}

/-- What the line at the program counter sends to a console, if it sends anything. -/
def output? (program : Program) (machine : Machine) : Option Output :=
  (program.instruction? machine.pc).bind (·.output? machine.registers)

/-- What a step does to the machine alone. -/
def silentStep (program : Program) (machine : Machine) : Machine × Option Trap :=
  match program.instruction? machine.pc with
  | none => (machine, none)
  | some instruction =>
    match machine.fetch.apply program instruction with
    | .ok next => (next, none)
    | .error cause => (machine.fetch, some cause)

/-- **A step is what it does to the machine alone, and what it sends to the console.**  A line
that sends something traps only where the console fails. -/
theorem step_eq_silentStep (program : Program) (machine : Machine) (sink : Console σ)
    (console : σ) :
    machine.step program sink console =
      match machine.output? program with
      | none => ⟨(machine.silentStep program).1, console, (machine.silentStep program).2⟩
      | some output =>
        ⟨(machine.silentStep program).1, (sink.take output console).1,
          (sink.take output console).2.map (.console machine.pc)⟩ := by
  rw [step, output?, silentStep]
  cases program.instruction? machine.pc with
  | none => rfl
  | some instruction =>
      dsimp only [Option.bind_some]
      cases instruction with
      | write item => rfl
      | clearScreen => rfl
      | _ =>
          simp only [execute, Instruction.output?]
          cases machine.fetch.apply program _ <;> rfl

/-- A transcript grows by what the line sends. -/
theorem console_step_transcript (program : Program) (machine : Machine) (sent : List Output) :
    (machine.step program .transcript sent).console =
      sent ++ (machine.output? program).toList := by
  rw [step_eq_silentStep]
  cases machine.output? program with
  | none => exact (List.append_nil sent).symm
  | some output => cases output <;> rfl

/-- **A step on a console that has kept what was sent before** does to the machine what it does
on the transcript.  It traps where the console fails, and else where the other one traps. -/
theorem step_of_takeAll (kept : sink.Keeps start keep sent) :
    let logged := machine.step program .transcript sent
    let taken := sink.takeAll start logged.console
    machine.step program sink (keep sent) =
      ⟨logged.machine, taken.1,
        match taken.2 with
        | none => logged.trap
        | some reason => some (.console machine.pc reason)⟩ := by
  intro logged taken
  have grows : logged.console = sent ++ (machine.output? program).toList :=
    console_step_transcript program machine sent
  dsimp only [taken]
  rw [grows, step_eq_silentStep]
  dsimp only [logged]
  rw [step_eq_silentStep]
  cases machine.output? program with
  | none => rw [Option.toList_none, List.append_nil, kept]
  | some output =>
      rw [Option.toList_some, kept.takeAll_concat]
      dsimp only
      rcases sink.take output (keep sent) with ⟨next, _ | reason⟩ <;> cases output <;> rfl

/-- Where the console keeps what the line sends, the step is the one on the transcript. -/
theorem step_of_keeps (before : sink.Keeps start keep sent)
    (after : sink.Keeps start keep (machine.step program .transcript sent).console) :
    machine.step program sink (keep sent) =
      (machine.step program .transcript sent).mapConsole keep := by
  rw [step_of_takeAll before, after]
  rfl

/-- Where the console refuses what the line sends, the step traps, and does nothing else to the
machine than the one on the transcript. -/
theorem step_of_refused (before : sink.Keeps start keep sent) {final : σ} {reason : String}
    (refused : sink.takeAll start (machine.step program .transcript sent).console =
      (final, some reason)) :
    machine.step program sink (keep sent) =
      ⟨(machine.step program .transcript sent).machine, final,
        some (.console machine.pc reason)⟩ := by
  rw [step_of_takeAll before, refused]

/-! ## Runs that come to a line -/

/-- A run comes to a line after a number of steps and executes it: the machine is neither halted
there nor at its step limit. -/
structure Executes (program : Program) (sink : Console σ) (count : Nat)
    (first last : Machine × σ) : Prop where
  advances : Advances program sink count first last
  running : last.1.isHalted program = false
  below : last.1.atStepLimit = false

/-- A run that comes to a line may start one step earlier. -/
theorem Executes.head {first next last : Machine × σ}
    (running : first.1.isHalted program = false)
    (stepped : first.1.step program sink first.2 = ⟨next.1, next.2, none⟩)
    (executes : Executes program sink count next last) :
    Executes program sink (count + 1) first last :=
  ⟨.step running stepped executes.advances, executes.running, executes.below⟩

theorem atStepLimit_of_step {next : Machine} {console after : σ} {trap : Option Trap}
    (stepped : machine.step program sink console = ⟨next, after, trap⟩)
    (below : next.atStepLimit = false) : machine.atStepLimit = false := by
  have counted : machine.steps ≤ next.steps := by
    cases here : program.instruction? machine.pc with
    | none =>
        rw [step_eq_self here] at stepped
        cases stepped
        exact Nat.le_refl _
    | some instruction =>
        have counted := steps_of_step here sink console
        rw [stepped] at counted
        exact Nat.le_of_succ_le counted.ge
  unfold atStepLimit at below ⊢
  rw [config_of_step stepped] at below
  cases limited : machine.config.maxSteps with
  | none => rfl
  | some limit =>
      rw [limited] at below
      have short : ¬ limit ≤ next.steps := of_decide_eq_false below
      exact decide_eq_false (by omega)

/-- A machine that steps lead below its step limit has been below it. -/
theorem Advances.atStepLimit_eq_false {first last : Machine × σ}
    (advances : Advances program sink count first last)
    (below : last.1.atStepLimit = false) : first.1.atStepLimit = false := by
  induction advances with
  | start => exact below
  | step _ stepped _ ih => exact atStepLimit_of_step stepped (ih below)

/-- A run goes on from wherever steps lead below the step limit. -/
theorem Advances.runFor_add {first last : Machine × σ}
    (advances : Advances program sink count first last)
    (below : last.1.atStepLimit = false) (more : Nat) :
    first.1.runFor program sink (count + more) first.2 =
      last.1.runFor program sink more last.2 := by
  induction advances with
  | start => rw [Nat.zero_add]
  | @step count first next last running stepped later ih =>
      have open_ := atStepLimit_of_step stepped (later.atStepLimit_eq_false below)
      rw [Nat.add_right_comm, runFor_succ_of_step running open_ stepped]
      exact ih below

/-- A transcript only grows. -/
theorem Advances.isPrefix_transcript {first last : Machine × List Output}
    (advances : Advances program .transcript count first last) : first.2 <+: last.2 := by
  induction advances with
  | start => exact List.prefix_rfl
  | @step count first next last _ stepped _ ih =>
      have grows := console_step_transcript program first.1 first.2
      rw [stepped] at grows
      exact List.IsPrefix.trans ⟨_, grows.symm⟩ ih

/-! ## Runs on a console that keeps what it was sent -/

/-- The steps on the transcript are steps on a console that keeps what they send. -/
theorem Advances.of_keeps {first last : Machine × List Output}
    (advances : Advances program .transcript count first last)
    (keeps : ∀ sent, sent <+: last.2 → sink.Keeps start keep sent) :
    Advances program sink count (first.1, keep first.2) (last.1, keep last.2) := by
  induction advances with
  | start => exact .start _
  | @step count first next last running stepped later ih =>
      have whole := (Advances.step running stepped later).isPrefix_transcript
      have same : first.1.step program sink (keep first.2) = ⟨next.1, keep next.2, none⟩ := by
        rw [step_of_keeps (keeps _ whole), stepped]
        · rfl
        · rw [stepped]
          exact keeps _ later.isPrefix_transcript
      exact .step running same (ih keeps)

/-- **A run ends at the line whose output the console refuses.** -/
theorem endsWith_of_refused {first last : Machine × List Output}
    (executes : Executes program .transcript count first last)
    (keeps : ∀ sent, sent <+: last.2 → sink.Keeps start keep sent) {final : σ} {reason : String}
    (refused : sink.takeAll start (last.1.step program .transcript last.2).console =
      (final, some reason)) :
    EndsWith program sink first.1 (keep first.2)
      ⟨(last.1.step program .transcript last.2).machine, final,
        some (.console last.1.pc reason)⟩ := by
  have stopped := step_of_refused (keeps _ List.prefix_rfl) refused
  have traps : (last.1.step program sink (keep last.2)).trap ≠ none := by
    rw [stopped]
    nofun
  refine ⟨count + 1, ?_⟩
  rw [(executes.advances.of_keeps keeps).runFor_add executes.below,
    runFor_succ_of_trap executes.running executes.below traps, stopped]

/-- **A run on a console that keeps what the lines send** is the run on the transcript, with what
the console keeps of it. -/
theorem runFor_of_keeps (here : sink.Keeps start keep sent)
    (keeps : ∀ count last, Executes program .transcript count (machine, sent) last →
      sink.Keeps start keep (last.1.step program .transcript last.2).console) (given : Nat) :
    machine.runFor program sink given (keep sent) =
      (machine.runFor program .transcript given sent).map (·.mapConsole keep) := by
  induction given using Nat.strongRecOn generalizing machine sent with
  | ind given ih =>
      have turn := turn_runFor program .transcript given machine sent
      generalize machine.runFor program .transcript given sent = ending at turn ⊢
      cases turn with
      | halted halts => exact runFor_of_isHalted halts given
      | limited running full => exact runFor_of_atStepLimit running full given
      | unfinished running below =>
          rw [runFor, running, below]
          rfl
      | trapped running below traps =>
          have same := step_of_keeps here (keeps 0 _ ⟨.start _, running, below⟩)
          rw [runFor_succ_of_trap running below (by rw [same]; exact traps), same]
          rfl
      | @passes given next after running below stepped =>
          have kept := keeps 0 _ ⟨.start _, running, below⟩
          have same := step_of_keeps here kept
          rw [stepped] at kept same
          rw [runFor_succ_of_step running below same]
          exact ih given (Nat.lt_succ_self given) kept fun count last executes =>
            keeps (count + 1) last (executes.head running stepped)

/-- The trace of a run on another console. -/
def Trace.mapConsole {τ : Type} (keep : σ → τ) (path : Trace σ) : Trace τ :=
  ⟨path.visited, path.ending, path.machine, keep path.console⟩

/-- **A trace on a console that never fails** is the trace on the transcript, with what the
console keeps of it. -/
theorem trace_of_keeps (keeps : ∀ sent, sink.Keeps start keep sent) (count : Nat)
    (machine : Machine) (sent : List Output) :
    machine.trace program sink count (keep sent) =
      (machine.trace program .transcript count sent).mapConsole keep := by
  induction count generalizing machine sent with
  | zero => rfl
  | succ count ih =>
      rw [trace, trace]
      cases machine.isHalted program with
      | true => rfl
      | false =>
          simp only [Bool.false_eq_true, if_false]
          rw [step_of_keeps (keeps sent) (keeps _)]
          rcases machine.step program .transcript sent with ⟨next, after, _ | cause⟩
          · simp only [Outcome.mapConsole]
            rw [ih]
            rfl
          · rfl

/-! ## What a run sends -/

/-- **A transcript holds what the executed lines send**, in their order. -/
theorem console_trace_transcript (program : Program) (count : Nat) (machine : Machine)
    (sent : List Output) :
    let path := machine.trace program .transcript count sent
    path.console = sent ++ (machine :: path.visited).dropLast.filterMap (·.output? program) := by
  induction count generalizing machine sent with
  | zero => exact (List.append_nil sent).symm
  | succ count ih =>
      intro path
      dsimp only [path]
      rw [trace]
      cases machine.isHalted program with
      | true => exact (List.append_nil sent).symm
      | false =>
          simp only [Bool.false_eq_true, if_false]
          have grows := console_step_transcript program machine sent
          have head (later : List Machine) :
              (machine :: later).filterMap (·.output? program) =
                (machine.output? program).toList ++ later.filterMap (·.output? program) := by
            rw [List.filterMap_cons]
            cases machine.output? program <;> rfl
          rcases stepped : machine.step program .transcript sent with ⟨next, after, _ | cause⟩
          · rw [stepped] at grows
            dsimp only at grows ⊢
            rw [ih next after, grows, List.append_assoc, List.dropLast_cons_cons, head]
          · rw [stepped] at grows
            exact grows.trans (congrArg (sent ++ ·) ((head []).trans (List.append_nil _)).symm)

/-- **No line is executed by a run that sends more than so many outputs with it.** -/
def SendsAtMost (program : Program) (machine : Machine) (room : Nat) : Prop :=
  ∀ count last, Executes program .transcript count (machine, []) last →
    (last.1.step program .transcript last.2).console.length ≤ room

/-- Where a run sends more outputs than there is room for, it executes a line that sends the
first of them. -/
theorem Executes.exists_full {first last : Machine × List Output}
    (executes : Executes program .transcript count first last) (within : first.2.length ≤ room)
    (tooMany : room < (last.1.step program .transcript last.2).console.length) :
    ∃ count full, Executes program .transcript count first full ∧ full.2.length = room ∧
      full.1.output? program ≠ none := by
  obtain ⟨advances, running, below⟩ := executes
  -- A line sends one output at most, so the first line that leaves no room has just used it up.
  have line {state : Machine × List Output} (within : state.2.length ≤ room)
      (tooMany : room < (state.1.step program .transcript state.2).console.length) :
      state.2.length = room ∧ state.1.output? program ≠ none := by
    rw [console_step_transcript, List.length_append] at tooMany
    cases sends : state.1.output? program with
    | none =>
        rw [sends] at tooMany
        exact absurd within (Nat.not_le_of_lt tooMany)
    | some output =>
        rw [sends] at tooMany
        exact ⟨Nat.le_antisymm within (Nat.le_of_lt_succ tooMany), nofun⟩
  induction advances with
  | start state => exact ⟨0, state, ⟨.start state, running, below⟩, line within tooMany⟩
  | @step count first next last runs stepped later ih =>
      by_cases fits : next.2.length ≤ room
      · obtain ⟨count, full, reached, sends⟩ := ih fits tooMany running below
        exact ⟨count + 1, full, reached.head runs stepped, sends⟩
      · have open_ := atStepLimit_of_step stepped (later.atStepLimit_eq_false below)
        refine ⟨0, first, ⟨.start first, runs, open_⟩, line within ?_⟩
        rw [stepped]
        exact Nat.lt_of_not_le fits

/-! ## Runs on three consoles -/

/-- **A console only looks on**: traces and runs on it are those on the transcript, with what
the console keeps of it. -/
structure LooksOn (program : Program) (sink : Console σ) (machine : Machine) (start : σ)
    (keep : List Output → σ) : Prop where
  traces : ∀ count, machine.trace program sink count start =
    (machine.trace program .transcript count []).mapConsole keep
  runs : ∀ given, machine.runFor program sink given start =
    (machine.runFor program .transcript given []).map (·.mapConsole keep)

theorem looksOn_of_keeps (keeps : ∀ sent, sink.Keeps start keep sent) (program : Program)
    (machine : Machine) : LooksOn program sink machine start keep := by
  have same : start = keep [] := congrArg Prod.fst (keeps [])
  constructor
  · intro count
    conv_lhs => rw [same]
    exact trace_of_keeps keeps count machine []
  · intro given
    conv_lhs => rw [same]
    exact runFor_of_keeps (keeps []) (fun _ _ _ => keeps _) given

/-- A stream that has room for everything that is sent ends with what a stream without an end
keeps. -/
theorem runFor_bounded_of_sendsAtMost (fits : SendsAtMost program machine room) (given : Nat) :
    (machine.runFor program .bounded given ⟨"", room⟩).map (·.mapConsole BoundedStream.written) =
      machine.runFor program .stream given "" := by
  have bounded := runFor_of_keeps (Console.keeps_bounded (Nat.zero_le room))
    (fun count last executes => Console.keeps_bounded (fits count last executes)) given
  rw [(looksOn_of_keeps Console.keeps_stream program machine).runs given]
  refine (congrArg _ bounded).trans ?_
  rw [Option.map_map]
  rfl

/-- A stream that has not room for everything that is sent fails at the line that sends the first
output that it has no room for. -/
theorem endsWith_bounded_of_not_sendsAtMost (tooMany : ¬ SendsAtMost program machine room) :
    ∃ count last, Executes program .transcript count (machine, []) last ∧
      last.2.length = room ∧ last.1.output? program ≠ none ∧
      Executes program .stream count (machine, "") (last.1, Output.printed last.2) ∧
      EndsWith program .bounded machine ⟨"", room⟩
        ⟨(last.1.step program .stream (Output.printed last.2)).machine,
          ⟨Output.printed last.2, 0⟩, some (.console last.1.pc "console full")⟩ := by
  simp only [SendsAtMost, not_forall, Nat.not_le] at tooMany
  obtain ⟨count, last, executes, tooMany⟩ := tooMany
  obtain ⟨count, full, reached, filled, sends⟩ := executes.exists_full (Nat.zero_le room) tooMany
  have streamed := reached.advances.of_keeps fun sent _ => Console.keeps_stream sent
  refine ⟨count, full, reached, filled, sends, ⟨streamed, reached.running, reached.below⟩, ?_⟩
  rw [step_of_keeps (Console.keeps_stream full.2) (Console.keeps_stream _)]
  refine endsWith_of_refused reached (fun sent before => Console.keeps_bounded ?_) ?_
  · rw [← filled]
    exact before.length_le
  · obtain ⟨output, sends⟩ := Option.ne_none_iff_exists'.mp sends
    rw [console_step_transcript, sends, Console.takeAll_bounded, if_neg, Option.toList_some,
      ← filled, List.take_left, String.empty_append]
    rw [List.length_append, filled]
    exact Nat.not_succ_le_self room

/-- **Output never influences a run, and a console that fails only cuts it.**  On a stream and
on a buffer, which never fail, traces and runs are those on the transcript, which holds what the
executed lines send.  The stream holds what is written for all of it; the buffer holds what is
written for what was sent behind the last clear, and the number of the clears.  On a stream with
room for so many writes, the run is the one on the stream without an end as long as it sends no
more.  Else it is cut at the line that sends one more: with the machine that this line leaves on
the stream without an end, and with what had been written there before it. -/
theorem output_only_cuts (program : Program) (machine : Machine) (room : Nat) :
    (∀ count, let path := machine.trace program .transcript count []
      path.console = (machine :: path.visited).dropLast.filterMap (·.output? program)) ∧
    LooksOn program .stream machine "" Output.printed ∧
    LooksOn program .buffer machine .empty
      (fun sent => ⟨Output.printed (Output.sinceClear sent), sent.count .clear⟩) ∧
    (SendsAtMost program machine room → ∀ given,
      (machine.runFor program .bounded given ⟨"", room⟩).map
          (·.mapConsole BoundedStream.written) =
        machine.runFor program .stream given "") ∧
    (¬ SendsAtMost program machine room →
      ∃ count last, Executes program .transcript count (machine, []) last ∧
        last.2.length = room ∧ last.1.output? program ≠ none ∧
        Executes program .stream count (machine, "") (last.1, Output.printed last.2) ∧
        EndsWith program .bounded machine ⟨"", room⟩
          ⟨(last.1.step program .stream (Output.printed last.2)).machine,
            ⟨Output.printed last.2, 0⟩, some (.console last.1.pc "console full")⟩) :=
  ⟨fun count => console_trace_transcript program count machine [],
    looksOn_of_keeps Console.keeps_stream program machine,
    looksOn_of_keeps Console.keeps_buffer program machine,
    runFor_bounded_of_sendsAtMost, endsWith_bounded_of_not_sendsAtMost⟩

/-- A program that writes a number and clears the screen. -/
def clearingSource : String := "_SHOW A0\n_CLS\n"

/-- What it is compiled to. -/
def clearingProgram : Program where
  lines := #[⟨"_SHOW A0", .write (.decimal ⟨.a, 0⟩)⟩, ⟨"_CLS", .clearScreen⟩]
  labels := .empty

/-- The machine between its lines. -/
def clearingMachine : Machine :=
  { Machine.initial ⟨none, none⟩ with pc := 2, line := 1, steps := 1 }

/-- The lines that it executes. -/
theorem executes_clearing {last : Machine × List Output}
    (executes : Executes clearingProgram .transcript count (.initial ⟨none, none⟩, []) last) :
    last = (initial ⟨none, none⟩, []) ∨ last = (clearingMachine, [.text "0\n"]) := by
  obtain ⟨advances, running, -⟩ := executes
  cases advances with
  | start => exact .inl rfl
  | @step _ _ next _ _ stepped later =>
      obtain rfl : (clearingMachine, [.text "0\n"]) = next :=
        congrArg (fun outcome => (outcome.machine, outcome.console)) stepped
      cases later with
      | start => exact .inr rfl
      | @step _ _ next _ _ stepped later =>
          obtain rfl : ({ clearingMachine with pc := 3, line := 2, steps := 2 },
              [.text "0\n", .clear]) = next :=
            congrArg (fun outcome => (outcome.machine, outcome.console)) stepped
          cases later with
          | start => cases running
          | step running => cases running

/-- A stream that has room for the number alone is full at the second line; one that has room for
the clear also ends as the stream without an end. -/
theorem output_only_cuts_clearing :
    Program.compile .source clearingSource = .ok clearingProgram ∧
      (∃ final : Machine, final.pc = 3 ∧ final.steps = 2 ∧
        EndsWith clearingProgram .bounded (.initial ⟨none, none⟩) ⟨"", 1⟩
          ⟨final, ⟨"0\n", 0⟩, some (.console 2 "console full")⟩) ∧
      ((initial ⟨none, none⟩).runFor clearingProgram .bounded 2 ⟨"", 2⟩).map
          (·.mapConsole BoundedStream.written) =
        (initial ⟨none, none⟩).runFor clearingProgram .stream 2 "" := by
  refine ⟨by decide +kernel, ?_, ?_⟩
  · obtain ⟨-, -, -, -, cut⟩ := output_only_cuts clearingProgram (.initial ⟨none, none⟩) 1
    have tooMany : ¬ SendsAtMost clearingProgram (.initial ⟨none, none⟩) 1 := fun most =>
      absurd (most 1 (clearingMachine, [.text "0\n"])
        ⟨.step rfl rfl (.start _), rfl, rfl⟩) (by decide)
    obtain ⟨count, last, executes, filled, -, -, ends⟩ := cut tooMany
    obtain rfl | rfl := executes_clearing executes
    · cases filled
    · exact ⟨_, rfl, rfl, ends⟩
  · obtain ⟨-, -, -, agrees, -⟩ := output_only_cuts clearingProgram (.initial ⟨none, none⟩) 2
    refine agrees (fun count last executes => ?_) 2
    obtain rfl | rfl := executes_clearing executes <;> decide

end Machine

end LineAsm
