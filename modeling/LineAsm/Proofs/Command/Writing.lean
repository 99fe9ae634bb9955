import LineAsm.Proofs.Command.Inspect
import LineAsm.Proofs.Command.Run

/-!
# Writing artifacts

A command that writes an artifact does its work in one order: it reads what it needs, and then
creates the file of the artifact, if one is asked for (`Saves`).  Nothing is written before all
has been read, and the file is created only where nothing is.  So no file that was there before
changes, and at most one file is new, which holds the artifact of the program that was read
(`NeverOverwrites`).

The command that compiles a program works in this way, and so does the command that runs one,
before it runs it; the run itself leaves the directory as it is when no snapshot is asked for
(`artifacts_never_overwrite`).
-/

set_option autoImplicit false

namespace LineAsm

/-! ## Creating a file -/

namespace Directory

variable {before after : Directory} {path : String} {content : ByteArray}

/-- A file is created only where nothing is. -/
theorem absent_of_create (creates : before.create path content = .ok after) :
    before.Absent path := by
  obtain ⟨folder, name, leads, nothing, -⟩ := create_eq_ok_iff.mp creates
  intro place there
  rw [leads.place?_eq] at there
  exact Option.some.inj there ▸ nothing

/-- **Creating a file keeps the others.** -/
theorem read_create_of_read (creates : before.create path content = .ok after) {other : String}
    {held : ByteArray} (reads : before.read other = .ok held) : after.read other = .ok held := by
  obtain ⟨place, -, nothing, same⟩ := sameBut_of_create creates
  refine same.read reads fun there => ?_
  cases nothing.symm.trans (node?_of_read reads there)

/-- **Creating a file changes one place**, where nothing was. -/
theorem node?_create_of_ne (creates : before.create path content = .ok after)
    {place : List String} (changed : after.node? place ≠ before.node? place) :
    before.node? place = none ∧ before.place? path = some place ∧
      after.node? place = some (.file content) := by
  obtain ⟨folder, name, leads, nothing, rfl⟩ := create_eq_ok_iff.mp creates
  have nonempty : folder ++ [name] ≠ [] := by simp
  rw [node?_set nonempty] at changed ⊢
  by_cases same : place = folder ++ [name]
  · subst same
    rw [if_pos rfl]
    exact ⟨nothing, leads.place?_eq, rfl⟩
  · rw [if_neg same] at changed
    exact absurd rfl changed

end Directory

/-! ## The work of a command that writes -/

/-- **How a command writes an artifact** in a directory, from what it has read and to the path
that it is asked for, if it is asked for one: with what its work ends, and the directory then. -/
inductive Saves {α : Type} (directory : Directory) (reading : Except Failure Program)
    (target : Option String) : Except Failure α × Directory → Prop where
  | unread {failure : Failure} (fails : reading = .error failure) :
      Saves directory reading target (.error failure, directory)
  | silent {program : Program} (reads : reading = .ok program) (nowhere : target = none)
      (value : α) : Saves directory reading target (.ok value, directory)
  | refused {program : Program} {path : String} {cause : FileError}
      (reads : reading = .ok program) (asked : target = some path)
      (refuses : directory.create path program.artifact.toUTF8 = .error cause)
      (failure : Failure) : Saves directory reading target (.error failure, directory)
  | saved {program : Program} {path : String} {after : Directory}
      (reads : reading = .ok program) (asked : target = some path)
      (creates : directory.create path program.artifact.toUTF8 = .ok after) (value : α) :
      Saves directory reading target (.ok value, after)

/-- Saving an artifact, and returning something when it has been saved. -/
theorem saves_saveArtifact {α : Type} {directory : Directory} {path : String} {program : Program}
    {value : α} {later : Unit → ExceptT Failure (StateM Directory) α}
    (returns : ∀ after, (later ()).run.run after = (.ok value, after)) :
    Saves directory (.ok program) (some path)
      ((Directory.host.saveArtifact path program >>= later).run.run directory) := by
  rw [run_bind, Directory.saveArtifact_run]
  cases creates : directory.create path program.artifact.toUTF8 with
  | ok changed =>
      dsimp only
      rw [returns]
      exact .saved rfl rfl creates value
  | error cause => cases cause <;> exact .refused rfl rfl creates _

namespace Saves

variable {α : Type} {directory after : Directory} {reading : Except Failure Program}
  {target : Option String} {work : Except Failure α}
  (saves : Saves directory reading target (work, after))
include saves

/-- Every file is kept. -/
theorem read_of_read {path : String} {content : ByteArray}
    (reads : directory.read path = .ok content) : after.read path = .ok content := by
  cases saves with
  | saved _ _ creates => exact Directory.read_create_of_read creates reads
  | _ => exact reads

/-- What is new is the artifact, at the place that it is asked for. -/
theorem exists_artifact {place : List String}
    (changed : after.node? place ≠ directory.node? place) :
    directory.node? place = none ∧ ∃ path program, target = some path ∧
      directory.place? path = some place ∧ reading = .ok program ∧
        after.node? place = some (.file program.artifact.toUTF8) := by
  cases saves with
  | @saved program path _ reads asked creates =>
      obtain ⟨nothing, there, holds⟩ := Directory.node?_create_of_ne creates changed
      exact ⟨nothing, path, program, asked, there, reads, holds⟩
  | _ => exact absurd rfl changed

/-- Nothing is written when something cannot be read. -/
theorem eq_of_unread {failure : Failure} (fails : reading = .error failure) :
    work = .error failure ∧ after = directory := by
  cases saves with
  | unread failed =>
      obtain rfl := Except.error.inj (failed.symm.trans fails)
      exact ⟨rfl, rfl⟩
  | silent reads | refused reads | saved reads => cases reads.symm.trans fails

/-- Where something is at the path already, the work fails. -/
theorem exists_failure {path : String} (asked : target = some path)
    (present : ¬ directory.Absent path) :
    ∃ failure, work = .error failure ∧ after = directory := by
  cases saves with
  | unread => exact ⟨_, rfl, rfl⟩
  | refused => exact ⟨_, rfl, rfl⟩
  | silent reads nowhere => cases nowhere.symm.trans asked
  | saved reads here creates =>
      obtain rfl := Option.some.inj (here.symm.trans asked)
      exact (present (Directory.absent_of_create creates)).elim

/-- Where the file can be created, it is. -/
theorem eq_of_create {path : String} {program : Program} {changed : Directory}
    (asked : target = some path) (read : reading = .ok program)
    (creates : directory.create path program.artifact.toUTF8 = .ok changed) : after = changed := by
  cases saves with
  | unread failed => cases failed.symm.trans read
  | silent _ nowhere => cases nowhere.symm.trans asked
  | refused reads here refuses =>
      obtain rfl := Except.ok.inj (reads.symm.trans read)
      obtain rfl := Option.some.inj (here.symm.trans asked)
      cases refuses.symm.trans creates
  | saved reads here saved =>
      obtain rfl := Except.ok.inj (reads.symm.trans read)
      obtain rfl := Option.some.inj (here.symm.trans asked)
      exact Except.ok.inj (saved.symm.trans creates)

end Saves

/-- **A command never overwrites a file.**  It reads a program and is asked to write its
artifact to a path, or to write none; these are the directory before it, its result, if it ends,
and the directory then.  Every file is kept.  A place that has changed held nothing before; it
is the place of the path and holds the artifact of the program.  When the reading fails, or
something is at the path already, the command fails with no output and changes nothing; when
the file can be created, it is. -/
structure NeverOverwrites (before : Directory)
    (reading : ExceptT Failure (StateM Directory) Program) (target : Option String)
    (result : Option CommandResult) (after : Directory) : Prop where
  kept : ∀ path content, before.read path = .ok content → after.read path = .ok content
  created : ∀ place, after.node? place ≠ before.node? place →
    before.node? place = none ∧ ∃ path program, target = some path ∧
      before.place? path = some place ∧ reading.run.run before = (.ok program, before) ∧
        after.node? place = some (.file program.artifact.toUTF8)
  unread : ∀ failure, (reading.run.run before).1 = .error failure →
    result = some (.failed "" failure) ∧ after = before
  refused : ∀ path, target = some path → ¬ before.Absent path →
    ∃ failure, result = some (.failed "" failure) ∧ after = before
  written : ∀ path program changed, target = some path →
    (reading.run.run before).1 = .ok program →
    before.create path program.artifact.toUTF8 = .ok changed → after = changed

/-- A command never overwrites a file when its work only saves an artifact, and a failure of the
work is what it reports. -/
theorem Saves.neverOverwrites {α : Type} {before after : Directory}
    {computation : ExceptT Failure (StateM Directory) Program} {reading : Except Failure Program}
    {target : Option String} {work : Except Failure α} {result : Option CommandResult}
    (saves : Saves before reading target (work, after))
    (computes : computation.run.run before = (reading, before))
    (fails : ∀ failure, work = .error failure → result = some (.failed "" failure)) :
    NeverOverwrites before computation target result after where
  kept _ _ reads := saves.read_of_read reads
  created place changed := by
    obtain ⟨nothing, path, program, asked, there, reads, holds⟩ := saves.exists_artifact changed
    exact ⟨nothing, path, program, asked, there, reads ▸ computes, holds⟩
  unread failure unread := by
    rw [computes] at unread
    obtain ⟨failed, same⟩ := saves.eq_of_unread unread
    exact ⟨fails failure failed, same⟩
  refused path asked present := by
    obtain ⟨failure, failed, same⟩ := saves.exists_failure asked present
    exact ⟨failure, fails failure failed, same⟩
  written path program changed asked read creates := by
    rw [computes] at read
    exact saves.eq_of_create asked read creates

/-! ## The commands -/

namespace InspectCommand

/-- **The command that compiles a program** saves its artifact. -/
theorem saves_inspect (directory : Directory) (input : String) (out : Option String) :
    Saves directory (directory.loaded input) (some (out.getD (Path.artifactOf input)))
      ((inspect Directory.host ⟨input, .compile out⟩).run.run directory) := by
  rw [inspect, run_bind, Directory.loadProgram_run]
  cases directory.loaded input with
  | error failure => exact .unread rfl
  | ok program => exact saves_saveArtifact (fun _ => rfl)

theorem perform_run (directory : Directory) (options : InspectOptions) :
    (perform Directory.host options).run directory =
      match (inspect Directory.host options).run.run directory with
      | (.error failure, after) => (.failed "" failure, after)
      | (.ok result, after) => (result, after) := by
  rw [perform, run_state_bind]
  rcases (inspect Directory.host options).run.run directory with ⟨_ | _, after⟩ <;> rfl

end InspectCommand

namespace RunCommand

variable {directory : Directory} {options : RunOptions}

/-- What the command reads: the configuration, then the program. -/
def reading {m : Type → Type} [Monad m] (host : Host m) (options : RunOptions) :
    ExceptT Failure m Program := do
  let _ ← configuration host options
  host.loadProgram options.input

/-- Where the command writes an artifact, if it writes one. -/
def target? (options : RunOptions) : Option String :=
  if options.emit && !Path.isArtifact options.input then some (Path.artifactOf options.input)
  else none

/-- The program that the command runs, or why there is none. -/
def readied (directory : Directory) (options : RunOptions) : Except Failure Program :=
  match configured directory options with
  | .error failure => .error failure
  | .ok _ => directory.loaded options.input

/-- Reading the configuration and the program leaves the directory as it is. -/
theorem reading_run (directory : Directory) (options : RunOptions) :
    (reading Directory.host options).run.run directory =
      (readied directory options, directory) := by
  rw [reading, run_bind, configuration_run, readied]
  cases configured directory options with
  | error failure => rfl
  | ok config => exact Directory.loadProgram_run directory options.input

/-- **The command that runs a program** saves its artifact before the run. -/
theorem saves_prepare (directory : Directory) (options : RunOptions) :
    Saves directory (readied directory options) (target? options)
      ((prepare Directory.host options).run.run directory) := by
  rw [prepare, run_bind, configuration_run, readied, target?]
  cases configured directory options with
  | error failure => exact .unread rfl
  | ok config =>
      dsimp only
      rw [run_bind, Directory.loadProgram_run]
      cases directory.loaded options.input with
      | error failure => exact .unread rfl
      | ok program =>
          dsimp only
          split
          · exact saves_saveArtifact (fun _ => rfl)
          · exact .silent rfl rfl _

/-- When no snapshot is asked for, the directory stays as it is behind the preparation. -/
theorem perform_run_snd (noDump : options.dumpState = none) :
    ((perform Directory.host options).run directory).2 =
      ((prepare Directory.host options).run.run directory).2 := by
  rcases prepared : (prepare Directory.host options).run.run directory with
    ⟨failure | ⟨program, config⟩, after⟩
  · rw [perform_run_of_error prepared]
  · have writable : ∀ path, options.dumpState = some path → after.Writable path := by
      rw [noDump]
      nofun
    rw [perform_run prepared writable, noDump]
    cases (Machine.initial config).run program Console.stream "" <;> rfl

end RunCommand

/-- **Writing an artifact never overwrites a file.**  In every directory, neither the command
that compiles a program nor the one that runs it, when it is asked for no snapshot, overwrites a
file.  Where something is at the path of the artifact already, the second fails before the
run. -/
theorem artifacts_never_overwrite (directory : Directory) (words : List String) :
    (∀ input out, InspectCommand.options words = .ok ⟨input, .compile out⟩ →
      let ran := (InspectCommand.execute Directory.host words).run directory
      NeverOverwrites directory (Directory.host.loadProgram input)
        (some (out.getD (Path.artifactOf input))) (some ran.1) ran.2) ∧
    (∀ options, RunCommand.options words = .ok options → options.dumpState = none →
      let ran := (RunCommand.execute Directory.host words).run directory
      NeverOverwrites directory (RunCommand.reading Directory.host options)
          (RunCommand.target? options) ran.1 ran.2 ∧
        ∀ path, RunCommand.target? options = some path → ¬ directory.Absent path →
          ∃ failure, (RunCommand.prepare Directory.host options).run.run directory =
            (.error failure, directory)) := by
  constructor
  · intro input out asked ran
    have saves := InspectCommand.saves_inspect directory input out
    have runs : ran = (InspectCommand.perform Directory.host ⟨input, .compile out⟩).run
        directory := by
      simp only [ran, InspectCommand.execute, asked]
    rw [InspectCommand.perform_run] at runs
    rcases worked : (InspectCommand.inspect Directory.host ⟨input, .compile out⟩).run.run directory
      with ⟨failure | result, after⟩
    · rw [worked] at saves runs
      rw [runs]
      exact saves.neverOverwrites (Directory.loadProgram_run directory input)
        (fun _ same => by rw [Except.error.inj same])
    · rw [worked] at saves runs
      rw [runs]
      exact saves.neverOverwrites (Directory.loadProgram_run directory input)
        (fun _ failed => by cases failed)
  · intro options asked noDump ran
    have saves := RunCommand.saves_prepare directory options
    have runs : ran = (RunCommand.perform Directory.host options).run directory := by
      simp only [ran, RunCommand.execute, asked]
    have left : ran.2 = ((RunCommand.prepare Directory.host options).run.run directory).2 :=
      runs ▸ RunCommand.perform_run_snd noDump
    refine ⟨?_, fun path target present => ?_⟩
    · rw [left]
      refine saves.neverOverwrites (RunCommand.reading_run directory options) fun _ failed => ?_
      rw [runs, RunCommand.perform_run_of_error (Prod.ext failed rfl)]
    · obtain ⟨failure, failed, same⟩ := saves.exists_failure target present
      exact ⟨failure, Prod.ext failed same⟩

/-- A directory with a source and a file at the path of its artifact. -/
def occupied : Directory :=
  ⟨[(["a.jasm"], .file "INC A0\n".toUTF8), (["a.jasm~"], .file "old".toUTF8)]⟩

/-- The program can be compiled to another file only, and it is not run when its artifact is asked
for. -/
theorem artifacts_never_overwrite_occupied :
    let compiled :=
      (InspectCommand.execute Directory.host ["a.jasm", "compile", "--out", "b"]).run occupied
    let ran := (RunCommand.execute Directory.host ["--emit", "a.jasm"]).run occupied
    (compiled.2.read "b" = .ok "INC A0\n".toUTF8 ∧
        compiled.2.read "a.jasm~" = .ok "old".toUTF8) ∧
      ∃ failure, ran = (some (.failed "" failure), occupied) := by
  constructor
  · have asked : InspectCommand.options ["a.jasm", "compile", "--out", "b"] =
        .ok ⟨"a.jasm", .compile (some "b")⟩ := by decide +kernel
    have never := (artifacts_never_overwrite occupied ["a.jasm", "compile", "--out", "b"]).1 _ _
      asked
    have loads : ((Directory.host.loadProgram "a.jasm").run.run occupied).1 =
        .ok InspectCommand.oneLine := by
      rw [Directory.loadProgram_run]
      decide +kernel
    obtain ⟨changed, creates⟩ : ∃ changed,
        occupied.create "b" InspectCommand.oneLine.artifact.toUTF8 = .ok changed :=
      ⟨_, Directory.create_eq_ok_iff.mpr
        ⟨[], "b", ⟨by decide +kernel, by decide +kernel⟩, by decide +kernel, rfl⟩⟩
    have same := never.written "b" _ changed rfl loads creates
    refine ⟨?_, never.kept "a.jasm~" _ (by decide +kernel)⟩
    rw [same, Directory.read_of_create creates]
    decide +kernel
  · have asked : RunCommand.options ["--emit", "a.jasm"] =
        .ok ⟨none, none, none, true, false, none, "a.jasm"⟩ := by decide +kernel
    obtain ⟨never, -⟩ := (artifacts_never_overwrite occupied ["--emit", "a.jasm"]).2 _ asked rfl
    have target : RunCommand.target? ⟨none, none, none, true, false, none, "a.jasm"⟩ =
        some "a.jasm~" := by decide +kernel
    have present : ¬ occupied.Absent "a.jasm~" := by
      intro absent
      have nothing := absent ["a.jasm~"] (by decide +kernel)
      cases nothing
    obtain ⟨failure, result, same⟩ := never.refused "a.jasm~" target present
    exact ⟨failure, Prod.ext result same⟩

end LineAsm
