import LineAsm.Command.Run
import LineAsm.Proofs.Command.File

/-!
# Running a source and its artifact

The command that runs a program reads the configuration and the program, writes the artifact if
asked to, runs the program and saves a snapshot if asked to; in a directory in memory each of
these is a function of the directory (`configuration_run`, `prepare_run`, `conclude_run`,
`perform_run`).

The artifact that is written holds the same program as the source, so the command does the same
for it as for the source: it ends with the same status and output, saves the same snapshot, and
reports the same trap but for the name of the file (`RunCommand.artifact_runs_alike`).  What the
file of the snapshot holds before the second run makes no difference (`SameButSnapshot`), so the
snapshot that is found there is the one that this run has saved.
-/

set_option autoImplicit false

namespace LineAsm.RunCommand

variable {directory after : Directory} {options : RunOptions} {program : Program} {config : Config}

/-! ## The work before the run -/

/-- The configuration of a run, or why it cannot be read. -/
def configured (directory : Directory) (options : RunOptions) : Except Failure Config :=
  match options.config with
  | none => .ok ⟨options.maxSteps <|> none, options.maxCallDepth <|> none⟩
  | some path =>
    match directory.textOf path with
    | .error cause => .error ⟨"reading config " ++ path, [cause.message]⟩
    | .ok text =>
      match Config.ofText? text with
      | none => .error (.plain ("parsing config " ++ path))
      | some base =>
        .ok ⟨options.maxSteps <|> base.maxSteps, options.maxCallDepth <|> base.maxCallDepth⟩

/-- **Reading the configuration** leaves the directory as it is. -/
theorem configuration_run (directory : Directory) (options : RunOptions) :
    (configuration Directory.host options).run.run directory =
      (configured directory options, directory) := by
  rw [configuration, configured]
  cases options.config with
  | none => rfl
  | some path =>
      dsimp only
      rw [run_bind, run_lift, Directory.readText_run]
      cases directory.textOf path with
      | error cause => rfl
      | ok text =>
          dsimp only
          cases Config.ofText? text <;> rfl

/-- **The work before the run**, one part after the other. -/
theorem prepare_run (directory : Directory) (options : RunOptions) :
    (prepare Directory.host options).run.run directory =
      match configured directory options with
      | .error failure => (.error failure, directory)
      | .ok config =>
        match directory.loaded options.input with
        | .error failure => (.error failure, directory)
        | .ok program =>
          if options.emit && !Path.isArtifact options.input then
            match (Directory.host.saveArtifact (Path.artifactOf options.input) program).run.run
              directory with
            | (.error failure, after) => (.error failure, after)
            | (.ok (), after) => (.ok (program, config), after)
          else (.ok (program, config), directory) := by
  rw [prepare, run_bind, configuration_run]
  cases configured directory options with
  | error failure => rfl
  | ok config =>
      dsimp only
      rw [run_bind, Directory.loadProgram_run]
      cases directory.loaded options.input with
      | error failure => rfl
      | ok program =>
          dsimp only
          split
          · rw [run_bind]
            rcases (Directory.host.saveArtifact (Path.artifactOf options.input) program).run.run
              directory with ⟨result, after⟩
            cases result <;> rfl
          · rfl

/-! ## The work after the run -/

/-- The directory after a snapshot was saved, if one was asked for. -/
def dumped (directory : Directory) (dump : Option String) (snapshot : String) : Directory :=
  match dump with
  | none => directory
  | some path =>
    match directory.overwrite path snapshot.toUTF8 with
    | .error _ => directory
    | .ok changed => changed

theorem dumped_of_overwrite {path snapshot : String}
    (writes : directory.overwrite path snapshot.toUTF8 = .ok after) :
    dumped directory (some path) snapshot = after := by
  unfold dumped
  dsimp only
  rw [writes]

/-- A snapshot is read back from the file that it was saved in. -/
theorem read_dumped {path : String} (writable : directory.Writable path) (snapshot : String) :
    (dumped directory (some path) snapshot).read path = .ok snapshot.toUTF8 := by
  obtain ⟨changed, writes⟩ := writable.overwrite snapshot.toUTF8
  rw [dumped_of_overwrite writes]
  exact Directory.read_of_overwrite writes

/-- How the trap that stopped a run is reported. -/
def verdict (options : RunOptions) (trap : Option Trap) : Except Failure Unit :=
  match trap with
  | none => .ok ()
  | some trap => .error ⟨"running " ++ options.input, [trap.message]⟩

/-- **The work after the run**, when the snapshot can be saved. -/
theorem conclude_run (writable : ∀ path, options.dumpState = some path → directory.Writable path)
    (machine : Machine) (trap : Option Trap) :
    (conclude Directory.host options machine trap).run.run directory =
      (verdict options trap, dumped directory options.dumpState machine.snapshot) := by
  unfold conclude dumped
  cases dump : options.dumpState with
  | none => cases trap <;> rfl
  | some path =>
      obtain ⟨changed, writes⟩ := (writable path dump).overwrite machine.snapshot.toUTF8
      dsimp only
      rw [run_bind, Directory.saveText_run, writes]
      cases trap <;> rfl

/-! ## The command -/

/-- What the command reports when a run has finished. -/
def finished (options : RunOptions) (outcome : Outcome String) : CommandResult :=
  let output := outcome.console ++ display options outcome.machine
  match verdict options outcome.trap with
  | .error failure => .failed output failure
  | .ok () => .success output ""

theorem perform_run_of_error {failure : Failure}
    (failed : (prepare Directory.host options).run.run directory = (.error failure, after)) :
    (perform Directory.host options).run directory = (some (.failed "" failure), after) := by
  rw [perform, run_state_bind, failed]
  rfl

/-- **The command behind its preparation**, when the snapshot can be saved. -/
theorem perform_run (prepared : (prepare Directory.host options).run.run directory =
      (.ok (program, config), after))
    (writable : ∀ path, options.dumpState = some path → after.Writable path) :
    (perform Directory.host options).run directory =
      match (Machine.initial config).run program Console.stream "" with
      | none => (none, after)
      | some outcome =>
        (some (finished options outcome),
          dumped after options.dumpState outcome.machine.snapshot) := by
  rw [perform, run_state_bind, prepared]
  dsimp only
  cases (Machine.initial config).run program Console.stream "" with
  | none => rfl
  | some outcome =>
      dsimp only
      rw [run_state_bind, conclude_run writable, finished]
      cases verdict options outcome.trap <;> rfl

/-! ## What a run needs -/

/-- **What the command needs of a directory** to run the program of a file: the configuration
and the program can be read, no artifact is written, and the snapshot can be saved. -/
structure Ready (directory : Directory) (options : RunOptions) (program : Program)
    (config : Config) : Prop where
  configuration : configured directory options = .ok config
  program : directory.loaded options.input = .ok program
  writesNone : (options.emit && !Path.isArtifact options.input) = false
  writable : ∀ path, options.dumpState = some path → directory.Writable path

/-- What the command does in a directory that has what it needs. -/
theorem Ready.perform_run (ready : Ready directory options program config) :
    (perform Directory.host options).run directory =
      match (Machine.initial config).run program Console.stream "" with
      | none => (none, directory)
      | some outcome =>
        (some (finished options outcome),
          dumped directory options.dumpState outcome.machine.snapshot) := by
  refine RunCommand.perform_run ?_ ready.writable
  rw [prepare_run, ready.configuration]
  dsimp only
  rw [ready.program]
  dsimp only
  rw [ready.writesNone]
  rfl

/-- The file of a configuration can be read. -/
theorem exists_read_of_configured (reads : configured directory options = .ok config)
    {path : String} (file : options.config = some path) :
    ∃ text : String, directory.read path = .ok text.toUTF8 := by
  unfold configured at reads
  rw [file] at reads
  dsimp only at reads
  cases found : directory.textOf path with
  | error cause =>
      rw [found] at reads
      cases reads
  | ok text => exact ⟨text, Directory.textOf_eq_ok_iff.mp found⟩

/-- A file that has changed elsewhere leaves a configuration as it is. -/
theorem configured_of_sameBut {place : List String}
    (same : Directory.SameBut place directory after)
    (elsewhere : ∀ path, options.config = some path → directory.place? path ≠ some place)
    (reads : configured directory options = .ok config) :
    configured after options = .ok config := by
  have texts : ∀ path, options.config = some path →
      after.textOf path = directory.textOf path := by
    intro path file
    obtain ⟨text, content⟩ := exists_read_of_configured reads file
    rw [Directory.textOf_eq_ok_iff.mpr content]
    exact Directory.textOf_eq_ok_iff.mpr (same.read content (elsewhere path file))
  rw [← reads]
  unfold configured
  cases file : options.config with
  | none => rfl
  | some path =>
      dsimp only
      rw [texts path file]

/-- A program is loaded again when a file has changed elsewhere. -/
theorem loaded_of_sameBut {place : List String} (same : Directory.SameBut place directory after)
    {path : String} (elsewhere : directory.place? path ≠ some place)
    (loads : directory.loaded path = .ok program) : after.loaded path = .ok program := by
  obtain ⟨named, text, reads, compiled⟩ := Directory.loaded_eq_ok_iff.mp loads
  exact Directory.loaded_eq_ok_iff.mpr ⟨named, text, same.read reads elsewhere, compiled⟩

/-! ## The file of the snapshot -/

/-- **Directories that hold the same but for the file of a snapshot**, if one is asked for: the
file may hold anything in the second directory, or be missing from it. -/
inductive SameButSnapshot (dump : Option String) (directory : Directory) : Directory → Prop where
  | unchanged : SameButSnapshot dump directory directory
  | changed {path : String} {place : List String} {after : Directory} (asked : dump = some path)
      (there : directory.place? path = some place)
      (sameBut : Directory.SameBut place directory after) : SameButSnapshot dump directory after

/-- **The snapshot is saved apart** from a file and from that of the configuration. -/
def SavesApart (directory : Directory) (options : RunOptions) (file : String) : Prop :=
  ∀ path, options.dumpState = some path →
    directory.place? path ≠ directory.place? file ∧
      ∀ other, options.config = some other → directory.place? path ≠ directory.place? other

/-- A snapshot that is saved apart from an artifact still is when that has been created. -/
theorem SavesApart.of_created {path : String} {content : ByteArray}
    (apart : SavesApart directory options path) (reads : configured directory options = .ok config)
    (creates : directory.create path content = .ok after)
    (writable : ∀ path, options.dumpState = some path → directory.Writable path) :
    SavesApart after options path := by
  obtain ⟨_, _, here, -⟩ := Directory.create_eq_ok_iff.mp creates
  obtain ⟨place, -, -, same⟩ := Directory.sameBut_of_create creates
  intro dump has
  obtain ⟨_, _, leads, -⟩ := writable dump has
  rw [leads.place?_of_sameBut same, here.place?_of_sameBut same]
  refine ⟨(apart dump has).1, ?_⟩
  intro file named
  obtain ⟨text, content⟩ := exists_read_of_configured reads named
  obtain ⟨_, _, leads, -⟩ := Directory.read_eq_ok_iff.mp content
  rw [leads.place?_of_sameBut same]
  exact (apart dump has).2 file named

theorem SameButSnapshot.keepsFolders {dump : Option String}
    (same : SameButSnapshot dump directory after) : Directory.KeepsFolders directory after := by
  cases same with
  | unchanged => exact fun _ isFolder => isFolder
  | changed _ _ sameBut => exact sameBut.keepsFolders

/-- The file of the snapshot may change, and the configuration stays as it is. -/
theorem configured_of_sameButSnapshot {file : String} (apart : SavesApart directory options file)
    (same : SameButSnapshot options.dumpState directory after)
    (reads : configured directory options = .ok config) :
    configured after options = .ok config := by
  cases same with
  | unchanged => exact reads
  | changed asked there sameBut =>
      refine configured_of_sameBut sameBut ?_ reads
      intro other has
      rw [← there]
      exact ((apart _ asked).2 other has).symm

/-- **The file of the snapshot** may change, and everything is still ready for a run, when the
snapshot is saved apart from the program. -/
theorem Ready.of_sameButSnapshot (ready : Ready directory options program config)
    (apart : SavesApart directory options options.input)
    (same : SameButSnapshot options.dumpState directory after) :
    Ready after options program config := by
  have configures := configured_of_sameButSnapshot apart same ready.configuration
  cases same with
  | unchanged => exact ready
  | changed asked there sameBut =>
      have elsewhere := (apart _ asked).1
      rw [there] at elsewhere
      exact ⟨configures, loaded_of_sameBut sameBut elsewhere.symm ready.program, ready.writesNone,
        fun other has => sameBut.writable (ready.writable other has)⟩

section Snapshot

variable {dump : Option String}
  (writable : ∀ path, dump = some path → directory.Writable path)
include writable

/-- Saving a snapshot changes its file only. -/
theorem sameButSnapshot_dumped (snapshot : String) :
    SameButSnapshot dump directory (dumped directory dump snapshot) := by
  cases dump with
  | none => exact .unchanged
  | some path =>
      obtain ⟨changed, writes⟩ := (writable path rfl).overwrite snapshot.toUTF8
      obtain ⟨place, there, same⟩ := Directory.sameBut_of_overwrite writes
      rw [dumped_of_overwrite writes]
      exact .changed rfl there same

theorem SameButSnapshot.trans {last : Directory} (same : SameButSnapshot dump directory after)
    (sameAgain : SameButSnapshot dump after last) : SameButSnapshot dump directory last := by
  cases same with
  | unchanged => exact sameAgain
  | changed asked there sameBut =>
      cases sameAgain with
      | unchanged => exact .changed asked there sameBut
      | changed askedAgain thereAgain sameButAgain =>
          -- The path of the snapshot still leads to the file that it led to.
          obtain rfl := Option.some.inj (asked.symm.trans askedAgain)
          obtain ⟨folder, name, leads, -⟩ := writable _ asked
          rw [leads.place?_of_sameBut sameBut, there] at thereAgain
          obtain rfl := Option.some.inj thereAgain
          exact .changed asked there (sameBut.trans sameButAgain)

end Snapshot

/-! ## The artifact in the place of the source -/

/-- **Two results that differ at most in the name of a file** in what they report. -/
inductive Alike (name other : String) : Option CommandResult → Option CommandResult → Prop where
  | endless : Alike name other none none
  | same (result : CommandResult) : Alike name other (some result) (some result)
  | named (status : Nat) (output before behind : String) :
      Alike name other (some ⟨status, output, before ++ name ++ behind⟩)
        (some ⟨status, output, before ++ other ++ behind⟩)

/-- **What two runs do**, of a source that is run in a directory and whose artifact is written,
and then of the artifact in another directory. -/
inductive RunsAlike (options : RunOptions) (program : Program) (config : Config)
    (directory between : Directory) :
    Option CommandResult × Directory → Option CommandResult × Directory → Prop where
  /-- The artifact cannot be written, and neither run begins. -/
  | unwritten {result : CommandResult} {cause : FileError}
      (refused : directory.create (Path.artifactOf options.input) program.artifact.toUTF8 =
        .error cause) :
      RunsAlike options program config directory between (some result, directory)
        (some result, between)
  /-- The program runs forever, and nothing but the artifact is written. -/
  | endless {written : Directory}
      (emitted : directory.create (Path.artifactOf options.input) program.artifact.toUTF8 =
        .ok written)
      (ran : (Machine.initial config).run program Console.stream "" = none) :
      RunsAlike options program config directory between (none, written) (none, between)
  /-- The program ends, and each run has saved the snapshot of the machine that it ends with. -/
  | ended {written first second : Directory} {outcome : Outcome String}
      (emitted : directory.create (Path.artifactOf options.input) program.artifact.toUTF8 =
        .ok written)
      (ran : (Machine.initial config).run program Console.stream "" = some outcome)
      (saved : ∀ path, options.dumpState = some path →
        first.read path = .ok outcome.machine.snapshot.toUTF8 ∧
          second.read path = .ok outcome.machine.snapshot.toUTF8) :
      RunsAlike options program config directory between (some (finished options outcome), first)
        (some (finished { options with input := Path.artifactOf options.input } outcome), second)

/-- The runs of a program that ends. -/
theorem RunsAlike.of_ended {between written : Directory} {outcome : Outcome String}
    {first second : Option CommandResult × Directory}
    (alike : RunsAlike options program config directory between first second)
    (emitted : directory.create (Path.artifactOf options.input) program.artifact.toUTF8 =
      .ok written)
    (ran : (Machine.initial config).run program Console.stream "" = some outcome) :
    first.1 = some (finished options outcome) ∧
      second.1 =
        some (finished { options with input := Path.artifactOf options.input } outcome) ∧
      ∀ path, options.dumpState = some path →
        first.2.read path = .ok outcome.machine.snapshot.toUTF8 ∧
          second.2.read path = .ok outcome.machine.snapshot.toUTF8 := by
  cases alike with
  | unwritten refused => cases emitted.symm.trans refused
  | endless _ forever => cases ran.symm.trans forever
  | ended _ ends saved =>
      obtain rfl := Option.some.inj (ran.symm.trans ends)
      exact ⟨rfl, rfl, saved⟩

/-- The reports of one run under two names. -/
theorem alike_finished (options : RunOptions) (other : String) (emit : Bool)
    (outcome : Outcome String) :
    Alike options.input other (some (finished options outcome))
      (some (finished { options with input := other, emit := emit } outcome)) := by
  unfold finished verdict
  cases outcome.trap with
  | none => exact .same _
  | some trap =>
      have report (name : String) : (Failure.mk ("running " ++ name) [trap.message]).report =
          ("Error: " ++ "running ") ++ name ++
            ("\n" ++ ("\nCaused by:\n" ++ String.join ["    " ++ trap.message ++ "\n"])) := by
        simp only [Failure.report, Failure.causeLines, List.isEmpty_cons, Bool.false_eq_true,
          if_false, String.append_assoc]
      simp only [CommandResult.failed, report]
      exact .named ..

section Source

variable (source : Path.isSource options.input = true)
  (configures : configured directory options = .ok config)
  (loads : directory.loaded options.input = .ok program) (emits : options.emit = true)
include source configures loads emits

/-- The work before the run of a source whose artifact is asked for. -/
theorem prepare_run_source :
    (prepare Directory.host options).run.run directory =
      match directory.create (Path.artifactOf options.input) program.artifact.toUTF8 with
      | .ok changed => (.ok (program, config), changed)
      | .error .exists =>
        (.error (ArtifactError.alreadyExists (Path.artifactOf options.input)).failure, directory)
      | .error cause => (.error (ArtifactError.file cause).failure, directory) := by
  rw [prepare_run, configures]
  dsimp only
  rw [loads, emits, Path.isArtifact_of_isSource source]
  dsimp only
  rw [if_pos (by decide : (true && !false) = true), Directory.saveArtifact_run]
  cases directory.create (Path.artifactOf options.input) program.artifact.toUTF8 with
  | ok changed => rfl
  | error cause => cases cause <;> rfl

variable {folder : List String} {name : String} (emit : Bool)
  (located : directory.locate options.input = .ok (.entry folder name false))
include located

/-- **When the artifact's name is too long**, it is neither written nor read. -/
theorem runsAlike_of_too_long (long : Directory.ArtifactTooLong options.input name)
    (apart : SavesApart directory options (Path.artifactOf options.input)) {between : Directory}
    (same : SameButSnapshot options.dumpState
      ((perform Directory.host options).run directory).2 between) :
    let first := (perform Directory.host options).run directory
    let second := (perform Directory.host
      { options with input := Path.artifactOf options.input, emit := emit }).run between
    Alike options.input (Path.artifactOf options.input) first.1 second.1 ∧
      RunsAlike options program config directory between first second := by
  have uncreated := (long.refused located program.artifact.toUTF8).2
  have one : (perform Directory.host options).run directory =
      (some (.failed "" (ArtifactError.file .nameTooLong).failure), directory) := by
    refine perform_run_of_error ?_
    rw [prepare_run_source source configures loads emits, uncreated]
  rw [one] at same
  have fails : between.loaded (Path.artifactOf options.input) =
      .error (ArtifactError.file .nameTooLong).failure := by
    have named := (Directory.isArtifact_artifactOf_of_locate located).1 source
    have unreadable := (long.refused
      (Directory.locate_of_keepsFolders same.keepsFolders located) program.artifact.toUTF8).1
    rw [Directory.loaded, Directory.programText, named, Directory.textOf_of_error unreadable]
    simp
  have other : (perform Directory.host
      { options with input := Path.artifactOf options.input, emit := emit }).run between =
        (some (.failed "" (ArtifactError.file .nameTooLong).failure), between) := by
    refine perform_run_of_error ?_
    have configures : configured between
        { options with input := Path.artifactOf options.input, emit := emit } = .ok config :=
      configured_of_sameButSnapshot apart same configures
    rw [prepare_run, configures]
    dsimp only
    rw [fails]
  dsimp only
  rw [one, other]
  exact ⟨.same _, .unwritten uncreated⟩

variable {form : ProgramForm} {text : String}
  (compiled : Program.compile form text = .ok program) {written : Directory}
  (created : directory.create (Path.artifactOf options.input) program.artifact.toUTF8 =
    .ok written)
  (writable : ∀ path, options.dumpState = some path → directory.Writable path)
include compiled created writable

/-- When the artifact has been written, the directory is ready to run it. -/
theorem ready_of_created :
    (prepare Directory.host options).run.run directory = (.ok (program, config), written) ∧
      Ready written { options with input := Path.artifactOf options.input, emit := emit } program
        config := by
  have named := (Directory.isArtifact_artifactOf_of_locate located).1 source
  obtain ⟨place, -, nothing, same⟩ := Directory.sameBut_of_create created
  refine ⟨by rw [prepare_run_source source configures loads emits, created], ?_⟩
  refine ⟨?_, Directory.loaded_of_artifact compiled named (Directory.read_of_create created),
    by simp [named], fun path has => same.writable (writable path has)⟩
  refine configured_of_sameBut same ?_ configures
  intro file has there
  obtain ⟨text, content⟩ := exists_read_of_configured configures has
  cases nothing.symm.trans (Directory.node?_of_read content there)

/-- **When the artifact has been written, it runs like the source**, whatever the file of the
snapshot holds before. -/
theorem runsAlike_of_created
    (apart : SavesApart directory options (Path.artifactOf options.input)) {between : Directory}
    (same : SameButSnapshot options.dumpState
      ((perform Directory.host options).run directory).2 between) :
    let first := (perform Directory.host options).run directory
    let second := (perform Directory.host
      { options with input := Path.artifactOf options.input, emit := emit }).run between
    Alike options.input (Path.artifactOf options.input) first.1 second.1 ∧
      RunsAlike options program config directory between first second := by
  obtain ⟨prepared, ready⟩ := ready_of_created source configures loads emits emit located compiled
    created writable
  have apartAgain := apart.of_created configures created writable
  have one := perform_run prepared ready.writable
  dsimp only
  cases ran : (Machine.initial config).run program Console.stream "" with
  | none =>
      rw [ran] at one
      rw [one] at same ⊢
      have other := (ready.of_sameButSnapshot apartAgain same).perform_run
      rw [ran] at other
      rw [other]
      exact ⟨.endless, .endless created ran⟩
  | some outcome =>
      rw [ran] at one
      rw [one] at same ⊢
      -- Both the first run and what comes behind it change the file of the snapshot only.
      have readyAgain := ready.of_sameButSnapshot apartAgain
        ((sameButSnapshot_dumped ready.writable _).trans ready.writable same)
      have other := readyAgain.perform_run
      rw [ran] at other
      rw [other]
      refine ⟨alike_finished .., .ended created ran ?_⟩
      intro path has
      have before := ready.writable path has
      have after := readyAgain.writable path has
      dsimp only
      rw [has]
      exact ⟨read_dumped before _, read_dumped after _⟩

end Source

/-- **The artifact of a source runs like the source.**  When the command runs a source and
writes its artifact, and then runs the artifact with the same options in the directory that
this leaves, it ends with the same status and output, and its reports differ at most in the name
of the file.  When the program ends, each run saves the snapshot of the machine that it ends
with; the second one does so whatever is in the file of the snapshot before it.  The snapshot is
to be saved neither in the artifact nor in the configuration. -/
theorem artifact_runs_alike {words otherWords : List String} {emit : Bool} {text : String}
    (asked : RunCommand.options words = .ok options) (emits : options.emit = true)
    (askedAgain : RunCommand.options otherWords =
      .ok { options with input := Path.artifactOf options.input, emit := emit })
    (source : Path.isSource options.input = true)
    (reads : (Directory.host.readText options.input).run directory = (.ok text, directory))
    (compiled : Program.compile .source text = .ok program)
    (absent : directory.Absent (Path.artifactOf options.input))
    (configures : (configuration Directory.host options).run.run directory =
      (.ok config, directory))
    (writable : ∀ path, options.dumpState = some path → directory.Writable path)
    (apart : SavesApart directory options (Path.artifactOf options.input)) :
    let first := (execute Directory.host words).run directory
    ∀ between, SameButSnapshot options.dumpState first.2 between →
      let second := (execute Directory.host otherWords).run between
      Alike options.input (Path.artifactOf options.input) first.1 second.1 ∧
        RunsAlike options program config directory between first second := by
  intro first between same second
  rw [Directory.readText_run] at reads
  rw [configuration_run] at configures
  have content := Directory.textOf_eq_ok_iff.mp (Prod.mk.inj reads).1
  have configures := (Prod.mk.inj configures).1
  obtain ⟨folder, name, leads, here⟩ := Directory.read_eq_ok_iff.mp content
  have loads : directory.loaded options.input = .ok program := by
    refine Directory.loaded_eq_ok_iff.mpr ⟨.inl source, text, content, ?_⟩
    rw [Path.form, Path.isArtifact_of_isSource source]
    exact compiled
  have firstRun : first = (perform Directory.host options).run directory := by
    simp only [first, execute, asked]
  have secondRun : second = (perform Directory.host
      { options with input := Path.artifactOf options.input, emit := emit }).run between := by
    simp only [second, execute, askedAgain]
  rw [firstRun] at same
  rw [secondRun, firstRun]
  rcases Directory.artifactOf_cases leads.located absent with long | ⟨there, nothing⟩
  · exact runsAlike_of_too_long source configures loads emits emit leads.located long apart same
  · obtain ⟨written, created⟩ : ∃ written,
        directory.create (Path.artifactOf options.input) program.artifact.toUTF8 = .ok written :=
      ⟨_, Directory.create_eq_ok_iff.mpr ⟨_, _, there, nothing, rfl⟩⟩
    exact runsAlike_of_created source configures loads emits emit leads.located compiled created
      writable apart same

/-- The source of a program that calls a subroutine and then returns without a call. -/
def trappingSource : String := "CALL f // once\nRET\nf: INC A0\n_SHOW A0\nRET\n"

/-- What it is compiled to. -/
def trappingProgram : Program where
  lines := #[⟨"CALL 3 // once", .call 3⟩, ⟨"RET", .ret⟩, ⟨"f: INC A0", .inc ⟨.a, 0⟩⟩,
    ⟨"_SHOW A0", .write (.decimal ⟨.a, 0⟩)⟩, ⟨"RET", .ret⟩]
  labels := ⟨[("f", 3)]⟩

/-- The machine that has trapped. -/
def trappedMachine : Machine :=
  { Machine.initial ⟨some 9, none⟩ with
    pc := 3, line := 2, registers := RegisterFile.fresh.put ⟨.a, 0⟩ 1, steps := 5 }

/-- A directory with the source and a configuration. -/
def trapping : Directory :=
  ⟨[(["a.jasm"], .file trappingSource.toUTF8), (["c.json"], .file "[9]".toUTF8)]⟩

/-- The options of a run that has to do with all files of the directory. -/
def trappingOptions : RunOptions :=
  ⟨none, none, some "c.json", true, true, some "s.json", "a.jasm"⟩

/-- The source and its artifact trap alike, and the snapshot replaces what was in its file. -/
theorem artifact_runs_alike_trap :
    let first := (execute Directory.host
      ["--emit", "--config=c.json", "--dump-registers", "--dump-state=s.json", "a.jasm"]).run
        trapping
    let between := first.2.set ["s.json"] (.file "none".toUTF8)
    let second := (execute Directory.host
      ["--config=c.json", "--dump-registers", "--dump-state=s.json", "a.jasm~"]).run between
    first.1 = some ⟨1, "1\n" ++ tables trappedMachine, "Error: running a.jasm\n" ++
        "\nCaused by:\n    line 2: RET with an empty call stack\n"⟩ ∧
      second.1 = some ⟨1, "1\n" ++ tables trappedMachine, "Error: running a.jasm~\n" ++
        "\nCaused by:\n    line 2: RET with an empty call stack\n"⟩ ∧
      between.read "s.json" = .ok "none".toUTF8 ∧
      first.2.read "s.json" = .ok trappedMachine.snapshot.toUTF8 ∧
      second.2.read "s.json" = .ok trappedMachine.snapshot.toUTF8 := by
  have asked : RunCommand.options
      ["--emit", "--config=c.json", "--dump-registers", "--dump-state=s.json", "a.jasm"] =
        .ok trappingOptions := by decide +kernel
  have askedAgain : RunCommand.options
      ["--config=c.json", "--dump-registers", "--dump-state=s.json", "a.jasm~"] =
        .ok { trappingOptions with input := "a.jasm~", emit := false } := by decide +kernel
  have reads : (Directory.host.readText "a.jasm").run trapping =
      (.ok trappingSource, trapping) := by
    have text : trapping.textOf "a.jasm" = .ok trappingSource := by decide +kernel
    rw [Directory.readText_run, text]
  have compiled : Program.compile .source trappingSource = .ok trappingProgram := by
    decide +kernel
  have absent : trapping.Absent "a.jasm~" := by
    have place : trapping.place? "a.jasm~" = some ["a.jasm~"] := by decide +kernel
    intro other there
    obtain rfl := Option.some.inj (place.symm.trans there)
    decide +kernel
  have configures : (configuration Directory.host trappingOptions).run.run trapping =
      (.ok ⟨some 9, none⟩, trapping) := by
    have config : configured trapping trappingOptions = .ok ⟨some 9, none⟩ := by decide +kernel
    rw [configuration_run, config]
  have writable : ∀ path, trappingOptions.dumpState = some path → trapping.Writable path := by
    rintro path ⟨⟩
    exact ⟨[], "s.json", ⟨by decide +kernel, by decide +kernel⟩, by decide +kernel⟩
  have apart : SavesApart trapping trappingOptions "a.jasm~" := by
    rintro path ⟨⟩
    refine ⟨by decide +kernel, ?_⟩
    rintro other ⟨⟩
    decide +kernel
  have alike := artifact_runs_alike asked rfl askedAgain (by decide +kernel) reads compiled absent
    configures writable apart
  have emitted : trapping.create "a.jasm~" trappingProgram.artifact.toUTF8 =
      .ok (trapping.set ["a.jasm~"] (.file trappingProgram.artifact.toUTF8)) :=
    Directory.create_eq_ok_iff.mpr
      ⟨[], "a.jasm~", ⟨by decide +kernel, by decide +kernel⟩, by decide +kernel, rfl⟩
  have ran : (Machine.initial ⟨some 9, none⟩).run trappingProgram Console.stream "" =
      some ⟨trappedMachine, "1\n", some (.stackUnderflow 2)⟩ :=
    Machine.runFor_mono (by decide : 9 ≤ Machine.stepCapacity) rfl
  intro first between second
  -- The snapshot of the first run stands where it is replaced.
  have place (directory : Directory) : directory.LeadsTo "s.json" [] "s.json" :=
    ⟨Directory.locate_eq_entry_iff.mpr ⟨by decide +kernel, by decide +kernel, by decide +kernel, [],
      by decide +kernel, rfl⟩, by decide +kernel⟩
  have saved := (((alike first.2 .unchanged).2.of_ended emitted ran).2.2 "s.json" rfl).1
  have noFolder : first.2.node? ["s.json"] ≠ some .folder := by
    intro isFolder
    cases isFolder.symm.trans (Directory.node?_of_read saved (place first.2).place?_eq)
  have changed : SameButSnapshot (some "s.json") first.2 between :=
    .changed rfl (place first.2).place?_eq (Directory.sameBut_set noFolder _)
  obtain ⟨one, other, saves⟩ := (alike between changed).2.of_ended emitted ran
  refine ⟨?_, ?_, (place first.2).read_set noFolder _, saves "s.json" rfl⟩
  · rw [one]
    decide +kernel
  · rw [other]
    decide +kernel

end LineAsm.RunCommand
