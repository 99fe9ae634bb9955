import LineAsm.Command.Inspect
import LineAsm.Proofs.Command.File

/-!
# Loading what was compiled

The command that inspects a program writes the artifact of a program to the path of its file
with the suffix of artifacts behind it, when it is asked for no other path.  A program that was
loaded from a source is loaded again from there (`InspectCommand.compiled_loads_again`).

A program that was loaded from an artifact is not: the suffix is put behind that of the
artifact, and a path with two suffixes names neither a source nor an artifact
(`InspectCommand.compiled_artifact_is_refused`).
-/

set_option autoImplicit false

namespace LineAsm.InspectCommand

variable {directory : Directory} {words : List String} {input : String} {program : Program}

/-- Writing the artifact of a program that can be loaded. -/
theorem execute_compile_run {out : Option String}
    (asked : options words = .ok ⟨input, .compile out⟩)
    (loads : directory.loaded input = .ok program) :
    (execute Directory.host words).run directory =
      match (Directory.host.saveArtifact (out.getD (Path.artifactOf input)) program).run.run
        directory with
      | (.error failure, after) => (.failed "" failure, after)
      | (.ok (), after) =>
        (.success "" ("wrote " ++ out.getD (Path.artifactOf input) ++ " (" ++
          toString program.size ++ " lines)\n"), after) := by
  rw [execute, asked]
  dsimp only
  rw [perform, run_state_bind, inspect, run_bind, Directory.loadProgram_run, loads]
  dsimp only
  rw [run_bind]
  rcases (Directory.host.saveArtifact (out.getD (Path.artifactOf input)) program).run.run
    directory with ⟨result, after⟩
  cases result <;> rfl

/-- The command succeeds when the artifact is created. -/
theorem create_of_succeeds {out : Option String}
    (asked : options words = .ok ⟨input, .compile out⟩)
    (loads : directory.loaded input = .ok program)
    (succeeds : ((execute Directory.host words).run directory).1.exitStatus = 0) :
    directory.create (out.getD (Path.artifactOf input)) program.artifact.toUTF8 =
      .ok ((execute Directory.host words).run directory).2 := by
  rw [execute_compile_run asked loads, Directory.saveArtifact_run] at succeeds ⊢
  cases created : directory.create (out.getD (Path.artifactOf input)) program.artifact.toUTF8 with
  | ok changed => rfl
  | error cause =>
      rw [created] at succeeds
      cases cause <;> cases succeeds

/-- **What the command writes for a source is loaded again** as the same program, with the same
lines and labels.  What it writes for an artifact has a path that names no program. -/
theorem compiled_loads_again (asked : options words = .ok ⟨input, .compile none⟩)
    (loads : (Directory.host.loadProgram input).run.run directory = (.ok program, directory))
    (succeeds : ((execute Directory.host words).run directory).1.exitStatus = 0) :
    let after := ((execute Directory.host words).run directory).2
    (Path.isSource input = true →
        (Directory.host.loadProgram (Path.artifactOf input)).run.run after =
          (.ok program, after)) ∧
      (Path.isArtifact input = true →
        (Directory.host.loadProgram (Path.artifactOf input)).run.run after =
          (.error (ArtifactError.unsupportedExtension (Path.artifactOf input)).failure,
            after)) := by
  intro after
  rw [Directory.loadProgram_run] at loads
  have loaded := (Prod.mk.inj loads).1
  obtain ⟨-, text, reads, compiled⟩ := Directory.loaded_eq_ok_iff.mp loaded
  obtain ⟨folder, name, leads, -⟩ := Directory.read_eq_ok_iff.mp reads
  obtain ⟨ofSource, ofArtifact⟩ := Directory.isArtifact_artifactOf_of_locate leads.located
  have created := create_of_succeeds asked loaded succeeds
  refine ⟨?_, ?_⟩
  · intro source
    rw [Directory.loadProgram_run,
      Directory.loaded_of_artifact compiled (ofSource source) (Directory.read_of_create created)]
  · intro artifact
    obtain ⟨noSource, noArtifact⟩ := ofArtifact artifact
    rw [Directory.loadProgram_run, Directory.loaded, Directory.programText, noSource, noArtifact]
    rfl

/-- A directory with a source whose jump leads to a label, with a comment. -/
def countingDirectory : Directory :=
  ⟨[(["a.jasm"], .file "loop: DEC A0 // tick\nJNZ A0 loop\n".toUTF8)]⟩

/-- The program of the source. -/
def countingProgram : Program where
  lines := #[⟨"loop: DEC A0 // tick", .dec ⟨.a, 0⟩⟩,
    ⟨"JNZ A0 1", .branch .jumpNonzero (Decoding.conditionOf .jumpNonzero) ⟨.a, 0⟩ (.literal 0) 1⟩]
  labels := ⟨[("loop", 1)]⟩

/-- The artifact names the line in the place of the label, and the label is listed again when
it is loaded. -/
theorem compiled_loads_again_counting :
    let ran := (execute Directory.host ["a.jasm", "compile"]).run countingDirectory
    ran.1 = .success "" "wrote a.jasm~ (2 lines)\n" ∧
      ran.2.read "a.jasm~" = .ok "loop: DEC A0 // tick\nJNZ A0 1\n".toUTF8 ∧
      (Directory.host.loadProgram "a.jasm~").run.run ran.2 = (.ok countingProgram, ran.2) := by
  have asked : options ["a.jasm", "compile"] = .ok ⟨"a.jasm", .compile none⟩ := by decide +kernel
  have loads : (Directory.host.loadProgram "a.jasm").run.run countingDirectory =
      (.ok countingProgram, countingDirectory) := by
    have loaded : countingDirectory.loaded "a.jasm" = .ok countingProgram := by decide +kernel
    rw [Directory.loadProgram_run, loaded]
  have reports : ((execute Directory.host ["a.jasm", "compile"]).run countingDirectory).1 =
      .success "" "wrote a.jasm~ (2 lines)\n" := by
    decide +kernel
  have succeeds :
      ((execute Directory.host ["a.jasm", "compile"]).run countingDirectory).1.exitStatus = 0 := by
    rw [reports]
    rfl
  refine ⟨reports, by decide +kernel, ?_⟩
  exact (compiled_loads_again asked loads succeeds).1 (by decide +kernel)

/-- A directory with a file that holds a program of one line. -/
def oneFile (path : String) : Directory := ⟨[([path], .file "INC A0\n".toUTF8)]⟩

/-- The program of one line. -/
def oneLine : Program := ⟨#[⟨"INC A0", .inc ⟨.a, 0⟩⟩], .empty⟩

/-- **What the command writes for an artifact is refused** when it is to be loaded. -/
theorem compiled_artifact_is_refused :
    options ["a.jasm~", "compile"] = .ok ⟨"a.jasm~", .compile none⟩ ∧
      (Directory.host.loadProgram "a.jasm~").run.run (oneFile "a.jasm~") =
        (.ok oneLine, oneFile "a.jasm~") ∧
      ((execute Directory.host ["a.jasm~", "compile"]).run (oneFile "a.jasm~")).1 =
        .success "" "wrote a.jasm~~ (1 lines)\n" ∧
      ((Directory.host.loadProgram "a.jasm~~").run.run
          ((execute Directory.host ["a.jasm~", "compile"]).run (oneFile "a.jasm~")).2).1 =
        .error (ArtifactError.unsupportedExtension "a.jasm~~").failure := by
  have loaded : (oneFile "a.jasm~").loaded "a.jasm~" = .ok oneLine := by decide +kernel
  refine ⟨by decide +kernel, ?_, by decide +kernel, ?_⟩
  · rw [Directory.loadProgram_run, loaded]
  · rw [Directory.loadProgram_run]
    decide +kernel

end LineAsm.InspectCommand
