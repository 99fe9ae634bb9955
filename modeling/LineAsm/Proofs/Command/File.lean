import LineAsm.Command.File
import LineAsm.Proofs.Program.RoundTrip
import LineAsm.Proofs.Store.Directory

/-!
# Loading and saving in a directory

What the commands do with the files of a directory in memory.  Loading a program leaves the
directory as it is (`loadProgram_run`), and succeeds exactly when the path names a source or an
artifact whose file holds the text of a program (`loaded_eq_ok_iff`).  Saving an artifact
creates a file that did not exist (`saveArtifact_run`), and saving a text overwrites one
(`saveText_run`).

The artifact of a program is loaded as the same program when its path names an artifact
(`loaded_of_artifact`).
-/

set_option autoImplicit false

namespace LineAsm

/-! ## Computations on a directory -/

/-- A computation on a directory is done one part after the other. -/
theorem run_state_bind {α β : Type} (first : StateM Directory α) (later : α → StateM Directory β)
    (directory : Directory) :
    (first >>= later).run directory =
      (later (first.run directory).1).run (first.run directory).2 := rfl

/-- A computation that may fail goes on with its next part when it has not failed. -/
theorem run_bind {α β : Type} (first : ExceptT Failure (StateM Directory) α)
    (later : α → ExceptT Failure (StateM Directory) β) (directory : Directory) :
    (first >>= later).run.run directory =
      match first.run.run directory with
      | (.error failure, after) => (.error failure, after)
      | (.ok value, after) => (later value).run.run after := by
  rw [ExceptT.run_bind, StateT.run_bind]
  cases first.run.run directory with
  | mk result after => cases result <;> rfl

/-- A computation that cannot fail. -/
theorem run_lift {α : Type} (action : StateM Directory α) (directory : Directory) :
    (liftM action : ExceptT Failure (StateM Directory) α).run.run directory =
      (.ok (action.run directory).1, (action.run directory).2) := rfl

/-! ## Texts -/

/-- **A text is read back from its bytes**, and the bytes that are read are those of the text. -/
theorem fromUTF8?_eq_some_iff {content : ByteArray} {text : String} :
    String.fromUTF8? content = some text ↔ content = text.toUTF8 := by
  constructor
  · intro decoded
    rw [String.fromUTF8?] at decoded
    split at decoded
    · exact congrArg String.toUTF8 (Option.some.inj decoded)
    · cases decoded
  · rintro rfl
    exact dif_pos text.isValidUTF8

namespace Directory

/-- The text of a file, or why it cannot be read. -/
def textOf (directory : Directory) (path : String) : Except FileError String :=
  match directory.read path with
  | .error failure => .error failure
  | .ok content =>
    match String.fromUTF8? content with
    | none => .error .invalidText
    | some text => .ok text

variable {directory : Directory} {path : String}

theorem textOf_eq_ok_iff {text : String} :
    directory.textOf path = .ok text ↔ directory.read path = .ok text.toUTF8 := by
  rw [textOf]
  cases directory.read path with
  | error failure => simp
  | ok content =>
      rw [Except.ok.injEq, ← fromUTF8?_eq_some_iff]
      dsimp only
      cases String.fromUTF8? content <;> simp

theorem textOf_of_error {failure : FileError} (fails : directory.read path = .error failure) :
    directory.textOf path = .error failure := by
  rw [textOf, fails]

/-- Reading a text leaves the directory as it is. -/
theorem readText_run (directory : Directory) (path : String) :
    (Directory.host.readText path).run directory = (directory.textOf path, directory) := by
  rw [textOf]
  change (match directory.read path with
    | .error failure => (pure (.error failure) : StateM Directory (Except FileError String))
    | .ok content => _).run directory = _
  cases directory.read path with
  | error failure => rfl
  | ok content =>
      dsimp only
      cases String.fromUTF8? content <;> rfl

/-! ## Loading -/

/-- The text of the program of a file, or why it cannot be read. -/
def programText (directory : Directory) (path : String) : Except ArtifactError String :=
  if !Path.isSource path && !Path.isArtifact path then .error (.unsupportedExtension path)
  else
    match directory.textOf path with
    | .error cause => .error (.file cause)
    | .ok text => .ok text

/-- The program of a file, or why there is none. -/
def loaded (directory : Directory) (path : String) : Except Failure Program :=
  match directory.programText path with
  | .error cause => .error cause.failure
  | .ok text =>
    match Program.compile (Path.form path) text with
    | .error cause => .error (cause.failure path)
    | .ok program => .ok program

theorem readProgramText_run (directory : Directory) (path : String) :
    (Directory.host.readProgramText path).run directory =
      (directory.programText path, directory) := by
  rw [Host.readProgramText, programText]
  split
  · rfl
  · rw [run_state_bind, readText_run]
    cases directory.textOf path <;> rfl

/-- **Loading a program** leaves the directory as it is. -/
theorem loadProgram_run (directory : Directory) (path : String) :
    (Directory.host.loadProgram path).run.run directory = (directory.loaded path, directory) := by
  rw [Host.loadProgram, run_bind, run_lift, readProgramText_run, loaded]
  cases directory.programText path with
  | error cause => rfl
  | ok text =>
      dsimp only
      cases Program.compile (Path.form path) text <;> rfl

theorem programText_eq_ok_iff {text : String} :
    directory.programText path = .ok text ↔
      (Path.isSource path = true ∨ Path.isArtifact path = true) ∧
        directory.read path = .ok text.toUTF8 := by
  rw [programText, ← textOf_eq_ok_iff]
  cases Path.isSource path <;> cases Path.isArtifact path <;>
    cases directory.textOf path <;> simp

/-- **A program is loaded** from a source or an artifact that holds its text. -/
theorem loaded_eq_ok_iff {program : Program} :
    directory.loaded path = .ok program ↔
      (Path.isSource path = true ∨ Path.isArtifact path = true) ∧
        ∃ text, directory.read path = .ok text.toUTF8 ∧
          Program.compile (Path.form path) text = .ok program := by
  rw [loaded]
  constructor
  · intro loads
    cases read : directory.programText path with
    | error cause =>
        rw [read] at loads
        cases loads
    | ok text =>
        obtain ⟨named, reads⟩ := programText_eq_ok_iff.mp read
        rw [read] at loads
        dsimp only at loads
        split at loads
        · cases loads
        · rename_i compiled
          obtain rfl := Except.ok.inj loads
          exact ⟨named, text, reads, compiled⟩
  · rintro ⟨named, text, reads, compiled⟩
    rw [programText_eq_ok_iff.mpr ⟨named, reads⟩]
    simp only [compiled]

/-- **The artifact of a program** is loaded as the same program. -/
theorem loaded_of_artifact {form : ProgramForm} {text : String} {program : Program}
    (compiled : Program.compile form text = .ok program) (named : Path.isArtifact path = true)
    (reads : directory.read path = .ok program.artifact.toUTF8) :
    directory.loaded path = .ok program := by
  refine loaded_eq_ok_iff.mpr ⟨.inr named, program.artifact, reads, ?_⟩
  rw [Path.form, if_pos named]
  exact Program.compile_of_normalLines compiled (Program.normalLines_artifact compiled)

/-! ## Saving -/

/-- Creating a file, as a computation. -/
theorem create_run (directory : Directory) (path : String) (content : ByteArray) :
    (Directory.host.create path content).run directory =
      match directory.create path content with
      | .error failure => (.error failure, directory)
      | .ok changed => (.ok (), changed) := rfl

/-- Overwriting a file, as a computation. -/
theorem overwrite_run (directory : Directory) (path : String) (content : ByteArray) :
    (Directory.host.overwrite path content).run directory =
      match directory.overwrite path content with
      | .error failure => (.error failure, directory)
      | .ok changed => (.ok (), changed) := rfl

theorem writeArtifact_run (directory : Directory) (path : String) (program : Program) :
    (Directory.host.writeArtifact path program).run directory =
      match directory.create path program.artifact.toUTF8 with
      | .ok changed => (.ok (), changed)
      | .error .exists => (.error (.alreadyExists path), directory)
      | .error cause => (.error (.file cause), directory) := by
  rw [Host.writeArtifact, run_state_bind, create_run]
  cases directory.create path program.artifact.toUTF8 with
  | ok changed => rfl
  | error cause => cases cause <;> rfl

/-- **Saving an artifact** creates a file, or leaves the directory as it is. -/
theorem saveArtifact_run (directory : Directory) (path : String) (program : Program) :
    (Directory.host.saveArtifact path program).run.run directory =
      match directory.create path program.artifact.toUTF8 with
      | .ok changed => (.ok (), changed)
      | .error .exists => (.error (ArtifactError.alreadyExists path).failure, directory)
      | .error cause => (.error (ArtifactError.file cause).failure, directory) := by
  rw [Host.saveArtifact, run_bind, run_lift, writeArtifact_run]
  cases directory.create path program.artifact.toUTF8 with
  | ok changed => rfl
  | error cause => cases cause <;> rfl

/-- **Saving a text** overwrites a file, or leaves the directory as it is. -/
theorem saveText_run (directory : Directory) (path text : String) :
    (Directory.host.saveText path text).run.run directory =
      match directory.overwrite path text.toUTF8 with
      | .ok changed => (.ok (), changed)
      | .error cause => (.error (.plain cause.message), directory) := by
  rw [Host.saveText, run_bind, run_lift, overwrite_run]
  cases directory.overwrite path text.toUTF8 <;> rfl

end Directory

end LineAsm
