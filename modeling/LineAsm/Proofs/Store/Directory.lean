import LineAsm.Proofs.Store.Path
import LineAsm.Store.Directory

/-!
# Files in a directory

What a path leads to depends on the folders alone, so a path still leads to the same place when
a file is put where no folder was (`Directory.locate_of_keepsFolders`).  A file is read, created
or overwritten exactly when its path leads to an entry that it can be read from or written to
(`read_eq_ok_iff`, `create_eq_ok_iff`, `overwrite_eq_ok_iff`), and writing changes what stands
at one place (`sameBut_set`).

Directories that hold the same but for one file (`Directory.SameBut`) cannot be told apart by
reading another file (`SameBut.read`), and files can be written to the same paths in both
(`SameBut.writable`).

The path of the artifact of a file that can be read leads to the entry beside the file, unless
the path is too long (`locate_artifactOf`).
-/

set_option autoImplicit false

namespace LineAsm.Directory

variable {directory changed : Directory}

/-! ## Places -/

/-- Entries of other keys may be left out before one looks for a key. -/
theorem lookup_filter {key place : List String} (other : key ≠ place)
    (entries : List (List String × Node)) :
    (entries.filter (·.1 != place)).lookup key = entries.lookup key := by
  induction entries with
  | nil => rfl
  | cons entry entries ih =>
      obtain ⟨here, held⟩ := entry
      by_cases found : here = place
      · have missed : (key == here) = false := beq_eq_false_iff_ne.mpr (found ▸ other)
        rw [List.filter_cons_of_neg (by simpa using found), ih, List.lookup_cons, missed]
      · rw [List.filter_cons_of_pos (by simpa using found), List.lookup_cons, List.lookup_cons, ih]

/-- **A directory with a node put at a place** holds the node there, and what it held before at
any other place. -/
theorem node?_set {place : List String} (nonempty : place ≠ []) (node : Node)
    (other : List String) :
    (directory.set place node).node? other =
      if other = place then some node else directory.node? other := by
  rw [node?, node?, set]
  by_cases same : other = place
  · subst same
    simp [nonempty]
  · have missed : (other == place) = false := beq_eq_false_iff_ne.mpr same
    rw [if_neg same, List.lookup_cons, missed, lookup_filter same]

/-- Where a path leads, to a folder or to an entry of one. -/
def place? (directory : Directory) (path : String) : Option (List String) :=
  match directory.locate path with
  | .error _ => none
  | .ok (.folder place) => some place
  | .ok (.entry folder name _) => some (folder ++ [name])

/-- Nothing stands where a path leads. -/
def Absent (directory : Directory) (path : String) : Prop :=
  ∀ place, directory.place? path = some place → directory.node? place = none

/-! ## Folders that stay -/

/-- The folders of a directory are folders of another one. -/
def KeepsFolders (directory changed : Directory) : Prop :=
  ∀ place, directory.node? place = some .folder → changed.node? place = some .folder

theorem look_eq_ok_iff {folder : List String} {name : String} {found : Option Node} :
    directory.look folder name = .ok found ↔
      ¬ nameLimit < name.utf8ByteSize ∧ directory.node? (folder ++ [name]) = found := by
  rw [look]
  split <;> simp [*]

/-- **A component leads to a folder** when it is one or two dots, or the name of a folder. -/
theorem enter_eq_ok_iff {folder place : List String} {name : String} :
    directory.enter folder name = .ok place ↔
      (name = "." ∧ folder = place) ∨ (name = ".." ∧ folder.dropLast = place) ∨
        (isDots name = false ∧ directory.look folder name = .ok (some .folder) ∧
          folder ++ [name] = place) := by
  rw [enter]
  split
  · rename_i oneDot
    simp [oneDot, isDots]
  · split
    · rename_i twoDots
      simp [twoDots, isDots]
    · rename_i oneDot twoDots
      simp only [oneDot, twoDots, false_and, false_or, isDots, beq_eq_false_iff_ne.mpr oneDot,
        beq_eq_false_iff_ne.mpr twoDots, Bool.or_self, true_and]
      split <;> rename_i looked <;> simp [looked]

/-- **A path leads to an entry** when its last component is no dots and the others lead to a
folder. -/
theorem locate_eq_entry_iff {path : String} {folder : List String} {name : String} {slash : Bool} :
    directory.locate path = .ok (.entry folder name slash) ↔
      ('\x00' ∉ path.toList ∧ ¬ pathLimit < path.utf8ByteSize ∧ path ≠ "") ∧
        isDots name = false ∧ slash = decide (path.toList.getLast? = some '/') ∧
        ∃ folders, Path.components path = folders ++ [name] ∧
          directory.follow [] folders = .ok folder := by
  constructor
  · intro located
    rw [locate] at located
    split at located
    · cases located
    · split at located
      · cases located
      · split at located
        · cases located
        · rename_i noNul short nonempty
          split at located
          · cases located
          · rename_i last isLast
            split at located
            · cases located
            · rename_i reached follows
              split at located
              · cases entered : directory.enter reached last <;> rw [entered] at located <;>
                  cases located
              · rename_i plain
                simp only [Except.ok.injEq, Location.entry.injEq] at located
                obtain ⟨rfl, rfl, rfl⟩ := located
                obtain ⟨folders, parts⟩ := List.getLast?_eq_some_iff.mp isLast
                rw [parts, List.dropLast_concat] at follows
                exact ⟨⟨noNul, short, by simpa using nonempty⟩, Bool.eq_false_iff.mpr plain, rfl,
                  folders, parts, follows⟩
  · rintro ⟨⟨noNul, short, nonempty⟩, plain, rfl, folders, parts, follows⟩
    have filled : path.isEmpty = false := by simpa using nonempty
    rw [locate, if_neg noNul, if_neg short, filled, parts]
    simp [follows, plain]

section Keeps

variable (keeps : KeepsFolders directory changed)
include keeps

theorem enter_of_keepsFolders {folder place : List String} {name : String}
    (enters : directory.enter folder name = .ok place) : changed.enter folder name = .ok place := by
  rw [enter_eq_ok_iff] at enters ⊢
  refine enters.imp_right (Or.imp_right ?_)
  rintro ⟨plain, looked, same⟩
  obtain ⟨short, here⟩ := look_eq_ok_iff.mp looked
  exact ⟨plain, look_eq_ok_iff.mpr ⟨short, keeps _ here⟩, same⟩

theorem follow_of_keepsFolders {names : List String} {folder place : List String}
    (follows : directory.follow folder names = .ok place) :
    changed.follow folder names = .ok place := by
  induction names generalizing folder with
  | nil => exact follows
  | cons name later ih =>
      rw [follow] at follows ⊢
      cases enters : directory.enter folder name with
      | error failure =>
          rw [enters] at follows
          cases follows
      | ok next =>
          rw [enters] at follows
          rw [enter_of_keepsFolders keeps enters]
          exact ih follows

/-- **A path leads to the same entry** while the folders stay. -/
theorem locate_of_keepsFolders {path : String} {folder : List String} {name : String} {slash : Bool}
    (located : directory.locate path = .ok (.entry folder name slash)) :
    changed.locate path = .ok (.entry folder name slash) := by
  obtain ⟨fits, plain, same, folders, parts, follows⟩ := locate_eq_entry_iff.mp located
  exact locate_eq_entry_iff.mpr
    ⟨fits, plain, same, folders, parts, follow_of_keepsFolders keeps follows⟩

end Keeps

/-! ## Directories that differ in one file -/

/-- **Directories that hold the same but for one file**: they have the same folders, and they
hold the same everywhere but at one place. -/
structure SameBut (place : List String) (directory changed : Directory) : Prop where
  folders : ∀ other, changed.node? other = some .folder ↔ directory.node? other = some .folder
  elsewhere : ∀ other, other ≠ place → changed.node? other = directory.node? other

/-- Putting a file where no folder is changes nothing else. -/
theorem sameBut_set {place : List String} (noFolder : directory.node? place ≠ some .folder)
    (content : ByteArray) : SameBut place directory (directory.set place (.file content)) := by
  have nonempty : place ≠ [] := by
    rintro rfl
    exact noFolder rfl
  constructor
  · intro other
    rw [node?_set nonempty]
    split
    · rename_i here
      exact ⟨nofun, fun isFolder => absurd (here ▸ isFolder) noFolder⟩
    · rfl
  · intro other away
    rw [node?_set nonempty, if_neg away]

theorem SameBut.keepsFolders {place : List String} (same : SameBut place directory changed) :
    KeepsFolders directory changed :=
  fun other => (same.folders other).mpr

theorem SameBut.trans {place : List String} {last : Directory}
    (same : SameBut place directory changed) (sameAgain : SameBut place changed last) :
    SameBut place directory last where
  folders other := (sameAgain.folders other).trans (same.folders other)
  elsewhere other away := (sameAgain.elsewhere other away).trans (same.elsewhere other away)

/-! ## Reading and writing -/

/-- **A path leads to an entry** whose name is not too long, without a slash behind it. -/
structure LeadsTo (directory : Directory) (path : String) (folder : List String) (name : String) :
    Prop where
  located : directory.locate path = .ok (.entry folder name false)
  short : ¬ nameLimit < name.utf8ByteSize

theorem LeadsTo.of_keepsFolders {path : String} {folder : List String} {name : String}
    (leads : LeadsTo directory path folder name) (keeps : KeepsFolders directory changed) :
    LeadsTo changed path folder name :=
  ⟨locate_of_keepsFolders keeps leads.located, leads.short⟩

theorem LeadsTo.place?_eq {path : String} {folder : List String} {name : String}
    (leads : LeadsTo directory path folder name) :
    directory.place? path = some (folder ++ [name]) := by
  rw [place?, leads.located]

/-- A path that leads to an entry still leads there when a file has changed. -/
theorem LeadsTo.place?_of_sameBut {path : String} {folder place : List String} {name : String}
    (leads : LeadsTo directory path folder name) (same : SameBut place directory changed) :
    changed.place? path = directory.place? path := by
  rw [(leads.of_keepsFolders same.keepsFolders).place?_eq, leads.place?_eq]

/-- **A file is read** when its path leads to it. -/
theorem read_eq_ok_iff {path : String} {content : ByteArray} :
    directory.read path = .ok content ↔
      ∃ folder name, LeadsTo directory path folder name ∧
        directory.node? (folder ++ [name]) = some (.file content) := by
  constructor
  · intro reads
    rw [read] at reads
    split at reads
    · cases reads
    · cases reads
    · rename_i folder name slash located
      split at reads
      · cases reads
      · cases reads
      · cases reads
      · rename_i held looked
        cases slash with
        | true => cases reads
        | false =>
            obtain rfl := Except.ok.inj reads
            obtain ⟨short, here⟩ := look_eq_ok_iff.mp looked
            exact ⟨folder, name, ⟨located, short⟩, here⟩
  · rintro ⟨folder, name, ⟨located, short⟩, here⟩
    rw [read, located]
    simp [look_eq_ok_iff.mpr ⟨short, here⟩]

/-- What is read from a file stands where its path leads. -/
theorem node?_of_read {path : String} {content : ByteArray} {place : List String}
    (reads : directory.read path = .ok content) (there : directory.place? path = some place) :
    directory.node? place = some (.file content) := by
  obtain ⟨folder, name, leads, here⟩ := read_eq_ok_iff.mp reads
  rw [leads.place?_eq] at there
  rw [← Option.some.inj there]
  exact here

/-- **A file is created** when its path leads to an entry with nothing there. -/
theorem create_eq_ok_iff {path : String} {content : ByteArray} :
    directory.create path content = .ok changed ↔
      ∃ folder name, LeadsTo directory path folder name ∧
        directory.node? (folder ++ [name]) = none ∧
        directory.set (folder ++ [name]) (.file content) = changed := by
  constructor
  · intro creates
    rw [create] at creates
    split at creates
    · cases creates
    · cases creates
    · cases creates
    · rename_i folder name located
      split at creates
      · cases creates
      · cases creates
      · rename_i looked
        obtain ⟨short, here⟩ := look_eq_ok_iff.mp looked
        exact ⟨folder, name, ⟨located, short⟩, here, Except.ok.inj creates⟩
  · rintro ⟨folder, name, ⟨located, short⟩, here, rfl⟩
    rw [create, located]
    simp [look_eq_ok_iff.mpr ⟨short, here⟩]

/-- **A file is overwritten** when its path leads to an entry that is no folder. -/
theorem overwrite_eq_ok_iff {path : String} {content : ByteArray} :
    directory.overwrite path content = .ok changed ↔
      ∃ folder name, LeadsTo directory path folder name ∧
        directory.node? (folder ++ [name]) ≠ some .folder ∧
        directory.set (folder ++ [name]) (.file content) = changed := by
  constructor
  · intro writes
    rw [overwrite] at writes
    split at writes
    · cases writes
    · cases writes
    · cases writes
    · rename_i folder name located
      split at writes
      · cases writes
      · cases writes
      · rename_i found noFolder looked
        obtain ⟨short, rfl⟩ := look_eq_ok_iff.mp looked
        exact ⟨folder, name, ⟨located, short⟩, noFolder, Except.ok.inj writes⟩
  · rintro ⟨folder, name, ⟨located, short⟩, noFolder, rfl⟩
    rw [overwrite, located]
    simp only [look_eq_ok_iff.mpr ⟨short, rfl⟩]

/-- **Creating a file changes nothing else.** -/
theorem sameBut_of_create {path : String} {content : ByteArray}
    (creates : directory.create path content = .ok changed) :
    ∃ place, directory.place? path = some place ∧ directory.node? place = none ∧
      SameBut place directory changed := by
  obtain ⟨folder, name, leads, nothing, rfl⟩ := create_eq_ok_iff.mp creates
  exact ⟨_, leads.place?_eq, nothing, sameBut_set (by simp [nothing]) content⟩

/-- **Overwriting a file changes nothing else.** -/
theorem sameBut_of_overwrite {path : String} {content : ByteArray}
    (writes : directory.overwrite path content = .ok changed) :
    ∃ place, directory.place? path = some place ∧ SameBut place directory changed := by
  obtain ⟨folder, name, leads, noFolder, rfl⟩ := overwrite_eq_ok_iff.mp writes
  exact ⟨_, leads.place?_eq, sameBut_set noFolder content⟩

/-- A file is read back from where it was put. -/
theorem LeadsTo.read_set {path : String} {folder : List String} {name : String}
    (leads : LeadsTo directory path folder name)
    (noFolder : directory.node? (folder ++ [name]) ≠ some .folder) (content : ByteArray) :
    (directory.set (folder ++ [name]) (.file content)).read path = .ok content := by
  have keeps := (sameBut_set noFolder content).keepsFolders
  refine read_eq_ok_iff.mpr ⟨folder, name, leads.of_keepsFolders keeps, ?_⟩
  rw [node?_set (by simp), if_pos rfl]

/-- A created file is read back. -/
theorem read_of_create {path : String} {content : ByteArray}
    (creates : directory.create path content = .ok changed) : changed.read path = .ok content := by
  obtain ⟨folder, name, leads, nothing, rfl⟩ := create_eq_ok_iff.mp creates
  exact leads.read_set (by simp [nothing]) content

/-- A file is read back after it was overwritten. -/
theorem read_of_overwrite {path : String} {content : ByteArray}
    (writes : directory.overwrite path content = .ok changed) :
    changed.read path = .ok content := by
  obtain ⟨folder, name, leads, noFolder, rfl⟩ := overwrite_eq_ok_iff.mp writes
  exact leads.read_set noFolder content

/-- **A path that a file can be written to**: it leads to an entry that is no folder. -/
def Writable (directory : Directory) (path : String) : Prop :=
  ∃ folder name, LeadsTo directory path folder name ∧
    directory.node? (folder ++ [name]) ≠ some .folder

theorem Writable.overwrite {path : String} (writable : directory.Writable path)
    (content : ByteArray) : ∃ changed, directory.overwrite path content = .ok changed := by
  obtain ⟨folder, name, leads, here⟩ := writable
  exact ⟨_, overwrite_eq_ok_iff.mpr ⟨folder, name, leads, here, rfl⟩⟩

/-- **A changed file leaves paths writable**, that of the file itself included. -/
theorem SameBut.writable {place : List String} (same : SameBut place directory changed)
    {path : String} (writable : directory.Writable path) : changed.Writable path := by
  obtain ⟨folder, name, leads, noFolder⟩ := writable
  exact ⟨folder, name, leads.of_keepsFolders same.keepsFolders,
    fun isFolder => noFolder ((same.folders _).mp isFolder)⟩

/-- **A changed file leaves the other files** as they are. -/
theorem SameBut.read {place : List String} (same : SameBut place directory changed)
    {path : String} {content : ByteArray} (reads : directory.read path = .ok content)
    (elsewhere : directory.place? path ≠ some place) : changed.read path = .ok content := by
  obtain ⟨folder, name, leads, here⟩ := read_eq_ok_iff.mp reads
  refine read_eq_ok_iff.mpr ⟨folder, name, leads.of_keepsFolders same.keepsFolders, ?_⟩
  rw [same.elsewhere, here]
  rintro rfl
  exact elsewhere leads.place?_eq

/-! ## The place of an artifact -/

/-- **The path of an artifact leads beside the file**, unless it is too long. -/
theorem locate_artifactOf {path : String} {folder : List String} {name : String}
    (located : directory.locate path = .ok (.entry folder name false)) :
    directory.locate (Path.artifactOf path) =
      if pathLimit < (Path.artifactOf path).utf8ByteSize then .error .nameTooLong
      else .ok (.entry folder (name ++ Path.artifactSuffix) false) := by
  obtain ⟨⟨noNul, -, nonempty⟩, -, slash, folders, parts, follows⟩ :=
    locate_eq_entry_iff.mp located
  have noSlash := of_decide_eq_false slash.symm
  have dots := Path.suffix_ne_dots name
  have plain : isDots (name ++ Path.artifactSuffix) = false := by
    simp [isDots, dots.1, dots.2]
  have chars : (Path.artifactOf path).toList = path.toList ++ ['~'] := by
    simp [Path.artifactOf, Path.artifactSuffix]
  by_cases long : pathLimit < (Path.artifactOf path).utf8ByteSize
  · rw [if_pos long, locate, chars, if_neg (by simp [noNul]), if_pos long]
  · rw [if_neg long]
    refine locate_eq_entry_iff.mpr ⟨⟨?_, long, ?_⟩, plain, ?_, folders, ?_, follows⟩
    · rw [chars]
      simp [noNul]
    · intro empty
      rw [empty] at chars
      simp at chars
    · rw [chars]
      simp
    · exact Path.components_artifactOf nonempty noSlash parts

/-- The path of the artifact of a file, or the last name in it, has too many bytes. -/
def ArtifactTooLong (path name : String) : Prop :=
  pathLimit < (Path.artifactOf path).utf8ByteSize ∨
    nameLimit < (name ++ Path.artifactSuffix).utf8ByteSize

/-- **An artifact whose name or path is too long** can neither be read nor created. -/
theorem ArtifactTooLong.refused {path : String} {folder : List String} {name : String}
    (long : ArtifactTooLong path name)
    (located : directory.locate path = .ok (.entry folder name false)) (content : ByteArray) :
    directory.read (Path.artifactOf path) = .error .nameTooLong ∧
      directory.create (Path.artifactOf path) content = .error .nameTooLong := by
  have leads := locate_artifactOf located
  rw [read, create]
  split at leads
  · rw [leads]
    exact ⟨rfl, rfl⟩
  · rename_i short
    have refused : directory.look folder (name ++ Path.artifactSuffix) = .error .nameTooLong :=
      if_pos (long.resolve_left short)
    rw [leads]
    simp [refused]

/-- **An artifact that is absent** can be created beside the file, unless its name or its path
is too long. -/
theorem artifactOf_cases {path : String} {folder : List String} {name : String}
    (located : directory.locate path = .ok (.entry folder name false))
    (absent : directory.Absent (Path.artifactOf path)) :
    ArtifactTooLong path name ∨
      LeadsTo directory (Path.artifactOf path) folder (name ++ Path.artifactSuffix) ∧
        directory.node? (folder ++ [name ++ Path.artifactSuffix]) = none := by
  by_cases long : ArtifactTooLong path name
  · exact .inl long
  · obtain ⟨shortPath, shortName⟩ := not_or.mp long
    have there : LeadsTo directory (Path.artifactOf path) folder (name ++ Path.artifactSuffix) :=
      ⟨(locate_artifactOf located).trans (if_neg shortPath), shortName⟩
    exact .inr ⟨there, absent _ there.place?_eq⟩

/-- The extension of the path of an artifact tells it from a source. -/
theorem isArtifact_artifactOf_of_locate {path : String} {folder : List String} {name : String}
    (located : directory.locate path = .ok (.entry folder name false)) :
    (Path.isSource path = true → Path.isArtifact (Path.artifactOf path) = true) ∧
      (Path.isArtifact path = true → Path.isSource (Path.artifactOf path) = false ∧
        Path.isArtifact (Path.artifactOf path) = false) := by
  obtain ⟨⟨-, -, nonempty⟩, plain, slash, folders, parts, -⟩ := locate_eq_entry_iff.mp located
  have noSlash := of_decide_eq_false slash.symm
  obtain ⟨oneDot, twoDots⟩ : name ≠ "." ∧ name ≠ ".." := by
    simpa [isDots] using plain
  exact ⟨Path.isArtifact_artifactOf nonempty noSlash parts oneDot twoDots,
    Path.artifactOf_artifact nonempty noSlash parts oneDot twoDots⟩

end LineAsm.Directory
