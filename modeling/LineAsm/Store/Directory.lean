import LineAsm.Store.Host
import LineAsm.Store.Path

/-!
# Directories in memory

A directory with its files and folders, addressed by paths that are followed one
component after the other.  Each component but the last must name a folder.  A last
component of dots, or none at all, names a folder that exists; any other last
component names an entry of the folder before it, which may be missing.  A slash
behind it asks for a folder: a file is then not read, and no file is made.
-/

set_option autoImplicit false

namespace LineAsm

/-- What a directory holds at a place. -/
inductive Node where
  | file (content : ByteArray)
  | folder
  deriving Inhabited

instance : DecidableEq Node
  | .file content, .file other =>
    decidable_of_iff (content.data = other.data)
      ⟨fun same => congrArg Node.file (ByteArray.ext same),
        fun same => congrArg ByteArray.data (Node.file.inj same)⟩
  | .file _, .folder => .isFalse Node.noConfusion
  | .folder, .file _ => .isFalse Node.noConfusion
  | .folder, .folder => .isTrue rfl

/-- A directory: the files and folders in it and in the folders below it, each at the
list of names that leads to it. -/
structure Directory where
  nodes : List (List String × Node)
  deriving DecidableEq, Inhabited

namespace Directory

/-- The directory that holds nothing. -/
def empty : Directory := ⟨[]⟩

/-- What a directory holds at a place; the directory itself is a folder. -/
def node? (directory : Directory) (place : List String) : Option Node :=
  if place.isEmpty then some .folder else directory.nodes.lookup place

/-- Put a node at a place, instead of what was there. -/
def set (directory : Directory) (place : List String) (node : Node) : Directory :=
  ⟨(place, node) :: directory.nodes.filter (·.1 != place)⟩

/-- The names of a directory's own entries, in ascending order. -/
def names (directory : Directory) : List String :=
  let own := directory.nodes.filterMap fun (place, _) =>
    match place with
    | [name] => some name
    | _ => none
  own.mergeSort fun first second => first ≤ second

/-! ## Following paths -/

/-- Names of more bytes are refused. -/
def nameLimit : Nat := 255

/-- Paths of more bytes are refused. -/
def pathLimit : Nat := 4095

/-- Whether a component of a path is made of one or two dots. -/
def isDots (name : String) : Bool := name == "." || name == ".."

/-- What an entry of a folder is, if there is one.  A name that no entry can have is
refused. -/
def look (directory : Directory) (folder : List String) (name : String) :
    Except FileError (Option Node) :=
  if nameLimit < name.utf8ByteSize then .error .nameTooLong
  else .ok (directory.node? (folder ++ [name]))

/-- The folder that a component leads to from a folder. -/
def enter (directory : Directory) (folder : List String) (name : String) :
    Except FileError (List String) :=
  if name = "." then .ok folder
  else if name = ".." then .ok folder.dropLast
  else match directory.look folder name with
    | .error failure => .error failure
    | .ok none => .error .notFound
    | .ok (some (.file _)) => .error .notDirectory
    | .ok (some .folder) => .ok (folder ++ [name])

/-- The folder that components lead to from a folder. -/
def follow (directory : Directory) (folder : List String) :
    List String → Except FileError (List String)
  | [] => .ok folder
  | name :: later =>
    match directory.enter folder name with
    | .error failure => .error failure
    | .ok next => directory.follow next later

/-- What a path leads to. -/
inductive Location where
  /-- A folder that exists. -/
  | folder (place : List String)
  /-- An entry of a folder, with a slash behind its name or not.  Nothing has been
  asked of the name yet, which may even be too long. -/
  | entry (folder : List String) (name : String) (slash : Bool)
  deriving DecidableEq, Repr, Inhabited

/-- Follow a path up to its last component. -/
def locate (directory : Directory) (path : String) : Except FileError Location :=
  if '\x00' ∈ path.toList then .error .nulInName
  else if pathLimit < path.utf8ByteSize then .error .nameTooLong
  else if path.isEmpty then .error .notFound
  else match (Path.components path).getLast? with
    | none => .ok (.folder [])
    | some name =>
      match directory.follow [] (Path.components path).dropLast with
      | .error failure => .error failure
      | .ok folder =>
        if isDots name then (directory.enter folder name).map .folder
        else .ok (.entry folder name (path.toList.getLast? = some '/'))

/-! ## Reading and writing -/

/-- The contents of a file. -/
def read (directory : Directory) (path : String) : Except FileError ByteArray :=
  match directory.locate path with
  | .error failure => .error failure
  | .ok (.folder _) => .error .isDirectory
  | .ok (.entry folder name slash) =>
    match directory.look folder name with
    | .error failure => .error failure
    | .ok none => .error .notFound
    | .ok (some .folder) => .error .isDirectory
    | .ok (some (.file content)) => if slash then .error .notDirectory else .ok content

/-- Create a file that does not exist.  A slash behind its name is refused before the
name is looked at. -/
def create (directory : Directory) (path : String) (content : ByteArray) :
    Except FileError Directory :=
  match directory.locate path with
  | .error failure => .error failure
  | .ok (.folder _) => .error .exists
  | .ok (.entry _ _ true) => .error .isDirectory
  | .ok (.entry folder name false) =>
    match directory.look folder name with
    | .error failure => .error failure
    | .ok (some _) => .error .exists
    | .ok none => .ok (directory.set (folder ++ [name]) (.file content))

/-- Give a file new contents, creating it if it does not exist.  A slash behind its
name is refused before the name is looked at. -/
def overwrite (directory : Directory) (path : String) (content : ByteArray) :
    Except FileError Directory :=
  match directory.locate path with
  | .error failure => .error failure
  | .ok (.folder _) => .error .isDirectory
  | .ok (.entry _ _ true) => .error .isDirectory
  | .ok (.entry folder name false) =>
    match directory.look folder name with
    | .error failure => .error failure
    | .ok (some .folder) => .error .isDirectory
    | .ok _ => .ok (directory.set (folder ++ [name]) (.file content))

/-- Create a folder that does not exist. -/
def createFolder (directory : Directory) (path : String) : Except FileError Directory :=
  match directory.locate path with
  | .error failure => .error failure
  | .ok (.folder _) => .error .exists
  | .ok (.entry folder name _) =>
    match directory.look folder name with
    | .error failure => .error failure
    | .ok (some _) => .error .exists
    | .ok none => .ok (directory.set (folder ++ [name]) .folder)

/-! ## The directory as a host -/

/-- Run an operation that changes the directory, and leave it as it was when the
operation fails. -/
def update (operation : Directory → Except FileError Directory) :
    StateM Directory (Except FileError Unit) :=
  fun directory =>
    match operation directory with
    | .error failure => (.error failure, directory)
    | .ok changed => (.ok (), changed)

/-- A directory in memory as a place where files live. -/
def host : Host (StateM Directory) where
  read := fun path directory => (directory.read path, directory)
  create := fun path content => update (·.create path content)
  overwrite := fun path content => update (·.overwrite path content)

end Directory

end LineAsm
