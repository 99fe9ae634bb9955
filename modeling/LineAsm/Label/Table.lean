import LineAsm.Source.Statement

/-!
# Label tables

A label table says at which line each label is defined.  It is built from the
addressed lines of a program in one pass (`LabelTable.ofLines?`), which fails at the
first line whose label is empty or was defined before.  The entries stand in the
order of the names, by code point.
-/

set_option autoImplicit false

namespace LineAsm

/-! ## Errors -/

/-- Why labels could not be collected or operands not be resolved. -/
inductive LinkError where
  | duplicateLabel (name : String) (firstLine line : Nat)
  | undefinedLabel (name : String) (line : Nat)
  | missingOperand (mnemonic : String) (line : Nat)
  | emptyLabel (line : Nat)
  deriving DecidableEq, Repr, Inhabited

/-- The wording of an error, which starts with the line it arose at. -/
def LinkError.message : LinkError → String
  | .duplicateLabel name firstLine line =>
    "line " ++ toString line ++ ": label '" ++ name ++ "' already defined at line "
      ++ toString firstLine
  | .undefinedLabel name line =>
    "line " ++ toString line ++ ": label '" ++ name ++ "' was not defined"
  | .missingOperand mnemonic line =>
    "line " ++ toString line ++ ": " ++ mnemonic ++ " is missing its label operand"
  | .emptyLabel line => "line " ++ toString line ++ ": empty label name"

/-! ## Tables -/

/-- The labels of a program with the lines that define them. -/
structure LabelTable where
  /-- Names and lines, in ascending order of the names. -/
  entries : List (String × Nat)
  deriving DecidableEq, Repr, Inhabited

namespace LabelTable

/-- The table without labels. -/
def empty : LabelTable := ⟨[]⟩

/-- The line that defines a label. -/
def line? (table : LabelTable) (name : String) : Option Nat :=
  table.entries.lookup name

/-- The label defined at a line; the first by name if there are several. -/
def nameAt? (table : LabelTable) (line : Nat) : Option String :=
  (table.entries.find? (·.2 == line)).map (·.1)

/-- How many labels a table has. -/
def size (table : LabelTable) : Nat := table.entries.length

/-- Put an entry at its place among entries ordered by name. -/
def insertEntry (name : String) (line : Nat) : List (String × Nat) → List (String × Nat)
  | [] => [(name, line)]
  | entry :: later =>
    if name < entry.1 then (name, line) :: entry :: later
    else entry :: insertEntry name line later

/-- Add a label that the table does not have. -/
def insert (table : LabelTable) (name : String) (line : Nat) : LabelTable :=
  ⟨insertEntry name line table.entries⟩

/-- Add the label of one line to a table, if the line has one. -/
def define (table : LabelTable) (line : Nat) (text : String) : Except LinkError LabelTable :=
  match (Statement.ofLine text).label with
  | none => .ok table
  | some name =>
    if name.isEmpty then .error (.emptyLabel line)
    else match table.line? name with
      | some firstLine => .error (.duplicateLabel name firstLine line)
      | none => .ok (table.insert name line)

/-- Add the labels of consecutive lines, the first of which has the given number. -/
def defineAll (table : LabelTable) (line : Nat) : List String → Except LinkError LabelTable
  | [] => .ok table
  | text :: later =>
    match table.define line text with
    | .error failure => .error failure
    | .ok extended => extended.defineAll (line + 1) later

/-- The labels of a program's lines, or the first error. -/
def ofLines (lines : List String) : Except LinkError LabelTable :=
  empty.defineAll 1 lines

/-- The labels by line, and by name where a line has several. -/
def byLine (table : LabelTable) : List (String × Nat) :=
  table.entries.mergeSort fun first second => first.2 ≤ second.2

end LabelTable

end LineAsm
