import LineAsm.Instruction.Rendering
import LineAsm.Program
import LineAsm.Text.Columns
import LineAsm.Text.Json

/-!
# Listings

The lines of a program with their numbers, labels, resolved texts and canonical
instructions.
-/

set_option autoImplicit false

namespace LineAsm

/-- One line of a listing. -/
structure ListingRow where
  line : Nat
  label : Option String
  /-- The resolved text of the line. -/
  text : String
  /-- The canonical text of its instruction. -/
  instruction : String
  deriving DecidableEq, Repr, Inhabited

/-- The row of a line. -/
def ListingRow.ofLine (labels : LabelTable) (number : Nat) (line : Line) : ListingRow where
  line := number
  label := labels.nameAt? number
  text := line.text
  instruction := line.instruction.text

/-- A listing row for people: the label, if there is one, stands on a line of its
own. -/
def ListingRow.display (row : ListingRow) : String :=
  let label := match row.label with
    | none => ""
    | some name => Text.alignRight 4 (toString row.line) ++ " <" ++ name ++ ">:\n"
  label ++ Text.alignRight 4 (toString row.line) ++ ": " ++ row.instruction ++ "\n"

/-- A listing row as an object. -/
def ListingRow.document (row : ListingRow) : Json :=
  .object [("line", .natural row.line), ("label", (row.label.map Json.text).getD .null),
    ("text", .text row.text), ("instr", .text row.instruction)]

namespace Program

/-- The rows of a program's listing. -/
def listing (program : Program) : List ListingRow :=
  (program.lines.toList.zipIdx 1).map fun (line, number) =>
    ListingRow.ofLine program.labels number line

/-- The listing of a program for people. -/
def listingText (program : Program) : String :=
  String.join (program.listing.map (·.display))

/-- The listing of a program as a document. -/
def listingDocument (program : Program) : Json :=
  .array (program.listing.map (·.document))

end Program

end LineAsm
