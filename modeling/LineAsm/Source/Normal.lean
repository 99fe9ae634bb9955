import LineAsm.Text.Blank
import LineAsm.Text.Lines

/-!
# Normal lines: the address space of a program

Lines are addressed by position, counted from one, and only lines that are kept
by `normalize` have a position.  Carriage returns at the end and spaces and tabs
at the start of a line are stripped; what is then blank, or starts with `//`, is
dropped and takes no address.
-/

set_option autoImplicit false

namespace LineAsm.Source

/-- Strip carriage returns from the end of a line and indentation from its start. -/
def strip (line : List Char) : List Char :=
  (Text.dropTrailing (· == '\r') line).dropWhile fun c => c == ' ' || c == '\t'

/-- Whether a line is a comment from its first character on. -/
def isComment : List Char → Bool
  | '/' :: '/' :: _ => true
  | _ => false

/-- A stripped line is kept when it is neither blank nor a comment. -/
def isKept (stripped : List Char) : Bool :=
  !Text.allBlank stripped && !isComment stripped

/-- The lines of a program that have an address, stripped and in order. -/
def normalize (lines : List String) : List String :=
  ((lines.map fun line => strip line.toList).filter isKept).map String.ofList

/-- The addressed lines of a text. -/
def normalLines (text : String) : List String :=
  normalize (Text.lines text)

end LineAsm.Source
