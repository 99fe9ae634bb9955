/-!
# Columns

Texts filled with spaces to a width, counted in characters.  A text that is wider
already stays as it is.
-/

set_option autoImplicit false

namespace LineAsm.Text

/-- Spaces that fill a text to a width. -/
def filling (width : Nat) (text : String) : String :=
  String.ofList (List.replicate (width - text.length) ' ')

/-- The text at the right end of a column. -/
def alignRight (width : Nat) (text : String) : String := filling width text ++ text

/-- The text at the left end of a column. -/
def alignLeft (width : Nat) (text : String) : String := text ++ filling width text

/-- A list of numbers in square brackets, with a comma and a space between them. -/
def bracketed (numbers : List Nat) : String :=
  "[" ++ ", ".intercalate (numbers.map toString) ++ "]"

end LineAsm.Text
