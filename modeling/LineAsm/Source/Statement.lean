import LineAsm.Text.Blank

/-!
# Statements: one line taken apart

A line holds at most a label, the words of an instruction and a comment, in this
order.  The comment starts at the first `//` and runs to the end of the line.  A
label is recognised in the first word of the code before it: when that word holds
a colon, the text before its first colon is the label, and the text behind the
colon, if there is any, is the first word of the instruction.  A label may
therefore be glued to the mnemonic, may be empty, and later colons are plain text.

`Statement.ofLine` takes a line apart and `Statement.render` writes a statement
with single spaces.  The code and the comment of a line are the line again
(`cutComment_append`).
-/

set_option autoImplicit false

namespace LineAsm

/-- A line taken apart. -/
structure Statement where
  /-- The name the line defines, which may be the empty text. -/
  label : Option String
  /-- The words of the instruction: the mnemonic and its operands. -/
  tokens : List String
  /-- The comment with its `//`. -/
  comment : Option String
  deriving DecidableEq, Repr, Inhabited

namespace Statement

/-! ## Comments -/

/-- The code before the first `//`, and the comment from there on. -/
def cutComment : List Char → List Char × List Char
  | [] => ([], [])
  | '/' :: '/' :: rest => ([], '/' :: '/' :: rest)
  | c :: rest => (c :: (cutComment rest).1, (cutComment rest).2)

/-- Cutting the comment off loses nothing. -/
theorem cutComment_append (line : List Char) :
    (cutComment line).1 ++ (cutComment line).2 = line := by
  fun_induction cutComment line with
  | case1 => rfl
  | case2 => rfl
  | case3 c rest _ ih => rw [List.cons_append, ih]

/-- The part of a line before its comment. -/
def codeOf (line : String) : String :=
  String.ofList (cutComment line.toList).1

/-! ## Labels -/

/-- Split the label off the words of a line. -/
def cutLabel : List (List Char) → Option (List Char) × List (List Char)
  | [] => (none, [])
  | first :: later =>
    if ':' ∈ first then
      let behind := (first.dropWhile (· != ':')).drop 1
      (some (first.takeWhile (· != ':')), if behind.isEmpty then later else behind :: later)
    else (none, first :: later)

/-! ## Reading and writing -/

/-- Take a line apart. -/
def ofLine (line : String) : Statement :=
  let (code, comment) := cutComment line.toList
  let (label, tokens) := cutLabel (Text.words code)
  { label := label.map String.ofList
    tokens := tokens.map String.ofList
    comment := if comment.isEmpty then none else some (String.ofList comment) }

/-- Write a statement: the label with a colon and a space, the words with single
spaces between them, and the comment after a space. -/
def render (statement : Statement) : String :=
  let label := match statement.label with
    | some name => name ++ ": "
    | none => ""
  let comment := match statement.comment with
    | some text => " " ++ text
    | none => ""
  label ++ " ".intercalate statement.tokens ++ comment

end Statement

end LineAsm
