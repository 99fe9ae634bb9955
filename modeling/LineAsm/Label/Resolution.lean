import LineAsm.Label.Table
import LineAsm.Opcode
import LineAsm.Text.Decimal

/-!
# Resolving label operands

Jumps and calls name their targets by label.  Resolving replaces the operand of
each of them by the number of the line that defines the label, and leaves every
line without such an operand as it is.

Programs come in two forms.  In a source every operand is a label, so a label may
be a number.  In an artifact an operand of digits is a line number already and is
kept, even where a label of that name exists.
-/

set_option autoImplicit false

namespace LineAsm

/-- The form in which a program is given. -/
inductive ProgramForm where
  /-- Written by hand: every jump operand is a label. -/
  | source
  /-- Resolved: a jump operand of digits is a line number. -/
  | artifact
  deriving DecidableEq, Repr, Inhabited

namespace Statement

/-- The place of the operand that names a line, when the statement is a jump or a
call. -/
def labelPlace? (statement : Statement) : Option Nat :=
  statement.tokens.head?.bind fun word => (Opcode.ofMnemonic? word).bind Opcode.labelPlace?

end Statement

namespace LabelTable

/-- Whether an operand is a line number already. -/
def isResolved (form : ProgramForm) (operand : String) : Bool :=
  form = .artifact && Text.isDigits operand.toList

/-- The operand as a line number in decimal. -/
def resolveOperand (table : LabelTable) (form : ProgramForm) (line : Nat) (operand : String) :
    Except LinkError String :=
  if isResolved form operand then .ok operand
  else match table.line? operand with
    | none => .error (.undefinedLabel operand line)
    | some target => .ok (toString target)

/-- Resolve the label operand of one line, if it has one. -/
def resolveLine (table : LabelTable) (form : ProgramForm) (line : Nat) (text : String) :
    Except LinkError String :=
  let statement := Statement.ofLine text
  match statement.labelPlace? with
  | none => .ok text
  | some place =>
    match statement.tokens[place]? with
    | none => .error (.missingOperand (statement.tokens.headD "") line)
    | some operand =>
      match table.resolveOperand form line operand with
      | .error failure => .error failure
      | .ok resolved =>
        .ok { statement with tokens := statement.tokens.set place resolved }.render

/-- Resolve consecutive lines, the first of which has the given number. -/
def resolveFrom (table : LabelTable) (form : ProgramForm) (line : Nat) :
    List String → Except LinkError (List String)
  | [] => .ok []
  | text :: later =>
    match table.resolveLine form line text with
    | .error failure => .error failure
    | .ok resolved =>
      match table.resolveFrom form (line + 1) later with
      | .error failure => .error failure
      | .ok rest => .ok (resolved :: rest)

/-- Resolve the label operands of all lines, or give the first error. -/
def resolve (table : LabelTable) (form : ProgramForm) (lines : List String) :
    Except LinkError (List String) :=
  table.resolveFrom form 1 lines

end LabelTable

/-- The labels of a program's lines and the lines with their operands resolved.
Every label is collected before the first operand is resolved. -/
def link (form : ProgramForm) (lines : List String) :
    Except LinkError (LabelTable × List String) := do
  let table ← LabelTable.ofLines lines
  let resolved ← table.resolve form lines
  return (table, resolved)

end LineAsm
