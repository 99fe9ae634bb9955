import LineAsm.Text.Decimal

/-!
# Arguments of a command line

The words of a command line are options, which start with two dashes and may carry a
value behind an equals sign, short options, which start with one dash, the end mark
`--`, and plain words.  A single dash is a plain word.

Words are read from left to right and the first that does not fit decides: it may be
refused, or it may ask for the help or the version and end the reading there.
-/

set_option autoImplicit false

namespace LineAsm

/-- A word of a command line. -/
inductive Argument where
  /-- An option with its name and the value behind its first equals sign. -/
  | long (name : String) (attached : Option String)
  /-- Short options, of which the first letter is read. -/
  | short (letter : Char)
  /-- The mark behind which all words are plain. -/
  | endMark
  | plain (word : String)
  deriving DecidableEq, Repr, Inhabited

/-- Why the reading of a command line ended before its last word. -/
inductive Interruption where
  | refused | help | version
  deriving DecidableEq, Repr, Inhabited

namespace Argument

/-- Classify a word. -/
def ofWord (word : String) : Argument :=
  match word.toList with
  | ['-', '-'] => .endMark
  | '-' :: '-' :: text =>
    let name := String.ofList (text.takeWhile (· != '='))
    match text.dropWhile (· != '=') with
    | _ :: value => .long name (some (String.ofList value))
    | [] => .long name none
  | '-' :: letter :: _ => .short letter
  | _ => .plain word

/-- Whether a word can be the value of the option before it: it must not look like an
option itself. -/
def canBeValue (word : String) : Bool :=
  match ofWord word with
  | .plain _ => true
  | _ => false

/-! ## Values -/

/-- Read a limit: a number of 64 bits, with or without a plus sign. -/
def limit (value : String) : Except Interruption Nat :=
  match Text.unsignedBelow? UInt64.size value.toList with
  | some limit => .ok limit
  | none => .error .refused

/-- Read a path, which must not be empty. -/
def path (value : String) : Except Interruption String :=
  if value.isEmpty then .error .refused else .ok value

/-- Give an option its value, which it must not have had before. -/
def once {α : Type} (earlier : Option α) (value : α) : Except Interruption (Option α) :=
  match earlier with
  | none => .ok (some value)
  | some _ => .error .refused

/-- Set a flag, which must not have been set before. -/
def flag (earlier : Bool) : Except Interruption Bool :=
  if earlier then .error .refused else .ok true

end Argument

end LineAsm
