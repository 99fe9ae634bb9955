import LineAsm.Text.Blank
import LineAsm.Text.Decimal

/-!
# Reading JSON one level deep

A reader for JSON documents of which only the outermost members or elements are
looked at.  The values below are checked against the grammar of JSON and kept as
they are written; the names of the outermost members are decoded.

The grammar is the strict one: four blanks, no comments, no trailing commas, no
leading zeros, no bare control characters in texts.  Values may be nested to any
depth.  A lone surrogate is an error in a decoded name and nowhere else.
-/

set_option autoImplicit false

namespace LineAsm

/-- A JSON document read one level deep: its values are kept as they are written. -/
inductive FlatJson where
  | object (members : List (String × String))
  | array (elements : List String)
  deriving DecidableEq, Repr, Inhabited

namespace FlatJson

/-! ## Blanks, texts and numbers -/

/-- The characters that may stand between the parts of a document. -/
def isSpace (c : Char) : Bool := c = ' ' || c = '\t' || c = '\n' || c = '\r'

/-- Skip the blanks at the start of a text. -/
def skipSpace (text : List Char) : List Char := text.dropWhile isSpace

/-- The value of a hexadecimal digit. -/
def hexDigit? (c : Char) : Option Nat :=
  if c.isDigit then some (c.toNat - '0'.toNat)
  else if 'a' ≤ c && c ≤ 'f' then some (c.toNat - 'a'.toNat + 10)
  else if 'A' ≤ c && c ≤ 'F' then some (c.toNat - 'A'.toNat + 10)
  else none

/-- The number written by four hexadecimal digits. -/
def hexUnit? (a b c d : Char) : Option Nat := do
  return (((← hexDigit? a) * 16 + (← hexDigit? b)) * 16 + (← hexDigit? c)) * 16 + (← hexDigit? d)

/-- The characters that an escape of one letter stands for. -/
def shortEscape? : Char → Option Char
  | '"' => some '"'
  | '\\' => some '\\'
  | '/' => some '/'
  | 'b' => some '\x08'
  | 'f' => some '\x0c'
  | 'n' => some '\n'
  | 'r' => some '\r'
  | 't' => some '\t'
  | _ => none

/-- Read a text from behind its opening quotation mark: its characters as they are
written, and what follows the closing mark. -/
def rawText? : List Char → Option (List Char × List Char)
  | [] => none
  | '"' :: rest => some ([], rest)
  | '\\' :: 'u' :: a :: b :: c :: d :: rest =>
    match hexUnit? a b c d with
    | none => none
    | some _ => (rawText? rest).map fun (raw, after) =>
      ('\\' :: 'u' :: a :: b :: c :: d :: raw, after)
  | '\\' :: c :: rest =>
    match shortEscape? c with
    | none => none
    | some _ => (rawText? rest).map fun (raw, after) => ('\\' :: c :: raw, after)
  | c :: rest =>
    if c.toNat < 32 then none else (rawText? rest).map fun (raw, after) => (c :: raw, after)

/-- Decode the characters of a text.  Two escapes that form a surrogate pair stand
for one character, and a surrogate alone stands for none. -/
def decode? : List Char → Option (List Char)
  | [] => some []
  | '\\' :: 'u' :: a :: b :: c :: d :: rest =>
    match hexUnit? a b c d with
    | none => none
    | some high =>
      if 0xD800 ≤ high ∧ high < 0xDC00 then
        match rest with
        | '\\' :: 'u' :: e :: f :: g :: h :: rest =>
          match hexUnit? e f g h with
          | none => none
          | some low =>
            if 0xDC00 ≤ low ∧ low < 0xE000 then
              (decode? rest).map fun later =>
                Char.ofNat (0x10000 + (high - 0xD800) * 0x400 + (low - 0xDC00)) :: later
            else none
        | _ => none
      else if 0xDC00 ≤ high ∧ high < 0xE000 then none
      else (decode? rest).map fun later => Char.ofNat high :: later
  | '\\' :: c :: rest =>
    match shortEscape? c with
    | none => none
    | some meant => (decode? rest).map fun later => meant :: later
  | c :: rest => (decode? rest).map fun later => c :: later

/-- Skip at least one digit. -/
def skipDigits? : List Char → Option (List Char)
  | c :: rest => if c.isDigit then some (rest.dropWhile Char.isDigit) else none
  | [] => none

/-- Skip the fraction of a number, if it has one. -/
def skipFraction? : List Char → Option (List Char)
  | '.' :: rest => skipDigits? rest
  | text => some text

/-- Skip the exponent of a number, if it has one. -/
def skipExponent? : List Char → Option (List Char)
  | c :: rest =>
    if c = 'e' || c = 'E' then
      match rest with
      | '+' :: digits => skipDigits? digits
      | '-' :: digits => skipDigits? digits
      | digits => skipDigits? digits
    else some (c :: rest)
  | [] => some []

/-- Skip the integer part of a number: a zero, or digits that do not start with
one. -/
def skipInteger? : List Char → Option (List Char)
  | '0' :: rest => some rest
  | text => skipDigits? text

/-- Skip a number. -/
def skipNumber? (text : List Char) : Option (List Char) :=
  let unsigned := match text with
    | '-' :: rest => rest
    | text => text
  (skipInteger? unsigned).bind fun rest => (skipFraction? rest).bind skipExponent?

/-! ## Values -/

/-- Skip a value that is neither an array nor an object. -/
def skipScalar? : List Char → Option (List Char)
  | '"' :: rest => (rawText? rest).map (·.2)
  | 'n' :: 'u' :: 'l' :: 'l' :: rest => some rest
  | 't' :: 'r' :: 'u' :: 'e' :: rest => some rest
  | 'f' :: 'a' :: 'l' :: 's' :: 'e' :: rest => some rest
  | text => skipNumber? text

/-- Read the name of a member up to its colon: the name as it is written, and what
follows the colon and the blanks behind it. -/
def memberName? (text : List Char) : Option (List Char × List Char) :=
  match skipSpace text with
  | '"' :: rest =>
    (rawText? rest).bind fun (name, behindName) =>
      match skipSpace behindName with
      | ':' :: behindColon => some (name, skipSpace behindColon)
      | _ => none
  | _ => none

/-- What a value may stand in. -/
inductive Enclosure where
  | array | object
  deriving DecidableEq, Repr, Inhabited

/-- Skip to the first value of a member or an element behind a comma or an opening
bracket. -/
def toValue? (enclosure : Enclosure) (text : List Char) : Option (List Char) :=
  match enclosure with
  | .array => some (skipSpace text)
  | .object => (memberName? text).map (·.2)

mutual

/-- Skip a value that starts at the first character, and then the rest of the arrays
and objects it stands in, which are given innermost first. -/
def skipValue? : Nat → List Enclosure → List Char → Option (List Char)
  | 0, _, _ => none
  | budget + 1, enclosures, text =>
    match text with
    | '[' :: inner =>
      match skipSpace inner with
      | ']' :: rest => skipRest? budget enclosures rest
      | inner => skipValue? budget (.array :: enclosures) inner
    | '\x7b' :: inner =>
      match skipSpace inner with
      | '\x7d' :: rest => skipRest? budget enclosures rest
      | inner =>
        match toValue? .object inner with
        | some value => skipValue? budget (.object :: enclosures) value
        | none => none
    | text =>
      match skipScalar? text with
      | some rest => skipRest? budget enclosures rest
      | none => none

/-- Skip from behind a value to the end of the arrays and objects it stands in. -/
def skipRest? : Nat → List Enclosure → List Char → Option (List Char)
  | 0, _, _ => none
  | _ + 1, [], text => some text
  | budget + 1, enclosure :: outer, text =>
    match enclosure, skipSpace text with
    | .array, ']' :: rest => skipRest? budget outer rest
    | .object, '\x7d' :: rest => skipRest? budget outer rest
    | enclosure, ',' :: rest =>
      match toValue? enclosure rest with
      | some value => skipValue? budget (enclosure :: outer) value
      | none => none
    | _, _ => none

end

/-- Skip one value that starts at the first character.  At least one character is
passed between one step and the next, so the length of the text bounds the steps. -/
def skipOne? (text : List Char) : Option (List Char) :=
  skipValue? (2 * text.length + 2) [] text

/-- The characters that were read when `rest` is what is left. -/
def consumed (text rest : List Char) : String :=
  String.ofList (text.take (text.length - rest.length))

/-- Read the elements of an array that has at least one, up to the closing bracket:
the elements as they are written, and what follows the bracket. -/
def elements? : Nat → List Char → Option (List String × List Char)
  | 0, _ => none
  | budget + 1, text =>
    let text := skipSpace text
    (skipOne? text).bind fun rest =>
      match skipSpace rest with
      | ']' :: after => some ([consumed text rest], after)
      | ',' :: after =>
        (elements? budget after).map fun (later, after) => (consumed text rest :: later, after)
      | _ => none

/-- Read the members of an object that has at least one, up to the closing bracket:
their names and values as they are written, and what follows the bracket. -/
def members? : Nat → List Char → Option (List (List Char × String) × List Char)
  | 0, _ => none
  | budget + 1, text =>
    (memberName? text).bind fun (name, text) =>
      (skipOne? text).bind fun rest =>
        match skipSpace rest with
        | '\x7d' :: after => some ([(name, consumed text rest)], after)
        | ',' :: after =>
          (members? budget after).map fun (later, after) =>
            ((name, consumed text rest) :: later, after)
        | _ => none

/-! ## Documents -/

/-- The members of an object with their names decoded. -/
def decodeNames? : List (List Char × String) → Option (List (String × String))
  | [] => some []
  | (name, value) :: later => do
    return (String.ofList (← decode? name), value) :: (← decodeNames? later)

/-- The value read from a whole text, when only blanks follow it. -/
def atEnd? {α : Type} : Option (α × List Char) → Option α
  | some (value, after) => if (skipSpace after).isEmpty then some value else none
  | none => none

/-- Read a whole document that is an object or an array. -/
def ofText? (text : String) : Option FlatJson :=
  let whole := text.toList
  match skipSpace whole with
  | '\x7b' :: inner =>
    match skipSpace inner with
    | '\x7d' :: after => atEnd? (some (.object [], after))
    | inner =>
      (atEnd? (members? whole.length inner)).bind fun members =>
        (decodeNames? members).map .object
  | '[' :: inner =>
    match skipSpace inner with
    | ']' :: after => atEnd? (some (.array [], after))
    | inner => (atEnd? (elements? whole.length inner)).map .array
  | _ => none

end FlatJson

end LineAsm
