/-!
# JSON documents

Documents made of integers, texts, arrays and objects with their members in a given
order, and their indented form: two spaces for each level, one element or member a
line, and nothing between the brackets of an empty array or object.

In a text the quotation mark and the backslash are escaped, and so is every
character below the space; all other characters stand as they are.
-/

set_option autoImplicit false

namespace LineAsm

/-- A JSON document. -/
inductive Json where
  | null
  | integer (value : Int)
  | text (value : String)
  | array (elements : List Json)
  | object (members : List (String × Json))
  deriving Repr, Inhabited

namespace Json

/-- A natural number as a document. -/
def natural (value : Nat) : Json := .integer (Int.ofNat value)

/-- A natural number as a document, or null. -/
def optional : Option Nat → Json
  | none => .null
  | some value => natural value

/-! ## Texts -/

/-- The characters that stand for one character of a text. -/
def escape (c : Char) : List Char :=
  if c = '"' then ['\\', '"']
  else if c = '\\' then ['\\', '\\']
  else if c = '\n' then ['\\', 'n']
  else if c = '\r' then ['\\', 'r']
  else if c = '\t' then ['\\', 't']
  else if c.toNat = 8 then ['\\', 'b']
  else if c.toNat = 12 then ['\\', 'f']
  else if c.toNat < 32 then
    ['\\', 'u', '0', '0', Nat.digitChar (c.toNat / 16), Nat.digitChar (c.toNat % 16)]
  else [c]

/-- A text between quotation marks. -/
def quote (text : String) : String :=
  "\"" ++ String.ofList (text.toList.flatMap escape) ++ "\""

/-! ## The indented form -/

/-- A line feed and the indentation of a level. -/
def breakLine (level : Nat) : String :=
  "\n" ++ String.ofList (List.replicate (2 * level) ' ')

/-- Put parts that have been written for the level inside a pair of brackets. -/
def enclose (opening closing : String) (level : Nat) (parts : List String) : String :=
  if parts.isEmpty then opening ++ closing
  else
    opening ++ breakLine (level + 1) ++ ("," ++ breakLine (level + 1)).intercalate parts
      ++ breakLine level ++ closing

mutual

/-- The indented form of a document that stands at a level. -/
def indentedAt (level : Nat) : Json → String
  | .null => "null"
  | .integer value => toString value
  | .text value => quote value
  | .array elements => enclose "[" "]" level (elementsAt (level + 1) elements)
  | .object members => enclose "\x7b" "\x7d" level (membersAt (level + 1) members)

/-- The elements of an array in indented form. -/
def elementsAt (level : Nat) : List Json → List String
  | [] => []
  | element :: later => indentedAt level element :: elementsAt level later

/-- The members of an object in indented form. -/
def membersAt (level : Nat) : List (String × Json) → List String
  | [] => []
  | (name, value) :: later =>
    (quote name ++ ": " ++ indentedAt level value) :: membersAt level later

end

/-- The indented form of a document. -/
def indented (document : Json) : String := indentedAt 0 document

end Json

end LineAsm
