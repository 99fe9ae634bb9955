/-!
# Decimal numbers

Readers for the decimal spellings that occur in programs and on command lines.
All of them take ASCII digits only and at least one of them; leading zeros are
free.  They differ in the sign they admit and in the range they check:

* `natural?` admits no sign and checks no range;
* `integer?` admits one leading `+` or `-`;
* `word32?` is `integer?` within the range of a signed 32-bit word;
* `unsignedBelow?` admits a leading `+` and checks an upper bound.

Writing a natural number and reading it again gives the number back
(`natural?_toDigits`).
-/

set_option autoImplicit false

namespace LineAsm.Text

/-- A non-empty text of ASCII digits. -/
def isDigits (text : List Char) : Bool :=
  !text.isEmpty && text.all Char.isDigit

/-- The number written by a non-empty text of ASCII digits. -/
def natural? (text : List Char) : Option Nat :=
  if isDigits text then some (Nat.ofDigitChars 10 text 0) else none

/-- The number written by digits after an optional sign. -/
def integer? : List Char → Option Int
  | '+' :: digits => (natural? digits).map Int.ofNat
  | '-' :: digits => (natural? digits).map fun magnitude => -Int.ofNat magnitude
  | digits => (natural? digits).map Int.ofNat

/-- The signed 32-bit word written by digits after an optional sign. -/
def word32? (text : List Char) : Option Int32 :=
  (integer? text).bind fun value =>
    if Int32.minValue.toInt ≤ value ∧ value ≤ Int32.maxValue.toInt then some (Int32.ofInt value)
    else none

/-- The number below `bound` written by digits after an optional `+`. -/
def unsignedBelow? (bound : Nat) (text : List Char) : Option Nat :=
  let digits := match text with
    | '+' :: digits => digits
    | digits => digits
  (natural? digits).bind fun value => if value < bound then some value else none

/-- Writing in decimal and reading back gives the number. -/
theorem natural?_toDigits (n : Nat) : natural? (Nat.toDigits 10 n) = some n := by
  have digits : isDigits (Nat.toDigits 10 n) = true := by
    simp only [isDigits, Bool.and_eq_true, Bool.not_eq_true', List.isEmpty_eq_false_iff,
      List.all_eq_true]
    exact ⟨Nat.toDigits_ne_nil, fun c mem =>
      Nat.isDigit_of_mem_toDigits (by decide) (by decide) mem⟩
  rw [natural?, if_pos digits, Nat.ofDigitChars_toDigits (by decide) (by decide)]

end LineAsm.Text
