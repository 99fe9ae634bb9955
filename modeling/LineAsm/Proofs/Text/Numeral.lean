import LineAsm.Text.Decimal
import Mathlib.Data.List.Induction

/-!
# Numerals

A numeral is a row of ASCII digits.  Its number is ten times the number of the digits before
the last one, and the last digit (`Numeral`).  A signed numeral may have one sign in front of
its digits (`SignedNumeral`).  The rules say which texts there are and what they stand for,
and not how they are read.

Each reader of decimal numbers takes the numerals of its kind and no other text, however many
zeros they start with (`natural?_eq_some_iff`, `integer?_eq_some_iff`).  A word of 32 bits is
written by the signed numerals of its own number (`word32?_eq_some_iff`), so that a numeral is
refused just when no word has its number.

A number that is written in decimal is a numeral of that number (`numeral_toString`,
`signedNumeral_toString`).
-/

set_option autoImplicit false

namespace LineAsm.Text

/-! ## Digits alone -/

/-- A row of digits and the number that it writes. -/
inductive Numeral : List Char → Nat → Prop where
  | digit {c : Char} (isDigit : c.isDigit = true) : Numeral [c] (c.toNat - '0'.toNat)
  | append {digits : List Char} {value : Nat} (earlier : Numeral digits value) {c : Char}
      (isDigit : c.isDigit = true) :
      Numeral (digits ++ [c]) (10 * value + (c.toNat - '0'.toNat))

theorem Numeral.isDigits {text : List Char} {value : Nat} (numeral : Numeral text value) :
    isDigits text = true := by
  rw [Text.isDigits]
  induction numeral with
  | digit isDigit => simpa using isDigit
  | append _ isDigit ih => simp_all

theorem Numeral.ofDigitChars {text : List Char} {value : Nat} (numeral : Numeral text value) :
    Nat.ofDigitChars 10 text 0 = value := by
  induction numeral with
  | digit isDigit => simp [Nat.ofDigitChars_cons]
  | append _ isDigit ih => simp [Nat.ofDigitChars_append, Nat.ofDigitChars_cons, ih]

/-- Any row of digits is a numeral. -/
theorem numeral_of_isDigits {text : List Char} (digits : isDigits text = true) :
    Numeral text (Nat.ofDigitChars 10 text 0) := by
  induction text using List.reverseRecOn with
  | nil => cases digits
  | append_singleton earlier c ih =>
      have all := (Bool.and_eq_true_iff.mp digits).2
      rw [List.all_append, Bool.and_eq_true] at all
      have isDigit : c.isDigit = true := by simpa using all.2
      rw [Nat.ofDigitChars_append, Nat.ofDigitChars_cons, Nat.ofDigitChars_nil]
      cases earlier with
      | nil => simpa using Numeral.digit isDigit
      | cons first earlier => exact .append (ih (Bool.and_eq_true_iff.mpr ⟨rfl, all.1⟩)) isDigit

/-- **Digits are read as the number that they write.** -/
theorem natural?_eq_some_iff {text : List Char} {value : Nat} :
    natural? text = some value ↔ Numeral text value := by
  constructor
  · intro read
    rw [natural?] at read
    split at read
    · rename_i digits
      obtain rfl := Option.some.inj read
      exact numeral_of_isDigits digits
    · cases read
  · intro numeral
    rw [natural?, if_pos numeral.isDigits, numeral.ofDigitChars]

/-- A numeral starts with a digit. -/
theorem Numeral.isDigit_of_cons {c : Char} {rest : List Char} {value : Nat}
    (numeral : Numeral (c :: rest) value) : c.isDigit = true := by
  have all := (Bool.and_eq_true_iff.mp numeral.isDigits).2
  exact List.all_eq_true.mp all c (.head rest)

/-! ## Digits with a sign -/

/-- A row of digits with at most one sign in front, and the number that it writes. -/
inductive SignedNumeral : List Char → Int → Prop where
  | unsigned {digits : List Char} {magnitude : Nat} (numeral : Numeral digits magnitude) :
      SignedNumeral digits magnitude
  | plus {digits : List Char} {magnitude : Nat} (numeral : Numeral digits magnitude) :
      SignedNumeral ('+' :: digits) magnitude
  | minus {digits : List Char} {magnitude : Nat} (numeral : Numeral digits magnitude) :
      SignedNumeral ('-' :: digits) (-magnitude)

/-- **Digits with a sign are read as the number that they write.** -/
theorem integer?_eq_some_iff {text : List Char} {value : Int} :
    integer? text = some value ↔ SignedNumeral text value := by
  constructor
  · intro read
    unfold integer? at read
    split at read <;> obtain ⟨magnitude, natural, rfl⟩ := Option.map_eq_some_iff.mp read
    · exact .plus (natural?_eq_some_iff.mp natural)
    · exact .minus (natural?_eq_some_iff.mp natural)
    · exact .unsigned (natural?_eq_some_iff.mp natural)
  · intro numeral
    cases numeral with
    | plus numeral | minus numeral => simp [integer?, natural?_eq_some_iff.mpr numeral]
    | unsigned numeral =>
        unfold integer?
        split
        · exact absurd numeral.isDigit_of_cons (by decide)
        · exact absurd numeral.isDigit_of_cons (by decide)
        · simp [natural?_eq_some_iff.mpr numeral]

/-- **A word is read from the signed numerals of its number**, and from no other text. -/
theorem word32?_eq_some_iff {text : List Char} {value : Int32} :
    word32? text = some value ↔ SignedNumeral text value.toInt := by
  rw [← integer?_eq_some_iff, word32?, Option.bind_eq_some_iff]
  constructor
  · rintro ⟨number, read, fits⟩
    split at fits
    · rename_i inside
      obtain rfl := Option.some.inj fits
      rw [read, Int32.toInt_ofInt_of_le inside.1 (Int.lt_add_one_of_le inside.2)]
    · cases fits
  · intro read
    refine ⟨value.toInt, read, ?_⟩
    rw [if_pos ⟨value.minValue_le_toInt, value.toInt_le⟩, Int32.ofInt_toInt]

/-! ## Numbers in decimal -/

/-- A number in decimal is a numeral of it. -/
theorem numeral_toString (number : Nat) : Numeral (toString number).toList number :=
  natural?_eq_some_iff.mp (by simpa using natural?_toDigits number)

/-- An integer in decimal is a signed numeral of it. -/
theorem signedNumeral_toString (number : Int) :
    SignedNumeral (toString number).toList number := by
  cases number with
  | ofNat magnitude => exact .unsigned (numeral_toString magnitude)
  | negSucc magnitude =>
      have written : (toString (Int.negSucc magnitude)).toList =
          '-' :: (toString (magnitude + 1)).toList :=
        String.toList_append
      rw [written]
      exact .minus (numeral_toString (magnitude + 1))

end LineAsm.Text
