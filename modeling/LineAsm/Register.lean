import LineAsm.Text.Decimal

/-!
# Registers

A register is named by the letter of its bank and one digit.  There are six banks
of ten registers, and each register has a cell of its own in one row of sixty
(`Register.slot_injective`).

The index is a plain number, because instructions that were not read from text
may carry any index; `Register.Valid` says that it is a digit.  Every register
read from text is valid (`Register.valid_of_ofText?`), and the text of a valid
register reads back (`Register.ofText?_text`).
-/

set_option autoImplicit false

namespace LineAsm

/-! ## Banks -/

/-- The six banks of registers. -/
inductive Bank where
  | a | b | c | d | e | z
  deriving DecidableEq, Repr, Inhabited

namespace Bank

/-- The banks in the order of their cells. -/
def all : List Bank := [.a, .b, .c, .d, .e, .z]

/-- The letter that names a bank. -/
def letter : Bank → Char
  | .a => 'A'
  | .b => 'B'
  | .c => 'C'
  | .d => 'D'
  | .e => 'E'
  | .z => 'Z'

/-- The bank named by a letter. -/
def ofLetter? (letter : Char) : Option Bank :=
  all.find? (·.letter == letter)

/-- The position of a bank in the row of cells. -/
def position : Bank → Nat
  | .a => 0
  | .b => 1
  | .c => 2
  | .d => 3
  | .e => 4
  | .z => 5

/-- How many registers a bank has. -/
def size : Nat := 10

theorem mem_all (bank : Bank) : bank ∈ all := by
  cases bank <;> decide

theorem ofLetter?_letter (bank : Bank) : ofLetter? bank.letter = some bank := by
  cases bank <;> decide

theorem position_lt (bank : Bank) : bank.position < 6 := by
  cases bank <;> decide

theorem position_injective {bank other : Bank} (same : bank.position = other.position) :
    bank = other := by
  cases bank <;> cases other <;> simp [position] at same ⊢

end Bank

/-! ## Register names -/

/-- A register of a bank. -/
structure Register where
  bank : Bank
  index : Nat
  deriving DecidableEq, Repr, Inhabited

namespace Register

/-- The index of a valid register is a single digit. -/
def Valid (register : Register) : Prop := register.index < Bank.size

instance (register : Register) : Decidable register.Valid :=
  inferInstanceAs (Decidable (register.index < Bank.size))

/-- The register of a bank with the given index, if the bank has one. -/
def ofIndex? (bank : Bank) (index : Nat) : Option Register :=
  if index < Bank.size then some ⟨bank, index⟩ else none

/-- The register named by a letter and one ASCII digit. -/
def ofText? (text : String) : Option Register :=
  match text.toList with
  | [letter, digit] =>
    (Bank.ofLetter? letter).bind fun bank =>
      (Text.natural? [digit]).bind fun index => ofIndex? bank index
  | _ => none

/-- The name of a register. -/
def text (register : Register) : String :=
  String.singleton register.bank.letter ++ toString register.index

/-- The position of a register's cell in the row of all cells. -/
def slot (register : Register) : Nat :=
  register.bank.position * Bank.size + register.index

/-- Whether two registers belong to one bank. -/
def sameBank (first second : Register) : Bool :=
  first.bank = second.bank

/-- Whether the first register has the lower index; the banks play no part. -/
def isBefore (first second : Register) : Bool :=
  first.index < second.index

/-- Different valid registers have different cells. -/
theorem slot_injective {first second : Register} (firstValid : first.Valid)
    (secondValid : second.Valid) (same : first.slot = second.slot) : first = second := by
  obtain ⟨bank, index⟩ := first
  obtain ⟨bank', index'⟩ := second
  simp only [Valid, slot, Bank.size] at firstValid secondValid same
  have banks : bank.position = bank'.position := by omega
  obtain rfl := Bank.position_injective banks
  have : index = index' := by omega
  subst this
  rfl

/-- A register read from text is valid. -/
theorem valid_of_ofText? {text : String} {register : Register}
    (read : ofText? text = some register) : register.Valid := by
  unfold ofText? at read
  split at read
  · simp only [Option.bind_eq_some_iff] at read
    obtain ⟨bank, _, index, _, made⟩ := read
    unfold ofIndex? at made
    split at made
    · rename_i inside
      obtain rfl := Option.some.inj made
      exact inside
    · cases made
  · cases read

/-- The name of a valid register reads back. -/
theorem ofText?_text {register : Register} (valid : register.Valid) :
    ofText? register.text = some register := by
  obtain ⟨bank, index⟩ := register
  have small : index < 10 := valid
  have digits : Nat.toDigits 10 index = [index.digitChar] := Nat.toDigits_of_lt_base small
  have name : (text ⟨bank, index⟩).toList = [bank.letter, index.digitChar] := by
    simp [text, digits]
  have value : Text.natural? [index.digitChar] = some index :=
    digits ▸ Text.natural?_toDigits index
  unfold ofText?
  rw [name]
  simp only [Bank.ofLetter?_letter, value, Option.bind_some]
  exact if_pos small

end Register

end LineAsm
