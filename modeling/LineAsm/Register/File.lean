import LineAsm.Register

/-!
# The register file

Sixty signed 32-bit words, one for each register, all zero at the start.  A
register is read and written through its cell; a register whose cell would lie
outside the row reads as zero and takes no value, which no valid register does.
-/

set_option autoImplicit false

namespace LineAsm

/-- How many cells a register file has. -/
def RegisterFile.size : Nat := 60

/-- The values of all registers, in one row of cells. -/
structure RegisterFile where
  cells : Vector Int32 RegisterFile.size
  deriving DecidableEq, Repr

namespace RegisterFile

/-- The register file in which every register holds zero. -/
def fresh : RegisterFile := ⟨Vector.replicate size 0⟩

instance : Inhabited RegisterFile := ⟨fresh⟩

/-- The value of a register. -/
def get (file : RegisterFile) (register : Register) : Int32 :=
  (file.cells[register.slot]?).getD 0

/-- Give a register a value. -/
def put (file : RegisterFile) (register : Register) (value : Int32) : RegisterFile :=
  ⟨file.cells.setIfInBounds register.slot value⟩

/-- Give a register the value zero. -/
def free (file : RegisterFile) (register : Register) : RegisterFile :=
  file.put register 0

/-- Exchange the values of two registers; both are read before either is written. -/
def swap (file : RegisterFile) (first second : Register) : RegisterFile :=
  (file.put first (file.get second)).put second (file.get first)

/-- All registers, by bank and then by index. -/
def registers : List Register :=
  Bank.all.flatMap fun bank => (List.range Bank.size).map fun index => ⟨bank, index⟩

/-- The registers that do not hold zero, with their values, by bank and index. -/
def nonzero (file : RegisterFile) : List (Register × Int32) :=
  (registers.map fun register => (register, file.get register)).filter (·.2 != 0)

/-! ## Reading after writing -/

theorem slot_lt {register : Register} (valid : register.Valid) : register.slot < size := by
  have := Bank.position_lt register.bank
  have : register.index < 10 := valid
  simp only [Register.slot, Bank.size, size]
  omega

@[simp]
theorem get_fresh (register : Register) : fresh.get register = 0 := by
  simp only [get, fresh]
  rw [Vector.getElem?_replicate]
  split <;> rfl

@[simp]
theorem get_put_self (file : RegisterFile) {register : Register} (valid : register.Valid)
    (value : Int32) : (file.put register value).get register = value := by
  simp [get, put, Vector.getElem?_setIfInBounds_self_of_lt (slot_lt valid)]

theorem get_put_of_ne (file : RegisterFile) {register other : Register} (valid : register.Valid)
    (otherValid : other.Valid) (different : other ≠ register) (value : Int32) :
    (file.put register value).get other = file.get other := by
  have slots : register.slot ≠ other.slot := fun same =>
    different (Register.slot_injective otherValid valid same.symm)
  simp [get, put, Vector.getElem?_setIfInBounds_ne slots]

/-! ## The register table -/

/-- One row of the table: the registers of one index in every bank. -/
def tableRow (file : RegisterFile) (index : Nat) : String :=
  String.join (Bank.all.map fun bank =>
    let register : Register := ⟨bank, index⟩
    register.text ++ ": " ++ toString (file.get register) ++ "\t") ++ "\n"

/-- The table of all registers: ten rows of six, without a line feed at the end. -/
def table (file : RegisterFile) : String :=
  "----------------- Registers -----------------\n"
    ++ String.join ((List.range Bank.size).map file.tableRow)
    ++ "-------------------- END --------------------"

end RegisterFile

end LineAsm
