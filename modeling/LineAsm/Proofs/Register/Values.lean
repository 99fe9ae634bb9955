import LineAsm.Register.File
import Mathlib.Logic.Equiv.Basic

/-!
# The register file as a map

A register file stands for a function that gives each of the sixty registers its value
(`RegisterFile.values`).  Each change to the file is the same change to this function: to put a
value is to update the function at one register, and to exchange two values is to exchange the
two registers in front of it (`RegisterFile.values_put`, `RegisterFile.values_swap`,
`Change.values_onFile`).  So no two registers share a cell, and a register that is exchanged with
itself keeps its value.

The row of cells holds nothing else, since every cell is that of a register: files with the same
values are equal (`RegisterFile.values_injective`).  A file is therefore known from the registers
that do not hold zero, and is made again by putting their values into a fresh one, in any order
(`RegisterFile.putAll_of_perm_nonzero`).

All of this holds after any changes to a fresh file (`RegisterFile.refines_values`).
-/

set_option autoImplicit false

namespace LineAsm

/-! ## The sixty registers -/

/-- One of the sixty registers. -/
abbrev ValidRegister := { register : Register // register.Valid }

/-- The order of the registers: by bank, and within a bank by index. -/
def Register.Precedes (first second : Register) : Prop :=
  first.bank.position < second.bank.position ∨
    first.bank = second.bank ∧ first.index < second.index

theorem Register.Precedes.ne {first second : Register} (precedes : first.Precedes second) :
    first ≠ second := by
  rintro rfl
  rcases precedes with less | ⟨-, less⟩
  · exact Nat.lt_irrefl _ less
  · exact Nat.lt_irrefl _ less

namespace RegisterFile

/-- The sixty registers are the valid ones. -/
theorem mem_registers {register : Register} : register ∈ registers ↔ register.Valid := by
  simp only [registers, List.mem_flatMap, List.mem_map, List.mem_range]
  constructor
  · rintro ⟨bank, -, index, digit, rfl⟩
    exact digit
  · intro valid
    exact ⟨register.bank, Bank.mem_all _, register.index, valid, rfl⟩

/-- The sixty registers are listed in their order. -/
theorem pairwise_registers : registers.Pairwise Register.Precedes := by
  rw [registers, List.pairwise_flatMap]
  constructor
  · intro bank _
    rw [List.pairwise_map]
    exact List.pairwise_lt_range.imp fun less => .inr ⟨rfl, less⟩
  · have banks : Bank.all.Pairwise fun first second => first.position < second.position := by
      decide
    refine banks.imp fun less first isFirst second isSecond => .inl ?_
    obtain ⟨_, -, rfl⟩ := List.mem_map.mp isFirst
    obtain ⟨_, -, rfl⟩ := List.mem_map.mp isSecond
    exact less

/-- The cells are those of the sixty registers, one after the other. -/
theorem map_slot_registers : registers.map Register.slot = List.range size := by
  decide

/-- Every cell is that of a register. -/
theorem exists_slot_eq {place : Nat} (inside : place < size) :
    ∃ register : Register, register.Valid ∧ register.slot = place := by
  rw [← List.mem_range, ← map_slot_registers, List.mem_map] at inside
  obtain ⟨register, mem, slot⟩ := inside
  exact ⟨register, mem_registers.mp mem, slot⟩

/-! ## The function that a file stands for -/

variable {file : RegisterFile}

/-- The values of the sixty registers. -/
def values (file : RegisterFile) (register : ValidRegister) : Int32 :=
  file.get register

theorem values_fresh : fresh.values = fun _ => 0 :=
  funext fun register => get_fresh register

/-- **To put a value** is to update the values at one register. -/
theorem values_put (file : RegisterFile) (register : ValidRegister) (value : Int32) :
    (file.put register value).values = Function.update file.values register value := by
  funext other
  by_cases same : other = register
  · subst same
    rw [Function.update_self]
    exact get_put_self file other.2 value
  · rw [Function.update_of_ne same]
    exact get_put_of_ne file register.2 other.2 (fun equal => same (Subtype.ext equal)) value

/-- **To exchange two values** is to exchange the two registers. -/
theorem values_swap (file : RegisterFile) (first second : ValidRegister) :
    (file.swap first second).values = file.values ∘ Equiv.swap first second := by
  rw [swap, values_put, values_put]
  funext other
  rw [Function.comp_apply]
  -- The second register is written last, so it comes first here, also when the two are one.
  by_cases isSecond : other = second
  · rw [isSecond, Function.update_self, Equiv.swap_apply_right]
    rfl
  · rw [Function.update_of_ne isSecond]
    by_cases isFirst : other = first
    · rw [isFirst, Function.update_self, Equiv.swap_apply_left]
      rfl
    · rw [Function.update_of_ne isFirst, Equiv.swap_apply_of_ne_of_ne isFirst isSecond]

/-- **A file is its values**: files that agree on the sixty registers are equal. -/
theorem values_injective : Function.Injective values := by
  rintro ⟨cells⟩ ⟨others⟩ same
  congr 1
  refine Vector.ext fun place inside => ?_
  obtain ⟨register, valid, rfl⟩ := exists_slot_eq inside
  simpa [values, get, inside] using congrFun same ⟨register, valid⟩

/-! ## Changes -/

/-- A change to the values of the sixty registers. -/
inductive Change where
  | put (register : ValidRegister) (value : Int32)
  | free (register : ValidRegister)
  | swap (first second : ValidRegister)
  deriving DecidableEq, Repr

/-- A change to a register file. -/
def Change.onFile (file : RegisterFile) : Change → RegisterFile
  | .put register value => file.put register value
  | .free register => file.free register
  | .swap first second => file.swap first second

/-- The same change to a function that gives the registers their values. -/
def Change.onValues (values : ValidRegister → Int32) : Change → ValidRegister → Int32
  | .put register value => Function.update values register value
  | .free register => Function.update values register 0
  | .swap first second => values ∘ Equiv.swap first second

/-- **A change to a file is the same change to its values.** -/
theorem Change.values_onFile (file : RegisterFile) (change : Change) :
    (onFile file change).values = onValues file.values change := by
  cases change with
  | put register value => exact values_put file register value
  | free register => exact values_put file register 0
  | swap first second => exact values_swap file first second

/-- Changes one after the other are the same changes to the values. -/
theorem Change.values_foldl_onFile (file : RegisterFile) (changes : List Change) :
    (changes.foldl onFile file).values = changes.foldl onValues file.values := by
  induction changes generalizing file with
  | nil => rfl
  | cons change changes ih => rw [List.foldl_cons, List.foldl_cons, ih, values_onFile]

/-! ## The registers that do not hold zero -/

theorem mem_nonzero {register : Register} {value : Int32} :
    (register, value) ∈ file.nonzero ↔ register.Valid ∧ file.get register = value ∧ value ≠ 0 := by
  simp only [nonzero, List.mem_filter, List.mem_map, mem_registers, Prod.mk.injEq, bne_iff_ne]
  constructor
  · rintro ⟨⟨_, valid, rfl, held⟩, notZero⟩
    exact ⟨valid, held, notZero⟩
  · rintro ⟨valid, held, notZero⟩
    exact ⟨⟨register, valid, rfl, held⟩, notZero⟩

/-- They are listed in the order of the registers. -/
theorem pairwise_nonzero (file : RegisterFile) :
    file.nonzero.Pairwise fun first second => first.1.Precedes second.1 := by
  refine List.Pairwise.filter _ ?_
  rw [List.pairwise_map]
  exact pairwise_registers

/-- Give each listed register the value beside it, one after the other. -/
def putAll (file : RegisterFile) (pairs : List (Register × Int32)) : RegisterFile :=
  pairs.foldl (fun file pair => file.put pair.1 pair.2) file

section PutAll

variable {pairs : List (Register × Int32)} {register : Register}

/-- Registers that are not listed keep their values. -/
theorem get_putAll_of_not_mem (listed : ∀ pair ∈ pairs, pair.1.Valid) (valid : register.Valid)
    (absent : register ∉ pairs.map Prod.fst) (file : RegisterFile) :
    (file.putAll pairs).get register = file.get register := by
  induction pairs generalizing file with
  | nil => rfl
  | cons pair pairs ih =>
      obtain ⟨isValid, listed⟩ := List.forall_mem_cons.mp listed
      rw [List.map_cons, List.mem_cons, not_or] at absent
      calc ((file.put pair.1 pair.2).putAll pairs).get register
        _ = (file.put pair.1 pair.2).get register := ih listed absent.2 _
        _ = file.get register := get_put_of_ne file isValid valid absent.1 pair.2

/-- Registers that are listed once get the values beside them. -/
theorem get_putAll_of_mem (listed : ∀ pair ∈ pairs, pair.1.Valid)
    (distinct : (pairs.map Prod.fst).Nodup) {value : Int32} (mem : (register, value) ∈ pairs)
    (file : RegisterFile) : (file.putAll pairs).get register = value := by
  induction pairs generalizing file with
  | nil => cases mem
  | cons pair pairs ih =>
      obtain ⟨isValid, listedLater⟩ := List.forall_mem_cons.mp listed
      obtain ⟨onlyHere, distinct⟩ := List.nodup_cons.mp distinct
      -- The register is listed once, so what is put behind its own pair leaves it alone.
      rcases List.mem_cons.mp mem with rfl | later
      · calc ((file.put register value).putAll pairs).get register
          _ = (file.put register value).get register :=
            get_putAll_of_not_mem listedLater isValid onlyHere _
          _ = value := get_put_self file isValid value
      · exact ih listedLater distinct later (file.put pair.1 pair.2)

/-- **A file is made again** from the registers that do not hold zero, in any order. -/
theorem putAll_of_perm_nonzero (perm : pairs.Perm file.nonzero) : fresh.putAll pairs = file := by
  have listed : ∀ pair ∈ pairs, pair.1.Valid := fun pair mem =>
    (mem_nonzero.mp (perm.mem_iff.mp mem)).1
  have distinct : (pairs.map Prod.fst).Nodup := by
    refine (perm.map Prod.fst).nodup_iff.mpr (List.pairwise_map.mpr ?_)
    exact file.pairwise_nonzero.imp Register.Precedes.ne
  refine values_injective (funext fun register => ?_)
  by_cases zero : file.get register = 0
  · have absent : register.1 ∉ pairs.map Prod.fst := by
      intro mem
      obtain ⟨⟨_, value⟩, isListed, rfl⟩ := List.mem_map.mp mem
      obtain ⟨-, held, notZero⟩ := mem_nonzero.mp (perm.mem_iff.mp isListed)
      exact notZero (held.symm.trans zero)
    calc (fresh.putAll pairs).get register
      _ = fresh.get register := get_putAll_of_not_mem listed register.2 absent fresh
      _ = 0 := get_fresh register
      _ = file.get register := zero.symm
  · have mem : (register.1, file.get register) ∈ pairs :=
      perm.mem_iff.mpr (mem_nonzero.mpr ⟨register.2, rfl, zero⟩)
    exact get_putAll_of_mem listed distinct mem fresh

end PutAll

/-! ## The register file refines a map -/

/-- **A file stands for a map**: each of the sixty registers holds the value that the map gives
it, the listing has exactly the registers with another value than zero, each behind those that
precede it, and the file is made again from the listing. -/
structure Refines (file : RegisterFile) (values : ValidRegister → Int32) : Prop where
  get : ∀ register : ValidRegister, file.get register = values register
  listed : ∀ pair : Register × Int32, pair ∈ file.nonzero ↔
    ∃ register : ValidRegister, values register ≠ 0 ∧ pair = (register.1, values register)
  ascending : file.nonzero.Pairwise fun first second => first.1.Precedes second.1
  rebuilt : ∀ pairs : List (Register × Int32), pairs.Perm file.nonzero → fresh.putAll pairs = file

theorem refines_own_values (file : RegisterFile) : file.Refines file.values where
  get _ := rfl
  listed := by
    rintro ⟨register, value⟩
    rw [mem_nonzero]
    constructor
    · rintro ⟨valid, rfl, notZero⟩
      exact ⟨⟨register, valid⟩, notZero, rfl⟩
    · rintro ⟨⟨_, valid⟩, notZero, equal⟩
      obtain ⟨rfl, rfl⟩ := Prod.mk.inj equal
      exact ⟨valid, rfl, notZero⟩
  ascending := file.pairwise_nonzero
  rebuilt _ := putAll_of_perm_nonzero

/-- **The register file is a map from the sixty registers to words**: after any changes to a
fresh file it stands for the function that the same changes make of the one that is zero
everywhere. -/
theorem refines_values (changes : List Change) :
    (changes.foldl Change.onFile fresh).Refines
      (changes.foldl Change.onValues fun _ => 0) := by
  rw [← values_fresh, ← Change.values_foldl_onFile]
  exact refines_own_values _

end RegisterFile

end LineAsm
