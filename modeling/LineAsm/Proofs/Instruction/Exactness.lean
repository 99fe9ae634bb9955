import LineAsm.Proofs.Instruction.Sentence

/-!
# The decoder reads sentences and nothing else

The words of a line are decoded just when they are a sentence, and the instruction is the one
that the sentence says (`Instruction.ofTokens_eq_ok_iff`).

How many words an operation takes is a column of the instruction table, and which of them it
reads is a matter of the decoder; the two agree.  `ByPlace` reads the operands of each operation
by their places and checks nothing but their number.  It has no result where it asks for a
place behind the last word.  That never happens, and what it reads is what is decoded
(`ByPlace.ofTokens_eq_known`).
-/

set_option autoImplicit false

namespace LineAsm

/-! ## Reading by places -/

namespace ByPlace

open Decoding (conditionOf)

/-- Reading words by their places.  It gives no result, not even an error, when it asks for a
place where no word is. -/
abbrev Reading := ExceptT DecodeError Option

/-- A result that needs no place. -/
def known {α : Type} (result : Except DecodeError α) : Reading α := ExceptT.mk (some result)

/-- The word at a place. -/
def word (words : List String) (place : Nat) : Reading String := ExceptT.lift words[place]?

section Places

variable (words : List String) (place : Nat)

def register : Reading Register := do known (Decoding.register (← word words place))

def operand : Reading Operand := do known (Decoding.operand (← word words place))

def target : Reading Nat := do known (Decoding.target (← word words place))

def range : Reading (List Char × List Char) := do known (Decoding.range (← word words place))

def expect (expected : String) : Reading Unit := do
  known (Decoding.expect expected (← word words place))

end Places

section Shapes

variable (words : List String)

def arithmetic (op : ArithmeticOp) : Reading Instruction := do
  return .arithmetic op (← register words 0) (← operand words 1) (← operand words 2)

def zeroBranch (opcode : Opcode) : Reading Instruction := do
  return .branch opcode (conditionOf opcode) (← register words 0) (.literal 0) (← target words 1)

def branch (opcode : Opcode) : Reading Instruction := do
  return .branch opcode (conditionOf opcode) (← register words 0) (← operand words 1)
    (← target words 2)

def iterThrough : Reading Instruction := do
  let (left, right) ← range words 0
  expect words 1 rangeArrow
  expect words 3 blockOpen
  let first ← known (Decoding.register (String.ofList left))
  let last ← known (Decoding.register (String.ofList right))
  let target ← register words 2
  if !first.sameBank last then throw (.mixedBanks first last)
  if !first.isBefore last then throw (.descendingRange first last)
  return .iterThrough first last target 0

def iterFor : Reading Instruction := do
  let (left, right) ← range words 0
  expect words 1 blockOpen
  let counter ← known (Decoding.register (String.ofList left))
  let count ← known (Decoding.passes right)
  return .iterFor counter count 0

end Shapes

/-- Read the operands of an operation by their places, once there are as many as it takes. -/
def operands (opcode : Opcode) (words : List String) : Reading Instruction :=
  if words.length ≠ opcode.arity then throw (.arity opcode words.length)
  else match opcode with
    | .put => return .put (← register words 0) (← operand words 1)
    | .copy => return .copy (← register words 0) (← register words 1)
    | .swap => return .swap (← register words 0) (← register words 1)
    | .free => return .free (← register words 0)
    | .add => arithmetic words .add
    | .sub => arithmetic words .sub
    | .mul => arithmetic words .mul
    | .div => arithmetic words .div
    | .mod => arithmetic words .mod
    | .inc => return .inc (← register words 0)
    | .dec => return .dec (← register words 0)
    | .jump => return .jump (← target words 0)
    | .jumpZero => zeroBranch words .jumpZero
    | .jumpNonzero => zeroBranch words .jumpNonzero
    | .jumpEqual => branch words .jumpEqual
    | .jumpNotEqual => branch words .jumpNotEqual
    | .jumpGreater => branch words .jumpGreater
    | .jumpLess => branch words .jumpLess
    | .jumpGreaterEqual => branch words .jumpGreaterEqual
    | .jumpLessEqual => branch words .jumpLessEqual
    | .call => return .call (← target words 0)
    | .ret => return .ret
    | .iterThrough => iterThrough words
    | .iterFor => iterFor words
    | .endIter => return .endIter 0
    | .writeDecimal => return .write (.decimal (← register words 0))
    | .writeCharacter => return .write (.character (← register words 0))
    | .writeHex => return .write (.hex (← register words 0))
    | .clearScreen => return .clearScreen
    | .newLine => return .write .newLine
    | .tab => return .write .tab

/-- Read the instruction of a line, its operands by their places. -/
def ofTokens (tokens : List String) : Reading Instruction :=
  match tokens with
  | [] => return .nop
  | mnemonic :: words =>
    match Opcode.ofMnemonic? mnemonic with
    | none => throw (.unknownMnemonic mnemonic)
    | some opcode => operands opcode words

/-! ### No place is missing -/

section Known

variable {α β : Type}

theorem known_pure (value : α) : known (pure value) = (pure value : Reading α) := rfl

theorem known_throw (failure : DecodeError) :
    known (throw failure : Except DecodeError α) = throw failure := rfl

theorem known_bind (result : Except DecodeError α) (next : α → Except DecodeError β) :
    known (result >>= next) = known result >>= fun value => known (next value) := by
  cases result <;> rfl

theorem known_ite (condition : Prop) [Decidable condition] (result other : Except DecodeError α) :
    known (if condition then result else other) =
      if condition then known result else known other :=
  apply_ite known condition result other

theorem word_zero (first : String) (later : List String) : word (first :: later) 0 = pure first :=
  rfl

theorem word_succ (first : String) (later : List String) (place : Nat) :
    word (first :: later) (place + 1) = word later place := rfl

end Known

/-- Another number of words than an operation takes is an error, whatever the words are. -/
theorem operands_of_length_ne {opcode : Opcode} {words : List String}
    (other : words.length ≠ opcode.arity) :
    Decoding.operands opcode words = .error (.arity opcode words.length) := by
  unfold Decoding.operands
  split <;> first | exact absurd rfl other | rfl

/-- **Every place that an operation reads is there**, once it has as many words as it takes. -/
theorem operands_eq_known (opcode : Opcode) (words : List String) :
    operands opcode words = known (Decoding.operands opcode words) := by
  by_cases length : words.length = opcode.arity
  · unfold operands
    rw [if_neg (not_not_intro length)]
    -- The operations are grouped by how many words they take: then every place is in sight.
    cases opcode with
    | ret | endIter | clearScreen | newLine | tab =>
        obtain rfl := List.length_eq_zero_iff.mp length
        rfl
    | free | inc | dec | writeDecimal | writeCharacter | writeHex | jump | call =>
        obtain ⟨first, rfl⟩ := List.length_eq_one_iff.mp length
        simp only [register, target, word_zero, pure_bind, Decoding.operands, known_bind,
          known_pure]
    | put | copy | swap | jumpZero | jumpNonzero =>
        obtain ⟨first, second, rfl⟩ := List.length_eq_two.mp length
        simp only [register, operand, target, zeroBranch, word_zero, word_succ, pure_bind,
          Decoding.operands, Decoding.zeroBranch, known_bind, known_pure]
    | iterFor =>
        obtain ⟨first, second, rfl⟩ := List.length_eq_two.mp length
        simp only [iterFor, range, expect, word_zero, word_succ, pure_bind, Decoding.operands,
          Decoding.iterFor, known_bind, known_pure]
    | add | sub | mul | div | mod =>
        obtain ⟨first, second, third, rfl⟩ := List.length_eq_three.mp length
        simp only [arithmetic, register, operand, word_zero, word_succ, pure_bind,
          Decoding.operands, Decoding.arithmetic, known_bind, known_pure]
    | jumpEqual | jumpNotEqual | jumpGreater | jumpLess | jumpGreaterEqual | jumpLessEqual =>
        obtain ⟨first, second, third, rfl⟩ := List.length_eq_three.mp length
        simp only [branch, register, operand, target, word_zero, word_succ, pure_bind,
          Decoding.operands, Decoding.branch, known_bind, known_pure]
    | iterThrough =>
        obtain ⟨first, later, rfl, rest⟩ := List.length_eq_succ_iff.mp length
        obtain ⟨second, third, fourth, rfl⟩ := List.length_eq_three.mp rest
        simp only [iterThrough, range, expect, register, word_zero, word_succ, pure_bind,
          Decoding.operands, Decoding.iterThrough, known_bind, known_pure, known_throw, known_ite]
  · unfold operands
    rw [if_pos length, operands_of_length_ne length]
    rfl

theorem ofTokens_eq_known (tokens : List String) :
    ofTokens tokens = known (Instruction.ofTokens tokens) := by
  cases tokens with
  | nil => rfl
  | cons mnemonic words =>
      rw [ofTokens, Instruction.ofTokens]
      cases Opcode.ofMnemonic? mnemonic with
      | none => rfl
      | some opcode => exact operands_eq_known opcode words

end ByPlace

/-! ## Sentences are decoded -/

namespace Instruction

variable {words : List String} {instruction : Instruction}

/-- The words that are read as an instruction are its sentences. -/
theorem ofTokens_eq_ok_iff : ofTokens words = .ok instruction ↔ Sentence words instruction := by
  constructor
  · intro decoded
    rcases ofTokens_cases decoded with ⟨rfl, rfl⟩ | ⟨word, operands, opcode, rfl, named, spells⟩
    · exact .empty
    · obtain rfl := Opcode.mnemonic_of_ofMnemonic? named
      obtain ⟨operation, plain, written⟩ := Decoding.sentence_of_spells spells
      exact .words operation plain written
  · rintro (_ | ⟨operation, plain, written⟩)
    · rfl
    · exact ofTokens_of_spells (Opcode.ofMnemonic?_mnemonic _)
        (Decoding.spells_of_sentence operation plain written)

/-- A decoded instruction names registers of a single digit. -/
theorem index_le_of_ofTokens (decoded : ofTokens words = .ok instruction) :
    ∀ register ∈ instruction.registers, register.index ≤ 9 := by
  intro register named
  rcases ofTokens_cases decoded with ⟨-, rfl⟩ | ⟨_, _, _, -, -, spells⟩
  · cases named
  · exact Nat.le_of_lt_succ (spells.valid register named)

/-- **The decoder reads the sentences of the grammar and nothing else.**  What it reads is the
instruction of the sentence, whose registers have one digit, and whatever the words are it asks
for no place behind the last of them. -/
theorem ofTokens_exact (words : List String) :
    (∀ instruction, ofTokens words = .ok instruction ↔ Sentence words instruction) ∧
      (∀ instruction, ofTokens words = .ok instruction →
        ∀ register ∈ instruction.registers, register.index ≤ 9) ∧
      (ByPlace.ofTokens words).run = some (ofTokens words) :=
  ⟨fun _ => ofTokens_eq_ok_iff, fun _ => index_le_of_ofTokens,
    congrArg ExceptT.run (ByPlace.ofTokens_eq_known words)⟩

/-- A count of passes may have zeros in front and a minus sign when it is zero. -/
theorem ofTokens_exact_minus_zero :
    Sentence ["ITER_FOR", "|E9:-00|", "("] (.iterFor ⟨.e, 9⟩ 0 0) ∧
      (∀ register ∈ (iterFor ⟨.e, 9⟩ 0 0).registers, register.index ≤ 9) ∧
      (ByPlace.ofTokens ["ITER_FOR", "|E9:-00|", "("]).run = some (.ok (.iterFor ⟨.e, 9⟩ 0 0)) := by
  have decoded : ofTokens ["ITER_FOR", "|E9:-00|", "("] = .ok (.iterFor ⟨.e, 9⟩ 0 0) := by
    decide +kernel
  obtain ⟨reads, bounded, places⟩ := ofTokens_exact ["ITER_FOR", "|E9:-00|", "("]
  exact ⟨(reads _).mp decoded, bounded _ decoded, places.trans (congrArg some decoded)⟩

end Instruction

end LineAsm
