import LineAsm.Proofs.Instruction.Grammar

/-!
# The decoder reads all that the grammar spells

Words that the grammar spells are decoded as the instruction they spell
(`operands_of_spells`), so the decoder and the grammar agree (`operands_eq_ok_iff`).  Two
things could be in the way and are not: a literal starts with a digit or a sign and is never
taken for a register, and the parts of a range hold no colon, so the range is cut where its
parts were joined.
-/

set_option autoImplicit false

namespace LineAsm

/-- A digit is no letter. -/
theorem Text.not_isAlpha_of_isDigit {c : Char} (digit : c.isDigit = true) : c.isAlpha = false := by
  simp only [Char.isDigit, Bool.and_eq_true, decide_eq_true_eq] at digit
  have upper : c.toNat ≤ 57 := digit.2
  refine Bool.or_eq_false_iff.mpr ⟨?_, ?_⟩
  · refine Bool.eq_false_iff.mpr fun letter => ?_
    have lower : 65 ≤ c.toNat := (of_decide_eq_true letter).1
    omega
  · refine Bool.eq_false_iff.mpr fun letter => ?_
    have lower : 97 ≤ c.toNat := of_decide_eq_true (Bool.and_eq_true_iff.mp letter).1
    omega

namespace Decoding

/-! ## Operands -/

/-- A literal is not taken for a register. -/
theorem isRegisterLike_of_word32? {word : String} {value : Int32}
    (read : Text.word32? word.toList = some value) : isRegisterLike word = false := by
  rw [isRegisterLike]
  cases chars : word.toList with
  | nil => rfl
  | cons c rest =>
      have first := Text.isDigit_or_sign_of_word32? read c (chars ▸ .head rest)
      rcases first with digit | rfl | rfl
      · exact Text.not_isAlpha_of_isDigit digit
      · rfl
      · rfl

theorem operand_eq_ok_iff {word : String} {found : Operand} :
    operand word = .ok found ↔ SpellsOperand word found := by
  constructor
  · exact spellsOperand_of_operand
  · intro spells
    cases spells with
    | register named =>
        rw [operand, if_pos (isRegisterLike_of_ofText? named), register_eq_ok_iff.mpr named]
        rfl
    | literal read => simp [operand, isRegisterLike_of_word32? read, read]

theorem passes_of_word32? {text : List Char} {count : Int32} (noPlus : text.head? ≠ some '+')
    (read : Text.word32? text = some count) (notNegative : ¬ count < 0) :
    passes text = .ok count := by
  simp only [passes, if_neg noPlus, read, if_neg notNegative]

/-- Parts without colons are read back from the range that is written with them. -/
theorem range_of_parts {left right : String} (someLeft : left ≠ "") (someRight : right ≠ "")
    (leftPlain : ':' ∉ left.toList) (rightPlain : ':' ∉ right.toList) :
    range ("|" ++ left ++ ":" ++ right ++ "|") = .ok (left.toList, right.toList) := by
  have written : ("|" ++ left ++ ":" ++ right ++ "|").toList =
      '|' :: (left.toList ++ ':' :: right.toList ++ ['|']) := by simp
  have passed : ∀ c ∈ left.toList, (c != ':') = true := by
    intro c mem
    refine bne_iff_ne.mpr ?_
    rintro rfl
    exact leftPlain mem
  have before : (left.toList ++ ':' :: right.toList).takeWhile (· != ':') = left.toList := by
    rw [List.takeWhile_append_of_pos passed]
    simp
  have behind :
      (left.toList ++ ':' :: right.toList).dropWhile (· != ':') = ':' :: right.toList := by
    rw [List.dropWhile_append_of_pos passed]
    simp
  have someParts : (left.toList.isEmpty || right.toList.isEmpty || right.toList.contains ':') =
      false := by
    simp [someLeft, someRight, rightPlain]
  rw [range, written, range?]
  simp only [List.getLast?_append, List.getLast?_singleton, Option.some_or, if_true,
    List.dropLast_concat, before, behind, someParts, Bool.false_eq_true, if_false]

/-- A register is a range's part without colons. -/
theorem plain_of_ofText? {word : String} {register : Register}
    (named : Register.ofText? word = some register) : word ≠ "" ∧ ':' ∉ word.toList := by
  refine ⟨?_, ?_⟩
  · rintro rfl
    cases named
  · intro colon
    exact absurd (Register.isAlphanum_of_ofText? named ':' colon) (by decide)

/-- A literal is a range's part without colons. -/
theorem plain_of_word32? {word : String} {value : Int32}
    (read : Text.word32? word.toList = some value) : word ≠ "" ∧ ':' ∉ word.toList := by
  refine ⟨?_, ?_⟩
  · rintro rfl
    cases read
  · intro colon
    have digits := Text.isDigit_or_sign_of_word32? read ':' colon
    revert digits
    decide

/-! ## Instructions -/

/-- **Words that the grammar spells are decoded.** -/
theorem operands_of_spells {opcode : Opcode} {words : List String} {instruction : Instruction}
    (spells : Spells opcode words instruction) : operands opcode words = .ok instruction := by
  cases spells with
  | put isTarget isSource =>
      simp only [operands, register_eq_ok_iff.mpr isTarget, operand_eq_ok_iff.mpr isSource]
      rfl
  | copy isFirst isSecond | swap isFirst isSecond =>
      simp only [operands, register_eq_ok_iff.mpr isFirst, register_eq_ok_iff.mpr isSecond]
      rfl
  | @arithmetic op dst one other target left right isTarget isLeft isRight =>
      have read : arithmetic op dst one other = .ok (.arithmetic op target left right) := by
        simp only [arithmetic, register_eq_ok_iff.mpr isTarget, operand_eq_ok_iff.mpr isLeft,
          operand_eq_ok_iff.mpr isRight]
        rfl
      cases op <;> exact read
  | @zeroBranch _ jumps one word left line isLeft isLine =>
      have read : zeroBranch opcode one word =
          .ok (.branch opcode (conditionOf opcode) left (.literal 0) line) := by
        simp only [zeroBranch, register_eq_ok_iff.mpr isLeft, isLine]
        rfl
      simp only [List.mem_cons, List.not_mem_nil, or_false] at jumps
      rcases jumps with rfl | rfl <;> exact read
  | @branch _ jumps one other word left right line isLeft isRight isLine =>
      have read : branch opcode one other word =
          .ok (.branch opcode (conditionOf opcode) left right line) := by
        simp only [branch, register_eq_ok_iff.mpr isLeft, operand_eq_ok_iff.mpr isRight, isLine]
        rfl
      simp only [List.mem_cons, List.not_mem_nil, or_false] at jumps
      rcases jumps with rfl | rfl | rfl | rfl | rfl | rfl <;> exact read
  | jump isLine | call isLine =>
      simp only [operands, isLine]
      rfl
  | @iterThrough _ _ _ first last _ isFirst isLast isTarget oneBank ascending =>
      obtain ⟨someLeft, leftPlain⟩ := plain_of_ofText? isFirst
      obtain ⟨someRight, rightPlain⟩ := plain_of_ofText? isLast
      have bounds := range_of_parts someLeft someRight leftPlain rightPlain
      have sameBank : first.sameBank last = true := decide_eq_true oneBank
      have isBefore : first.isBefore last = true := decide_eq_true ascending
      have arrow : expect rangeArrow rangeArrow = .ok () := expect_eq_ok_iff.mpr rfl
      have opening : expect blockOpen blockOpen = .ok () := expect_eq_ok_iff.mpr rfl
      simp only [operands, iterThrough, bounds, arrow, opening, String.ofList_toList,
        register_eq_ok_iff.mpr isFirst, register_eq_ok_iff.mpr isLast,
        register_eq_ok_iff.mpr isTarget, bind, Except.bind, sameBank, isBefore]
      rfl
  | iterFor isRegister noPlus isCount notNegative =>
      obtain ⟨someLeft, leftPlain⟩ := plain_of_ofText? isRegister
      obtain ⟨someRight, rightPlain⟩ := plain_of_word32? isCount
      have bounds := range_of_parts someLeft someRight leftPlain rightPlain
      have opening : expect blockOpen blockOpen = .ok () := expect_eq_ok_iff.mpr rfl
      simp only [operands, iterFor, bounds, opening, String.ofList_toList, bind, Except.bind,
        register_eq_ok_iff.mpr isRegister, passes_of_word32? noPlus isCount notNegative]
      rfl
  | free isRegister | inc isRegister | dec isRegister | writeDecimal isRegister
  | writeCharacter isRegister | writeHex isRegister =>
      simp only [operands, register_eq_ok_iff.mpr isRegister]
      rfl
  | ret | endIter | clearScreen | newLine | tab => rfl

/-- **The decoder reads what the grammar spells, and nothing else.** -/
theorem operands_eq_ok_iff {opcode : Opcode} {words : List String} {instruction : Instruction} :
    operands opcode words = .ok instruction ↔ Spells opcode words instruction :=
  ⟨spells_of_operands, operands_of_spells⟩

end Decoding

/-- Words behind a mnemonic are read as what they spell. -/
theorem Instruction.ofTokens_of_spells {word : String} {opcode : Opcode} {operands : List String}
    {instruction : Instruction} (named : Opcode.ofMnemonic? word = some opcode)
    (spells : Decoding.Spells opcode operands instruction) :
    ofTokens (word :: operands) = .ok instruction := by
  simp only [ofTokens, named]
  exact Decoding.operands_of_spells spells

end LineAsm
