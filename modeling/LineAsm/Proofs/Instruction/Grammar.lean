import LineAsm.Instruction.Decoding
import LineAsm.Proofs.Text.Splitting

/-!
# The grammar of instructions

The words that an operation takes and the instruction they spell (`Spells`), one rule
for each shape of operands.  Whatever is decoded is spelled by the grammar
(`spells_of_operands`), so that later proofs go by the rules of the grammar and do not
open the decoder.
-/

set_option autoImplicit false

namespace LineAsm

theorem Except.bind_eq_ok_iff {ε α β : Type} {first : Except ε α} {next : α → Except ε β}
    {result : β} :
    first >>= next = .ok result ↔ ∃ value, first = .ok value ∧ next value = .ok result := by
  cases first with
  | error failure => simp [bind, Except.bind]
  | ok value => simp [bind, Except.bind]

/-! ## Registers and literals -/

namespace Register

/-- A register is named by the letter of its bank and a digit. -/
theorem ofText?_eq_some {word : String} {register : Register}
    (named : ofText? word = some register) :
    ∃ digit, word.toList = [register.bank.letter, digit] ∧ digit.isDigit = true := by
  rw [ofText?] at named
  split at named
  · rename_i letter digit text
    obtain ⟨bank, isBank, named⟩ := Option.bind_eq_some_iff.mp named
    obtain ⟨index, read, named⟩ := Option.bind_eq_some_iff.mp named
    have sameLetter : bank.letter = letter := by simpa using List.find?_some isBank
    rw [Text.natural?] at read
    split at read
    · rename_i digits
      rw [ofIndex?] at named
      split at named
      · obtain rfl := Option.some.inj named
        exact ⟨digit, by rw [text, sameLetter], by simpa [Text.isDigits] using digits⟩
      · cases named
    · cases read
  · cases named

/-- The name of a register has no other characters than a letter and a digit. -/
theorem isAlphanum_of_ofText? {word : String} {register : Register}
    (named : ofText? word = some register) : ∀ c ∈ word.toList, c.isAlphanum = true := by
  obtain ⟨digit, text, isDigit⟩ := ofText?_eq_some named
  rw [text]
  intro c mem
  simp only [List.mem_cons, List.not_mem_nil, or_false] at mem
  rcases mem with rfl | rfl
  · cases register.bank <;> decide
  · simp [Char.isAlphanum, isDigit]

end Register

namespace Text

theorem natural?_eq_some {text : List Char} {value : Nat} (read : natural? text = some value) :
    isDigits text = true ∧ Nat.ofDigitChars 10 text 0 = value := by
  rw [natural?] at read
  split at read
  · rename_i digits
    exact ⟨digits, Option.some.inj read⟩
  · cases read

/-- A literal is a text of digits with or without a sign before it. -/
theorem word32?_eq_some {text : List Char} {value : Int32} (read : word32? text = some value) :
    isDigits text = true ∨
      ∃ sign digits, text = sign :: digits ∧ (sign = '+' ∨ sign = '-') ∧
        isDigits digits = true := by
  obtain ⟨number, read, -⟩ := Option.bind_eq_some_iff.mp read
  unfold integer? at read
  split at read <;> obtain ⟨magnitude, natural, -⟩ := Option.map_eq_some_iff.mp read
  · exact .inr ⟨_, _, rfl, .inl rfl, (natural?_eq_some natural).1⟩
  · exact .inr ⟨_, _, rfl, .inr rfl, (natural?_eq_some natural).1⟩
  · exact .inl (natural?_eq_some natural).1

/-- A literal has no other characters than digits and a sign. -/
theorem isDigit_or_sign_of_word32? {text : List Char} {value : Int32}
    (read : word32? text = some value) : ∀ c ∈ text, c.isDigit = true ∨ c = '+' ∨ c = '-' := by
  have all : ∀ {digits : List Char}, isDigits digits = true → ∀ c ∈ digits, c.isDigit = true :=
    fun digits => List.all_eq_true.mp (Bool.and_eq_true_iff.mp digits).2
  intro c mem
  rcases word32?_eq_some read with digits | ⟨sign, digits, rfl, isSign, isDigits⟩
  · exact .inl (all digits c mem)
  · rcases List.mem_cons.mp mem with rfl | later
    · exact .inr isSign
    · exact .inl (all isDigits c later)

end Text

/-! ## Operands -/

namespace Decoding

theorem isRegisterLike_of_ofText? {word : String} {register : Register}
    (named : Register.ofText? word = some register) : isRegisterLike word = true := by
  obtain ⟨digit, text, -⟩ := Register.ofText?_eq_some named
  rw [isRegisterLike]
  rw [text]
  cases register.bank <;> rfl

theorem register_eq_ok_iff {word : String} {found : Register} :
    register word = .ok found ↔ Register.ofText? word = some found := by
  rw [register]
  cases named : Register.ofText? word with
  | none => cases isRegisterLike word <;> simp
  | some other => simp [isRegisterLike_of_ofText? named]

/-- A word spells a value operand. -/
inductive SpellsOperand : String → Operand → Prop where
  | register {word : String} {register : Register}
      (named : Register.ofText? word = some register) : SpellsOperand word (.register register)
  | literal {word : String} {value : Int32} (read : Text.word32? word.toList = some value) :
      SpellsOperand word (.literal value)

theorem spellsOperand_of_operand {word : String} {found : Operand}
    (decoded : operand word = .ok found) : SpellsOperand word found := by
  rw [operand] at decoded
  split at decoded
  · cases named : register word with
    | error failure =>
        rw [named] at decoded
        cases decoded
    | ok read =>
        rw [named] at decoded
        obtain rfl := Except.ok.inj decoded
        exact .register (register_eq_ok_iff.mp named)
  · split at decoded
    · rename_i value read
      obtain rfl := Except.ok.inj decoded
      exact .literal read
    · cases decoded

theorem target_eq_ok_iff {word : String} {line : Nat} :
    target word = .ok line ↔
      Text.natural? word.toList = some line ∧ 1 ≤ line ∧ line < lineBound := by
  rw [target]
  cases Text.natural? word.toList with
  | none => simp
  | some number =>
      simp only [Option.some.injEq]
      split
      · rename_i inside
        simp only [Except.ok.injEq, iff_self_and]
        rintro rfl
        exact inside
      · rename_i outside
        simp only [reduceCtorEq, false_iff, not_and]
        rintro rfl
        exact fun positive below => outside ⟨positive, below⟩

theorem passes_eq_ok {text : List Char} {count : Int32} (decoded : passes text = .ok count) :
    text.head? ≠ some '+' ∧ Text.word32? text = some count ∧ ¬ count < 0 := by
  rw [passes] at decoded
  split at decoded
  · cases decoded
  · rename_i noPlus
    split at decoded
    · cases decoded
    · rename_i value read
      split at decoded
      · cases decoded
      · rename_i notNegative
        obtain rfl := Except.ok.inj decoded
        exact ⟨noPlus, read, notNegative⟩

theorem expect_eq_ok_iff {expected word : String} {value : Unit} :
    expect expected word = .ok value ↔ word = expected := by
  rw [expect]
  split <;> simp_all

/-- A range is written with its two parts between bars, and a colon between them. -/
theorem range_eq_ok {word : String} {left right : List Char}
    (decoded : range word = .ok (left, right)) :
    word = "|" ++ String.ofList left ++ ":" ++ String.ofList right ++ "|" := by
  rw [range] at decoded
  cases found : range? word.toList with
  | none =>
      rw [found] at decoded
      cases decoded
  | some parts =>
      rw [found] at decoded
      obtain rfl := Except.ok.inj decoded
      unfold range? at found
      split at found
      · rename_i rest text
        split at found
        · rename_i last
          simp only at found
          split at found
          · rename_i colon after behind
            split at found
            · cases found
            · obtain ⟨rfl, rfl⟩ := Prod.mk.inj (Option.some.inj found)
              -- What stands behind the left part starts with the colon.
              have nonempty : rest.dropLast.dropWhile (· != ':') ≠ [] := by simp [behind]
              have isColon : colon = ':' := by
                have stops := List.head_dropWhile_not (· != ':') nonempty
                simpa [behind] using stops
              have inner := List.takeWhile_append_dropWhile (p := (· != ':')) (l := rest.dropLast)
              obtain ⟨front, outer⟩ := List.getLast?_eq_some_iff.mp last
              rw [behind, isColon] at inner
              refine String.toList_inj.mp ?_
              rw [outer, List.dropLast_concat] at inner
              simp only [String.toList_append, String.toList_ofList, text, outer,
                List.dropLast_concat]
              rw [show front ++ ['|'] = _ ++ ['|'] from congrArg (· ++ ['|']) inner.symm]
              simp
          · cases found
        · cases found
      · cases found

/-! ## Instructions -/

/-- **The words that an operation takes, and the instruction they spell.** -/
inductive Spells : Opcode → List String → Instruction → Prop where
  | put {dst src : String} {target : Register} {source : Operand}
      (isTarget : Register.ofText? dst = some target) (isSource : SpellsOperand src source) :
      Spells .put [dst, src] (.put target source)
  | copy {dst src : String} {target source : Register}
      (isTarget : Register.ofText? dst = some target)
      (isSource : Register.ofText? src = some source) :
      Spells .copy [dst, src] (.copy target source)
  | swap {one other : String} {first second : Register}
      (isFirst : Register.ofText? one = some first)
      (isSecond : Register.ofText? other = some second) :
      Spells .swap [one, other] (.swap first second)
  | free {word : String} {register : Register}
      (isRegister : Register.ofText? word = some register) :
      Spells .free [word] (.free register)
  | arithmetic (op : ArithmeticOp) {dst one other : String} {target : Register}
      {left right : Operand} (isTarget : Register.ofText? dst = some target)
      (isLeft : SpellsOperand one left) (isRight : SpellsOperand other right) :
      Spells op.opcode [dst, one, other] (.arithmetic op target left right)
  | inc {word : String} {register : Register}
      (isRegister : Register.ofText? word = some register) :
      Spells .inc [word] (.inc register)
  | dec {word : String} {register : Register}
      (isRegister : Register.ofText? word = some register) :
      Spells .dec [word] (.dec register)
  | jump {word : String} {line : Nat} (isLine : target word = .ok line) :
      Spells .jump [word] (.jump line)
  /-- A jump on comparing a register with zero. -/
  | zeroBranch {opcode : Opcode} (jumps : opcode ∈ [Opcode.jumpZero, .jumpNonzero])
      {one word : String} {left : Register} {line : Nat}
      (isLeft : Register.ofText? one = some left) (isLine : target word = .ok line) :
      Spells opcode [one, word] (.branch opcode (conditionOf opcode) left (.literal 0) line)
  /-- A jump on comparing a register with a value. -/
  | branch {opcode : Opcode}
      (jumps : opcode ∈ [Opcode.jumpEqual, .jumpNotEqual, .jumpGreater, .jumpLess,
        .jumpGreaterEqual, .jumpLessEqual])
      {one other word : String} {left : Register} {right : Operand} {line : Nat}
      (isLeft : Register.ofText? one = some left) (isRight : SpellsOperand other right)
      (isLine : target word = .ok line) :
      Spells opcode [one, other, word] (.branch opcode (conditionOf opcode) left right line)
  | call {word : String} {line : Nat} (isLine : target word = .ok line) :
      Spells .call [word] (.call line)
  | ret : Spells .ret [] .ret
  | iterThrough {left right dst : String} {first last target : Register}
      (isFirst : Register.ofText? left = some first)
      (isLast : Register.ofText? right = some last)
      (isTarget : Register.ofText? dst = some target)
      (oneBank : first.bank = last.bank) (ascending : first.index < last.index) :
      Spells .iterThrough ["|" ++ left ++ ":" ++ right ++ "|", rangeArrow, dst, blockOpen]
        (.iterThrough first last target 0)
  | iterFor {left right : String} {register : Register} {count : Int32}
      (isRegister : Register.ofText? left = some register)
      (noPlus : right.toList.head? ≠ some '+')
      (isCount : Text.word32? right.toList = some count) (notNegative : ¬ count < 0) :
      Spells .iterFor ["|" ++ left ++ ":" ++ right ++ "|", blockOpen] (.iterFor register count 0)
  | endIter : Spells .endIter [] (.endIter 0)
  | writeDecimal {word : String} {register : Register}
      (isRegister : Register.ofText? word = some register) :
      Spells .writeDecimal [word] (.write (.decimal register))
  | writeCharacter {word : String} {register : Register}
      (isRegister : Register.ofText? word = some register) :
      Spells .writeCharacter [word] (.write (.character register))
  | writeHex {word : String} {register : Register}
      (isRegister : Register.ofText? word = some register) :
      Spells .writeHex [word] (.write (.hex register))
  | clearScreen : Spells .clearScreen [] .clearScreen
  | newLine : Spells .newLine [] (.write .newLine)
  | tab : Spells .tab [] (.write .tab)

section Shapes

variable {opcode : Opcode} {instruction : Instruction}

theorem spells_of_register {word : String} {form : Register → Instruction}
    (rule : ∀ register, Register.ofText? word = some register →
      Spells opcode [word] (form register))
    (decoded : (do return form (← register word)) = Except.ok instruction) :
    Spells opcode [word] instruction := by
  obtain ⟨found, named, built⟩ := Except.bind_eq_ok_iff.mp decoded
  obtain rfl := Except.ok.inj built
  exact rule found (register_eq_ok_iff.mp named)

theorem spells_of_arithmetic {op : ArithmeticOp} {dst one other : String}
    (decoded : arithmetic op dst one other = .ok instruction) :
    Spells op.opcode [dst, one, other] instruction := by
  obtain ⟨target, isTarget, decoded⟩ := Except.bind_eq_ok_iff.mp decoded
  obtain ⟨left, isLeft, decoded⟩ := Except.bind_eq_ok_iff.mp decoded
  obtain ⟨right, isRight, built⟩ := Except.bind_eq_ok_iff.mp decoded
  obtain rfl := Except.ok.inj built
  exact .arithmetic op (register_eq_ok_iff.mp isTarget) (spellsOperand_of_operand isLeft)
    (spellsOperand_of_operand isRight)

theorem spells_of_zeroBranch {one word : String}
    (jumps : opcode ∈ [Opcode.jumpZero, .jumpNonzero])
    (decoded : zeroBranch opcode one word = .ok instruction) :
    Spells opcode [one, word] instruction := by
  obtain ⟨left, isLeft, decoded⟩ := Except.bind_eq_ok_iff.mp decoded
  obtain ⟨line, isLine, built⟩ := Except.bind_eq_ok_iff.mp decoded
  obtain rfl := Except.ok.inj built
  exact .zeroBranch jumps (register_eq_ok_iff.mp isLeft) isLine

theorem spells_of_branch {one other word : String}
    (jumps : opcode ∈ [Opcode.jumpEqual, .jumpNotEqual, .jumpGreater, .jumpLess,
      .jumpGreaterEqual, .jumpLessEqual])
    (decoded : branch opcode one other word = .ok instruction) :
    Spells opcode [one, other, word] instruction := by
  obtain ⟨left, isLeft, decoded⟩ := Except.bind_eq_ok_iff.mp decoded
  obtain ⟨right, isRight, decoded⟩ := Except.bind_eq_ok_iff.mp decoded
  obtain ⟨line, isLine, built⟩ := Except.bind_eq_ok_iff.mp decoded
  obtain rfl := Except.ok.inj built
  exact .branch jumps (register_eq_ok_iff.mp isLeft) (spellsOperand_of_operand isRight) isLine

theorem spells_of_iterThrough {bounds arrow dst opening : String}
    (decoded : iterThrough bounds arrow dst opening = .ok instruction) :
    Spells .iterThrough [bounds, arrow, dst, opening] instruction := by
  obtain ⟨⟨left, right⟩, isRange, decoded⟩ := Except.bind_eq_ok_iff.mp decoded
  obtain ⟨_, isArrow, decoded⟩ := Except.bind_eq_ok_iff.mp decoded
  obtain ⟨_, isOpening, decoded⟩ := Except.bind_eq_ok_iff.mp decoded
  obtain ⟨first, isFirst, decoded⟩ := Except.bind_eq_ok_iff.mp decoded
  obtain ⟨last, isLast, decoded⟩ := Except.bind_eq_ok_iff.mp decoded
  obtain ⟨target, isTarget, checked⟩ := Except.bind_eq_ok_iff.mp decoded
  obtain rfl := expect_eq_ok_iff.mp isArrow
  obtain rfl := expect_eq_ok_iff.mp isOpening
  rw [range_eq_ok isRange]
  cases oneBank : first.sameBank last with
  | false =>
      rw [oneBank] at checked
      cases checked
  | true =>
      cases ascending : first.isBefore last with
      | false =>
          rw [oneBank, ascending] at checked
          cases checked
      | true =>
          rw [oneBank, ascending] at checked
          obtain rfl := Except.ok.inj checked
          exact .iterThrough (register_eq_ok_iff.mp isFirst) (register_eq_ok_iff.mp isLast)
            (register_eq_ok_iff.mp isTarget) (of_decide_eq_true oneBank)
            (of_decide_eq_true ascending)

theorem spells_of_iterFor {bounds opening : String}
    (decoded : iterFor bounds opening = .ok instruction) :
    Spells .iterFor [bounds, opening] instruction := by
  obtain ⟨⟨left, right⟩, isRange, decoded⟩ := Except.bind_eq_ok_iff.mp decoded
  obtain ⟨_, isOpening, decoded⟩ := Except.bind_eq_ok_iff.mp decoded
  obtain ⟨counter, isCounter, decoded⟩ := Except.bind_eq_ok_iff.mp decoded
  obtain ⟨count, isCount, built⟩ := Except.bind_eq_ok_iff.mp decoded
  obtain rfl := Except.ok.inj built
  obtain rfl := expect_eq_ok_iff.mp isOpening
  obtain ⟨noPlus, read, notNegative⟩ := passes_eq_ok isCount
  rw [range_eq_ok isRange]
  exact .iterFor (register_eq_ok_iff.mp isCounter) (by simpa using noPlus) (by simpa using read)
    notNegative

end Shapes

/-- **Decoded operands are spelled by the grammar.** -/
theorem spells_of_operands {opcode : Opcode} {words : List String} {instruction : Instruction}
    (decoded : operands opcode words = .ok instruction) : Spells opcode words instruction := by
  unfold operands at decoded
  split at decoded
  · obtain ⟨target, isTarget, decoded⟩ := Except.bind_eq_ok_iff.mp decoded
    obtain ⟨source, isSource, built⟩ := Except.bind_eq_ok_iff.mp decoded
    obtain rfl := Except.ok.inj built
    exact .put (register_eq_ok_iff.mp isTarget) (spellsOperand_of_operand isSource)
  · obtain ⟨target, isTarget, decoded⟩ := Except.bind_eq_ok_iff.mp decoded
    obtain ⟨source, isSource, built⟩ := Except.bind_eq_ok_iff.mp decoded
    obtain rfl := Except.ok.inj built
    exact .copy (register_eq_ok_iff.mp isTarget) (register_eq_ok_iff.mp isSource)
  · obtain ⟨first, isFirst, decoded⟩ := Except.bind_eq_ok_iff.mp decoded
    obtain ⟨second, isSecond, built⟩ := Except.bind_eq_ok_iff.mp decoded
    obtain rfl := Except.ok.inj built
    exact .swap (register_eq_ok_iff.mp isFirst) (register_eq_ok_iff.mp isSecond)
  · exact spells_of_register (fun _ => .free) decoded
  · exact spells_of_arithmetic decoded
  · exact spells_of_arithmetic decoded
  · exact spells_of_arithmetic decoded
  · exact spells_of_arithmetic decoded
  · exact spells_of_arithmetic decoded
  · exact spells_of_register (fun _ => .inc) decoded
  · exact spells_of_register (fun _ => .dec) decoded
  · obtain ⟨line, isLine, built⟩ := Except.bind_eq_ok_iff.mp decoded
    obtain rfl := Except.ok.inj built
    exact .jump isLine
  · exact spells_of_zeroBranch (by simp) decoded
  · exact spells_of_zeroBranch (by simp) decoded
  · exact spells_of_branch (by simp) decoded
  · exact spells_of_branch (by simp) decoded
  · exact spells_of_branch (by simp) decoded
  · exact spells_of_branch (by simp) decoded
  · exact spells_of_branch (by simp) decoded
  · exact spells_of_branch (by simp) decoded
  · obtain ⟨line, isLine, built⟩ := Except.bind_eq_ok_iff.mp decoded
    obtain rfl := Except.ok.inj built
    exact .call isLine
  · obtain rfl := Except.ok.inj decoded
    exact .ret
  · exact spells_of_iterThrough decoded
  · exact spells_of_iterFor decoded
  · obtain rfl := Except.ok.inj decoded
    exact .endIter
  · exact spells_of_register (fun _ => .writeDecimal) decoded
  · exact spells_of_register (fun _ => .writeCharacter) decoded
  · exact spells_of_register (fun _ => .writeHex) decoded
  · obtain rfl := Except.ok.inj decoded
    exact .clearScreen
  · obtain rfl := Except.ok.inj decoded
    exact .newLine
  · obtain rfl := Except.ok.inj decoded
    exact .tab
  · cases decoded

end Decoding

/-- **A line is read** as no instruction when it has no words, and as what its words spell
when it has. -/
theorem Instruction.ofTokens_cases {words : List String} {instruction : Instruction}
    (decoded : ofTokens words = .ok instruction) :
    words = [] ∧ instruction = .nop ∨
      ∃ word operands opcode, words = word :: operands ∧
        Opcode.ofMnemonic? word = some opcode ∧ Decoding.Spells opcode operands instruction := by
  cases words with
  | nil => exact .inl ⟨rfl, (Except.ok.inj decoded).symm⟩
  | cons word operands =>
      rw [ofTokens] at decoded
      cases named : Opcode.ofMnemonic? word with
      | none =>
          rw [named] at decoded
          cases decoded
      | some opcode =>
          rw [named] at decoded
          exact .inr ⟨word, operands, opcode, rfl, named, Decoding.spells_of_operands decoded⟩

end LineAsm
