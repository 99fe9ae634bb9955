import LineAsm.Instruction.Rendering
import LineAsm.Proofs.Instruction.Exactness
import LineAsm.Proofs.Label.Resolution

/-!
# The canonical text of an instruction is decoded back

The canonical words of an instruction are its mnemonic and its parameters, each written in one
way (`Instruction.canonicalWords_eq`).  Whatever words an instruction was decoded from, its
canonical words are a sentence for it too (`Sentence.canonical`): zeros in front of a number, a
plus sign and the minus sign of a zero are lost, and nothing else is.

What a parameter is written with are visible characters and no slash (`Writes.visibleWord`).  So the
canonical text is cut at its spaces into the canonical words again, and it is decoded as the
instruction (`Instruction.ofTokens_text`).
-/

set_option autoImplicit false

namespace LineAsm

/-! ## Visible characters -/

/-- A visible character breaks no word and starts no comment. -/
def isVisible (c : Char) : Bool := !Text.isBlank c && c != '/'

/-- A word of visible characters. -/
structure VisibleWord (word : List Char) : Prop where
  nonempty : word ≠ []
  visible : word.all isVisible = true

theorem VisibleWord.isBlank_eq_false {word : List Char} (whole : VisibleWord word) :
    ∀ c ∈ word, Text.isBlank c = false := by
  intro c mem
  have visible := List.all_eq_true.mp whole.visible c mem
  simpa using (Bool.and_eq_true_iff.mp visible).1

/-- Visible characters are one solid piece. -/
theorem VisibleWord.solid {word : List Char} (whole : VisibleWord word) :
    Statement.Solid word := by
  refine ⟨whole.isBlank_eq_false, Statement.markFree_of_not_mem ?_⟩
  intro slash
  exact absurd (List.all_eq_true.mp whole.visible '/' slash) (by decide)

theorem isVisible_of_isDigit {c : Char} (digit : c.isDigit = true) : isVisible c = true := by
  have noSlash : c ≠ '/' := by
    rintro rfl
    cases digit
  rw [isVisible, Text.not_isBlank_of_isDigit digit, bne_iff_ne.mpr noSlash]
  rfl

namespace Text

theorem Numeral.visibleWord {text : List Char} {value : Nat} (numeral : Numeral text value) :
    VisibleWord text := by
  obtain ⟨nonempty, digits⟩ := Bool.and_eq_true_iff.mp numeral.isDigits
  refine ⟨by simpa using nonempty, List.all_eq_true.mpr ?_⟩
  intro c mem
  exact isVisible_of_isDigit (List.all_eq_true.mp digits c mem)

theorem SignedNumeral.visibleWord {text : List Char} {value : Int}
    (numeral : SignedNumeral text value) : VisibleWord text := by
  cases numeral with
  | unsigned numeral => exact numeral.visibleWord
  | plus numeral | minus numeral => exact ⟨List.cons_ne_nil _ _, numeral.visibleWord.visible⟩

end Text

theorem RegisterName.visibleWord {word : String} {named : Register}
    (name : RegisterName word named) : VisibleWord word.toList := by
  cases name with
  | mk bank isDigit =>
      rw [String.toList_ofList]
      refine ⟨List.cons_ne_nil _ _, ?_⟩
      have letter : isVisible bank.letter = true := by cases bank <;> decide
      simp [letter, isVisible_of_isDigit isDigit]

/-- **Parameters are written with visible characters.** -/
theorem Writes.visibleWord {word : String} {parameter : Parameter}
    (writes : Writes word parameter) : VisibleWord word.toList := by
  have range {left right : String} (leftWord : VisibleWord left.toList)
      (rightWord : VisibleWord right.toList) :
      VisibleWord ("|" ++ left ++ ":" ++ right ++ "|").toList := by
    refine ⟨by simp, ?_⟩
    simp only [String.toList_append, List.all_append, leftWord.visible, rightWord.visible]
    decide
  cases writes with
  | register name | registerValue name => exact name.visibleWord
  | literal numeral => exact numeral.visibleWord
  | line numeral => exact numeral.visibleWord
  | span isFirst isLast => exact range isFirst.visibleWord isLast.visibleWord
  | count isCounter numeral => exact range isCounter.visibleWord numeral.visibleWord
  | arrow | opening => exact ⟨by decide, by decide⟩

/-- Mnemonics are written with visible characters, and with no colon. -/
theorem Opcode.mnemonic_visibleWord (opcode : Opcode) :
    VisibleWord opcode.mnemonic.toList ∧ ':' ∉ opcode.mnemonic.toList := by
  refine ⟨⟨?_, ?_⟩, ?_⟩ <;> cases opcode <;> decide

/-! ## Canonical words -/

/-- How a parameter is written in canonical text. -/
def Parameter.text : Parameter → String
  | .register named => named.text
  | .value operand => operand.text
  | .line number => toString number
  | .span first last => "|" ++ first.text ++ ":" ++ last.text ++ "|"
  | .count counter passes => "|" ++ counter.text ++ ":" ++ toString passes ++ "|"
  | .arrow => rangeArrow
  | .opening => blockOpen

/-- **The canonical words of an instruction** are its mnemonic and its parameters. -/
theorem Instruction.canonicalWords_eq (instruction : Instruction) :
    instruction.canonicalWords =
      (instruction.opcode?.map Opcode.mnemonic).toList ++
        instruction.parameters.map Parameter.text := by
  cases instruction with
  | branch opcode condition left right line =>
      rw [canonicalWords, parameters]
      split <;> rfl
  | write item => cases item <;> rfl
  | _ => rfl

theorem RegisterName.canonical {word : String} {named : Register}
    (name : RegisterName word named) : RegisterName named.text named := by
  have valid := Register.valid_of_ofText? (ofText?_eq_some_iff.mpr name)
  exact ofText?_eq_some_iff.mp (Register.ofText?_text valid)

/-- A literal in decimal is a signed numeral of it. -/
theorem signedNumeral_toString_int32 (value : Int32) :
    Text.SignedNumeral (toString value).toList value.toInt :=
  Text.signedNumeral_toString value.toInt

/-- A number that is not negative is written without a sign. -/
theorem head?_toString_of_nonneg {value : Int32} (notNegative : 0 ≤ value.toInt) :
    (toString value).toList.head? ≠ some '+' := by
  obtain ⟨magnitude, isNat⟩ := Int.eq_ofNat_of_zero_le notNegative
  have written : (toString value).toList = (toString magnitude).toList :=
    congrArg (fun number : Int => (toString number).toList) isNat
  intro plus
  obtain ⟨rest, starts⟩ := List.head?_eq_some_iff.mp plus
  have numeral := Text.numeral_toString magnitude
  rw [← written, starts] at numeral
  exact absurd numeral.isDigit_of_cons (by decide)

/-- **What can be written is written by its canonical text.** -/
theorem Writes.canonical {word : String} {parameter : Parameter}
    (writes : Writes word parameter) : Writes parameter.text parameter := by
  cases writes with
  | register name => exact .register name.canonical
  | registerValue name => exact .registerValue name.canonical
  | literal numeral => exact .literal (signedNumeral_toString_int32 _)
  | line numeral positive fits => exact .line (Text.numeral_toString _) positive fits
  | span isFirst isLast oneBank ascending =>
      exact .span isFirst.canonical isLast.canonical oneBank ascending
  | count isCounter numeral noPlus notNegative =>
      exact .count isCounter.canonical (signedNumeral_toString_int32 _)
        (head?_toString_of_nonneg notNegative) notNegative
  | arrow => exact .arrow
  | opening => exact .opening

/-- **The canonical words of an instruction are a sentence for it**, if it has any sentence. -/
theorem Sentence.canonical {words : List String} {instruction : Instruction}
    (sentence : Sentence words instruction) :
    Sentence instruction.canonicalWords instruction := by
  cases sentence with
  | empty => exact .empty
  | words operation plain written =>
      rw [Instruction.canonicalWords_eq, operation]
      refine .words operation plain ?_
      generalize instruction.parameters = parameters at written ⊢
      induction written with
      | nil => exact .nil
      | cons writes _ ih => exact .cons writes.canonical ih

/-- The words of a sentence are visible. -/
theorem Sentence.visibleWord {words : List String} {instruction : Instruction}
    (sentence : Sentence words instruction) : ∀ word ∈ words, VisibleWord word.toList := by
  cases sentence with
  | empty => exact fun word mem => nomatch mem
  | @words opcode _ _ _ _ written =>
      refine List.forall_mem_cons.mpr ⟨opcode.mnemonic_visibleWord.1, ?_⟩
      generalize instruction.parameters = parameters at written
      induction written with
      | nil => exact fun word mem => nomatch mem
      | cons writes _ ih => exact List.forall_mem_cons.mpr ⟨writes.visibleWord, ih⟩

/-! ## Canonical text -/

namespace Instruction

variable {words : List String} {instruction : Instruction}

/-- The canonical text is cut into the canonical words. -/
theorem words_text (sentence : Sentence words instruction) :
    (Text.words instruction.text.toList).map String.ofList = instruction.canonicalWords := by
  have solid : ∀ token ∈ instruction.canonicalWords.map String.toList,
      token ≠ [] ∧ ∀ c ∈ token, Text.isBlank c = false := by
    intro token mem
    obtain ⟨word, isWord, rfl⟩ := List.mem_map.mp mem
    have visible := sentence.canonical.visibleWord word isWord
    exact ⟨visible.nonempty, visible.isBlank_eq_false⟩
  rw [text, String.toList_intercalate, show " ".toList = [' '] from rfl,
    Text.words_intercalate_space solid, List.map_map]
  exact (List.map_congr_left fun word _ => String.ofList_toList).trans (List.map_id _)

/-- **The canonical text of a decoded instruction is decoded back**, whatever it was decoded
from, and its first word is the mnemonic that the instruction was decoded from. -/
theorem ofTokens_text (decoded : ofTokens words = .ok instruction) :
    ofTokens ((Text.words instruction.text.toList).map String.ofList) = .ok instruction ∧
      ∀ opcode, instruction.opcode? = some opcode →
        ((Text.words instruction.text.toList).map String.ofList).head? = some opcode.mnemonic ∧
          words.head? = some opcode.mnemonic := by
  have sentence := ofTokens_eq_ok_iff.mp decoded
  rw [words_text sentence]
  refine ⟨ofTokens_eq_ok_iff.mpr sentence.canonical, fun opcode operation => ⟨?_, ?_⟩⟩
  · rw [canonicalWords_eq, operation]
    rfl
  · cases sentence with
    | empty => cases operation
    | words operation' =>
        obtain rfl := Option.some.inj (operation'.symm.trans operation)
        rfl

/-- A zero with a minus sign is written as a zero. -/
theorem ofTokens_text_minus_zero :
    ofTokens ["PUT", "A0", "-00"] = .ok (.put ⟨.a, 0⟩ (.literal 0)) ∧
      (put ⟨.a, 0⟩ (.literal 0)).text = "PUT A0 0" ∧
      ofTokens ((Text.words "PUT A0 0".toList).map String.ofList) =
        .ok (.put ⟨.a, 0⟩ (.literal 0)) := by
  have decoded : ofTokens ["PUT", "A0", "-00"] = .ok (.put ⟨.a, 0⟩ (.literal 0)) := by
    decide +kernel
  have written : (put ⟨.a, 0⟩ (.literal 0)).text = "PUT A0 0" := by decide +kernel
  exact ⟨decoded, written, written ▸ (ofTokens_text decoded).1⟩

end Instruction

end LineAsm
