import LineAsm.Program
import LineAsm.Proofs.Instruction.Grammar
import Mathlib.Data.List.Forall2

/-!
# What assembling does line by line

Appending a line either opens a block, closes the innermost open one or does neither
(`Assembly.push_cases`); this is the only place where appending is taken apart.  The
texts of the lines are never changed (`Assembly.texts_addAll`), so the texts of a
program are its resolved lines (`Program.texts_of_decodeLines`).

The instruction of a line is the one that its text spells, the lines of brackets aside
(`Program.ofTokens_of_mem_lines`).  Lines that are read alike make the same instructions, or
fail in the same way (`Program.instructions_decodeLines_of_read`), and lines with the same words
are read alike (`Program.instructions_decodeLines_congr`).
-/

set_option autoImplicit false

namespace LineAsm

/-! ## The parts that brackets play -/

/-- What a line does to the open blocks. -/
inductive Bracket where
  | opening | closing | neither
  deriving DecidableEq, Repr, Inhabited

namespace Instruction

/-- What an instruction does to the open blocks. -/
def bracket : Instruction → Bracket
  | .iterThrough .. => .opening
  | .iterFor .. => .opening
  | .endIter _ => .closing
  | _ => .neither

theorem eq_endIter_of_closing {instruction : Instruction}
    (closes : instruction.bracket = .closing) : ∃ header, instruction = .endIter header := by
  cases instruction with
  | endIter header => exact ⟨header, rfl⟩
  | _ => cases closes

/-- An instruction without the line of its bracket. -/
def unpaired : Instruction → Instruction
  | .endIter _ => .endIter 0
  | other => other.closeAt 0

/-- An instruction that is no bracket is the same without the line of its bracket. -/
theorem eq_of_unpaired {instruction raw : Instruction} (paired : instruction.unpaired = raw)
    (plain : raw.bracket = .neither) : instruction = raw := by
  subst paired
  cases instruction with
  | iterThrough => cases plain
  | iterFor => cases plain
  | endIter => cases plain
  | _ => rfl

@[simp]
theorem unpaired_closeAt (instruction : Instruction) (line : Nat) :
    (instruction.closeAt line).unpaired = instruction.unpaired := by
  cases instruction <;> rfl

/-- Brackets are decoded without their lines. -/
theorem unpaired_of_ofTokens {words : List String} {instruction : Instruction}
    (decoded : ofTokens words = .ok instruction) : instruction.unpaired = instruction := by
  rcases ofTokens_cases decoded with ⟨-, rfl⟩ | ⟨word, operands, opcode, -, -, spells⟩
  · rfl
  · cases spells <;> rfl

end Instruction

/-- Two results that look the same are the same failure, or two values that look the same. -/
theorem cases_of_map_eq {ε α β : Type} {view : α → β} {first second : Except ε α}
    (same : first.map view = second.map view) :
    (∃ failure, first = .error failure ∧ second = .error failure) ∨
      ∃ one other, first = .ok one ∧ second = .ok other ∧ view one = view other := by
  cases first with
  | error failure =>
      cases second with
      | error other => exact .inl ⟨failure, rfl, congrArg Except.error (Except.error.inj same).symm⟩
      | ok other => cases same
  | ok one =>
      cases second with
      | error other => cases same
      | ok other => exact .inr ⟨one, other, rfl, rfl, Except.ok.inj same⟩

namespace Assembly

/-! ## One line -/

/-- The instructions assembled so far. -/
def instructions (assembly : Assembly) : List Instruction :=
  assembly.lines.toList.map (·.instruction)

/-- The texts of the lines assembled so far. -/
def texts (assembly : Assembly) : List String :=
  assembly.lines.toList.map (·.text)

@[simp]
theorem length_instructions (assembly : Assembly) :
    assembly.instructions.length = assembly.lines.size := by
  simp [instructions]

/-- **Appending a line** opens a block, closes the innermost open block, or does
neither. -/
theorem push_cases {assembly next : Assembly} {text : String} {instruction : Instruction}
    (pushed : assembly.push text instruction = .ok next) :
    (instruction.bracket = .opening ∧
        next = ⟨assembly.lines.push ⟨text, instruction⟩,
          (assembly.lines.size + 1) :: assembly.openHeaders⟩) ∨
      (∃ header outer, instruction.bracket = .closing ∧ assembly.openHeaders = header :: outer ∧
        next = ⟨(close assembly.lines header (assembly.lines.size + 1)).push
          ⟨text, .endIter header⟩, outer⟩) ∨
      (instruction.bracket = .neither ∧
        next = ⟨assembly.lines.push ⟨text, instruction⟩, assembly.openHeaders⟩) := by
  cases bracket : instruction.bracket with
  | closing =>
      obtain ⟨old, rfl⟩ := Instruction.eq_endIter_of_closing bracket
      cases headers : assembly.openHeaders with
      | nil => simp [push, headers] at pushed
      | cons header outer =>
          simp only [push, headers, Except.ok.injEq] at pushed
          exact .inr (.inl ⟨header, outer, rfl, rfl, pushed.symm⟩)
  | opening =>
      cases instruction with
      | iterThrough => exact .inl ⟨rfl, (Except.ok.inj pushed).symm⟩
      | iterFor => exact .inl ⟨rfl, (Except.ok.inj pushed).symm⟩
      | _ => cases bracket
  | neither =>
      cases instruction with
      | iterThrough => cases bracket
      | iterFor => cases bracket
      | endIter => cases bracket
      | _ => exact .inr (.inr ⟨rfl, (Except.ok.inj pushed).symm⟩)

theorem push_of_opening {assembly : Assembly} {text : String} {instruction : Instruction}
    (opens : instruction.bracket = .opening) :
    assembly.push text instruction = .ok ⟨assembly.lines.push ⟨text, instruction⟩,
      (assembly.lines.size + 1) :: assembly.openHeaders⟩ := by
  cases instruction with
  | iterThrough | iterFor => rfl
  | _ => cases opens

theorem push_of_closing {assembly : Assembly} {text : String} {instruction : Instruction}
    {header : Nat} {outer : List Nat} (closes : instruction.bracket = .closing)
    (headers : assembly.openHeaders = header :: outer) :
    assembly.push text instruction =
      .ok ⟨(close assembly.lines header (assembly.lines.size + 1)).push ⟨text, .endIter header⟩,
        outer⟩ := by
  obtain ⟨old, rfl⟩ := Instruction.eq_endIter_of_closing closes
  simp only [push, headers]

theorem push_of_plain {assembly : Assembly} {text : String} {instruction : Instruction}
    (plain : instruction.bracket = .neither) :
    assembly.push text instruction =
      .ok ⟨assembly.lines.push ⟨text, instruction⟩, assembly.openHeaders⟩ := by
  cases instruction with
  | iterThrough | iterFor | endIter => cases plain
  | _ => rfl

theorem add_eq_ok_iff {assembly next : Assembly} {text : String} :
    assembly.add text = .ok next ↔
      ∃ instruction, Instruction.ofTokens (Statement.ofLine text).tokens = .ok instruction ∧
        assembly.push text instruction = .ok next := by
  rw [add]
  cases Instruction.ofTokens (Statement.ofLine text).tokens <;> simp

theorem addAll_cons_eq_ok_iff {assembly final : Assembly} {text : String} {later : List String} :
    assembly.addAll (text :: later) = .ok final ↔
      ∃ next, assembly.add text = .ok next ∧ next.addAll later = .ok final := by
  rw [addAll]
  cases assembly.add text <;> simp

theorem addAll_append_eq_ok_iff {assembly final : Assembly} {first second : List String} :
    assembly.addAll (first ++ second) = .ok final ↔
      ∃ middle, assembly.addAll first = .ok middle ∧ middle.addAll second = .ok final := by
  induction first generalizing assembly with
  | nil => simp [addAll]
  | cons text first ih =>
      simp only [List.cons_append, addAll_cons_eq_ok_iff, ih]
      constructor
      · rintro ⟨next, one, middle, rest, last⟩
        exact ⟨middle, ⟨next, one, rest⟩, last⟩
      · rintro ⟨middle, ⟨next, one, rest⟩, last⟩
        exact ⟨next, one, middle, rest, last⟩

/-! ## Texts -/

/-- Closing a block changes one line, and only its instruction. -/
theorem map_close {α : Type} (view : Line → α) (change : α → α) (lines : Array Line)
    (header closing : Nat)
    (seen : ∀ line : Line,
      view { line with instruction := line.instruction.closeAt closing } = change (view line)) :
    (close lines header closing).toList.map view =
      (lines.toList.map view).modify (header - 1) change := by
  rw [close]
  rw [Array.toList_modify]
  apply List.ext_getElem?
  intro place
  simp only [List.getElem?_map, List.getElem?_modify, Option.map_eq_map, Option.map_map]
  congr 1
  funext line
  rw [Function.comp_apply, Function.comp_apply]
  split
  · exact seen line
  · rfl

theorem texts_close (lines : Array Line) (header closing : Nat) :
    (close lines header closing).toList.map (·.text) = lines.toList.map (·.text) := by
  rw [map_close (·.text) id lines header closing fun _ => rfl, List.modify, List.modifyHead_id,
    List.modifyTailIdx_id]

theorem instructions_close (lines : Array Line) (header closing : Nat) :
    (close lines header closing).toList.map (·.instruction) =
      (lines.toList.map (·.instruction)).modify (header - 1) (·.closeAt closing) :=
  map_close (·.instruction) (·.closeAt closing) lines header closing fun _ => rfl

theorem texts_add {assembly next : Assembly} {text : String}
    (added : assembly.add text = .ok next) : next.texts = assembly.texts ++ [text] := by
  obtain ⟨instruction, -, pushed⟩ := add_eq_ok_iff.mp added
  rcases push_cases pushed with ⟨-, rfl⟩ | ⟨header, outer, -, -, rfl⟩ | ⟨-, rfl⟩
  · simp [texts]
  · simp [texts, texts_close]
  · simp [texts]

theorem size_add {assembly next : Assembly} {text : String} (added : assembly.add text = .ok next) :
    next.lines.size = assembly.lines.size + 1 := by
  have texts := congrArg List.length (texts_add added)
  simpa [Assembly.texts] using texts

/-- **Assembling keeps the texts of the lines.** -/
theorem texts_addAll {assembly final : Assembly} {later : List String}
    (added : assembly.addAll later = .ok final) : final.texts = assembly.texts ++ later := by
  induction later generalizing assembly with
  | nil =>
      obtain rfl := Except.ok.inj added
      simp
  | cons text later ih =>
      obtain ⟨next, one, rest⟩ := addAll_cons_eq_ok_iff.mp added
      rw [ih rest, texts_add one, List.append_assoc, List.singleton_append]

theorem size_addAll {assembly final : Assembly} {later : List String}
    (added : assembly.addAll later = .ok final) :
    final.lines.size = assembly.lines.size + later.length := by
  have texts := congrArg List.length (texts_addAll added)
  simpa [Assembly.texts] using texts

/-! ## Instructions -/

/-- The instruction of each line is the one that its text spells. -/
def Faithful (lines : Array Line) : Prop :=
  ∀ line ∈ lines, Instruction.ofTokens (Statement.ofLine line.text).tokens =
    .ok line.instruction.unpaired

theorem Faithful.close {lines : Array Line} (faithful : Faithful lines) (header closing : Nat) :
    Faithful (close lines header closing) := by
  intro line mem
  obtain ⟨place, inside, found⟩ := Array.mem_iff_getElem.mp mem
  unfold Assembly.close at inside found
  have old := faithful _ (Array.getElem_mem (Nat.lt_of_lt_of_eq inside Array.size_modify))
  rw [Array.getElem_modify] at found
  split at found
  · rw [← found, Instruction.unpaired_closeAt]
    exact old
  · rw [← found]
    exact old

theorem Faithful.push {lines : Array Line} (faithful : Faithful lines) {line : Line}
    (spelled : Instruction.ofTokens (Statement.ofLine line.text).tokens =
      .ok line.instruction.unpaired) : Faithful (lines.push line) := by
  intro other mem
  rcases Array.mem_push.mp mem with old | rfl
  · exact faithful other old
  · exact spelled

theorem Faithful.add {assembly next : Assembly} {text : String}
    (faithful : Faithful assembly.lines) (added : assembly.add text = .ok next) :
    Faithful next.lines := by
  obtain ⟨instruction, decoded, pushed⟩ := add_eq_ok_iff.mp added
  have same := Instruction.unpaired_of_ofTokens decoded
  rcases push_cases pushed with ⟨-, rfl⟩ | ⟨header, outer, closes, -, rfl⟩ | ⟨-, rfl⟩
  · exact faithful.push (decoded.trans (congrArg _ same.symm))
  · obtain ⟨old, rfl⟩ := Instruction.eq_endIter_of_closing closes
    exact (faithful.close header _).push (decoded.trans (congrArg _ same.symm))
  · exact faithful.push (decoded.trans (congrArg _ same.symm))

theorem Faithful.addAll {assembly final : Assembly} {later : List String}
    (faithful : Faithful assembly.lines) (added : assembly.addAll later = .ok final) :
    Faithful final.lines := by
  induction later generalizing assembly with
  | nil =>
      obtain rfl := Except.ok.inj added
      exact faithful
  | cons text later ih =>
      obtain ⟨next, one, rest⟩ := addAll_cons_eq_ok_iff.mp added
      exact ih (faithful.add one) rest

/-- The texts of assembled lines are the lines. -/
theorem texts_of_addAll {lines : List String} {assembly : Assembly}
    (assembled : empty.addAll lines = .ok assembly) : assembly.texts = lines :=
  (texts_addAll assembled).trans (List.nil_append lines)

theorem faithful_of_addAll {lines : List String} {assembly : Assembly}
    (assembled : empty.addAll lines = .ok assembly) : Faithful assembly.lines :=
  Faithful.addAll (fun _ mem => absurd mem (Array.not_mem_empty _)) assembled

/-! ## Words -/

/-- What appending a line depends on: the instructions so far and the open headers. -/
def code (assembly : Assembly) : List Instruction × List Nat :=
  (assembly.instructions, assembly.openHeaders)

section Code

variable {assembly other : Assembly} (same : assembly.code = other.code)
include same

theorem size_eq_of_code : assembly.lines.size = other.lines.size := by
  rw [← length_instructions, ← length_instructions]
  exact congrArg List.length (Prod.mk.inj same).1

theorem code_push_congr (text otherText : String) (instruction : Instruction) :
    (assembly.push text instruction).map code = (other.push otherText instruction).map code := by
  have size := size_eq_of_code same
  obtain ⟨instructions, headers⟩ := Prod.mk.inj same
  have row : assembly.lines.toList.map (·.instruction) = other.lines.toList.map (·.instruction) :=
    instructions
  cases bracket : instruction.bracket with
  | opening =>
      rw [push_of_opening bracket, push_of_opening bracket]
      simp [Except.map, code, Assembly.instructions, row, size, headers]
  | neither =>
      rw [push_of_plain bracket, push_of_plain bracket]
      simp [Except.map, code, Assembly.instructions, row, headers]
  | closing =>
      cases open_ : assembly.openHeaders with
      | nil =>
          obtain ⟨old, rfl⟩ := Instruction.eq_endIter_of_closing bracket
          simp [push, open_, headers ▸ open_, size, Except.map]
      | cons header outer =>
          rw [push_of_closing bracket open_, push_of_closing bracket (headers ▸ open_)]
          simp [Except.map, code, Assembly.instructions, instructions_close, row, size]

theorem code_add_congr {text otherText : String}
    (read : Instruction.ofTokens (Statement.ofLine text).tokens =
      Instruction.ofTokens (Statement.ofLine otherText).tokens) :
    (assembly.add text).map code = (other.add otherText).map code := by
  rw [add, add, read, size_eq_of_code same]
  cases Instruction.ofTokens (Statement.ofLine otherText).tokens with
  | error cause => rfl
  | ok instruction => exact code_push_congr same text otherText instruction

/-- **Assembling depends only on what the lines are read as.** -/
theorem code_addAll_congr {texts otherTexts : List String}
    (read : texts.map (fun text => Instruction.ofTokens (Statement.ofLine text).tokens) =
      otherTexts.map (fun text => Instruction.ofTokens (Statement.ofLine text).tokens)) :
    (assembly.addAll texts).map code = (other.addAll otherTexts).map code := by
  induction texts generalizing otherTexts assembly other with
  | nil =>
      obtain rfl := List.map_eq_nil_iff.mp read.symm
      exact congrArg Except.ok same
  | cons text later ih =>
      obtain ⟨otherText, otherLater, rfl, first, rest⟩ := List.map_eq_cons_iff.mp read.symm
      rw [addAll, addAll]
      rcases cases_of_map_eq (code_add_congr same first.symm) with
        ⟨failure, fails, otherFails⟩ | ⟨next, otherNext, added, otherAdded, one⟩
      · rw [fails, otherFails]
      · rw [added, otherAdded]
        exact ih one rest.symm

end Code

/-! ## The last line -/

theorem finish_eq_ok_iff {assembly : Assembly} {lines : Array Line} :
    assembly.finish = .ok lines ↔ assembly.openHeaders = [] ∧ assembly.lines = lines := by
  rw [finish]
  cases assembly.openHeaders <;> simp

end Assembly

/-! ## Programs -/

namespace Program

theorem decodeLines_eq_ok_iff {resolved : List String} {lines : Array Line} :
    decodeLines resolved = .ok lines ↔ Assembly.empty.addAll resolved = .ok ⟨lines, []⟩ := by
  rw [decodeLines]
  cases Assembly.empty.addAll resolved with
  | error failure => simp
  | ok assembly =>
      simp only [Assembly.finish_eq_ok_iff, Except.ok.injEq]
      constructor
      · rintro ⟨closed, rfl⟩
        obtain ⟨lines, headers⟩ := assembly
        rw [show headers = [] from closed]
      · rintro rfl
        exact ⟨rfl, rfl⟩

/-- **Lines that are read alike** make the same instructions, or fail in the same way. -/
theorem instructions_decodeLines_of_read {texts otherTexts : List String}
    (read : texts.map (fun text => Instruction.ofTokens (Statement.ofLine text).tokens) =
      otherTexts.map (fun text => Instruction.ofTokens (Statement.ofLine text).tokens)) :
    (decodeLines texts).map (fun lines => lines.toList.map (·.instruction)) =
      (decodeLines otherTexts).map fun lines => lines.toList.map (·.instruction) := by
  rw [decodeLines, decodeLines]
  rcases cases_of_map_eq (Assembly.code_addAll_congr rfl read) with
    ⟨failure, fails, otherFails⟩ | ⟨assembly, other, added, otherAdded, same⟩
  · rw [fails, otherFails]
  · obtain ⟨instructions, headers⟩ := Prod.mk.inj same
    simp only [added, otherAdded, Assembly.finish, headers]
    cases other.openHeaders with
    | nil => exact congrArg Except.ok instructions
    | cons header outer => rfl

/-- **Lines with the same words** are decoded to the same instructions, or fail in the same
way. -/
theorem instructions_decodeLines_congr {texts otherTexts : List String}
    (words : texts.map (fun text => (Statement.ofLine text).tokens) =
      otherTexts.map (fun text => (Statement.ofLine text).tokens)) :
    (decodeLines texts).map (fun lines => lines.toList.map (·.instruction)) =
      (decodeLines otherTexts).map fun lines => lines.toList.map (·.instruction) := by
  refine instructions_decodeLines_of_read ?_
  have read := congrArg (List.map Instruction.ofTokens) words
  rwa [List.map_map, List.map_map] at read

/-- **A program is compiled** when its lines can be linked and decoded. -/
theorem compile_eq_ok_iff {form : ProgramForm} {text : String} {program : Program} :
    compile form text = .ok program ↔
      ∃ resolved, link form (Source.normalLines text) = .ok (program.labels, resolved) ∧
        decodeLines resolved = .ok program.lines := by
  obtain ⟨lines, labels⟩ := program
  rw [compile]
  cases link form (Source.normalLines text) with
  | error cause => simp
  | ok linked =>
      obtain ⟨table, resolved⟩ := linked
      cases decoded : decodeLines resolved with
      | error failure =>
          simp only [decoded, reduceCtorEq, Except.ok.injEq, Prod.mk.injEq, false_iff]
          rintro ⟨other, ⟨-, rfl⟩, again⟩
          rw [decoded] at again
          cases again
      | ok assembled =>
          simp only [decoded, Except.ok.injEq, Prod.mk.injEq, Program.mk.injEq]
          constructor
          · rintro ⟨rfl, rfl⟩
            exact ⟨resolved, ⟨rfl, rfl⟩, decoded⟩
          · rintro ⟨other, ⟨rfl, rfl⟩, again⟩
            exact ⟨Except.ok.inj (decoded.symm.trans again), rfl⟩

/-- **The texts of a program are its resolved lines.** -/
theorem texts_of_decodeLines {resolved : List String} {lines : Array Line}
    (decoded : decodeLines resolved = .ok lines) : lines.toList.map (·.text) = resolved :=
  Assembly.texts_of_addAll (decodeLines_eq_ok_iff.mp decoded)

/-- **The instruction of a line is the one that its text spells**, the line of its
bracket aside. -/
theorem ofTokens_of_mem_lines {resolved : List String} {lines : Array Line}
    (decoded : decodeLines resolved = .ok lines) {line : Line} (mem : line ∈ lines) :
    Instruction.ofTokens (Statement.ofLine line.text).tokens = .ok line.instruction.unpaired :=
  Assembly.faithful_of_addAll (decodeLines_eq_ok_iff.mp decoded) line mem

end Program

end LineAsm
