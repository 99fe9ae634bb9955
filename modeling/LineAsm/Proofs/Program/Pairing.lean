import LineAsm.Proofs.Program.Balance
import LineAsm.Proofs.Program.Bodies
import LineAsm.Proofs.Text.LineByLine

/-!
# The pairing of blocks and its errors

The brackets of a program are those of its resolved lines (`Assembly.brackets_of_addAll`), and
two of them are paired exactly when the lines between them are balanced (`Program.Paired`).

A resolved line is refused when it is not decoded, or when it closes a block that was never
opened (`Program.Refused`).  The error of a row of resolved lines is the one of the first line
that is refused; when none is refused, it is at the last header that is left open
(`Program.Fails`).  So resolved lines are a program exactly when all of them are decoded and
their brackets are balanced.  `Program.compile_paired` says all this of a text.

While lines are assembled, no block is open exactly when the lines so far are balanced, and
otherwise the lines behind the innermost open header are: this is `Opened.balanced` and
`Opened.exists_open`, and both errors are read off from there.
-/

set_option autoImplicit false

namespace LineAsm

/-- What a resolved line does to the open blocks.  A line that is not decoded does nothing. -/
def Bracket.ofLine (text : String) : Bracket :=
  match Instruction.ofTokens (Statement.ofLine text).tokens with
  | .ok instruction => instruction.bracket
  | .error _ => .neither

@[simp]
theorem Instruction.bracket_unpaired (instruction : Instruction) :
    instruction.unpaired.bracket = instruction.bracket := by
  cases instruction <;> rfl

theorem Bracket.ofLine_of_ofTokens {text : String} {instruction : Instruction}
    (decoded : Instruction.ofTokens (Statement.ofLine text).tokens = .ok instruction) :
    Bracket.ofLine text = instruction.bracket := by
  rw [Bracket.ofLine, decoded]

/-! ## Errors -/

namespace Program

/-- Why the resolved line with a number cannot follow the lines before it. -/
inductive Refused (resolved : List String) (number : Nat) : CompileError → Prop where
  /-- The line is not decoded. -/
  | undecodable {before after : List String} {text : String} {cause : DecodeError}
      (here : resolved = before ++ text :: after) (place : number = before.length + 1)
      (spelled : Instruction.ofTokens (Statement.ofLine text).tokens = .error cause) :
      Refused resolved number (.decode number cause)
  /-- The line closes a block that was never opened. -/
  | unopened (alone : Bracket.Unopened (resolved.map Bracket.ofLine) number) :
      Refused resolved number (.decode number .unmatchedBlockEnd)

/-- Why resolved lines are no program. -/
inductive Fails (resolved : List String) : CompileError → Prop where
  /-- A line is refused, and none before it. -/
  | refused {failure : CompileError} (first : LineByLine.First Refused resolved failure) :
      Fails resolved failure
  /-- No line is refused, and of the headers that are left open this is the last. -/
  | unclosed {header : Nat} (accepted : ∀ number failure, ¬ Refused resolved number failure)
      (open_ : Bracket.Unclosed (resolved.map Bracket.ofLine) header)
      (last : ∀ other, Bracket.Unclosed (resolved.map Bracket.ofLine) other → other ≤ header) :
      Fails resolved (.decode header .unclosedBlock)

end Program

/-! ## One more line -/

namespace Assembly

/-- A line cannot be appended when it closes a block and none is open. -/
theorem push_eq_error_iff {assembly : Assembly} {text : String} {instruction : Instruction}
    {failure : CompileError} :
    assembly.push text instruction = .error failure ↔
      instruction.bracket = .closing ∧ assembly.openHeaders = [] ∧
        failure = .decode (assembly.lines.size + 1) .unmatchedBlockEnd := by
  cases bracket : instruction.bracket with
  | opening => simp [push_of_opening bracket]
  | neither => simp [push_of_plain bracket]
  | closing =>
      cases headers : assembly.openHeaders with
      | nil =>
          obtain ⟨old, rfl⟩ := Instruction.eq_endIter_of_closing bracket
          simp [push, headers, eq_comm (a := failure)]
      | cons header outer => simp [push_of_closing bracket headers]

theorem add_eq_error_iff {assembly : Assembly} {text : String} {failure : CompileError} :
    assembly.add text = .error failure ↔
      (∃ cause, Instruction.ofTokens (Statement.ofLine text).tokens = .error cause ∧
          failure = .decode (assembly.lines.size + 1) cause) ∨
        ((Bracket.ofLine text = .closing ∧ assembly.openHeaders = []) ∧
          failure = .decode (assembly.lines.size + 1) .unmatchedBlockEnd) := by
  rw [add, Bracket.ofLine]
  cases Instruction.ofTokens (Statement.ofLine text).tokens with
  | error cause => simp [eq_comm (a := failure)]
  | ok instruction => simp [push_eq_error_iff, and_assoc]

theorem addAll_concat_eq_error_iff {assembly : Assembly} {lines : List String} {text : String}
    {failure : CompileError} :
    assembly.addAll (lines ++ [text]) = .error failure ↔
      assembly.addAll lines = .error failure ∨
        ∃ middle, assembly.addAll lines = .ok middle ∧ middle.add text = .error failure := by
  induction lines generalizing assembly with
  | nil =>
      rw [List.nil_append, addAll]
      cases one : assembly.add text <;> simp [addAll, one]
  | cons first later ih =>
      rw [List.cons_append, addAll, addAll]
      cases assembly.add first with
      | error other => simp
      | ok next => exact ih

section Assembled

variable {lines : List String} {assembly : Assembly}
  (assembled : Assembly.empty.addAll lines = .ok assembly)
include assembled

theorem size_of_addAll : assembly.lines.size = lines.length := by
  rw [← texts_of_addAll assembled, texts, List.length_map, Array.length_toList]

/-- **The brackets so far** are those of the lines. -/
theorem brackets_of_addAll :
    assembly.instructions.map (·.bracket) = lines.map Bracket.ofLine := by
  rw [← texts_of_addAll assembled, texts, instructions, List.map_map, List.map_map]
  refine List.map_congr_left ?_
  intro line mem
  have spelled := faithful_of_addAll assembled line (Array.mem_toList_iff.mp mem)
  exact ((Bracket.ofLine_of_ofTokens spelled).trans line.instruction.bracket_unpaired).symm

/-- The lines so far are decoded. -/
theorem decoded_of_addAll {text : String} (mem : text ∈ lines) :
    ∃ instruction, Instruction.ofTokens (Statement.ofLine text).tokens = .ok instruction := by
  rw [← texts_of_addAll assembled] at mem
  obtain ⟨line, inside, rfl⟩ := List.mem_map.mp mem
  exact ⟨_, faithful_of_addAll assembled line (Array.mem_toList_iff.mp inside)⟩

/-- **No block is open** exactly when the lines so far are balanced. -/
theorem balanced_iff_of_addAll :
    Bracket.Balanced (lines.map Bracket.ofLine) ↔ assembly.openHeaders = [] := by
  have opened := opened_of_addAll assembled
  rw [← brackets_of_addAll assembled]
  cases headers : assembly.openHeaders with
  | nil =>
      rw [headers] at opened
      exact iff_of_true opened.balanced rfl
  | cons header outer =>
      rw [headers] at opened
      obtain ⟨before, body, row, balanced, -⟩ := opened.exists_open
      exact iff_of_false (row ▸ Bracket.not_balanced_of_open balanced) (List.cons_ne_nil _ _)

/-- **The innermost open header** has a balanced row behind it. -/
theorem exists_open_of_addAll {header : Nat} {outer : List Nat}
    (headers : assembly.openHeaders = header :: outer) :
    ∃ before body, lines.map Bracket.ofLine = before ++ .opening :: body ∧
      Bracket.Balanced body ∧ header = before.length + 1 := by
  have opened := opened_of_addAll assembled
  rw [headers] at opened
  rw [← brackets_of_addAll assembled]
  exact opened.exists_open

/-- **A closing bracket belongs to no header** when no block is open before it. -/
theorem unopened_iff_of_addAll (text : String) :
    Bracket.Unopened ((lines ++ [text]).map Bracket.ofLine) (lines.length + 1) ↔
      Bracket.ofLine text = .closing ∧ assembly.openHeaders = [] := by
  rw [List.map_append, List.map_singleton, ← List.length_map Bracket.ofLine]
  constructor
  · rintro ⟨⟨before, after, row, place⟩, alone⟩
    obtain ⟨same, rest⟩ := List.append_inj row (Nat.succ.inj place)
    have closes := (List.cons.inj rest).1
    refine ⟨closes, ?_⟩
    cases headers : assembly.openHeaders with
    | nil => rfl
    | cons header outer =>
        obtain ⟨earlier, body, row, balanced, -⟩ := exists_open_of_addAll assembled headers
        rw [closes] at alone
        exact absurd (Bracket.pairs_of_open row balanced []) (alone _)
  · rintro ⟨closes, headers⟩
    rw [closes]
    exact Bracket.unopened_of_balanced ((balanced_iff_of_addAll assembled).mpr headers) []

/-- **A line is refused** exactly when it cannot be appended to the lines before it. -/
theorem add_eq_error_iff_refused {text : String} {failure : CompileError} :
    assembly.add text = .error failure ↔
      Program.Refused (lines ++ [text]) (lines.length + 1) failure := by
  rw [add_eq_error_iff, ← unopened_iff_of_addAll assembled, size_of_addAll assembled]
  constructor
  · rintro (⟨cause, spelled, rfl⟩ | ⟨alone, rfl⟩)
    · exact .undecodable rfl rfl spelled
    · exact .unopened alone
  · intro refused
    cases refused with
    | undecodable here place spelled =>
        obtain ⟨-, last⟩ := List.append_inj here (Nat.succ.inj place)
        obtain ⟨rfl, -⟩ := List.cons.inj last
        exact .inl ⟨_, spelled, rfl⟩
    | unopened alone => exact .inr ⟨alone, rfl⟩

end Assembled

end Assembly

/-! ## All lines -/

namespace Program

theorem Refused.inside {resolved : List String} {number : Nat} {failure : CompileError}
    (refused : Refused resolved number failure) : 0 < number ∧ number ≤ resolved.length := by
  cases refused with
  | undecodable here place =>
      subst here place
      simp
  | unopened alone =>
      obtain ⟨⟨before, after, row, rfl⟩, -⟩ := alone
      rw [← List.length_map Bracket.ofLine, row]
      simp

/-- A line is refused by what stands up to it. -/
theorem refused_concat_iff {resolved : List String} {number : Nat} {failure : CompileError}
    (inside : number ≤ resolved.length) (text : String) :
    Refused (resolved ++ [text]) number failure ↔ Refused resolved number failure := by
  have brackets : Bracket.Unopened ((resolved ++ [text]).map Bracket.ofLine) number ↔
      Bracket.Unopened (resolved.map Bracket.ofLine) number := by
    rw [List.map_append]
    exact Bracket.unopened_append_iff (by rwa [List.length_map]) _
  constructor
  · intro refused
    cases refused with
    | undecodable here place spelled =>
        subst place
        obtain ⟨rest, cut⟩ := exists_append_of_append here inside
        exact .undecodable cut rfl spelled
    | unopened alone => exact .unopened (brackets.mp alone)
  · intro refused
    cases refused with
    | undecodable here place spelled =>
        exact .undecodable (by rw [here, List.append_assoc, List.cons_append]) place spelled
    | unopened alone => exact .unopened (brackets.mpr alone)

/-- The lines are assembled line by line. -/
theorem addAll_lineByLine : LineByLine Assembly.empty.addAll Refused where
  nil := ⟨_, rfl⟩
  inside := Refused.inside
  upTo := refused_concat_iff
  concat := by
    intro lines text failure
    rw [Assembly.addAll_concat_eq_error_iff]
    refine or_congr_right ⟨?_, ?_⟩
    · rintro ⟨assembly, assembled, fails⟩
      exact ⟨⟨assembly, assembled⟩, (Assembly.add_eq_error_iff_refused assembled).mp fails⟩
    · rintro ⟨⟨assembly, assembled⟩, refused⟩
      exact ⟨assembly, assembled, (Assembly.add_eq_error_iff_refused assembled).mpr refused⟩

theorem decodeLines_eq_error_iff {resolved : List String} {failure : CompileError} :
    decodeLines resolved = .error failure ↔
      Assembly.empty.addAll resolved = .error failure ∨
        ∃ assembly header outer, Assembly.empty.addAll resolved = .ok assembly ∧
          assembly.openHeaders = header :: outer ∧ failure = .decode header .unclosedBlock := by
  rw [decodeLines]
  cases Assembly.empty.addAll resolved with
  | error other => simp
  | ok assembly =>
      simp only [Assembly.finish]
      cases headers : assembly.openHeaders <;> simp [headers, eq_comm (a := failure)]

/-- **The last header that is left open** is the innermost one. -/
theorem unclosed_of_addAll {resolved : List String} {assembly : Assembly} {header : Nat}
    {outer : List Nat} (assembled : Assembly.empty.addAll resolved = .ok assembly)
    (headers : assembly.openHeaders = header :: outer) :
    Bracket.Unclosed (resolved.map Bracket.ofLine) header ∧
      ∀ other, Bracket.Unclosed (resolved.map Bracket.ofLine) other → other ≤ header := by
  obtain ⟨before, body, row, balanced, rfl⟩ :=
    Assembly.exists_open_of_addAll assembled headers
  rw [row]
  exact ⟨Bracket.unclosed_of_balanced before balanced,
    fun _ => Bracket.le_of_unclosed balanced⟩

/-- **Why resolved lines are not decoded**: a line is refused, or a header is left open. -/
theorem decodeLines_eq_error_iff_fails {resolved : List String} {failure : CompileError} :
    decodeLines resolved = .error failure ↔ Fails resolved failure := by
  rw [decodeLines_eq_error_iff]
  constructor
  · rintro (refused | ⟨assembly, header, outer, assembled, headers, rfl⟩)
    · exact .refused (addAll_lineByLine.eq_error_iff.mp refused)
    · obtain ⟨open_, last⟩ := unclosed_of_addAll assembled headers
      exact .unclosed (addAll_lineByLine.exists_ok_iff.mp ⟨assembly, assembled⟩) open_ last
  · intro fails
    cases fails with
    | refused first => exact .inl (addAll_lineByLine.eq_error_iff.mpr first)
    | @unclosed header accepted open_ last =>
        obtain ⟨assembly, assembled⟩ := addAll_lineByLine.exists_ok_iff.mpr accepted
        cases headers : assembly.openHeaders with
        | nil =>
            have balanced := (Assembly.balanced_iff_of_addAll assembled).mpr headers
            exact absurd open_ balanced.not_unclosed
        | cons innermost outer =>
            -- Both headers are left open and are the last one, so they are the same.
            obtain ⟨innermostOpen, innermostLast⟩ := unclosed_of_addAll assembled headers
            obtain rfl := Nat.le_antisymm (innermostLast header open_)
              (last innermost innermostOpen)
            exact .inr ⟨assembly, header, outer, assembled, headers, rfl⟩

/-- **Resolved lines are a program** exactly when all of them are decoded and their brackets
are balanced. -/
theorem exists_decodeLines_iff {resolved : List String} :
    (∃ lines, decodeLines resolved = .ok lines) ↔
      (∀ text ∈ resolved, ∃ instruction,
          Instruction.ofTokens (Statement.ofLine text).tokens = .ok instruction) ∧
        Bracket.Balanced (resolved.map Bracket.ofLine) := by
  constructor
  · rintro ⟨lines, decoded⟩
    have assembled := decodeLines_eq_ok_iff.mp decoded
    exact ⟨fun _ => Assembly.decoded_of_addAll assembled,
      (Assembly.balanced_iff_of_addAll assembled).mpr rfl⟩
  · rintro ⟨decodes, balanced⟩
    cases decoded : decodeLines resolved with
    | ok lines => exact ⟨lines, rfl⟩
    | error failure =>
        cases decodeLines_eq_error_iff_fails.mp decoded with
        | refused first =>
            obtain ⟨number, refused, -⟩ := first
            cases refused with
            | undecodable here _ spelled =>
                obtain ⟨instruction, read⟩ := decodes _ (here ▸ List.mem_append_cons_self)
                rw [spelled] at read
                cases read
            | unopened alone => exact absurd alone balanced.not_unopened
        | unclosed _ open_ => exact absurd open_ balanced.not_unclosed

/-! ## Programs -/

/-- The brackets of a program in the order of its lines. -/
def brackets (program : Program) : List Bracket :=
  program.instructions.map (·.bracket)

/-- The blocks of a program are paired.  A block reaches from a header to the line that the
header carries, and what lies between is balanced. -/
structure Paired (program : Program) : Prop where
  balanced : ∀ header closing, program.closing? header = some closing ↔
    Bracket.Pairs program.brackets header closing
  before : ∀ header closing, program.closing? header = some closing → header < closing
  /-- The closing brackets are those of the blocks, and carry their headers. -/
  carried : ∀ header closing, program.closing? header = some closing ↔
    program.instruction? closing = some (.endIter header)
  /-- Of two blocks, the second starts behind the first, or ends within it. -/
  apart : ∀ header closing other otherClosing, program.closing? header = some closing →
    program.closing? other = some otherClosing → header < other →
    closing < other ∨ otherClosing < closing

section Compiled

variable {form : ProgramForm} {text : String} {program : Program} {header closing : Nat}
  (compiled : compile form text = .ok program)
include compiled

/-- The brackets between those of a block are balanced. -/
theorem pairs_of_closing? (closes : program.closing? header = some closing) :
    Bracket.Pairs program.brackets header closing := by
  obtain ⟨tree, before, later, head, body, written, atHeader, ends, row⟩ :=
    exists_body_of_closing? compiled closes
  have pairs := BlockTree.pairs_of_block before later head body (header + 1) closing header
  have atClosing : before.length + body.size + 2 = closing := by omega
  rwa [← row, ← written, atClosing, Nat.add_comm _ 1, ← atHeader] at pairs

/-- **A block** is made of two brackets with a balanced row between them. -/
theorem closing?_eq_some_iff_pairs :
    program.closing? header = some closing ↔ Bracket.Pairs program.brackets header closing := by
  refine ⟨pairs_of_closing? compiled, ?_⟩
  intro pairs
  have belongs := pairs
  obtain ⟨before, body, after, row, -, rfl, -⟩ := belongs
  have opens : program.brackets[before.length]? = some .opening := by
    rw [row]
    exact BlockTree.getElem?_append_cons_self _ _ _
  obtain ⟨instruction, found, isOpening⟩ := Option.map_eq_some_iff.mp (List.getElem?_map ▸ opens)
  obtain ⟨head, other, rfl⟩ := Instruction.exists_head isOpening
  have closes : program.closing? (before.length + 1) = some other :=
    closing?_of_instruction? (by rw [instruction?_eq, if_neg (Nat.succ_ne_zero _)]; exact found)
      (head.closing?_instruction other)
  rwa [(pairs_of_closing? compiled closes).closing_unique pairs] at closes

/-- **The blocks of a compiled program are paired.** -/
theorem paired_of_compile : program.Paired where
  balanced _ _ := closing?_eq_some_iff_pairs compiled
  before _ _ closes := lt_closing compiled closes
  carried _ _ := ⟨instruction?_closing compiled, closing?_of_endIter compiled⟩
  apart header closing other otherClosing closes otherCloses behind := by
    rcases Nat.lt_trichotomy closing other with beyond | same | within
    · exact .inl beyond
    · subst same
      rw [closing?, instruction?_closing compiled closes] at otherCloses
      cases otherCloses
    · exact .inr (closing_lt_closing compiled closes otherCloses behind within)

end Compiled

/-- The brackets of decoded lines are those of the resolved lines. -/
theorem brackets_of_decodeLines {resolved : List String} {program : Program}
    (decoded : decodeLines resolved = .ok program.lines) :
    program.brackets = resolved.map Bracket.ofLine :=
  Assembly.brackets_of_addAll (decodeLines_eq_ok_iff.mp decoded)

section Linked

variable {form : ProgramForm} {text : String} {labels : LabelTable} {resolved : List String}

/-- **A text that cannot be linked** is no program, whatever else is wrong with it. -/
theorem compile_eq_link_error_iff {cause : LinkError} :
    compile form text = .error (.link cause) ↔
      link form (Source.normalLines text) = .error cause := by
  rw [compile]
  cases link form (Source.normalLines text) with
  | error other => simp
  | ok linked =>
      obtain ⟨labels, resolved⟩ := linked
      simp only [reduceCtorEq, iff_false]
      intro wrong
      split at wrong
      · rename_i failure fails
        obtain rfl := Except.error.inj wrong
        cases decodeLines_eq_error_iff_fails.mp fails with
        | refused first =>
            obtain ⟨number, refused, -⟩ := first
            cases refused
      · cases wrong

variable (linked : link form (Source.normalLines text) = .ok (labels, resolved))
include linked

theorem compile_of_link :
    compile form text = (decodeLines resolved).map fun lines => ⟨lines, labels⟩ := by
  rw [compile, linked]
  cases decoded : decodeLines resolved <;> simp [decoded, Except.map]

theorem exists_compile_iff :
    (∃ program, compile form text = .ok program) ↔ ∃ lines, decodeLines resolved = .ok lines := by
  rw [compile_of_link linked]
  cases decodeLines resolved <;> simp [Except.map]

theorem compile_eq_error_iff {failure : CompileError} :
    compile form text = .error failure ↔ Fails resolved failure := by
  rw [compile_of_link linked, ← decodeLines_eq_error_iff_fails]
  cases decodeLines resolved <;> simp [Except.map]

theorem brackets_of_compile {program : Program} (compiled : compile form text = .ok program) :
    program.brackets = resolved.map Bracket.ofLine := by
  obtain ⟨again, linkedAgain, decoded⟩ := compile_eq_ok_iff.mp compiled
  obtain rfl := (Prod.mk.inj (Except.ok.inj (linked.symm.trans linkedAgain))).2
  exact brackets_of_decodeLines decoded

end Linked

/-- **Blocks are paired by balance, with exact errors.**  A text whose labels cannot be linked
has the error of its labels.  Any other text is a program just when its resolved lines are all
decoded and have balanced brackets.  The blocks of the program are then paired; otherwise the
error is at the first line that is refused or, when none is, at the last header that is left
open. -/
theorem compile_paired (form : ProgramForm) (text : String) :
    (∀ cause, compile form text = .error (.link cause) ↔
        link form (Source.normalLines text) = .error cause) ∧
      ∀ labels resolved, link form (Source.normalLines text) = .ok (labels, resolved) →
        ((∃ program, compile form text = .ok program) ↔
          (∀ line ∈ resolved, ∃ instruction,
              Instruction.ofTokens (Statement.ofLine line).tokens = .ok instruction) ∧
            Bracket.Balanced (resolved.map Bracket.ofLine)) ∧
        (∀ program, compile form text = .ok program →
          program.brackets = resolved.map Bracket.ofLine ∧ program.Paired) ∧
        ∀ failure, compile form text = .error failure ↔ Fails resolved failure := by
  refine ⟨fun _ => compile_eq_link_error_iff, ?_⟩
  intro labels resolved linked
  refine ⟨(exists_compile_iff linked).trans exists_decodeLines_iff, ?_,
    fun _ => compile_eq_error_iff linked⟩
  intro program compiled
  exact ⟨brackets_of_compile linked compiled, paired_of_compile compiled⟩

/-- Two blocks, one in the other. -/
def nestedSource : String :=
  "ITER_FOR |A0:2| (\nITER_THROUGH |B0:B3| -> Z0 (\nINC Z0\n)\n)\n"

/-- What they compile to. -/
def nestedProgram : Program where
  lines := #[⟨"ITER_FOR |A0:2| (", .iterFor ⟨.a, 0⟩ 2 5⟩,
    ⟨"ITER_THROUGH |B0:B3| -> Z0 (", .iterThrough ⟨.b, 0⟩ ⟨.b, 3⟩ ⟨.z, 0⟩ 4⟩,
    ⟨"INC Z0", .inc ⟨.z, 0⟩⟩, ⟨")", .endIter 2⟩, ⟨")", .endIter 1⟩]
  labels := ⟨[]⟩

/-- Three blocks, of which the first and the last are left open. -/
def openSource : String :=
  "ITER_FOR |A0:2| (\nITER_FOR |A1:2| (\n)\nITER_FOR |A2:2| (\nRET\n"

/-- Their lines. -/
def openLines : List String :=
  ["ITER_FOR |A0:2| (", "ITER_FOR |A1:2| (", ")", "ITER_FOR |A2:2| (", "RET"]

theorem compile_paired_nested :
    (compile .source nestedSource = .ok nestedProgram ∧ nestedProgram.Paired) ∧
      link .source (Source.normalLines openSource) = .ok (⟨[]⟩, openLines) ∧
      compile .source openSource = .error (.decode 4 .unclosedBlock) ∧
      Fails openLines (.decode 4 .unclosedBlock) := by
  have linked : link .source (Source.normalLines nestedSource) =
      .ok (⟨[]⟩, nestedProgram.lines.toList.map (·.text)) := by decide +kernel
  have compiled : compile .source nestedSource = .ok nestedProgram := by decide +kernel
  have openLinked : link .source (Source.normalLines openSource) = .ok (⟨[]⟩, openLines) := by
    decide +kernel
  have fails : compile .source openSource = .error (.decode 4 .unclosedBlock) := by
    decide +kernel
  exact ⟨⟨compiled, (((compile_paired _ _).2 _ _ linked).2.1 _ compiled).2⟩, openLinked, fails,
    (((compile_paired _ _).2 _ _ openLinked).2.2 _).mp fails⟩

end Program

end LineAsm
