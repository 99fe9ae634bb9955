import LineAsm.Proofs.Program.Targets

/-!
# Which lines have an address

A line holds a statement when it defines a label or has a word (`Source.holdsStatement`);
this is so unless its code, the part before the comment, is blank.  Every such line has an
address.  Of the lines without a statement those have none that are blank, or are a comment
behind spaces and tabs (`Source.Idle`).

One kind of line is kept although it holds no statement: a comment behind another blank than
a space or a tab, such as a form feed or a no-break space (`Source.isStrayComment`).  It
takes an address and is a line without an instruction (`Source.strayComment_takes_address`).
Normalizing keeps the lines with a statement, the stray comments and nothing else, and a line
of a program without an instruction defines a label unless it is a stray comment
(`Source.normalize_exact`).
-/

set_option autoImplicit false

namespace LineAsm

namespace Text

/-- A text that starts with a character of a word has a word. -/
theorem words_cons_ne_nil {c : Char} (solid : isBlank c = false) (text : List Char) :
    words (c :: text) ≠ [] := by
  obtain ⟨first, later, cut⟩ := List.exists_cons_of_ne_nil (fields_ne_nil isBlank text)
  rw [words, fields_cons, solid, cut]
  simp [consField]

/-- **A text has no words** exactly when it is blank. -/
theorem words_eq_nil_iff {text : List Char} : words text = [] ↔ allBlank text = true := by
  refine ⟨fun none => ?_, words_of_allBlank⟩
  induction text with
  | nil => rfl
  | cons c text ih =>
      cases blank : isBlank c with
      | false => exact absurd none (words_cons_ne_nil blank text)
      | true =>
          rw [show words (c :: text) = words [] ++ words text from
            words_append_blank [] text blank] at none
          rw [allBlank, List.all_cons, blank]
          exact ih none

end Text

namespace Source

/-! ## Dropping characters from the start -/

section DropWhile

variable {drops more : Char → Bool} (weaker : ∀ c, drops c = true → more c = true)
include weaker

theorem dropWhile_dropWhile_of_imp (text : List Char) :
    (text.dropWhile drops).dropWhile more = text.dropWhile more := by
  induction text with
  | nil => rfl
  | cons c text ih =>
      cases dropped : drops c with
      | false => rw [List.dropWhile_cons_of_neg (by simp [dropped])]
      | true =>
          rw [List.dropWhile_cons_of_pos dropped, List.dropWhile_cons_of_pos (weaker c dropped), ih]

theorem all_dropWhile_of_imp (text : List Char) :
    (text.dropWhile drops).all more = text.all more := by
  induction text with
  | nil => rfl
  | cons c text ih =>
      cases dropped : drops c with
      | false => rw [List.dropWhile_cons_of_neg (by simp [dropped])]
      | true => rw [List.dropWhile_cons_of_pos dropped, ih, List.all_cons, weaker c dropped,
          Bool.true_and]

end DropWhile

/-- What is dropped from the end of a text stands behind the rest. -/
theorem exists_dropTrailing (drops : Char → Bool) (text : List Char) :
    ∃ dropped, text = Text.dropTrailing drops text ++ dropped ∧ ∀ c ∈ dropped, drops c = true := by
  refine ⟨(text.reverse.takeWhile drops).reverse, ?_, ?_⟩
  · rw [Text.dropTrailing, ← List.reverse_append, List.takeWhile_append_dropWhile,
      List.reverse_reverse]
  · intro c mem
    exact List.mem_takeWhile_imp (List.mem_reverse.mp mem)

/-- Spaces and tabs, which may stand before a comment. -/
def indents (c : Char) : Bool := c == ' ' || c == '\t'

theorem strip_eq (line : List Char) :
    strip line = (Text.dropTrailing (· == '\r') line).dropWhile indents := rfl

theorem isBlank_of_indents (c : Char) (indent : indents c = true) : Text.isBlank c = true := by
  rcases Bool.or_eq_true_iff.mp indent with space | tab
  · obtain rfl := beq_iff_eq.mp space
    decide
  · obtain rfl := beq_iff_eq.mp tab
    decide

/-! ## Comments -/

theorem isComment_iff {text : List Char} :
    isComment text = true ↔ ∃ rest, text = '/' :: '/' :: rest := by
  unfold isComment
  split
  · rename_i rest
    exact ⟨fun _ => ⟨rest, rfl⟩, fun _ => rfl⟩
  · rename_i noMark
    exact ⟨fun wrong => (nomatch wrong), fun ⟨rest, same⟩ => absurd same (noMark rest)⟩

/-- What starts with no slash makes no comment of the text before it. -/
theorem isComment_append (text : List Char) {behind : List Char}
    (noSlash : behind.head? ≠ some '/') : isComment (text ++ behind) = isComment text := by
  rw [Bool.eq_iff_iff, isComment_iff, isComment_iff]
  constructor
  · rintro ⟨rest, same⟩
    match text, same with
    | [], same =>
        obtain rfl : behind = '/' :: '/' :: rest := same
        exact absurd rfl noSlash
    | [_], same =>
        obtain ⟨-, rfl⟩ := List.cons.inj same
        exact absurd rfl noSlash
    | _ :: _ :: text, same =>
        obtain ⟨rfl, next⟩ := List.cons.inj same
        obtain ⟨rfl, -⟩ := List.cons.inj next
        exact ⟨text, rfl⟩
  · rintro ⟨rest, rfl⟩
    exact ⟨rest ++ behind, rfl⟩

/-- A comment starts with no blank. -/
theorem dropWhile_isBlank_of_isComment {text : List Char} (comment : isComment text = true) :
    text.dropWhile Text.isBlank = text := by
  obtain ⟨rest, rfl⟩ := isComment_iff.mp comment
  exact List.dropWhile_cons_of_neg (by decide)

/-- **The code of a line is blank** when the whole line is, or when a comment stands behind
the blanks at its start. -/
theorem allBlank_code (line : List Char) :
    Text.allBlank (Statement.cutComment line).1 =
      (Text.allBlank line || isComment (line.dropWhile Text.isBlank)) := by
  fun_induction Statement.cutComment line with
  | case1 => rfl
  | case2 rest => rfl
  | case3 c rest notMark ih =>
      cases blank : Text.isBlank c with
      | true =>
          rw [List.dropWhile_cons_of_pos blank, Text.allBlank, List.all_cons, blank, Bool.true_and,
            Text.allBlank, List.all_cons, blank, Bool.true_and]
          exact ih
      | false =>
          have noComment : isComment (c :: rest) = false := Bool.eq_false_iff.mpr fun comment => by
            obtain ⟨tail, same⟩ := isComment_iff.mp comment
            obtain ⟨slash, next⟩ := List.cons.inj same
            exact notMark tail slash next
          rw [List.dropWhile_cons_of_neg (by simp [blank]), noComment]
          simp [Text.allBlank, blank]

/-! ## Lines with a statement -/

/-- Whether a line defines a label or has a word of an instruction. -/
def holdsStatement (line : String) : Bool :=
  (Statement.ofLine line).label.isSome || !(Statement.ofLine line).tokens.isEmpty

/-- Whether a line is a comment behind another blank than a space or a tab: it is a comment
without the blanks at its start, but not without its indentation. -/
def isStrayComment (line : String) : Bool :=
  isComment (line.toList.dropWhile Text.isBlank) && !isComment (line.toList.dropWhile indents)

/-- A line as normalizing leaves it. -/
def stripped (line : String) : String := String.ofList (strip line.toList)

/-- **A line holds a statement** unless it is blank or a comment behind blanks. -/
theorem holdsStatement_eq (line : String) :
    holdsStatement line =
      !(Text.allBlank line.toList || isComment (line.toList.dropWhile Text.isBlank)) := by
  rw [← allBlank_code, holdsStatement, Statement.ofLine_eq]
  cases blank : Text.allBlank (Statement.cutComment line.toList).1 with
  | true =>
      rw [Text.words_of_allBlank blank]
      rfl
  | false =>
      have some : Text.words (Statement.cutComment line.toList).1 ≠ [] := fun none => by
        rw [Text.words_eq_nil_iff.mp none] at blank
        cases blank
      obtain ⟨first, later, words⟩ := List.exists_cons_of_ne_nil some
      rw [words]
      by_cases colon : ':' ∈ first
      · simp [Statement.cutLabel_of_colon later colon]
      · simp [Statement.cutLabel_of_no_colon later colon]

/-- Stripping changes neither whether a line is blank nor whether a comment stands behind its
indentation. -/
theorem isKept_strip (line : List Char) :
    isKept (strip line) = (!Text.allBlank line && !isComment (line.dropWhile indents)) := by
  obtain ⟨returns, whole, all⟩ := exists_dropTrailing (· == '\r') line
  have blank : Text.allBlank (strip line) = Text.allBlank line := by
    have returnsBlank : returns.all Text.isBlank = true := List.all_eq_true.mpr fun c mem => by
      obtain rfl := beq_iff_eq.mp (all c mem)
      decide
    rw [Text.allBlank, Text.allBlank, strip_eq, all_dropWhile_of_imp isBlank_of_indents]
    conv => rhs; rw [whole, List.all_append, returnsBlank, Bool.and_true]
  have comment : isComment (strip line) = isComment (line.dropWhile indents) := by
    have noSlash : returns.head? ≠ some '/' := fun first =>
      absurd (all '/' (List.mem_of_head? first)) (by decide)
    conv => rhs; rw [whole, List.dropWhile_append]
    rw [strip_eq]
    split
    · rename_i none
      have kept : returns.dropWhile indents = returns := by
        cases returns with
        | nil => rfl
        | cons c rest =>
            obtain rfl := beq_iff_eq.mp (all c (.head _))
            exact List.dropWhile_cons_of_neg (by decide)
      rw [List.isEmpty_iff.mp none, kept, ← isComment_append [] noSlash, List.nil_append]
    · exact (isComment_append _ noSlash).symm
  rw [isKept, blank, comment]

/-- **A line is kept** exactly when it holds a statement or is a stray comment. -/
theorem isKept_strip_eq (line : String) :
    isKept (strip line.toList) = (holdsStatement line || isStrayComment line) := by
  rw [isKept_strip, holdsStatement_eq, isStrayComment]
  cases behindBlanks : isComment (line.toList.dropWhile Text.isBlank) with
  | true =>
      have notBlank : Text.allBlank line.toList = false := Bool.eq_false_iff.mpr fun blank => by
        rw [List.dropWhile_eq_nil_iff.mpr (List.all_eq_true.mp blank)] at behindBlanks
        cases behindBlanks
      simp [notBlank]
  | false =>
      have notIndented : isComment (line.toList.dropWhile indents) = false :=
        Bool.eq_false_iff.mpr fun comment => by
          rw [← dropWhile_dropWhile_of_imp isBlank_of_indents,
            dropWhile_isBlank_of_isComment comment, comment] at behindBlanks
          cases behindBlanks
      simp [notIndented]

/-- A stray comment holds no statement. -/
theorem holdsStatement_of_isStrayComment {line : String} (stray : isStrayComment line = true) :
    holdsStatement line = false := by
  rw [holdsStatement_eq, (Bool.and_eq_true_iff.mp stray).1]
  simp

/-! ## Normalizing -/

theorem normalize_eq_filter (lines : List String) :
    normalize lines =
      (lines.filter fun line => holdsStatement line || isStrayComment line).map stripped := by
  rw [normalize, List.filter_map, List.map_map]
  refine congrArg (List.map _) (List.filter_congr ?_)
  intro line _
  exact isKept_strip_eq line

/-- **Only lines with a statement have an address** exactly when there is no stray comment. -/
theorem normalize_eq_statements_iff (lines : List String) :
    normalize lines = (lines.filter holdsStatement).map stripped ↔
      ∀ line ∈ lines, isStrayComment line = false := by
  rw [normalize_eq_filter]
  constructor
  · intro same line mem
    have sublist : (lines.filter holdsStatement).Sublist
        (lines.filter fun line => holdsStatement line || isStrayComment line) :=
      List.monotone_filter_right lines fun line holds => by rw [holds, Bool.true_or]
    have sizes := congrArg List.length same
    rw [List.length_map, List.length_map] at sizes
    -- A stray comment would be kept beside the lines with a statement.
    refine Bool.eq_false_iff.mpr fun stray => ?_
    have kept : line ∈ lines.filter holdsStatement := by
      rw [sublist.eq_of_length sizes.symm]
      exact List.mem_filter.mpr ⟨mem, by rw [stray, Bool.or_true]⟩
    have holds := (List.mem_filter.mp kept).2
    rw [holdsStatement_of_isStrayComment stray] at holds
    cases holds
  · intro noStray
    refine congrArg (List.map stripped) (List.filter_congr ?_)
    intro line mem
    rw [noStray line mem, Bool.or_false]

/-- A line that is not kept takes no address. -/
theorem normalize_of_not_kept {line : String} (dropped : isKept (strip line.toList) = false)
    (before after : List String) :
    normalize (before ++ line :: after) = normalize (before ++ after) := by
  simp [normalize, dropped]

/-- Lines that are blank, and comments behind spaces and tabs. -/
inductive Idle : String → Prop where
  | blank {line : String} (allBlank : Text.allBlank line.toList = true) : Idle line
  | comment {indentation : String} (rest : String)
      (indent : ∀ c ∈ indentation.toList, indents c = true) : Idle (indentation ++ "//" ++ rest)

/-- A blank line takes no address, and neither does a comment behind spaces and tabs. -/
theorem Idle.not_kept {line : String} (idle : Idle line) : isKept (strip line.toList) = false := by
  rw [isKept_strip]
  cases idle with
  | blank allBlank =>
      rw [allBlank]
      rfl
  | @comment indentation rest indent =>
      have comment : isComment ((indentation ++ "//" ++ rest).toList.dropWhile indents) = true := by
        rw [String.toList_append, String.toList_append, List.append_assoc,
          List.dropWhile_append_of_pos indent]
        rfl
      rw [comment]
      exact Bool.and_false _

/-! ## Lines without an instruction -/

/-- An addressed line holds a statement unless it is a stray comment. -/
theorem holdsStatement_of_mem_normalLines {text raw : String} (mem : raw ∈ normalLines text) :
    holdsStatement raw = !isStrayComment raw := by
  have normal := normalLine_of_mem_normalLines mem
  have kept := normal.kept
  rw [← strip_eq_self normal.noReturn normal.noIndent, isKept_strip_eq] at kept
  cases stray : isStrayComment raw with
  | true => exact holdsStatement_of_isStrayComment stray
  | false => rwa [stray, Bool.or_false] at kept

/-- **A line without an instruction** defines a label unless it is a stray comment. -/
theorem exists_raw_of_nop {form : ProgramForm} {text : String} {program : Program}
    {number : Nat} (compiled : Program.compile form text = .ok program)
    (here : program.instruction? number = some .nop) :
    ∃ raw, Symbolic.lineAt? (normalLines text) number = some raw ∧
      ((labelOf? raw).isSome = true ↔ isStrayComment raw = false) := by
  obtain ⟨raw, resolved, line, isRaw, done, read⟩ :=
    Program.exists_raw_of_instruction? compiled here
  refine ⟨raw, isRaw, ?_⟩
  rcases Instruction.ofTokens_cases read with ⟨noWords, -⟩ | ⟨word, operands, opcode, -, -, spells⟩
  · have tokens := LabelTable.tokens_eq_nil_of_resolveLine done noWords
    have mem : raw ∈ normalLines text := by
      rw [Symbolic.lineAt?] at isRaw
      split at isRaw
      · cases isRaw
      · exact List.mem_of_getElem? isRaw
    have holds := holdsStatement_of_mem_normalLines mem
    rw [holdsStatement, tokens, List.isEmpty_nil, Bool.not_true, Bool.or_false] at holds
    rw [labelOf?, holds, Bool.not_eq_true']
  · cases spells

/-- **Which lines have an address.**  Normalizing keeps, in their order, the lines that hold a
statement and the stray comments, so that just lines with a statement have an address when
there is no stray comment.  Blank lines take no address, and neither do comments behind spaces
and tabs.  A line of a program without an instruction defines a label unless it is a stray
comment. -/
theorem normalize_exact (lines : List String) :
    normalize lines =
        (lines.filter fun line => holdsStatement line || isStrayComment line).map stripped ∧
      (normalize lines = (lines.filter holdsStatement).map stripped ↔
        ∀ line ∈ lines, isStrayComment line = false) ∧
      (∀ before line after, lines = before ++ line :: after → Idle line →
        normalize lines = normalize (before ++ after)) ∧
      ∀ form text program number, Program.compile form text = .ok program →
        program.instruction? number = some .nop →
        ∃ raw, Symbolic.lineAt? (normalLines text) number = some raw ∧
          ((labelOf? raw).isSome = true ↔ isStrayComment raw = false) := by
  refine ⟨normalize_eq_filter lines, normalize_eq_statements_iff lines, ?_, ?_⟩
  · rintro before line after rfl idle
    exact normalize_of_not_kept idle.not_kept before after
  · intro form text program number compiled here
    exact exists_raw_of_nop compiled here

/-- A source with a heading behind a form feed, a label and an instruction. -/
def pagedSource : String := "\x0c// part two\nnext:\nINC A0\n"

/-- What it compiles to: the heading is the first line. -/
def pagedProgram : Program where
  lines := #[⟨"\x0c// part two", .nop⟩, ⟨"next:", .nop⟩, ⟨"INC A0", .inc ⟨.a, 0⟩⟩]
  labels := ⟨[("next", 2)]⟩

theorem normalize_exact_paged :
    (∀ line ∈ ["a:", "\u00a0\r", "RET"], isStrayComment line = false) ∧
      normalize ["a:", "\u00a0\r", "RET"] =
        (["a:", "\u00a0\r", "RET"].filter holdsStatement).map stripped ∧
      (Idle "\u00a0\r" ∧ normalize ["a:", "\u00a0\r", "RET"] = normalize ["a:", "RET"]) ∧
      Program.compile .source pagedSource = .ok pagedProgram ∧
      pagedProgram.instruction? 2 = some .nop ∧
      ∃ raw, Symbolic.lineAt? (normalLines pagedSource) 2 = some raw ∧
        ((labelOf? raw).isSome = true ↔ isStrayComment raw = false) := by
  obtain ⟨-, statements, idles, nop⟩ := normalize_exact ["a:", "\u00a0\r", "RET"]
  have noStray : ∀ line ∈ ["a:", "\u00a0\r", "RET"], isStrayComment line = false := by
    decide +kernel
  have idle : Idle "\u00a0\r" := .blank (by decide +kernel)
  have compiled : Program.compile .source pagedSource = .ok pagedProgram := by decide +kernel
  have here : pagedProgram.instruction? 2 = some .nop := by decide +kernel
  exact ⟨noStray, statements.mpr noStray, ⟨idle, idles ["a:"] _ ["RET"] rfl idle⟩, compiled, here,
    nop _ _ _ _ compiled here⟩

/-- **A comment behind a form feed takes an address.**  It holds no statement and is kept all
the same, and the program has a line without an instruction that defines no label. -/
theorem strayComment_takes_address :
    normalize ["\x0c// part two"] ≠
        (["\x0c// part two"].filter holdsStatement).map stripped ∧
      normalLines pagedSource = ["\x0c// part two", "next:", "INC A0"] ∧
      Program.compile .source pagedSource = .ok pagedProgram ∧
      pagedProgram.instruction? 1 = some .nop ∧
      labelAt? (normalLines pagedSource) 1 = none := by
  refine ⟨?_, ?_, ?_, ?_, ?_⟩ <;> decide +kernel

end Source

end LineAsm
