import LineAsm.Proofs.Source.Statement
import LineAsm.Source.Normal

/-!
# Normal lines

A line is normal (`NormalLine`) when normalizing leaves it as it is and keeps it.
Every addressed line of a text is normal (`normalLine_of_mem_normalLines`), and normal
lines that are each ended by a line feed are read back as they are
(`normalLines_terminated`): normalizing is done once.

A line that defines a label or holds a word is kept (`isKept_of_statement`), so the
line written for a well-formed statement with a word is normal as soon as its comment
fits a line (`normalLine_render`).
-/

set_option autoImplicit false

namespace LineAsm.Source

/-- A line that normalizing leaves as it is and keeps. -/
structure NormalLine (line : List Char) : Prop where
  noFeed : '\n' ∉ line
  noReturn : line.getLast? ≠ some '\r'
  noIndent : ∀ c, line.head? = some c → (c == ' ' || c == '\t') = false
  kept : isKept line = true

/-! ## Normalizing once -/

theorem dropTrailing_eq_self {drops : Char → Bool} {text : List Char}
    (stays : ∀ c, text.getLast? = some c → drops c = false) :
    Text.dropTrailing drops text = text := by
  rw [Text.dropTrailing]
  cases reversed : text.reverse with
  | nil => simpa using reversed.symm
  | cons c rest =>
      have last : text.getLast? = some c := by
        rw [← List.head?_reverse, reversed]
        rfl
      rw [List.dropWhile_cons_of_neg (by simp [stays c last]), ← reversed, List.reverse_reverse]

theorem getLast?_dropTrailing (drops : Char → Bool) (text : List Char) :
    ∀ c, (Text.dropTrailing drops text).getLast? = some c → drops c = false := by
  intro c last
  have stops := List.head?_dropWhile_not drops text.reverse
  rw [Text.dropTrailing, List.getLast?_reverse] at last
  rw [last] at stops
  exact stops

theorem dropTrailing_isPrefix (drops : Char → Bool) (text : List Char) :
    Text.dropTrailing drops text <+: text := by
  have suffix := List.reverse_prefix.mpr (List.dropWhile_suffix (l := text.reverse) drops)
  rwa [List.reverse_reverse] at suffix

theorem strip_isInfix (line : List Char) : strip line <:+: line :=
  (List.dropWhile_suffix _).isInfix.trans (dropTrailing_isPrefix _ line).isInfix

/-- A line without indentation and without a carriage return at its end is stripped of
nothing. -/
theorem strip_eq_self {line : List Char} (noReturn : line.getLast? ≠ some '\r')
    (noIndent : ∀ c, line.head? = some c → (c == ' ' || c == '\t') = false) :
    strip line = line := by
  have whole : Text.dropTrailing (· == '\r') line = line :=
    dropTrailing_eq_self fun c last => beq_eq_false_iff_ne.mpr fun same =>
      noReturn (same ▸ last)
  rw [strip]
  rw [whole]
  cases line with
  | nil => rfl
  | cons c rest => exact List.dropWhile_cons_of_neg (by simpa using noIndent c rfl)

/-- **A stripped line that is kept is normal.** -/
theorem normalLine_strip {line : List Char} (noFeed : '\n' ∉ line)
    (kept : isKept (strip line) = true) : NormalLine (strip line) where
  noFeed mem := noFeed ((strip_isInfix line).subset mem)
  noReturn last := by
    -- The last character of a suffix is the last one of the whole.
    obtain ⟨front, whole⟩ := List.dropWhile_suffix (l := Text.dropTrailing (· == '\r') line)
      fun c => c == ' ' || c == '\t'
    have wholeLast := getLast?_dropTrailing (· == '\r') line '\r' (by
      rw [← whole, List.getLast?_append, show (List.dropWhile _ _).getLast? = some '\r' from last]
      rfl)
    simp at wholeLast
  noIndent c first := by
    have stops := List.head?_dropWhile_not (fun c => c == ' ' || c == '\t')
      (Text.dropTrailing (· == '\r') line)
    rw [strip] at first
    rw [first] at stops
    exact stops
  kept := kept

theorem mem_normalize {lines : List String} {line : String} :
    line ∈ normalize lines ↔
      ∃ raw ∈ lines, isKept (strip raw.toList) = true ∧
        line = String.ofList (strip raw.toList) := by
  simp only [normalize, List.mem_map, List.mem_filter]
  constructor
  · rintro ⟨_, ⟨⟨raw, mem, rfl⟩, kept⟩, rfl⟩
    exact ⟨raw, mem, kept, rfl⟩
  · rintro ⟨raw, mem, kept, rfl⟩
    exact ⟨_, ⟨⟨raw, mem, rfl⟩, kept⟩, rfl⟩

/-- **Every addressed line of a text is normal.** -/
theorem normalLine_of_mem_normalLines {text line : String} (found : line ∈ normalLines text) :
    NormalLine line.toList := by
  obtain ⟨raw, mem, kept, rfl⟩ := mem_normalize.mp found
  obtain ⟨chars, inText, rfl⟩ := List.mem_map.mp mem
  rw [String.toList_ofList] at kept ⊢
  rw [String.toList_ofList]
  exact normalLine_strip (Text.not_lineFeed_of_mem_linesOf inText) kept

/-- Normalizing leaves normal lines as they are. -/
theorem normalize_eq_self {lines : List String}
    (normal : ∀ line ∈ lines, NormalLine line.toList) : normalize lines = lines := by
  have stripped : lines.map (fun line => strip line.toList) = lines.map String.toList :=
    List.map_congr_left fun line mem =>
      strip_eq_self (normal line mem).noReturn (normal line mem).noIndent
  have kept : (lines.map String.toList).filter isKept = lines.map String.toList := by
    refine List.filter_eq_self.mpr ?_
    intro line mem
    obtain ⟨text, here, rfl⟩ := List.mem_map.mp mem
    exact (normal text here).kept
  rw [normalize, stripped, kept, List.map_map]
  exact (List.map_congr_left fun line _ => String.ofList_toList).trans (List.map_id' lines)

/-- **Normal lines that are each ended by a line feed are read back as they are.** -/
theorem normalLines_terminated {lines : List String}
    (normal : ∀ line ∈ lines, NormalLine line.toList) :
    normalLines (String.join (lines.map (· ++ "\n"))) = lines := by
  have text : (String.join (lines.map (· ++ "\n"))).toList =
      (lines.map String.toList).flatMap (· ++ ['\n']) := by
    simp [String.toList_join, List.flatMap_map]
  have cut : Text.lines (String.join (lines.map (· ++ "\n"))) = lines := by
    rw [Text.lines, text, Text.linesOf_flatMap_terminated, List.map_map]
    · exact (List.map_congr_left fun line _ => String.ofList_toList).trans (List.map_id' lines)
    · rintro _ mem
      obtain ⟨line, here, rfl⟩ := List.mem_map.mp mem
      exact (normal line here).noFeed
    · rintro _ mem
      obtain ⟨line, here, rfl⟩ := List.mem_map.mp mem
      exact (normal line here).noReturn
  rw [normalLines, cut, normalize_eq_self normal]

/-! ## Lines that hold something -/

theorem cutComment_of_isComment {line : List Char} (comment : isComment line = true) :
    (Statement.cutComment line).1 = [] := by
  unfold isComment at comment
  split at comment
  · rfl
  · cases comment

/-- **A line that defines a label or holds a word is kept.** -/
theorem isKept_of_statement {line : String}
    (holds : (Statement.ofLine line).label ≠ none ∨ (Statement.ofLine line).tokens ≠ []) :
    isKept line.toList = true := by
  have words : Text.words (Statement.cutComment line.toList).1 ≠ [] := fun none => by
    rw [Statement.ofLine_eq, none] at holds
    simp [Statement.cutLabel] at holds
  have notBlank : Text.allBlank line.toList = false := Bool.eq_false_iff.mpr fun blank => by
    refine words (Text.words_of_allBlank (List.all_eq_true.mpr ?_))
    intro c mem
    have inLine : c ∈ line.toList := by
      rw [← Statement.cutComment_append line.toList]
      exact List.mem_append_left _ mem
    exact List.all_eq_true.mp blank c inLine
  have notComment : isComment line.toList = false := Bool.eq_false_iff.mpr fun comment =>
    words (by rw [cutComment_of_isComment comment]; rfl)
  simp [isKept, notBlank, notComment]

/-! ## Written lines -/

/-- The comment of a line ends the line. -/
theorem comment_isSuffix {line comment : String}
    (has : (Statement.ofLine line).comment = some comment) :
    comment.toList <:+ line.toList ∧ comment.toList ≠ [] := by
  rw [Statement.ofLine_eq] at has
  simp only at has
  split at has
  · cases has
  · rename_i nonempty
    obtain rfl := Option.some.inj has
    rw [String.toList_ofList]
    exact ⟨⟨_, Statement.cutComment_append line.toList⟩,
      fun nil => nonempty (List.isEmpty_iff.mpr nil)⟩

/-- The comment of a normal line can stand at the end of another one. -/
theorem NormalLine.comment {line comment : String} (normal : NormalLine line.toList)
    (has : (Statement.ofLine line).comment = some comment) :
    '\n' ∉ comment.toList ∧ comment.toList.getLast? ≠ some '\r' ∧ comment.toList ≠ [] := by
  obtain ⟨⟨front, whole⟩, nonempty⟩ := comment_isSuffix has
  refine ⟨fun feed => normal.noFeed ?_, fun last => normal.noReturn ?_, nonempty⟩
  · rw [← whole]
    exact List.mem_append_right front feed
  · rw [← whole, List.getLast?_append, last]
    rfl

/-- **A line that is made of code and a comment is normal** when the code starts with no blank
and holds none but spaces, and the comment is one that a line can have. -/
theorem normalLine_of_code {line : String} {code : List Char} {comment : Option String}
    (whole : line.toList = code ++ comment.elim [] String.toList)
    (spaces : ∀ c, Text.isBlank c = true → c ≠ ' ' → c ∉ code)
    (starts : ∃ c, code.head? = some c ∧ Text.isBlank c = false)
    (fits : ∀ text, comment = some text →
      '\n' ∉ text.toList ∧ text.toList.getLast? ≠ some '\r' ∧ text.toList ≠ [])
    (kept : isKept line.toList = true) : NormalLine line.toList where
  noFeed := by
    rw [whole]
    have noFeed := spaces '\n' (by decide) (by decide)
    cases has : comment with
    | none => simpa using noFeed
    | some text => simp [noFeed, (fits text has).1]
  noReturn := by
    rw [whole]
    cases has : comment with
    | none =>
        rw [Option.elim_none, List.append_nil]
        exact fun last => spaces '\r' (by decide) (by decide) (List.mem_of_getLast? last)
    | some text =>
        obtain ⟨-, noReturn, nonempty⟩ := fits text has
        rw [Option.elim_some, List.getLast?_append]
        cases last : text.toList.getLast? with
        | none => exact absurd (List.getLast?_eq_none_iff.mp last) nonempty
        | some c => rwa [last] at noReturn
  noIndent c first := by
    obtain ⟨d, head, solid⟩ := starts
    obtain ⟨rest, rfl⟩ := List.head?_eq_some_iff.mp head
    rw [whole] at first
    obtain rfl := Option.some.inj first
    refine Bool.eq_false_iff.mpr ?_
    intro indents
    rcases Bool.or_eq_true_iff.mp indents with space | tab
    · obtain rfl := beq_iff_eq.mp space
      exact absurd solid (by decide)
    · obtain rfl := beq_iff_eq.mp tab
      exact absurd solid (by decide)
  kept := kept

/-- Words joined by single spaces start with the first word and end with the last. -/
theorem ends_intercalate {tokens : List (List Char)} (some : tokens ≠ [])
    (nonempty : ∀ token ∈ tokens, token ≠ []) :
    (∃ token ∈ tokens, ([' '].intercalate tokens).head? = token.head?) ∧
      ∃ token ∈ tokens, ([' '].intercalate tokens).getLast? = token.getLast? := by
  induction tokens with
  | nil => exact absurd rfl some
  | cons token tokens ih =>
      have here := nonempty token (List.mem_cons_self ..)
      cases tokens with
      | nil => simp
      | cons next later =>
          obtain ⟨-, last, mem, same⟩ := ih (by simp) fun other mem =>
            nonempty other (List.mem_cons_of_mem _ mem)
          have lastIs : ([' '].intercalate (next :: later)).getLast? ≠ none := by
            rw [same]
            exact fun none => nonempty last (List.mem_cons_of_mem _ mem)
              (List.getLast?_eq_none_iff.mp none)
          rw [List.intercalate_cons_cons]
          refine ⟨⟨token, List.mem_cons_self .., ?_⟩, last, List.mem_cons_of_mem _ mem, ?_⟩
          · obtain ⟨c, rest, rfl⟩ := List.exists_cons_of_ne_nil here
            rfl
          · rw [List.getLast?_append, ← same]
            cases joined : ([' '].intercalate (next :: later)).getLast? with
            | none => exact absurd joined lastIs
            | some c => rfl

theorem not_mem_intercalate {tokens : List (List Char)} {c : Char} (other : c ≠ ' ')
    (none : ∀ token ∈ tokens, c ∉ token) : c ∉ [' '].intercalate tokens := by
  induction tokens with
  | nil => simp
  | cons token tokens ih =>
      have rest := ih fun word mem => none word (List.mem_cons_of_mem _ mem)
      have here := none token (List.mem_cons_self ..)
      cases tokens with
      | nil => simpa using here
      | cons next later =>
          rw [List.intercalate_cons_cons]
          simp [here, other, rest]

section Written

variable {statement : Statement} (wellFormed : statement.WellFormed)
include wellFormed

/-- The code of a written line holds no blank but spaces. -/
theorem not_mem_writtenCode {c : Char} (blank : Text.isBlank c = true) (other : c ≠ ' ') :
    c ∉ statement.writtenCode := by
  have solidNot : ∀ {text : List Char}, Statement.Solid text → c ∉ text := fun solid mem => by
    rw [solid.unbroken c mem] at blank
    cases blank
  have colon : c ≠ ':' := by
    rintro rfl
    revert blank
    decide
  have tokens : c ∉ [' '].intercalate (statement.tokens.map String.toList) :=
    not_mem_intercalate other fun token mem =>
      solidNot (Statement.solid_tokens wellFormed token mem).2
  rw [Statement.writtenCode]
  cases label : statement.label with
  | none => cases statement.comment <;> simp [tokens, other]
  | some name =>
      have noName := solidNot (wellFormed.label name label).1
      cases statement.comment <;> simp [tokens, other, colon, noName]

/-- The first character of a written line is not blank, when there is a word. -/
theorem head?_writtenCode (word : statement.tokens ≠ []) {c : Char}
    (first : statement.writtenCode.head? = some c) : Text.isBlank c = false := by
  have someWord : statement.tokens.map String.toList ≠ [] := by simpa using word
  obtain ⟨⟨token, mem, same⟩, -⟩ := ends_intercalate someWord
    fun token mem => (Statement.solid_tokens wellFormed token mem).1
  obtain ⟨nonempty, solid⟩ := Statement.solid_tokens wellFormed token mem
  rw [Statement.writtenCode] at first
  cases label : statement.label with
  | none =>
      obtain ⟨d, rest, rfl⟩ := List.exists_cons_of_ne_nil nonempty
      rw [label, Option.elim_none, List.nil_append, List.head?_append, same] at first
      obtain rfl := Option.some.inj first
      exact solid.unbroken _ (List.mem_cons_self ..)
  | some name =>
      have name := (wellFormed.label name label).1.unbroken
      rw [label, Option.elim_some, List.append_assoc, List.append_assoc] at first
      rename_i text
      cases chars : text.toList with
      | nil =>
          rw [chars] at first
          obtain rfl := Option.some.inj first
          decide
      | cons d rest =>
          rw [chars] at first name
          obtain rfl := Option.some.inj first
          exact name _ (List.mem_cons_self ..)

/-- **The line written for a well-formed statement with a word is normal**, when its
comment is one that a line can have. -/
theorem normalLine_render (word : statement.tokens ≠ [])
    (comment : ∀ text, statement.comment = some text →
      '\n' ∉ text.toList ∧ text.toList.getLast? ≠ some '\r' ∧ text.toList ≠ []) :
    NormalLine statement.render.toList := by
  refine normalLine_of_code (Statement.toList_render statement)
    (fun c blank other => not_mem_writtenCode wellFormed blank other) ?_ comment
    (isKept_of_statement (.inr (by rwa [Statement.ofLine_render wellFormed])))
  have nonempty : statement.writtenCode ≠ [] := fun nil => by
    have none := Statement.words_writtenCode wellFormed
    rw [nil, Text.words_nil] at none
    simp [Statement.labelWord, word] at none
  obtain ⟨c, rest, code⟩ := List.exists_cons_of_ne_nil nonempty
  have first : statement.writtenCode.head? = some c := by rw [code, List.head?_cons]
  exact ⟨c, first, head?_writtenCode wellFormed word first⟩

end Written

end LineAsm.Source
