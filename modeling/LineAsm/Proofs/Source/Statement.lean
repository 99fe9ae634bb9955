import LineAsm.Proofs.Text.Splitting
import LineAsm.Source.Statement
import Mathlib.Data.List.Chain
import Mathlib.Data.List.TakeWhile

/-!
# Taking a line apart and writing it again

A statement is well formed (`Statement.WellFormed`) when its label and its words
hold neither a blank nor the mark of a comment, its label holds no colon, its first
word holds none when there is no label, and its comment starts with the mark.

Every line is taken apart into a well-formed statement (`wellFormed_ofLine`), and a
well-formed statement is read back from the line that is written for it
(`ofLine_render`).
-/

set_option autoImplicit false

namespace LineAsm

namespace Statement

/-! ## The mark of a comment -/

/-- Two slashes, which start a comment. -/
def commentMark : List Char := ['/', '/']

/-- A text in which no slash follows a slash. -/
def MarkFree (text : List Char) : Prop :=
  text.IsChain fun c next => ¬ (c = '/' ∧ next = '/')

theorem MarkFree.of_isInfix {text piece : List Char} (free : MarkFree text)
    (within : piece <:+: text) : MarkFree piece :=
  List.IsChain.infix free within

/-- A text without slashes has no mark. -/
theorem markFree_of_not_mem {text : List Char} (none : '/' ∉ text) : MarkFree text := by
  refine List.Pairwise.isChain (List.pairwise_of_forall_mem_list ?_)
  intro c mem _ _ both
  rw [both.1] at mem
  exact none mem

/-- Texts without a mark may be joined by another character than a slash. -/
theorem MarkFree.append_cons {before after : List Char} {c : Char} (beforeFree : MarkFree before)
    (afterFree : MarkFree after) (other : c ≠ '/') : MarkFree (before ++ c :: after) := by
  refine List.IsChain.append beforeFree ?_ fun last _ next first both => ?_
  · exact List.isChain_cons.mpr ⟨fun _ _ both => other both.1, afterFree⟩
  · rw [List.head?_cons, Option.mem_some_iff] at first
    exact other (first.trans both.2)

/-! ## Code and comment -/

/-- **The code of a line has no mark, and a comment starts with one.** -/
theorem cutComment_spec (line : List Char) :
    MarkFree (cutComment line).1 ∧
      ((cutComment line).2 = [] ∨ commentMark <+: (cutComment line).2) := by
  fun_induction cutComment line with
  | case1 => exact ⟨.nil, .inl rfl⟩
  | case2 rest => exact ⟨.nil, .inr (List.prefix_append commentMark rest)⟩
  | case3 c rest notMark ih =>
      refine ⟨?_, ih.2⟩
      refine List.isChain_cons.mpr ⟨fun next first both => ?_, ih.1⟩
      -- The first character of the remaining code is that of the remaining line.
      obtain ⟨tail, code⟩ : ∃ tail, (cutComment rest).1 = next :: tail :=
        List.head?_eq_some_iff.mp first
      have whole := cutComment_append rest
      rw [code, both.2] at whole
      exact notMark (tail ++ (cutComment rest).2) both.1 whole.symm

/-- Code without a mark and a comment behind it are cut where they were joined. -/
theorem cutComment_of_markFree {code comment : List Char} (free : MarkFree code)
    (starts : comment = [] ∨ commentMark <+: comment)
    (apart : comment = [] ∨ code.getLast? ≠ some '/') :
    cutComment (code ++ comment) = (code, comment) := by
  induction code with
  | nil =>
      rcases starts with rfl | ⟨rest, rfl⟩
      · rfl
      · rfl
  | cons c code ih =>
      have notMark : ∀ rest, c = '/' → code ++ comment = '/' :: rest → False := by
        intro rest slash next
        cases code with
        | nil =>
            rcases apart with rfl | apart
            · cases next
            · exact apart (by simp [slash])
        | cons d code =>
            have slashes := (List.isChain_cons_cons.mp free).1
            exact slashes ⟨slash, (List.cons.inj next).1⟩
      have later : comment = [] ∨ code.getLast? ≠ some '/' := by
        refine apart.imp_right fun noSlash slash => noSlash ?_
        rw [List.getLast?_cons, slash]
        rfl
      rw [List.cons_append, cutComment.eq_3 c (code ++ comment) notMark,
        ih (free.of_isInfix (List.suffix_cons c code).isInfix) later]

/-! ## Well-formed statements -/

/-- A text without blanks and without the mark of a comment. -/
structure Solid (text : List Char) : Prop where
  unbroken : ∀ c ∈ text, Text.isBlank c = false
  free : MarkFree text

theorem Solid.of_isInfix {text piece : List Char} (solid : Solid text)
    (within : piece <:+: text) : Solid piece :=
  ⟨fun c mem => solid.unbroken c (within.subset mem), solid.free.of_isInfix within⟩

/-- What can be the name of a label. -/
structure LabelName (name : String) : Prop where
  nonempty : name ≠ ""
  solid : Solid name.toList
  noColon : ':' ∉ name.toList

/-- A statement as a line can hold it. -/
structure WellFormed (statement : Statement) : Prop where
  label : ∀ name, statement.label = some name → Solid name.toList ∧ ':' ∉ name.toList
  tokens : ∀ token ∈ statement.tokens, token ≠ "" ∧ Solid token.toList
  first : statement.label = none → ∀ token, statement.tokens.head? = some token →
    ':' ∉ token.toList
  comment : ∀ text, statement.comment = some text → commentMark <+: text.toList

/-- Words cut from code without a mark are solid. -/
theorem solid_of_mem_words {code word : List Char} (free : MarkFree code)
    (found : word ∈ Text.words code) : word ≠ [] ∧ Solid word :=
  ⟨Text.ne_nil_of_mem_words found, Text.not_isBlank_of_mem_words found,
    free.of_isInfix (Text.isInfix_of_mem_words found)⟩

theorem cutLabel_of_colon {word : List Char} (later : List (List Char)) (colon : ':' ∈ word) :
    cutLabel (word :: later) =
      (some (word.takeWhile (· != ':')),
        if ((word.dropWhile (· != ':')).drop 1).isEmpty then later
        else (word.dropWhile (· != ':')).drop 1 :: later) :=
  if_pos colon

theorem cutLabel_of_no_colon {word : List Char} (later : List (List Char))
    (noColon : ':' ∉ word) : cutLabel (word :: later) = (none, word :: later) :=
  if_neg noColon

/-- A label that is cut off is a piece of the first word and holds no colon, and the
remaining words are solid. -/
theorem cutLabel_spec {found : List (List Char)}
    (solid : ∀ word ∈ found, word ≠ [] ∧ Solid word) :
    (∀ name, (cutLabel found).1 = some name → Solid name ∧ ':' ∉ name) ∧
      (∀ word ∈ (cutLabel found).2, word ≠ [] ∧ Solid word) ∧
      ((cutLabel found).1 = none → ∀ word, (cutLabel found).2.head? = some word →
        ':' ∉ word) := by
  cases found with
  | nil => simp [cutLabel]
  | cons word later =>
      have laterSolid := fun other mem => solid other (List.mem_cons_of_mem word mem)
      have wordSolid := (solid word (List.mem_cons_self ..)).2
      by_cases colon : ':' ∈ word
      · rw [cutLabel_of_colon later colon]
        refine ⟨fun name same => ?_, fun other mem => ?_, fun none => nomatch none⟩
        · obtain rfl := Option.some.inj same
          refine ⟨wordSolid.of_isInfix (List.takeWhile_prefix _).isInfix, ?_⟩
          intro mem
          simpa using List.mem_takeWhile_imp mem
        · have behindSolid : Solid ((word.dropWhile (· != ':')).drop 1) :=
            wordSolid.of_isInfix
              ((List.drop_suffix _ _).trans (List.dropWhile_suffix _)).isInfix
          simp only at mem
          split at mem
          · exact laterSolid other mem
          · rename_i nonempty
            rcases List.mem_cons.mp mem with rfl | mem
            · exact ⟨by simpa only [List.isEmpty_iff] using nonempty, behindSolid⟩
            · exact laterSolid other mem
      · rw [cutLabel_of_no_colon later colon]
        refine ⟨fun name same => (nomatch same), solid, ?_⟩
        intro _ other same
        obtain rfl := Option.some.inj same
        exact colon

/-- A line read in two steps: its comment is cut off, then its label. -/
theorem ofLine_eq (line : String) :
    ofLine line =
      { label := (cutLabel (Text.words (cutComment line.toList).1)).1.map String.ofList
        tokens := (cutLabel (Text.words (cutComment line.toList).1)).2.map String.ofList
        comment := if (cutComment line.toList).2.isEmpty then none
          else some (String.ofList (cutComment line.toList).2) } := rfl

/-- **Every line is taken apart into a well-formed statement.** -/
theorem wellFormed_ofLine (line : String) : (ofLine line).WellFormed := by
  obtain ⟨free, starts⟩ := cutComment_spec line.toList
  obtain ⟨label, tokens, first⟩ := cutLabel_spec fun _ => solid_of_mem_words free
  rw [ofLine_eq]
  refine ⟨fun name same => ?_, fun token mem => ?_, fun none token same => ?_, fun text same => ?_⟩
  · obtain ⟨chars, cut, rfl⟩ := Option.map_eq_some_iff.mp same
    simpa using label chars cut
  · obtain ⟨chars, cut, rfl⟩ := List.mem_map.mp mem
    simpa using tokens chars cut
  · rw [List.head?_map] at same
    obtain ⟨chars, cut, rfl⟩ := Option.map_eq_some_iff.mp same
    simpa using first (Option.map_eq_none_iff.mp none) chars cut
  · simp only at same
    split at same
    · cases same
    · rename_i nonempty
      obtain rfl := Option.some.inj same
      simpa using starts.resolve_left fun nil => nonempty (by simp [nil])

/-! ## Writing a statement -/

/-- The label of a statement with its colon, as a word of the line. -/
def labelWord (statement : Statement) : List (List Char) :=
  statement.label.toList.map fun name => name.toList ++ [':']

/-- The code of the line written for a statement. -/
def writtenCode (statement : Statement) : List Char :=
  (statement.label.elim [] fun name => name.toList ++ [':', ' ']) ++
    [' '].intercalate (statement.tokens.map String.toList) ++
      statement.comment.elim [] fun _ => [' ']

/-- The line written for a statement is its code and its comment. -/
theorem toList_render (statement : Statement) :
    statement.render.toList =
      statement.writtenCode ++ statement.comment.elim [] String.toList := by
  obtain ⟨label, tokens, comment⟩ := statement
  cases label <;> cases comment <;>
    simp [render, writtenCode, String.toList_intercalate]

/-- Words joined by single spaces hold no mark when none of them does. -/
theorem markFree_intercalate {tokens : List (List Char)}
    (free : ∀ token ∈ tokens, MarkFree token) : MarkFree ([' '].intercalate tokens) := by
  induction tokens with
  | nil => exact .nil
  | cons token tokens ih =>
      have rest := ih fun other mem => free other (List.mem_cons_of_mem token mem)
      cases tokens with
      | nil => simpa using free token (List.mem_cons_self ..)
      | cons next later =>
          rw [List.intercalate_cons_cons, List.append_assoc, List.singleton_append]
          exact (free token (List.mem_cons_self ..)).append_cons rest (by decide)

section WellFormed

variable {statement : Statement} (wellFormed : statement.WellFormed)
include wellFormed

theorem solid_tokens :
    ∀ token ∈ statement.tokens.map String.toList, token ≠ [] ∧ Solid token := by
  intro token mem
  obtain ⟨text, here, rfl⟩ := List.mem_map.mp mem
  obtain ⟨nonempty, solid⟩ := wellFormed.tokens text here
  exact ⟨fun nil => nonempty (String.toList_eq_nil_iff.mp nil), solid⟩

/-- The code of a written line has no mark and does not end with a slash before a
comment. -/
theorem markFree_writtenCode : MarkFree statement.writtenCode := by
  have tokens : MarkFree ([' '].intercalate (statement.tokens.map String.toList)) :=
    markFree_intercalate fun token mem => (solid_tokens wellFormed token mem).2.free
  have labelled : MarkFree ((statement.label.elim [] fun name => name.toList ++ [':', ' ']) ++
      [' '].intercalate (statement.tokens.map String.toList)) := by
    cases label : statement.label with
    | none => exact tokens
    | some name =>
        have name := (wellFormed.label name label).1.free
        simp only [Option.elim_some, List.append_assoc, List.cons_append, List.nil_append]
        exact name.append_cons (MarkFree.append_cons .nil tokens (by decide)) (by decide)
  rw [writtenCode]
  cases statement.comment with
  | none => simpa using labelled
  | some text => exact labelled.append_cons .nil (by decide)

/-- The words of the code of a written line. -/
theorem words_writtenCode :
    Text.words statement.writtenCode =
      statement.labelWord ++ statement.tokens.map String.toList := by
  have tokens : Text.words ([' '].intercalate (statement.tokens.map String.toList)) =
      statement.tokens.map String.toList :=
    Text.words_intercalate_space fun token mem =>
      (solid_tokens wellFormed token mem).imp_right Solid.unbroken
  have labelled : Text.words ((statement.label.elim [] fun name => name.toList ++ [':', ' ']) ++
      [' '].intercalate (statement.tokens.map String.toList)) =
        statement.labelWord ++ statement.tokens.map String.toList := by
    rw [labelWord]
    cases label : statement.label with
    | none => exact tokens
    | some name =>
        have unbroken : ∀ c ∈ name.toList ++ [':'], Text.isBlank c = false := fun c mem => by
          rcases List.mem_append.mp mem with mem | mem
          · exact (wellFormed.label name label).1.unbroken c mem
          · obtain rfl := List.mem_singleton.mp mem
            decide
        have split := Text.words_append_blank (name.toList ++ [':'])
          ([' '].intercalate (statement.tokens.map String.toList)) Text.isBlank_space
        rw [Text.words_of_forall_not_blank (by simp) unbroken, tokens] at split
        simpa using split
  rw [writtenCode]
  cases statement.comment with
  | none => simpa using labelled
  | some text =>
      refine (Text.words_append_blank _ [] Text.isBlank_space).trans ?_
      rw [labelled, Text.words_nil, List.append_nil]

/-- The label is cut off the words of a written line. -/
theorem cutLabel_labelWord :
    cutLabel (statement.labelWord ++ statement.tokens.map String.toList) =
      (statement.label.map String.toList, statement.tokens.map String.toList) := by
  rw [labelWord]
  cases label : statement.label with
  | some name =>
      have noColon : ∀ c ∈ name.toList, (c != ':') = true := fun c mem =>
        bne_iff_ne.mpr fun same => (wellFormed.label name label).2 (same ▸ mem)
      have before : (name.toList ++ [':']).takeWhile (· != ':') = name.toList := by
        rw [List.takeWhile_append_of_pos noColon]
        simp
      have behind : (name.toList ++ [':']).dropWhile (· != ':') = [':'] := by
        rw [List.dropWhile_append_of_pos noColon]
        simp
      simp [cutLabel, before, behind]
  | none =>
      cases tokens : statement.tokens with
      | nil => rfl
      | cons token later =>
          have noColon := wellFormed.first label token (by simp [tokens])
          simp [cutLabel, noColon]

/-- **A line that is made of code and a comment** is taken apart into the statement whose words
the code holds and whose comment the comment is. -/
theorem ofLine_of_code {line : String} {code : List Char}
    (whole : line.toList = code ++ statement.comment.elim [] String.toList) (free : MarkFree code)
    (words : Text.words code = statement.labelWord ++ statement.tokens.map String.toList)
    (apart : ∀ text, statement.comment = some text → code.getLast? ≠ some '/') :
    ofLine line = statement := by
  have starts : statement.comment.elim [] String.toList = [] ∨
      commentMark <+: statement.comment.elim [] String.toList := by
    cases comment : statement.comment with
    | none => exact .inl rfl
    | some text => exact .inr (wellFormed.comment text comment)
  have noSlash : statement.comment.elim [] String.toList = [] ∨ code.getLast? ≠ some '/' := by
    cases comment : statement.comment with
    | none => exact .inl rfl
    | some text => exact .inr (apart text comment)
  have cut : cutComment line.toList = (code, statement.comment.elim [] String.toList) := by
    rw [whole]
    exact cutComment_of_markFree free starts noSlash
  rw [ofLine_eq, cut, words, cutLabel_labelWord wellFormed]
  obtain ⟨label, tokens, comment⟩ := statement
  cases comment with
  | none => simp [Function.comp_def]
  | some text =>
      have nonempty : text.toList ≠ [] := fun nil => by
        have mark := wellFormed.comment text rfl
        rw [nil] at mark
        exact absurd mark (by decide)
      simp [Function.comp_def, nonempty]

/-- **A well-formed statement is read back from the line written for it.** -/
theorem ofLine_render : ofLine statement.render = statement := by
  refine ofLine_of_code wellFormed (toList_render statement) (markFree_writtenCode wellFormed)
    (words_writtenCode wellFormed) ?_
  intro text comment
  simp [writtenCode, comment]

end WellFormed

end Statement

end LineAsm
