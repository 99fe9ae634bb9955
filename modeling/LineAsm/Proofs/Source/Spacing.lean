import LineAsm.Proofs.Source.Normal

/-!
# Lines with single spaces

The parts of a statement, which are its label with a colon, its words and its comment, make a
line when single spaces stand between them (`Statement.spaced`).  The statement is read back
from this line (`Statement.ofLine_spaced`), and the line is normal when it has a label or a
word and its comment is one that a line can have (`Source.normalLine_spaced`).

A line that only defines a label has no space at its end here, unlike the line that
`Statement.render` writes.
-/

set_option autoImplicit false

namespace LineAsm

namespace Statement

/-- The parts of a statement with single spaces between them. -/
def spaced (statement : Statement) : String :=
  " ".intercalate ((statement.label.map (· ++ ":")).toList ++ statement.tokens ++
    statement.comment.toList)

/-- The code of the line with single spaces. -/
def spacedCode (statement : Statement) : List Char :=
  [' '].intercalate (statement.labelWord ++ statement.tokens.map String.toList) ++
    statement.comment.elim [] fun _ => [' ']

variable {statement : Statement}

/-- A line with single spaces is its code and its comment. -/
theorem toList_spaced (holds : statement.label ≠ none ∨ statement.tokens ≠ []) :
    statement.spaced.toList =
      statement.spacedCode ++ statement.comment.elim [] String.toList := by
  have words : (statement.label.map (· ++ ":")).toList ++ statement.tokens ≠ [] := by
    rcases holds with label | tokens
    · obtain ⟨name, label⟩ := Option.ne_none_iff_exists'.mp label
      simp [label]
    · simp [tokens]
  have toLists : ((statement.label.map (· ++ ":")).toList ++ statement.tokens).map String.toList =
      statement.labelWord ++ statement.tokens.map String.toList := by
    cases label : statement.label <;> simp [labelWord, label]
  rw [spaced, spacedCode]
  cases comment : statement.comment with
  | none =>
      simp only [Option.toList_none, List.append_nil, String.toList_intercalate, toLists]
      simp
  | some text =>
      rw [Option.toList_some, String.intercalate_append_of_ne_nil words (by simp)]
      simp only [String.toList_append, String.toList_intercalate, toLists]
      simp

section WellFormed

variable (wellFormed : statement.WellFormed)
include wellFormed

/-- The words of a line with single spaces are solid. -/
theorem solid_of_mem_spacedWords :
    ∀ word ∈ statement.labelWord ++ statement.tokens.map String.toList, word ≠ [] ∧ Solid word := by
  intro word mem
  rcases List.mem_append.mp mem with inLabel | inTokens
  · obtain ⟨name, label, rfl⟩ := List.mem_map.mp inLabel
    have solid := (wellFormed.label name (Option.mem_toList.mp label)).1
    refine ⟨by simp, ?_, solid.free.append_cons .nil (by decide)⟩
    intro c mem
    rcases List.mem_append.mp mem with inName | colon
    · exact solid.unbroken c inName
    · obtain rfl := List.mem_singleton.mp colon
      decide
  · exact solid_tokens wellFormed word inTokens

/-- **A statement is read back from the line with single spaces.** -/
theorem ofLine_spaced (holds : statement.label ≠ none ∨ statement.tokens ≠ []) :
    ofLine statement.spaced = statement := by
  have solid := solid_of_mem_spacedWords wellFormed
  have free := markFree_intercalate fun word mem => (solid word mem).2.free
  have words := Text.words_intercalate_space fun word mem =>
    (solid word mem).imp_right Solid.unbroken
  refine ofLine_of_code wellFormed (toList_spaced holds) ?_ ?_ ?_
  · rw [spacedCode]
    cases statement.comment with
    | none => simpa using free
    | some text => exact free.append_cons .nil (by decide)
  · rw [spacedCode]
    cases statement.comment with
    | none => simpa using words
    | some text =>
        exact (Text.words_append_blank _ [] Text.isBlank_space).trans (by simp [words])
  · intro text comment
    simp [spacedCode, comment]

end WellFormed

end Statement

/-- **The line with single spaces is normal**, when its comment is one that a line can have. -/
theorem Source.normalLine_spaced {statement : Statement} (wellFormed : statement.WellFormed)
    (holds : statement.label ≠ none ∨ statement.tokens ≠ [])
    (comment : ∀ text, statement.comment = some text →
      '\n' ∉ text.toList ∧ text.toList.getLast? ≠ some '\r' ∧ text.toList ≠ []) :
    NormalLine statement.spaced.toList := by
  have solid := Statement.solid_of_mem_spacedWords wellFormed
  refine normalLine_of_code (Statement.toList_spaced holds) ?_ ?_ comment
    (isKept_of_statement (by rwa [Statement.ofLine_spaced wellFormed holds]))
  · intro c blank other mem
    have words :
        c ∉ [' '].intercalate (statement.labelWord ++ statement.tokens.map String.toList) :=
      not_mem_intercalate other fun word inWords inWord => by
        rw [(solid word inWords).2.unbroken c inWord] at blank
        cases blank
    rw [Statement.spacedCode] at mem
    rcases List.mem_append.mp mem with inWords | inSpace
    · exact words inWords
    · cases has : statement.comment <;> simp [has, other] at inSpace
  · have some : statement.labelWord ++ statement.tokens.map String.toList ≠ [] := by
      rcases holds with label | tokens
      · obtain ⟨name, label⟩ := Option.ne_none_iff_exists'.mp label
        simp [Statement.labelWord, label]
      · simp [tokens]
    obtain ⟨⟨word, mem, first⟩, -⟩ := ends_intercalate some fun word mem => (solid word mem).1
    obtain ⟨nonempty, whole⟩ := solid word mem
    obtain ⟨c, rest, rfl⟩ := List.exists_cons_of_ne_nil nonempty
    refine ⟨c, ?_, whole.unbroken c (.head _)⟩
    rw [Statement.spacedCode, List.head?_append, first]
    rfl

end LineAsm
