import LineAsm.Proofs.Source.Statement

/-!
# The parts of a line

What `Statement.ofLine` reads off a line is described without its functions: the comment starts
at the first two slashes of the line, and in the words before it stand the label and the words
of the instruction (`Statement.Parts`).  How a label stands among words is `Statement.Spelling`:
it makes a word of its own with its colon, or it is glued to the word behind it.

Every line has the parts that are read off it, and the line that is written for these parts has
the same ones (`Statement.ofLine_stable`).
-/

set_option autoImplicit false

namespace LineAsm.Statement

/-! ## Clean texts -/

/-- A text that holds neither a blank nor two slashes in a row. -/
def Clean (text : String) : Prop :=
  (∀ c ∈ text.toList, Text.isBlank c = false) ∧ ¬ commentMark <:+: text.toList

/-- A text has no mark when two slashes in a row are no piece of it. -/
theorem markFree_iff {text : List Char} : MarkFree text ↔ ¬ commentMark <:+: text := by
  induction text with
  | nil => exact ⟨fun _ => by decide, fun _ => .nil⟩
  | cons c text ih =>
      have starts : commentMark <+: c :: text ↔ c = '/' ∧ text.head? = some '/' := by
        cases text with
        | nil => simp [commentMark]
        | cons d text => simp [commentMark, eq_comm]
      rw [MarkFree, List.isChain_cons, List.infix_cons_iff, not_or, starts, ← ih]
      refine and_congr_left fun _ => ?_
      constructor
      · rintro apart ⟨slash, next⟩
        exact apart '/' next ⟨slash, rfl⟩
      · rintro none d next ⟨slash, rfl⟩
        exact none ⟨slash, next⟩

theorem Solid.clean {text : String} (solid : Solid text.toList) : Clean text :=
  ⟨solid.unbroken, markFree_iff.mp solid.free⟩

/-! ## Labels among words -/

/-- **The words in which a label and the words of an instruction stand**: the label with its
colon is a word before them, or it is glued to the first of them. -/
inductive Spelling : Option String → List String → List (List Char) → Prop where
  | unlabelled (tokens : List String) : Spelling none tokens (tokens.map String.toList)
  | apart (name : String) (tokens : List String) :
      Spelling (some name) tokens ((name ++ ":").toList :: tokens.map String.toList)
  | glued (name token : String) (tokens : List String) :
      Spelling (some name) (token :: tokens)
        ((name ++ ":" ++ token).toList :: tokens.map String.toList)

/-- A word with a colon is its part before the first colon, the colon, and the part behind. -/
theorem eq_of_colon {word : List Char} (colon : ':' ∈ word) :
    word = word.takeWhile (· != ':') ++ ':' :: (word.dropWhile (· != ':')).drop 1 := by
  have some : word.dropWhile (· != ':') ≠ [] := fun none => by
    simpa using List.dropWhile_eq_nil_iff.mp none ':' colon
  obtain ⟨c, behind, rest⟩ := List.exists_cons_of_ne_nil some
  have stops := List.head?_dropWhile_not (· != ':') word
  rw [rest] at stops
  obtain rfl : c = ':' := by simpa using stops
  rw [rest, List.drop_one, List.tail_cons, ← rest, List.takeWhile_append_dropWhile]

/-- **The label that is cut off words and the words that remain** spell the words. -/
theorem spelling_cutLabel (found : List (List Char)) :
    Spelling ((cutLabel found).1.map String.ofList) ((cutLabel found).2.map String.ofList)
      found := by
  have kept (words : List (List Char)) :
      (words.map String.ofList).map String.toList = words := by simp
  cases found with
  | nil => exact .unlabelled []
  | cons word later =>
      by_cases colon : ':' ∈ word
      · rw [cutLabel_of_colon later colon]
        have whole := eq_of_colon colon
        generalize word.takeWhile (· != ':') = name,
          (word.dropWhile (· != ':')).drop 1 = behind at whole ⊢
        subst whole
        cases behind with
        | nil =>
            have spelling := Spelling.apart (String.ofList name) (later.map String.ofList)
            rwa [kept, String.toList_append, String.toList_ofList] at spelling
        | cons c behind =>
            have spelling := Spelling.glued (String.ofList name) (String.ofList (c :: behind))
              (later.map String.ofList)
            simp only [kept, String.toList_append, String.toList_ofList,
              List.append_assoc] at spelling
            exact spelling
      · rw [cutLabel_of_no_colon later colon]
        have spelling := Spelling.unlabelled ((word :: later).map String.ofList)
        rwa [kept] at spelling

/-! ## The parts of a line -/

/-- **The parts of a line**, as a statement. -/
structure Parts (line : String) (statement : Statement) : Prop where
  tokens : ∀ token ∈ statement.tokens, token ≠ "" ∧ Clean token
  label : ∀ name ∈ statement.label, ':' ∉ name.toList ∧ Clean name
  /-- A first word with a colon would be, or start with, a label. -/
  unlabelled : statement.label = none → ∀ token ∈ statement.tokens.head?, ':' ∉ token.toList
  comment : ∀ text ∈ statement.comment, commentMark <+: text.toList
  /-- The code and the comment are the line. -/
  whole : codeOf line ++ statement.comment.getD "" = line
  /-- The comment starts as early as one can. -/
  code : ¬ commentMark <:+: (codeOf line).toList
  words : Spelling statement.label statement.tokens (Text.words (codeOf line).toList)

/-- What is read off a line are its parts. -/
theorem parts_ofLine (line : String) : Parts line (ofLine line) := by
  have wellFormed := wellFormed_ofLine line
  refine
    { tokens := fun token mem => (wellFormed.tokens token mem).imp_right Solid.clean
      label := fun name same => (wellFormed.label name same).symm.imp_right Solid.clean
      unlabelled := wellFormed.first
      comment := wellFormed.comment
      whole := ?_
      code := ?_
      words := ?_ }
  · have cut := cutComment_append line.toList
    conv_rhs => rw [← String.ofList_toList (s := line), ← cut]
    rw [ofLine_eq, codeOf, String.ofList_append]
    cases (cutComment line.toList).2 <;> rfl
  · rw [codeOf, String.toList_ofList]
    exact markFree_iff.mp (cutComment_spec line.toList).1
  · rw [codeOf, String.toList_ofList]
    exact spelling_cutLabel _

/-- **Taking a line apart is stable**: a line has the parts that are read off it, and the line
that is written for them has the same label, words and comment. -/
theorem ofLine_stable (line : String) :
    Parts line (ofLine line) ∧ ofLine (ofLine line).render = ofLine line :=
  ⟨parts_ofLine line, ofLine_render (wellFormed_ofLine line)⟩

end LineAsm.Statement
