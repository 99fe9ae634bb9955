/-!
# Blank characters, fields and words

Lines of a program are cut into words at blank characters.  A blank is a
character with the Unicode property `White_Space`, listed here as ranges of code
points (`blankRanges`); every character that core calls white space is one
(`isBlank_of_isWhitespace`).

Cutting is done in two steps.  `fields` cuts a text at every separator and keeps
the empty pieces, so joining the pieces again loses nothing; `words` then drops
the empty pieces.  No piece holds a separator (`not_mem_of_mem_fields`), hence no
word is empty or holds a blank (`ne_nil_of_mem_words`, `not_isBlank_of_mem_words`).
-/

set_option autoImplicit false

namespace LineAsm.Text

/-! ## Blank characters -/

/-- The code points with the Unicode property `White_Space`, as closed ranges. -/
def blankRanges : List (Nat × Nat) :=
  [(0x09, 0x0D), (0x20, 0x20), (0x85, 0x85), (0xA0, 0xA0), (0x1680, 0x1680), (0x2000, 0x200A),
    (0x2028, 0x2029), (0x202F, 0x202F), (0x205F, 0x205F), (0x3000, 0x3000)]

/-- A character is blank when its code point lies in one of the ranges. -/
def isBlank (c : Char) : Bool :=
  blankRanges.any fun range => range.1 ≤ c.toNat && c.toNat ≤ range.2

/-- A text is blank when each of its characters is. -/
def allBlank (text : List Char) : Bool :=
  text.all isBlank

/-- The white space of core is blank: the table only adds to it. -/
theorem isBlank_of_isWhitespace {c : Char} (white : c.isWhitespace = true) :
    isBlank c = true := by
  simp only [Char.isWhitespace, Bool.or_eq_true, decide_eq_true_eq] at white
  rcases white with ((white | white) | white) | white <;> subst white <;> decide

/-! ## Fields between separators -/

/-- Put a character in front of the first field. -/
def consField (c : Char) : List (List Char) → List (List Char)
  | [] => [[c]]
  | field :: later => (c :: field) :: later

/-- Cut a text at every separator.  The separators are dropped and empty fields
are kept, so a text with `n` separators has `n + 1` fields. -/
def fields (separates : Char → Bool) (text : List Char) : List (List Char) :=
  text.foldr (fun c later => if separates c then [] :: later else consField c later) [[]]

section Fields

variable (separates : Char → Bool)

@[simp]
theorem fields_nil : fields separates [] = [[]] := rfl

theorem fields_cons (c : Char) (text : List Char) :
    fields separates (c :: text) =
      if separates c then [] :: fields separates text
      else consField c (fields separates text) := rfl

theorem fields_ne_nil (text : List Char) : fields separates text ≠ [] := by
  cases text with
  | nil => simp
  | cons c text =>
      rw [fields_cons]
      split
      · simp
      · unfold consField; split <;> simp

/-- No field holds a separator. -/
theorem not_mem_of_mem_fields {text field : List Char} (found : field ∈ fields separates text) :
    ∀ c ∈ field, separates c = false := by
  induction text generalizing field with
  | nil =>
      simp only [fields_nil, List.mem_singleton] at found
      subst found
      simp
  | cons c text ih =>
      rw [fields_cons] at found
      split at found
      · rcases List.mem_cons.mp found with same | later
        · subst same; simp
        · exact ih later
      · rename_i kept
        cases split : fields separates text with
        | nil => exact absurd split (fields_ne_nil separates text)
        | cons first later =>
            rw [split] at found ih
            simp only [consField, List.mem_cons] at found
            rcases found with same | inLater
            · subst same
              intro d mem
              rcases List.mem_cons.mp mem with here | there
              · subst here; simpa using kept
              · exact ih (List.mem_cons_self ..) d there
            · exact ih (List.mem_cons_of_mem _ inLater)

end Fields

/-! ## Words -/

/-- The words of a text: its fields between blanks, the empty ones left out. -/
def words (text : List Char) : List (List Char) :=
  (fields isBlank text).filter fun field => !field.isEmpty

theorem ne_nil_of_mem_words {text word : List Char} (found : word ∈ words text) : word ≠ [] := by
  have kept := (List.mem_filter.mp found).2
  simpa [List.isEmpty_iff] using kept

theorem not_isBlank_of_mem_words {text word : List Char} (found : word ∈ words text) :
    ∀ c ∈ word, isBlank c = false :=
  not_mem_of_mem_fields isBlank (List.mem_filter.mp found).1

/-! ## Trimming -/

/-- Drop the longest suffix whose characters all satisfy the test. -/
def dropTrailing (drops : Char → Bool) (text : List Char) : List Char :=
  (text.reverse.dropWhile drops).reverse

end LineAsm.Text
