import LineAsm.Text.Lines

/-!
# What cutting a text and joining the pieces do to each other

Cutting at separators splits over a separator (`fields_append_separator`), and a
text without separators is its own only field (`fields_of_forall_not`).  Everything
else follows from these two equations.

* Words joined by single spaces are cut into the same words
  (`words_intercalate_space`), and every word of a text is a piece of it
  (`isInfix_of_mem_words`).
* Lines of which each is ended by a line feed are read back as they are, when none
  of them holds a line feed or ends with a carriage return
  (`linesOf_flatMap_terminated`).
-/

set_option autoImplicit false

namespace LineAsm.Text

/-! ## Fields -/

section Fields

variable {separates : Char → Bool}

/-- **Fields split at a separator.** -/
theorem fields_append_separator (before after : List Char) {c : Char}
    (separator : separates c = true) :
    fields separates (before ++ c :: after) =
      fields separates before ++ fields separates after := by
  induction before with
  | nil => simp [fields_cons, separator]
  | cons first before ih =>
      rw [List.cons_append, fields_cons, fields_cons, ih]
      split
      · rfl
      · cases pieces : fields separates before with
        | nil => exact absurd pieces (fields_ne_nil separates before)
        | cons piece later => rfl

/-- A text without separators is one field. -/
theorem fields_of_forall_not {text : List Char}
    (none : ∀ c ∈ text, separates c = false) : fields separates text = [text] := by
  induction text with
  | nil => rfl
  | cons c text ih =>
      have kept : separates c = false := none c (List.mem_cons_self ..)
      rw [fields_cons, ih fun d mem => none d (List.mem_cons_of_mem _ mem), kept]
      rfl

/-- A field at the front, and a separator behind it. -/
theorem fields_of_forall_not_append {field : List Char} (after : List Char) {c : Char}
    (none : ∀ d ∈ field, separates d = false) (separator : separates c = true) :
    fields separates (field ++ c :: after) = field :: fields separates after := by
  rw [fields_append_separator field after separator, fields_of_forall_not none]
  rfl

/-- **The last field of a text** is the only one that grows when text without separators is put
behind it.  It is empty only if the text is, or ends with a separator. -/
theorem exists_last_field (text : List Char) :
    ∃ earlier last,
      (∀ behind, (∀ c ∈ behind, separates c = false) →
        fields separates (text ++ behind) = earlier ++ [last ++ behind]) ∧
      (last = [] → ∀ c, text.getLast? = some c → separates c = true) := by
  induction text with
  | nil =>
      exact ⟨[], [], fun behind none => fields_of_forall_not none, fun _ _ none => nomatch none⟩
  | cons c text ih =>
      obtain ⟨earlier, last, grows, ends⟩ := ih
      by_cases separator : separates c = true
      · refine ⟨[] :: earlier, last, ?_, ?_⟩
        · intro behind none
          rw [List.cons_append, fields_cons, if_pos separator, grows behind none]
          rfl
        · intro empty d final
          cases text with
          | nil =>
              obtain rfl := Option.some.inj final
              exact separator
          | cons e text => exact ends empty d (by rwa [List.getLast?_cons_cons] at final)
      · cases earlier with
        | nil =>
            refine ⟨[], c :: last, ?_, nofun⟩
            intro behind none
            rw [List.cons_append, fields_cons, if_neg separator, grows behind none]
            rfl
        | cons first earlier =>
            refine ⟨(c :: first) :: earlier, last, ?_, ?_⟩
            · intro behind none
              rw [List.cons_append, fields_cons, if_neg separator, grows behind none]
              rfl
            · intro empty d final
              cases text with
              | nil =>
                  have alone := grows [] (by simp)
                  rw [List.append_nil, fields_nil] at alone
                  simp at alone
              | cons e text => exact ends empty d (by rwa [List.getLast?_cons_cons] at final)

/-- The first field is a prefix of the text, and the later ones are pieces of it. -/
theorem isPrefix_and_isInfix_of_fields {text first : List Char} {later : List (List Char)}
    (cut : fields separates text = first :: later) :
    first <+: text ∧ ∀ field ∈ later, field <:+: text := by
  induction text generalizing first later with
  | nil =>
      obtain ⟨rfl, rfl⟩ := List.cons.inj cut
      simp
  | cons c text ih =>
      obtain ⟨second, others, rest⟩ := List.exists_cons_of_ne_nil (fields_ne_nil separates text)
      obtain ⟨starts, within⟩ := ih rest
      rw [fields_cons, rest] at cut
      split at cut
      · obtain ⟨rfl, rfl⟩ := List.cons.inj cut
        refine ⟨List.nil_prefix, ?_⟩
        intro field mem
        rcases List.mem_cons.mp mem with rfl | mem
        · exact starts.isInfix.trans (List.suffix_cons c text).isInfix
        · exact (within field mem).trans (List.suffix_cons c text).isInfix
      · obtain ⟨rfl, rfl⟩ := List.cons.inj cut
        exact ⟨(List.prefix_cons_inj c).mpr starts, fun field mem =>
          (within field mem).trans (List.suffix_cons c text).isInfix⟩

/-- Every field is a piece of the text. -/
theorem isInfix_of_mem_fields {text field : List Char} (found : field ∈ fields separates text) :
    field <:+: text := by
  obtain ⟨first, later, cut⟩ := List.exists_cons_of_ne_nil (fields_ne_nil separates text)
  obtain ⟨starts, within⟩ := isPrefix_and_isInfix_of_fields cut
  rw [cut] at found
  rcases List.mem_cons.mp found with rfl | mem
  · exact starts.isInfix
  · exact within field mem

end Fields

/-! ## Words -/

@[simp]
theorem words_nil : words [] = [] := rfl

/-- **Words split at a blank.** -/
theorem words_append_blank (before after : List Char) {c : Char} (blank : isBlank c = true) :
    words (before ++ c :: after) = words before ++ words after := by
  rw [words, fields_append_separator before after blank, List.filter_append]
  rfl

/-- A non-empty text without blanks is one word. -/
theorem words_of_forall_not_blank {word : List Char} (nonempty : word ≠ [])
    (solid : ∀ c ∈ word, isBlank c = false) : words word = [word] := by
  rw [words, fields_of_forall_not solid]
  simpa [List.isEmpty_iff] using nonempty

/-- A text of blanks has no words. -/
theorem words_of_allBlank {text : List Char} (blank : allBlank text = true) :
    words text = [] := by
  induction text with
  | nil => rfl
  | cons c text ih =>
      simp only [allBlank, List.all_cons, Bool.and_eq_true] at blank
      rw [show words (c :: text) = words [] ++ words text from
        words_append_blank [] text blank.1, ih blank.2]
      rfl

theorem isInfix_of_mem_words {text word : List Char} (found : word ∈ words text) :
    word <:+: text :=
  isInfix_of_mem_fields (List.mem_filter.mp found).1

/-- The space is blank. -/
theorem isBlank_space : isBlank ' ' = true := by decide

/-- **Words joined by single spaces are cut into the same words.** -/
theorem words_intercalate_space {tokens : List (List Char)}
    (solid : ∀ token ∈ tokens, token ≠ [] ∧ ∀ c ∈ token, isBlank c = false) :
    words ([' '].intercalate tokens) = tokens := by
  induction tokens with
  | nil => rfl
  | cons token tokens ih =>
      obtain ⟨nonempty, unbroken⟩ := solid token (List.mem_cons_self ..)
      have one : words token = [token] := words_of_forall_not_blank nonempty unbroken
      cases tokens with
      | nil => simpa [List.intercalate] using one
      | cons next later =>
          have rest := ih fun word mem => solid word (List.mem_cons_of_mem _ mem)
          calc words ([' '].intercalate (token :: next :: later))
              = words (token ++ ' ' :: [' '].intercalate (next :: later)) := by
                simp [List.intercalate_cons_cons]
            _ = token :: next :: later := by
                rw [words_append_blank _ _ isBlank_space, one, rest]
                rfl

/-! ## Lines -/

/-- Lines that are each ended by a line feed are cut into the same lines and one
empty field behind the last line feed. -/
theorem fields_flatMap_terminated {lines : List (List Char)}
    (oneLine : ∀ line ∈ lines, '\n' ∉ line) :
    fields (· == '\n') (lines.flatMap (· ++ ['\n'])) = lines ++ [[]] := by
  induction lines with
  | nil => rfl
  | cons line lines ih =>
      have solid : ∀ c ∈ line, (c == '\n') = false := fun c mem => by
        refine beq_eq_false_iff_ne.mpr ?_
        intro same
        subst same
        exact oneLine line (List.mem_cons_self ..) mem
      have ends : ((line :: lines).flatMap (· ++ ['\n'])) =
          line ++ '\n' :: lines.flatMap (· ++ ['\n']) := by simp
      rw [ends, fields_of_forall_not_append _ solid (by decide),
        ih fun other mem => oneLine other (List.mem_cons_of_mem _ mem)]
      rfl

theorem dropReturn_eq_self {line : List Char} (clean : line.getLast? ≠ some '\r') :
    dropReturn line = line :=
  if_neg clean

/-- **Lines that are each ended by a line feed are read back as they are.** -/
theorem linesOf_flatMap_terminated {lines : List (List Char)}
    (oneLine : ∀ line ∈ lines, '\n' ∉ line)
    (clean : ∀ line ∈ lines, line.getLast? ≠ some '\r') :
    linesOf (lines.flatMap (· ++ ['\n'])) = lines := by
  have kept : lines.map dropReturn = lines :=
    (List.map_congr_left fun line mem => dropReturn_eq_self (clean line mem)).trans
      (List.map_id' lines)
  rw [linesOf]
  rw [fields_flatMap_terminated oneLine]
  simp [kept]

end LineAsm.Text
