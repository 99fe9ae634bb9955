import LineAsm.Label.Table
import Mathlib.Data.List.Nodup

/-!
# Label tables and labelled lines

The entries of the table of some lines are exactly the pairs of a label and the number
of the line that defines it (`mem_entries_of_ofLines`), and no name occurs in two
entries (`names_nodup_of_ofLines`).  Both ways of asking a table follow: the line of a
name is the line the name labels (`line?_eq_some_iff`), and the name at a line is the
label of that line (`nameAt?_eq_labelAt?`).

A table depends on the labels of the lines alone (`ofLines_congr`).
-/

set_option autoImplicit false

namespace LineAsm

/-- The label that a line defines. -/
def labelOf? (text : String) : Option String := (Statement.ofLine text).label

/-- The label defined at the line with the given number. -/
def labelAt? (lines : List String) (number : Nat) : Option String :=
  if number = 0 then none else (lines[number - 1]?).bind labelOf?

/-- A label stands at one of the lines. -/
theorem inside_of_labelAt? {lines : List String} {name : String} {number : Nat}
    (labelled : labelAt? lines number = some name) : 1 ≤ number ∧ number ≤ lines.length := by
  rw [labelAt?] at labelled
  split at labelled
  · cases labelled
  · obtain ⟨text, found, -⟩ := Option.bind_eq_some_iff.mp labelled
    have inside := (List.getElem?_eq_some_iff.mp found).1
    omega

namespace LabelTable

/-! ## Entries -/

theorem mem_insertEntry {name : String} {line : Nat} {entries : List (String × Nat)}
    {entry : String × Nat} :
    entry ∈ insertEntry name line entries ↔ entry = (name, line) ∨ entry ∈ entries := by
  induction entries with
  | nil => simp [insertEntry]
  | cons first later ih =>
      rw [insertEntry]
      split
      · simp
      · rw [List.mem_cons, ih, List.mem_cons]
        tauto

theorem names_insertEntry_perm (name : String) (line : Nat) (entries : List (String × Nat)) :
    ((insertEntry name line entries).map (·.1)).Perm (name :: entries.map (·.1)) := by
  induction entries with
  | nil => exact .refl _
  | cons first later ih =>
      rw [insertEntry]
      split
      · exact .refl _
      · exact (ih.cons first.1).trans (.swap name first.1 _)

/-- Asking for the line of a name is looking for its entry, when names are distinct. -/
theorem line?_eq_some_iff_mem {table : LabelTable} (distinct : (table.entries.map (·.1)).Nodup)
    {name : String} {line : Nat} :
    table.line? name = some line ↔ (name, line) ∈ table.entries := by
  obtain ⟨entries⟩ := table
  simp only [line?] at distinct ⊢
  induction entries with
  | nil => simp
  | cons first later ih =>
      obtain ⟨other, value⟩ := first
      obtain ⟨absent, rest⟩ := List.nodup_cons.mp distinct
      rw [List.lookup_cons]
      by_cases same : name = other
      · subst same
        have notLater : (name, line) ∉ later := fun mem =>
          absent (List.mem_map.mpr ⟨_, mem, rfl⟩)
        simp [notLater, eq_comm]
      · have test : (name == other) = false := beq_eq_false_iff_ne.mpr same
        simp [test, same, ih rest]

theorem line?_eq_none_iff {table : LabelTable} {name : String} :
    table.line? name = none ↔ name ∉ table.entries.map (·.1) := by
  rw [line?, List.lookup_eq_none_iff]
  simp only [List.mem_map, not_exists, not_and, bne_iff_ne, ne_eq]
  exact ⟨fun other entry mem same => other entry mem same.symm,
    fun other entry mem same => other entry mem same.symm⟩

/-! ## Building a table -/

/-- One line either has no label, or a new one that joins the table. -/
theorem define_eq_ok {table extended : LabelTable} {line : Nat} {text : String}
    (built : table.define line text = .ok extended) :
    (labelOf? text = none ∧ extended = table) ∨
      ∃ name, labelOf? text = some name ∧ name ≠ "" ∧ name ∉ table.entries.map (·.1) ∧
        extended = table.insert name line := by
  rw [define] at built
  cases label : (Statement.ofLine text).label with
  | none =>
      rw [label] at built
      exact .inl ⟨label, (Except.ok.inj built).symm⟩
  | some name =>
      rw [label] at built
      simp only at built
      split at built
      · cases built
      · rename_i nonempty
        split at built
        · cases built
        · rename_i fresh
          exact .inr ⟨name, label, by simpa using nonempty, line?_eq_none_iff.mp fresh,
            (Except.ok.inj built).symm⟩

/-- What holds of a table that has been extended by labelled lines, the first of which
has the given number. -/
theorem defineAll_spec {table final : LabelTable} {start : Nat} {lines : List String}
    (distinct : (table.entries.map (·.1)).Nodup)
    (built : table.defineAll start lines = .ok final) :
    (final.entries.map (·.1)).Nodup ∧
      ∀ name number, (name, number) ∈ final.entries ↔
        (name, number) ∈ table.entries ∨
          start ≤ number ∧ (lines[number - start]?).bind labelOf? = some name := by
  induction lines generalizing table start with
  | nil =>
      obtain rfl := Except.ok.inj built
      simp [distinct]
  | cons text later ih =>
      rw [defineAll] at built
      split at built
      · cases built
      · rename_i extended one
        -- The line with the first number is the first line; the others are later ones.
        have here : ∀ name number,
            (start ≤ number ∧ ((text :: later)[number - start]?).bind labelOf? = some name) ↔
              (number = start ∧ labelOf? text = some name) ∨
                (start + 1 ≤ number ∧
                  (later[number - (start + 1)]?).bind labelOf? = some name) := by
          intro name number
          rcases Nat.lt_trichotomy number start with below | rfl | above
          · constructor
            · exact fun ⟨atLeast, _⟩ => absurd atLeast (by omega)
            · rintro (⟨same, _⟩ | ⟨atLeast, _⟩) <;> omega
          · have notBelow : ¬ number + 1 ≤ number := by omega
            simp [notBelow]
          · obtain ⟨gap, rfl⟩ : ∃ gap, number = start + 1 + gap := ⟨number - (start + 1), by omega⟩
            have first : start + 1 + gap - start = gap + 1 := by omega
            have second : start + 1 + gap - (start + 1) = gap := by omega
            rw [first, second, List.getElem?_cons_succ]
            constructor
            · exact fun ⟨_, labelled⟩ => .inr ⟨by omega, labelled⟩
            · rintro (⟨same, _⟩ | ⟨_, labelled⟩)
              · omega
              · exact ⟨by omega, labelled⟩
        rcases define_eq_ok one with ⟨noLabel, rfl⟩ | ⟨name, label, -, fresh, rfl⟩
        · obtain ⟨nodup, entries⟩ := ih distinct built
          refine ⟨nodup, ?_⟩
          intro other number
          rw [entries, here, noLabel]
          simp
        · have extendedNodup : ((table.insert name start).entries.map (·.1)).Nodup :=
            (names_insertEntry_perm name start table.entries).nodup_iff.mpr
              (List.nodup_cons.mpr ⟨fresh, distinct⟩)
          obtain ⟨nodup, entries⟩ := ih extendedNodup built
          refine ⟨nodup, ?_⟩
          intro other number
          rw [entries, here, label, insert, mem_insertEntry, Prod.mk.injEq, Option.some.injEq]
          tauto

theorem names_nodup_empty : (empty.entries.map (·.1)).Nodup := List.nodup_nil

section OfLines

variable {lines : List String} {table : LabelTable} (built : ofLines lines = .ok table)
include built

/-- **No name occurs in two entries of the table of some lines.** -/
theorem names_nodup_of_ofLines : (table.entries.map (·.1)).Nodup :=
  (defineAll_spec names_nodup_empty built).1

/-- **The entries are the labels with the lines that define them.** -/
theorem mem_entries_of_ofLines {name : String} {number : Nat} :
    (name, number) ∈ table.entries ↔ labelAt? lines number = some name := by
  rw [(defineAll_spec names_nodup_empty built).2]
  rw [labelAt?]
  by_cases zero : number = 0
  · simp [zero, empty]
  · have positive : 1 ≤ number := by omega
    simp [zero, positive, empty]

/-- **The line of a name is the line that the name labels.** -/
theorem line?_eq_some_iff {name : String} {number : Nat} :
    table.line? name = some number ↔ labelAt? lines number = some name :=
  (line?_eq_some_iff_mem (names_nodup_of_ofLines built)).trans (mem_entries_of_ofLines built)

/-- A name without a line is no label of the lines. -/
theorem not_mem_labels_of_line? {name : String} (none : table.line? name = none) :
    name ∉ lines.filterMap labelOf? := by
  intro mem
  obtain ⟨text, inside, label⟩ := List.mem_filterMap.mp mem
  obtain ⟨place, found⟩ := List.mem_iff_getElem?.mp inside
  have labelled : labelAt? lines (place + 1) = some name := by
    rw [labelAt?, if_neg (Nat.succ_ne_zero place), Nat.add_sub_cancel, found]
    exact label
  rw [(line?_eq_some_iff built).mpr labelled] at none
  cases none

/-- **The name at a line is the label of that line.** -/
theorem nameAt?_eq_labelAt? (number : Nat) : table.nameAt? number = labelAt? lines number := by
  rw [nameAt?]
  cases found : table.entries.find? (·.2 == number) with
  | none =>
      cases label : labelAt? lines number with
      | none => rfl
      | some name =>
          have none := List.find?_eq_none.mp found _ ((mem_entries_of_ofLines built).mpr label)
          simp at none
  | some entry =>
      have same : entry.2 = number := by simpa using List.find?_some found
      have label := (mem_entries_of_ofLines built).mp (List.mem_of_find?_eq_some found)
      rw [same] at label
      exact label.symm

end OfLines

/-! ## When the labels of lines make a table -/

/-- A line without a label leaves a table as it is. -/
theorem define_of_none {text : String} (none : labelOf? text = none) (table : LabelTable)
    (line : Nat) : table.define line text = .ok table := by
  have label : (Statement.ofLine text).label = Option.none := none
  simp only [define, label]

/-- A new name that is not empty joins a table. -/
theorem define_of_fresh {table : LabelTable} {text name : String}
    (label : labelOf? text = some name) (nonempty : name ≠ "")
    (fresh : name ∉ table.entries.map (·.1)) (line : Nat) :
    table.define line text = .ok (table.insert name line) := by
  have label : (Statement.ofLine text).label = some name := label
  have test : name.isEmpty = false := by simpa using nonempty
  have missing := line?_eq_none_iff.mpr fresh
  simp only [define, label, test, missing, Bool.false_eq_true, if_false]

theorem defineAll_cons_eq_ok_iff {table final : LabelTable} {start : Nat} {text : String}
    {later : List String} :
    table.defineAll start (text :: later) = .ok final ↔
      ∃ extended, table.define start text = .ok extended ∧
        extended.defineAll (start + 1) later = .ok final := by
  rw [defineAll]
  cases table.define start text <;> simp

/-- A table can be extended by labels that are not empty and new to it and to each other. -/
theorem exists_defineAll_iff {table : LabelTable} {start : Nat} {lines : List String} :
    (∃ final, table.defineAll start lines = .ok final) ↔
      (∀ name ∈ lines.filterMap labelOf?, name ≠ "" ∧ name ∉ table.entries.map (·.1)) ∧
        (lines.filterMap labelOf?).Nodup := by
  induction lines generalizing table start with
  | nil => simp [defineAll]
  | cons text later ih =>
      cases label : labelOf? text with
      | none =>
          simp only [defineAll_cons_eq_ok_iff, define_of_none label, Except.ok.injEq,
            exists_eq_left', List.filterMap_cons_none label, ih]
      | some name =>
          rw [List.filterMap_cons_some label]
          by_cases joins : name ≠ "" ∧ name ∉ table.entries.map (·.1)
          · simp only [defineAll_cons_eq_ok_iff, define_of_fresh label joins.1 joins.2,
              Except.ok.injEq, exists_eq_left', ih, List.nodup_cons, List.forall_mem_cons]
            have names (other : String) :
                other ∈ (table.insert name start).entries.map (·.1) ↔
                  other = name ∨ other ∈ table.entries.map (·.1) :=
              (names_insertEntry_perm name start table.entries).mem_iff.trans List.mem_cons
            simp only [names]
            constructor
            · rintro ⟨all, distinct⟩
              refine ⟨⟨joins, fun other mem => ?_⟩, fun mem => ?_, distinct⟩
              · exact ⟨(all other mem).1, fun old => (all other mem).2 (.inr old)⟩
              · exact (all name mem).2 (.inl rfl)
            · rintro ⟨⟨-, all⟩, absent, distinct⟩
              refine ⟨fun other mem => ⟨(all other mem).1, ?_⟩, distinct⟩
              rintro (rfl | old)
              · exact absent mem
              · exact (all other mem).2 old
          · constructor
            · rintro ⟨final, built⟩
              obtain ⟨extended, one, -⟩ := defineAll_cons_eq_ok_iff.mp built
              rcases define_eq_ok one with ⟨none, -⟩ | ⟨other, same, nonempty, fresh, -⟩
              · rw [label] at none
                cases none
              · obtain rfl := Option.some.inj (label.symm.trans same)
                exact absurd ⟨nonempty, fresh⟩ joins
            · rintro ⟨all, -⟩
              exact absurd (all name (.head _)) joins

/-- **The labels of lines make a table** exactly when none is empty and all are distinct. -/
theorem exists_ofLines_iff {lines : List String} :
    (∃ table, ofLines lines = .ok table) ↔
      (∀ name ∈ lines.filterMap labelOf?, name ≠ "") ∧ (lines.filterMap labelOf?).Nodup := by
  rw [show (∃ table, ofLines lines = .ok table) ↔ _ from exists_defineAll_iff]
  simp [empty]

/-! ## Tables of lines with the same labels -/

theorem define_congr {text other : String} (same : labelOf? text = labelOf? other)
    (table : LabelTable) (line : Nat) : table.define line text = table.define line other := by
  have labels : (Statement.ofLine text).label = (Statement.ofLine other).label := same
  rw [define, define, labels]

theorem defineAll_congr {lines others : List String}
    (same : lines.map labelOf? = others.map labelOf?) (table : LabelTable) (start : Nat) :
    table.defineAll start lines = table.defineAll start others := by
  induction lines generalizing others table start with
  | nil =>
      obtain rfl := List.map_eq_nil_iff.mp same.symm
      rfl
  | cons text later ih =>
      obtain ⟨other, rest, rfl, first, remaining⟩ := List.map_eq_cons_iff.mp same.symm
      unfold defineAll
      rw [define_congr first.symm]
      cases table.define start other with
      | error failure => rfl
      | ok extended => exact ih remaining.symm extended (start + 1)

/-- **A table depends on the labels of the lines alone.** -/
theorem ofLines_congr {lines others : List String}
    (same : lines.map labelOf? = others.map labelOf?) : ofLines lines = ofLines others :=
  defineAll_congr same empty 1

end LabelTable

end LineAsm
