import LineAsm.Proofs.Label.Table
import LineAsm.Proofs.Text.ByteOrder
import LineAsm.Proofs.Text.LineByLine

/-!
# Collecting the labels of lines

A line is refused when its label is empty or labels an earlier line (`LabelTable.Refused`).
Lines of which none is refused have a table, and this table lists their labels
(`LabelTable.Lists`): asking for the line of a name and asking for the name at a line both
answer what the lines say, there are as many entries as labelled lines, and the names stand
in the ascending order of their bytes.  Otherwise the error is the one at the first line
that is refused (`LabelTable.ofLines_eq_error_iff`).  All this is `LabelTable.ofLines_exact`.

The lines are taken one after the other (`LabelTable.ofLines_lineByLine`):
`LabelTable.ofLines_concat` says what one more line does, and everything else is by induction
from the end.
-/

set_option autoImplicit false

namespace LineAsm

/-- The label at a number, when one more line stands at the end. -/
theorem labelAt?_concat (lines : List String) (text : String) (number : Nat) :
    labelAt? (lines ++ [text]) number =
      if number = lines.length + 1 then labelOf? text else labelAt? lines number := by
  by_cases last : number = lines.length + 1
  · subst last
    rw [labelAt?, if_neg (Nat.succ_ne_zero _), if_pos rfl, Nat.add_sub_cancel,
      List.getElem?_concat_length]
    rfl
  · rw [if_neg last, labelAt?, labelAt?]
    split
    · rfl
    · by_cases inside : number - 1 < lines.length
      · rw [List.getElem?_append_left inside]
      · rw [List.getElem?_eq_none (by rw [List.length_append, List.length_singleton]; omega),
          List.getElem?_eq_none (by omega)]

theorem labelAt?_concat_of_le {lines : List String} {number : Nat}
    (inside : number ≤ lines.length) (text : String) :
    labelAt? (lines ++ [text]) number = labelAt? lines number := by
  rw [labelAt?_concat, if_neg (by omega)]

theorem labelAt?_concat_last (lines : List String) (text : String) :
    labelAt? (lines ++ [text]) (lines.length + 1) = labelOf? text := by
  rw [labelAt?_concat, if_pos rfl]

namespace LabelTable

/-! ## Lines that are refused -/

/-- Labels that make a table: none is empty, and no two lines have the same one. -/
structure ProperLabels (lines : List String) : Prop where
  nonempty : ∀ number, labelAt? lines number ≠ some ""
  distinct : ∀ {name first second}, labelAt? lines first = some name →
    labelAt? lines second = some name → first = second

/-- Why the label of a line cannot join the labels of the lines before it. -/
inductive Refused (lines : List String) (number : Nat) : LinkError → Prop where
  /-- The label is empty. -/
  | empty (unnamed : labelAt? lines number = some "") : Refused lines number (.emptyLabel number)
  /-- An earlier line has the same label. -/
  | duplicate {name : String} {earlier : Nat} (named : name ≠ "")
      (again : labelAt? lines number = some name) (before : earlier < number)
      (defined : labelAt? lines earlier = some name) :
      Refused lines number (.duplicateLabel name earlier number)

theorem Refused.inside {lines : List String} {number : Nat} {failure : LinkError}
    (refused : Refused lines number failure) : 0 < number ∧ number ≤ lines.length := by
  cases refused with
  | empty unnamed => exact inside_of_labelAt? unnamed
  | duplicate _ again => exact inside_of_labelAt? again

/-- A line is refused by what stands up to it. -/
theorem refused_concat_iff {lines : List String} {number : Nat} {failure : LinkError}
    (inside : number ≤ lines.length) (text : String) :
    Refused (lines ++ [text]) number failure ↔ Refused lines number failure := by
  have here := labelAt?_concat_of_le inside text
  constructor
  · intro refused
    cases refused with
    | empty unnamed => exact .empty (here ▸ unnamed)
    | duplicate named again before defined =>
        rw [labelAt?_concat_of_le (Nat.le_of_lt (Nat.lt_of_lt_of_le before inside))] at defined
        exact .duplicate named (here ▸ again) before defined
  · intro refused
    cases refused with
    | empty unnamed => exact .empty (here ▸ unnamed)
    | duplicate named again before defined =>
        refine .duplicate named (here ▸ again) before ?_
        rwa [labelAt?_concat_of_le (Nat.le_of_lt (Nat.lt_of_lt_of_le before inside))]

/-- **Labels make a table** exactly when no line is refused. -/
theorem properLabels_iff {lines : List String} :
    ProperLabels lines ↔ ∀ number failure, ¬ Refused lines number failure := by
  constructor
  · intro proper number failure refused
    cases refused with
    | empty unnamed => exact proper.nonempty number unnamed
    | duplicate _ again before defined =>
        exact absurd (proper.distinct defined again) (Nat.ne_of_lt before)
  · intro accepted
    have nonempty : ∀ number, labelAt? lines number ≠ some "" := fun number unnamed =>
      accepted number _ (.empty unnamed)
    refine ⟨nonempty, ?_⟩
    intro name first second atFirst atSecond
    have named : name ≠ "" := fun none => nonempty first (none ▸ atFirst)
    rcases Nat.lt_trichotomy first second with before | same | before
    · exact absurd (.duplicate named atSecond before atFirst) (accepted second _)
    · exact same
    · exact absurd (.duplicate named atFirst before atSecond) (accepted first _)

/-! ## One more line -/

theorem defineAll_concat (table : LabelTable) (start : Nat) (lines : List String)
    (text : String) :
    table.defineAll start (lines ++ [text]) =
      (table.defineAll start lines).bind fun extended =>
        extended.define (start + lines.length) text := by
  induction lines generalizing table start with
  | nil =>
      rw [List.nil_append, defineAll, List.length_nil, Nat.add_zero]
      cases one : table.define start text <;> simp [defineAll, Except.bind, one]
  | cons first later ih =>
      rw [List.cons_append, defineAll, defineAll, List.length_cons]
      cases table.define start first with
      | error failure => rfl
      | ok extended =>
          have shift : start + 1 + later.length = start + (later.length + 1) := by omega
          rw [← shift]
          exact ih extended (start + 1)

/-- **One more line** is added to the table of the lines before it. -/
theorem ofLines_concat (lines : List String) (text : String) :
    ofLines (lines ++ [text]) =
      (ofLines lines).bind fun table => table.define (lines.length + 1) text := by
  rw [ofLines, defineAll_concat, Nat.add_comm 1]
  rfl

theorem ofLines_concat_eq_ok_iff {lines : List String} {text : String} {final : LabelTable} :
    ofLines (lines ++ [text]) = .ok final ↔
      ∃ table, ofLines lines = .ok table ∧ table.define (lines.length + 1) text = .ok final := by
  rw [ofLines_concat]
  cases ofLines lines <;> simp [Except.bind]

theorem ofLines_concat_eq_error_iff {lines : List String} {text : String}
    {failure : LinkError} :
    ofLines (lines ++ [text]) = .error failure ↔
      ofLines lines = .error failure ∨
        ∃ table, ofLines lines = .ok table ∧
          table.define (lines.length + 1) text = .error failure := by
  rw [ofLines_concat]
  cases ofLines lines <;> simp [Except.bind]

/-- A line cannot join a table when its label is empty, or is in the table already. -/
theorem define_eq_error_iff {table : LabelTable} {line : Nat} {text : String}
    {failure : LinkError} :
    table.define line text = .error failure ↔
      (labelOf? text = some "" ∧ failure = .emptyLabel line) ∨
        ∃ name earlier, labelOf? text = some name ∧ name ≠ "" ∧
          table.line? name = some earlier ∧ failure = .duplicateLabel name earlier line := by
  rw [define, labelOf?]
  cases (Statement.ofLine text).label with
  | none => simp
  | some name =>
      by_cases unnamed : name = ""
      · simp [unnamed, eq_comm (a := failure)]
      · cases found : table.line? name with
        | none => simp [unnamed, found]
        | some earlier => simp [unnamed, found, eq_comm (a := failure)]

/-- **A line is refused** exactly when it cannot join the table of the lines before it. -/
theorem define_eq_error_iff_refused {lines : List String} {text : String} {table : LabelTable}
    {failure : LinkError} (built : ofLines lines = .ok table) :
    table.define (lines.length + 1) text = .error failure ↔
      Refused (lines ++ [text]) (lines.length + 1) failure := by
  rw [define_eq_error_iff]
  have here := labelAt?_concat_last lines text
  constructor
  · rintro (⟨unnamed, rfl⟩ | ⟨name, earlier, label, named, defined, rfl⟩)
    · exact .empty (here.trans unnamed)
    · have before := (line?_eq_some_iff built).mp defined
      have inside := (inside_of_labelAt? before).2
      exact .duplicate named (here.trans label) (Nat.lt_succ_of_le inside)
        ((labelAt?_concat_of_le inside text).trans before)
  · intro refused
    cases refused with
    | empty unnamed => exact .inl ⟨here.symm.trans unnamed, rfl⟩
    | @duplicate name earlier named again before defined =>
        rw [labelAt?_concat_of_le (Nat.le_of_lt_succ before)] at defined
        exact .inr ⟨name, earlier, here.symm.trans again, named,
          (line?_eq_some_iff built).mpr defined, rfl⟩

/-- The labels are collected line by line. -/
theorem ofLines_lineByLine : LineByLine ofLines Refused where
  nil := ⟨_, rfl⟩
  inside := Refused.inside
  upTo := refused_concat_iff
  concat := by
    intro lines text failure
    rw [ofLines_concat_eq_error_iff]
    refine or_congr_right ⟨?_, ?_⟩
    · rintro ⟨table, built, fails⟩
      exact ⟨⟨table, built⟩, (define_eq_error_iff_refused built).mp fails⟩
    · rintro ⟨⟨table, built⟩, refused⟩
      exact ⟨table, built, (define_eq_error_iff_refused built).mpr refused⟩

/-- **The error is the one at the first line that is refused.** -/
theorem ofLines_eq_error_iff {lines : List String} {failure : LinkError} :
    ofLines lines = .error failure ↔ LineByLine.First Refused lines failure :=
  ofLines_lineByLine.eq_error_iff

/-- **The labels of lines make a table** exactly when they are proper. -/
theorem exists_ofLines_iff_properLabels {lines : List String} :
    (∃ table, ofLines lines = .ok table) ↔ ProperLabels lines := by
  rw [properLabels_iff]
  exact ofLines_lineByLine.exists_ok_iff

/-! ## The row of entries -/

/-- A new name is put at its place among names in ascending order. -/
theorem pairwise_insertEntry {name : String} {line : Nat} {entries : List (String × Nat)}
    (ascends : entries.Pairwise (·.1 < ·.1)) (fresh : name ∉ entries.map (·.1)) :
    (insertEntry name line entries).Pairwise (·.1 < ·.1) := by
  induction entries with
  | nil => exact List.pairwise_singleton _ _
  | cons first later ih =>
      obtain ⟨above, rest⟩ := List.pairwise_cons.mp ascends
      rw [List.map_cons, List.mem_cons, not_or] at fresh
      rw [insertEntry]
      split
      · rename_i before
        refine List.pairwise_cons.mpr ⟨?_, ascends⟩
        intro entry mem
        rcases List.mem_cons.mp mem with rfl | mem
        · exact before
        · exact String.lt_trans before (above entry mem)
      · rename_i notBefore
        refine List.pairwise_cons.mpr ⟨?_, ih rest fresh.2⟩
        intro entry mem
        rcases mem_insertEntry.mp mem with rfl | mem
        · exact String.not_le.mp fun upTo =>
            fresh.1 (String.le_antisymm upTo (String.not_lt.mp notBefore))
        · exact above entry mem

section OfLines

variable {lines : List String} {table : LabelTable} (built : ofLines lines = .ok table)
include built

/-- **The names stand in ascending order.** -/
theorem ascending_of_ofLines : table.entries.Pairwise (·.1 < ·.1) := by
  induction lines using List.reverseRecOn generalizing table with
  | nil =>
      obtain rfl := Except.ok.inj built
      exact .nil
  | append_singleton lines text ih =>
      obtain ⟨before, earlier, joins⟩ := ofLines_concat_eq_ok_iff.mp built
      rcases define_eq_ok joins with ⟨-, rfl⟩ | ⟨name, -, -, fresh, rfl⟩
      · exact ih earlier
      · exact pairwise_insertEntry (ih earlier) fresh

/-- **The names are the labels of the lines**, each as often as there. -/
theorem names_perm_of_ofLines : (table.entries.map (·.1)).Perm (lines.filterMap labelOf?) := by
  induction lines using List.reverseRecOn generalizing table with
  | nil =>
      obtain rfl := Except.ok.inj built
      exact .nil
  | append_singleton lines text ih =>
      obtain ⟨before, earlier, joins⟩ := ofLines_concat_eq_ok_iff.mp built
      rw [List.filterMap_append]
      rcases define_eq_ok joins with ⟨unlabelled, rfl⟩ | ⟨name, label, -, -, rfl⟩
      · simpa [unlabelled] using ih earlier
      · have joined := (names_insertEntry_perm name (lines.length + 1) before.entries).trans
          ((ih earlier).cons name)
        simpa [label, insert] using joined.trans (List.perm_append_singleton name _).symm

end OfLines

/-! ## The table of some lines -/

/-- A table that lists the labels of lines: it has an entry for each labelled line and no
other, both questions are answered by the lines, and the names ascend by their bytes. -/
structure Lists (table : LabelTable) (lines : List String) : Prop where
  entries : ∀ name number, (name, number) ∈ table.entries ↔ labelAt? lines number = some name
  line? : ∀ name number, table.line? name = some number ↔ labelAt? lines number = some name
  nameAt? : ∀ name number, table.nameAt? number = some name ↔ labelAt? lines number = some name
  size : table.size = lines.countP fun text => (labelOf? text).isSome
  ascends : table.entries.Pairwise fun entry later =>
    Text.utf8Bytes entry.1 < Text.utf8Bytes later.1

theorem lists_of_ofLines {lines : List String} {table : LabelTable}
    (built : ofLines lines = .ok table) : table.Lists lines where
  entries _ _ := mem_entries_of_ofLines built
  line? _ _ := line?_eq_some_iff built
  nameAt? _ number := by rw [nameAt?_eq_labelAt? built]
  size := by
    have names := (names_perm_of_ofLines built).length_eq
    rwa [List.length_map, List.length_filterMap_eq_countP] at names
  ascends := (ascending_of_ofLines built).imp Text.utf8Bytes_lt_of_lt

/-- The line that is named beside a duplicate is the only earlier one with its label. -/
theorem eq_of_firstRefused {lines : List String} {name : String} {earlier number : Nat}
    (failure : LineByLine.First Refused lines (.duplicateLabel name earlier number)) {other : Nat}
    (before : other < number) (label : labelAt? lines other = some name) : other = earlier := by
  obtain ⟨_, refused, first⟩ := failure
  cases refused with
  | duplicate named again inside defined =>
      rcases Nat.lt_trichotomy other earlier with below | same | above
      · exact absurd (.duplicate named defined below label) (first earlier inside _)
      · exact same
      · exact absurd (.duplicate named label above defined) (first other before _)

/-- **The labels of lines are collected exactly.**  They make a table just when none is empty
and no two are the same, and the table then lists them.  Otherwise the error is the one at
the first line that is refused, and a duplicate is reported with the one earlier line that
has its label. -/
theorem ofLines_exact (lines : List String) :
    ((∃ table, ofLines lines = .ok table) ↔ ProperLabels lines) ∧
      (∀ table, ofLines lines = .ok table → table.Lists lines) ∧
      (∀ failure, ofLines lines = .error failure ↔ LineByLine.First Refused lines failure) ∧
      ∀ name earlier number, ofLines lines = .error (.duplicateLabel name earlier number) →
        ∀ other < number, labelAt? lines other = some name → other = earlier := by
  refine ⟨exists_ofLines_iff_properLabels, fun _ => lists_of_ofLines,
    fun _ => ofLines_eq_error_iff, ?_⟩
  intro name earlier number fails other before label
  exact eq_of_firstRefused (ofLines_eq_error_iff.mp fails) before label

/-- A label glued to its mnemonic, one with a second colon behind it, and a colon that only
stands in a comment. -/
def gluedLabels : List String := ["z:INC A0", "INC A0 // a: b", "a:b: DEC A0"]

theorem ofLines_exact_glued :
    (ofLines gluedLabels = .ok ⟨[("a", 3), ("z", 1)]⟩ ∧
        LabelTable.Lists ⟨[("a", 3), ("z", 1)]⟩ gluedLabels) ∧
      ofLines (gluedLabels ++ ["z: RET"]) = .error (.duplicateLabel "z" 1 4) ∧
        LineByLine.First Refused (gluedLabels ++ ["z: RET"]) (.duplicateLabel "z" 1 4) := by
  have built : ofLines gluedLabels = .ok ⟨[("a", 3), ("z", 1)]⟩ := by decide +kernel
  have fails : ofLines (gluedLabels ++ ["z: RET"]) = .error (.duplicateLabel "z" 1 4) := by
    decide +kernel
  exact ⟨⟨built, (ofLines_exact gluedLabels).2.1 _ built⟩, fails,
    ((ofLines_exact (gluedLabels ++ ["z: RET"])).2.2.1 _).mp fails⟩

end LabelTable

end LineAsm
