import LineAsm.Proofs.Relocation.Assembling

/-!
# A source with one label more

A line that does nothing but define a label is put into a source, at the place behind a
number of addressed lines.  The lines behind it move by one (`shift`), and with them the
labels at these lines, the lines that jumps and calls name, and the lines that brackets
carry.  The source with the line is assembled whenever the source without it is, and the
programs differ in nothing else (`Program.exists_relocated`).
-/

set_option autoImplicit false

namespace LineAsm

/-! ## Moving lines by one -/

/-- Where a line stands once a line has been put behind `place` others. -/
def shift (place line : Nat) : Nat := if line ≤ place then line else line + 1

variable {place line : Nat}

theorem shift_of_le (before : line ≤ place) : shift place line = line := if_pos before

theorem shift_of_lt (behind : place < line) : shift place line = line + 1 :=
  if_neg (Nat.not_le_of_lt behind)

@[simp]
theorem shift_zero (place : Nat) : shift place 0 = 0 := shift_of_le (Nat.zero_le place)

theorem shift_strictMono (place : Nat) : StrictMono (shift place) := by
  intro line other less
  unfold shift
  split <;> split <;> omega

theorem le_shift (place line : Nat) : line ≤ shift place line ∧ shift place line ≤ line + 1 := by
  unfold shift
  split <;> omega

/-- A row with one more entry has the other entries at their moved places. -/
theorem getElem?_insert {α : Type} (before after : List α) (extra : α) (line : Nat) :
    (before ++ extra :: after)[shift before.length (line + 1) - 1]? = (before ++ after)[line]? := by
  by_cases inside : line + 1 ≤ before.length
  · rw [shift_of_le inside, Nat.add_sub_cancel, List.getElem?_append_left inside,
      List.getElem?_append_left inside]
  · have behind : before.length ≤ line := by omega
    have moved : line + 1 - before.length = (line - before.length) + 1 := by omega
    rw [shift_of_lt (by omega), Nat.add_sub_cancel, List.getElem?_append_right (by omega),
      List.getElem?_append_right behind, moved, List.getElem?_cons_succ]

/-! ## A line that is a label -/

namespace Statement

/-- A name with a colon is a line that defines a label and does nothing. -/
theorem ofLine_of_labelName {name : String} (valid : LabelName name) :
    ofLine (name ++ ":") = ⟨some name, [], none⟩ := by
  have free : MarkFree (name ++ ":").toList := by
    rw [String.toList_append]
    exact valid.solid.free.append_cons .nil (by decide)
  have cut : cutComment (name ++ ":").toList = ((name ++ ":").toList, []) := by
    simpa using cutComment_of_markFree free (.inl rfl) (.inl rfl)
  have unbroken : ∀ c ∈ name.toList ++ [':'], Text.isBlank c = false := by
    intro c mem
    rcases List.mem_append.mp mem with inName | colon
    · exact valid.solid.unbroken c inName
    · obtain rfl := List.mem_singleton.mp colon
      decide
  have words : Text.words (name ++ ":").toList = [name.toList ++ [':']] := by
    rw [String.toList_append]
    exact Text.words_of_forall_not_blank (by simp) unbroken
  have wellFormed : WellFormed ⟨some name, [], none⟩ :=
    ⟨fun other same => Option.some.inj same ▸ ⟨valid.solid, valid.noColon⟩, by simp, by simp,
      by simp⟩
  have label := cutLabel_labelWord wellFormed
  simp only [labelWord, Option.toList_some, List.map_cons, List.map_nil, List.append_nil] at label
  rw [ofLine_eq, cut, words, label]
  simp

end Statement

/-! ## Programs -/

namespace Program

/-- **A program with an empty line more** behind `place` lines: the others are the lines of
the first program, moved. -/
structure Relocated (place : Nat) (program moved : Program) : Prop where
  inside : place ≤ program.size
  size : moved.size = program.size + 1
  blank : moved.instruction? (place + 1) = some .nop
  others : ∀ line, moved.instruction? (shift place line) =
    (program.instruction? line).map (·.mapLines (shift place))

end Program

namespace LabelTable

/-- The labels of lines with a new label among them make a table, in which the other labels
stand at their moved lines. -/
theorem exists_ofLines_insert {before after : List String} {name : String} {table : LabelTable}
    (built : ofLines (before ++ after) = .ok table) (valid : Statement.LabelName name)
    (fresh : table.line? name = none) :
    ∃ longer, ofLines (before ++ (name ++ ":") :: after) = .ok longer ∧
      ∀ other target, table.line? other = some target →
        longer.line? other = some (shift before.length target) := by
  have label : labelOf? (name ++ ":") = some name := by
    rw [labelOf?, Statement.ofLine_of_labelName valid]
  obtain ⟨nonempty, distinct⟩ := exists_ofLines_iff.mp ⟨table, built⟩
  have new := not_mem_labels_of_line? built fresh
  rw [List.filterMap_append] at nonempty distinct new
  have longerLabels : (before ++ (name ++ ":") :: after).filterMap labelOf? =
      before.filterMap labelOf? ++ name :: after.filterMap labelOf? := by
    rw [List.filterMap_append, List.filterMap_cons_some label]
  obtain ⟨longer, longerBuilt⟩ := exists_ofLines_iff.mpr
    (show (∀ other ∈ (before ++ (name ++ ":") :: after).filterMap labelOf?, other ≠ "") ∧ _ by
      rw [longerLabels, List.nodup_middle, List.nodup_cons]
      refine ⟨?_, new, distinct⟩
      intro other mem
      rcases List.mem_cons.mp (List.perm_middle.mem_iff.mp mem) with rfl | old
      · exact valid.nonempty
      · exact nonempty other old)
  refine ⟨longer, longerBuilt, ?_⟩
  intro other target defined
  have labelled := (line?_eq_some_iff built).mp defined
  refine (line?_eq_some_iff longerBuilt).mpr ?_
  cases target with
  | zero => cases labelled
  | succ target =>
      have moved := (le_shift before.length (target + 1)).1
      rw [labelAt?, if_neg (Nat.succ_ne_zero target), Nat.add_sub_cancel] at labelled
      rw [labelAt?, if_neg (by omega), getElem?_insert, labelled]

/-- A line that only defines a label is resolved to itself. -/
theorem resolveLine_labelLine {name : String} (valid : Statement.LabelName name)
    (table : LabelTable) (line : Nat) :
    table.resolveLine .source line (name ++ ":") = .ok (name ++ ":") :=
  resolveLine_of_none (by rw [Statement.ofLine_of_labelName valid]; rfl) table .source line

/-- What corresponds to two rows is two rows. -/
theorem exists_append_of_forall₂ {α β : Type} {related : α → β → Prop} {first second : List α}
    {row : List β} (all : List.Forall₂ related (first ++ second) row) :
    ∃ front back, row = front ++ back ∧ List.Forall₂ related first front ∧
      List.Forall₂ related second back := by
  refine ⟨row.take first.length, row.drop first.length, (List.take_append_drop _ _).symm, ?_, ?_⟩
  · exact (List.forall₂_take_append row first second (List.Forall₂.flip all)).flip
  · exact (List.forall₂_drop_append row first second (List.Forall₂.flip all)).flip

/-- Lines that have been resolved are resolved as well when their labels have moved, and spell
the moved instructions. -/
theorem exists_forall₂_moved {table moved : LabelTable} {move : Nat → Nat} (zero : move 0 = 0)
    (labels : ∀ name target, table.line? name = some target →
      moved.line? name = some (move target) ∧ 1 ≤ move target ∧
        move target < Decoding.lineBound)
    {texts resolved : List String}
    (done : List.Forall₂ (fun text out => ∃ line, table.resolveLine .source line text = .ok out)
      texts resolved) :
    ∃ others,
      List.Forall₂ (fun text other => ∀ line, moved.resolveLine .source line text = .ok other)
        texts others ∧
      List.Forall₂ (SpellsMoved move) resolved others := by
  induction done with
  | nil => exact ⟨[], .nil, .nil⟩
  | cons one _ ih =>
      obtain ⟨line, one⟩ := one
      obtain ⟨other, resolves, spells⟩ := exists_resolveLine_moved zero labels one
      obtain ⟨others, laterResolve, laterSpell⟩ := ih
      exact ⟨other :: others, .cons resolves laterResolve, .cons spells laterSpell⟩

/-- **Resolving with a new label among the lines**: the lines before it and the lines behind
it spell what they have spelled, but for the lines that they name. -/
theorem exists_resolve_insert {before after resolved : List String} {name : String}
    {table : LabelTable} (built : ofLines (before ++ after) = .ok table)
    (done : table.resolve .source (before ++ after) = .ok resolved)
    (valid : Statement.LabelName name) (fresh : table.line? name = none)
    (fits : (before ++ after).length + 1 < Decoding.lineBound) :
    ∃ longer front back otherFront otherBack,
      ofLines (before ++ (name ++ ":") :: after) = .ok longer ∧
      longer.resolve .source (before ++ (name ++ ":") :: after) =
        .ok (otherFront ++ (name ++ ":") :: otherBack) ∧
      resolved = front ++ back ∧ front.length = before.length ∧
      List.Forall₂ (SpellsMoved (shift before.length)) front otherFront ∧
      List.Forall₂ (SpellsMoved (shift before.length)) back otherBack := by
  have zero := shift_zero before.length
  obtain ⟨longer, longerBuilt, labels⟩ := exists_ofLines_insert built valid fresh
  have targets : ∀ name target, table.line? name = some target →
      longer.line? name = some (shift before.length target) ∧ 1 ≤ shift before.length target ∧
        shift before.length target < Decoding.lineBound := by
    intro name target defined
    obtain ⟨positive, inside⟩ := inside_of_labelAt? ((line?_eq_some_iff built).mp defined)
    have near := le_shift before.length target
    exact ⟨labels name target defined, by omega, by omega⟩
  obtain ⟨front, back, rfl, frontDone, backDone⟩ :=
    exists_append_of_forall₂ (forall₂_of_resolveFrom done)
  obtain ⟨otherFront, frontResolves, frontSpells⟩ := exists_forall₂_moved zero targets frontDone
  obtain ⟨otherBack, backResolves, backSpells⟩ := exists_forall₂_moved zero targets backDone
  have markStays (line : Nat) : longer.resolveLine .source line (name ++ ":") = .ok (name ++ ":") :=
    resolveLine_labelLine valid longer line
  exact ⟨longer, front, back, otherFront, otherBack, longerBuilt,
    resolveFrom_of_forall₂ (List.rel_append frontResolves (.cons markStays backResolves)) 1, rfl,
    frontDone.length_eq.symm, frontSpells, backSpells⟩

end LabelTable

namespace Assembly

/-- **Assembling with an empty line more**, when the first rows and the second rows of two
texts spell the same instructions but for the lines that they name. -/
theorem exists_addAll_insert {first second otherFirst otherSecond : List String} {mark : String}
    (empty : (Statement.ofLine mark).tokens = [])
    (spelled : List.Forall₂ (SpellsMoved (shift first.length)) first otherFirst)
    (laterSpelled : List.Forall₂ (SpellsMoved (shift first.length)) second otherSecond)
    {final : Assembly} (added : Assembly.empty.addAll (first ++ second) = .ok final) :
    ∃ otherFinal, Assembly.empty.addAll (otherFirst ++ mark :: otherSecond) = .ok otherFinal ∧
      Moved (shift first.length) final otherFinal := by
  have ascending := shift_strictMono first.length
  obtain ⟨middle, front, behind⟩ := addAll_append_eq_ok_iff.mp added
  have start : Moved (shift first.length) Assembly.empty Assembly.empty :=
    ⟨fun _ mem => (nomatch mem), rfl, fun _ _ found => (nomatch found)⟩
  have order : ∀ count < first.length, Assembly.empty.lines.size + count + 1 =
      shift first.length (Assembly.empty.lines.size + count + 1) := by
    intro count inside
    have start : Assembly.empty.lines.size = 0 := rfl
    rw [start, shift_of_le (by omega)]
  obtain ⟨otherMiddle, otherFront, moved⟩ := start.addAll ascending spelled order front
  have size := size_addAll front
  have otherSize := size_addAll otherFront
  rw [← spelled.length_eq] at otherSize
  have blank : otherMiddle.add mark =
      .ok ⟨otherMiddle.lines.push ⟨mark, .nop⟩, otherMiddle.openHeaders⟩ :=
    add_eq_ok_iff.mpr ⟨.nop, by rw [empty]; rfl, push_of_plain rfl⟩
  have skipped : Moved (shift first.length) middle
      ⟨otherMiddle.lines.push ⟨mark, .nop⟩, otherMiddle.openHeaders⟩ := by
    refine ⟨moved.positive, moved.headers, ?_⟩
    simpa [instructions] using moved.lines.append_right .nop
  have laterOrder : ∀ count < second.length,
      (otherMiddle.lines.push ⟨mark, .nop⟩).size + count + 1 =
        shift first.length (middle.lines.size + count + 1) := by
    intro count _
    have start : Assembly.empty.lines.size = 0 := rfl
    rw [Array.size_push, size, otherSize, start, shift_of_lt (by omega)]
    omega
  obtain ⟨otherFinal, otherBehind, final⟩ :=
    skipped.addAll ascending laterSpelled laterOrder behind
  refine ⟨otherFinal, addAll_append_eq_ok_iff.mpr ⟨otherMiddle, otherFront, ?_⟩, final⟩
  exact addAll_cons_eq_ok_iff.mpr ⟨_, blank, otherBehind⟩

end Assembly

namespace Program

/-- A line that only defines a label is assembled to an instruction that does nothing. -/
theorem instruction?_of_labelLine {text name : String} {program : Program} {place : Nat}
    (compiled : compile .source text = .ok program) (valid : Statement.LabelName name)
    (found : (Source.normalLines text)[place]? = some (name ++ ":")) :
    program.instruction? (place + 1) = some .nop := by
  obtain ⟨line, number, atPlace, resolves, read⟩ := exists_line_of_compile compiled found
  have stays := LabelTable.resolveLine_labelLine valid program.labels number
  rw [← Except.ok.inj (stays.symm.trans resolves), Statement.ofLine_of_labelName valid] at read
  have blank := Instruction.eq_of_unpaired (Except.ok.inj read).symm rfl
  rw [instruction?_eq, if_neg (Nat.succ_ne_zero _), Nat.add_sub_cancel, getElem?_instructions,
    atPlace, Option.map_some, blank]

/-- Where the lines stand at their moved places, a program is at a moved line what the other
one is at the line. -/
theorem instruction?_of_moved {place : Nat} {program moved : Program}
    (inside : place ≤ program.size) (size : moved.size = program.size + 1)
    (lines : MovedLines (shift place) program.instructions moved.instructions) (line : Nat) :
    moved.instruction? (shift place line) =
      (program.instruction? line).map (·.mapLines (shift place)) := by
  cases line with
  | zero =>
      rw [shift_zero]
      rfl
  | succ line =>
      have positive := (le_shift place (line + 1)).1
      rw [instruction?_eq, instruction?_eq, if_neg (by omega), if_neg (Nat.succ_ne_zero line),
        Nat.add_sub_cancel]
      cases found : program.instructions[line]? with
      | none =>
          have outside : program.size ≤ line := by
            have bound := List.getElem?_eq_none_iff.mp found
            simpa [instructions, Program.size] using bound
          have otherOutside : moved.lines.size ≤ line + 1 := by
            have same : moved.lines.size = moved.size := rfl
            omega
          rw [shift_of_lt (by omega), Nat.add_sub_cancel, getElem?_instructions,
            Array.getElem?_eq_none otherOutside]
          rfl
      | some instruction => exact lines line instruction found

/-- **A source with one label more** is assembled to the relocated program. -/
theorem exists_relocated {text longer name : String} {program : Program}
    {before after : List String} (compiled : compile .source text = .ok program)
    (lines : Source.normalLines text = before ++ after)
    (inserted : Source.normalLines longer = before ++ (name ++ ":") :: after)
    (valid : Statement.LabelName name) (fresh : program.labels.line? name = none)
    (fits : program.size + 1 < Decoding.lineBound) :
    ∃ moved, compile .source longer = .ok moved ∧ Relocated before.length program moved := by
  obtain ⟨resolved, linked, decoded⟩ := compile_eq_ok_iff.mp compiled
  obtain ⟨built, done⟩ := link_eq_ok_iff.mp linked
  have size := size_of_compile compiled
  rw [lines] at built done size
  rw [size] at fits
  obtain ⟨table, front, back, otherFront, otherBack, longerBuilt, longerDone, rfl, lengths,
    frontSpells, backSpells⟩ := LabelTable.exists_resolve_insert built done valid fresh fits
  rw [← lengths] at frontSpells backSpells
  have empty : (Statement.ofLine (name ++ ":")).tokens = [] := by
    rw [Statement.ofLine_of_labelName valid]
  obtain ⟨⟨longerLines, headers⟩, added, moved⟩ :=
    Assembly.exists_addAll_insert empty frontSpells backSpells (decodeLines_eq_ok_iff.mp decoded)
  obtain rfl : headers = [] := moved.headers
  have longerCompiled : compile .source longer = .ok ⟨longerLines, table⟩ := by
    refine compile_eq_ok_iff.mpr ⟨_, ?_, decodeLines_eq_ok_iff.mpr added⟩
    rw [inserted]
    exact link_eq_ok_iff.mpr ⟨longerBuilt, longerDone⟩
  have sizes : Program.size ⟨longerLines, table⟩ = program.size + 1 := by
    rw [size_of_compile longerCompiled, inserted, size, List.length_append, List.length_append,
      List.length_cons]
    omega
  have inside : before.length ≤ program.size := by
    rw [size, List.length_append]
    exact Nat.le_add_right _ _
  have found : (Source.normalLines longer)[before.length]? = some (name ++ ":") := by
    rw [inserted, List.getElem?_append_right (Nat.le_refl _), Nat.sub_self]
    rfl
  have rows := moved.lines
  rw [lengths] at rows
  exact ⟨_, longerCompiled, inside, sizes, instruction?_of_labelLine longerCompiled valid found,
    instruction?_of_moved inside sizes rows⟩

end Program

end LineAsm
