import LineAsm.Proofs.Label.Resolution
import LineAsm.Proofs.Source.Spacing
import Mathlib.Logic.Equiv.Basic

/-!
# Renaming labels

A renaming takes names of labels to names of labels, and different ones to different ones
(`Renaming`).  It is applied to the label of a line and to the operand that names a line, and
to nothing else (`Statement.rename`); a line that is changed by it is written anew with single
spaces (`renameLine`).

The label table of the renamed lines has the renamed names at the same lines
(`LabelTable.exists_ofLines_renamed`), so a renamed line is resolved to a line with the same
words as the line itself (`LabelTable.exists_resolveLine_renamed`): whether a name looks like
a number, a register or a mnemonic makes no difference.
-/

set_option autoImplicit false

namespace LineAsm

open Statement (LabelName)

/-- **A renaming of labels**: names become names, and different names stay different. -/
structure Renaming (rename : String → String) : Prop where
  names : ∀ {name}, LabelName name → LabelName (rename name)
  distinct : ∀ {name other}, LabelName name → LabelName other → rename name = rename other →
    name = other

/-- **Names are recognized** by a look at their characters. -/
theorem labelName_iff {name : String} :
    LabelName name ↔
      name ≠ "" ∧ name.toList.all (!Text.isBlank ·) = true ∧
        (name.toList.IsChain fun c next => ¬ (c = '/' ∧ next = '/')) ∧ ':' ∉ name.toList := by
  rw [List.all_eq_true]
  constructor
  · rintro ⟨nonempty, ⟨unbroken, free⟩, noColon⟩
    exact ⟨nonempty, fun c mem => by simp [unbroken c mem], free, noColon⟩
  · rintro ⟨nonempty, unbroken, free, noColon⟩
    exact ⟨nonempty, ⟨fun c mem => by simpa using unbroken c mem, free⟩, noColon⟩

instance (name : String) : Decidable (LabelName name) := decidable_of_iff _ labelName_iff.symm

/-- Two names change places. -/
theorem renaming_swap {name other : String} (valid : LabelName name)
    (otherValid : LabelName other) : Renaming (Equiv.swap name other) where
  names := by
    intro third thirdValid
    rw [Equiv.swap_apply_def]
    split
    · exact otherValid
    · split
      · exact valid
      · exact thirdValid
  distinct := fun _ _ same => (Equiv.swap name other).injective same

/-! ## Statements -/

namespace Statement

/-- A statement with its label and its label operand renamed. -/
def rename (rename : String → String) (statement : Statement) : Statement where
  label := statement.label.map rename
  tokens := match statement.labelPlace? with
    | none => statement.tokens
    | some place => statement.tokens.modify place rename
  comment := statement.comment

/-- The names that a statement holds: its label, and its label operand. -/
inductive Holds (statement : Statement) (name : String) : Prop where
  | label (defines : statement.label = some name)
  | operand {place : Nat} (takes : statement.labelPlace? = some place)
      (names : statement.tokens[place]? = some name)

variable {statement : Statement} {rename : String → String}

theorem head?_modify {α : Type} {words : List α} {place : Nat} (later : place ≠ 0)
    (change : α → α) : (words.modify place change).head? = words.head? := by
  obtain ⟨n, rfl⟩ := Nat.exists_eq_succ_of_ne_zero later
  cases words <;> rfl

/-- Renaming keeps the first word of a statement. -/
theorem head?_rename (statement : Statement) (rename : String → String) :
    (statement.rename rename).tokens.head? = statement.tokens.head? := by
  rw [Statement.rename]
  split
  · rfl
  · rename_i place takes
    exact head?_modify (labelPlace?_ne_zero takes) rename

theorem labelPlace?_rename (statement : Statement) (rename : String → String) :
    (statement.rename rename).labelPlace? = statement.labelPlace? := by
  rw [labelPlace?, labelPlace?, head?_rename]

/-- A statement without names is not changed. -/
theorem rename_eq_self (noLabel : statement.label = none) (noWords : statement.tokens = []) :
    statement.rename rename = statement := by
  obtain ⟨label, tokens, comment⟩ := statement
  obtain rfl : label = none := noLabel
  obtain rfl : tokens = [] := noWords
  rfl

/-- **A renamed statement is well formed.** -/
theorem wellFormed_rename (wellFormed : statement.WellFormed)
    (names : ∀ name, statement.Holds name → LabelName (rename name)) :
    (statement.rename rename).WellFormed where
  label := by
    intro name same
    obtain ⟨old, defines, rfl⟩ := Option.map_eq_some_iff.mp same
    have valid := names old (.label defines)
    exact ⟨valid.solid, valid.noColon⟩
  tokens := by
    intro token mem
    rw [Statement.rename] at mem
    split at mem
    · exact wellFormed.tokens token mem
    · rename_i place takes
      obtain ⟨index, found⟩ := List.mem_iff_getElem?.mp mem
      rw [List.getElem?_modify] at found
      split at found
      · rename_i here
        obtain ⟨old, was, rfl⟩ := Option.map_eq_some_iff.mp found
        have valid := names old (.operand takes (here ▸ was))
        exact ⟨valid.nonempty, valid.solid⟩
      · obtain ⟨old, was, rfl⟩ := Option.map_eq_some_iff.mp found
        exact wellFormed.tokens _ (List.mem_of_getElem? was)
  first := by
    intro noLabel token first
    rw [head?_rename] at first
    exact wellFormed.first (Option.map_eq_none_iff.mp noLabel) token first
  comment := wellFormed.comment

end Statement

/-! ## Lines -/

/-- A line with its names renamed.  A line that is not changed by it stays as it is written. -/
def renameLine (rename : String → String) (line : String) : String :=
  let renamed := (Statement.ofLine line).rename rename
  if renamed = Statement.ofLine line then line else renamed.spaced

/-- The addressed lines of a text with their names renamed. -/
def Source.renamed (rename : String → String) (text : String) : String :=
  String.join (((normalLines text).map (renameLine rename)).map (· ++ "\n"))

section Line

variable {rename : String → String} {line : String}
  (names : ∀ name, (Statement.ofLine line).Holds name → LabelName (rename name))
include names

theorem renameLine_cases :
    (renameLine rename line = line ∧
        (Statement.ofLine line).rename rename = Statement.ofLine line) ∨
      renameLine rename line = ((Statement.ofLine line).rename rename).spaced ∧
        ((Statement.ofLine line).rename rename).WellFormed ∧
        (((Statement.ofLine line).rename rename).label ≠ none ∨
          ((Statement.ofLine line).rename rename).tokens ≠ []) := by
  rw [renameLine]
  split
  · rename_i same
    exact .inl ⟨rfl, same⟩
  · rename_i changed
    refine .inr ⟨rfl, Statement.wellFormed_rename (Statement.wellFormed_ofLine line) names, ?_⟩
    by_contra nothing
    obtain ⟨noLabel, noWords⟩ := not_or.mp nothing
    have first := Statement.head?_rename (Statement.ofLine line) rename
    rw [not_not.mp noWords] at first
    exact changed (Statement.rename_eq_self (Option.map_eq_none_iff.mp (not_not.mp noLabel))
      (List.head?_eq_none_iff.mp first.symm))

/-- **A renamed line is read as the renamed statement.** -/
theorem ofLine_renameLine :
    Statement.ofLine (renameLine rename line) = (Statement.ofLine line).rename rename := by
  rcases renameLine_cases names with ⟨same, unchanged⟩ | ⟨written, wellFormed, holds⟩
  · rw [same, unchanged]
  · rw [written, Statement.ofLine_spaced wellFormed holds]

/-- A renamed line is normal when the line was. -/
theorem normalLine_renameLine (normal : Source.NormalLine line.toList) :
    Source.NormalLine (renameLine rename line).toList := by
  rcases renameLine_cases names with ⟨same, -⟩ | ⟨written, wellFormed, holds⟩
  · rwa [same]
  · rw [written]
    exact Source.normalLine_spaced wellFormed holds fun comment has => normal.comment has

end Line

/-- Lines that are read as the renamed statements of other lines. -/
abbrev RenamedLines (rename : String → String) : List String → List String → Prop :=
  List.Forall₂ fun line other => Statement.ofLine other = (Statement.ofLine line).rename rename

namespace LabelTable

variable {rename : String → String} {lines others : List String} {table renamed : LabelTable}

/-! ## Tables -/

theorem map_labelOf?_renamed (reads : RenamedLines rename lines others) :
    others.map labelOf? = lines.map fun line => (labelOf? line).map rename := by
  induction reads with
  | nil => rfl
  | cons first _ ih =>
      rw [List.map_cons, List.map_cons, ih, labelOf?, first]
      rfl

theorem labelAt?_renamed (reads : RenamedLines rename lines others) (number : Nat) :
    labelAt? others number = (labelAt? lines number).map rename := by
  have rows := map_labelOf?_renamed reads
  rw [labelAt?, labelAt?]
  split
  · rfl
  · have here := congrArg (·[number - 1]?) rows
    simp only [List.getElem?_map] at here
    cases at_ : lines[number - 1]? with
    | none =>
        rw [at_, Option.map_none] at here
        rw [Option.map_eq_none_iff.mp here]
        rfl
    | some line =>
        rw [at_, Option.map_some] at here
        obtain ⟨other, found, label⟩ := Option.map_eq_some_iff.mp here
        rw [found]
        exact label

/-- The labels of lines that make a table are names. -/
theorem labelName_of_ofLines (built : ofLines lines = .ok table) {line name : String}
    (mem : line ∈ lines) (label : labelOf? line = some name) : LabelName name := by
  obtain ⟨nonempty, -⟩ := exists_ofLines_iff.mp ⟨table, built⟩
  obtain ⟨solid, noColon⟩ := (Statement.wellFormed_ofLine line).label name label
  exact ⟨nonempty name (List.mem_filterMap.mpr ⟨line, mem, label⟩), solid, noColon⟩

theorem labelName_of_line? (built : ofLines lines = .ok table) {name : String} {target : Nat}
    (defined : table.line? name = some target) : LabelName name := by
  have labelled := (line?_eq_some_iff built).mp defined
  rw [labelAt?] at labelled
  split at labelled
  · cases labelled
  · obtain ⟨line, found, label⟩ := Option.bind_eq_some_iff.mp labelled
    exact labelName_of_ofLines built (List.mem_of_getElem? found) label

/-- **The table of renamed lines** has the renamed names at the same lines, and no others. -/
theorem exists_ofLines_renamed (renames : Renaming rename) (built : ofLines lines = .ok table)
    (reads : RenamedLines rename lines others) :
    ∃ renamed, ofLines others = .ok renamed ∧
      ∀ other target, renamed.line? other = some target ↔
        ∃ name, table.line? name = some target ∧ rename name = other := by
  have labels : others.filterMap labelOf? = (lines.filterMap labelOf?).map rename := by
    have rows := congrArg (List.filterMap id) (map_labelOf?_renamed reads)
    rw [List.filterMap_map, List.filterMap_map] at rows
    rw [List.map_filterMap]
    exact rows
  obtain ⟨nonempty, distinct⟩ := exists_ofLines_iff.mp ⟨table, built⟩
  have valid : ∀ name ∈ lines.filterMap labelOf?, LabelName name := by
    intro name mem
    obtain ⟨line, inside, label⟩ := List.mem_filterMap.mp mem
    exact labelName_of_ofLines built inside label
  obtain ⟨renamed, otherBuilt⟩ : ∃ renamed, ofLines others = .ok renamed := by
    rw [exists_ofLines_iff, labels]
    refine ⟨?_, List.Nodup.map_on ?_ distinct⟩
    · intro other mem
      obtain ⟨name, inside, rfl⟩ := List.mem_map.mp mem
      exact (renames.names (valid name inside)).nonempty
    · exact fun name mem other otherMem => renames.distinct (valid name mem) (valid other otherMem)
  refine ⟨renamed, otherBuilt, ?_⟩
  intro other target
  rw [line?_eq_some_iff otherBuilt, labelAt?_renamed reads, Option.map_eq_some_iff]
  simp only [line?_eq_some_iff built]

/-! ## Resolving -/

/-- **A renamed line is resolved to a line with the same words.** -/
theorem exists_resolveLine_renamed
    (names : ∀ name target, table.line? name = some target →
      renamed.line? (rename name) = some target)
    {line : Nat} {text other resolved : String}
    (reads : Statement.ofLine other = (Statement.ofLine text).rename rename)
    (done : table.resolveLine .source line text = .ok resolved) :
    ∃ out, (∀ line, renamed.resolveLine .source line other = .ok out) ∧
      (Statement.ofLine out).tokens = (Statement.ofLine resolved).tokens := by
  have samePlace : (Statement.ofLine other).labelPlace? = (Statement.ofLine text).labelPlace? := by
    rw [reads, Statement.labelPlace?_rename]
  rcases resolveLine_cases done with
    ⟨takesNone, rfl⟩ | ⟨place, operand, number, takes, at_, found, -, read⟩
  · refine ⟨other, resolveLine_of_none (samePlace.trans takesNone) renamed .source, ?_⟩
    rw [reads, Statement.rename, takesNone]
  · rcases resolveOperand_eq_ok found with ⟨already, -⟩ | ⟨-, target, defined, rfl⟩
    · cases already
    · have words : (Statement.ofLine other).tokens =
          (Statement.ofLine text).tokens.modify place rename := by
        rw [reads, Statement.rename, takes]
      have otherAt : (Statement.ofLine other).tokens[place]? = some (rename operand) := by
        rw [words, List.getElem?_modify, at_]
        simp
      have otherFound (line : Nat) :
          renamed.resolveOperand .source line (rename operand) = .ok (toString target) := by
        simp [resolveOperand, isResolved, names operand target defined]
      refine ⟨_, fun line => resolveLine_of_some (samePlace.trans takes) otherAt (otherFound line),
        ?_⟩
      have wellFormed := (Statement.wellFormed_ofLine other).withToken
        (Statement.labelPlace?_ne_zero takes) (Text.isDigits_toString target)
      rw [Statement.ofLine_render wellFormed, read]
      simp only [Statement.withToken, words]
      rw [List.modify_eq_set_getElem?, at_]
      exact List.set_set ..

/-- Renamed lines are resolved to lines with the same words. -/
theorem exists_forall₂_renamed
    (names : ∀ name target, table.line? name = some target →
      renamed.line? (rename name) = some target)
    (reads : RenamedLines rename lines others) {resolved : List String}
    (done : List.Forall₂ (fun text out => ∃ line, table.resolveLine .source line text = .ok out)
      lines resolved) :
    ∃ outs,
      List.Forall₂ (fun other out => ∀ line, renamed.resolveLine .source line other = .ok out)
        others outs ∧
      outs.map (fun line => (Statement.ofLine line).tokens) =
        resolved.map fun line => (Statement.ofLine line).tokens := by
  induction reads generalizing resolved with
  | nil =>
      cases done
      exact ⟨[], .nil, rfl⟩
  | cons first _ ih =>
      cases done with
      | cons one later =>
          obtain ⟨line, one⟩ := one
          obtain ⟨out, resolves, words⟩ := exists_resolveLine_renamed names first one
          obtain ⟨outs, rest, same⟩ := ih later
          refine ⟨out :: outs, .cons resolves rest, ?_⟩
          rw [List.map_cons, List.map_cons, words, same]

end LabelTable

end LineAsm
