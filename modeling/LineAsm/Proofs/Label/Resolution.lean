import LineAsm.Label.Resolution
import LineAsm.Proofs.Label.Table
import LineAsm.Proofs.Source.Normal
import Mathlib.Data.List.Forall2

/-!
# What resolving does to a line

A line without a label operand is left as it is.  In every other line one word is
replaced by digits, and the line that is written for the changed statement is taken
apart into exactly that statement (`resolveLine_cases`).  So the label of a line stays
(`labelOf?_resolveLine`), a normal line stays normal (`normalLine_resolveLine`), and a
resolved line is left as it is when it is resolved again as part of an artifact
(`resolveLine_resolved`).
-/

set_option autoImplicit false

namespace LineAsm

/-! ## Digits as words -/

namespace Text

/-- An ASCII digit is no blank. -/
theorem not_isBlank_of_isDigit {c : Char} (digit : c.isDigit = true) : isBlank c = false := by
  simp only [Char.isDigit, Bool.and_eq_true, decide_eq_true_eq] at digit
  have lower : 48 ≤ c.toNat := digit.1
  have upper : c.toNat ≤ 57 := digit.2
  simp only [isBlank, blankRanges, List.any_cons, List.any_nil, Bool.or_false,
    Bool.or_eq_false_iff, Bool.and_eq_false_iff, decide_eq_false_iff_not]
  omega

theorem isDigits_toString (n : Nat) : isDigits (toString n).toList = true := by
  have digits := natural?_toDigits n
  rw [natural?] at digits
  split at digits
  · rename_i all
    simpa using all
  · cases digits

end Text

namespace Statement

/-- A text of digits is a word without colons. -/
theorem solid_of_isDigits {word : String} (digits : Text.isDigits word.toList = true) :
    word ≠ "" ∧ Solid word.toList ∧ ':' ∉ word.toList := by
  simp only [Text.isDigits, Bool.and_eq_true, Bool.not_eq_true', List.isEmpty_eq_false_iff,
    List.all_eq_true] at digits
  obtain ⟨nonempty, all⟩ := digits
  refine ⟨fun nil => nonempty (by simp [nil]), ⟨fun c mem => ?_, ?_⟩, fun colon => ?_⟩
  · exact Text.not_isBlank_of_isDigit (all c mem)
  · exact markFree_of_not_mem fun slash => absurd (all '/' slash) (by decide)
  · exact absurd (all ':' colon) (by decide)

/-! ## Replacing an operand -/

/-- A statement with the word at a place replaced. -/
def withToken (statement : Statement) (place : Nat) (word : String) : Statement :=
  { statement with tokens := statement.tokens.set place word }

theorem head?_set {α : Type} {words : List α} {place : Nat} (later : place ≠ 0) (word : α) :
    (words.set place word).head? = words.head? := by
  obtain ⟨n, rfl⟩ := Nat.exists_eq_succ_of_ne_zero later
  cases words <;> rfl

/-- Digits may take the place of any word but the first. -/
theorem WellFormed.withToken {statement : Statement} (wellFormed : statement.WellFormed)
    {place : Nat} (later : place ≠ 0) {word : String}
    (digits : Text.isDigits word.toList = true) : (statement.withToken place word).WellFormed where
  label := wellFormed.label
  tokens := by
    intro token mem
    obtain ⟨nonempty, solid, -⟩ := solid_of_isDigits digits
    rcases List.mem_or_eq_of_mem_set mem with old | rfl
    · exact wellFormed.tokens token old
    · exact ⟨nonempty, solid⟩
  first := by
    intro noLabel token first
    rw [Statement.withToken, head?_set later] at first
    exact wellFormed.first noLabel token first
  comment := wellFormed.comment

/-- An operand that names a line is not the first word. -/
theorem labelPlace?_ne_zero {statement : Statement} {place : Nat}
    (has : statement.labelPlace? = some place) : place ≠ 0 := by
  obtain ⟨word, -, named⟩ := Option.bind_eq_some_iff.mp has
  obtain ⟨opcode, -, placed⟩ := Option.bind_eq_some_iff.mp named
  rintro rfl
  revert placed
  cases opcode <;> decide

theorem labelPlace?_withToken {statement : Statement} {place : Nat} (later : place ≠ 0)
    (word : String) : (statement.withToken place word).labelPlace? = statement.labelPlace? := by
  unfold labelPlace? withToken
  rw [head?_set later]

end Statement

namespace LabelTable

/-! ## Resolving one line -/

/-- What stands in the place of a label operand is a text of digits: the operand itself,
or the number of the line that it names. -/
theorem resolveOperand_eq_ok {table : LabelTable} {form : ProgramForm} {line : Nat}
    {operand number : String} (resolved : table.resolveOperand form line operand = .ok number) :
    (isResolved form operand = true ∧ number = operand) ∨
      isResolved form operand = false ∧
        ∃ target, table.line? operand = some target ∧ number = toString target := by
  rw [resolveOperand] at resolved
  split at resolved
  · rename_i already
    exact .inl ⟨already, (Except.ok.inj resolved).symm⟩
  · rename_i open_
    split at resolved
    · cases resolved
    · rename_i target found
      exact .inr ⟨Bool.eq_false_iff.mpr open_, target, found, (Except.ok.inj resolved).symm⟩

theorem isDigits_of_resolveOperand {table : LabelTable} {form : ProgramForm} {line : Nat}
    {operand number : String} (resolved : table.resolveOperand form line operand = .ok number) :
    Text.isDigits number.toList = true := by
  rcases resolveOperand_eq_ok resolved with ⟨already, rfl⟩ | ⟨-, target, -, rfl⟩
  · exact (Bool.and_eq_true_iff.mp already).2
  · exact Text.isDigits_toString target

/-- **Resolving a line** leaves it as it is when it has no label operand, and otherwise
writes its statement with the operand replaced. -/
theorem resolveLine_cases {table : LabelTable} {form : ProgramForm} {line : Nat}
    {text resolved : String} (done : table.resolveLine form line text = .ok resolved) :
    ((Statement.ofLine text).labelPlace? = none ∧ resolved = text) ∨
      ∃ place operand number,
        (Statement.ofLine text).labelPlace? = some place ∧
        (Statement.ofLine text).tokens[place]? = some operand ∧
        table.resolveOperand form line operand = .ok number ∧
        resolved = ((Statement.ofLine text).withToken place number).render ∧
        Statement.ofLine resolved = (Statement.ofLine text).withToken place number := by
  unfold resolveLine at done
  simp only at done
  split at done
  · rename_i none
    exact .inl ⟨none, (Except.ok.inj done).symm⟩
  · rename_i place has
    split at done
    · cases done
    · rename_i operand at_
      split at done
      · cases done
      · rename_i number found
        obtain rfl := Except.ok.inj done
        have wellFormed := (Statement.wellFormed_ofLine text).withToken
          (Statement.labelPlace?_ne_zero has) (isDigits_of_resolveOperand found)
        exact .inr ⟨place, operand, number, has, at_, found, rfl,
          Statement.ofLine_render wellFormed⟩

/-- A line without a label operand is resolved to itself. -/
theorem resolveLine_of_none {text : String} (none : (Statement.ofLine text).labelPlace? = none)
    (table : LabelTable) (form : ProgramForm) (line : Nat) :
    table.resolveLine form line text = .ok text := by
  simp only [resolveLine, none]

/-- A line whose label operand can be resolved is written with the number in its place. -/
theorem resolveLine_of_some {table : LabelTable} {form : ProgramForm} {line place : Nat}
    {text operand number : String} (has : (Statement.ofLine text).labelPlace? = some place)
    (at_ : (Statement.ofLine text).tokens[place]? = some operand)
    (found : table.resolveOperand form line operand = .ok number) :
    table.resolveLine form line text =
      .ok ((Statement.ofLine text).withToken place number).render := by
  simp only [resolveLine, has, at_, found]
  rfl

theorem labelOf?_resolveLine {table : LabelTable} {form : ProgramForm} {line : Nat}
    {text resolved : String} (done : table.resolveLine form line text = .ok resolved) :
    labelOf? resolved = labelOf? text := by
  rcases resolveLine_cases done with ⟨-, rfl⟩ | ⟨_, _, _, -, -, -, -, read⟩
  · rfl
  · rw [labelOf?]
    rw [read]
    rfl

/-- **A resolved line is left as it is when it is resolved again** in an artifact. -/
theorem resolveLine_resolved {table other : LabelTable} {form : ProgramForm} {line again : Nat}
    {text resolved : String} (done : table.resolveLine form line text = .ok resolved) :
    other.resolveLine .artifact again resolved = .ok resolved := by
  rcases resolveLine_cases done with
    ⟨none, rfl⟩ | ⟨place, operand, number, has, at_, found, written, read⟩
  · exact resolveLine_of_none none other .artifact again
  · have inside : place < (Statement.ofLine text).tokens.length :=
      (List.getElem?_eq_some_iff.mp at_).1
    have samePlace : (Statement.ofLine resolved).labelPlace? = some place := by
      rw [read, Statement.labelPlace?_withToken (Statement.labelPlace?_ne_zero has), has]
    have sameOperand : (Statement.ofLine resolved).tokens[place]? = some number := by
      rw [read]
      exact List.getElem?_set_self inside
    have already : other.resolveOperand .artifact again number = .ok number :=
      if_pos (Bool.and_eq_true_iff.mpr ⟨by decide, isDigits_of_resolveOperand found⟩)
    have sameTokens : (Statement.ofLine resolved).withToken place number =
        (Statement.ofLine text).withToken place number := by
      rw [read]
      simp only [Statement.withToken, List.set_set]
    rw [resolveLine_of_some samePlace sameOperand already]
    exact congrArg Except.ok ((congrArg Statement.render sameTokens).trans written.symm)

/-- **A resolved line is normal when the line was.** -/
theorem normalLine_resolveLine {table : LabelTable} {form : ProgramForm} {line : Nat}
    {text resolved : String} (normal : Source.NormalLine text.toList)
    (done : table.resolveLine form line text = .ok resolved) :
    Source.NormalLine resolved.toList := by
  rcases resolveLine_cases done with ⟨-, rfl⟩ | ⟨place, operand, number, has, at_, found, rfl, -⟩
  · exact normal
  · refine Source.normalLine_render ((Statement.wellFormed_ofLine text).withToken
      (Statement.labelPlace?_ne_zero has) (isDigits_of_resolveOperand found)) ?_ ?_
    · intro none
      have words : (Statement.ofLine text).tokens = [] := by simpa [Statement.withToken] using none
      rw [words] at at_
      cases at_
    · exact fun comment same => normal.comment same

/-! ## Resolving all lines -/

/-- The resolved lines correspond to the lines one by one. -/
theorem forall₂_of_resolveFrom {table : LabelTable} {form : ProgramForm} {start : Nat}
    {lines resolved : List String} (done : table.resolveFrom form start lines = .ok resolved) :
    List.Forall₂ (fun text out => ∃ line, table.resolveLine form line text = .ok out)
      lines resolved := by
  induction lines generalizing start resolved with
  | nil =>
      obtain rfl := Except.ok.inj done
      exact .nil
  | cons text later ih =>
      rw [resolveFrom] at done
      split at done
      · cases done
      · rename_i first one
        split at done
        · cases done
        · rename_i rest others
          obtain rfl := Except.ok.inj done
          exact .cons ⟨start, one⟩ (ih others)

/-- Every resolved line is one of the lines, resolved. -/
theorem exists_of_mem_resolved {table : LabelTable} {form : ProgramForm} {start : Nat}
    {lines resolved : List String} (done : table.resolveFrom form start lines = .ok resolved)
    {out : String} (mem : out ∈ resolved) :
    ∃ text ∈ lines, ∃ line, table.resolveLine form line text = .ok out := by
  have one := forall₂_of_resolveFrom done
  clear done
  induction one with
  | nil => cases mem
  | cons first _ ih =>
      rcases List.mem_cons.mp mem with rfl | mem
      · exact ⟨_, List.mem_cons_self .., first⟩
      · obtain ⟨text, here, one⟩ := ih mem
        exact ⟨text, List.mem_cons_of_mem _ here, one⟩

/-- The resolved lines define the labels of the lines. -/
theorem labels_resolveFrom {table : LabelTable} {form : ProgramForm} {start : Nat}
    {lines resolved : List String} (done : table.resolveFrom form start lines = .ok resolved) :
    resolved.map labelOf? = lines.map labelOf? := by
  have one := forall₂_of_resolveFrom done
  clear done
  induction one with
  | nil => rfl
  | cons first _ ih =>
      obtain ⟨line, first⟩ := first
      rw [List.map_cons, List.map_cons, labelOf?_resolveLine first, ih]

/-- Lines that can be resolved one by one can be resolved together. -/
theorem resolveFrom_of_forall₂ {table : LabelTable} {form : ProgramForm}
    {lines resolved : List String}
    (one : List.Forall₂ (fun text out => ∀ line, table.resolveLine form line text = .ok out)
      lines resolved) (start : Nat) : table.resolveFrom form start lines = .ok resolved := by
  induction one generalizing start with
  | nil => rfl
  | cons first _ ih => simp only [resolveFrom, first start, ih (start + 1)]

/-- Lines that are left as they are one by one are left as they are together. -/
theorem resolveFrom_eq_self {table : LabelTable} {form : ProgramForm} {lines : List String}
    (stays : ∀ text ∈ lines, ∀ line, table.resolveLine form line text = .ok text) (start : Nat) :
    table.resolveFrom form start lines = .ok lines :=
  resolveFrom_of_forall₂ (List.forall₂_same.mpr stays) start

end LabelTable

/-! ## Linking -/

theorem link_eq_ok_iff {form : ProgramForm} {lines resolved : List String} {table : LabelTable} :
    link form lines = .ok (table, resolved) ↔
      LabelTable.ofLines lines = .ok table ∧ table.resolve form lines = .ok resolved := by
  rw [link]
  cases LabelTable.ofLines lines with
  | error failure => simp [bind, Except.bind]
  | ok built =>
      cases others : built.resolve form lines with
      | error failure =>
          simp only [bind, Except.bind, others, reduceCtorEq, false_iff, not_and]
          intro same
          obtain rfl := Except.ok.inj same
          simp [others]
      | ok done =>
          simp only [bind, Except.bind, others, pure, Except.pure, Except.ok.injEq, Prod.mk.injEq]
          constructor
          · rintro ⟨rfl, rfl⟩
            exact ⟨rfl, others⟩
          · rintro ⟨rfl, again⟩
            exact ⟨rfl, Except.ok.inj (others.symm.trans again)⟩

/-- **Linked lines are linked again without a change** as an artifact. -/
theorem link_resolved {form : ProgramForm} {lines resolved : List String} {table : LabelTable}
    (linked : link form lines = .ok (table, resolved)) :
    link .artifact resolved = .ok (table, resolved) := by
  obtain ⟨built, done⟩ := link_eq_ok_iff.mp linked
  have stays : ∀ text ∈ resolved, ∀ line,
      table.resolveLine .artifact line text = .ok text := by
    intro text mem line
    obtain ⟨_, _, _, one⟩ := LabelTable.exists_of_mem_resolved done mem
    exact LabelTable.resolveLine_resolved one
  refine link_eq_ok_iff.mpr ⟨?_, LabelTable.resolveFrom_eq_self stays 1⟩
  rw [LabelTable.ofLines_congr (LabelTable.labels_resolveFrom done), built]

end LineAsm
