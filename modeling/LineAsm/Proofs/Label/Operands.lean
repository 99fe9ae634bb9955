import LineAsm.Proofs.Label.Resolution

/-!
# Which operands are resolved, and to what

A line can be resolved when its label operand is there and is a label of the table or, in an
artifact, a line number already (`LabelTable.Resolvable`); any other line has exactly one
error (`LabelTable.Unresolved`).  A resolved line is taken apart into the statement of the
line with one word replaced, or is the line itself when it has no label operand
(`LabelTable.ResolvesTo`).

Lines are resolved when each of them can be, and the error is otherwise the one of the first
line that cannot (`LabelTable.resolve_exact`).
-/

set_option autoImplicit false

namespace LineAsm

/-- Operands that are line numbers already: in an artifact, those of digits. -/
def ProgramForm.TakesLiterally (form : ProgramForm) (operand : String) : Prop :=
  form = .artifact ∧ ∀ c ∈ operand.toList, c.isDigit = true

namespace LabelTable

/-- An operand as a line number in decimal. -/
inductive StandsFor (table : LabelTable) (form : ProgramForm) (operand : String) :
    String → Prop where
  /-- A line number is kept, also where a label has its name. -/
  | literal (already : form.TakesLiterally operand) : StandsFor table form operand operand
  /-- A label stands for the line of the table. -/
  | label {line : Nat} (open_ : ¬ form.TakesLiterally operand)
      (labelled : table.line? operand = some line) :
      StandsFor table form operand (toString line)

/-- A line whose label operand, if it takes one, is there and stands for a line. -/
def Resolvable (table : LabelTable) (form : ProgramForm) (text : String) : Prop :=
  ∀ place, (Statement.ofLine text).labelPlace? = some place →
    ∃ operand, (Statement.ofLine text).tokens[place]? = some operand ∧
      (operand ∈ table.entries.map (·.1) ∨ form.TakesLiterally operand)

/-- What a line is resolved to: the line itself when it takes no label operand, and otherwise
a line with the same label, the same comment and the same words but for the operand. -/
structure ResolvesTo (table : LabelTable) (form : ProgramForm) (text resolved : String) :
    Prop where
  verbatim : (Statement.ofLine text).labelPlace? = none → resolved = text
  replaced : ∀ place, (Statement.ofLine text).labelPlace? = some place →
    ∃ operand number, (Statement.ofLine text).tokens[place]? = some operand ∧
      table.StandsFor form operand number ∧
      Statement.ofLine resolved =
        { label := (Statement.ofLine text).label
          tokens := (Statement.ofLine text).tokens.set place number
          comment := (Statement.ofLine text).comment }

/-- Why the line with a number cannot be resolved. -/
inductive Unresolved (table : LabelTable) (form : ProgramForm) (text : String) (number : Nat) :
    LinkError → Prop where
  /-- There is no word at the place of the operand. -/
  | missing {place : Nat} {mnemonic : String}
      (takes : (Statement.ofLine text).labelPlace? = some place)
      (first : (Statement.ofLine text).tokens.head? = some mnemonic)
      (absent : (Statement.ofLine text).tokens[place]? = none) :
      Unresolved table form text number (.missingOperand mnemonic number)
  /-- The word there is no label of the table, and no line number. -/
  | undefined {place : Nat} {operand : String}
      (takes : (Statement.ofLine text).labelPlace? = some place)
      (there : (Statement.ofLine text).tokens[place]? = some operand)
      (unknown : operand ∉ table.entries.map (·.1)) (open_ : ¬ form.TakesLiterally operand) :
      Unresolved table form text number (.undefinedLabel operand number)

/-! ## One operand -/

section Operand

variable {table : LabelTable} {form : ProgramForm} {line : Nat} {operand : String}

/-- The words of a line are not empty, so that an operand of digits has one. -/
theorem isResolved_eq_true_iff (nonempty : operand ≠ "") :
    isResolved form operand = true ↔ form.TakesLiterally operand := by
  simp [isResolved, Text.isDigits, ProgramForm.TakesLiterally, nonempty]

theorem standsFor_of_resolveOperand (nonempty : operand ≠ "") {number : String}
    (resolved : table.resolveOperand form line operand = .ok number) :
    table.StandsFor form operand number := by
  rcases resolveOperand_eq_ok resolved with ⟨already, rfl⟩ | ⟨open_, target, labelled, rfl⟩
  · exact .literal ((isResolved_eq_true_iff nonempty).mp already)
  · refine .label (fun already => ?_) labelled
    rw [(isResolved_eq_true_iff nonempty).mpr already] at open_
    cases open_

theorem resolveOperand_eq_error_iff (line : Nat) (nonempty : operand ≠ "")
    {failure : LinkError} :
    table.resolveOperand form line operand = .error failure ↔
      ¬ form.TakesLiterally operand ∧ operand ∉ table.entries.map (·.1) ∧
        failure = .undefinedLabel operand line := by
  rw [← isResolved_eq_true_iff nonempty, ← line?_eq_none_iff, resolveOperand]
  split
  · rename_i already
    simp [already]
  · rename_i open_
    cases table.line? operand <;> simp [open_, eq_comm (a := failure)]

end Operand

/-! ## One line -/

section Line

variable {table : LabelTable} {form : ProgramForm} {number : Nat} {text : String}

/-- A statement with a label operand has a first word. -/
theorem exists_head?_of_labelPlace? {statement : Statement} {place : Nat}
    (takes : statement.labelPlace? = some place) :
    ∃ mnemonic, statement.tokens.head? = some mnemonic := by
  obtain ⟨mnemonic, first, -⟩ := Option.bind_eq_some_iff.mp takes
  exact ⟨mnemonic, first⟩

/-- The words of a line are not empty. -/
theorem ne_empty_of_getElem?_tokens {place : Nat} {operand : String}
    (there : (Statement.ofLine text).tokens[place]? = some operand) : operand ≠ "" :=
  ((Statement.wellFormed_ofLine text).tokens operand (List.mem_of_getElem? there)).1

/-- **The error of a line** is that its operand is missing, or that it is no label. -/
theorem resolveLine_eq_error_iff {failure : LinkError} :
    table.resolveLine form number text = .error failure ↔
      table.Unresolved form text number failure := by
  constructor
  · intro fails
    unfold resolveLine at fails
    simp only at fails
    split at fails
    · cases fails
    · rename_i place takes
      obtain ⟨mnemonic, first⟩ := exists_head?_of_labelPlace? takes
      split at fails
      · rename_i absent
        obtain rfl := Except.error.inj fails
        rw [List.headD_eq_head?_getD, first]
        exact .missing takes first absent
      · rename_i operand there
        split at fails
        · rename_i other unresolved
          obtain rfl := Except.error.inj fails
          obtain ⟨open_, unknown, rfl⟩ :=
            (resolveOperand_eq_error_iff number (ne_empty_of_getElem?_tokens there)).mp unresolved
          exact .undefined takes there unknown open_
        · cases fails
  · intro unresolved
    cases unresolved with
    | missing takes first absent =>
        simp [resolveLine, takes, absent, List.headD_eq_head?_getD, first]
    | undefined takes there unknown open_ =>
        have fails := (resolveOperand_eq_error_iff number
          (ne_empty_of_getElem?_tokens there)).mpr ⟨open_, unknown, rfl⟩
        simp [resolveLine, takes, there, fails]

/-- **A line can be resolved** exactly when it has no error. -/
theorem resolvable_iff (number : Nat) :
    table.Resolvable form text ↔ ∀ failure, ¬ table.Unresolved form text number failure := by
  constructor
  · intro resolvable failure unresolved
    cases unresolved with
    | missing takes _ absent =>
        obtain ⟨operand, there, -⟩ := resolvable _ takes
        rw [absent] at there
        cases there
    | undefined takes there unknown open_ =>
        obtain ⟨operand, same, stands⟩ := resolvable _ takes
        obtain rfl := Option.some.inj (there.symm.trans same)
        exact stands.elim unknown open_
  · intro sound place takes
    obtain ⟨mnemonic, first⟩ := exists_head?_of_labelPlace? takes
    cases there : (Statement.ofLine text).tokens[place]? with
    | none => exact absurd (.missing takes first there) (sound _)
    | some operand =>
        refine ⟨operand, rfl, ?_⟩
        by_contra neither
        rw [not_or] at neither
        exact sound _ (.undefined takes there neither.1 neither.2)

theorem exists_resolveLine_iff (number : Nat) :
    (∃ resolved, table.resolveLine form number text = .ok resolved) ↔
      table.Resolvable form text := by
  rw [resolvable_iff number]
  simp only [← resolveLine_eq_error_iff]
  cases table.resolveLine form number text <;> simp

/-- **What a line is resolved to** is read as the statement of the line with its operand
replaced. -/
theorem resolvesTo_of_resolveLine {resolved : String}
    (done : table.resolveLine form number text = .ok resolved) :
    table.ResolvesTo form text resolved := by
  rcases resolveLine_cases done with
    ⟨none, rfl⟩ | ⟨place, operand, decimal, takes, there, found, -, read⟩
  · refine ⟨fun _ => rfl, ?_⟩
    intro place takes
    rw [none] at takes
    cases takes
  · constructor
    · intro none
      rw [takes] at none
      cases none
    · intro other same
      obtain rfl := Option.some.inj (takes.symm.trans same)
      exact ⟨operand, decimal, there,
        standsFor_of_resolveOperand (ne_empty_of_getElem?_tokens there) found, read⟩

end Line

/-! ## All lines -/

section Lines

variable {table : LabelTable} {form : ProgramForm} {start : Nat} {lines : List String}

theorem resolveFrom_cons_eq_error_iff {text : String} {later : List String}
    {failure : LinkError} :
    table.resolveFrom form start (text :: later) = .error failure ↔
      table.Unresolved form text start failure ∨
        table.Resolvable form text ∧ table.resolveFrom form (start + 1) later = .error failure := by
  rw [resolveFrom, ← resolveLine_eq_error_iff, ← exists_resolveLine_iff start]
  cases table.resolveLine form start text with
  | error other => simp
  | ok resolved => cases table.resolveFrom form (start + 1) later <;> simp

/-- **The error is the one of the first line that cannot be resolved.** -/
theorem resolveFrom_eq_error_iff {failure : LinkError} :
    table.resolveFrom form start lines = .error failure ↔
      ∃ before text after, lines = before ++ text :: after ∧
        (∀ earlier ∈ before, table.Resolvable form earlier) ∧
        table.Unresolved form text (start + before.length) failure := by
  induction lines generalizing start with
  | nil => simp [resolveFrom]
  | cons first later ih =>
      rw [resolveFrom_cons_eq_error_iff, ih]
      constructor
      · rintro (unresolved | ⟨resolvable, before, text, after, rfl, sound, unresolved⟩)
        · exact ⟨[], first, later, rfl, by simp, unresolved⟩
        · refine ⟨first :: before, text, after, rfl, List.forall_mem_cons.mpr ⟨resolvable, sound⟩, ?_⟩
          rwa [List.length_cons, ← Nat.add_assoc, Nat.add_right_comm]
      · rintro ⟨before, text, after, same, sound, unresolved⟩
        cases before with
        | nil =>
            obtain ⟨rfl, rfl⟩ := List.cons.inj same
            exact .inl unresolved
        | cons _ before =>
            obtain ⟨rfl, rfl⟩ := List.cons.inj same
            obtain ⟨resolvable, sound⟩ := List.forall_mem_cons.mp sound
            refine .inr ⟨resolvable, before, text, after, rfl, sound, ?_⟩
            rwa [List.length_cons, ← Nat.add_assoc, Nat.add_right_comm] at unresolved

/-- **Lines are resolved** exactly when each of them can be. -/
theorem exists_resolveFrom_iff :
    (∃ resolved, table.resolveFrom form start lines = .ok resolved) ↔
      ∀ text ∈ lines, table.Resolvable form text := by
  induction lines generalizing start with
  | nil => simp [resolveFrom]
  | cons first later ih =>
      rw [List.forall_mem_cons, ← exists_resolveLine_iff start, ← @ih (start + 1), resolveFrom]
      cases table.resolveLine form start first with
      | error failure => simp
      | ok resolved => cases table.resolveFrom form (start + 1) later <;> simp

end Lines

/-- **Resolving changes label operands and nothing else.**  It succeeds just when each line
can be resolved, each line then becomes what it resolves to, and otherwise the error is the
one of the first line that cannot be resolved, with the number of that line. -/
theorem resolve_exact (table : LabelTable) (form : ProgramForm) (lines : List String) :
    ((∃ resolved, table.resolve form lines = .ok resolved) ↔
        ∀ text ∈ lines, table.Resolvable form text) ∧
      (∀ resolved, table.resolve form lines = .ok resolved →
        List.Forall₂ (table.ResolvesTo form) lines resolved) ∧
      ∀ failure, table.resolve form lines = .error failure ↔
        ∃ before text after, lines = before ++ text :: after ∧
          (∀ earlier ∈ before, table.Resolvable form earlier) ∧
          table.Unresolved form text (before.length + 1) failure := by
  refine ⟨exists_resolveFrom_iff, ?_, ?_⟩
  · intro resolved done
    refine (forall₂_of_resolveFrom done).imp ?_
    rintro text out ⟨number, one⟩
    exact resolvesTo_of_resolveLine one
  · intro failure
    rw [show table.resolve form lines = .error failure ↔ _ from resolveFrom_eq_error_iff]
    simp only [Nat.add_comm 1]

/-- A label that is spelled like a register and one that is a number. -/
def spelledAlike : LabelTable := ⟨[("12", 2), ("A1", 7)]⟩

/-- A label and a comment that are glued to the words between them, and a line number. -/
def gluedLines : List String := ["x:JE A1 3 A1// a: b // c", "JMP 12"]

theorem resolve_exact_glued :
    spelledAlike.resolve .artifact gluedLines = .ok ["x: JE A1 3 7 // a: b // c", "JMP 12"] ∧
      List.Forall₂ (spelledAlike.ResolvesTo .artifact) gluedLines
        ["x: JE A1 3 7 // a: b // c", "JMP 12"] := by
  have done : spelledAlike.resolve .artifact gluedLines =
      .ok ["x: JE A1 3 7 // a: b // c", "JMP 12"] := by decide +kernel
  exact ⟨done, (resolve_exact spelledAlike .artifact gluedLines).2.1 _ done⟩

end LabelTable

end LineAsm
