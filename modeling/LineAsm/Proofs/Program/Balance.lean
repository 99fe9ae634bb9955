import LineAsm.Proofs.Program.BlockTree

/-!
# Balanced rows of brackets

The closing bracket of a block is found by scanning the lines behind its header for the
first closing bracket that closes nothing opened on the way (`Bracket.closing?`).

A row of brackets is balanced when it is made of lines without brackets and of blocks, each
with a balanced row between its brackets (`Bracket.Balanced`).  Two brackets belong together
when the row between them is balanced (`Bracket.Pairs`), and then the scan for the one finds
the other.  In a balanced row each bracket belongs to another one (`Balanced.exists_closing`,
`Balanced.exists_opening`).

A closing bracket behind a balanced row belongs to none (`unopened_of_balanced`), and of the
headers that are left open in a row the last is the one with a balanced row behind it
(`unclosed_of_balanced`, `le_of_unclosed`).
-/

set_option autoImplicit false

namespace LineAsm

/-- Two ways to take one row apart at a place. -/
theorem append_cons_eq_append_cons {α : Type} {before after first second : List α} {here other : α}
    (same : before ++ here :: after = first ++ other :: second) :
    (∃ between, first = before ++ here :: between ∧ after = between ++ other :: second) ∨
      (before = first ∧ here = other ∧ after = second) ∨
      ∃ between, before = first ++ other :: between ∧ second = between ++ here :: after := by
  rcases List.append_eq_append_iff.mp same with ⟨between, rfl, rest⟩ | ⟨between, rfl, rest⟩
  · cases between with
    | nil =>
        obtain ⟨rfl, rfl⟩ := List.cons.inj rest
        exact .inr (.inl ⟨by simp, rfl, rfl⟩)
    | cons next between =>
        obtain ⟨rfl, rfl⟩ := List.cons.inj rest
        exact .inl ⟨between, rfl, rfl⟩
  · cases between with
    | nil =>
        obtain ⟨rfl, rfl⟩ := List.cons.inj rest
        exact .inr (.inl ⟨by simp, rfl, rfl⟩)
    | cons next between =>
        obtain ⟨rfl, rfl⟩ := List.cons.inj rest
        exact .inr (.inr ⟨between, rfl, rfl⟩)

/-- What stands at a place of a row stands there when the row is cut behind it. -/
theorem exists_append_of_append {α : Type} {row later before after : List α} {here : α}
    (same : row ++ later = before ++ here :: after) (inside : before.length < row.length) :
    ∃ rest, row = before ++ here :: rest := by
  have upTo : (before ++ [here]) <+: row ++ later := ⟨after, by simp [same]⟩
  obtain ⟨rest, cut⟩ := List.prefix_of_prefix_length_le upTo (List.prefix_append row later)
    (by rw [List.length_append, List.length_singleton]; exact inside)
  exact ⟨rest, by simp [← cut]⟩

namespace Bracket

/-! ## Scanning -/

/-- How many lines stand before the closing bracket of a block, when the scan starts
inside the block and as many inner blocks are open as `depth` says. -/
def scan : Nat → List Bracket → Option Nat
  | _, [] => none
  | depth, .opening :: later => (scan (depth + 1) later).map (· + 1)
  | 0, .closing :: _ => some 0
  | depth + 1, .closing :: later => (scan depth later).map (· + 1)
  | depth, .neither :: later => (scan depth later).map (· + 1)

/-- The line that closes the block whose header is at a line. -/
def closing? (brackets : List Bracket) (header : Nat) : Option Nat :=
  (scan 0 (brackets.drop header)).map (header + 1 + ·)

/-! ## Rows of brackets -/

/-- A row in which every block that is opened is closed, and none is closed that was not
opened. -/
inductive Balanced : List Bracket → Prop where
  | done : Balanced []
  | line {later : List Bracket} (rest : Balanced later) : Balanced (.neither :: later)
  | block {body later : List Bracket} (inner : Balanced body) (rest : Balanced later) :
      Balanced (.opening :: (body ++ .closing :: later))

/-- The lines of two brackets that belong together: the row between them is balanced. -/
def Pairs (brackets : List Bracket) (header closing : Nat) : Prop :=
  ∃ before body after, brackets = before ++ .opening :: (body ++ .closing :: after) ∧
    Balanced body ∧ header = before.length + 1 ∧ closing = before.length + body.length + 2

/-- A closing bracket that belongs to no header. -/
def Unopened (brackets : List Bracket) (closing : Nat) : Prop :=
  (∃ before after, brackets = before ++ .closing :: after ∧ closing = before.length + 1) ∧
    ∀ header, ¬ Pairs brackets header closing

/-- A header that belongs to no closing bracket. -/
def Unclosed (brackets : List Bracket) (header : Nat) : Prop :=
  (∃ before after, brackets = before ++ .opening :: after ∧ header = before.length + 1) ∧
    ∀ closing, ¬ Pairs brackets header closing

/-! ## Balanced rows -/

namespace Balanced

variable {row before after : List Bracket}

/-- A scan passes over a balanced row. -/
theorem scan_append (balanced : Balanced row) (depth : Nat) (rest : List Bracket) :
    scan depth (row ++ rest) = (scan depth rest).map (· + row.length) := by
  induction balanced generalizing depth rest with
  | done => cases scanned : scan depth rest <;> simp [scanned]
  | line _ ih =>
      rw [List.cons_append, scan, ih, Option.map_map]
      rfl
  | @block body later _ _ ihBody ihLater =>
      rw [List.cons_append, List.append_assoc, List.cons_append, scan, ihBody, scan, ihLater]
      simp only [Option.map_map, List.length_cons, List.length_append]
      refine congrArg (Option.map · _) ?_
      funext found
      simp only [Function.comp_apply]
      omega

/-- No bracket closes a block that is opened before a balanced row. -/
theorem scan_eq_none (balanced : Balanced row) : scan 0 row = none := by
  have scanned := balanced.scan_append 0 []
  rwa [List.append_nil] at scanned

/-- **In a balanced row every header is closed.** -/
theorem exists_closing (balanced : Balanced row) (here : row = before ++ .opening :: after) :
    ∃ body later, after = body ++ .closing :: later ∧ Balanced body := by
  induction balanced generalizing before after with
  | done => simp at here
  | line _ ih =>
      cases before with
      | nil => cases here
      | cons _ before => exact ih (List.cons.inj here).2
  | @block body later inner _ ihBody ihLater =>
      cases before with
      | nil =>
          obtain ⟨-, rfl⟩ := List.cons.inj here
          exact ⟨body, later, rfl, inner⟩
      | cons _ before =>
          rcases append_cons_eq_append_cons (List.cons.inj here).2 with
            ⟨between, rfl, behind⟩ | ⟨-, wrong, -⟩ | ⟨between, within, rfl⟩
          · exact ihLater behind
          · cases wrong
          · obtain ⟨block, last, rfl, isBody⟩ := ihBody within
            exact ⟨block, last ++ .closing :: later, by rw [List.append_assoc, List.cons_append],
              isBody⟩

/-- **In a balanced row every closing bracket closes a block.** -/
theorem exists_opening (balanced : Balanced row) (here : row = before ++ .closing :: after) :
    ∃ earlier body, before = earlier ++ .opening :: body ∧ Balanced body := by
  induction balanced generalizing before after with
  | done => simp at here
  | line _ ih =>
      cases before with
      | nil => cases here
      | cons _ before =>
          obtain ⟨rfl, rest⟩ := List.cons.inj here
          obtain ⟨earlier, body, rfl, isBody⟩ := ih rest
          exact ⟨.neither :: earlier, body, rfl, isBody⟩
  | @block body later inner _ ihBody ihLater =>
      cases before with
      | nil => cases here
      | cons _ before =>
          obtain ⟨rfl, rest⟩ := List.cons.inj here
          rcases append_cons_eq_append_cons rest with
            ⟨between, rfl, behind⟩ | ⟨rfl, -, -⟩ | ⟨between, within, -⟩
          · obtain ⟨earlier, block, rfl, isBody⟩ := ihLater behind
            exact ⟨.opening :: (body ++ .closing :: earlier), block, by simp, isBody⟩
          · exact ⟨[], body, rfl, inner⟩
          · obtain ⟨earlier, block, rfl, isBody⟩ := ihBody within
            exact ⟨.opening :: earlier, block, rfl, isBody⟩

end Balanced

/-! ## Brackets that belong together -/

section Pairs

variable {brackets before after body : List Bracket} {header closing other : Nat}

/-- More lines behind a row change nothing between its brackets. -/
theorem pairs_append_iff (inside : closing ≤ brackets.length) (later : List Bracket) :
    Pairs (brackets ++ later) header closing ↔ Pairs brackets header closing := by
  constructor
  · rintro ⟨before, body, after, row, balanced, atHeader, atClosing⟩
    rw [← List.cons_append, ← List.append_assoc] at row
    obtain ⟨rest, cut⟩ := exists_append_of_append row (by
      simp only [List.length_append, List.length_cons]
      omega)
    exact ⟨before, body, rest, by simp [cut], balanced, atHeader, atClosing⟩
  · rintro ⟨before, body, after, rfl, balanced, atHeader, atClosing⟩
    exact ⟨before, body, after ++ later, by simp, balanced, atHeader, atClosing⟩

/-- More lines behind a row open no block for its closing brackets. -/
theorem unopened_append_iff (inside : closing ≤ brackets.length) (later : List Bracket) :
    Unopened (brackets ++ later) closing ↔ Unopened brackets closing := by
  refine and_congr ⟨?_, ?_⟩ (by simp only [pairs_append_iff inside])
  · rintro ⟨before, after, row, rfl⟩
    obtain ⟨rest, cut⟩ := exists_append_of_append row inside
    exact ⟨before, rest, cut, rfl⟩
  · rintro ⟨before, after, rfl, rfl⟩
    exact ⟨before, after ++ later, by simp, rfl⟩

/-- The scan for a header starts behind it. -/
theorem closing?_append_cons (before : List Bracket) (here : Bracket) (after : List Bracket) :
    closing? (before ++ here :: after) (before.length + 1) =
      (scan 0 after).map (before.length + 1 + 1 + ·) := by
  have behind : (before ++ here :: after).drop (before.length + 1) = after := by
    simp [List.drop_append]
  rw [closing?, behind]

/-- A scan behind a header finds the bracket that belongs to it. -/
theorem Pairs.closing?_eq (pairs : Pairs brackets header closing) :
    closing? brackets header = some closing := by
  obtain ⟨before, body, after, rfl, balanced, rfl, rfl⟩ := pairs
  rw [closing?_append_cons, balanced.scan_append, scan]
  simp only [Option.map_some, Option.some.injEq]
  omega

/-- **A header belongs to one closing bracket.** -/
theorem Pairs.closing_unique (pairs : Pairs brackets header closing)
    (again : Pairs brackets header other) : closing = other :=
  Option.some.inj (pairs.closing?_eq.symm.trans again.closing?_eq)

/-- A closing bracket belongs to a header with a balanced row behind it. -/
theorem pairs_of_open (row : before = brackets ++ .opening :: body) (balanced : Balanced body)
    (after : List Bracket) :
    Pairs (before ++ .closing :: after) (brackets.length + 1) (before.length + 1) := by
  subst row
  refine ⟨brackets, body, after, by simp, balanced, rfl, ?_⟩
  simp only [List.length_append, List.length_cons]
  omega

/-- No header of a balanced row is left open. -/
theorem Balanced.not_unclosed (balanced : Balanced brackets) : ¬ Unclosed brackets header := by
  rintro ⟨⟨before, after, row, rfl⟩, alone⟩
  obtain ⟨body, later, rfl, isBody⟩ := balanced.exists_closing row
  exact alone _ ⟨before, body, later, row, isBody, rfl, rfl⟩

/-- No closing bracket of a balanced row is without a header. -/
theorem Balanced.not_unopened (balanced : Balanced brackets) : ¬ Unopened brackets closing := by
  rintro ⟨⟨before, after, rfl, rfl⟩, alone⟩
  obtain ⟨earlier, body, opens, isBody⟩ := balanced.exists_opening rfl
  exact alone _ (pairs_of_open opens isBody after)

/-- A balanced row does not end within a block. -/
theorem not_balanced_of_open (balanced : Balanced body) :
    ¬ Balanced (before ++ .opening :: body) := by
  intro whole
  obtain ⟨inner, later, rfl, isBody⟩ := whole.exists_closing rfl
  have none := balanced.scan_eq_none
  rw [isBody.scan_append, scan] at none
  cases none

/-- **A closing bracket behind a balanced row** belongs to no header. -/
theorem unopened_of_balanced (balanced : Balanced before) (after : List Bracket) :
    Unopened (before ++ .closing :: after) (before.length + 1) := by
  refine ⟨⟨before, after, rfl, rfl⟩, ?_⟩
  rintro header ⟨earlier, body, later, row, isBody, -, atClosing⟩
  rw [← List.cons_append, ← List.append_assoc] at row
  have same := (List.append_inj row (by
    simp only [List.length_append, List.length_cons]
    omega)).1
  exact not_balanced_of_open isBody (same ▸ balanced)

/-- **A header with a balanced row behind it** is left open. -/
theorem unclosed_of_balanced (before : List Bracket) (balanced : Balanced body) :
    Unclosed (before ++ .opening :: body) (before.length + 1) := by
  refine ⟨⟨before, body, rfl, rfl⟩, ?_⟩
  intro closing pairs
  have found := pairs.closing?_eq
  rw [closing?_append_cons, balanced.scan_eq_none] at found
  cases found

/-- No header that is left open stands behind one with a balanced row behind it. -/
theorem le_of_unclosed (balanced : Balanced body)
    (unclosed : Unclosed (before ++ .opening :: body) other) : other ≤ before.length + 1 := by
  obtain ⟨⟨first, second, row, rfl⟩, alone⟩ := unclosed
  -- A header in the balanced row would be closed there.
  rcases append_cons_eq_append_cons row with
    ⟨between, rfl, rfl⟩ | ⟨rfl, -, -⟩ | ⟨between, rfl, -⟩
  · obtain ⟨inner, later, rfl, isBody⟩ := balanced.exists_closing rfl
    exact absurd ⟨_, inner, later, row, isBody, rfl, rfl⟩ (alone _)
  · exact Nat.le_refl _
  · simp only [List.length_append, List.length_cons]
    omega

end Pairs

end Bracket

/-! ## Rows of trees and of lines with open blocks -/

/-- The row of a tree is balanced. -/
theorem BlockTree.balanced_code (tree : BlockTree) (start : Nat) :
    Bracket.Balanced ((tree.code start).map (·.bracket)) := by
  induction tree generalizing start with
  | done => exact .done
  | line instruction plain next ih =>
      rw [code, List.map_cons, plain]
      exact (ih _).line
  | loop head body next ihBody ihNext =>
      rw [code, List.map_cons, List.map_append, List.map_cons, LoopHead.bracket_instruction]
      exact (ihBody _).block (ihNext _)

/-- The brackets of a block belong together. -/
theorem BlockTree.pairs_of_block (before later : List Instruction) (head : LoopHead)
    (body : BlockTree) (start closing header : Nat) :
    Bracket.Pairs
      ((before ++ head.instruction closing :: (body.code start ++ .endIter header :: later)).map
        (·.bracket))
      (before.length + 1) (before.length + body.size + 2) := by
  refine ⟨before.map (·.bracket), (body.code start).map (·.bracket), later.map (·.bracket), ?_,
    body.balanced_code start, ?_, ?_⟩
  · rw [List.map_append, List.map_cons, LoopHead.bracket_instruction, List.map_append,
      List.map_cons]
    rfl
  · rw [List.length_map]
  · rw [List.length_map, List.length_map, length_code]

/-- Lines in which no block is open are balanced. -/
theorem Opened.balanced {lines : List Instruction} (opened : Opened [] lines) :
    Bracket.Balanced (lines.map (·.bracket)) := by
  cases opened with
  | outermost tree => exact tree.balanced_code 1

/-- Behind the innermost open header the lines are balanced. -/
theorem Opened.exists_open {header : Nat} {outer : List Nat} {lines : List Instruction}
    (opened : Opened (header :: outer) lines) :
    ∃ before body, lines.map (·.bracket) = before ++ .opening :: body ∧
      Bracket.Balanced body ∧ header = before.length + 1 := by
  cases opened with
  | @within _ before _ head closing tree =>
      refine ⟨before.map (·.bracket), (tree.code (before.length + 2)).map (·.bracket), ?_,
        tree.balanced_code _, by simp⟩
      rw [List.map_append, List.map_cons, LoopHead.bracket_instruction]

end LineAsm
