import LineAsm.Proofs.Program.Balance

/-!
# Matching brackets

The closing bracket of a block is found by scanning the lines behind its header
(`Bracket.closing?`), and the header of a closing bracket is the header whose scan ends there
(`Bracket.header?`).

A program is paired this way: the lines that its brackets carry are the lines that the
scans find (`closing?_of_header`, `header?_of_endIter`).  Both follow from taking the
row of a tree apart at a bracket (`exists_block_of_opening`, `exists_block_of_closing`).
-/

set_option autoImplicit false

namespace LineAsm

/-- The header of the block that is closed at a line. -/
def Bracket.header? (brackets : List Bracket) (closing : Nat) : Option Nat :=
  (List.range' 1 brackets.length).find? fun header =>
    brackets[header - 1]? = some .opening ∧ closing? brackets header = some closing

/-! ## A tree at one of its brackets -/

namespace BlockTree

/-- **A row of a tree at a header**: the body, the closing bracket and what follows it. -/
theorem exists_block_of_opening {tree : BlockTree} {start here : Nat}
    {before after : List Instruction} {instruction : Instruction}
    (row : tree.code start = before ++ instruction :: after)
    (opens : instruction.bracket = .opening) (place : here = start + before.length) :
    ∃ (head : LoopHead) (body : BlockTree) (later : List Instruction),
      instruction = head.instruction (here + body.size + 1) ∧
        after = body.code (here + 1) ++ .endIter here :: later := by
  induction tree generalizing start before after with
  | done => simp [code] at row
  | line first plain next ih =>
      cases before with
      | nil =>
          obtain ⟨rfl, -⟩ := List.cons.inj row
          rw [plain] at opens
          cases opens
      | cons _ before =>
          obtain ⟨-, row⟩ := List.cons.inj row
          exact ih row (by simpa [Nat.add_assoc, Nat.add_comm 1] using place)
  | loop head body next ihBody ihNext =>
      cases before with
      | nil =>
          obtain ⟨rfl, rfl⟩ := List.cons.inj row
          obtain rfl : here = start := by simpa using place
          exact ⟨head, body, _, rfl, rfl⟩
      | cons _ before =>
          obtain ⟨-, row⟩ := List.cons.inj row
          simp only [List.length_cons] at place
          rcases append_cons_eq_append_cons row with
            ⟨between, rfl, rest⟩ | ⟨-, rfl, -⟩ | ⟨between, inBody, rfl⟩
          · refine ihNext rest ?_
            simp only [List.length_append, List.length_cons, length_code] at place
            omega
          · cases opens
          · obtain ⟨inner, block, later, isHead, rfl⟩ := ihBody inBody (by omega)
            exact ⟨inner, block, later ++ .endIter start :: next.code (start + body.size + 2), isHead,
              by rw [List.append_assoc, List.cons_append]⟩

/-- **A row of a tree at a closing bracket**: the header and the body. -/
theorem exists_block_of_closing {tree : BlockTree} {start here header : Nat}
    {before after : List Instruction}
    (row : tree.code start = before ++ .endIter header :: after)
    (place : here = start + before.length) :
    ∃ (earlier : List Instruction) (head : LoopHead) (body : BlockTree),
      before = earlier ++ head.instruction here :: body.code (header + 1) ∧
        header = start + earlier.length := by
  induction tree generalizing start before after with
  | done => simp [code] at row
  | line first plain next ih =>
      cases before with
      | nil =>
          obtain ⟨rfl, -⟩ := List.cons.inj row
          cases plain
      | cons _ before =>
          obtain ⟨-, rest⟩ := List.cons.inj row
          obtain ⟨earlier, head, body, rfl, atHeader⟩ :=
            ih rest (by simpa [Nat.add_assoc, Nat.add_comm 1] using place)
          refine ⟨_ :: earlier, head, body, rfl, ?_⟩
          simpa [Nat.add_assoc, Nat.add_comm 1] using atHeader
  | loop head body next ihBody ihNext =>
      cases before with
      | nil =>
          obtain ⟨wrong, -⟩ := List.cons.inj row
          cases head <;> cases wrong
      | cons _ before =>
          obtain ⟨rfl, behind⟩ := List.cons.inj row
          simp only [List.length_cons] at place
          rcases append_cons_eq_append_cons behind with
            ⟨between, rfl, rest⟩ | ⟨rfl, same, -⟩ | ⟨between, inBody, -⟩
          · simp only [List.length_append, List.length_cons, length_code] at place
            obtain ⟨earlier, inner, block, rfl, atHeader⟩ := ihNext rest (by omega)
            refine ⟨head.instruction (start + body.size + 1) ::
              (body.code (start + 1) ++ .endIter start :: earlier), inner, block, by simp, ?_⟩
            simp only [List.length_append, List.length_cons, length_code]
            omega
          · obtain rfl := Instruction.endIter.inj same
            rw [length_code] at place
            obtain rfl : here = start + body.size + 1 := by omega
            exact ⟨[], head, body, rfl, rfl⟩
          · obtain ⟨earlier, inner, block, rfl, atHeader⟩ := ihBody inBody (by omega)
            refine ⟨head.instruction (start + body.size + 1) :: earlier, inner, block, rfl, ?_⟩
            simp only [List.length_cons]
            omega

/-! ## The lines that the brackets carry -/

section Carried

variable {tree : BlockTree} {instruction : Instruction} {head : LoopHead} {here header : Nat}

/-- What stands around a line. -/
theorem exists_append_of_getElem? {α : Type} {row : List α} {place : Nat} {here : α}
    (found : row[place]? = some here) :
    ∃ before after, row = before ++ here :: after ∧ place = before.length := by
  obtain ⟨inside, rfl⟩ := List.getElem?_eq_some_iff.mp found
  refine ⟨row.take place, row.drop (place + 1), ?_, ?_⟩
  · rw [← List.drop_eq_getElem_cons inside, List.take_append_drop]
  · rw [List.length_take, Nat.min_eq_left (Nat.le_of_lt inside)]

theorem getElem?_append_cons_self {α : Type} (before : List α) (here : α) (after : List α) :
    (before ++ here :: after)[before.length]? = some here := by
  simp

/-- **The line that a header carries** closes its block, and carries the header. -/
theorem closing?_of_header {closing : Nat}
    (found : (tree.code 1)[here]? = some (head.instruction closing)) :
    Bracket.closing? ((tree.code 1).map (·.bracket)) (here + 1) = some closing ∧
      (tree.code 1)[closing - 1]? = some (.endIter (here + 1)) ∧ here + 1 < closing := by
  obtain ⟨before, after, row, rfl⟩ := exists_append_of_getElem? found
  have place : before.length + 1 = 1 + before.length := Nat.add_comm _ _
  obtain ⟨inner, body, later, same, rfl⟩ := exists_block_of_opening row (by simp) place
  have carried : closing = before.length + 1 + body.size + 1 := by
    cases head <;> cases inner <;> cases same <;> rfl
  refine ⟨?_, ?_, by omega⟩
  · have pairs := pairs_of_block before later head body (before.length + 1 + 1) closing
      (before.length + 1)
    rw [row, pairs.closing?_eq, carried]
    exact congrArg some (by omega)
  · have place : closing - 1 =
        (before ++ head.instruction closing :: body.code (before.length + 1 + 1)).length := by
      simp only [List.length_append, List.length_cons, length_code]
      omega
    rw [row, place, ← List.cons_append, ← List.append_assoc]
    exact getElem?_append_cons_self _ _ _

/-- **The line that a closing bracket carries** is its header, which carries it. -/
theorem header_of_endIter (found : (tree.code 1)[here]? = some (.endIter header)) :
    1 ≤ header ∧ ∃ head : LoopHead,
      (tree.code 1)[header - 1]? = some (head.instruction (here + 1)) := by
  obtain ⟨before, after, row, atLine⟩ := exists_append_of_getElem? found
  have place : here + 1 = 1 + before.length := by omega
  obtain ⟨earlier, head, body, rfl, rfl⟩ := exists_block_of_closing row place
  refine ⟨by omega, head, ?_⟩
  rw [row, Nat.add_sub_cancel_left, List.append_assoc, List.cons_append]
  exact getElem?_append_cons_self _ _ _

/-- The scan for a header finds the line that a closing bracket carries. -/
theorem header?_of_endIter (found : (tree.code 1)[here]? = some (.endIter header)) :
    Bracket.header? ((tree.code 1).map (·.bracket)) (here + 1) = some header := by
  obtain ⟨positive, head, atHeader⟩ := header_of_endIter found
  have inside := (List.getElem?_eq_some_iff.mp atHeader).1
  have ends := (closing?_of_header atHeader).1
  rw [Nat.sub_add_cancel positive] at ends
  cases scanned : Bracket.header? ((tree.code 1).map (·.bracket)) (here + 1) with
  | none =>
      have notHere := List.find?_eq_none.mp scanned header
        (List.mem_range'_1.mpr ⟨positive, by rw [List.length_map]; omega⟩)
      simp [atHeader, ends] at notHere
  | some other =>
      have holds := List.find?_some scanned
      obtain ⟨opens, otherEnds⟩ := of_decide_eq_true holds
      obtain ⟨_, otherFound, isOpening⟩ := Option.map_eq_some_iff.mp (List.getElem?_map ▸ opens)
      obtain ⟨otherHead, closing, rfl⟩ := Instruction.exists_head isOpening
      have otherPositive := (List.mem_range'_1.mp (List.mem_of_find?_eq_some scanned)).1
      obtain ⟨carried, closes, -⟩ := closing?_of_header otherFound
      rw [Nat.sub_add_cancel otherPositive, otherEnds] at carried
      obtain rfl := Option.some.inj carried
      rw [Nat.sub_add_cancel otherPositive, Nat.add_sub_cancel, found] at closes
      exact congrArg some (Instruction.endIter.inj (Option.some.inj closes)).symm

end Carried

end BlockTree

end LineAsm
