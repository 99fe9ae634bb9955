import LineAsm.Flow.Edge

/-!
# Reachable lines

The lines that control can reach from the first line, found breadth first.  A line is
visited when it is taken from the queue for the first time, and its successors then
join the queue unless they have been visited or lie outside the program.

The search ends because each visit leaves fewer lines unvisited
(`unvisited_length_lt`) and each skipped entry shortens the queue.
-/

set_option autoImplicit false

namespace LineAsm

namespace Program

/-- The numbers of the lines of a program, in ascending order. -/
def numbers (program : Program) : List Nat := List.range' 1 program.size

/-- Whether a program has a line with the given number. -/
def hasLine (program : Program) (number : Nat) : Bool := (program.line? number).isSome

theorem hasLine_iff {program : Program} {number : Nat} :
    program.hasLine number = true ↔ 1 ≤ number ∧ number ≤ program.size := by
  unfold hasLine line? size
  by_cases zero : number = 0
  · simp [zero]
  · by_cases inside : number - 1 < program.lines.size
    · simp only [zero, if_false, Array.getElem?_eq_getElem inside, Option.isSome_some, true_iff]
      omega
    · simp only [zero, if_false, Array.getElem?_eq_none (Nat.le_of_not_lt inside),
        Option.isSome_none, Bool.false_eq_true, false_iff]
      omega

theorem mem_numbers {program : Program} {number : Nat} :
    number ∈ program.numbers ↔ program.hasLine number = true := by
  rw [hasLine_iff, numbers, List.mem_range'_1]
  omega

/-- Where an instruction stands, there is a line. -/
theorem mem_numbers_of_instruction? {program : Program} {line : Nat} {instruction : Instruction}
    (here : program.instruction? line = some instruction) : line ∈ program.numbers := by
  obtain ⟨found, isLine, -⟩ := Option.map_eq_some_iff.mp here
  exact mem_numbers.mpr (Option.isSome_iff_exists.mpr ⟨found, isLine⟩)

/-- Where there is a line, an instruction stands. -/
theorem exists_instruction_of_hasLine {program : Program} {line : Nat}
    (isLine : program.hasLine line = true) :
    ∃ instruction, program.instruction? line = some instruction := by
  obtain ⟨found, atLine⟩ := Option.isSome_iff_exists.mp isLine
  exact ⟨found.instruction, congrArg (Option.map Line.instruction) atLine⟩

end Program

namespace Flow

/-- The lines of a program that have not been visited. -/
def unvisited (program : Program) (visited : List Nat) : List Nat :=
  program.numbers.filter (· ∉ visited)

/-- Visiting a line leaves fewer lines unvisited. -/
theorem unvisited_length_lt {program : Program} {visited : List Nat} {line : Nat}
    (inside : program.hasLine line = true) (fresh : line ∉ visited) :
    (unvisited program (line :: visited)).length < (unvisited program visited).length := by
  have sublist : (unvisited program (line :: visited)) =
      (unvisited program visited).filter (· != line) := by
    unfold unvisited
    rw [List.filter_filter]
    refine List.filter_congr fun number _ => ?_
    by_cases same : number = line <;> simp [same]
  rw [sublist]
  refine List.length_filter_lt_length_iff_exists.mpr ⟨line, ?_, by simp⟩
  exact List.mem_filter.mpr ⟨Program.mem_numbers.mpr inside, by simpa using fresh⟩

/-- The successors of a line that are lines of the program. -/
def nextLines (program : Program) (line : Nat) : List Nat :=
  ((edgesFrom program line).map (·.target)).filter program.hasLine

/-- Visit the lines of a queue and what can be reached from them, in the order of
their visits, after the lines visited so far, which are given latest first. -/
def visit (program : Program) (visited : List Nat) : List Nat → List Nat
  | [] => visited.reverse
  | line :: queue =>
    if _ : program.hasLine line = true ∧ line ∉ visited then
      let visited' := line :: visited
      visit program visited'
        (queue ++ (nextLines program line).filter (· ∉ visited'))
    else visit program visited queue
termination_by queue => ((unvisited program visited).length, queue.length)
decreasing_by
  · rename_i fresh
    exact Prod.Lex.left _ _ (unvisited_length_lt fresh.1 fresh.2)
  · exact Prod.Lex.right _ (Nat.lt_succ_self _)

/-- The reachable lines in the order of their visits. -/
def visits (program : Program) : List Nat :=
  visit program [] (if program.size = 0 then [] else [1])

end Flow

end LineAsm
