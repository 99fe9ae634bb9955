import LineAsm.Proofs.Flow.Search
import LineAsm.Proofs.Flow.Soundness
import Mathlib.Algebra.GroupWithZero.Nat
import Mathlib.Data.List.Nodup
import Mathlib.Order.Bounds.Basic

/-!
# The analysis is exact

The lines that the analysis reports as reachable are the least set of lines that holds the
first line and is closed under control flow (`isLeast_reachable`).  A line is visited once, so
the edges of each reachable line are reported once, in their order, and no others
(`edges_of_line`, `edges_nodup`).

In a report, each line is either reachable or listed as unreachable, and each reachable line
that holds an instruction is counted in one family (`sum_mix`).  With the end of the search
this is `analyze_exact`.
-/

set_option autoImplicit false

namespace LineAsm.Flow

variable {program : Program}

/-! ## Reachable lines -/

/-- **A set of lines of a program that is closed under control flow** from the first line on. -/
structure Closed (program : Program) (lines : Set Nat) : Prop where
  inside : ∀ line ∈ lines, program.hasLine line = true
  first : program.hasLine 1 = true → 1 ∈ lines
  next : ∀ {line target : Nat} {kind : EdgeKind} {instruction : Instruction}, line ∈ lines →
    program.instruction? line = some instruction →
    (target, kind) ∈ successors line instruction → program.hasLine target = true → target ∈ lines

theorem exists_successor_of_mem_edgesFrom {line : Nat} {edge : Edge}
    (leaves : edge ∈ edgesFrom program line) :
    ∃ instruction, program.instruction? line = some instruction ∧
      (edge.target, edge.kind) ∈ successors line instruction := by
  rw [edgesFrom] at leaves
  split at leaves
  · cases leaves
  · rename_i instruction here
    obtain ⟨⟨target, kind⟩, leads, rfl⟩ := List.mem_map.mp leaves
    exact ⟨instruction, here, leads⟩

theorem closed_reachable (program : Program) :
    Closed program {line | line ∈ (analyze program).reachable} where
  inside _ mem := hasLine_of_mem_visits (mem_reachable_iff.mp mem)
  first isLine := mem_reachable_iff.mpr (one_mem_visits isLine)
  next mem here leads inside :=
    mem_reachable_iff.mpr (mem_visits_of_successor (mem_reachable_iff.mp mem) here leads inside)

section Closed

variable {lines : Set Nat} (closed : Closed program lines)
include closed

theorem Closed.of_mem_nextLines {line next : Nat} (mem : line ∈ lines)
    (leads : next ∈ nextLines program line) : next ∈ lines := by
  obtain ⟨target, inside⟩ := List.mem_filter.mp leads
  obtain ⟨edge, leaves, rfl⟩ := List.mem_map.mp target
  obtain ⟨instruction, here, leads⟩ := exists_successor_of_mem_edgesFrom leaves
  exact closed.next mem here leads inside

/-- A search among the lines of a closed set stays among them. -/
theorem Closed.of_mem_visit {visited queue : List Nat} (known : ∀ line ∈ visited, line ∈ lines)
    (waiting : ∀ line ∈ queue, line ∈ lines) {line : Nat}
    (found : line ∈ visit program visited queue) : line ∈ lines := by
  fun_induction visit program visited queue with
  | case1 visited => exact known line (List.mem_reverse.mp found)
  | case2 visited next queue fresh visited' ih =>
      obtain ⟨isNext, later⟩ := List.forall_mem_cons.mp waiting
      refine ih (List.forall_mem_cons.mpr ⟨isNext, known⟩) ?_ found
      refine List.forall_mem_append.mpr ⟨later, fun other joined => ?_⟩
      exact closed.of_mem_nextLines isNext (List.mem_filter.mp joined).1
  | case3 visited next queue stale ih =>
      exact ih known (List.forall_mem_cons.mp waiting).2 found

theorem Closed.of_mem_visits {line : Nat} (visited : line ∈ visits program) : line ∈ lines := by
  refine closed.of_mem_visit (List.forall_mem_nil _) ?_ visited
  intro first mem
  split at mem
  · cases mem
  · obtain rfl := List.mem_singleton.mp mem
    exact closed.first (Program.hasLine_iff.mpr ⟨Nat.le_refl 1, by omega⟩)

end Closed

/-- **The reachable lines are the least closed set.** -/
theorem isLeast_reachable (program : Program) :
    IsLeast {lines | Closed program lines} {line | line ∈ (analyze program).reachable} :=
  ⟨closed_reachable program, fun _ closed _ mem => closed.of_mem_visits (mem_reachable_iff.mp mem)⟩

/-! ## Edges -/

theorem visit_nodup {visited : List Nat} (queue : List Nat) (distinct : visited.Nodup) :
    (visit program visited queue).Nodup := by
  fun_induction visit program visited queue with
  | case1 visited => exact List.nodup_reverse.mpr distinct
  | case2 visited line queue fresh visited' ih => exact ih (List.nodup_cons.mpr ⟨fresh.2, distinct⟩)
  | case3 visited line queue stale ih => exact ih distinct

theorem visits_nodup (program : Program) : (visits program).Nodup := visit_nodup _ List.nodup_nil

/-- An instruction leads to no place twice in the same way. -/
theorem successors_nodup (line : Nat) (instruction : Instruction) :
    (successors line instruction).Nodup := by
  cases instruction <;> simp [successors]

theorem edgesFrom_nodup (program : Program) (line : Nat) : (edgesFrom program line).Nodup := by
  rw [edgesFrom]
  split
  · exact List.nodup_nil
  · refine (successors_nodup line _).map ?_
    rintro ⟨target, kind⟩ ⟨other, otherKind⟩ same
    simpa using same

theorem edges_nodup (program : Program) : (analyze program).edges.Nodup := by
  refine List.nodup_flatMap.mpr ⟨fun line _ => edgesFrom_nodup program line, ?_⟩
  refine (visits_nodup program).imp fun {line other} different => ?_
  intro edge leaves otherLeaves
  have source := source_of_mem_edgesFrom leaves
  exact different (source.symm.trans (source_of_mem_edgesFrom otherLeaves))

/-- The edges of one line among those of several. -/
theorem filter_flatMap_edgesFrom (program : Program) (line : Nat) {lines : List Nat}
    (distinct : lines.Nodup) :
    (lines.flatMap (edgesFrom program)).filter (·.source = line) =
      if line ∈ lines then edgesFrom program line else [] := by
  induction lines with
  | nil => rfl
  | cons first later ih =>
      obtain ⟨fresh, distinct⟩ := List.nodup_cons.mp distinct
      rw [List.flatMap_cons, List.filter_append, ih distinct]
      by_cases same : first = line
      · subst same
        have own : (edgesFrom program first).filter (·.source = first) = edgesFrom program first :=
          List.filter_eq_self.mpr fun edge leaves =>
            decide_eq_true (source_of_mem_edgesFrom leaves)
        rw [own, if_neg fresh, if_pos (List.mem_cons_self ..), List.append_nil]
      · have other : (edgesFrom program first).filter (·.source = line) = [] :=
          List.filter_eq_nil_iff.mpr fun edge leaves isLine =>
            same ((source_of_mem_edgesFrom leaves).symm.trans (of_decide_eq_true isLine))
        simp [other, Ne.symm same]

/-- **The edges of each reachable line are reported once, in their order.** -/
theorem edges_of_line (program : Program) (line : Nat) :
    (analyze program).edges.filter (·.source = line) =
      if line ∈ (analyze program).reachable then edgesFrom program line else [] := by
  have visited := filter_flatMap_edgesFrom program line (visits_nodup program)
  simp only [← mem_reachable_iff] at visited
  exact visited

/-! ## Reports -/

theorem reachable_ascending (program : Program) : (analyze program).reachable.Pairwise (· < ·) :=
  List.Pairwise.filter _ List.pairwise_lt_range'

theorem unreachable_ascending (program : Program) : (report program).unreachable.Pairwise (· < ·) :=
  List.Pairwise.filter _ List.pairwise_lt_range'

/-- Each line is either reachable or listed as unreachable. -/
theorem reachable_add_unreachable (program : Program) :
    (report program).reachable + (report program).unreachable.length = (report program).lines := by
  have listed : (report program).unreachable =
      program.numbers.filter fun line => !(visits program).contains line := by
    change program.numbers.filter (fun line => !(analyze program).reachable.contains line) = _
    refine List.filter_congr fun line _ => ?_
    simp only [List.contains_eq_mem, mem_reachable_iff]
  rw [listed]
  change (program.numbers.filter fun line => (visits program).contains line).length + _ =
    program.size
  rw [← List.length_eq_length_filter_add, Program.numbers, List.length_range']

/-- Dropping the families without a line changes no sum. -/
theorem sum_filter_ne_zero (counts : List (Family × Nat)) :
    ((counts.filter (·.2 != 0)).map (·.2)).sum = (counts.map (·.2)).sum := by
  induction counts with
  | nil => rfl
  | cons first later ih =>
      obtain ⟨family, count⟩ := first
      by_cases none : count = 0
      · simp [none, ih]
      · simp [none, ih]

theorem opcode?_isSome_iff (instruction : Instruction) :
    instruction.opcode?.isSome = true ↔ instruction ≠ .nop := by
  cases instruction <;> simp [Instruction.opcode?]

/-- Each line is counted in the one family of its instruction, if it has one. -/
theorem sum_countP_family (familyOf : Nat → Option Family) (lines : List Nat) :
    (Family.byName.map fun family => lines.countP (familyOf · = some family)).sum =
      lines.countP fun line => (familyOf line).isSome := by
  induction lines with
  | nil => rfl
  | cons line later ih =>
      simp only [Family.byName, List.map_cons, List.map_nil, List.sum_cons, List.sum_nil,
        List.countP_cons] at ih ⊢
      cases familyOf line with
      | none => simpa using ih
      | some family =>
        cases family <;> simp at ih ⊢ <;> omega

/-- **Each reachable line that holds an instruction is counted in one family.** -/
theorem sum_mix (program : Program) :
    ((report program).mix.map (·.2)).sum =
      ((analyze program).reachable.filter (program.instruction? · ≠ some .nop)).length := by
  change (((analyze program).mix program).map (·.2)).sum = _
  rw [Analysis.mix, sum_filter_ne_zero, List.map_map]
  change (Family.byName.map fun family => (analyze program).reachable.countP _).sum = _
  rw [← List.countP_eq_length_filter]
  let familyOf (line : Nat) := ((program.instruction? line).bind (·.opcode?)).map (·.family)
  refine (sum_countP_family familyOf (analyze program).reachable).trans ?_
  refine List.countP_congr fun line mem => ?_
  have isLine := hasLine_of_mem_visits (mem_reachable_iff.mp mem)
  obtain ⟨instruction, here⟩ := Program.exists_instruction_of_hasLine isLine
  simp [familyOf, here, ← opcode?_isSome_iff]

/-- **The analysis is exact.**  The search from the start comes to its end within two turns for
each line of the program and one more, and has then found what is reported.  The reachable
lines are the least set of lines that holds the first one and is closed under control flow.
The edges of a reachable line are reported once, in their order, and no other edges are; and
the returns are the reachable lines that hold one.  In the report, the reachable and the
unreachable lines are all lines, the unreachable ones in ascending order, and the families
count the reachable lines that hold an instruction. -/
theorem analyze_exact (program : Program) :
    (∃ found, (Search.start program).runFor program (2 * program.size + 1) = some found ∧
        found.queue = [] ∧ found.edges = (analyze program).edges ∧
        (∀ line, line ∈ found.visited ↔ line ∈ (analyze program).reachable) ∧
        ∀ line, line ∈ found.returns ↔ line ∈ (analyze program).returns) ∧
      (analyze program).reachable.Pairwise (· < ·) ∧
      IsLeast {lines | Closed program lines} {line | line ∈ (analyze program).reachable} ∧
      (∀ line, (analyze program).edges.filter (·.source = line) =
        if line ∈ (analyze program).reachable then edgesFrom program line else []) ∧
      (analyze program).edges.Nodup ∧
      (∀ line, line ∈ (analyze program).returns ↔
        line ∈ (analyze program).reachable ∧ program.instruction? line = some .ret) ∧
      (report program).reachable + (report program).unreachable.length =
        (report program).lines ∧
      (report program).unreachable.Pairwise (· < ·) ∧
      (∀ line, line ∈ (report program).unreachable ↔
        program.hasLine line = true ∧ line ∉ (analyze program).reachable) ∧
      ((report program).mix.map (·.2)).sum =
        ((analyze program).reachable.filter (program.instruction? · ≠ some .nop)).length :=
  ⟨Search.start_runFor program, reachable_ascending program, isLeast_reachable program,
    edges_of_line program, edges_nodup program, fun _ => mem_returns_iff,
    reachable_add_unreachable program, unreachable_ascending program,
    fun _ => mem_unreachable_iff, sum_mix program⟩

end LineAsm.Flow
