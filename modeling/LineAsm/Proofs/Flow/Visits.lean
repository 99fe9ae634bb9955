import LineAsm.Flow.Report

/-!
# The visited lines are closed under control flow

The search keeps the invariant that every successor of a visited line has been visited
or waits in the queue (`Pending`).  When the queue is empty, the visited lines are
closed: the first line of a program has been visited (`one_mem_visits`) and so has every
line of the program that an edge leads to from a visited line (`mem_visits_of_edge`).

An analysis reports these lines and the edges that leave them (`mem_reachable_iff`,
`mem_edges_iff`, `mem_returns_iff`).
-/

set_option autoImplicit false

namespace LineAsm.Flow

variable {program : Program}

/-! ## The search -/

/-- Every successor of a visited line has been visited or waits in the queue. -/
def Pending (program : Program) (visited queue : List Nat) : Prop :=
  ∀ line ∈ visited, ∀ next ∈ nextLines program line, next ∈ visited ∨ next ∈ queue

theorem Pending.visit {visited queue : List Nat} {line : Nat}
    (pending : Pending program visited (line :: queue)) :
    Pending program (line :: visited)
      (queue ++ (nextLines program line).filter (· ∉ line :: visited)) := by
  intro old mem next edge
  by_cases known : next ∈ line :: visited
  · exact .inl known
  · refine .inr (List.mem_append.mpr ?_)
    rcases List.mem_cons.mp mem with rfl | mem
    · exact .inr (List.mem_filter.mpr ⟨edge, decide_eq_true known⟩)
    · rcases pending old mem next edge with before | waits
      · exact absurd (List.mem_cons_of_mem _ before) known
      · rcases List.mem_cons.mp waits with rfl | later
        · exact absurd (List.mem_cons_self ..) known
        · exact .inl later

theorem Pending.skip {visited queue : List Nat} {line : Nat}
    (pending : Pending program visited (line :: queue))
    (known : program.hasLine line = true → line ∈ visited) : Pending program visited queue := by
  intro old mem next edge
  rcases pending old mem next edge with before | waits
  · exact .inl before
  · rcases List.mem_cons.mp waits with rfl | later
    · exact .inl (known (List.mem_filter.mp edge).2)
    · exact .inr later

/-- What the search finds: all lines visited before, all lines of the queue, and nothing
but lines of the program. -/
theorem visit_spec (visited queue : List Nat) (pending : Pending program visited queue)
    (inside : ∀ line ∈ visited, program.hasLine line = true) :
    (∀ line ∈ visited, line ∈ visit program visited queue) ∧
      (∀ line ∈ queue, program.hasLine line = true → line ∈ visit program visited queue) ∧
      (∀ line ∈ visit program visited queue, program.hasLine line = true) ∧
      Pending program (visit program visited queue) [] := by
  fun_induction visit program visited queue with
  | case1 visited =>
      refine ⟨fun line mem => List.mem_reverse.mpr mem, fun line mem => (nomatch mem),
        fun line mem => inside line (List.mem_reverse.mp mem), ?_⟩
      intro line mem next edge
      rcases pending line (List.mem_reverse.mp mem) next edge with before | waits
      · exact .inl (List.mem_reverse.mpr before)
      · cases waits
  | case2 visited line queue fresh visited' ih =>
      have insideNext : ∀ other ∈ line :: visited, program.hasLine other = true := by
        intro other mem
        rcases List.mem_cons.mp mem with rfl | mem
        · exact fresh.1
        · exact inside other mem
      obtain ⟨keeps, takes, only, closed⟩ := ih pending.visit insideNext
      refine ⟨fun old mem => keeps old (List.mem_cons_of_mem _ mem), ?_, only, closed⟩
      intro next mem isLine
      rcases List.mem_cons.mp mem with rfl | later
      · exact keeps next (List.mem_cons_self ..)
      · exact takes next (List.mem_append_left _ later) isLine
  | case3 visited line queue stale ih =>
      have known : program.hasLine line = true → line ∈ visited := by
        intro isLine
        exact Decidable.byContradiction fun fresh => stale ⟨isLine, fresh⟩
      obtain ⟨keeps, takes, only, closed⟩ := ih (pending.skip known) inside
      refine ⟨keeps, ?_, only, closed⟩
      intro next mem isLine
      rcases List.mem_cons.mp mem with rfl | later
      · exact keeps next (known isLine)
      · exact takes next later isLine

theorem visits_spec (program : Program) :
    (program.hasLine 1 = true → 1 ∈ visits program) ∧
      (∀ line ∈ visits program, program.hasLine line = true) ∧
      Pending program (visits program) [] := by
  have nothing : Pending program [] (if program.size = 0 then [] else [1]) :=
    fun line mem => (nomatch mem)
  obtain ⟨-, takes, only, closed⟩ := visit_spec [] _ nothing fun line mem => (nomatch mem)
  refine ⟨fun first => takes 1 ?_ first, only, closed⟩
  have nonempty : program.size ≠ 0 := by
    have := (Program.hasLine_iff.mp first).2
    omega
  simp [nonempty]

/-- The first line is visited. -/
theorem one_mem_visits (first : program.hasLine 1 = true) : 1 ∈ visits program :=
  (visits_spec program).1 first

theorem hasLine_of_mem_visits {line : Nat} (visited : line ∈ visits program) :
    program.hasLine line = true :=
  (visits_spec program).2.1 line visited

/-- **The visited lines are closed** under the edges between lines of the program. -/
theorem mem_visits_of_edge {edge : Edge} (visited : edge.source ∈ visits program)
    (leaves : edge ∈ edgesFrom program edge.source)
    (inside : program.hasLine edge.target = true) : edge.target ∈ visits program := by
  have next : edge.target ∈ nextLines program edge.source :=
    List.mem_filter.mpr ⟨List.mem_map_of_mem leaves, inside⟩
  rcases (visits_spec program).2.2 edge.source visited edge.target next with found | waits
  · exact found
  · cases waits

/-! ## What an analysis reports -/

theorem mem_reachable_iff {line : Nat} :
    line ∈ (analyze program).reachable ↔ line ∈ visits program := by
  change line ∈ program.numbers.filter ((visits program).contains ·) ↔ _
  rw [List.mem_filter, List.contains_iff_mem]
  constructor
  · exact fun found => found.2
  · exact fun visited => ⟨Program.mem_numbers.mpr (hasLine_of_mem_visits visited), visited⟩

theorem source_of_mem_edgesFrom {line : Nat} {edge : Edge}
    (leaves : edge ∈ edgesFrom program line) : edge.source = line := by
  rw [edgesFrom] at leaves
  split at leaves
  · cases leaves
  · obtain ⟨_, -, rfl⟩ := List.mem_map.mp leaves
    rfl

theorem mem_edges_iff {edge : Edge} :
    edge ∈ (analyze program).edges ↔
      edge.source ∈ visits program ∧ edge ∈ edgesFrom program edge.source := by
  change edge ∈ (visits program).flatMap (edgesFrom program) ↔ _
  rw [List.mem_flatMap]
  constructor
  · rintro ⟨line, visited, leaves⟩
    obtain rfl := source_of_mem_edgesFrom leaves
    exact ⟨visited, leaves⟩
  · exact fun found => ⟨edge.source, found⟩

theorem mem_returns_iff {line : Nat} :
    line ∈ (analyze program).returns ↔
      line ∈ (analyze program).reachable ∧ program.instruction? line = some .ret := by
  change line ∈ (analyze program).reachable.filter _ ↔ _
  rw [List.mem_filter, decide_eq_true_iff]

theorem mem_unreachable_iff {line : Nat} :
    line ∈ (report program).unreachable ↔
      program.hasLine line = true ∧ line ∉ (analyze program).reachable := by
  change line ∈ (analyze program).unreachable program ↔ _
  rw [Analysis.unreachable, List.mem_filter, Program.mem_numbers]
  simp

end LineAsm.Flow
