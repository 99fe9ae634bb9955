import LineAsm.Proofs.Flow.Visits

/-!
# The search, turn by turn

The analysis is a search with a queue.  In each turn it takes the first line from the queue;
a line that it has visited before is skipped, and any other line is visited: its edges are
recorded, and the lines that they lead to join the queue, unless they have been visited
(`Search.take`).  A line may join the queue several times before it is visited.

Each visit leaves one line fewer to visit and adds at most two entries to the queue, and a
skipped entry only shortens it.  So the search comes to its end within two turns for each line
of the program and one more (`Search.exists_runFor`), and it has then found what the analysis
reports (`Search.start_runFor`).
-/

set_option autoImplicit false

namespace LineAsm.Flow

/-- Where a search stands: the lines it has visited and the returns among them, the latest
first, the edges it has recorded, in the order of their discovery, and the lines that wait. -/
structure Search where
  visited : List Nat
  edges : List Edge
  returns : List Nat
  queue : List Nat
  deriving DecidableEq, Repr, Inhabited

namespace Search

/-- The search before its first turn: the first line waits, if there is one. -/
def start (program : Program) : Search where
  visited := []
  edges := []
  returns := []
  queue := if program.size = 0 then [] else [1]

/-- Take a line from the queue, and leave the given lines there. -/
def take (program : Program) (search : Search) (line : Nat) (queue : List Nat) : Search :=
  if line ∈ search.visited then { search with queue := queue }
  else
    { visited := line :: search.visited
      edges := search.edges ++ edgesFrom program line
      returns :=
        if program.instruction? line = some .ret then line :: search.returns else search.returns
      queue := queue ++ (nextLines program line).filter (· ∉ line :: search.visited) }

/-- Run a search to its end, when the given number of turns suffices. -/
def runFor (program : Program) : Nat → Search → Option Search
  | turns, search =>
    match search.queue with
    | [] => some search
    | line :: queue =>
      match turns with
      | 0 => none
      | turns + 1 => runFor program turns (search.take program line queue)

variable {program : Program} {search : Search}

/-! ## How long a search takes -/

theorem length_successors_le (line : Nat) (instruction : Instruction) :
    (successors line instruction).length ≤ 2 := by
  cases instruction <;> simp [successors]

theorem length_nextLines_le (program : Program) (line : Nat) :
    (nextLines program line).length ≤ 2 := by
  refine Nat.le_trans (List.length_filter_le ..) ?_
  rw [List.length_map, edgesFrom]
  split
  · exact Nat.zero_le 2
  · rw [List.length_map]
    exact length_successors_le line _

/-- The turns that a search may still take. -/
def work (program : Program) (search : Search) : Nat :=
  search.queue.length + 2 * (unvisited program search.visited).length

/-- Taking a line from the queue leaves less to do. -/
theorem work_take_lt {line : Nat} {queue : List Nat} (waits : search.queue = line :: queue)
    (inside : program.hasLine line = true) :
    (search.take program line queue).work program < search.work program := by
  rw [take]
  split
  · simp [work, waits]
  · rename_i fresh
    have fewer := unvisited_length_lt inside fresh
    have next := List.length_filter_le (· ∉ line :: search.visited) (nextLines program line)
    have few := length_nextLines_le program line
    simp only [work, waits, List.length_append, List.length_cons]
    omega

/-! ## What a search has found -/

/-- What every search from the start has found: edges and returns of the lines visited, and
nothing but lines of the program. -/
structure Sound (program : Program) (search : Search) : Prop where
  edges : search.edges = search.visited.reverse.flatMap (edgesFrom program)
  returns : search.returns = search.visited.filter (program.instruction? · = some .ret)
  queue : ∀ line ∈ search.queue, program.hasLine line = true

theorem sound_start (program : Program) : Sound program (start program) where
  edges := rfl
  returns := rfl
  queue := by
    intro line mem
    rw [start] at mem
    split at mem
    · cases mem
    · obtain rfl := List.mem_singleton.mp mem
      exact Program.hasLine_iff.mpr ⟨Nat.le_refl 1, by omega⟩

theorem Sound.take (sound : Sound program search) {line : Nat} {queue : List Nat}
    (waits : search.queue = line :: queue) : Sound program (search.take program line queue) := by
  have later : ∀ other ∈ queue, program.hasLine other = true :=
    fun other mem => sound.queue other (waits ▸ List.mem_cons_of_mem _ mem)
  rw [Search.take]
  split
  · exact ⟨sound.edges, sound.returns, later⟩
  · refine ⟨?_, ?_, ?_⟩
    · simp [sound.edges]
    · simp only [sound.returns, List.filter_cons, decide_eq_true_eq]
    · intro other mem
      rcases List.mem_append.mp mem with waiting | joined
      · exact later other waiting
      · exact (List.mem_filter.mp (List.mem_filter.mp joined).1).2

/-- A turn of the search is a turn of the visits. -/
theorem visit_take {line : Nat} {queue : List Nat} (waits : search.queue = line :: queue)
    (inside : program.hasLine line = true) :
    visit program (search.take program line queue).visited
        (search.take program line queue).queue =
      visit program search.visited search.queue := by
  rw [waits, visit, take]
  by_cases known : line ∈ search.visited
  · simp [known]
  · simp [known, inside]

/-- **A search comes to its end** within the turns that it may still take, and has visited the
lines in the order of the visits. -/
theorem exists_runFor {turns : Nat} (sound : Sound program search)
    (enough : search.work program ≤ turns) :
    ∃ found, search.runFor program turns = some found ∧ Sound program found ∧ found.queue = [] ∧
      found.visited.reverse = visit program search.visited search.queue := by
  induction turns generalizing search with
  | zero =>
      have empty : search.queue = [] := by
        refine List.length_eq_zero_iff.mp ?_
        rw [work] at enough
        omega
      refine ⟨search, ?_, sound, empty, ?_⟩
      · rw [runFor, empty]
      · rw [empty, visit]
  | succ turns ih =>
      cases waits : search.queue with
      | nil =>
          refine ⟨search, ?_, sound, waits, ?_⟩
          · rw [runFor, waits]
          · rw [visit]
      | cons line queue =>
          have inside := sound.queue line (waits ▸ List.mem_cons_self ..)
          have less := work_take_lt waits inside
          obtain ⟨found, finished, rest⟩ := ih (sound.take waits) (by omega)
          refine ⟨found, ?_, ?_⟩
          · rw [runFor, waits]
            exact finished
          · rwa [visit_take waits inside, waits] at rest

/-- **The search from the start ends with what the analysis reports.** -/
theorem start_runFor (program : Program) :
    ∃ found, (start program).runFor program (2 * program.size + 1) = some found ∧
      found.queue = [] ∧ found.edges = (analyze program).edges ∧
      (∀ line, line ∈ found.visited ↔ line ∈ (analyze program).reachable) ∧
      ∀ line, line ∈ found.returns ↔ line ∈ (analyze program).returns := by
  have enough : (start program).work program ≤ 2 * program.size + 1 := by
    have lines : (unvisited program []).length ≤ program.size := by
      refine Nat.le_trans (List.length_filter_le ..) (Nat.le_of_eq ?_)
      rw [Program.numbers, List.length_range']
    have first : (start program).queue.length ≤ 1 := by
      rw [start]
      split <;> simp
    rw [work]
    change _ + 2 * (unvisited program []).length ≤ _
    omega
  obtain ⟨found, finished, sound, done, order⟩ := exists_runFor (sound_start program) enough
  have visited : ∀ line, line ∈ found.visited ↔ line ∈ (analyze program).reachable := by
    intro line
    rw [mem_reachable_iff, ← List.mem_reverse, order]
    rfl
  refine ⟨found, finished, done, ?_, visited, ?_⟩
  · rw [sound.edges, order]
    rfl
  · intro line
    rw [sound.returns, List.mem_filter, visited, mem_returns_iff, decide_eq_true_iff]

end Search

end LineAsm.Flow
