import LineAsm.Flow.Reachability

/-!
# Control-flow analysis

The reachable lines of a program, the edges that leave them in the order of their
discovery, the reachable returns, and the basic blocks.

A block starts at the first line, at every line of the program that an edge other
than a fallthrough leads to, at the line after each such edge's source, and at the
line after each return.  A block ends where the next one starts, and the last block
ends past the last line.
-/

set_option autoImplicit false

namespace LineAsm.Flow

/-- The result of an analysis. -/
structure Analysis where
  /-- The reachable lines, in ascending order. -/
  reachable : List Nat
  /-- The edges that leave reachable lines, in the order of their discovery. -/
  edges : List Edge
  /-- The reachable returns, in ascending order. -/
  returns : List Nat
  deriving DecidableEq, Repr, Inhabited

/-- Analyse a program from its first line on. -/
def analyze (program : Program) : Analysis :=
  let visited := visits program
  let reachable := program.numbers.filter (visited.contains ·)
  { reachable := reachable
    edges := visited.flatMap (edgesFrom program)
    returns := reachable.filter fun line => program.instruction? line = some .ret }

/-! ## Basic blocks -/

/-- A block of lines: from `start` on, up to but not including `stop`. -/
structure Block where
  start : Nat
  stop : Nat
  deriving DecidableEq, Repr, Inhabited

namespace Analysis

/-- Whether a line is a place where an edge of the analysis cuts the program. -/
def isCut (analysis : Analysis) (program : Program) (line : Nat) : Bool :=
  line = 1
    || analysis.edges.any (fun edge =>
      edge.kind != .fallthrough && program.hasLine edge.target
        && (line = edge.target || line = edge.source + 1))
    || analysis.returns.any (fun place => line = place + 1)

/-- The lines at which blocks start, in ascending order. -/
def starts (analysis : Analysis) (program : Program) : List Nat :=
  program.numbers.filter (analysis.isCut program)

/-- Blocks from each start to the next one, the last of them up to `stop`. -/
def blocksFrom (stop : Nat) : List Nat → List Block
  | [] => []
  | [start] => [⟨start, stop⟩]
  | start :: next :: later => ⟨start, next⟩ :: blocksFrom stop (next :: later)

/-- The basic blocks of a program, in ascending order. -/
def blocks (analysis : Analysis) (program : Program) : List Block :=
  blocksFrom (program.size + 1) (analysis.starts program)

/-- The lines that are not reachable, in ascending order. -/
def unreachable (analysis : Analysis) (program : Program) : List Nat :=
  program.numbers.filter fun line => !analysis.reachable.contains line

/-- How many reachable lines hold an instruction of a family. -/
def count (analysis : Analysis) (program : Program) (family : Family) : Nat :=
  analysis.reachable.countP fun line =>
    ((program.instruction? line).bind (·.opcode?)).map (·.family) = some family

/-- The families that occur on reachable lines, by name, with their counts. -/
def mix (analysis : Analysis) (program : Program) : List (Family × Nat) :=
  (Family.byName.map fun family => (family, analysis.count program family)).filter (·.2 != 0)

end Analysis

end LineAsm.Flow
