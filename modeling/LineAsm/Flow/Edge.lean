import LineAsm.Program

/-!
# Edges of control flow

From each line control may pass to some other lines, by an edge whose kind says how.
The edges of a line depend on its instruction alone: a conditional jump may be taken
or not, a called subroutine returns to the line after the call, and a block may be
repeated, left or, when it is counted, skipped.  A return has no edge, since the line
it returns to is the business of the call.
-/

set_option autoImplicit false

namespace LineAsm.Flow

/-- How control passes along an edge. -/
inductive EdgeKind where
  | fallthrough | jump | conditional | call | loopBack
  deriving DecidableEq, Repr, Inhabited

/-- The tag of an edge kind in reports. -/
def EdgeKind.tag : EdgeKind → String
  | .fallthrough => "ft"
  | .jump => "br"
  | .conditional => "cbr"
  | .call => "call"
  | .loopBack => "loop"

/-- An edge from a line to a line, or to a place past the end of the program. -/
structure Edge where
  source : Nat
  target : Nat
  kind : EdgeKind
  deriving DecidableEq, Repr, Inhabited

/-- Where control may pass from a line that holds an instruction. -/
def successors (line : Nat) : Instruction → List (Nat × EdgeKind)
  | .jump target => [(target, .jump)]
  | .branch _ _ _ _ target => [(target, .conditional), (line + 1, .fallthrough)]
  | .call target => [(target, .call), (line + 1, .fallthrough)]
  | .ret => []
  | .iterFor _ _ closing => [(line + 1, .fallthrough), (closing + 1, .conditional)]
  | .endIter header => [(header + 1, .loopBack), (line + 1, .fallthrough)]
  | _ => [(line + 1, .fallthrough)]

/-- The edges that leave a line of a program. -/
def edgesFrom (program : Program) (line : Nat) : List Edge :=
  match program.instruction? line with
  | none => []
  | some instruction =>
    (successors line instruction).map fun (target, kind) => ⟨line, target, kind⟩

end LineAsm.Flow
