/-!
# The call stack

Each call leaves a record of the label it called and of the line to resume at.
-/

set_option autoImplicit false

namespace LineAsm

/-- What a call leaves behind: the label called and the line to resume at. -/
structure ReturnRecord where
  label : String
  line : Nat
  deriving DecidableEq, Repr, Inhabited

/-- The records of the calls that have not returned, the latest first. -/
structure CallStack where
  records : List ReturnRecord
  deriving DecidableEq, Repr, Inhabited

namespace CallStack

/-- The stack of a machine that has made no call. -/
def empty : CallStack := ⟨[]⟩

/-- Record a call. -/
def push (stack : CallStack) (label : String) (line : Nat) : CallStack :=
  ⟨⟨label, line⟩ :: stack.records⟩

/-- Take the latest record off. -/
def pop? (stack : CallStack) : Option (ReturnRecord × CallStack) :=
  match stack.records with
  | [] => none
  | latest :: earlier => some (latest, ⟨earlier⟩)

/-- The latest record. -/
def peek? (stack : CallStack) : Option ReturnRecord := stack.records.head?

/-- How many calls have not returned. -/
def depth (stack : CallStack) : Nat := stack.records.length

/-- Whether every call has returned. -/
def isEmpty (stack : CallStack) : Bool := stack.records.isEmpty

/-- The records in the order in which they were made. -/
def earliestFirst (stack : CallStack) : List ReturnRecord := stack.records.reverse

@[simp]
theorem depth_push (stack : CallStack) (label : String) (line : Nat) :
    (stack.push label line).depth = stack.depth + 1 := rfl

/-! ## The stack table -/

/-- One row of the table. -/
def tableRow (text : String) : String := "\t\t\t\t" ++ text ++ "\n"

/-- The table of the stack, the latest record first, without a line feed at the
end. -/
def table (stack : CallStack) : String :=
  let rows :=
    if stack.isEmpty then tableRow "Stack is empty."
    else String.join (stack.records.map fun record =>
      tableRow (record.label ++ ": " ++ toString record.line))
  "------------------- Stack -------------------\n" ++ rows
    ++ "-------------------- END --------------------"

end CallStack

end LineAsm
