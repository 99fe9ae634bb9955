import LineAsm.Machine.State
import LineAsm.Text.FlatJson

/-!
# Configurations as JSON documents

A configuration is read from an object with the members `max_steps` and
`max_call_depth`, of which any may be missing and none may be repeated; other members
are ignored.  It may also be given as an array of at most two values in this order.
A limit is null or a natural number of 64 bits, written without sign, fraction or
exponent.
-/

set_option autoImplicit false

namespace LineAsm.Config

/-- Read a limit from the text of its value. -/
def limit? (text : String) : Option (Option Nat) :=
  if text = "null" then some none
  else match Text.natural? text.toList with
    | some limit => if limit < UInt64.size then some (some limit) else none
    | none => none

/-- Read the limit with a name from the members of an object. -/
def member? (members : List (String × String)) (name : String) : Option (Option Nat) :=
  match members.filter (·.1 == name) with
  | [] => some none
  | [(_, text)] => limit? text
  | _ => none

/-- Read a configuration from a JSON text. -/
def ofText? (text : String) : Option Config :=
  match FlatJson.ofText? text with
  | some (.object members) => do
    return ⟨← member? members "max_steps", ← member? members "max_call_depth"⟩
  | some (.array []) => some .unlimited
  | some (.array [steps]) => (limit? steps).map fun maxSteps => ⟨maxSteps, none⟩
  | some (.array [steps, depth]) => do return ⟨← limit? steps, ← limit? depth⟩
  | _ => none

end LineAsm.Config
