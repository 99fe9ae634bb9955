import LineAsm.Machine.State
import LineAsm.Text.Json

/-!
# Snapshots of the machine

The whole state of a machine as a JSON document: the program counter, the line
executed last, the sixty cells of the register file by bank and index, the call
stack and the loops with the earliest entry first, the number of executed lines and
the configuration.
-/

set_option autoImplicit false

namespace LineAsm

/-- A register as an object of its bank and its index. -/
def Register.document (register : Register) : Json :=
  .object [("bank", .text (String.singleton register.bank.letter)),
    ("index", .natural register.index)]

/-- A row of cells as an object. -/
def RegisterFile.document (file : RegisterFile) : Json :=
  .object [("cells", .array (file.cells.toList.map fun value => .integer value.toInt))]

/-- A return record as an object of its label and its line. -/
def ReturnRecord.document (record : ReturnRecord) : Json :=
  .object [("label", .text record.label), ("line", .natural record.line)]

/-- A call stack as an object, the earliest record first. -/
def CallStack.document (stack : CallStack) : Json :=
  .object [("entries", .array (stack.earliestFirst.map (·.document)))]

/-- What a loop sets, as an object named by its kind. -/
def Induction.document : Induction → Json
  | .through bank target =>
    .object [("Through", .object [("bank", .text (String.singleton bank.letter)),
      ("dst", target.document)])]
  | .count register => .object [("Count", .object [("reg", register.document)])]

/-- A loop frame as an object. -/
def LoopFrame.document (frame : LoopFrame) : Json :=
  .object [("header", .natural frame.header), ("induction", frame.induction.document),
    ("index", .integer frame.index.toInt), ("last", .integer frame.last.toInt)]

/-- A configuration as an object; an absent limit is null. -/
def Config.document (config : Config) : Json :=
  .object [("max_steps", .optional config.maxSteps),
    ("max_call_depth", .optional config.maxCallDepth)]

namespace Machine

/-- The state of a machine as an object. -/
def document (machine : Machine) : Json :=
  .object [("pc", .natural machine.pc), ("line", .natural machine.line),
    ("regs", machine.registers.document), ("stack", machine.callStack.document),
    ("loops", .array (machine.loops.reverse.map (·.document))),
    ("steps", .natural machine.steps), ("cfg", machine.config.document)]

/-- The text of a snapshot. -/
def snapshot (machine : Machine) : String := machine.document.indented

end Machine

end LineAsm
