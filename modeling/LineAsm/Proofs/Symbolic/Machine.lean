import LineAsm.Machine.Step
import LineAsm.Proofs.Label.Table
import LineAsm.Proofs.Program.Matching

/-!
# The symbolic machine

A machine that executes the lines of a source as they are written.  At each line it
drops the comment and the label and goes by the mnemonic.  A jump or a call looks for
the line whose label has the name of its operand, a block looks for its other bracket
by scanning the lines, and nothing is kept between two lines but the state of the
machine.

Registers hold words of 32 bits, but sums, products, quotients and comparisons are
those of the integers: results are taken back to words.

The machine has no answer at a line that it cannot read (`Symbolic.step`).
-/

set_option autoImplicit false

namespace LineAsm.Symbolic

/-! ## Reading lines -/

/-- The line with the given number. -/
def lineAt? (lines : List String) (number : Nat) : Option String :=
  if number = 0 then none else lines[number - 1]?

/-- The line whose label has the given name. -/
def lineOf? (lines : List String) (name : String) : Option Nat :=
  (lines.findIdx? fun text => labelOf? text == some name).map (· + 1)

/-- What a line does to the open blocks. -/
def bracketOf (text : String) : Bracket :=
  match (Statement.ofLine text).tokens.head?.bind Opcode.ofMnemonic? with
  | some .iterThrough => .opening
  | some .iterFor => .opening
  | some .endIter => .closing
  | _ => .neither

/-- The value of an operand, which is a register or a number. -/
def value? (registers : RegisterFile) (word : String) : Option Int32 :=
  match Register.ofText? word with
  | some register => some (registers.get register)
  | none => Text.word32? word.toList

/-- The two parts of a range, between its bars and its colon. -/
def range? (word : String) : Option (String × String) :=
  match Text.fields (fun c => c == '|' || c == ':') word.toList with
  | [[], left, right, []] => some (String.ofList left, String.ofList right)
  | _ => none

/-! ## Effects -/

/-- What a line does. -/
inductive Effect where
  | become (machine : Machine)
  | trap (cause : Trap)
  | write (text : String)
  | clear

variable {σ : Type}

/-- What a machine and a console become by an effect. -/
def Effect.outcome (sink : Console σ) (machine : Machine) (console : σ) : Effect → Outcome σ
  | .become next => ⟨next, console, none⟩
  | .trap cause => ⟨machine, console, some cause⟩
  | .write text =>
    ⟨machine, (sink.write text console).1,
      (sink.write text console).2.map (.console machine.line)⟩
  | .clear =>
    ⟨machine, (sink.clear console).1, (sink.clear console).2.map (.console machine.line)⟩

section Operations

variable (lines : List String) (machine : Machine)

/-- Give a register a value. -/
def set (register : Register) (value : Int32) : Effect :=
  .become { machine with registers := machine.registers.put register value }

/-- Compute with two operands. -/
def calculate (compute : Int → Int → Option Int) (dst left right : String) : Option Effect := do
  let target ← Register.ofText? dst
  let first ← value? machine.registers left
  let second ← value? machine.registers right
  match compute first.toInt second.toInt with
  | some result => return set machine target (Int32.ofInt result)
  | none => return .trap (.divisionByZero machine.line)

/-- Jump to a label if a register and a value stand in a relation. -/
def jumpWhen (relation : Int → Int → Bool) (left : String) (right : Option Int32)
    (name : String) : Option Effect := do
  let register ← Register.ofText? left
  let value ← right
  let line ← lineOf? lines name
  if relation (machine.registers.get register).toInt value.toInt then
    return .become { machine with pc := line }
  else return .become machine

/-- The frames of the other loops than the one whose header is executed. -/
def others : List LoopFrame :=
  machine.loops.filter (·.header != machine.line)

/-- The registers at the start of the pass that a frame is at. -/
def passRegisters (registers : RegisterFile) (frame : LoopFrame) : RegisterFile :=
  match frame.induction with
  | .through bank target => registers.put target (registers.get ⟨bank, frame.index.toNatClampNeg⟩)
  | .count register => registers.put register frame.index

/-- What an operation does with its operands, at the line that is being executed. -/
def effect : Opcode → List String → Option Effect
  | .put, [dst, src] => do
    let target ← Register.ofText? dst
    return set machine target (← value? machine.registers src)
  | .copy, [dst, src] => do
    let target ← Register.ofText? dst
    let source ← Register.ofText? src
    return set machine target (machine.registers.get source)
  | .swap, [one, other] => do
    let first ← Register.ofText? one
    let second ← Register.ofText? other
    let swapped := (machine.registers.put first (machine.registers.get second)).put second
      (machine.registers.get first)
    return .become { machine with registers := swapped }
  | .free, [word] => do return set machine (← Register.ofText? word) 0
  | .add, [dst, left, right] => calculate machine (fun a b => some (a + b)) dst left right
  | .sub, [dst, left, right] => calculate machine (fun a b => some (a - b)) dst left right
  | .mul, [dst, left, right] => calculate machine (fun a b => some (a * b)) dst left right
  | .div, [dst, left, right] =>
    calculate machine (fun a b => if b = 0 then none else some (a.tdiv b)) dst left right
  | .mod, [dst, left, right] =>
    calculate machine (fun a b => if b = 0 then none else some (a.tmod b)) dst left right
  | .inc, [word] => do
    let register ← Register.ofText? word
    return set machine register (Int32.ofInt ((machine.registers.get register).toInt + 1))
  | .dec, [word] => do
    let register ← Register.ofText? word
    return set machine register (Int32.ofInt ((machine.registers.get register).toInt - 1))
  | .jump, [name] => do
    let line ← lineOf? lines name
    return .become { machine with pc := line }
  | .jumpZero, [left, name] => jumpWhen lines machine (· = ·) left (some 0) name
  | .jumpNonzero, [left, name] => jumpWhen lines machine (· ≠ ·) left (some 0) name
  | .jumpEqual, [left, right, name] =>
    jumpWhen lines machine (· = ·) left (value? machine.registers right) name
  | .jumpNotEqual, [left, right, name] =>
    jumpWhen lines machine (· ≠ ·) left (value? machine.registers right) name
  | .jumpGreater, [left, right, name] =>
    jumpWhen lines machine (· > ·) left (value? machine.registers right) name
  | .jumpLess, [left, right, name] =>
    jumpWhen lines machine (· < ·) left (value? machine.registers right) name
  | .jumpGreaterEqual, [left, right, name] =>
    jumpWhen lines machine (· ≥ ·) left (value? machine.registers right) name
  | .jumpLessEqual, [left, right, name] =>
    jumpWhen lines machine (· ≤ ·) left (value? machine.registers right) name
  | .call, [name] => do
    let line ← lineOf? lines name
    let depth := machine.callStack.depth + 1
    if machine.config.maxCallDepth.any (· < depth) then
      return .trap (.stackOverflow machine.line depth)
    else return .become { machine with
      callStack := machine.callStack.push name (machine.line + 1)
      pc := line }
  | .ret, [] =>
    match machine.callStack.pop? with
    | none => some (.trap (.stackUnderflow machine.line))
    | some (record, earlier) =>
      some (.become { machine with callStack := earlier, pc := record.line })
  | .iterThrough, [bounds, _, dst, _] => do
    let (left, right) ← range? bounds
    let first ← Register.ofText? left
    let last ← Register.ofText? right
    let target ← Register.ofText? dst
    let frame : LoopFrame :=
      ⟨machine.line, .through first.bank target, Int32.ofNat first.index, Int32.ofNat last.index⟩
    return .become { machine with
      registers := machine.registers.put target (machine.registers.get first)
      loops := frame :: others machine }
  | .iterFor, [bounds, _] => do
    let (left, right) ← range? bounds
    let register ← Register.ofText? left
    let count ← Text.word32? right.toList
    if count = 0 then
      let closing ← Bracket.closing? (lines.map bracketOf) machine.line
      return .become { machine with loops := others machine, pc := closing + 1 }
    else return .become { machine with
      registers := machine.registers.put register 0
      loops := ⟨machine.line, .count register, 0, count - 1⟩ :: others machine }
  | .endIter, [] => do
    let header ← Bracket.header? (lines.map bracketOf) machine.line
    match machine.loops.dropWhile (·.header != header) with
    | [] => return .trap (.loopFrame machine.line)
    | frame :: outer =>
      if frame.index < frame.last then
        let next := { frame with index := frame.index + 1 }
        return .become { machine with
          registers := passRegisters machine.registers next
          loops := next :: outer
          pc := header + 1 }
      else return .become { machine with loops := outer }
  | .writeDecimal, [word] => do
    let register ← Register.ofText? word
    return .write (toString (machine.registers.get register).toInt ++ "\n")
  | .writeCharacter, [word] => do
    let register ← Register.ofText? word
    return .write (String.singleton
      (characterOf (machine.registers.get register).toUInt32.toNat))
  | .writeHex, [word] => do
    let register ← Register.ofText? word
    return .write (String.ofList
      (Nat.toDigits 16 (machine.registers.get register).toUInt32.toNat))
  | .clearScreen, [] => some .clear
  | .newLine, [] => some (.write "\n")
  | .tab, [] => some (.write "\t")
  | _, _ => none

/-- What the words of a line do. -/
def perform : List String → Option Effect
  | [] => some (.become machine)
  | word :: operands => (Opcode.ofMnemonic? word).bind fun opcode =>
    effect lines machine opcode operands

end Operations

/-- **Execute the line that the program counter is at**; where there is none, do
nothing. -/
def step (lines : List String) (sink : Console σ) (machine : Machine) (console : σ) :
    Option (Outcome σ) :=
  match lineAt? lines machine.pc with
  | none => some ⟨machine, console, none⟩
  | some text =>
    let fetched := { machine with
      line := machine.pc, pc := machine.pc + 1, steps := machine.steps + 1 }
    (perform lines fetched (Statement.ofLine text).tokens).map (·.outcome sink fetched console)

end LineAsm.Symbolic
