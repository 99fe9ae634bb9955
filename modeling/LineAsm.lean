import LineAsm.Main
import LineAsm.Proofs.Command.File
import LineAsm.Proofs.Command.Inspect
import LineAsm.Proofs.Command.Run
import LineAsm.Proofs.Command.Writing
import LineAsm.Proofs.Flow.Blocks
import LineAsm.Proofs.Flow.Entries
import LineAsm.Proofs.Flow.Exactness
import LineAsm.Proofs.Flow.Search
import LineAsm.Proofs.Flow.Soundness
import LineAsm.Proofs.Flow.Visits
import LineAsm.Proofs.Instruction.Completeness
import LineAsm.Proofs.Instruction.Disassembly
import LineAsm.Proofs.Instruction.Exactness
import LineAsm.Proofs.Instruction.Grammar
import LineAsm.Proofs.Instruction.Sentence
import LineAsm.Proofs.Label.Collecting
import LineAsm.Proofs.Label.Operands
import LineAsm.Proofs.Label.Renaming
import LineAsm.Proofs.Label.Resolution
import LineAsm.Proofs.Label.Table
import LineAsm.Proofs.Machine.Arithmetic
import LineAsm.Proofs.Machine.BoundedRuns
import LineAsm.Proofs.Machine.Calculating
import LineAsm.Proofs.Machine.Calls
import LineAsm.Proofs.Machine.Checked
import LineAsm.Proofs.Machine.ForwardJumps
import LineAsm.Proofs.Machine.InPlace
import LineAsm.Proofs.Machine.Inversion
import LineAsm.Proofs.Machine.Landing
import LineAsm.Proofs.Machine.LoopFraming
import LineAsm.Proofs.Machine.LoopStack
import LineAsm.Proofs.Machine.Nesting
import LineAsm.Proofs.Machine.Output
import LineAsm.Proofs.Machine.StepLimit
import LineAsm.Proofs.Machine.Steps
import LineAsm.Proofs.Program.Addresses
import LineAsm.Proofs.Program.Assembly
import LineAsm.Proofs.Program.Balance
import LineAsm.Proofs.Program.BlockTree
import LineAsm.Proofs.Program.Bodies
import LineAsm.Proofs.Program.Decoded
import LineAsm.Proofs.Program.Layout
import LineAsm.Proofs.Program.Lines
import LineAsm.Proofs.Program.Matching
import LineAsm.Proofs.Program.Pairing
import LineAsm.Proofs.Program.Reassembly
import LineAsm.Proofs.Program.Renaming
import LineAsm.Proofs.Program.RoundTrip
import LineAsm.Proofs.Program.Targets
import LineAsm.Proofs.Register.Values
import LineAsm.Proofs.Relocation.Assembling
import LineAsm.Proofs.Relocation.Insertion
import LineAsm.Proofs.Relocation.Lines
import LineAsm.Proofs.Relocation.Simulation
import LineAsm.Proofs.Source.Layout
import LineAsm.Proofs.Source.Normal
import LineAsm.Proofs.Source.Parts
import LineAsm.Proofs.Source.Spacing
import LineAsm.Proofs.Source.Statement
import LineAsm.Proofs.Store.Directory
import LineAsm.Proofs.Store.Path
import LineAsm.Proofs.Structured.Adequacy
import LineAsm.Proofs.Structured.Evaluation
import LineAsm.Proofs.Structured.Steps
import LineAsm.Proofs.Symbolic.Assembling
import LineAsm.Proofs.Symbolic.Execution
import LineAsm.Proofs.Symbolic.Machine
import LineAsm.Proofs.Text.ByteOrder
import LineAsm.Proofs.Text.LineByLine
import LineAsm.Proofs.Text.Numeral
import LineAsm.Proofs.Text.Splitting
import LineAsm.Store.Directory
