import RegisterMachine.Assembly.Token.Coverage
import RegisterMachine.CommandLine.Desk
import RegisterMachine.Machine.Observation
import RegisterMachine.Main
import RegisterMachine.Proofs.Assembly.Casing
import RegisterMachine.Proofs.Assembly.Grammar
import RegisterMachine.Proofs.Assembly.Lossless
import RegisterMachine.Proofs.Assembly.Relisting
import RegisterMachine.Proofs.Compilation.Capacity
import RegisterMachine.Proofs.Compilation.Correctness
import RegisterMachine.Proofs.Compilation.Initialised
import RegisterMachine.Proofs.Compilation.LineByLine
import RegisterMachine.Proofs.Compilation.Locality
import RegisterMachine.Proofs.Compilation.Operations
import RegisterMachine.Proofs.Compilation.Places
import RegisterMachine.Proofs.Compilation.Printing
import RegisterMachine.Proofs.Compilation.RoundTrip
import RegisterMachine.Proofs.Machine.Footprint
import RegisterMachine.Proofs.Machine.LargerBank
import RegisterMachine.Proofs.Machine.Watching
import RegisterMachine.Proofs.Structured.Allocation
import RegisterMachine.Proofs.Structured.Discipline
import RegisterMachine.Proofs.Structured.Fuel
import RegisterMachine.Proofs.Structured.Grouping
import RegisterMachine.Proofs.Structured.Lossless
import RegisterMachine.Proofs.Structured.Recursion
import RegisterMachine.Proofs.Structured.Resolution
import RegisterMachine.Proofs.Structured.Typing
