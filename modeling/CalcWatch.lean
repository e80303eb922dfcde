import CalcWatch.Main
import CalcWatch.Proofs.Calls
import CalcWatch.Proofs.Disassembly
import CalcWatch.Proofs.Execution.Inspection
import CalcWatch.Proofs.Interrupts.Service
import CalcWatch.Proofs.Invariants.Decimal
import CalcWatch.Proofs.Isolation
import CalcWatch.Proofs.Json.Partial
import CalcWatch.Proofs.Jumps
import CalcWatch.Proofs.Moves
import CalcWatch.Proofs.Ports.Output
import CalcWatch.Proofs.Runs.Timed
import CalcWatch.Proofs.Text.Addresses
import CalcWatch.Proofs.Wide.Bus
import CalcWatch.Proofs.Wide.Callbacks
