import Evm.Bytes
import Evm.Code
import Evm.Config
import Evm.ContractAddress
import Evm.Counter
import Evm.Curve.Secp256k1
import Evm.Environment
import Evm.Error
import Evm.Fork
import Evm.Frame
import Evm.Gas.Meter
import Evm.Gas.Schedule
import Evm.Gas.StorageWrite
import Evm.Hash.Keccak
import Evm.Hash.Sha256
import Evm.Hex
import Evm.Instruction
import Evm.Instruction.Data
import Evm.Instruction.Effect
import Evm.Instruction.Run
import Evm.Instruction.Spawn
import Evm.Instruction.State
import Evm.Json.Codec
import Evm.Json.Documents
import Evm.Json.Reader
import Evm.Json.Value
import Evm.Ledger.AccessList
import Evm.Ledger.Basic
import Evm.Ledger.Journaled
import Evm.Ledger.Snapshots
import Evm.Machine.Entry
import Evm.Machine.Exit
import Evm.Machine.Run
import Evm.Machine.Turn
import Evm.Memory
import Evm.Message
import Evm.Precompile.Basic
import Evm.Precompile.Recover
import Evm.Precompile.Standard
import Evm.Proofs.Bytes
import Evm.Proofs.ContractAddress
import Evm.Proofs.Gas.NetMetering
import Evm.Proofs.Instruction.Access
import Evm.Proofs.Instruction.Agreement
import Evm.Proofs.Instruction.Arity
import Evm.Proofs.Instruction.Causes
import Evm.Proofs.Instruction.Conduct
import Evm.Proofs.Instruction.Coupling
import Evm.Proofs.Instruction.Exact
import Evm.Proofs.Instruction.Footprint
import Evm.Proofs.Instruction.Funds
import Evm.Proofs.Instruction.Growth
import Evm.Proofs.Instruction.Operands
import Evm.Proofs.Instruction.Outcome
import Evm.Proofs.Instruction.Output
import Evm.Proofs.Instruction.Positions
import Evm.Proofs.Instruction.Ranges
import Evm.Proofs.Instruction.Refund
import Evm.Proofs.Instruction.Request
import Evm.Proofs.Instruction.Slices
import Evm.Proofs.Instruction.Stipend
import Evm.Proofs.Instruction.Words
import Evm.Proofs.Instruction.Work
import Evm.Proofs.Ledger.Changes
import Evm.Proofs.Ledger.Copies
import Evm.Proofs.Ledger.Journal
import Evm.Proofs.Ledger.Journaled
import Evm.Proofs.Ledger.NetEffect
import Evm.Proofs.Ledger.Populated
import Evm.Proofs.Ledger.Reach
import Evm.Proofs.Ledger.Session
import Evm.Proofs.Ledger.SideBySide
import Evm.Proofs.Ledger.Standard
import Evm.Proofs.Ledger.StartValues
import Evm.Proofs.Ledger.State
import Evm.Proofs.Ledger.Supply
import Evm.Proofs.Ledger.Twins
import Evm.Proofs.Machine.Aborts
import Evm.Proofs.Machine.Children
import Evm.Proofs.Machine.Clamping
import Evm.Proofs.Machine.ClearingLoop
import Evm.Proofs.Machine.CodeHash
import Evm.Proofs.Machine.Coupling
import Evm.Proofs.Machine.Course
import Evm.Proofs.Machine.Delivery
import Evm.Proofs.Machine.Deposit
import Evm.Proofs.Machine.DestroyingLoop
import Evm.Proofs.Machine.DestructionRefund
import Evm.Proofs.Machine.Equivalence
import Evm.Proofs.Machine.Ether
import Evm.Proofs.Machine.Events
import Evm.Proofs.Machine.Evolution
import Evm.Proofs.Machine.Execution
import Evm.Proofs.Machine.Existence
import Evm.Proofs.Machine.Failure
import Evm.Proofs.Machine.FrameStack
import Evm.Proofs.Machine.Gas
import Evm.Proofs.Machine.Induction
import Evm.Proofs.Machine.Invariant
import Evm.Proofs.Machine.Lockstep
import Evm.Proofs.Machine.NewAccount
import Evm.Proofs.Machine.Observation
import Evm.Proofs.Machine.Origins
import Evm.Proofs.Machine.Passages
import Evm.Proofs.Machine.Persistence
import Evm.Proofs.Machine.Positions
import Evm.Proofs.Machine.Progress
import Evm.Proofs.Machine.Records
import Evm.Proofs.Machine.Refund
import Evm.Proofs.Machine.Results
import Evm.Proofs.Machine.Roots
import Evm.Proofs.Machine.Snapshots
import Evm.Proofs.Machine.StackDiscipline
import Evm.Proofs.Machine.Stages
import Evm.Proofs.Machine.StartValues
import Evm.Proofs.Machine.Static
import Evm.Proofs.Machine.StaticRoot
import Evm.Proofs.Machine.Stipend
import Evm.Proofs.Machine.Success
import Evm.Proofs.Machine.Surface
import Evm.Proofs.Machine.Termination
import Evm.Proofs.Machine.Tokens
import Evm.Proofs.Machine.Warmth
import Evm.Proofs.Memory
import Evm.Proofs.Precompile.Recover
import Evm.Proofs.RevertReason
import Evm.Proofs.Rlp
import Evm.Proofs.State.History
import Evm.Proofs.State.World
import Evm.Proofs.Word.Modular
import Evm.Proofs.Word.Signed
import Evm.Result
import Evm.RevertReason
import Evm.Rlp
import Evm.Stack
import Evm.State.Account
import Evm.State.World
import Evm.Trace
import Evm.Word.Arithmetic
import Evm.Word.Basic
