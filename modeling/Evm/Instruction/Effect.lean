import Evm.Environment
import Evm.Config
import Evm.Frame
import Evm.Ledger.Basic
import Evm.Precompile.Basic

namespace Evm

/-!
# Effects of instructions

An instruction acts on its frame and on the ledger.  One that fails leaves behind what it has
done so far: operands stay popped and gas stays spent.

* `Context` — what stays the same during an execution.
* `Local`, `Effect` — what an instruction can change, and a step that may fail.
* `Flow` — where control goes after an instruction.
* `Effect.charge`, `Effect.pop`, `Effect.extendMemory` and their kin — the parts of instructions.
-/

/-- What stays the same during an execution. -/
structure Context where
  config : Config := {}
  env : Environment := {}
  precompiles : PrecompileSet

/-- The active fork. -/
def Context.fork (c : Context) : Fork := c.config.fork

/-- What an instruction can change. -/
structure Local (L : Type) where
  frame : Frame
  ledger : L

/-- A step on a frame and a ledger; a failure keeps what was done before it. -/
abbrev Effect (L : Type) := EStateM VmError (Local L)

/-- Where control goes after an instruction. -/
inductive Flow where
  /-- On to the next instruction. -/
  | next
  /-- On from where the instruction has put the program. -/
  | jumped
  /-- The frame ends successfully. -/
  | halt
  /-- A child frame is asked for. -/
  | spawn (message : Message) (continuation : Continuation)
  deriving DecidableEq

namespace Effect

variable {L : Type}

/-! ### The frame -/

/-- The frame. -/
def frame : Effect L Frame := return (← get).frame

/-- Changes the frame. -/
def modifyFrame (f : Frame → Frame) : Effect L Unit :=
  modify fun s => { s with frame := f s.frame }

/-- Refuses to change state in a static frame. -/
def requireNonStatic : Effect L Unit := do
  if (← frame).isStatic then throw .staticStateChange

/-! ### Gas -/

/-- Spends gas. -/
def charge (amount : Nat) : Effect L Unit := do
  match (← frame).gas.consume amount with
  | .ok gas => modifyFrame ({ · with gas })
  | .error e => throw e

/-! ### The stack -/

/-- Runs an operation on the stack. -/
def onStack {α : Type} (f : Stack → Except VmError (α × Stack)) : Effect L α := do
  match f (← frame).stack with
  | .ok (a, stack) =>
    modifyFrame ({ · with stack })
    return a
  | .error e => throw e

/-- Replaces the stack, if that works. -/
def updateStack (f : Stack → Except VmError Stack) : Effect L Unit :=
  onStack fun s => return ((), ← f s)

/-- Puts a word on the stack. -/
def push (w : Word) : Effect L Unit := updateStack (·.push w)

/-- Puts an address on the stack. -/
def pushAddress (a : Address) : Effect L Unit := push a.toWord

/-- Puts a number on the stack. -/
def pushNat (n : Nat) : Effect L Unit := push (BitVec.ofNat 256 n)

/-- Takes one word. -/
def pop : Effect L Word := onStack Stack.pop

/-- Takes two words. -/
def pop2 : Effect L (Word × Word) := onStack Stack.pop2

/-- Takes three words. -/
def pop3 : Effect L (Word × Word × Word) := onStack Stack.pop3

/-- Takes four words. -/
def pop4 : Effect L (Word × Word × Word × Word) := onStack Stack.pop4

/-- Takes a word as an address. -/
def popAddress : Effect L Address := return (← pop).toAddress

/-! ### Memory -/

/-- Makes a range of memory addressable and pays for it. -/
def extendMemory (offset len : Nat) : Effect L Unit := do
  let f ← frame
  match f.memory.extend offset len f.gas with
  | .ok (memory, gas) => modifyFrame ({ · with memory, gas })
  | .error e => throw e

/-- Reads memory. -/
def readMemory (offset len : Nat) : Effect L Bytes := return (← frame).memory.read offset len

/-- Writes memory. -/
def writeMemory (offset : Nat) (b : Bytes) : Effect L Unit := do
  match (← frame).memory.write offset b with
  | .ok memory => modifyFrame ({ · with memory })
  | .error e => throw e

/-! ### The ledger -/

/-- The ledger. -/
def ledger : Effect L L := return (← get).ledger

/-- Changes the ledger. -/
def modifyLedger (f : L → L) : Effect L Unit := modify fun s => { s with ledger := f s.ledger }

/-- Runs an operation that tells something about the ledger and may change it. -/
def onLedger {α : Type} (f : L → α × L) : Effect L α :=
  modifyGet fun s =>
    let (a, ledger) := f s.ledger
    (a, { s with ledger })

/-- Runs a step that the ledger may refuse. -/
def tryLedger {α : Type} (step : LedgerStep L α) (cause : StateError → VmError) : Effect L α :=
  fun s =>
    match step s.ledger with
    | .ok a ledger => .ok a { s with ledger }
    | .error e ledger => .error (cause e) { s with ledger }

/-- Records an access to an account and charges for the first one, on forks that do. -/
def accessAccount [Ledger L] (fork : Fork) (a : Address) (surcharge : Nat) : Effect L Unit := do
  if fork.accessLists then
    if (← onLedger (Ledger.accessAccount · a)).isCold then charge surcharge

/-- Records an access to a slot and charges for the first one, on forks that do. -/
def accessSlot [Ledger L] (fork : Fork) (s : Slot) (surcharge : Nat) : Effect L Unit := do
  if fork.accessLists then
    if (← onLedger (Ledger.accessSlot · s)).isCold then charge surcharge

end Effect

end Evm
