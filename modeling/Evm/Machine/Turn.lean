import Evm.Instruction.Run
import Evm.Trace

namespace Evm

/-!
# One turn of a running frame

* `Outcome` — whether the frame goes on, and why not.
* `Local.turn` — fetches, decodes, prices and runs one instruction, and moves the program on.
* `Local.run` — turns until the frame does not go on by itself.
-/

/-- What comes of one turn. -/
inductive Outcome where
  /-- The frame goes on. -/
  | continues
  /-- The frame has ended successfully. -/
  | halted
  /-- The frame has failed. -/
  | failed (error : VmError)
  /-- The frame waits for a child. -/
  | waits (message : Message) (continuation : Continuation)
  deriving DecidableEq

namespace Local

variable {L : Type}

/-- Moves the program on by so many bytes. -/
def advance (s : Local L) (n : Nat) : Local L :=
  { s with frame := { s.frame with program := s.frame.program.advance n } }

/-- Moves the program on by the flow of an instruction.  Where the frame ends it stays. -/
def follow (s : Local L) (i : Instruction) : Flow → Outcome × Local L
  | .next => (.continues, s.advance (1 + i.immediateSize))
  | .jumped => (.continues, s)
  | .halt => (.halted, s)
  | .spawn message continuation => (.waits message continuation, s.advance 1)

/-- A byte that is no instruction shows up in the trace as INVALID at no price. -/
def undefinedInstruction (s : Local L) (t : Trace) (b : UInt8) : Outcome × Local L × Trace :=
  let f := s.frame
  let pc := f.program.pc
  let gas := f.gas.remaining
  let error := VmError.invalidInstruction b
  let (_, t) := t.startInstruction pc .invalid 0 gas f.depth
  (.failed error, s, t.add (.fault pc .invalid gas f.gas.refund f.returnData f.depth error))

variable [Ledger L]

/-- Pays the fixed price of an instruction and runs it. -/
def paidEffect (c : Context) (ancestors : List Frame) (i : Instruction) : Effect L Flow := do
  Effect.charge (i.staticGas c.fork)
  Effect.ofInstruction c ancestors i

/-- Runs an instruction and shows it to the observer. -/
def runInstruction (c : Context) (ancestors : List Frame) (s : Local L) (t : Trace)
    (i : Instruction) : Outcome × Local L × Trace :=
  let pc := s.frame.program.pc
  let depth := s.frame.depth
  let (index, t) := t.startInstruction pc i (i.staticGas c.fork) s.frame.gas.remaining depth
  let finished (s : Local L) (t : Trace) : Trace :=
    t.add (.opcodeEnd pc i s.frame.gas.remaining s.frame.gas.refund s.frame.returnData depth index)
  match (paidEffect c ancestors i).run s with
  | .ok flow s =>
    let t := finished s t
    let (outcome, s) := s.follow i flow
    (outcome, s, t)
  | .error .revert s => (.failed .revert, s, finished s t)
  | .error e s =>
    let f := s.frame
    (.failed e, s, t.add (.fault pc i f.gas.remaining f.gas.refund f.returnData depth e))

/-- Runs the next instruction.  Past the end of the code the frame ends successfully. -/
def turn (c : Context) (ancestors : List Frame) (s : Local L) (t : Trace) :
    Outcome × Local L × Trace :=
  match s.frame.program.current with
  | none => (.halted, s, t)
  | some b =>
    match Instruction.decode c.fork b with
    | none => s.undefinedInstruction t b
    | some i => s.runInstruction c ancestors t i

/-- Turns until the frame does not go on by itself, or the fuel is used up. -/
def runFor (c : Context) (ancestors : List Frame) : Nat → Local L → Trace →
    Outcome × Local L × Trace
  | 0, s, t => (.failed .outOfGas, s, t)
  | fuel + 1, s, t =>
    match s.turn c ancestors t with
    | (.continues, s, t) => runFor c ancestors fuel s t
    | done => done

/-- Turns until the frame does not go on by itself.  Every instruction after which it does has
    cost gas, so that there are no more turns than gas, and one. -/
def run (c : Context) (ancestors : List Frame) (s : Local L) (t : Trace) :
    Outcome × Local L × Trace :=
  runFor c ancestors (s.frame.gas.remaining + 1) s t

end Local

end Evm
