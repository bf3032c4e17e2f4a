import Evm.Machine.Entry
import Evm.Machine.Exit
import Evm.Machine.Turn

namespace Evm

/-!
# Running a message

The frames of a message form a stack; the parent of a frame lies below it.  The machine moves the
top frame one step through its life at a time.

* `Machine` — the frames, the ledger and the trace.
* `Machine.step` — one step: preparing, entering, running one instruction, or finalizing.
* `Machine.run` — steps until the first frame is done, as many as its gas allows.
* `execute` — runs a message on a ledger.
-/

/-- The frames of a message, the ledger and what an observer has seen. -/
structure Machine (L : Type) where
  top : Frame
  /-- The frames below the top one, nearest first. -/
  below : List Frame := []
  ledger : L
  trace : Trace := {}

/-- What a message has come to. -/
structure Execution (L : Type) where
  result : ExecutionResult
  ledger : L
  trace : Trace

/-- What one step leads to. -/
inductive Progress (L : Type) where
  | running (m : Machine L)
  /-- The first frame is done. -/
  | done (e : Execution L)
  /-- The top frame is in no phase that it can move on from. -/
  | stuck

namespace Machine

variable {L : Type}

/-- The top frame and the ledger. -/
def toLocal (m : Machine L) : Local L := { frame := m.top, ledger := m.ledger }

/-- The machine with another top frame and ledger. -/
def withLocal (m : Machine L) (s : Local L) : Machine L :=
  { m with top := s.frame, ledger := s.ledger }

/-- The machine with another top frame. -/
def withTop (m : Machine L) (f : Frame) : Machine L := { m with top := f }

/-- The top frame is the first one of the message. -/
def isRoot (m : Machine L) : Bool := m.below.isEmpty

variable [Ledger L]

/-! ### Steps -/

/-- Prepares the top frame.  A frame that cannot be prepared ends before any code runs. -/
def prepare (c : Context) (m : Machine L) : Machine L :=
  let t := m.trace.add (.framePrepare m.top.depth)
  let (error, s) := m.toLocal.attempt (Effect.prepare c)
  let msg := s.frame.message
  let t := t.add
    (.frameStart msg.sender msg.recipient msg.isCreate msg.input msg.gasLimit msg.value)
  let top :=
    match error with
    | none => { s.frame with phase := .prepared }
    | some e => s.frame.finish (some e)
  { m with top, ledger := s.ledger, trace := t }

/-- The precompiled contract that the top frame calls. -/
def calledPrecompile (c : Context) (m : Machine L) : Option Precompile :=
  if m.top.message.isCreate then none else c.precompiles.lookup c.fork m.top.message.codeAddress

/-- Starts the top frame, or lets a precompiled contract answer for it. -/
def enter (c : Context) (m : Machine L) : Machine L :=
  match m.calledPrecompile c with
  | none => m.withTop { m.top with phase := .running }
  | some p =>
    let (error, s) := m.toLocal.attempt (Effect.runPrecompile p)
    m.withLocal { s with frame := s.frame.finish error }

/-- Puts a child frame on top of a frame that waits for it. -/
def spawn (c : Context) (m : Machine L) (message : Message) (k : Continuation) : Machine L :=
  let parent := { m.top with continuation := some k, phase := .suspended }
  { m with
    top := Frame.ofMessage message parent.gas.refund c.config.stackLimit
    below := parent :: m.below }

/-- Runs one instruction of the top frame. -/
def runTop (c : Context) (m : Machine L) : Machine L :=
  let s : Local L := { frame := { m.top with phase := .running }, ledger := m.ledger }
  let (outcome, s, trace) := s.turn c m.below m.trace
  let m := { m with top := s.frame, ledger := s.ledger, trace }
  match outcome with
  | .continues => m
  | .halted => m.withTop (m.top.finish none)
  | .failed e => m.withTop (m.top.finish (some e))
  | .waits message k => m.spawn c message k

/-- Ends the top frame and hands its result to its parent. -/
def finalizeTop (c : Context) (m : Machine L) : Progress L :=
  let (result, s) := m.toLocal.finalize c m.isRoot
  let trace := m.trace.add (.frameEnd result.output result.gasUsed result.error)
  match m.below with
  | [] => .done { result, ledger := s.ledger, trace }
  | parent :: below =>
    .running { top := parent.resume s.frame.gas result, below, ledger := s.ledger, trace }

/-- One step of the top frame through its life. -/
def step (c : Context) (m : Machine L) : Progress L :=
  match m.top.phase with
  | .created => .running (m.prepare c)
  | .prepared => .running (m.enter c)
  | .running | .resuming => .running (m.runTop c)
  | .finalizing => m.finalizeTop c
  | .suspended | .done => .stuck

/-! ### Runs -/

/-- An execution that was cut off: it counts as a failure that used all gas. -/
def cutOff (m : Machine L) : Execution L where
  result := .failure .outOfGas (m.below.getLastD m.top).message.gasLimit
  ledger := m.ledger
  trace := m.trace

/-- Steps until the first frame is done, or the fuel is used up. -/
def runFor (c : Context) : Nat → Machine L → Execution L
  | 0, m => m.cutOff
  | fuel + 1, m =>
    match m.step c with
    | .running m => runFor c fuel m
    | .done e => e
    | .stuck => m.cutOff

/-- The machine at the start of a message. -/
def start (c : Context) (l : L) (t : Trace) (message : Message) : Machine L where
  top := .ofMessage message 0 c.config.stackLimit
  ledger := l
  trace := t

/-- Fuel for a message: four steps for the life of each frame, and since a frame is paid for by the
    one that asks for it, five for each unit of gas. -/
def fuel (message : Message) : Nat := 5 * message.gasLimit + 5

/-- Runs a message whose addresses are known. -/
def run (c : Context) (l : L) (t : Trace) (message : Message) : Execution L :=
  runFor c (fuel message) (start c l t message)

end Machine

/-! ### Transactions -/

section Transactions

variable {L : Type} [Ledger L]

/-- The message with another recipient, whose code runs. -/
def Message.withTarget (m : Message) (a : Address) : Message :=
  { m with recipient := a, codeAddress := a }

/-- The message with the address of the contract that it creates, if it creates one. -/
def Message.resolve (m : Message) (l : L) : Message :=
  match m.kind with
  | .create => m.withTarget (Address.ofCreate m.sender (Ledger.nonce l m.sender))
  | .create2 salt => m.withTarget (Address.ofCreate2 m.sender salt m.input)
  | _ => m

/-- The accounts that count as accessed from the start: sender, recipient, the precompiled
    contracts, and from Shanghai on the proposer of the block. -/
def prewarmed (c : Context) (m : Message) : List Address :=
  if c.fork.accessLists then
    [m.sender, m.recipient] ++ c.precompiles.addresses c.fork
      ++ (if .shanghai ≤ c.fork then [c.env.block.coinbase] else [])
  else []

/-- The result of a transaction: the refund is granted if it succeeded, up to the bound of the
    fork. -/
def ExecutionResult.withGrantedRefund (r : ExecutionResult) (fork : Fork) (gasLimit : Nat) :
    ExecutionResult :=
  { r with
    gasRefund :=
      if r.isSuccess then (Meter.full gasLimit r.gasRefund).grantedRefund r.gasUsed fork else 0 }

/-- Runs a message on a ledger.  One that is nested too deeply fails at once and uses no gas. -/
def execute (c : Context) (l : L) (message : Message) (observer : Observer := {}) :
    Execution L :=
  let t : Trace := { toObserver := observer }
  if c.config.maxCallDepth < message.depth then
    { result := .failure (.callDepthExceeded message.depth c.config.maxCallDepth) 0
      ledger := l
      trace := t }
  else
    let m := message.resolve l
    let l := (prewarmed c m).foldl (fun l a => (Ledger.accessAccount l a).2) l
    let e := Machine.run c l t m
    { e with result := e.result.withGrantedRefund c.fork m.gasLimit }

end Transactions

end Evm
