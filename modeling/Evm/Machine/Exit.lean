import Evm.Instruction.Effect
import Evm.Result

namespace Evm

/-!
# Leaving a frame

* `Effect.depositCode` — makes the output of a creation the code of the new account.
* `Local.settle` — keeps or undoes the changes of a frame.
* `Local.finalize` — all that happens at the end of a frame, and its result.
* `Frame.resume` — takes the result of a child into its parent.
-/

namespace Effect

variable {L : Type} [Ledger L]

/-- Code may not start with `0xef` from London on. -/
def requireUnreserved (c : Context) (code : Bytes) : Effect L Unit := do
  if .london ≤ c.fork ∧ code[0]? = some 0xef then throw .reservedCode

/-- Code has a greatest length from Spurious Dragon on. -/
def requireCodeSize (c : Context) (size : Nat) : Effect L Unit := do
  if .spuriousDragon ≤ c.fork ∧ c.config.maxCodeSize < size then
    throw (.codeSizeExceeded size c.config.maxCodeSize)

/-- Makes the output of a creation the code of the new account.  If the gas does not cover it the
    creation fails; on Frontier the account stays without code. -/
def depositCode (c : Context) : Effect L Unit := do
  let f ← frame
  let code := f.output
  modifyFrame ({ · with output := #[] })
  requireUnreserved c code
  requireCodeSize c code.size
  match f.gas.consume (Gas.codeDeposit code.size) with
  | .ok gas =>
    modifyFrame ({ · with gas })
    modifyLedger (Ledger.setCode · f.address code)
  | .error e => if .homestead ≤ c.fork then throw e

end Effect

namespace Local

variable {L : Type} [Ledger L]

/-- Runs an effect and tells how it failed, if it did. -/
def attempt (s : Local L) (e : Effect L Unit) : Option VmError × Local L :=
  match e.run s with
  | .ok _ s => (none, s)
  | .error err s => (some err, s)

/-- Keeps the changes of a frame that has not failed and undoes those of one that has.  A ledger
    that refuses makes the frame fail. -/
def settle (s : Local L) (error : Option VmError) : Option VmError × Local L :=
  match s.frame.snapshot with
  | none => (error, s)
  | some token =>
    let step := if error.isNone then Ledger.tryCommit token else Ledger.tryRollback token
    match step s.ledger with
    | .ok _ ledger => (error, { s with ledger })
    | .error e ledger => (error.or (some (.state e)), { s with ledger })

/-- Destroys the registered accounts. -/
def destroyRegistered (s : Local L) : Local L :=
  { s with ledger := s.frame.selfDestructs.foldl Ledger.destroyAccount s.ledger }

/-- The result of a frame, and the frame with the gas that is left to its parent. -/
def conclude (s : Local L) : Option VmError → ExecutionResult × Local L
  | none =>
    let f := s.frame
    ({ status := .success
       gasUsed := f.gas.used
       gasRefund := f.gas.refund
       output := f.output
       logs := f.logs
       selfDestructs := f.selfDestructs
       createdAddress := if f.message.isCreate then some f.address else none }, s)
  | some .revert => (.reverted s.frame.output s.frame.gas.used, s)
  | some e =>
    let gas := if e.consumesAllGas then s.frame.gas.consumeAll else s.frame.gas
    (.failure e gas.used, { s with frame := { s.frame with gas } })

/-- Ends a frame: deposits the code of a creation, destroys the registered accounts if this is the
    first frame of the transaction, settles the snapshot and draws the result. -/
def finalize (c : Context) (isRoot : Bool) (s : Local L) : ExecutionResult × Local L :=
  let (error, s) : Option VmError × Local L :=
    match s.frame.error with
    | some e => (some e, s)
    | none => if s.frame.message.isCreate then s.attempt (Effect.depositCode c) else (none, s)
  -- still under the snapshot of the first frame
  let s := if isRoot && error.isNone then s.destroyRegistered else s
  let (error, s) := s.settle error
  let (result, s) := s.conclude error
  (result, { s with frame := { s.frame with phase := .done, snapshot := none, error := none } })

end Local

/-! ### Back in the parent -/

namespace Frame

/-- Takes back unused gas, and from a successful child its refund counter and its effects. -/
def mergeChild (parent : Frame) (childGas : Meter) (result : ExecutionResult) : Frame :=
  let parent := { parent with gas := parent.gas.giveBack childGas.remaining }
  if result.isSuccess then
    { parent with gas := parent.gas.setRefund childGas.refund }.absorb result.logs
      result.selfDestructs
  else parent

/-- Delivers the result of a call: output into memory, one or zero onto the stack. -/
def deliverCall (parent : Frame) (result : ExecutionResult) (retOffset retLen : Nat) :
    EStateM VmError Frame Unit := do
  set { parent with continuation := none }
  let data := result.output.extract 0 (min retLen result.output.size)
  let memory ← liftExcept (parent.memory.write retOffset data)
  modify ({ · with memory, returnData := result.output })
  let stack ← liftExcept (parent.stack.push (.ofBool result.isSuccess))
  modify ({ · with stack })
where
  /-- A failure that keeps the frame. -/
  liftExcept {α : Type} : Except VmError α → EStateM VmError Frame α
    | .ok a => pure a
    | .error e => throw e

/-- Delivers the result of a creation: the new address or zero onto the stack. -/
def deliverCreate (parent : Frame) (result : ExecutionResult) : EStateM VmError Frame Unit := do
  let returnData := if result.isSuccess then #[] else result.output
  set { parent with continuation := none, returnData }
  let word : Word :=
    if result.isSuccess then result.createdAddress.elim 0 Address.toWord else 0
  match parent.stack.push word with
  | .ok stack => modify ({ · with stack })
  | .error e => throw e

/-- Delivers the result of a child as the parent asked for it. -/
def deliver (parent : Frame) (result : ExecutionResult) : EStateM VmError Frame Unit :=
  match parent.continuation with
  | some (.call retOffset retLen) => parent.deliverCall result retOffset retLen
  | some .create => parent.deliverCreate result
  | none => set parent

/-- Takes the result of a child into its parent, which then goes on.  If the result cannot be
    delivered the parent ends. -/
def resume (parent : Frame) (childGas : Meter) (result : ExecutionResult) : Frame :=
  let merged := parent.mergeChild childGas result
  match (merged.deliver result).run merged with
  | .ok _ f => { f with phase := .resuming }
  | .error e f => f.finish (some e)

end Frame

end Evm
