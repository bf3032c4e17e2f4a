import Evm.ContractAddress
import Evm.Instruction.Effect

namespace Evm.Effect

/-!
# Entering a frame

* `prepareCall` — takes a snapshot, moves the value and loads the code.
* `prepareCreate` — raises the nonce of the creator, which a failed creation does not undo, and
  then takes a snapshot, sets up the new account, moves the value and loads the init code.
* `runPrecompile` — answers a call to a precompiled contract.
-/

variable {L : Type} [Ledger L]

/-- Takes a snapshot for the frame. -/
def takeSnapshot : Effect L Unit := do
  let token ← onLedger Ledger.snapshot
  modifyFrame ({ · with snapshot := some token })

/-- A refused transfer as the failure of a frame: that the sender is short does not tell who it
    is. -/
def transferError : StateError → VmError
  | .insufficientBalance _ required available => .insufficientBalance required available
  | e => .state e

/-- Moves the value of the frame's message. -/
def moveValue : Effect L Unit := do
  let m := (← frame).message
  tryLedger (Ledger.tryTransfer m.sender m.recipient m.value) transferError

/-- Prepares the frame of a call. -/
def prepareCall (c : Context) : Effect L Unit := do
  takeSnapshot
  let m := (← frame).message
  if m.kind.transfersValue then moveValue
  if !c.precompiles.contains c.fork m.codeAddress then
    let code := Ledger.code (← ledger) m.codeAddress
    modifyFrame (·.loadCode code)

/-- Raises the nonce of the creator. -/
def bumpNonce (creator : Address) : Effect L Unit := do
  let _ ← tryLedger (Ledger.tryIncNonce creator) fun _ => .nonceOverflow creator

/-- The nonce of a new contract: one from Spurious Dragon on. -/
def initialNonce (fork : Fork) : Nat := if .spuriousDragon ≤ fork then 1 else 0

/-- Prepares the frame of a creation. -/
def prepareCreate (c : Context) : Effect L Unit := do
  let m := (← frame).message
  -- before the snapshot: neither is undone when the creation fails
  bumpNonce m.sender
  accessAccount c.fork m.recipient 0
  takeSnapshot
  if Ledger.isOccupied (← ledger) m.recipient then throw (.addressCollision m.recipient)
  modifyLedger (Ledger.clearStorage · m.recipient)
  modifyLedger (Ledger.setNonce · m.recipient (initialNonce c.fork))
  moveValue
  modifyFrame (·.loadCode m.input)

/-- Prepares the frame of a message. -/
def prepare (c : Context) : Effect L Unit := do
  if (← frame).message.isCreate then prepareCreate c else prepareCall c

/-- Lets a precompiled contract answer the call.  Its price is paid by the frame. -/
def runPrecompile (p : Precompile) : Effect L Unit := do
  let f ← frame
  match p.run f.message.input f.gas.remaining with
  | .error e => throw (.precompileFailure e)
  | .ok out =>
    match f.gas.consume out.gasUsed with
    | .error _ => throw (.precompileFailure .outOfGas)
    | .ok gas => modifyFrame ({ · with gas, output := out.output })

end Evm.Effect
