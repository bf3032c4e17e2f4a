import Evm.Gas.StorageWrite
import Evm.Instruction.Effect

namespace Evm.Effect

/-!
# World state

Instructions that read or change accounts and slots, apart from calls and creations.

* `balance`, `extCodeSize`, `extCodeCopy`, `extCodeHash` — read another account.
* `sload`, `sstore` — read and write a slot of the frame's own account.
* `selfDestruct` — hands the balance over and registers the account for destruction.
-/

variable {L : Type} [Ledger L]

/-! ### Reading accounts -/

/-- Takes an address and pays for the first access to it. -/
def popAccessed (c : Context) : Effect L Address := do
  let a ← popAddress
  accessAccount c.fork a Gas.coldAccountSurcharge
  return a

/-- The balance of an account. -/
def balance (c : Context) : Effect L Unit := do
  let a ← popAccessed c
  push (Ledger.balance (← ledger) a)

/-- The balance of the frame's own account. -/
def selfBalance : Effect L Unit := do
  push (Ledger.balance (← ledger) (← frame).address)

/-- The length of an account's code. -/
def extCodeSize (c : Context) : Effect L Unit := do
  let a ← popAccessed c
  pushNat (Ledger.code (← ledger) a).size

/-- The code hash of an account; zero if the account is dead. -/
def extCodeHash (c : Context) : Effect L Unit := do
  let a ← popAccessed c
  let l ← ledger
  push (if Ledger.isDead l a then 0 else Ledger.codeHash l a)

/-! ### Slots -/

/-- Reads a slot. -/
def sload (c : Context) : Effect L Unit := do
  let key ← pop
  let slot : Slot := { owner := (← frame).address, key }
  accessSlot c.fork slot Gas.coldSlotSurcharge
  push (Ledger.storage (← ledger) slot)

/-- From Istanbul on a storage write needs more gas than a stipend. -/
def requireSentry (c : Context) : Effect L Unit := do
  if .istanbul ≤ c.fork ∧ (← frame).gas.remaining ≤ Gas.sstoreSentry then throw .outOfGas

/-- Writes a slot. -/
def sstore (c : Context) : Effect L Unit := do
  requireNonStatic
  requireSentry c
  let (key, value) ← pop2
  let slot : Slot := { owner := (← frame).address, key }
  accessSlot c.fork slot Gas.coldSlot
  let l ← ledger
  let price := Gas.storageWrite c.fork (Ledger.committedStorage l slot) (Ledger.storage l slot)
    value
  charge price.charge
  -- the counter stops at zero, so what it loses comes off before what it gains
  modifyFrame fun f =>
    { f with gas := (f.gas.subRefund price.refundSub).addRefund price.refundAdd }
  modifyLedger (Ledger.setStorage · slot value)

/-! ### Destruction -/

/-- Whether the beneficiary has to be paid for as a new account. -/
def beneficiaryIsNew (fork : Fork) (l : L) (beneficiary : Address) (balance : Word) : Bool :=
  if .spuriousDragon ≤ fork then Ledger.isDead l beneficiary && balance ≠ 0
  else if .tangerineWhistle ≤ fork then !Ledger.accountExists l beneficiary
  else false

/-- Before London, the first destruction of an account earns a refund.  The frames above count
    too: an account registered there has earned it already. -/
def refundDestruction (fork : Fork) (ancestors : List Frame) : Effect L Unit := do
  let f ← frame
  let registered := f.hasSelfDestructed f.address
    || ancestors.any (·.hasSelfDestructed f.address)
  if fork < .london ∧ !registered then
    modifyFrame fun f => { f with gas := f.gas.addRefund Gas.selfDestructRefund }

/-- Registers the frame's account for destruction and hands its balance over.  A balance handed
    to the account itself is lost. -/
def selfDestruct (c : Context) (ancestors : List Frame) : Effect L Unit := do
  requireNonStatic
  let beneficiary ← popAddress
  let a := (← frame).address
  accessAccount c.fork beneficiary Gas.coldAccount
  let l ← ledger
  let balance := Ledger.balance l a
  if beneficiaryIsNew c.fork l beneficiary balance then charge Gas.newAccount
  refundDestruction c.fork ancestors
  modifyFrame (·.registerSelfDestruct a)
  if beneficiary ≠ a then
    tryLedger (Ledger.tryAddBalance beneficiary balance) .state
  modifyLedger (Ledger.setBalance · a 0)

end Evm.Effect
