import Evm.Ledger.Basic

namespace Evm

/-!
# The copying ledger

A ledger that owns its world.  A snapshot is a copy of the world and of the access list, and its
name is its place among the copies.

* `SnapshotLedger` — the world, the access list and the copies, with the operations of a ledger.
* `SnapshotLedger.rollback_snapshot` — a rollback right after its snapshot changes nothing.
-/

/-- A world of its own, with copies to go back to. -/
structure SnapshotLedger where
  world : World := {}
  access : AccessList := {}
  /-- For slots written in this transaction, the value at its start. -/
  startValues : Std.ExtTreeMap Slot Word := ∅
  /-- The open snapshots, oldest first. -/
  copies : Array (World × AccessList) := #[]

namespace SnapshotLedger

/-- A ledger on a world. -/
def ofWorld (w : World) : SnapshotLedger := { world := w }

/-- Starts a transaction: nothing is accessed or written yet, and no snapshot is open. -/
def beginTransaction (l : SnapshotLedger) : SnapshotLedger := ofWorld l.world

/-- Writes a slot and remembers what it held before the first write. -/
def setStorage (l : SnapshotLedger) (s : Slot) (value : Word) : SnapshotLedger :=
  { l with
    startValues := l.startValues.insertIfNew s (l.world.storage s)
    world := l.world.setStorage s value }

/-- The value before the first write, or the present one. -/
def committedStorage (l : SnapshotLedger) (s : Slot) : Word :=
  l.startValues.getD s (l.world.storage s)

/-- Drops a copy and all later ones. -/
def commit (l : SnapshotLedger) (token : Nat) : Except StateError SnapshotLedger :=
  if token < l.copies.size then .ok { l with copies := l.copies.take token }
  else .error (.unknownSnapshot token)

/-- Goes back to a copy and drops it and all later ones. -/
def rollback (l : SnapshotLedger) (token : Nat) : Except StateError SnapshotLedger :=
  match l.copies[token]? with
  | some (world, access) => .ok { l with world, access, copies := l.copies.take token }
  | none => .error (.unknownSnapshot token)

instance : Ledger SnapshotLedger where
  balance l a := (l.world.accounts[a]?).elim 0 Account.balance
  setBalance l a balance := { l with world := l.world.setBalance a balance }
  nonce l a := (l.world.accounts[a]?).elim 0 Account.nonce
  setNonce l a nonce := { l with world := l.world.setNonce a nonce }
  code l a := l.world.code a
  setCode l a code := { l with world := l.world.setCode a code }
  storage l s := l.world.storage s
  setStorage := setStorage
  committedStorage := committedStorage
  hasStorage l a := l.world.hasStorage a
  clearStorage l a := { l with world := l.world.clearStorage a }
  accountExists l a := l.world.contains a
  destroyAccount l a := { l with world := l.world.removeAccount a }
  accessAccount l a :=
    let (status, access) := l.access.touchAccount a
    (status, { l with access })
  accessSlot l s :=
    let (status, access) := l.access.touchSlot s
    (status, { l with access })
  snapshot l := (l.copies.size, { l with copies := l.copies.push (l.world, l.access) })
  tryCommit token := .ofChange (·.commit token)
  tryRollback token := .ofChange (·.rollback token)

/-- Rolling back at once changes nothing. -/
theorem rollback_snapshot (l : SnapshotLedger) :
    (Ledger.snapshot l).2.rollback (Ledger.snapshot l).1 = .ok l := by
  simp [Ledger.snapshot, rollback]

end SnapshotLedger

end Evm
