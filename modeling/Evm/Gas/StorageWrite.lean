import Evm.Fork
import Evm.Word.Basic

namespace Evm.Gas

/-!
# The price of a storage write

A write is priced by three values of the slot: at the start of the transaction, now, and after
the write.  Without net metering only the last two count.

* `StorageWrite` — the charge and what happens to the refund counter.
* `storageWrite` — the price on a fork.
-/

/-- What a storage write costs, apart from a cold slot. -/
structure StorageWrite where
  /-- Gas to pay. -/
  charge : Nat
  /-- What the refund counter gains. -/
  refundAdd : Nat := 0
  /-- What the refund counter loses first. -/
  refundSub : Nat := 0
  deriving DecidableEq, Repr

/-- Filling an empty slot. -/
abbrev sstoreSet : Nat := 20000

/-- The refund for clearing a slot. -/
def clearRefund (f : Fork) : Nat := if .london ≤ f then 4800 else 15000

/-- A write that changes nothing, or changes a slot once more, under net metering. -/
def sstoreNoop (f : Fork) : Nat :=
  if f = .constantinople then 200 else if .berlin ≤ f then 100 else 800

/-- Changing a slot that is not empty; from Berlin on the cold part is charged separately. -/
def sstoreReset (f : Fork) : Nat := if .berlin ≤ f then 5000 - 2100 else 5000

/-- The price without net metering: filling an empty slot is dear, clearing one is refunded. -/
def grossWrite (f : Fork) (current new : Word) : StorageWrite where
  charge := if current = 0 ∧ new ≠ 0 then sstoreSet else 5000
  refundAdd := if current ≠ 0 ∧ new = 0 then clearRefund f else 0

/-- The refund that a write takes back or grants on a slot that was already changed: the slot is
    no longer cleared, or it is cleared now. -/
def clearingCredit (f : Fork) (start current new : Word) : Nat × Nat :=
  if start = 0 then (0, 0)
  else if current = 0 then (0, clearRefund f)
  else if new = 0 then (clearRefund f, 0)
  else (0, 0)

/-- The refund for putting the starting value back. -/
def restoringCredit (f : Fork) (start new : Word) : Nat :=
  if start = new then
    (if start = 0 then sstoreSet else sstoreReset f) - sstoreNoop f
  else 0

/-- The price under net metering. -/
def netWrite (f : Fork) (start current new : Word) : StorageWrite :=
  if current = new then { charge := sstoreNoop f }
  else if start = current then
    if start = 0 then { charge := sstoreSet }
    else
      { charge := sstoreReset f
        refundAdd := if new = 0 then clearRefund f else 0 }
  else
    let (granted, taken) := clearingCredit f start current new
    { charge := sstoreNoop f
      refundAdd := granted + restoringCredit f start new
      refundSub := taken }

/-- The price of writing `new` over `current` in a slot that held `start` when the
    transaction started. -/
def storageWrite (f : Fork) (start current new : Word) : StorageWrite :=
  if f.netMetering then netWrite f start current new else grossWrite f current new

end Evm.Gas
