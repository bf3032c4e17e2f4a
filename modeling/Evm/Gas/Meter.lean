import Evm.Counter
import Evm.Error
import Evm.Fork

namespace Evm

/-!
# Gas meters

Each frame has one.  What is left never exceeds the limit, and a charge that cannot be paid
changes nothing.

* `Meter.consume`, `Meter.giveBack` — spend gas, and take back what a child did not spend.
* `Meter.addRefund`, `Meter.subRefund`, `Meter.setRefund` — the refund counter, which a child
  frame takes over from its parent and hands back if it succeeds.
* `Meter.grantedRefund` — the part of the counter that a fork pays out.
* `Meter.spend` — the meter after gas is spent that is there.
* `Meter.consume_eq_ok_iff` — a charge is exact or refused.
-/

/-- The gas of a frame. -/
structure Meter where
  /-- What the frame was given. -/
  limit : Nat
  /-- What is left. -/
  remaining : Nat
  /-- The refund counter. -/
  refund : Nat
  /-- No more is left than was given. -/
  remaining_le : remaining ≤ limit
  deriving DecidableEq

namespace Meter

/-- A full meter that starts from a refund counter. -/
def full (limit : Nat) (refund : Nat := 0) : Meter where
  limit := limit
  remaining := limit
  refund := refund
  remaining_le := Nat.le_refl _

/-- What has been spent. -/
def used (m : Meter) : Nat := m.limit - m.remaining

/-- Spends gas if there is enough. -/
def consume (m : Meter) (amount : Nat) : Except VmError Meter :=
  if amount ≤ m.remaining then
    .ok { m with
      remaining := m.remaining - amount
      remaining_le := Nat.le_trans (Nat.sub_le _ _) m.remaining_le }
  else .error .outOfGas

/-- The meter after gas is spent that is there. -/
def spend (m : Meter) (amount : Nat) : Meter where
  limit := m.limit
  remaining := m.remaining - amount
  refund := m.refund
  remaining_le := Nat.le_trans (Nat.sub_le _ _) m.remaining_le

/-- Spends all that is left. -/
def consumeAll (m : Meter) : Meter where
  limit := m.limit
  remaining := 0
  refund := m.refund
  remaining_le := Nat.zero_le _

/-- Takes back gas, up to the limit. -/
def giveBack (m : Meter) (amount : Nat) : Meter where
  limit := m.limit
  remaining := min (m.remaining + amount) m.limit
  refund := m.refund
  remaining_le := Nat.min_le_right _ _

/-- Adds to the refund counter. -/
def addRefund (m : Meter) (amount : Nat) : Meter :=
  { m with refund := Counter.add m.refund amount }

/-- Takes from the refund counter, down to zero. -/
def subRefund (m : Meter) (amount : Nat) : Meter := { m with refund := m.refund - amount }

/-- Replaces the refund counter. -/
def setRefund (m : Meter) (refund : Nat) : Meter := { m with refund := refund }

/-- The refund that is paid out, at most a fixed fraction of the gas used. -/
def grantedRefund (m : Meter) (gasUsed : Nat) (fork : Fork) : Nat :=
  min m.refund (gasUsed / fork.refundQuotient)

/-- A charge goes through exactly if it is covered, and then it is all that changes. -/
theorem consume_eq_ok_iff {m m' : Meter} {amount : Nat} :
    m.consume amount = .ok m' ↔
      m'.limit = m.limit ∧ m'.remaining + amount = m.remaining ∧ m'.refund = m.refund := by
  unfold consume
  constructor
  · intro h
    split at h
    · cases h
      exact ⟨rfl, Nat.sub_add_cancel ‹_›, rfl⟩
    · cases h
  · intro ⟨hlimit, hremaining, hrefund⟩
    rw [if_pos (by omega)]
    cases m'
    simp only [Except.ok.injEq, Meter.mk.injEq]
    exact ⟨hlimit.symm, by simp only at hremaining; omega, hrefund.symm⟩

/-- A charge fails exactly if it is not covered, and always for the same cause. -/
theorem consume_eq_error_iff {m : Meter} {amount : Nat} {e : VmError} :
    m.consume amount = .error e ↔ e = .outOfGas ∧ m.remaining < amount := by
  unfold consume
  constructor
  · intro h
    split at h
    · cases h
    · cases h
      exact ⟨rfl, Nat.lt_of_not_le ‹_›⟩
  · rintro ⟨rfl, hshort⟩
    exact if_neg (Nat.not_le.2 hshort)

/-- Two payments are one. -/
theorem spend_spend (m : Meter) (a b : Nat) : (m.spend a).spend b = m.spend (a + b) := by
  simp only [spend, Nat.sub_sub]

/-- Gas that is there can be spent. -/
theorem consume_of_le {m : Meter} {a : Nat} (h : a ≤ m.remaining) :
    m.consume a = .ok (m.spend a) := if_pos h

/-- So can gas that is there after some is spent. -/
theorem consume_spend {m : Meter} {a b : Nat} (h : a + b ≤ m.remaining) :
    (m.spend a).consume b = .ok (m.spend (a + b)) := by
  rw [consume_of_le (show b ≤ m.remaining - a by omega), spend_spend]

/-- What was used was in the limit. -/
theorem used_le_limit (m : Meter) : m.used ≤ m.limit := Nat.sub_le _ _

/-- What was used and what remains is the limit. -/
theorem used_add_remaining (m : Meter) : m.used + m.remaining = m.limit :=
  Nat.sub_add_cancel m.remaining_le

end Meter

end Evm
