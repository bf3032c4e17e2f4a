import Mathlib.Tactic.Ring
import Evm.Gas.Schedule
import Evm.Gas.StorageWrite

namespace Evm.Gas

/-!
# Net metering does not depend on the path

Under net metering the writes to one slot cost, refunds included, a fixed amount each and one more
amount that only the values at the start and at the end of the series tell.  The second one is a
potential: each write settles the difference between the values before and after it.

* `NetPrices`, `netPrices` — the four schedules of forks with net metering.
* `StorageWrite.net`, `netOfWrites` — the balance of a write and of a series of writes.
* `NetPrices.worth` — the potential.
* `storageWrite_net` — one write settles the potential.
* `netOfWrites_eq` — what a series settles, from any value of the slot.
-/

/-! ### The four schedules -/

/-- What net metering prices a slot by. -/
structure NetPrices where
  /-- Paid by each write that does not change a slot for the first time. -/
  noop : Nat
  /-- Paid for changing a slot that was not empty. -/
  reset : Nat
  /-- Refunded for clearing a slot. -/
  clear : Nat
  deriving DecidableEq, Repr

/-- The prices of each fork with net metering. -/
def netPrices : Fork → NetPrices
  | .constantinople => ⟨200, 5000, 15000⟩
  | .istanbul => ⟨800, 5000, 15000⟩
  | .berlin => ⟨100, 2900, 15000⟩
  | _ => ⟨100, 2900, 4800⟩

variable {f : Fork}

/-- The schedule's price of a write without effect. -/
theorem sstoreNoop_eq (hnet : f.netMetering = true) : sstoreNoop f = (netPrices f).noop := by
  cases f <;> first | rfl | exact absurd hnet (by decide)

/-- The schedule's price of a reset. -/
theorem sstoreReset_eq (hnet : f.netMetering = true) : sstoreReset f = (netPrices f).reset := by
  cases f <;> first | rfl | exact absurd hnet (by decide)

/-- The schedule's refund for a clear. -/
theorem clearRefund_eq (hnet : f.netMetering = true) : clearRefund f = (netPrices f).clear := by
  cases f <;> first | rfl | exact absurd hnet (by decide)

/-- A write without effect is no dearer than a reset. -/
theorem noop_le_reset (f : Fork) : (netPrices f).noop ≤ (netPrices f).reset := by
  cases f <;> decide

/-- A write without effect is no dearer than a set. -/
theorem noop_le_sstoreSet (f : Fork) : (netPrices f).noop ≤ sstoreSet := by
  cases f <;> decide

/-! ### The balance of writes -/

/-- What a write costs once its refunds are settled. -/
def StorageWrite.net (w : StorageWrite) : Int := w.charge - w.refundAdd + w.refundSub

/-- What writing `values` in turn costs, refunds included, in a slot that held `start` when the
    transaction started and holds `current` now. -/
def netOfWrites (f : Fork) (start current : Word) : (values : List Word) → Int
  | [] => 0
  | new :: rest => (storageWrite f start current new).net + netOfWrites f start new rest

/-! ### The potential -/

/-- What a slot that held `start` has cost to be brought to `now`, beyond the price of writes that
    change nothing. -/
def NetPrices.worth (p : NetPrices) (start now : Word) : Int :=
  if now = start then 0
  else if start = 0 then sstoreSet - p.noop
  else if now = 0 then p.reset - p.noop - p.clear
  else p.reset - p.noop

/-- What the first change of a slot costs more than a later one. -/
def NetPrices.change (p : NetPrices) (start : Word) : Nat :=
  (if start = 0 then sstoreSet else p.reset) - p.noop

/-- The refund that stands while a slot is cleared. -/
def NetPrices.credit (p : NetPrices) (start now : Word) : Nat :=
  if start ≠ 0 ∧ now = 0 then p.clear else 0

/-- A slot at its start value is worth nothing. -/
theorem NetPrices.worth_self (p : NetPrices) (start : Word) : p.worth start start = 0 :=
  if_pos rfl

/-- A slot at its start value earns nothing. -/
theorem NetPrices.credit_self (p : NetPrices) (start : Word) : p.credit start start = 0 :=
  if_neg fun h => h.1 h.2

/-- Nothing is cut off when the price of a change is told. -/
theorem change_add_noop (f : Fork) (start : Word) :
    (netPrices f).change start + (netPrices f).noop =
      if start = 0 then sstoreSet else (netPrices f).reset := by
  have hreset := noop_le_reset f
  have hset := noop_le_sstoreSet f
  unfold NetPrices.change
  split <;> omega

/-- A changed slot is worth its change, less what clearing it gives back. -/
theorem worth_of_ne {start now : Word} (hnow : now ≠ start) :
    (netPrices f).worth start now =
      (netPrices f).change start - (netPrices f).credit start now := by
  have hchange := change_add_noop f start
  rw [NetPrices.worth, if_neg hnow, NetPrices.credit]
  -- only a slot that started full earns for being cleared, and a set costs more than a reset
  by_cases hstart : start = 0
  · rw [if_pos hstart] at hchange ⊢
    rw [if_neg fun h => h.1 hstart]
    omega
  · rw [if_neg hstart] at hchange ⊢
    by_cases hzero : now = 0
    · rw [if_pos hzero, if_pos ⟨hstart, hzero⟩]
      omega
    · rw [if_neg hzero, if_neg fun h => hzero h.2]
      omega

/-! ### One write -/

/-- Granted and taken credit come to what the slot's credit changes by. -/
theorem clearingCredit_settles (hnet : f.netMetering = true) (start : Word) {current new : Word}
    (hnew : new ≠ current) :
    (netPrices f).credit start current + (clearingCredit f start current new).1 =
      (netPrices f).credit start new + (clearingCredit f start current new).2 := by
  unfold NetPrices.credit clearingCredit
  rw [clearRefund_eq hnet]
  -- the credit is taken back when a cleared slot is filled, and given when a full one is cleared
  by_cases hstart : start = 0
  · rw [if_pos hstart, if_neg fun h => h.1 hstart, if_neg fun h => h.1 hstart]
  · rw [if_neg hstart]
    by_cases hcurrent : current = 0
    · have hzero : new ≠ 0 := fun h => hnew (h.trans hcurrent.symm)
      rw [if_pos hcurrent, if_pos ⟨hstart, hcurrent⟩, if_neg fun h => hzero h.2]
      omega
    · rw [if_neg hcurrent, if_neg fun h => hcurrent h.2]
      by_cases hzero : new = 0
      · rw [if_pos hzero, if_pos ⟨hstart, hzero⟩]
        omega
      · rw [if_neg hzero, if_neg fun h => hzero h.2]

/-- To put the starting value back gives back what the change cost. -/
theorem restoringCredit_start (hnet : f.netMetering = true) (start : Word) :
    restoringCredit f start start = (netPrices f).change start := by
  rw [restoringCredit, if_pos rfl, NetPrices.change, sstoreReset_eq hnet, sstoreNoop_eq hnet]

/-- The first change of a slot is paid in full. -/
theorem netWrite_first (hnet : f.netMetering = true) {start new : Word} (hnew : new ≠ start) :
    (netWrite f start start new).net = (netPrices f).noop + (netPrices f).worth start new := by
  have hchange := change_add_noop f start
  rw [worth_of_ne hnew, netWrite, if_neg hnew.symm, if_pos rfl, NetPrices.credit]
  by_cases hstart : start = 0
  · rw [if_pos hstart] at hchange ⊢
    rw [if_neg fun h => h.1 hstart]
    simp only [StorageWrite.net]
    omega
  · rw [if_neg hstart] at hchange ⊢
    rw [sstoreReset_eq hnet, clearRefund_eq hnet]
    simp only [StorageWrite.net, ne_eq, hstart, not_false_eq_true, true_and]
    omega

/-- Later changes pay for the write alone; what the slot is worth moves through the counter. -/
theorem netWrite_later (hnet : f.netMetering = true) {start current new : Word}
    (hcurrent : current ≠ start) (hnew : new ≠ current) :
    (netWrite f start current new).net =
      (netPrices f).noop + (netPrices f).worth start new - (netPrices f).worth start current := by
  have hcredit := clearingCredit_settles hnet start hnew
  rw [worth_of_ne hcurrent, netWrite, if_neg hnew.symm, if_neg hcurrent.symm]
  simp only [StorageWrite.net, sstoreNoop_eq hnet]
  by_cases hback : new = start
  · -- the slot is back where it was: the whole change is refunded
    subst hback
    rw [restoringCredit_start hnet, NetPrices.worth_self]
    rw [NetPrices.credit_self] at hcredit
    omega
  · rw [worth_of_ne hback, restoringCredit, if_neg (Ne.symm hback)]
    omega

/-- A write costs the price of a write that changes nothing, and the change in what its slot is
    worth. -/
theorem storageWrite_net (hnet : f.netMetering = true) (start current new : Word) :
    (storageWrite f start current new).net =
      (netPrices f).noop + (netPrices f).worth start new - (netPrices f).worth start current := by
  rw [storageWrite, if_pos hnet]
  by_cases hsame : new = current
  · subst hsame
    rw [netWrite, if_pos rfl, sstoreNoop_eq hnet]
    simp only [StorageWrite.net]
    omega
  · by_cases hfirst : current = start
    · subst hfirst
      rw [netWrite_first hnet hsame, NetPrices.worth_self]
      omega
    · exact netWrite_later hnet hfirst hsame

/-! ### A series of writes -/

/-- What a series of writes settles tells where it starts and ends, not what lies between. -/
theorem netOfWrites_eq (hnet : f.netMetering = true) (start current : Word) (values : List Word) :
    netOfWrites f start current values =
      values.length * (netPrices f).noop +
        (netPrices f).worth start (values.getLastD current) -
          (netPrices f).worth start current := by
  induction values generalizing current with
  | nil => simp [netOfWrites]
  | cons new rest ih =>
    have hwrite := storageWrite_net hnet start current new
    rw [netOfWrites, hwrite, ih new, List.getLastD_cons, List.length_cons]
    push_cast
    ring

/-- From the starting value on, `n` writes cost `n` times the price of a write that changes nothing,
    and what the last value is worth, whatever values came before it.  The prices that are
    differences are these as integers: nothing is cut off at zero. -/
theorem netOfWrites_start (hnet : f.netMetering = true) (start : Word) (values : List Word) :
    netOfWrites f start start values =
        values.length * (netPrices f).noop +
          (netPrices f).worth start (values.getLastD start) ∧
      (sstoreReset f : Int) = 5000 - (if .berlin ≤ f then coldSlot else 0) ∧
      (restoringCredit f start start : Int) =
        (if start = 0 then sstoreSet else sstoreReset f : Nat) - sstoreNoop f := by
  refine ⟨?_, ?_, ?_⟩
  · rw [netOfWrites_eq hnet, NetPrices.worth_self, sub_zero]
  · unfold sstoreReset
    split <;> rfl
  · have hchange := change_add_noop f start
    rw [restoringCredit_start hnet, sstoreReset_eq hnet, sstoreNoop_eq hnet]
    omega

/-- On Istanbul a slot that held 3 is cleared, restored, changed and cleared again: four writes that
    change nothing, and the one clearing that is left at the end. -/
theorem netOfWrites_start_istanbul :
    Fork.netMetering .istanbul = true ∧
      netOfWrites .istanbul 3 3 [0, 3, 9, 0] = 4 * 800 + (5000 - 800 - 15000) ∧
      (sstoreReset .istanbul : Int) = 5000 - 0 ∧
      (restoringCredit .istanbul 3 3 : Int) = 5000 - 800 :=
  ⟨rfl, netOfWrites_start rfl 3 [0, 3, 9, 0]⟩

end Evm.Gas
