import Mathlib.Algebra.BigOperators.Group.Finset.Basic
import Mathlib.Data.FinEnum
import Evm.Proofs.Ledger.Session

namespace Evm

/-!
# The supply of ether

The supply is the sum of all balances, as a natural number, so that it cannot wrap.  Value that
moves leaves it as it is.  Only the destruction of an account can lower it, and no operation of an
execution raises it.

* `Ledger.supply` — the sum of all balances.
* `Ledger.supply_of_update` — the supply after one balance has changed.
* `Ledger.supply_transfer` — a transfer leaves the supply as it is, also from an account to itself.
* `Ledger.supply_handed`, `Ledger.supply_burned` — what becomes of the balance of an account that
  gives itself up.
* `Ledger.supply_foldl_destroyAccount_le` — the supply once accounts are destroyed.
-/

variable {L : Type} [Ledger L]

namespace Ledger

/-- The sum of all balances. -/
noncomputable def supply (l : L) : Nat := ∑ a : Address, (balance l a).toNat

/-- The supply reads the balances only. -/
theorem supply_congr {l l' : L} (h : balance l' = balance l) : supply l' = supply l := by
  unfold supply
  rw [h]

/-- Ledgers that answer the same have the same supply. -/
theorem supply_of_state {l l' : L} (h : state l' = state l) : supply l' = supply l :=
  supply_congr (congrArg LedgerState.balance h)

/-- Where one balance has changed, the supply has changed by as much. -/
theorem supply_of_update {l l' : L} {a : Address} {amount : Word}
    (h : balance l' = Function.update (balance l) a amount) :
    supply l' + (balance l a).toNat = supply l + amount.toNat := by
  have others : ∑ b ∈ Finset.univ.erase a, (balance l' b).toNat =
      ∑ b ∈ Finset.univ.erase a, (balance l b).toNat := by
    refine Finset.sum_congr rfl fun b hb => ?_
    rw [h, Function.update_of_ne (Finset.ne_of_mem_erase hb)]
  -- the account is taken out of both sums
  have after : supply l' = amount.toNat + ∑ b ∈ Finset.univ.erase a, (balance l' b).toNat := by
    unfold supply
    rw [← Finset.add_sum_erase _ _ (Finset.mem_univ a), h, Function.update_self]
  have before : supply l =
      (balance l a).toNat + ∑ b ∈ Finset.univ.erase a, (balance l b).toNat := by
    unfold supply
    rw [← Finset.add_sum_erase _ _ (Finset.mem_univ a)]
  omega

variable [LawfulLedger L]

/-- A balance that is set, as an update of them all. -/
theorem balance_setBalance (l : L) (a : Address) (amount : Word) :
    balance (setBalance l a amount) = Function.update (balance l) a amount :=
  congrArg LedgerState.balance (LawfulLedger.state_setBalance l a amount)

/-- The supply moves by what the balance moves. -/
theorem supply_setBalance (l : L) (a : Address) (amount : Word) :
    supply (setBalance l a amount) + (balance l a).toNat = supply l + amount.toNat :=
  supply_of_update (balance_setBalance l a amount)

/-! ### Moving value -/

/-- A transfer that goes through leaves the supply as it is: nothing is written if the account
    sends to itself, and otherwise one balance gains what the other loses. -/
theorem supply_transfer {l l' : L} {sender recipient : Address} {value : Word}
    (h : transfer l sender recipient value = .ok l') : supply l' = supply l := by
  rcases transfer_cases h with rfl | ⟨hne, hcovered, credited, hcredited, rfl⟩
  · rfl
  · have debit := supply_setBalance l sender (balance l sender - value)
    have credit := supply_setBalance (setBalance l sender (balance l sender - value)) recipient
      credited
    rw [balance_setBalance, Function.update_of_ne (Ne.symm hne)] at credit
    -- neither the difference nor the sum wraps
    have hdebited := BitVec.toNat_sub_of_le hcovered
    have hsum := Word.checkedAdd_eq_some_iff.1 hcredited
    have hle : value.toNat ≤ (balance l sender).toNat := hcovered
    omega

/-- An account that hands its balance to another one leaves the supply as it is. -/
theorem supply_handed {l l' : L} {a b : Address} (hne : b ≠ a)
    (h : addBalance l b (balance l a) = .ok l') : supply (setBalance l' a 0) = supply l := by
  obtain ⟨sum, hsum, rfl⟩ := addBalance_cases h
  have credit := supply_setBalance l b sum
  have debit := supply_setBalance (setBalance l b sum) a 0
  -- the beneficiary is another account, so what is taken is what was handed on
  rw [balance_setBalance, Function.update_of_ne (Ne.symm hne)] at debit
  have hexact := Word.checkedAdd_eq_some_iff.1 hsum
  have zero : (0 : Word).toNat = 0 := rfl
  omega

/-! ### Losing value -/

/-- What an account does not hand on is lost. -/
theorem supply_burned (l : L) (a : Address) :
    supply (setBalance l a 0) + (balance l a).toNat = supply l := by
  have debit := supply_setBalance l a 0
  have zero : (0 : Word).toNat = 0 := rfl
  omega

/-- A destroyed account takes its balance out of the supply. -/
theorem supply_destroyAccount (l : L) (a : Address) :
    supply (destroyAccount l a) + (balance l a).toNat = supply l := by
  have gone : balance (destroyAccount l a) = Function.update (balance l) a 0 :=
    congrArg LedgerState.balance (LawfulLedger.state_destroyAccount l a)
  have debit := supply_of_update gone
  have zero : (0 : Word).toNat = 0 := rfl
  omega

/-- Destroying accounts raises nothing. -/
theorem supply_foldl_destroyAccount_le (l : L) (addresses : List Address) :
    supply (addresses.foldl destroyAccount l) ≤ supply l := by
  induction addresses generalizing l with
  | nil => exact Nat.le_refl _
  | cons a rest ih =>
    have destroyed := supply_destroyAccount l a
    have rest := ih (destroyAccount l a)
    rw [List.foldl_cons]
    omega

end Ledger

end Evm
