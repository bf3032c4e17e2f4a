import Evm.Ledger.Journaled
import Evm.Ledger.Snapshots

namespace Evm

/-!
# What a refusal leaves behind

A ledger may be left in any way by a step that it refuses, and it may have its own way of doing what
others put together from reads and writes.  What is proved of every ledger holds all the same; what
needs the usual way asks for it here.

* `LedgerStep.IsAtomic` — a step that changes nothing when it is refused.
* `LedgerStep.IsAtomic.eq_after` — such a step is known by what comes of it if it is not refused.
* `StandardLedger` — all steps are atomic, and the operations that can be put together from others
  are put together from them.
* `Ledger.transfer_eq`, `Ledger.addBalance_eq` and their kin — these operations spelled out.
-/

namespace LedgerStep

variable {L α : Type} {step : LedgerStep L α} {l l' : L}

/-- The step changes nothing when it is refused. -/
def IsAtomic (step : LedgerStep L α) : Prop :=
  ∀ ⦃l l' : L⦄ ⦃e : StateError⦄, step l = .error e l' → l' = l

/-- The ledger after a step is the one that the step leads to. -/
theorem after_eq_ok_iff {step : LedgerStep L Unit} : step.after l = .ok l' ↔ step l = .ok () l' := by
  unfold after
  cases step l with
  | ok u k => simp
  | error e k => simp

/-- There is no ledger after a step that is refused. -/
theorem after_eq_error_iff {step : LedgerStep L Unit} {e : StateError} :
    step.after l = .error e ↔ ∃ k, step l = .error e k := by
  unfold after
  cases step l with
  | ok u k => simp
  | error f k => simp

/-- A change that a ledger may refuse, taken as a step. -/
@[simp] theorem after_ofChange (f : L → Except StateError L) (l : L) :
    (ofChange f).after l = f l := by
  unfold after ofChange
  cases f l with
  | ok k => rfl
  | error e => rfl

/-- Taken as a step, a change is atomic. -/
theorem isAtomic_ofChange (f : L → Except StateError L) : (ofChange f).IsAtomic := by
  intro l l' e h
  unfold ofChange at h
  cases hf : f l with
  | ok k =>
    rw [hf] at h
    cases h
  | error e' =>
    rw [hf] at h
    cases h
    rfl

/-- An atomic step that tells nothing is known by the ledger after it. -/
theorem IsAtomic.eq_after {step : LedgerStep L Unit} (h : step.IsAtomic) (l : L) :
    step l = match step.after l with
      | .ok l' => .ok () l'
      | .error e => .error e l := by
  cases ha : step.after l with
  | ok l' => exact after_eq_ok_iff.1 ha
  | error e =>
    obtain ⟨k, hk⟩ := after_eq_error_iff.1 ha
    rw [hk, h hk]

end LedgerStep

/-- A ledger with no ways of its own: what it refuses changes nothing, and what can be done by reads
    and writes is done by them. -/
class StandardLedger (L : Type) [Ledger L] : Prop where
  isAtomic_tryCommit (token : Nat) : (Ledger.tryCommit token : LedgerStep L Unit).IsAtomic
  isAtomic_tryRollback (token : Nat) : (Ledger.tryRollback token : LedgerStep L Unit).IsAtomic
  tryAddBalance_eq (a : Address) (amount : Word) (l : L) :
    Ledger.tryAddBalance a amount l =
      match (Ledger.balance l a).checkedAdd amount with
      | some sum => .ok () (Ledger.setBalance l a sum)
      | none => .error (.balanceOverflow a) l
  trySubBalance_eq (a : Address) (amount : Word) (l : L) :
    Ledger.trySubBalance a amount l =
      let available := Ledger.balance l a
      if amount ≤ available then .ok () (Ledger.setBalance l a (available - amount))
      else .error (.insufficientBalance a amount available) l
  tryIncNonce_eq (a : Address) (l : L) :
    Ledger.tryIncNonce a l =
      let n := Ledger.nonce l a
      if n < Counter.limit then .ok n (Ledger.setNonce l a (n + 1))
      else .error (.nonceOverflow a) l
  tryTransfer_eq (sender recipient : Address) (value : Word) (l : L) :
    Ledger.tryTransfer sender recipient value l =
      if value = 0 then .ok () l
      else
        let available := Ledger.balance l sender
        if available < value then .error (.insufficientBalance sender value available) l
        else if sender = recipient then .ok () l
        else
          match (Ledger.balance l recipient).checkedAdd value with
          | some credited =>
            .ok () (Ledger.setBalance (Ledger.setBalance l sender (available - value)) recipient
              credited)
          | none => .error (.balanceOverflow recipient) l
  isEmpty_eq (l : L) (a : Address) :
    Ledger.isEmpty l a =
      (Ledger.nonce l a = 0 && Ledger.balance l a = 0 && (Ledger.code l a).isEmpty)
  isDead_eq (l : L) (a : Address) :
    Ledger.isDead l a = (!Ledger.accountExists l a || Ledger.isEmpty l a)
  isOccupied_eq (l : L) (a : Address) :
    Ledger.isOccupied l a =
      (Ledger.nonce l a ≠ 0 || !(Ledger.code l a).isEmpty || Ledger.hasStorage l a)

namespace Ledger

variable {L : Type} [Ledger L] [StandardLedger L]

/-! ### The operations that are put together -/

/-- Adding to a balance is a write of the sum, or refused. -/
theorem addBalance_eq (l : L) (a : Address) (amount : Word) :
    addBalance l a amount =
      match (balance l a).checkedAdd amount with
      | some sum => .ok (setBalance l a sum)
      | none => .error (.balanceOverflow a) := by
  unfold addBalance LedgerStep.after
  rw [StandardLedger.tryAddBalance_eq]
  cases (balance l a).checkedAdd amount with
  | some sum => rfl
  | none => rfl

/-- Taking from a balance is a write of the difference, or refused. -/
theorem subBalance_eq (l : L) (a : Address) (amount : Word) :
    subBalance l a amount =
      if amount ≤ balance l a then .ok (setBalance l a (balance l a - amount))
      else .error (.insufficientBalance a amount (balance l a)) := by
  unfold subBalance LedgerStep.after
  rw [StandardLedger.trySubBalance_eq]
  by_cases h : amount ≤ balance l a
  · rw [if_pos h, if_pos h]
  · rw [if_neg h, if_neg h]

/-- Raising a nonce is a write of the next one, or refused. -/
theorem incNonce_eq (l : L) (a : Address) :
    incNonce l a =
      if nonce l a < Counter.limit then .ok (nonce l a, setNonce l a (nonce l a + 1))
      else .error (.nonceOverflow a) := by
  unfold incNonce LedgerStep.outcome
  rw [StandardLedger.tryIncNonce_eq]
  by_cases h : nonce l a < Counter.limit
  · rw [if_pos h, if_pos h]
  · rw [if_neg h, if_neg h]

/-- A transfer writes both balances, or none if there is nothing to move, or is refused. -/
theorem transfer_eq (l : L) (sender recipient : Address) (value : Word) :
    transfer l sender recipient value =
      if value = 0 then .ok l
      else if balance l sender < value then
        .error (.insufficientBalance sender value (balance l sender))
      else if sender = recipient then .ok l
      else
        match (balance l recipient).checkedAdd value with
        | some credited =>
          .ok (setBalance (setBalance l sender (balance l sender - value)) recipient credited)
        | none => .error (.balanceOverflow recipient) := by
  unfold transfer LedgerStep.after
  rw [StandardLedger.tryTransfer_eq]
  -- the definition makes the checks one after another, and so does the statement
  by_cases hnothing : value = 0
  · rw [if_pos hnothing, if_pos hnothing]
  · by_cases hshort : balance l sender < value
    · rw [if_neg hnothing, if_neg hnothing, if_pos hshort, if_pos hshort]
    · by_cases hself : sender = recipient
      · rw [if_neg hnothing, if_neg hnothing, if_neg hshort, if_neg hshort, if_pos hself,
          if_pos hself]
      · rw [if_neg hnothing, if_neg hnothing, if_neg hshort, if_neg hshort, if_neg hself,
          if_neg hself]
        cases (balance l recipient).checkedAdd value with
        | some credited => rfl
        | none => rfl

/-! ### Refusals -/

/-- Money that does not fit leaves the ledger as it was. -/
theorem isAtomic_tryAddBalance (a : Address) (amount : Word) :
    (tryAddBalance a amount : LedgerStep L Unit).IsAtomic := by
  intro l l' e h
  rw [StandardLedger.tryAddBalance_eq] at h
  split at h <;> cases h
  rfl

/-- So does a transfer that is refused. -/
theorem isAtomic_tryTransfer (sender recipient : Address) (value : Word) :
    (tryTransfer sender recipient value : LedgerStep L Unit).IsAtomic := by
  intro l l' e h
  rw [StandardLedger.tryTransfer_eq] at h
  dsimp only at h
  -- a transfer that fails has not written anything, for both accounts are checked first
  split at h
  · cases h
  · split at h
    · cases h
      rfl
    · split at h
      · cases h
      · split at h <;> cases h
        rfl

/-- A step of such a ledger is known by the ledger after it: keeping a snapshot, -/
theorem tryCommit_eq (token : Nat) (l : L) :
    tryCommit token l = match commit l token with
      | .ok l' => .ok () l'
      | .error e => .error e l :=
  (StandardLedger.isAtomic_tryCommit token).eq_after l

/-- undoing one, -/
theorem tryRollback_eq (token : Nat) (l : L) :
    tryRollback token l = match rollback l token with
      | .ok l' => .ok () l'
      | .error e => .error e l :=
  (StandardLedger.isAtomic_tryRollback token).eq_after l

/-- adding to a balance, -/
theorem tryAddBalance_eq (a : Address) (amount : Word) (l : L) :
    tryAddBalance a amount l = match addBalance l a amount with
      | .ok l' => .ok () l'
      | .error e => .error e l :=
  (isAtomic_tryAddBalance a amount).eq_after l

/-- and moving value. -/
theorem tryTransfer_eq (sender recipient : Address) (value : Word) (l : L) :
    tryTransfer sender recipient value l = match transfer l sender recipient value with
      | .ok l' => .ok () l'
      | .error e => .error e l :=
  (isAtomic_tryTransfer sender recipient value).eq_after l

end Ledger

/-! ### The two ledgers -/

/-- The journaled ledger takes all defaults. -/
instance {S : Type} [WorldSource S] : StandardLedger (JournaledLedger S) where
  isAtomic_tryCommit token := LedgerStep.isAtomic_ofChange (JournaledLedger.commit · token)
  isAtomic_tryRollback token := LedgerStep.isAtomic_ofChange (JournaledLedger.rollback · token)
  tryAddBalance_eq _ _ _ := rfl
  trySubBalance_eq _ _ _ := rfl
  tryIncNonce_eq _ _ := rfl
  tryTransfer_eq _ _ _ _ := rfl
  isEmpty_eq _ _ := rfl
  isDead_eq _ _ := rfl
  isOccupied_eq _ _ := rfl

namespace JournaledLedger

variable {S : Type} [WorldSource S]

@[simp] theorem ledger_commit (l : JournaledLedger S) (token : Nat) :
    Ledger.commit l token = l.commit token := LedgerStep.after_ofChange _ l

@[simp] theorem ledger_rollback (l : JournaledLedger S) (token : Nat) :
    Ledger.rollback l token = l.rollback token := LedgerStep.after_ofChange _ l

end JournaledLedger

/-- So does the copying ledger. -/
instance : StandardLedger SnapshotLedger where
  isAtomic_tryCommit token := LedgerStep.isAtomic_ofChange (SnapshotLedger.commit · token)
  isAtomic_tryRollback token := LedgerStep.isAtomic_ofChange (SnapshotLedger.rollback · token)
  tryAddBalance_eq _ _ _ := rfl
  trySubBalance_eq _ _ _ := rfl
  tryIncNonce_eq _ _ := rfl
  tryTransfer_eq _ _ _ _ := rfl
  isEmpty_eq _ _ := rfl
  isDead_eq _ _ := rfl
  isOccupied_eq _ _ := rfl

namespace SnapshotLedger

@[simp] theorem ledger_commit (l : SnapshotLedger) (token : Nat) :
    Ledger.commit l token = l.commit token := LedgerStep.after_ofChange _ l

@[simp] theorem ledger_rollback (l : SnapshotLedger) (token : Nat) :
    Ledger.rollback l token = l.rollback token := LedgerStep.after_ofChange _ l

end SnapshotLedger

end Evm
