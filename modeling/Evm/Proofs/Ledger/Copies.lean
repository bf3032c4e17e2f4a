import Evm.Ledger.Snapshots
import Evm.Proofs.Ledger.Session

namespace Evm.SnapshotLedger

/-!
# The copying ledger is lawful

What the copying ledger answers after each of its operations, and that a snapshot settles.

* `field_modifyAccount`, `contains_modifyAccount` and their kin — a reader after a write.
* `Keeps` — a ledger with the same copies as another one.
* `rollback_of_keeps` — a rollback gives the ledger of the snapshot, apart from start values.
-/

/-! ### Answers -/

/-- Accesses are answered by the access list. -/
theorem warmth_eq (l : SnapshotLedger) : Ledger.warmth l = l.access.warmth := rfl

/-- One field of all records, with one record changed. -/
theorem field_modifyAccount {α : Type} (field : Option Account → α) (w : World) (a : Address)
    (f : Account → Account) :
    (fun b => field (w.modifyAccount a f).accounts[b]?) =
      Function.update (fun b => field w.accounts[b]?) a
        (field (some (f (w.accounts.getD a .plain)))) := by
  funext b
  rw [World.getElem?_modifyAccount, Function.update_apply]
  exact apply_ite field ..

/-- A field that a change leaves alone, also where it starts from a plain record. -/
theorem kept_modifyAccount {α : Type} (field : Account → α) {absent : α}
    (hplain : field .plain = absent) (w : World) (a : Address) (f : Account → Account)
    (hf : ∀ r, field (f r) = field r) :
    (fun b : Address => ((w.modifyAccount a f).accounts[b]?).elim absent field) =
      fun b => (w.accounts[b]?).elim absent field := by
  refine (field_modifyAccount (·.elim absent field) w a f).trans ?_
  have same : (some (f (w.accounts.getD a .plain))).elim absent field =
      (w.accounts[a]?).elim absent field := by
    rw [Option.elim_some, hf, Std.ExtTreeMap.getD_eq_getD_getElem?]
    cases w.accounts[a]? with
    | none => exact hplain
    | some r => rfl
  rw [same]
  exact Function.update_eq_self a _

/-- An account that is changed is there. -/
theorem contains_modifyAccount (w : World) (a : Address) (f : Account → Account) :
    (w.modifyAccount a f).contains = Function.update w.contains a true := by
  funext b
  rw [Function.update_apply]
  simp only [World.contains, World.modifyAccount, World.setAccount,
    Std.ExtTreeMap.contains_insert]
  by_cases h : b = a
  · simp [h]
  · simp [h, Ne.symm h]

/-- A balance is answered as it was set. -/
theorem state_setBalance (l : SnapshotLedger) (a : Address) (balance : Word) :
    Ledger.state (Ledger.setBalance l a balance) = (Ledger.state l).setBalance a balance :=
  LedgerState.ext (field_modifyAccount (·.elim 0 Account.balance) l.world a _)
    (kept_modifyAccount Account.nonce rfl l.world a _ fun _ => rfl)
    rfl (contains_modifyAccount l.world a _) rfl

/-- A nonce is answered as it was set. -/
theorem state_setNonce (l : SnapshotLedger) (a : Address) (nonce : Nat) :
    Ledger.state (Ledger.setNonce l a nonce) = (Ledger.state l).setNonce a nonce :=
  LedgerState.ext (kept_modifyAccount Account.balance rfl l.world a _ fun _ => rfl)
    (field_modifyAccount (·.elim 0 Account.nonce) l.world a _)
    rfl (contains_modifyAccount l.world a _) rfl

/-- Code is answered as it was set. -/
theorem state_setCode (l : SnapshotLedger) (a : Address) (code : Bytes) :
    Ledger.state (Ledger.setCode l a code) = (Ledger.state l).setCode a code := by
  let f (r : Account) : Account := { r with codeHash := Evm.codeHash code }
  refine LedgerState.ext (kept_modifyAccount Account.balance rfl l.world a f fun _ => rfl)
    (kept_modifyAccount Account.nonce rfl l.world a f fun _ => rfl)
    (funext fun b => ?_) (contains_modifyAccount l.world a f) rfl
  refine (World.code_setCode l.world a b code).trans ?_
  exact (Function.update_apply ..).symm

/-- A slot is answered as it was written. -/
theorem state_setStorage (l : SnapshotLedger) (s : Slot) (value : Word) :
    Ledger.state (Ledger.setStorage l s value) = (Ledger.state l).setStorage s value := by
  refine LedgerState.ext rfl rfl rfl rfl (funext fun t => ?_)
  refine (World.storage_setStorage l.world s t value).trans ?_
  exact (Function.update_apply ..).symm

/-- An account whose storage is emptied has none. -/
theorem state_clearStorage (l : SnapshotLedger) (a : Address) :
    Ledger.state (Ledger.clearStorage l a) = (Ledger.state l).clearStorage a :=
  LedgerState.ext rfl rfl rfl rfl (funext (World.storage_clearStorage l.world a))

/-- A new contract has no storage, and its nonce. -/
theorem state_reset (l : SnapshotLedger) (a : Address) (nonce : Nat) :
    Ledger.state (Ledger.setNonce (Ledger.clearStorage l a) a nonce) =
      (Ledger.state l).reset a nonce := by
  rw [state_setNonce, state_clearStorage]
  rfl

/-- One field of all records, with one record removed. -/
theorem field_removeAccount {α : Type} (field : Option Account → α) (w : World) (a : Address) :
    (fun b => field (w.removeAccount a).accounts[b]?) =
      Function.update (fun b => field w.accounts[b]?) a (field none) := by
  funext b
  have hb : (w.removeAccount a).accounts[b]? = if b = a then none else w.accounts[b]? := by
    refine Std.ExtTreeMap.getElem?_erase.trans ?_
    simp only [Std.LawfulEqCmp.compare_eq_iff_eq, @eq_comm _ a b]
  rw [hb, Function.update_apply]
  exact apply_ite field ..

/-- An account that is removed has no code. -/
theorem code_removeAccount (w : World) (a : Address) :
    (w.removeAccount a).code = Function.update w.code a #[] := by
  funext b
  rw [Function.update_apply]
  refine Std.ExtTreeMap.getD_erase.trans ?_
  simp only [Std.LawfulEqCmp.compare_eq_iff_eq, @eq_comm _ a b]
  rfl

/-- It is no longer there. -/
theorem contains_removeAccount (w : World) (a : Address) :
    (w.removeAccount a).contains = Function.update w.contains a false := by
  have hcontains (w : World) : w.contains = fun b => (w.accounts[b]?).isSome :=
    funext fun b => Std.ExtTreeMap.contains_eq_isSome_getElem?
  rw [hcontains, hcontains]
  exact field_removeAccount Option.isSome w a

/-- Nothing is answered of an account that is destroyed. -/
theorem state_destroyAccount (l : SnapshotLedger) (a : Address) :
    Ledger.state (Ledger.destroyAccount l a) = (Ledger.state l).destroyAccount a :=
  LedgerState.ext (field_removeAccount (·.elim 0 Account.balance) l.world a)
    (field_removeAccount (·.elim 0 Account.nonce) l.world a)
    (code_removeAccount l.world a) (contains_removeAccount l.world a)
    (funext (World.storage_clearStorage l.world a))

/-! ### Sessions -/

/-- The same copies are kept. -/
def Keeps (l l' : SnapshotLedger) : Prop := l'.copies = l.copies

/-- Everything but start values comes back. -/
theorem rollback_of_keeps {l l' : SnapshotLedger} (h : Keeps (Ledger.snapshot l).2 l') :
    Ledger.rollback l' (Ledger.snapshot l).1 = .ok { l with startValues := l'.startValues } := by
  have hcopies : l'.copies = l.copies.push (l.world, l.access) := h
  simp [rollback, Ledger.snapshot, hcopies]

/-- The latest copy is dropped when its snapshot is kept. -/
theorem commit_of_keeps {l l' : SnapshotLedger} (h : Keeps (Ledger.snapshot l).2 l') :
    Ledger.commit l' (Ledger.snapshot l).1 = .ok { l' with copies := l.copies } := by
  have hcopies : l'.copies = l.copies.push (l.world, l.access) := h
  simp [commit, Ledger.snapshot, hcopies]

/-- Copies stay until their snapshots are settled. -/
theorem closedUnderSessions_keeps : Ledger.ClosedUnderSessions Keeps where
  refl _ := rfl
  trans h k := Eq.trans k h
  setBalance _ _ _ := rfl
  setNonce _ _ _ := rfl
  setCode _ _ _ := rfl
  setStorage _ _ _ := rfl
  clearStorage _ _ := rfl
  destroyAccount _ _ := rfl
  accessAccount _ _ := rfl
  accessSlot _ _ := rfl
  commit h := ⟨_, commit_of_keeps h, rfl⟩
  rollback h := ⟨_, rollback_of_keeps h, rfl⟩

/-- So any session keeps the copies from before. -/
theorem keeps_of_history {l l' : SnapshotLedger} (h : Ledger.History l l') : Keeps l l' :=
  closedUnderSessions_keeps.of_history h

/-- The copying ledger is lawful. -/
instance : LawfulLedger SnapshotLedger where
  state_setBalance := state_setBalance
  state_setNonce := state_setNonce
  state_setCode := state_setCode
  state_setStorage := state_setStorage
  state_reset := state_reset
  state_destroyAccount := state_destroyAccount
  state_accessAccount _ _ := rfl
  state_accessSlot _ _ := rfl
  warmth_setBalance _ _ _ := rfl
  warmth_setNonce _ _ _ := rfl
  warmth_setCode _ _ _ := rfl
  warmth_setStorage _ _ _ := rfl
  warmth_clearStorage _ _ := rfl
  warmth_destroyAccount _ _ := rfl
  warmth_accessAccount l a := AccessList.warmth_touchAccount l.access a
  warmth_accessSlot l s := AccessList.warmth_touchSlot l.access s
  state_snapshot _ := rfl
  warmth_snapshot _ := rfl
  commit_history h := ⟨_, commit_of_keeps (keeps_of_history h), rfl, rfl⟩
  rollback_history h := ⟨_, rollback_of_keeps (keeps_of_history h), rfl, rfl⟩

end Evm.SnapshotLedger
