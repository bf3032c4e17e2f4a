import Evm.Proofs.Ledger.Journal

namespace Evm.JournaledLedger

/-!
# The journaled ledger is lawful

What the journaled ledger answers after each of its operations, and that a snapshot settles.

* `load_putAccount`, `storage_putAccount` and their kin — a reader after a write.
* `state_setBalance`, `state_destroyAccount` and their kin — all answers after a write.
* `rollback_undoes_session` — after any session a rollback succeeds, and every answer, the changes
  and the open snapshots are those of the snapshot.
-/

variable {S : Type} [WorldSource S]

/-! ### Accounts -/

omit [WorldSource S] in
/-- An overlay is put for its own account. -/
theorem getElem?_putAccount (l : JournaledLedger S) (a b : Address) (o : Overlay) :
    (l.putAccount a o).accounts[b]? = if a = b then some o else l.accounts[b]? := by
  refine Std.ExtTreeMap.getElem?_insert.trans ?_
  simp only [Std.LawfulEqCmp.compare_eq_iff_eq]

/-- Account overlays are what a changed account answers; the others answer as before. -/
theorem load_putAccount (l : JournaledLedger S) (a b : Address) (o : Overlay) :
    (l.putAccount a o).load b = if b = a then o else l.load b := by
  unfold load putAccount
  by_cases h : b = a
  · subst h
    simp
  · simp [Std.ExtTreeMap.getElem?_insert, h, Ne.symm h]

/-- Whether the slots below count is a matter of the account overlay. -/
theorem isCleared_eq_load (l : JournaledLedger S) (a : Address) :
    l.isCleared a = (l.load a).storageCleared := by
  unfold isCleared load
  cases l.accounts[a]? <;> rfl

/-! ### Slots -/

/-- Slots answer as before if the slots below count as before. -/
theorem storage_putAccount {l : JournaledLedger S} {a : Address} {o : Overlay}
    (h : o.storageCleared = l.isCleared a) (s : Slot) :
    (l.putAccount a o).storage s = l.storage s := by
  have hcleared : (l.putAccount a o).isCleared s.owner = l.isCleared s.owner := by
    rw [isCleared_eq_load, load_putAccount]
    split
    · rename_i hs
      rw [h, hs]
    · rw [isCleared_eq_load]
  unfold storage
  rw [hcleared]
  rfl

/-- A write shows in its slot. -/
theorem storage_setStorage (l : JournaledLedger S) (s t : Slot) (value : Word) :
    (l.setStorage s value).storage t = if t = s then value else l.storage t := by
  have hslot : (l.setStorage s value).slots[t]? = if t = s then some value else l.slots[t]? := by
    refine Std.ExtTreeMap.getElem?_insert.trans ?_
    simp only [Std.LawfulEqCmp.compare_eq_iff_eq, @eq_comm _ s t]
  have hcleared : (l.setStorage s value).isCleared t.owner = l.isCleared t.owner := rfl
  rw [storage, hslot, hcleared]
  by_cases h : t = s
  · simp [h]
  · rw [if_neg h, if_neg h]
    rfl

/-- Once the slots of an account are dropped and those below no longer count, it has none. -/
theorem storage_putAccount_dropSlots {l : JournaledLedger S} {a : Address} {o : Overlay}
    (h : o.storageCleared = true) (s : Slot) :
    ((l.dropSlots a).putAccount a o).storage s = if s.owner = a then 0 else l.storage s := by
  -- the slots of the account are dropped, and it is marked as cleared
  have hslot : ((l.dropSlots a).putAccount a o).slots[s]? =
      l.slots[s]?.filter fun _ => s.owner != a :=
    Std.ExtTreeMap.getElem?_filter'
  have hcleared : ((l.dropSlots a).putAccount a o).isCleared s.owner =
      if s.owner = a then true else l.isCleared s.owner := by
    rw [isCleared_eq_load, load_putAccount]
    split
    · exact h
    · rw [isCleared_eq_load]
      rfl
  unfold storage
  rw [hslot, hcleared]
  -- without a slot of its own, the mark decides
  by_cases hs : s.owner = a
  · have differs : (s.owner != a) = false := by simp [hs]
    cases l.slots[s]? <;> simp [Option.filter, hs]
  · have differs : (s.owner != a) = true := bne_iff_ne.2 hs
    cases l.slots[s]? <;> simp [Option.filter, hs, putAccount, dropSlots]

/-! ### Accesses -/

/-- Accesses are answered by the access list. -/
theorem warmth_eq (l : JournaledLedger S) : Ledger.warmth l = l.access.warmth := by
  refine Warmth.ext (funext fun a => ?_) (funext fun s => ?_)
  · change (l.accessAccount a).1 = (l.access.touchAccount a).1
    unfold accessAccount
    split <;> simp [*]
  · change (l.accessSlot s).1 = (l.access.touchSlot s).1
    unfold accessSlot
    split <;> simp [*]

/-- What does not touch the access list changes no answer to an access. -/
theorem warmth_congr {l l' : JournaledLedger S} (h : l'.access = l.access) :
    Ledger.warmth l' = Ledger.warmth l := by
  rw [warmth_eq, warmth_eq, h]

omit [WorldSource S] in
/-- An access to an account is noted in the access list. -/
theorem access_accessAccount (l : JournaledLedger S) (a : Address) :
    (l.accessAccount a).2.access = (l.access.touchAccount a).2 := by
  unfold accessAccount AccessList.touchAccount
  by_cases h : l.access.isAccountWarm a <;> simp [h]

omit [WorldSource S] in
/-- An access to a slot is noted in the access list. -/
theorem access_accessSlot (l : JournaledLedger S) (s : Slot) :
    (l.accessSlot s).2.access = (l.access.touchSlot s).2 := by
  unfold accessSlot AccessList.touchSlot
  by_cases h : l.access.isSlotWarm s <;> simp [h]

omit [WorldSource S] in
/-- It notes no value. -/
theorem startValues_accessAccount (l : JournaledLedger S) (a : Address) :
    (l.accessAccount a).2.startValues = l.startValues := by
  unfold accessAccount
  split <;> rfl

omit [WorldSource S] in
/-- It notes no value either. -/
theorem startValues_accessSlot (l : JournaledLedger S) (s : Slot) :
    (l.accessSlot s).2.startValues = l.startValues := by
  unfold accessSlot
  split <;> rfl

/-- Nor does it change what is answered. -/
theorem state_accessAccount (l : JournaledLedger S) (a : Address) :
    Ledger.state (l.accessAccount a).2 = Ledger.state l := by
  unfold accessAccount
  split <;> rfl

/-- Nor does an access to a slot. -/
theorem state_accessSlot (l : JournaledLedger S) (s : Slot) :
    Ledger.state (l.accessSlot s).2 = Ledger.state l := by
  unfold accessSlot
  split <;> rfl

/-! ### States -/

/-- One field of all accounts, with one account overlaid. -/
theorem field_putAccount {α : Type} (field : Overlay → α) (l : JournaledLedger S) (a : Address)
    (o : Overlay) : (fun b => field ((l.putAccount a o).load b)) =
      Function.update (fun b => field (l.load b)) a (field o) := by
  funext b
  rw [load_putAccount, Function.update_apply]
  exact apply_ite field ..

/-- An account overlay shows in the account alone, if its mark on storage is the same. -/
theorem state_putAccount {l : JournaledLedger S} {a : Address} {o : Overlay}
    (h : o.storageCleared = l.isCleared a) :
    Ledger.state (l.putAccount a o) =
      { balance := Function.update (Ledger.state l).balance a o.balance
        nonce := Function.update (Ledger.state l).nonce a o.nonce
        code := Function.update (Ledger.state l).code a o.code
        present := Function.update (Ledger.state l).present a o.present
        storage := (Ledger.state l).storage } :=
  LedgerState.ext (field_putAccount Overlay.balance l a o) (field_putAccount Overlay.nonce l a o)
    (field_putAccount Overlay.code l a o) (field_putAccount Overlay.present l a o)
    (funext (storage_putAccount h))

/-- A balance is answered as it was set. -/
theorem state_setBalance (l : JournaledLedger S) (a : Address) (balance : Word) :
    Ledger.state (Ledger.setBalance l a balance) = (Ledger.state l).setBalance a balance := by
  refine Eq.trans (state_putAccount ?_) ?_
  · exact (isCleared_eq_load l a).symm
  · -- the overlay also repeats the fields that the write leaves alone
    exact LedgerState.ext rfl (Function.update_eq_self a _) (Function.update_eq_self a _) rfl rfl

/-- A nonce is answered as it was set. -/
theorem state_setNonce (l : JournaledLedger S) (a : Address) (nonce : Nat) :
    Ledger.state (Ledger.setNonce l a nonce) = (Ledger.state l).setNonce a nonce := by
  refine Eq.trans (state_putAccount ?_) ?_
  · exact (isCleared_eq_load l a).symm
  · exact LedgerState.ext (Function.update_eq_self a _) rfl (Function.update_eq_self a _) rfl rfl

/-- Code is answered as it was set. -/
theorem state_setCode (l : JournaledLedger S) (a : Address) (code : Bytes) :
    Ledger.state (Ledger.setCode l a code) = (Ledger.state l).setCode a code := by
  refine Eq.trans (state_putAccount ?_) ?_
  · exact (isCleared_eq_load l a).symm
  · exact LedgerState.ext (Function.update_eq_self a _) (Function.update_eq_self a _) rfl rfl rfl

/-- A slot is answered as it was written. -/
theorem state_setStorage (l : JournaledLedger S) (s : Slot) (value : Word) :
    Ledger.state (Ledger.setStorage l s value) = (Ledger.state l).setStorage s value := by
  refine LedgerState.ext rfl rfl rfl rfl (funext fun t => ?_)
  refine (storage_setStorage l s t value).trans ?_
  exact (Function.update_apply ..).symm

/-- Clearing storage leaves an account that is there, and otherwise as it was, without slots. -/
theorem state_clearStorage (l : JournaledLedger S) (a : Address) :
    Ledger.state (Ledger.clearStorage l a) =
      { (Ledger.state l).clearStorage a with
        present := Function.update (Ledger.state l).present a true } := by
  refine LedgerState.ext ?_ ?_ ?_ ?_ (funext (storage_putAccount_dropSlots rfl))
  · exact (field_putAccount Overlay.balance (l.dropSlots a) a _).trans
      (Function.update_eq_self a _)
  · exact (field_putAccount Overlay.nonce (l.dropSlots a) a _).trans (Function.update_eq_self a _)
  · exact (field_putAccount Overlay.code (l.dropSlots a) a _).trans (Function.update_eq_self a _)
  · exact field_putAccount Overlay.present (l.dropSlots a) a _

/-- A new contract has no storage, and its nonce. -/
theorem state_reset (l : JournaledLedger S) (a : Address) (nonce : Nat) :
    Ledger.state (Ledger.setNonce (Ledger.clearStorage l a) a nonce) =
      (Ledger.state l).reset a nonce := by
  rw [state_setNonce, state_clearStorage]
  -- both operations bring the account into being
  exact LedgerState.ext rfl rfl rfl (Function.update_idem ..) rfl

/-- Nothing is answered of an account that is destroyed. -/
theorem state_destroyAccount (l : JournaledLedger S) (a : Address) :
    Ledger.state (Ledger.destroyAccount l a) = (Ledger.state l).destroyAccount a :=
  LedgerState.ext (field_putAccount Overlay.balance (l.dropSlots a) a _)
    (field_putAccount Overlay.nonce (l.dropSlots a) a _)
    (field_putAccount Overlay.code (l.dropSlots a) a _)
    (field_putAccount Overlay.present (l.dropSlots a) a _)
    (funext (storage_putAccount_dropSlots rfl))

/-! ### Sessions -/

/-- Settling a snapshot is settling it in the journal. -/
theorem ledger_commit_of_extends {l l' : JournaledLedger S} (h : Extends l.snapshot.2 l') :
    Ledger.commit l' l.snapshot.1 = .ok { l' with openSnapshots := l.openSnapshots } :=
  (ledger_commit l' l.snapshot.1).trans (commit_of_extends h)

/-- Going back over a longer journal leaves the ledger as it was, but for the values noted since. -/
theorem ledger_rollback_of_extends {l l' : JournaledLedger S} (h : Extends l.snapshot.2 l') :
    Ledger.rollback l' l.snapshot.1 = .ok { l with startValues := l'.startValues } :=
  (ledger_rollback l' l.snapshot.1).trans (rollback_of_extends h)

/-- A journal grows until its snapshots are settled. -/
theorem closedUnderSessions_extends : Ledger.ClosedUnderSessions (Extends (S := S)) where
  refl := Extends.refl
  trans := Extends.trans
  setBalance l a _ := extends_modifyAccount l a _
  setNonce l a _ := extends_modifyAccount l a _
  setCode l a _ := extends_modifyAccount l a _
  setStorage := extends_setStorage
  clearStorage := extends_clearStorage
  destroyAccount := extends_destroyAccount
  accessAccount := extends_accessAccount
  accessSlot := extends_accessSlot
  commit h := ⟨_, ledger_commit_of_extends h, h.of_commit⟩
  rollback h := ⟨_, ledger_rollback_of_extends h, .of_rollback _ _⟩

/-- So any session extends the journal. -/
theorem extends_of_history {l l' : JournaledLedger S} (h : Ledger.History l l') :
    Extends l l' :=
  closedUnderSessions_extends.of_history h

/-- The journaled ledger is lawful over any world. -/
instance : LawfulLedger (JournaledLedger S) where
  state_setBalance := state_setBalance
  state_setNonce := state_setNonce
  state_setCode := state_setCode
  state_setStorage := state_setStorage
  state_reset := state_reset
  state_destroyAccount := state_destroyAccount
  state_accessAccount := state_accessAccount
  state_accessSlot := state_accessSlot
  warmth_setBalance _ _ _ := warmth_congr rfl
  warmth_setNonce _ _ _ := warmth_congr rfl
  warmth_setCode _ _ _ := warmth_congr rfl
  warmth_setStorage _ _ _ := warmth_congr rfl
  warmth_clearStorage _ _ := warmth_congr rfl
  warmth_destroyAccount _ _ := warmth_congr rfl
  warmth_accessAccount l a := by
    rw [warmth_eq, warmth_eq, ← AccessList.warmth_touchAccount]
    exact congrArg AccessList.warmth (access_accessAccount l a)
  warmth_accessSlot l s := by
    rw [warmth_eq, warmth_eq, ← AccessList.warmth_touchSlot]
    exact congrArg AccessList.warmth (access_accessSlot l s)
  state_snapshot _ := rfl
  warmth_snapshot _ := warmth_congr rfl
  commit_history h := ⟨_, ledger_commit_of_extends (extends_of_history h), rfl, warmth_congr rfl⟩
  rollback_history h := ⟨_, ledger_rollback_of_extends (extends_of_history h), rfl, warmth_congr rfl⟩

/-- **A rollback is exact.**  After a snapshot any session runs through, the rollback of the
    snapshot succeeds, and then every answer is the one given when it was taken: balance, nonce,
    code, presence and storage, code hashes, whether there is storage, what is warm, the changes
    to the world below, and the number of open snapshots. -/
theorem rollback_undoes_session (l : JournaledLedger S) (t : Session) :
    ∃ l' l'' : JournaledLedger S,
      t.run (Ledger.snapshot l).2 = .ok l' ∧
      Ledger.rollback l' (Ledger.snapshot l).1 = .ok l'' ∧
      Ledger.state l'' = Ledger.state l ∧
      (∀ a, Ledger.codeHash l'' a = Ledger.codeHash l a) ∧
      (∀ a, Ledger.hasStorage l'' a = Ledger.hasStorage l a) ∧
      Ledger.warmth l'' = Ledger.warmth l ∧
      l''.changes = l.changes ∧
      l''.depth = l.depth := by
  obtain ⟨l', hrun, hl'⟩ := closedUnderSessions_extends.run t (Ledger.snapshot l).2
  -- only start values differ, and none of these answers reads them
  refine ⟨l', { l with startValues := l'.startValues }, hrun, ledger_rollback_of_extends hl', ?_⟩
  exact ⟨rfl, fun _ => rfl, fun _ => rfl, warmth_congr rfl, rfl, rfl⟩

end Evm.JournaledLedger
