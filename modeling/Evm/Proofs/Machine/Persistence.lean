import Evm.Proofs.Ledger.Changes
import Evm.Proofs.Machine.Invariant
import Evm.Proofs.State.World

namespace Evm

/-!
# The changes of a ledger are enough to persist it

The marks on an account overlay are set by different operations, perhaps of different transactions.
They tell the truth because the machine empties storage only where there is no code, when it makes
room for a contract.

* `JournaledLedger.accounted_invariant` — the marks tell the truth, whatever the machine does.
* `afterAll` — the ledger after a series of transactions.
* `changes_persist` — the world below, once the changes are applied, answers as the ledger does.
-/

namespace JournaledLedger

variable {S : Type} [WorldSource S]

/-! ### Marks -/

/-- An account is written back with its overlay accounted for. -/
theorem Accounted.putAccount {l : JournaledLedger S} (h : l.Accounted) {a : Address} {o : Overlay}
    (ho : Overlay.Accounted l.source a o) : (l.putAccount a o).Accounted := by
  intro b o' hb
  rw [JournaledLedger.getElem?_putAccount] at hb
  split at hb
  · rename_i hab
    subst hab
    exact Option.some.inj hb ▸ ho
  · exact h b o' hb

/-- The code of an account that was not set, also where there is no overlay yet. -/
theorem Accounted.load_code {l : JournaledLedger S} (h : l.Accounted) (a : Address)
    (hunset : (l.load a).codeSet = false) :
    (l.load a).code =
      if (l.load a).storageCleared then #[] else WorldSource.code l.source a := by
  unfold load at hunset ⊢
  cases hentry : l.accounts[a]? with
  | none => rfl
  | some o =>
    rw [hentry] at hunset
    exact (h a o hentry).code hunset

/-- A change that sets the code and says so, or that leaves it and the marks alone. -/
theorem Accounted.modifyAccount {l : JournaledLedger S} (h : l.Accounted) (a : Address)
    {f : Overlay → Overlay}
    (hf : ∀ o, (f o).codeSet = false →
      o.codeSet = false ∧ (f o).code = o.code ∧ (f o).storageCleared = o.storageCleared) :
    (l.modifyAccount a f).Accounted := by
  refine h.putAccount ⟨nofun, fun hunset => ?_⟩
  obtain ⟨hbefore, hcode, hcleared⟩ := hf (l.load a) hunset
  dsimp only
  rw [hcode, hcleared]
  exact h.load_code a hbefore

/-- Storage may be emptied where there is no code. -/
theorem Accounted.clearStorage {l : JournaledLedger S} (h : l.Accounted) {a : Address}
    (hempty : (l.load a).code = #[]) : (l.clearStorage a).Accounted :=
  Accounted.putAccount (l := l.dropSlots a) h ⟨nofun, fun _ => hempty⟩

/-- A destroyed account is accounted for by its own mark. -/
theorem Accounted.destroyAccount {l : JournaledLedger S} (h : l.Accounted) (a : Address) :
    (l.destroyAccount a).Accounted :=
  Accounted.putAccount (l := l.dropSlots a) h ⟨fun _ => ⟨rfl, rfl, rfl, rfl⟩, fun _ => rfl⟩

/-- A ledger over a source, with marks that tell the truth. -/
structure Over (source : S) (l : JournaledLedger S) : Prop where
  source : l.source = source
  accounted : l.Accounted

/-- An access leaves the source as it is. -/
theorem Over.accessAccount {source : S} {l : JournaledLedger S} (h : Over source l) (a : Address) :
    Over source (l.accessAccount a).2 := by
  unfold JournaledLedger.accessAccount
  split
  · exact ⟨h.source, h.accounted⟩
  · exact h

/-- An access leaves the source as it is. -/
theorem Over.accessSlot {source : S} {l : JournaledLedger S} (h : Over source l) (s : Slot) :
    Over source (l.accessSlot s).2 := by
  unfold JournaledLedger.accessSlot
  split
  · exact ⟨h.source, h.accounted⟩
  · exact h

/-- An account that is not occupied has no code. -/
theorem code_of_not_isOccupied {l : JournaledLedger S} {a : Address}
    (h : Ledger.isOccupied l a = false) : (l.load a).code = #[] := by
  rw [StandardLedger.isOccupied_eq] at h
  simp only [Bool.or_eq_false_iff, Bool.not_eq_false', Array.isEmpty_iff] at h
  exact h.1.2

/-- The marks tell the truth, whatever the machine does. -/
theorem accounted_invariant (source : S) : LedgerInvariant (Over source) where
  setBalance h a _ := ⟨h.source, h.accounted.modifyAccount a fun _ hunset => ⟨hunset, rfl, rfl⟩⟩
  setNonce h a _ := ⟨h.source, h.accounted.modifyAccount a fun _ hunset => ⟨hunset, rfl, rfl⟩⟩
  setCode h a _ := ⟨h.source, h.accounted.modifyAccount a nofun⟩
  setStorage h _ _ := ⟨h.source, h.accounted⟩
  -- the one place where storage is emptied: the account is free, so its code is empty as well
  reset h a _ hfree :=
    ⟨h.source, (h.accounted.clearStorage (code_of_not_isOccupied hfree)).modifyAccount a
      fun _ hunset => ⟨hunset, rfl, rfl⟩⟩
  destroyAccount h a := ⟨h.source, h.accounted.destroyAccount a⟩
  accessAccount h a := h.accessAccount a
  accessSlot h s := h.accessSlot s
  snapshot h := ⟨h.source, h.accounted⟩
  -- a snapshot that is kept leaves the overlays of the end, one that is undone those of the start
  commit _ h hsince hcommit := by
    cases hcommit.symm.trans (ledger_commit_of_extends (extends_of_history hsince))
    exact ⟨h.source, h.accounted⟩
  rollback hb _ hsince hrollback := by
    cases hrollback.symm.trans (ledger_rollback_of_extends (extends_of_history hsince))
    exact ⟨hb.source, hb.accounted⟩

/-- They are true of an empty overlay. -/
theorem over_ofSource (source : S) : Over source (ofSource source) :=
  ⟨rfl, fun a o h => by
    rw [ofSource, Std.ExtTreeMap.getElem?_empty] at h
    cases h⟩

end JournaledLedger

/-! ### Series of transactions -/

/-- The ledger after messages one after another, each as a transaction of its own. -/
def afterAll {L : Type} [Ledger L] (begin : L → L) (l : L) (submissions : List Submission) : L :=
  submissions.foldl (fun l s => (s.execute (begin l)).ledger) l

/-- A property that the machine keeps, and new transactions too, holds after every series. -/
theorem LedgerInvariant.afterAll {L : Type} [Ledger L] [LawfulLedger L] {I : L → Prop}
    (h : LedgerInvariant I) {begin : L → L} (hbegin : ∀ l, I l → I (begin l))
    (submissions : List Submission) {l : L} (hl : I l) : I (Evm.afterAll begin l submissions) := by
  induction submissions generalizing l with
  | nil => exact hl
  | cons s rest ih => exact ih (h.execute s.context (hbegin l hl) s.message s.observer)

/-- **The changes of a ledger are enough to persist it.**  After any series of transactions, of
    messages of any kind, the world below answers what the ledger does once the changes that the
    ledger reports are applied to it. -/
theorem changes_persist {w : World} (hground : WorldSource.Grounded w)
    (submissions : List Submission) :
    let l := afterAll JournaledLedger.beginTransaction (JournaledLedger.ofSource w) submissions
    (w.apply l.changes).state = Ledger.state l := by
  have hbegin (l : JournaledLedger World) (h : l.Over w) : l.beginTransaction.Over w :=
    ⟨h.source, h.accounted⟩
  obtain ⟨hsource, haccounted⟩ :=
    (JournaledLedger.accounted_invariant w).afterAll hbegin submissions
      (JournaledLedger.over_ofSource w)
  dsimp only
  generalize afterAll JournaledLedger.beginTransaction (JournaledLedger.ofSource w) submissions = l
    at hsource haccounted
  subst hsource
  exact JournaledLedger.state_apply_changes haccounted hground

/-- A contract that counts its calls is called, and in the next transaction called again. -/
theorem changes_persist_on_counter :
    let w : World := .setCode {} 7 #[0x60, 0, 0x54, 0x60, 1, 0x01, 0x60, 0, 0x55]
    let submissions : List Submission :=
      [⟨{ precompiles := .none }, .call 1 7 0 #[] 100000, .off⟩,
        ⟨{ precompiles := .none }, .call 2 7 0 #[] 100000, .off⟩]
    let l := afterAll JournaledLedger.beginTransaction (JournaledLedger.ofSource w) submissions
    WorldSource.Grounded w ∧ l.changes = [.storageWrite 7 0 2] ∧
      (w.apply l.changes).state = Ledger.state l := by
  intro w submissions l
  -- an account with code has a record, and no account has storage yet
  have hground : WorldSource.Grounded w := by
    rintro a (hcode | ⟨key, hkey⟩)
    · exact (World.Reachable.setCode 7 _ .empty).recorded a hcode
    · have hnone : w.hasStorage a = false := rfl
      exact absurd (World.storage_of_hasStorage_eq_false hnone key) hkey
  exact ⟨hground, by decide +kernel, changes_persist hground submissions⟩

end Evm
