import Evm.Ledger.Journaled
import Evm.Proofs.Ledger.Session

namespace Evm.JournaledLedger

/-!
# The way back along the journal

Every operation adds entries to the journal that lead back to where it started, and closing an
inner snapshot leaves its entries to the one around it.  So after any session the entries since the
snapshot lead back to it.

* `content` — what the journal can bring back: everything but bookkeeping and start values.
* `Extends` — a ledger whose newer journal entries lead back to another one.
* `extends_setStorage`, `extends_destroyAccount` and their kin — every operation extends the ledger.
* `rollback_of_extends` — a rollback gives the ledger of the snapshot, apart from start values.
-/

variable {S : Type}

/-! ### Content -/

/-- The ledger without its bookkeeping. -/
def content (l : JournaledLedger S) : JournaledLedger S :=
  { source := l.source, accounts := l.accounts, slots := l.slots, access := l.access }

/-- Taking an entry back concerns the content. -/
theorem content_undo (e : JournalEntry) (l : JournaledLedger S) :
    (undo e l).content = undo e l.content := by
  cases e <;> rfl

/-- Where a journal leads back to depends on the content only. -/
theorem content_foldr_undo (es : Array JournalEntry) (l : JournaledLedger S) :
    (es.foldr undo l).content = es.foldr undo l.content := by
  rw [← Array.foldr_toList, ← Array.foldr_toList]
  induction es.toList with
  | nil => rfl
  | cons e es ih => rw [List.foldr_cons, List.foldr_cons, content_undo, ih]

/-! ### Extensions -/

/-- The same snapshots are open, and the entries that were added to the journal lead back. -/
def Extends (l l' : JournaledLedger S) : Prop :=
  l'.openSnapshots = l.openSnapshots ∧ ∃ es : Array JournalEntry,
    l'.journal = l.journal ++ es ∧ (es.foldr undo l').content = l.content

namespace Extends

/-- Nothing is added where nothing is done. -/
theorem refl (l : JournaledLedger S) : Extends l l := ⟨rfl, #[], by simp, by simp⟩

/-- What was added last is taken back first. -/
theorem trans {l l' l'' : JournaledLedger S} (h : Extends l l') (k : Extends l' l'') :
    Extends l l'' := by
  obtain ⟨ho, es, hj, hu⟩ := h
  obtain ⟨ko, fs, kj, ku⟩ := k
  refine ⟨ko.trans ho, es ++ fs, by rw [kj, hj, Array.append_assoc], ?_⟩
  rw [Array.foldr_append, content_foldr_undo, ku, ← content_foldr_undo, hu]

/-- One entry that leads back. -/
theorem of_push {l l' : JournaledLedger S} (e : JournalEntry)
    (ho : l'.openSnapshots = l.openSnapshots) (hj : l'.journal = l.journal.push e)
    (hu : (undo e l').content = l.content) : Extends l l' :=
  ⟨ho, #[e], by rw [hj]; simp, by simpa using hu⟩

end Extends

/-! ### Operations extend -/

/-- Putting an overlay adds an entry that puts the old one back. -/
theorem extends_putAccount (l : JournaledLedger S) (a : Address) (o : Overlay) :
    Extends l (l.putAccount a o) := by
  refine .of_push (.account a l.accounts[a]?) rfl rfl ?_
  simp only [undo, putAccount, content, restore_insert]

/-- Entries that were dropped from a map and are put back make it what it was. -/
theorem foldl_insert_filter {α β : Type} [Ord α] [Std.TransOrd α] [Std.LawfulEqOrd α]
    (m : Std.ExtTreeMap α β) (p : α → Bool) :
    (m.toList.filter fun e => p e.1).foldl (fun m e => m.insert e.1 e.2)
      (m.filter fun k _ => !p k) = m := by
  classical
  rw [← Std.ExtTreeMap.insertMany_list_eq_foldl]
  apply Std.ExtTreeMap.ext_getElem?
  intro k
  cases hk : m[k]? with
  | none =>
    -- neither dropped nor kept
    rw [Std.ExtTreeMap.getElem?_insertMany_list_of_contains_eq_false,
      Std.ExtTreeMap.getElem?_filter', hk]
    · rfl
    · simp [hk]
  | some v =>
    by_cases hp : p k
    · -- dropped, and put back from the list
      refine Std.ExtTreeMap.getElem?_insertMany_list_of_mem Std.ReflOrd.compare_self
        (Std.ExtTreeMap.distinct_keys_toList.filter _) ?_
      rw [List.mem_filter, Std.ExtTreeMap.mem_toList_iff_getElem?_eq_some]
      exact ⟨hk, hp⟩
    · -- kept all along, and not in the list
      rw [Std.ExtTreeMap.getElem?_insertMany_list_of_contains_eq_false,
        Std.ExtTreeMap.getElem?_filter', hk]
      · simp [Option.filter, hp]
      · simp [hp]

/-- Dropping slots adds an entry for each of them. -/
theorem extends_dropSlots (l : JournaledLedger S) (a : Address) : Extends l (l.dropSlots a) := by
  refine .of_push (.cleared (l.slots.toList.filter fun e => e.1.owner == a)) rfl rfl ?_
  have restored := foldl_insert_filter l.slots (fun s : Slot => s.owner == a)
  simp only [undo, dropSlots, content, bne]
  exact congrArg (fun slots => ({ l with slots } : JournaledLedger S).content) restored

/-- A first access to an account adds an entry. -/
theorem extends_accessAccount (l : JournaledLedger S) (a : Address) :
    Extends l (l.accessAccount a).2 := by
  by_cases h : l.access.isAccountWarm a
  · -- a later access writes no entry and changes nothing
    simp only [accessAccount, AccessList.touchAccount, h, if_true]
    exact .refl l
  · have restored := AccessList.forgetAccount_touchAccount (Bool.not_eq_true _ ▸ h)
    simp only [AccessList.touchAccount, h, Bool.false_eq_true, if_false] at restored
    simp only [accessAccount, AccessList.touchAccount, h, Bool.false_eq_true, if_false]
    refine .of_push (.accountWarmed a) rfl rfl ?_
    exact congrArg (fun access => ({ l with access } : JournaledLedger S).content) restored

/-- So does a first access to a slot. -/
theorem extends_accessSlot (l : JournaledLedger S) (s : Slot) :
    Extends l (l.accessSlot s).2 := by
  by_cases h : l.access.isSlotWarm s
  · simp only [accessSlot, AccessList.touchSlot, h, if_true]
    exact .refl l
  · have restored := AccessList.forgetSlot_touchSlot (Bool.not_eq_true _ ▸ h)
    simp only [AccessList.touchSlot, h, Bool.false_eq_true, if_false] at restored
    simp only [accessSlot, AccessList.touchSlot, h, Bool.false_eq_true, if_false]
    refine .of_push (.slotWarmed s) rfl rfl ?_
    exact congrArg (fun access => ({ l with access } : JournaledLedger S).content) restored

variable [WorldSource S]

/-- Changing an account is putting its overlay. -/
theorem extends_modifyAccount (l : JournaledLedger S) (a : Address) (f : Overlay → Overlay) :
    Extends l (l.modifyAccount a f) := extends_putAccount l a _

/-- Writing a slot adds an entry that writes the old value. -/
theorem extends_setStorage (l : JournaledLedger S) (s : Slot) (value : Word) :
    Extends l (l.setStorage s value) := by
  refine .of_push (.slot s l.slots[s]?) rfl rfl ?_
  simp only [undo, setStorage, content, restore_insert]

/-- Emptying storage drops slots and marks the account. -/
theorem extends_clearStorage (l : JournaledLedger S) (a : Address) :
    Extends l (l.clearStorage a) :=
  (extends_dropSlots l a).trans (extends_modifyAccount _ a _)

omit [WorldSource S] in
/-- Destroying an account drops its slots and its overlay. -/
theorem extends_destroyAccount (l : JournaledLedger S) (a : Address) :
    Extends l (l.destroyAccount a) :=
  (extends_dropSlots l a).trans (extends_putAccount _ a _)

/-! ### Settling -/

omit [WorldSource S]

/-- Going back over changes does not touch what is kept for the whole transaction. -/
theorem startValues_foldr_undo (es : Array JournalEntry) (l : JournaledLedger S) :
    (es.foldr undo l).startValues = l.startValues := by
  rw [← Array.foldr_toList]
  induction es.toList with
  | nil => rfl
  | cons e es ih =>
    rw [List.foldr_cons, ← ih]
    cases e <;> rfl

/-- The snapshots below one that was opened are those from before. -/
theorem openBelow_snapshot {l l' : JournaledLedger S} (h : Extends l.snapshot.2 l') :
    openBelow l'.openSnapshots l.snapshot.1 = .ok l.openSnapshots := by
  rw [h.1]
  simp [openBelow, snapshot]

/-- Everything but start values comes back. -/
theorem rollback_of_extends {l l' : JournaledLedger S} (h : Extends l.snapshot.2 l') :
    l'.rollback l.snapshot.1 = .ok { l with startValues := l'.startValues } := by
  have hopen := openBelow_snapshot h
  obtain ⟨-, es, hj, hu⟩ := h
  -- the name of the snapshot is the length of the journal, so it cuts off just the new entries
  have hjournal : l'.journal = l.journal ++ es := hj
  have hextract : l'.journal.extract l.journal.size = es := by
    rw [hjournal]
    simp
  have htake : l'.journal.take l.journal.size = l.journal := by
    rw [hjournal]
    simp
  have hback : (l'.journal.extract l.snapshot.1).foldr undo l' = es.foldr undo l' :=
    congrArg (fun fs : Array JournalEntry => fs.foldr undo l') hextract
  have hcontent : (es.foldr undo l').content = l.content := hu
  simp only [content, JournaledLedger.mk.injEq, and_true, true_and] at hcontent
  obtain ⟨hsource, haccounts, hslots, haccess⟩ := hcontent
  rw [rollback, hopen]
  refine congrArg Except.ok ?_
  rw [hback, hsource, haccounts, hslots, haccess, startValues_foldr_undo]
  exact congrArg (fun journal => { l with startValues := l'.startValues, journal }) htake

/-- A snapshot is closed where the journal has grown. -/
theorem commit_of_extends {l l' : JournaledLedger S} (h : Extends l.snapshot.2 l') :
    l'.commit l.snapshot.1 = .ok { l' with openSnapshots := l.openSnapshots } := by
  simp only [commit, openBelow_snapshot h]
  rfl

/-- The changes since a snapshot that is kept belong to what was before it. -/
theorem Extends.of_commit {l l' : JournaledLedger S} (h : Extends l.snapshot.2 l') :
    Extends l { l' with openSnapshots := l.openSnapshots } := by
  obtain ⟨-, es, hj, hu⟩ := h
  refine ⟨rfl, es, hj, ?_⟩
  rw [content_foldr_undo] at hu ⊢
  exact hu

/-- Nothing is left of the changes since a snapshot that is undone. -/
theorem Extends.of_rollback (l : JournaledLedger S) (startValues : Std.ExtTreeMap Slot Word) :
    Extends l { l with startValues } := ⟨rfl, #[], by simp, by simp [content]⟩

end Evm.JournaledLedger
