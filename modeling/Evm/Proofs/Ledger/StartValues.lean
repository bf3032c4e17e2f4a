import Mathlib.Data.FinEnum
import Mathlib.Data.Set.Card
import Evm.Proofs.Ledger.Copies
import Evm.Proofs.Ledger.Journaled
import Evm.Proofs.State.World

namespace Evm

/-!
# What slots held at the start

A ledger notes what a slot held before its first write in a transaction, and a rollback does not
take that back.  So the value at the start of the transaction stays what it is through all
snapshots, but where storage was emptied meanwhile.

* `StartValues` — a ledger that notes the values of slots at the start.
* `Ledger.Recalls` — a ledger that still knows what another one has noted.
* `Ledger.cleared`, `Ledger.changed` — slots that are zero now, or have another value, and were not
  zero at the start.
* `Ledger.Undone` — slots are as they were, and no more of them are cleared or changed.
* `Ledger.undone_of_rollback` — so they are after a rollback.
-/

/-! ### Noted values -/

open Ledger in
/-- A ledger that notes what slots held before they were written first.  Only a write notes
    anything, and nothing takes it back. -/
class StartValues (L : Type) [Ledger L] where
  /-- What has been noted of the slot. -/
  noted : L → Slot → Option Word
  committedStorage_eq (l : L) (s : Slot) : committedStorage l s = (noted l s).getD (storage l s)
  noted_setStorage (l : L) (s : Slot) (value : Word) :
    noted (setStorage l s value) = Function.update (noted l) s (some (committedStorage l s))
  noted_setBalance (l : L) (a : Address) (balance : Word) : noted (setBalance l a balance) = noted l
  noted_setNonce (l : L) (a : Address) (nonce : Nat) : noted (setNonce l a nonce) = noted l
  noted_setCode (l : L) (a : Address) (code : Bytes) : noted (setCode l a code) = noted l
  noted_clearStorage (l : L) (a : Address) : noted (clearStorage l a) = noted l
  noted_destroyAccount (l : L) (a : Address) : noted (destroyAccount l a) = noted l
  noted_accessAccount (l : L) (a : Address) : noted (accessAccount l a).2 = noted l
  noted_accessSlot (l : L) (s : Slot) : noted (accessSlot l s).2 = noted l
  noted_snapshot (l : L) : noted (snapshot l).2 = noted l
  noted_commit {l l' : L} {token : Nat} : commit l token = .ok l' → noted l' = noted l
  noted_rollback {l l' : L} {token : Nat} : rollback l token = .ok l' → noted l' = noted l

/-- A ledger that has storage where some slot is not zero. -/
class LawfulStorage (L : Type) [Ledger L] : Prop where
  storage_of_hasStorage {l : L} {a : Address} : Ledger.hasStorage l a = false →
    ∀ key, Ledger.storage l ⟨a, key⟩ = 0

/-- There are finitely many addresses and keys. -/
instance : Finite Slot :=
  Finite.of_injective (fun s : Slot => (s.owner, s.key)) fun s t h => by
    cases s
    cases t
    cases h
    rfl

namespace Ledger

variable {L : Type} [Ledger L]

/-! ### The same slots -/

/-- The two ledgers answer the same about slots, now and at the start. -/
structure SameSlots (l l' : L) : Prop where
  committed (s : Slot) : committedStorage l' s = committedStorage l s
  storage (s : Slot) : storage l' s = storage l s

/-- Slots that were not zero at the start and are now. -/
def cleared (l : L) : Set Slot := {s | committedStorage l s ≠ 0 ∧ storage l s = 0}

/-- Slots that were not zero at the start and hold another value now. -/
def changed (l : L) : Set Slot := {s | committedStorage l s ≠ 0 ∧ storage l s ≠ committedStorage l s}

/-- A slot that is cleared has changed. -/
theorem cleared_subset_changed (l : L) : cleared l ⊆ changed l := by
  rintro s ⟨hstart, hzero⟩
  exact ⟨hstart, fun hsame => hstart (hsame.symm.trans hzero)⟩

namespace SameSlots

variable {l l' l'' : L}

/-- A ledger answers as itself. -/
theorem refl (l : L) : SameSlots l l := ⟨fun _ => rfl, fun _ => rfl⟩

/-- What is the same twice is the same. -/
theorem trans (h : SameSlots l l') (k : SameSlots l' l'') : SameSlots l l'' :=
  ⟨fun s => (k.committed s).trans (h.committed s), fun s => (k.storage s).trans (h.storage s)⟩

/-- So the same slots are cleared. -/
theorem cleared (h : SameSlots l l') : cleared l' = cleared l := by
  ext s
  simp only [Ledger.cleared, Set.mem_ofPred_eq, h.committed, h.storage]

/-- So the same slots have changed. -/
theorem changed (h : SameSlots l l') : changed l' = changed l := by
  ext s
  simp only [Ledger.changed, Set.mem_ofPred_eq, h.committed, h.storage]

end SameSlots

/-! ### Operations -/

variable [LawfulLedger L] [StartValues L]

omit [LawfulLedger L] in
/-- Nothing new is noted, and no slot has changed. -/
theorem SameSlots.of_noted {l l' : L} (hnoted : StartValues.noted l' = StartValues.noted l)
    (hstorage : Ledger.storage l' = Ledger.storage l) : SameSlots l l' := by
  refine ⟨fun s => ?_, fun s => congrFun hstorage s⟩
  rw [StartValues.committedStorage_eq, StartValues.committedStorage_eq, hnoted, hstorage]

omit [StartValues L] in
/-- A write shows in its slot. -/
theorem storage_setStorage (l : L) (s : Slot) (value : Word) :
    storage (setStorage l s value) = Function.update (storage l) s value :=
  congrArg LedgerState.storage (LawfulLedger.state_setStorage l s value)

omit [StartValues L] in
/-- An account whose storage is emptied has none. -/
theorem storage_clearStorage (l : L) (a : Address) :
    storage (clearStorage l a) = fun s => if s.owner = a then 0 else storage l s := by
  -- the nonce that is set next does not matter
  have hreset := congrArg LedgerState.storage (LawfulLedger.state_reset l a 0)
  rw [LawfulLedger.state_setNonce] at hreset
  exact hreset

omit [StartValues L] in
/-- Nor has an account that is destroyed. -/
theorem storage_destroyAccount (l : L) (a : Address) :
    storage (destroyAccount l a) = fun s => if s.owner = a then 0 else storage l s :=
  congrArg LedgerState.storage (LawfulLedger.state_destroyAccount l a)

/-- A write leaves the value at the start. -/
theorem committedStorage_setStorage (l : L) (s : Slot) (value : Word) :
    committedStorage (setStorage l s value) = committedStorage l := by
  funext t
  rw [StartValues.committedStorage_eq, StartValues.noted_setStorage, storage_setStorage]
  by_cases h : t = s
  · rw [h, Function.update_self]
    rfl
  · rw [Function.update_of_ne h, Function.update_of_ne h, ← StartValues.committedStorage_eq]

/-- A balance is no slot. -/
theorem sameSlots_setBalance (l : L) (a : Address) (balance : Word) :
    SameSlots l (setBalance l a balance) :=
  .of_noted (StartValues.noted_setBalance l a balance)
    (congrArg LedgerState.storage (LawfulLedger.state_setBalance l a balance))

/-- Nor is a nonce. -/
theorem sameSlots_setNonce (l : L) (a : Address) (nonce : Nat) : SameSlots l (setNonce l a nonce) :=
  .of_noted (StartValues.noted_setNonce l a nonce)
    (congrArg LedgerState.storage (LawfulLedger.state_setNonce l a nonce))

/-- Nor is code. -/
theorem sameSlots_setCode (l : L) (a : Address) (code : Bytes) : SameSlots l (setCode l a code) :=
  .of_noted (StartValues.noted_setCode l a code)
    (congrArg LedgerState.storage (LawfulLedger.state_setCode l a code))

/-- An access to an account changes no slot. -/
theorem sameSlots_accessAccount (l : L) (a : Address) : SameSlots l (accessAccount l a).2 :=
  .of_noted (StartValues.noted_accessAccount l a)
    (congrArg LedgerState.storage (LawfulLedger.state_accessAccount l a))

/-- Nor does an access to a slot. -/
theorem sameSlots_accessSlot (l : L) (s : Slot) : SameSlots l (accessSlot l s).2 :=
  .of_noted (StartValues.noted_accessSlot l s)
    (congrArg LedgerState.storage (LawfulLedger.state_accessSlot l s))

/-- Nor does a snapshot. -/
theorem sameSlots_snapshot (l : L) : SameSlots l (snapshot l).2 :=
  .of_noted (StartValues.noted_snapshot l)
    (congrArg LedgerState.storage (LawfulLedger.state_snapshot l))

/-- Storage that is emptied where there is none stays as it is. -/
theorem sameSlots_clearStorage [LawfulStorage L] {l : L} {a : Address}
    (hnone : hasStorage l a = false) : SameSlots l (clearStorage l a) := by
  refine .of_noted (StartValues.noted_clearStorage l a) ?_
  rw [storage_clearStorage]
  funext s
  split
  · rename_i hs
    subst hs
    exact (LawfulStorage.storage_of_hasStorage hnone s.key).symm
  · rfl

/-- Where a contract can be created, storage is empty already. -/
theorem sameSlots_reset [LawfulStorage L] {l : L} {a : Address} (hfree : isOccupied l a = false)
    (nonce : Nat) : SameSlots l (setNonce (clearStorage l a) a nonce) :=
  have hnone := (Bool.or_eq_false_iff.1 ((StandardLedger.isOccupied_eq l a).symm.trans hfree)).2
  (sameSlots_clearStorage hnone).trans (sameSlots_setNonce _ a nonce)

/-! ### Sessions -/

/-- The second ledger knows what the first one has noted.  Where storage was emptied before a slot
    was written, it may have noted zero. -/
structure Recalls (b l : L) : Prop where
  noted {s : Slot} {value : Word} :
    StartValues.noted b s = some value → StartValues.noted l s = some value
  committed (s : Slot) :
    committedStorage l s = committedStorage b s ∨ committedStorage l s = 0

namespace Recalls

variable {b l l' : L}

omit [LawfulLedger L] in
/-- A ledger knows what it has noted. -/
theorem refl (l : L) : Recalls l l := ⟨id, fun _ => .inl rfl⟩

omit [LawfulLedger L] in
/-- What is known later was known in between. -/
theorem trans (h : Recalls b l) (k : Recalls l l') : Recalls b l' := by
  refine ⟨fun hb => k.noted (h.noted hb), fun s => ?_⟩
  rcases k.committed s with hk | hk
  · exact hk ▸ h.committed s
  · exact .inr hk

omit [LawfulLedger L] in
/-- Nothing new is noted, and the value at the start is the one from before. -/
theorem of_sameSlots (hnoted : StartValues.noted l = StartValues.noted b) (h : SameSlots b l) :
    Recalls b l :=
  ⟨fun hb => hnoted ▸ hb, fun s => .inl (h.committed s)⟩

omit [LawfulLedger L] in
/-- Storage of an account is emptied. -/
theorem of_emptied {a : Address} (hnoted : StartValues.noted l = StartValues.noted b)
    (hstorage : storage l = fun s => if s.owner = a then 0 else storage b s) : Recalls b l := by
  refine ⟨fun hb => hnoted ▸ hb, fun s => ?_⟩
  rw [StartValues.committedStorage_eq l, StartValues.committedStorage_eq b, hnoted, hstorage]
  cases StartValues.noted b s with
  | some value => exact .inl rfl
  | none =>
    by_cases hs : s.owner = a
    · exact .inr (if_pos hs)
    · exact .inl (if_neg hs)

/-- A write notes a value only where none is noted. -/
theorem setStorage (l : L) (s : Slot) (value : Word) : Recalls l (setStorage l s value) := by
  refine ⟨fun {t v} hl => ?_, fun t => .inl (congrFun (committedStorage_setStorage l s value) t)⟩
  rw [StartValues.noted_setStorage]
  by_cases h : t = s
  · -- what has been noted once stays
    subst h
    rw [Function.update_self, StartValues.committedStorage_eq, hl]
    rfl
  · rwa [Function.update_of_ne h]

omit [LawfulLedger L] in
/-- Storage is as it was before, and what was noted since is kept.  So a slot has the value at the
    start that was noted last, or none was noted and it has the one from before. -/
theorem committed_of_undone (h : Recalls b l) (hnoted : StartValues.noted l' = StartValues.noted l)
    (hstorage : storage l' = storage b) (s : Slot) :
    committedStorage l' s = committedStorage l s ∨ committedStorage l' s = committedStorage b s := by
  have hnow : committedStorage l' s = (StartValues.noted l s).getD (storage b s) := by
    rw [StartValues.committedStorage_eq, hnoted, hstorage]
  cases hl : StartValues.noted l s with
  | some value =>
    left
    rw [hnow, StartValues.committedStorage_eq l, hl]
    rfl
  | none =>
    -- not noted at all, so that it was not noted before either
    have hfirst : StartValues.noted b s = none := by
      cases hb : StartValues.noted b s with
      | none => rfl
      | some value =>
        have hkept := h.noted hb
        rw [hl] at hkept
        cases hkept
    right
    rw [hnow, StartValues.committedStorage_eq b, hl, hfirst]

/-- Storage is as when the snapshot was taken, and what was noted since is kept. -/
theorem of_rollback (h : Recalls (snapshot b).2 l) (hnoted : StartValues.noted l' = StartValues.noted l)
    (hstorage : storage l' = storage b) : Recalls b l' := by
  have hopened : Recalls b (snapshot b).2 :=
    of_sameSlots (StartValues.noted_snapshot b) (sameSlots_snapshot b)
  have hsince := hopened.trans h
  refine ⟨fun hb => hnoted ▸ hsince.noted hb, fun s => ?_⟩
  rcases hsince.committed_of_undone hnoted hstorage s with hlast | hfirst
  · exact hlast ▸ hsince.committed s
  · exact .inl hfirst

end Recalls

/-- No session makes a ledger forget. -/
theorem closedUnderSessions_recalls :
    ClosedUnderSessions fun l l' : L => History l l' ∧ Recalls l l' where
  refl l := ⟨.refl l, .refl l⟩
  trans h k := ⟨h.1.trans k.1, h.2.trans k.2⟩
  setBalance l a balance := ⟨.op l (.setBalance a balance),
    .of_sameSlots (StartValues.noted_setBalance l a balance) (sameSlots_setBalance l a balance)⟩
  setNonce l a nonce := ⟨.op l (.setNonce a nonce),
    .of_sameSlots (StartValues.noted_setNonce l a nonce) (sameSlots_setNonce l a nonce)⟩
  setCode l a code := ⟨.op l (.setCode a code),
    .of_sameSlots (StartValues.noted_setCode l a code) (sameSlots_setCode l a code)⟩
  setStorage l s value := ⟨.op l (.setStorage s value), .setStorage l s value⟩
  clearStorage l a := ⟨.op l (.clearStorage a),
    .of_emptied (StartValues.noted_clearStorage l a) (storage_clearStorage l a)⟩
  destroyAccount l a := ⟨.op l (.destroyAccount a),
    .of_emptied (StartValues.noted_destroyAccount l a) (storage_destroyAccount l a)⟩
  accessAccount l a := ⟨.op l (.accessAccount a),
    .of_sameSlots (StartValues.noted_accessAccount l a) (sameSlots_accessAccount l a)⟩
  accessSlot l s := ⟨.op l (.accessSlot s),
    .of_sameSlots (StartValues.noted_accessSlot l s) (sameSlots_accessSlot l s)⟩
  -- what a snapshot has seen is kept with it, and its slots are the committed ones
  commit {b l} h := by
    obtain ⟨l', hcommit, hstate, -⟩ := LawfulLedger.commit_history h.1
    have hnoted := StartValues.noted_commit hcommit
    refine ⟨l', hcommit, h.1.kept hcommit, ?_⟩
    have hopened : Recalls b (snapshot b).2 :=
      .of_sameSlots (StartValues.noted_snapshot b) (sameSlots_snapshot b)
    exact (hopened.trans h.2).trans
      (.of_sameSlots hnoted (.of_noted hnoted (congrArg LedgerState.storage hstate)))
  -- a rollback restores the slots but not what was noted, so the notes have to be checked
  rollback {b l} h := by
    obtain ⟨l', hrollback, hstate, -⟩ := LawfulLedger.rollback_history h.1
    refine ⟨l', hrollback, h.1.undone hrollback, ?_⟩
    exact h.2.of_rollback (StartValues.noted_rollback hrollback)
      (congrArg LedgerState.storage hstate)

/-- After any session a ledger knows what it has noted. -/
theorem recalls_of_history {b l : L} (h : History b l) : Recalls b l :=
  (closedUnderSessions_recalls.of_history h).2

/-! ### Slots that are not as they were -/

omit [LawfulLedger L] in
/-- Where nothing is noted yet, every slot is as it was. -/
theorem committedStorage_of_noted {l : L} (h : ∀ s, StartValues.noted l s = none) :
    committedStorage l = storage l := by
  funext s
  rw [StartValues.committedStorage_eq, h]
  rfl

omit [LawfulLedger L] in
/-- So none has changed. -/
theorem changed_of_noted {l : L} (h : ∀ s, StartValues.noted l s = none) : changed l = ∅ := by
  refine Set.eq_empty_of_forall_notMem fun s hs => hs.2 ?_
  rw [committedStorage_of_noted h]

/-- The slots of the second ledger are those of the first one again.  Where storage was emptied
    meanwhile, a slot may count as zero at the start. -/
structure Undone (b l : L) : Prop where
  storage : storage l = storage b
  committed (s : Slot) : committedStorage l s = committedStorage b s ∨ committedStorage l s = 0

section Undone

variable {b b' l l' : L}

/-- A rollback undoes a session. -/
theorem undone_of_rollback (h : History (snapshot b).2 l)
    (hrollback : rollback l (snapshot b).1 = .ok l') : Undone b l' := by
  obtain ⟨l'', hl'', hstate, -⟩ := LawfulLedger.rollback_history h
  obtain rfl : l'' = l' := Except.ok.inj (hl''.symm.trans hrollback)
  exact ⟨congrArg LedgerState.storage hstate,
    (recalls_of_history (h.undone hrollback)).committed⟩

omit [LawfulLedger L] [StartValues L]

/-- Where nothing has changed, nothing need be undone. -/
theorem SameSlots.undone (h : SameSlots b l) : Undone b l :=
  ⟨funext h.storage, fun s => .inl (h.committed s)⟩

/-- What is undone after the same slots is undone from before. -/
theorem SameSlots.trans_undone (h : SameSlots b b') (k : Undone b' l) : Undone b l :=
  ⟨k.storage.trans (funext h.storage), fun s => h.committed s ▸ k.committed s⟩

/-- No slot is cleared that was not before. -/
theorem Undone.cleared_subset (h : Undone b l) : cleared l ⊆ cleared b := by
  rintro s ⟨hstart, hzero⟩
  have hsame := (h.committed s).resolve_right hstart
  exact ⟨hsame ▸ hstart, h.storage ▸ hzero⟩

/-- No slot has changed that had not before. -/
theorem Undone.changed_subset (h : Undone b l) : changed l ⊆ changed b := by
  rintro s ⟨hstart, hother⟩
  have hsame := (h.committed s).resolve_right hstart
  rw [hsame] at hstart
  rw [hsame, h.storage] at hother
  exact ⟨hstart, hother⟩

end Undone

end Ledger

/-! ### The two ledgers -/

/-- A world that has storage where some slot is not zero. -/
class LawfulSource (S : Type) [WorldSource S] : Prop where
  storage_of_hasStorage {source : S} {a : Address} : WorldSource.hasStorage source a = false →
    ∀ key, WorldSource.storage source ⟨a, key⟩ = 0

/-- A world that has no storage at an address answers zero there. -/
instance : LawfulSource World where
  storage_of_hasStorage := World.storage_of_hasStorage_eq_false

/-- A value that is noted only where there is none leaves what was noted. -/
theorem noted_insertIfNew (noted : Std.ExtTreeMap Slot Word) (s : Slot) (value : Word) :
    (fun t : Slot => (noted.insertIfNew s value)[t]?) =
      Function.update (fun t : Slot => noted[t]?) s (some (noted.getD s value)) := by
  funext t
  rw [Std.ExtTreeMap.getElem?_insertIfNew, Function.update_apply,
    Std.ExtTreeMap.getD_eq_getD_getElem?]
  by_cases h : t = s
  · subst h
    simp only [Std.ExtTreeMap.mem_iff_isSome_getElem?]
    cases noted[t]? <;> simp
  · simp [h, Ne.symm h]

namespace SnapshotLedger

/-- The ledger of copies notes a slot when it is first written. -/
instance : StartValues SnapshotLedger where
  noted l s := l.startValues[s]?
  committedStorage_eq _ _ := Std.ExtTreeMap.getD_eq_getD_getElem?
  noted_setStorage l s _ := noted_insertIfNew l.startValues s (l.world.storage s)
  noted_setBalance _ _ _ := rfl
  noted_setNonce _ _ _ := rfl
  noted_setCode _ _ _ := rfl
  noted_clearStorage _ _ := rfl
  noted_destroyAccount _ _ := rfl
  noted_accessAccount _ _ := rfl
  noted_accessSlot _ _ := rfl
  noted_snapshot _ := rfl
  noted_commit {l l' token} h := by
    rw [ledger_commit] at h
    unfold commit at h
    split at h
    · cases h
      rfl
    · cases h
  noted_rollback {l l' token} h := by
    rw [ledger_rollback] at h
    unfold rollback at h
    split at h
    · cases h
      rfl
    · cases h

/-- It answers as its world does. -/
instance : LawfulStorage SnapshotLedger where
  storage_of_hasStorage := World.storage_of_hasStorage_eq_false

end SnapshotLedger

namespace JournaledLedger

variable {S : Type} [WorldSource S]

/-- The journaled ledger notes a slot when it is first written. -/
instance : StartValues (JournaledLedger S) where
  noted l s := l.startValues[s]?
  committedStorage_eq _ _ := Std.ExtTreeMap.getD_eq_getD_getElem?
  noted_setStorage l s _ := noted_insertIfNew l.startValues s (l.storage s)
  noted_setBalance _ _ _ := rfl
  noted_setNonce _ _ _ := rfl
  noted_setCode _ _ _ := rfl
  noted_clearStorage _ _ := rfl
  noted_destroyAccount _ _ := rfl
  noted_accessAccount l a := by
    show (fun s => (l.accessAccount a).2.startValues[s]?) = _
    rw [startValues_accessAccount]
  noted_accessSlot l s := by
    show (fun t => (l.accessSlot s).2.startValues[t]?) = _
    rw [startValues_accessSlot]
  noted_snapshot _ := rfl
  noted_commit {l l' token} h := by
    rw [ledger_commit] at h
    unfold commit at h
    cases hopen : openBelow l.openSnapshots token with
    | ok below =>
      rw [hopen] at h
      cases h
      rfl
    | error e =>
      rw [hopen] at h
      cases h
  noted_rollback {l l' token} h := by
    rw [ledger_rollback] at h
    unfold rollback at h
    cases hopen : openBelow l.openSnapshots token with
    | ok below =>
      rw [hopen] at h
      cases h
      show (fun s => ((l.journal.extract token).foldr undo l).startValues[s]?) = _
      rw [startValues_foldr_undo]
    | error e =>
      rw [hopen] at h
      cases h

/-- Storage that is not in the overlay is that of the world below. -/
instance [LawfulSource S] : LawfulStorage (JournaledLedger S) where
  storage_of_hasStorage {l a} h key := by
    obtain ⟨hoverlay, hbelow⟩ := Bool.or_eq_false_iff.1 (show l.hasStorage a = false from h)
    show l.storage ⟨a, key⟩ = 0
    unfold storage
    cases hslot : l.slots[(⟨a, key⟩ : Slot)]? with
    | some value =>
      -- no slot of the account in the overlay holds anything
      by_contra hvalue
      have hany : (l.slots.any fun s value => s.owner == a && value != 0) = true :=
        (any_eq_true_iff ..).2 ⟨⟨a, key⟩, value, hslot, by simpa using hvalue⟩
      rw [hoverlay] at hany
      cases hany
    | none =>
      dsimp only
      split
      · rfl
      · rename_i hcleared
        rw [Bool.not_eq_true] at hcleared
        rw [hcleared] at hbelow
        exact LawfulSource.storage_of_hasStorage (by simpa using hbelow) key

end JournaledLedger

end Evm
