import Evm.Proofs.Ledger.Reach
import Evm.Proofs.Machine.Induction
import Evm.Proofs.Machine.Refund

namespace Evm

/-!
# Writes are priced by the values at the start

What an execution does to its ledger, up to the destructions at its very end, takes no value of a
slot away but by writing the slot: storage is emptied only where a contract can be created, and
there it is empty.  So at all times, also after a failed frame has been undone, the ledger tells of
every slot what it held when the transaction started, and that is what a storage write is priced by.

* `Machine.tracks_remembers` — no step and no end of a frame forgets a value.
* `Machine.Visited.remembers` — so no execution does.
* `StartValuesKept` — what this means for a transaction.
* `start_values_kept` — every transaction is like that.
-/

open Ledger

variable {L : Type} [Ledger L] [LawfulLedger L] [StartValues L]

/-! ### Instructions and stages -/

/-- An access notes no start value. -/
theorem Ledger.Accessed.remembers {l l' : L} (h : Accessed l l') : Remembers l l' := by
  induction h with
  | refl => exact .refl _
  | account a _ ih => exact ih.trans (.accessAccount _ a)
  | slot s _ ih => exact ih.trans (.accessSlot _ s)

/-- Nor does a self-destruction. -/
theorem Ledger.Surrendered.remembers {a : Address} {l l' : L} (h : Surrendered a l l') :
    Remembers l l' := by
  cases h with
  | refused _ hrefused =>
    rw [Ledger.isAtomic_tryAddBalance _ _ hrefused]
    exact .refl l
  | burned => exact .setBalance l a 0
  | handed _ hadd =>
    exact (Remembers.addBalance (LedgerStep.after_eq_ok_iff.2 hadd)).trans (.setBalance _ a 0)

namespace Local

/-- What an instruction does to the ledger keeps the start values that were noted. -/
theorem Did.remembers {s t : Local L} {i : Instruction} (h : s.Did i t) :
    Remembers s.ledger t.ledger := by
  cases h with
  | quiet hquiet => exact hquiet.ledger.remembers
  | logged _ _ hquiet _ => exact hquiet.ledger.remembers
  | stored key value _ hquiet => exact hquiet.ledger.remembers.trans (.setStorage _ _ value)
  | destroyed _ hquiet hsurrendered => exact hquiet.ledger.remembers.trans hsurrendered.remembers

/-- Storage that is emptied for a new contract is empty. -/
theorem remembers_attempt_prepare [LawfulStorage L] (c : Context) (s : Local L) :
    Remembers s.ledger (s.attempt (Effect.prepare c)).2.ledger := by
  -- the nonce and the target of a creation, before the snapshot
  have entered : Remembers s.ledger (s.frame.message.entered c s.ledger) := by
    unfold Message.entered
    split
    · dsimp only
      split
      · exact (Remembers.setNonce s.ledger _ _).trans (.accessAccount _ _)
      · exact .setNonce s.ledger _ _
    · exact .refl _
  have prepared := s.attempt_prepare_ledger c
  generalize (s.attempt (Effect.prepare c)).2.ledger = l at prepared ⊢
  induction prepared with
  | refused => exact .refl _
  -- a creation clears only where there is no storage
  | opened => exact entered.trans (.snapshot _)
  | cleared _ hfree ih =>
    rw [StandardLedger.isOccupied_eq] at hfree
    have hnone := (Bool.or_eq_false_iff.1 hfree).2
    exact (ih.trans (.clearStorage hnone)).trans (.setNonce _ _ _)
  | moved _ _ ht ih => exact ih.trans (.transfer ht)

end Local

namespace Machine

variable {c : Context} {m m' last : Machine L}

/-! ### Frames -/

/-- The end of a frame notes nothing. -/
theorem Popped.noted (h : Popped c m last m') :
    StartValues.noted m'.ledger = StartValues.noted last.ledger := by
  -- the deposit writes the code, and notes nothing
  have deposited : StartValues.noted (last.toLocal.deposited c).2.ledger =
      StartValues.noted last.ledger := by
    rcases last.toLocal.deposited_ledger c with hsame | ⟨code, hcoded⟩
    · rw [hsame]
      rfl
    · rw [hcoded, StartValues.noted_setCode]
      rfl
  rw [h.ledger_eq]
  cases h.settled with
  | refused _ _ _ _ _ hend _ => rw [hend]
  | kept _ _ _ hcommit _ _ => rw [StartValues.noted_commit hcommit, deposited]
  | undone _ _ _ _ hrollback _ _ _ => rw [StartValues.noted_rollback hrollback, deposited]

/-- No step and no end of a frame forgets what a slot held at the start. -/
theorem tracks_remembers [LawfulStorage L] (c : Context) :
    Tracks c (fun _ : Machine L => True) fun m m' => Remembers m.ledger m'.ledger where
  refl m := .refl m.ledger
  trans h k := h.trans k
  step {m m'} _ hstep hstays := by
    obtain ⟨-, hledger⟩ | hsame | ⟨o, s, t, hturn, hledger⟩ := hstep.ledger_cases hstays
    · rw [hledger]
      exact m.toLocal.remembers_attempt_prepare c
    · rw [hsame]
      exact .refl _
    · rw [hledger]
      -- a turn is the work of one instruction, or of none
      rcases turn_did hturn with rfl | ⟨i, -, hdid⟩
      · exact .refl _
      · exact hdid.remembers
  popped {m last m'} _ hpopped hcourse := by
    rcases hpopped.slots with ⟨-, hsame⟩ | ⟨-, hundone⟩
    · exact hcourse.trans (.of_sameSlots hpopped.noted hsame)
    · -- what the frame has noted is not undone, and is true all the same
      exact hcourse.of_undone hpopped.noted hundone.storage

/-- So does everything up to a machine of an execution. -/
theorem Visited.remembers [LawfulStorage L] {l : L} {message : Message} {observer : Observer}
    (h : Visited c l message observer m) : Remembers l m.ledger := by
  have prewarmed : Remembers l (launch c l message observer).ledger := (accessed_foldl l _).remembers
  exact prewarmed.trans (h.tracks (tracks_remembers c) fun _ _ => trivial)

end Machine

/-! ### Transactions -/

open Machine in
/-- A transaction that begins on a ledger keeps the values of slots at its start. -/
structure StartValuesKept {L : Type} [Ledger L] (b : L) (start : Slot → Word) : Prop where
  /-- Wherever a client has come to, the ledger tells what each slot held at the start. -/
  committed {tokens : List Nat} {l : L} : Reached b tokens l → ∀ s, committedStorage l s = start s
  /-- The latest snapshot can be kept there, and it can be undone. -/
  settles {token : Nat} {tokens : List Nat} {l : L} : Reached b (token :: tokens) l →
    (∃ l', commit l token = .ok l') ∧ ∃ l', rollback l token = .ok l'
  /-- The ledger tells the same at every point of an execution. -/
  executes {tokens : List Nat} {l : L} {c : Context} {message : Message} {observer : Observer}
    {m : Machine L} : Reached b tokens l → Visited c l message observer m →
      ∀ s, committedStorage m.ledger s = start s
  /-- So that is what a storage write is priced by. -/
  priced {tokens : List Nat} {l : L} {c : Context} {message : Message} {observer : Observer}
    {m : Machine L} : Reached b tokens l → Visited c l message observer m → m.Executes c .sstore →
      m.running.writePrice c.fork = Gas.storageWrite c.fork (start m.top.writtenSlot)
        (storage m.ledger m.top.writtenSlot) m.top.writtenValue
  /-- A write that goes through pays that price. -/
  paid {c : Context} {m : Machine L} {s : Local L} {t : Trace} : m.Executes c .sstore →
    m.turn c = (.continues, s, t) → m.running.Wrote c.fork s

/-- A ledger with nothing noted yet keeps its values as the start values. -/
theorem startValuesKept_of_noted [LawfulStorage L] {b : L}
    (hbegun : ∀ s, StartValues.noted b s = none) : StartValuesKept b (storage b) where
  committed hreached s := hreached.committedStorage hbegun s
  settles hreached := by
    obtain ⟨l', hkept, -⟩ := hreached.layered.commit
    obtain ⟨l'', hundone, -⟩ := hreached.layered.rollback
    exact ⟨⟨l', hkept⟩, l'', hundone⟩
  executes hreached hvisited s := by
    rw [hvisited.remembers.committed, hreached.committedStorage hbegun]
  priced {tokens l c message observer m} hreached hvisited _ := by
    have hstart := hreached.committedStorage hbegun m.top.writtenSlot
    rw [← hstart, ← hvisited.remembers.committed]
    rfl
  paid hexec hturn := by
    rcases Local.turn_refunds hturn with ⟨hother, -⟩ | ⟨-, hwrote⟩
    · exact absurd hexec.2 (hother fun _ => nofun)
    · exact hwrote

/-- On both ledgers, a transaction keeps the values of slots at its start, whether it is begun on a
    ledger or the ledger is new. -/
theorem start_values_kept :
    (∀ (S : Type) [WorldSource S] [LawfulSource S],
        (∀ source : S, StartValuesKept (JournaledLedger.ofSource source)
          (WorldSource.storage source)) ∧
          ∀ l : JournaledLedger S, StartValuesKept l.beginTransaction (storage l)) ∧
      (∀ w : World, StartValuesKept (SnapshotLedger.ofWorld w) w.storage) ∧
      ∀ l : SnapshotLedger, StartValuesKept l.beginTransaction (storage l) := by
  refine ⟨fun S _ _ => ⟨fun source => ?_, fun l => ?_⟩, fun w => ?_, fun l => ?_⟩
  · exact startValuesKept_of_noted (b := JournaledLedger.ofSource source) fun _ => rfl
  · exact startValuesKept_of_noted (b := l.beginTransaction) fun _ => rfl
  · exact startValuesKept_of_noted (b := SnapshotLedger.ofWorld w) fun _ => rfl
  · exact startValuesKept_of_noted (b := l.beginTransaction) fun _ => rfl

/-- A client writes a slot under a snapshot and undoes that, and then a contract writes the slot
    twice: the second write is priced by the value of the world below, too. -/
theorem start_values_kept_past_rollback :
    let slot : Slot := ⟨7, 0⟩
    let w := World.setStorage
      (World.setCode {} 7 #[0x60, 6, 0x60, 0, 0x55, 0x60, 8, 0x60, 0, 0x55]) slot 5
    let b : JournaledLedger World := JournaledLedger.ofSource w
    let written := Ledger.setStorage (Ledger.snapshot b).2 slot 9
    let l := Ledger.orUnchanged b (Ledger.rollback written (Ledger.snapshot b).1)
    let c : Context := { config := { fork := .istanbul }, precompiles := .none }
    let m := (Machine.launch c l (.call 1 7 0 #[] 100000) .off).after c 7
    committedStorage written slot = 5 ∧ committedStorage l slot = 5 ∧ m.Executes c .sstore ∧
      m.top.writtenSlot = slot ∧ storage m.ledger slot = 6 ∧
      m.running.writePrice c.fork = Gas.storageWrite .istanbul 5 6 8 := by
  intro slot w b written l c m
  have kept : StartValuesKept b (WorldSource.storage w) := (start_values_kept.1 World).1 w
  have reached : Ledger.Reached b [(Ledger.snapshot b).1] written :=
    .op (.setStorage slot 9) (.snapshot .start) trivial
  have undone : Ledger.Reached b [] l := by
    obtain ⟨l', hl'⟩ := (kept.settles reached).2
    have same : l = l' := by
      show Ledger.orUnchanged b (Ledger.rollback written (Ledger.snapshot b).1) = l'
      rw [hl']
      rfl
    rw [same]
    exact .rollback reached hl'
  have visited : Machine.Visited c l (.call 1 7 0 #[] 100000) .off m :=
    Machine.Visited.iff_after.2 ⟨Nat.zero_le _, 7, rfl⟩
  have executes : m.Executes c .sstore := ⟨.inl (by decide +kernel), by decide +kernel⟩
  have value : WorldSource.storage w slot = 5 := by decide +kernel
  have target : m.top.writtenSlot = slot := by decide +kernel
  have now : storage m.ledger slot = 6 := by decide +kernel
  have next : m.top.writtenValue = 8 := by decide +kernel
  have priced := kept.priced undone visited executes
  rw [target, value, now, next] at priced
  exact ⟨(kept.committed reached slot).trans value, (kept.committed undone slot).trans value,
    executes, target, now, priced⟩

end Evm
