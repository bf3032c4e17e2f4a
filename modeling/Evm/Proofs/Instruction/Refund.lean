import Mathlib.Tactic.Linarith
import Evm.Gas.StorageWrite
import Evm.Proofs.Instruction.Outcome
import Evm.Proofs.Ledger.StartValues
import Evm.Proofs.Ledger.Supply

namespace Evm

/-!
# What instructions do to the refund counter

Under net metering a write takes from the refund counter only what an earlier one has granted for
the same slot.  What the slots are worth that were cleared since the start is a potential that each
write settles with the counter, and no other instruction changes it.

* `Gas.storageWrite_settles` — the price of a write against what it does to its slot.
* `Ledger.clearedWorth`, `Ledger.changedWorth` — the refund for the slots that are cleared, and the
  gas that it took at least to change slots.
* `Local.Spares`, `Local.Wrote` — no slot is written, or the one that the operands tell.
* `Local.turn_refunds` — a turn is one of both.
-/

/-! ### The price of a write -/

namespace Gas

variable {fork : Fork} {start current new : Word}

/-- A slot was not zero at the start and is now. -/
def ofCleared (start now : Word) : Nat := if start ≠ 0 ∧ now = 0 then 1 else 0

/-- A slot was not zero at the start and has another value now. -/
def ofChanged (start now : Word) : Nat := if start ≠ 0 ∧ now ≠ start then 1 else 0

/-- What a write takes from the counter has been granted, and what it grants beyond that is no less
    than it must be. -/
theorem storageWrite_settles (hnet : fork.netMetering = true) (start current new : Word) :
    (storageWrite fork start current new).refundSub ≤ clearRefund fork * ofCleared start current ∧
      clearRefund fork * ofCleared start new + (storageWrite fork start current new).refundSub ≤
        clearRefund fork * ofCleared start current +
          (storageWrite fork start current new).refundAdd := by
  rw [storageWrite, if_pos hnet, netWrite]
  unfold ofCleared clearingCredit
  by_cases hsame : current = new
  · rw [if_pos hsame, hsame]
    exact ⟨Nat.zero_le _, Nat.le_refl _⟩
  · rw [if_neg hsame]
    by_cases hfirst : start = current
    · -- the first write to the slot takes nothing
      rw [if_pos hfirst]
      subst hfirst
      grind
    -- the slot is dirty, so the refund of an earlier write may be taken back
    · rw [if_neg hfirst]
      grind

/-- To change a slot is charged for. -/
theorem storageWrite_charges (hnet : fork.netMetering = true) (start current new : Word) :
    sstoreReset fork * ofChanged start new ≤
      sstoreReset fork * ofChanged start current +
        (storageWrite fork start current new).charge := by
  rw [storageWrite, if_pos hnet, netWrite]
  unfold ofChanged
  grind

end Gas

/-! ### Counting slots -/

/-- How many there are of which one is told apart. -/
theorem Slot.ncard_eq (A : Set Slot) (s : Slot) [Decidable (s ∈ A)] :
    A.ncard = (A \ {s}).ncard + if s ∈ A then 1 else 0 := by
  split
  · rename_i h
    exact (Set.ncard_sdiff_singleton_add_one h A.toFinite).symm
  · rename_i h
    rw [Set.sdiff_singleton_eq_self h, Nat.add_zero]

/-- Of two kinds of slots that differ in one slot at most, there are as many up to that slot. -/
theorem Slot.ncard_add {A B : Set Slot} (s : Slot) [Decidable (s ∈ A)] [Decidable (s ∈ B)]
    (h : ∀ t, t ≠ s → (t ∈ A ↔ t ∈ B)) :
    A.ncard + (if s ∈ B then 1 else 0) = B.ncard + if s ∈ A then 1 else 0 := by
  have rest : A \ {s} = B \ {s} := by
    ext t
    exact and_congr_left fun ht => h t ht
  rw [ncard_eq A s, ncard_eq B s, rest]
  omega

namespace Ledger

variable {L : Type} [Ledger L]

/-- The refund for the slots that are cleared. -/
noncomputable def clearedWorth (fork : Fork) (l : L) : Nat :=
  Gas.clearRefund fork * (cleared l).ncard

/-- What it costs at least to change the slots that are changed. -/
noncomputable def changedWorth (fork : Fork) (l : L) : Nat :=
  Gas.sstoreReset fork * (changed l).ncard

/-- The same slots are worth the same refund. -/
theorem SameSlots.clearedWorth {l l' : L} (h : SameSlots l l') (fork : Fork) :
    clearedWorth fork l' = clearedWorth fork l := by
  rw [Ledger.clearedWorth, Ledger.clearedWorth, h.cleared]

/-- The same slots have cost the same. -/
theorem SameSlots.changedWorth {l l' : L} (h : SameSlots l l') (fork : Fork) :
    changedWorth fork l' = changedWorth fork l := by
  rw [Ledger.changedWorth, Ledger.changedWorth, h.changed]

/-- Where writes are undone no refund is due that was not before. -/
theorem Undone.clearedWorth_le {b l : L} (h : Undone b l) (fork : Fork) :
    clearedWorth fork l ≤ clearedWorth fork b :=
  Nat.mul_le_mul_left _ (Set.ncard_le_ncard h.cleared_subset (Set.toFinite _))

/-- Nor has more been changed. -/
theorem Undone.changedWorth_le {b l : L} (h : Undone b l) (fork : Fork) :
    changedWorth fork l ≤ changedWorth fork b :=
  Nat.mul_le_mul_left _ (Set.ncard_le_ncard h.changed_subset (Set.toFinite _))

/-- One slot is never worth more than all. -/
theorem ofCleared_le_clearedWorth (fork : Fork) (l : L) (s : Slot) :
    Gas.clearRefund fork * Gas.ofCleared (committedStorage l s) (storage l s) ≤
      clearedWorth fork l := by
  refine Nat.mul_le_mul_left _ ?_
  unfold Gas.ofCleared
  split
  · rename_i h
    exact (Set.ncard_pos (Set.toFinite _)).2 ⟨s, h⟩
  · exact Nat.zero_le _

section Writes

variable [LawfulLedger L] [StartValues L] (l : L) (s : Slot) (value : Word)

/-- A write decides about its own slot alone. -/
theorem ncard_setStorage (p : Word → Word → Prop) [∀ start now, Decidable (p start now)] :
    {t | p (committedStorage (setStorage l s value) t) (storage (setStorage l s value) t)}.ncard +
        (if p (committedStorage l s) (storage l s) then 1 else 0) =
      {t | p (committedStorage l t) (storage l t)}.ncard +
        if p (committedStorage l s) value then 1 else 0 := by
  rw [committedStorage_setStorage, storage_setStorage]
  have own : s ∈ {t | p (committedStorage l t) (Function.update (storage l) s value t)} ↔
      p (committedStorage l s) value := by
    rw [Set.mem_ofPred_eq, Function.update_self]
  have others (t : Slot) (ht : t ≠ s) :
      t ∈ {t | p (committedStorage l t) (Function.update (storage l) s value t)} ↔
        t ∈ {t | p (committedStorage l t) (storage l t)} := by
    rw [Set.mem_ofPred_eq, Function.update_of_ne ht, Set.mem_ofPred_eq]
  have count := Slot.ncard_add s others
  simp only [own] at count
  exact count

/-- A write exchanges the refund for what the slot held by that for what it holds. -/
theorem clearedWorth_setStorage (fork : Fork) :
    clearedWorth fork (setStorage l s value) +
        Gas.clearRefund fork * Gas.ofCleared (committedStorage l s) (storage l s) =
      clearedWorth fork l + Gas.clearRefund fork * Gas.ofCleared (committedStorage l s) value := by
  have count := ncard_setStorage l s value fun start now => start ≠ 0 ∧ now = 0
  rw [clearedWorth, clearedWorth, ← Nat.mul_add, ← Nat.mul_add]
  exact congrArg (Gas.clearRefund fork * ·) count

/-- So it does with what the change has cost. -/
theorem changedWorth_setStorage (fork : Fork) :
    changedWorth fork (setStorage l s value) +
        Gas.sstoreReset fork * Gas.ofChanged (committedStorage l s) (storage l s) =
      changedWorth fork l + Gas.sstoreReset fork * Gas.ofChanged (committedStorage l s) value := by
  have count := ncard_setStorage l s value fun start now => start ≠ 0 ∧ now ≠ start
  rw [changedWorth, changedWorth, ← Nat.mul_add, ← Nat.mul_add]
  exact congrArg (Gas.sstoreReset fork * ·) count

end Writes

end Ledger

/-! ### What a turn does -/

/-- The slot that the operands of a write tell. -/
def Frame.writtenSlot (f : Frame) : Slot := ⟨f.address, f.stack.items.getD 0 0⟩

/-- The value that the operands of a write tell. -/
def Frame.writtenValue (f : Frame) : Word := f.stack.items.getD 1 0

namespace Local

variable {L : Type} [Ledger L]

/-- The price of the write that the operands tell. -/
def writePrice (fork : Fork) (s : Local L) : Gas.StorageWrite :=
  Gas.storageWrite fork (Ledger.committedStorage s.ledger s.frame.writtenSlot)
    (Ledger.storage s.ledger s.frame.writtenSlot) s.frame.writtenValue

/-- Slots are as before, and the counter has lost nothing. -/
structure Spares (s t : Local L) : Prop where
  slots : Ledger.SameSlots s.ledger t.ledger
  refund : min s.frame.gas.refund Counter.limit ≤ t.frame.gas.refund

/-- The write that the operands tell is done and paid for. -/
structure Wrote (fork : Fork) (s t : Local L) : Prop where
  slots : ∃ l, Ledger.SameSlots s.ledger l ∧
    t.ledger = Ledger.setStorage l s.frame.writtenSlot s.frame.writtenValue
  refund : t.frame.gas.refund =
    Counter.add (s.frame.gas.refund - (s.writePrice fork).refundSub) (s.writePrice fork).refundAdd
  charge : t.frame.gas.remaining + (s.writePrice fork).charge ≤ s.frame.gas.remaining

namespace Spares

variable {s t u : Local L}

/-- Where nothing is done nothing is written. -/
theorem refl (s : Local L) : s.Spares s := ⟨.refl _, Nat.min_le_left _ _⟩

/-- Where nothing is written twice nothing is. -/
theorem trans (h : s.Spares t) (k : t.Spares u) : s.Spares u :=
  ⟨h.slots.trans k.slots,
    Nat.le_trans (Nat.le_min.2 ⟨h.refund, Nat.min_le_right _ _⟩) k.refund⟩

end Spares

section Worth

variable [LawfulLedger L] [StartValues L] {fork : Fork} {s t : Local L}

/-- The refund for the slots that are cleared is there. -/
def Covers (fork : Fork) (s : Local L) : Prop :=
  Ledger.clearedWorth fork s.ledger ≤ s.frame.gas.refund

omit [LawfulLedger L] [StartValues L] in
/-- So the refund is still there, as far as it is a counter. -/
theorem Spares.covers (h : s.Spares t) (hs : s.Covers fork)
    (hrange : Ledger.clearedWorth fork t.ledger ≤ Counter.limit) : t.Covers fork := by
  unfold Covers at hs ⊢
  rw [h.slots.clearedWorth] at hrange ⊢
  exact Nat.le_trans (Nat.le_min.2 ⟨hs, hrange⟩) h.refund

omit [LawfulLedger L] [StartValues L] in
/-- No write takes more from the counter than there is. -/
theorem Covers.refundSub_le (hs : s.Covers fork) (hnet : fork.netMetering = true) :
    (s.writePrice fork).refundSub ≤ s.frame.gas.refund := by
  have granted := (Gas.storageWrite_settles hnet
    (Ledger.committedStorage s.ledger s.frame.writtenSlot)
    (Ledger.storage s.ledger s.frame.writtenSlot) s.frame.writtenValue).1
  exact Nat.le_trans granted
    (Nat.le_trans (Ledger.ofCleared_le_clearedWorth fork s.ledger s.frame.writtenSlot) hs)

/-- A write settles what it does to its slot with the counter. -/
theorem Wrote.covers (h : s.Wrote fork t) (hnet : fork.netMetering = true) (hs : s.Covers fork)
    (hrange : Ledger.clearedWorth fork t.ledger ≤ Counter.limit) : t.Covers fork := by
  obtain ⟨l, hslots, hledger⟩ := h.slots
  have before := hs.refundSub_le hnet
  have settled := (Gas.storageWrite_settles hnet
    (Ledger.committedStorage s.ledger s.frame.writtenSlot)
    (Ledger.storage s.ledger s.frame.writtenSlot) s.frame.writtenValue).2
  have written := Ledger.clearedWorth_setStorage l s.frame.writtenSlot s.frame.writtenValue fork
  rw [← hledger, hslots.clearedWorth, hslots.committed, hslots.storage] at written
  unfold Covers at hs ⊢
  rw [h.refund, Counter.add]
  unfold writePrice at before ⊢
  omega

/-- A write is paid for by the gas of its frame. -/
theorem Wrote.changedWorth_le (h : s.Wrote fork t) (hnet : fork.netMetering = true) :
    Ledger.changedWorth fork t.ledger + t.frame.gas.remaining ≤
      Ledger.changedWorth fork s.ledger + s.frame.gas.remaining := by
  obtain ⟨l, hslots, hledger⟩ := h.slots
  have charged := Gas.storageWrite_charges hnet
    (Ledger.committedStorage s.ledger s.frame.writtenSlot)
    (Ledger.storage s.ledger s.frame.writtenSlot) s.frame.writtenValue
  have written := Ledger.changedWorth_setStorage l s.frame.writtenSlot s.frame.writtenValue fork
  rw [← hledger, hslots.changedWorth, hslots.committed, hslots.storage] at written
  have paid := h.charge
  unfold writePrice at paid
  omega

end Worth

end Local

/-! ### Instructions -/

namespace Ledger

variable {L : Type} [Ledger L] [LawfulLedger L] [StartValues L]

/-- Accesses write no slot. -/
theorem Accessed.sameSlots {l l' : L} (h : Accessed l l') : SameSlots l l' := by
  induction h with
  | refl => exact .refl _
  | account a _ ih => exact ih.trans (sameSlots_accessAccount _ a)
  | slot s _ ih => exact ih.trans (sameSlots_accessSlot _ s)

/-- Nor does money that comes in. -/
theorem sameSlots_addBalance {l l' : L} {a : Address} {amount : Word}
    (h : addBalance l a amount = .ok l') : SameSlots l l' := by
  obtain ⟨sum, -, rfl⟩ := addBalance_cases h
  exact sameSlots_setBalance l a sum

/-- Nor does money that moves. -/
theorem sameSlots_transfer {l l' : L} {sender recipient : Address} {value : Word}
    (h : transfer l sender recipient value = .ok l') : SameSlots l l' := by
  rcases transfer_cases h with rfl | ⟨-, -, credited, -, rfl⟩
  · exact .refl _
  · exact (sameSlots_setBalance l sender _).trans (sameSlots_setBalance _ recipient credited)

end Ledger

/-- What is quiet is sparing. -/
theorem Local.Quiet.spares {L : Type} [Ledger L] [LawfulLedger L] [StartValues L] {s t : Local L}
    (h : s.Quiet t) : s.Spares t := by
  refine ⟨h.ledger.sameSlots, ?_⟩
  rw [h.refund]
  exact Nat.min_le_left _ _

namespace Effect

variable {L : Type} [Ledger L] {α β : Type}

/-- No slot is written and nothing is taken from the counter, whether an effect succeeds or not. -/
@[reducible] def Conduct.sparing : Conduct L :=
  .always Local.Spares Local.Spares.refl fun _ _ _ => Local.Spares.trans

/-- The effect writes no slot and takes nothing from the counter, whether it succeeds or not. -/
abbrev IsSparing (e : Effect L α) : Prop := Follows .sparing e

namespace IsSparing

/-- A change of the frame that takes nothing from the counter. -/
theorem modifyFrame {f : Frame → Frame}
    (hf : ∀ g, min g.gas.refund Counter.limit ≤ (f g).gas.refund) :
    IsSparing (Effect.modifyFrame f : Effect L Unit) :=
  fun s => ⟨.refl _, hf s.frame⟩

/-- A change of the ledger that writes no slot. -/
theorem modifyLedger {f : L → L} (hf : ∀ l, Ledger.SameSlots l (f l)) :
    IsSparing (Effect.modifyLedger f : Effect L Unit) :=
  fun s => ⟨hf s.ledger, Nat.min_le_left _ _⟩

/-- A step of the ledger that writes no slot if it goes through, and changes nothing if it is
    refused. -/
theorem tryLedger {step : LedgerStep L Unit} {cause : StateError → VmError}
    (hatomic : step.IsAtomic) (hstep : ∀ {l l'}, step.after l = .ok l' → Ledger.SameSlots l l') :
    IsSparing (Effect.tryLedger step cause) := by
  intro s
  rw [run_tryLedger]
  cases h : step s.ledger with
  | ok u ledger => exact ⟨hstep (LedgerStep.after_eq_ok_iff.2 h), Nat.min_le_left _ _⟩
  | error e ledger =>
    obtain rfl := hatomic h
    exact .refl s

variable [LawfulLedger L] [StartValues L]

/-- What is quiet is sparing. -/
theorem of_isQuiet {e : Effect L α} (he : IsQuiet e) : IsSparing e :=
  he.imp Local.Quiet.spares Local.Quiet.spares

/-- A sparing effect works on the frame and may look at the ledger. -/
theorem letsWork : (Conduct.sparing : Conduct L).LetsWork :=
  Conduct.letsWork_quiet.imp Local.Quiet.spares Local.Quiet.spares

/-- A destruction moves ether, and leaves slots for the end of the transaction. -/
theorem selfDestruct (c : Context) (ancestors : List Frame) :
    IsSparing (selfDestruct c ancestors : Effect L Unit) := by
  refine Follows.selfDestruct letsWork (modifyFrame fun g => ?_) (fun a => modifyFrame fun g => ?_)
    (fun _ _ => ?_) (fun a => modifyLedger fun l => Ledger.sameSlots_setBalance l a 0) c ancestors
  · show _ ≤ Counter.add g.gas.refund Gas.selfDestructRefund
    unfold Counter.add
    omega
  · unfold Frame.registerSelfDestruct
    split <;> exact Nat.min_le_left _ _
  · exact tryLedger (Ledger.isAtomic_tryAddBalance _ _) Ledger.sameSlots_addBalance

/-- Only storage writes write. -/
theorem ofInstruction (c : Context) (ancestors : List Frame) {i : Instruction}
    (hstore : i ≠ .sstore) : IsSparing (ofInstruction c ancestors i : Effect L Flow) := by
  by_cases hlog : ∃ n, i = .log n
  · obtain ⟨n, rfl⟩ := hlog
    have record := Follows.log (L := L) letsWork
      (fun _ _ => modifyFrame fun _ => Nat.min_le_left _ _) n
    exact record.next _
  · by_cases hdestroy : i = .selfDestruct
    · subst hdestroy
      exact (selfDestruct c ancestors).next _
    · exact of_isQuiet (.ofInstruction c ancestors i (fun n h => hlog ⟨n, h⟩) hstore hdestroy)

end IsSparing

/-! ### Writes -/

/-- An access to a slot is paid out of the meter, if it is paid at all. -/
theorem Ensures.accessSlot {fork : Fork} {slot : Slot} {surcharge : Nat} {s : Local L}
    {Q : Unit → Local L → Prop} {E : Local L → Prop}
    (h : ∀ gas l, gas.remaining ≤ s.frame.gas.remaining → gas.refund = s.frame.gas.refund →
      Ledger.Accessed s.ledger l → Q () { frame := { s.frame with gas }, ledger := l })
    (hE : ∀ t, s.Quiet t → E t) : Ensures (accessSlot fork slot surcharge) Q E s := by
  have once : Ledger.Accessed s.ledger (Ledger.accessSlot s.ledger slot).2 := .slot slot (.refl _)
  refine .ite (fun _ => .bind (.of_run rfl (.ite (fun _ => ?_) fun _ => ?_))) fun _ => ?_
  · refine .charge (fun gas hgas => ?_) (hE _ ⟨rfl, rfl, rfl, rfl, once⟩)
    obtain ⟨-, hremaining, hrefund⟩ := Meter.consume_eq_ok_iff.1 hgas
    exact h gas _ (Nat.le.intro hremaining) hrefund once
  · exact .pure (h s.frame.gas _ (Nat.le_refl _) rfl once)
  · exact .pure (h s.frame.gas _ (Nat.le_refl _) rfl (.refl _))

variable [LawfulLedger L] [StartValues L]

/-- A storage write does what its operands tell, or nothing to any slot. -/
theorem sstore_ensures (c : Context) (s : Local L) :
    Ensures (sstore c) (fun _ t => s.Wrote c.fork t) (fun t => s.Spares t) s := by
  refine .bind (.requireNonStatic (fun _ => ?_) (.refl s))
  refine .bind (.frame_bind (.ite (fun _ => .throw (.refl s)) fun _ => .pure ?_))
  refine .bind (.onStack (fun (key, value) stack hpop => ?_) (.refl s))
  have popped : s.Quiet { s with frame := { s.frame with stack } } := ⟨rfl, rfl, rfl, rfl, .refl _⟩
  refine .frame_bind (.bind (.accessSlot (fun gas l hremaining hrefund hl => ?_) fun t ht =>
    (popped.trans ht).spares))
  have read : s.Quiet { frame := { s.frame with stack, gas }, ledger := l } :=
    ⟨rfl, rfl, rfl, hrefund, hl⟩
  refine .ledger_bind (.bind (.charge (fun gas' hgas' => ?_) read.spares))
  refine .bind (.modifyFrame (.modifyLedger ?_))
  obtain ⟨-, hpaid, hkept⟩ := Meter.consume_eq_ok_iff.1 hgas'
  -- the access has not changed what the price depends on
  have slot : s.frame.writtenSlot = ⟨s.frame.address, key⟩ := by
    rw [Frame.writtenSlot, Stack.eq_of_pop2 hpop]
    rfl
  have written : s.frame.writtenValue = value := by
    rw [Frame.writtenValue, Stack.eq_of_pop2 hpop]
    rfl
  have price : s.writePrice c.fork = Gas.storageWrite c.fork
      (Ledger.committedStorage l ⟨s.frame.address, key⟩)
      (Ledger.storage l ⟨s.frame.address, key⟩) value := by
    rw [Local.writePrice, slot, written, hl.sameSlots.committed, hl.sameSlots.storage]
  refine ⟨⟨l, hl.sameSlots, ?_⟩, ?_, ?_⟩
  · rw [slot, written]
    rfl
  · rw [price, ← hrefund, ← hkept]
    rfl
  · rw [price]
    exact Nat.le_trans (Nat.le_of_eq hpaid) hremaining

end Effect

/-! ### Turns -/

section Turns

variable {L : Type} [Ledger L] [LawfulLedger L] [StartValues L]

/-- What an instruction does once it is paid for. -/
theorem Local.paidEffect_refunds (c : Context) (ancestors : List Frame) (i : Instruction)
    (s : Local L) :
    Effect.Ensures (paidEffect c ancestors i)
      (fun flow t => i ≠ .sstore ∧ s.Spares t ∨ flow = .next ∧ s.Wrote c.fork t)
      (fun t => s.Spares t) s := by
  refine .bind (.charge (fun gas hgas => ?_) (.refl s))
  -- the static charge neither gives nor takes a refund
  obtain ⟨-, hremaining, hrefund⟩ := Meter.consume_eq_ok_iff.1 hgas
  have paid : s.Spares { s with frame := { s.frame with gas } } :=
    ⟨.refl _, by rw [hrefund]; exact Nat.min_le_left _ _⟩
  -- a write to storage is the one instruction that may move the counter down
  by_cases hstore : i = .sstore
  · subst hstore
    refine .bind ((Effect.sstore_ensures c _).imp (fun _ t ht => .pure (.inr ⟨rfl, ?_⟩))
      fun t ht => paid.trans ht)
    refine ⟨ht.slots, hrefund ▸ ht.refund, ?_⟩
    have charged := ht.charge
    exact Nat.le_trans charged (Nat.le.intro hremaining)
  · exact (Effect.Ensures.of_final ((Effect.IsSparing.ofInstruction c ancestors hstore).final _)).imp
      (fun _ t ht => .inl ⟨hstore, paid.trans ht⟩) fun t ht => paid.trans ht

/-- A turn writes no slot, or it is a storage write that goes through. -/
theorem Local.turn_refunds {c : Context} {ancestors : List Frame} {s t : Local L}
    {trace trace' : Trace} {o : Outcome} (h : s.turn c ancestors trace = (o, t, trace')) :
    ((∀ e, o ≠ .failed e) → s.frame.nextInstruction c.fork ≠ some .sstore) ∧ s.Spares t ∨
      o = .continues ∧ s.Wrote c.fork t := by
  cases hnext : s.frame.nextInstruction c.fork with
  | none =>
    rw [(turn_ends h hnext).1]
    exact .inl ⟨fun _ => nofun, .refl s⟩
  | some i =>
    have paid := paidEffect_refunds c ancestors i s
    obtain ⟨flow, u, hdone, hfollow⟩ | ⟨⟨e, he⟩, hspares⟩ := turn_ensures h hnext paid
    · obtain ⟨hother, hspares⟩ | ⟨rfl, hwrote⟩ := hdone
      · -- where the program goes on does not matter
        have spared : s.Spares t := by
          cases flow <;> cases hfollow <;> exact ⟨hspares.slots, hspares.refund⟩
        exact .inl ⟨fun _ hstore => hother (Option.some.inj hstore), spared⟩
      · cases hfollow
        exact .inr ⟨rfl, hwrote.slots, hwrote.refund, hwrote.charge⟩
    · exact .inl ⟨fun hfine => absurd he (hfine e), hspares⟩

end Turns

end Evm
