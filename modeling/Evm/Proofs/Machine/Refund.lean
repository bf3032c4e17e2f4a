import Evm.Proofs.Instruction.Refund
import Evm.Proofs.Ledger.Populated
import Evm.Proofs.Machine.ClearingLoop
import Evm.Proofs.Machine.Gas
import Evm.Proofs.Machine.Snapshots

namespace Evm

/-!
# The refund counter covers what writes take from it

A child starts from the refund counter of its parent, which takes the counter over if the child
succeeds and keeps its own if it fails.  The slots follow: those that a failed child has cleared are
as before again.  So at all times the counter of the top frame holds the refund for every slot that
is cleared, as long as that refund is a counter at all, and no write takes more than that.

* `Machine.Refunds` — what lies between two machines does not lose a refund.
* `Machine.Course.refunds` — the course of a frame does not.
* `RefundsCovered` — what this means for an execution.
* `refunds_covered` — every transaction under net metering is like that.
-/

open Ledger

variable {L : Type} [Ledger L] [LawfulLedger L] [StartValues L]

/-! ### Entering and leaving -/

/-- What a creation does before its snapshot writes no slot. -/
theorem Message.sameSlots_entered (c : Context) (m : Message) (l : L) :
    SameSlots l (m.entered c l) := by
  unfold entered
  split
  · dsimp only
    split
    · exact (sameSlots_setNonce l _ _).trans (sameSlots_accessAccount _ _)
    · exact sameSlots_setNonce l _ _
  · exact .refl l

namespace Local

/-- Preparing a frame writes no slot: storage that it empties is empty. -/
theorem sameSlots_attempt_prepare [LawfulStorage L] (c : Context) (s : Local L) :
    SameSlots s.ledger (s.attempt (Effect.prepare c)).2.ledger := by
  have prepared := s.attempt_prepare_ledger c
  generalize (s.attempt (Effect.prepare c)).2.ledger = l at prepared ⊢
  induction prepared with
  | refused => exact .refl _
  | opened => exact (s.frame.message.sameSlots_entered c _).trans (sameSlots_snapshot _)
  | cleared _ hfree ih => exact ih.trans (sameSlots_reset hfree _)
  | moved _ _ ht ih => exact ih.trans (sameSlots_transfer ht)

/-- Depositing code writes no slot. -/
theorem sameSlots_deposited (c : Context) (s : Local L) :
    SameSlots s.ledger (s.deposited c).2.ledger := by
  rcases s.deposited_ledger c with hsame | ⟨code, hcoded⟩
  · rw [hsame]
    exact .refl _
  · rw [hcoded]
    exact sameSlots_setCode s.ledger _ code

end Local

namespace Machine

variable {c : Context} {m m' m'' last : Machine L}

/-- The counter of the top frame holds the refund for the slots that are cleared. -/
def Covers (fork : Fork) (m : Machine L) : Prop := m.toLocal.Covers fork

/-- The refund for the slots that are cleared is a counter. -/
def IsCountable (fork : Fork) (m : Machine L) : Prop :=
  clearedWorth fork m.ledger ≤ Counter.limit

/-- What lies between the machines loses no refund, as far as refunds are counters, has been paid
    for all slots that are changed, and makes no slot one that was not zero at the start. -/
structure Refunds (c : Context) (m m' : Machine L) : Prop where
  covers : m.Covers c.fork →
    (∀ x, Steps c 0 m x → Steps c 0 x m' → x.IsCountable c.fork) → m'.Covers c.fork
  paid : changedWorth c.fork m'.ledger + m'.gas ≤ changedWorth c.fork m.ledger + m.gas
  started (s : Slot) : committedStorage m'.ledger s = committedStorage m.ledger s ∨
    committedStorage m'.ledger s = 0

namespace Refunds

omit [LawfulLedger L] [StartValues L] in
/-- Nothing is lost where nothing is done. -/
theorem refl (m : Machine L) : Refunds c m m :=
  ⟨fun h _ => h, Nat.le_refl _, fun _ => .inl rfl⟩

omit [LawfulLedger L] [StartValues L] in
/-- No refund is lost over two stretches if none is over each. -/
theorem trans (h : Refunds c m m') (k : Refunds c m' m'') (hsteps : Steps c 0 m m')
    (ksteps : Steps c 0 m' m'') : Refunds c m m'' := by
  refine ⟨fun hcovers hrange => ?_, Nat.le_trans k.paid h.paid, fun s => ?_⟩
  · refine k.covers (h.covers hcovers fun x hx hx' => ?_) fun x hx hx' => ?_
    · exact hrange x hx (hx'.trans ksteps)
    · exact hrange x (hsteps.trans hx) hx'
  · rcases k.started s with hk | hk
    · exact hk ▸ h.started s
    · exact .inr hk

omit [LawfulLedger L] [StartValues L] in
/-- No slot is written. -/
theorem of_spares (h : m.toLocal.Spares m'.toLocal) (hgas : m'.gas ≤ m.gas)
    (hsteps : Steps c 0 m m') : Refunds c m m' := by
  refine ⟨fun hcovers hrange => ?_, ?_, fun s => .inl (h.slots.committed s)⟩
  · exact h.covers (s := m.toLocal) hcovers (hrange m' hsteps (.refl m'))
  · have same := h.slots.changedWorth c.fork
    change changedWorth c.fork m'.ledger = changedWorth c.fork m.ledger at same
    omega

end Refunds

/-! ### Steps -/

/-- A turn writes no slot, or it does what the operands tell. -/
theorem turn_refunds {o : Outcome} {s : Local L} {t : Trace} (h : m.turn c = (o, s, t)) :
    m.toLocal.Spares s ∨ o = .continues ∧ m.running.Wrote c.fork s := by
  obtain ⟨-, hspares⟩ | hwrote := Local.turn_refunds h
  · exact .inl ⟨hspares.slots, hspares.refund⟩
  · exact .inr hwrote

/-- A write settles with the counter, and is paid for. -/
theorem refunds_of_wrote {s : Local L} {t : Trace} (hnet : c.fork.netMetering = true)
    (h : m.running.Wrote c.fork s) (hsteps : Steps c 0 m (m.landed s t)) :
    Refunds c m (m.landed s t) := by
  refine ⟨fun hcovers hrange => ?_, ?_, fun slot => .inl ?_⟩
  · exact h.covers hnet hcovers (hrange _ hsteps (.refl _))
  · have paid := h.changedWorth_le hnet
    change changedWorth c.fork s.ledger + _ ≤ changedWorth c.fork m.ledger + m.top.gas.remaining
      at paid
    simp only [gas, landed]
    omega
  · obtain ⟨l, hslots, hledger⟩ := h.slots
    show committedStorage s.ledger slot = _
    rw [hledger, committedStorage_setStorage]
    exact hslots.committed slot

/-- A step that pops no frame. -/
theorem refunds_of_step [LawfulStorage L] (hnet : c.fork.netMetering = true)
    (hstep : m.step c = .running m') (hstays : m.below.length ≤ m'.below.length) :
    Refunds c m m' := by
  have hsteps : Steps c 0 m m' := .tail (.refl m) hstep (Nat.zero_le _)
  have h := step_cases hstep
  have hgas := step_gas h
  cases h with
  | prepares _ =>
    refine .of_spares ⟨m.toLocal.sameSlots_attempt_prepare c, ?_⟩ hgas hsteps
    show min m.top.gas.refund _ ≤ (m.prepare c).top.gas.refund
    rw [prepare_gas]
    exact Nat.min_le_left _ _
  | enters _ =>
    refine .of_spares ⟨?_, ?_⟩ hgas hsteps
    · show SameSlots m.ledger (m.enter c).ledger
      rw [(m.enter_records c).2.2.2]
      exact .refl _
    · show min m.top.gas.refund _ ≤ (m.enter c).top.gas.refund
      rw [(m.enter_gas c).2.2]
      exact Nat.min_le_left _ _
  | continues _ hturn =>
    obtain hspares | ⟨-, hwrote⟩ := turn_refunds hturn
    · exact .of_spares hspares hgas hsteps
    · exact refunds_of_wrote hnet hwrote hsteps
  | ends _ hturn hends =>
    obtain hspares | ⟨rfl, -⟩ := turn_refunds hturn
    · exact .of_spares ⟨hspares.slots, hspares.refund⟩ hgas hsteps
    · cases hends
  | spawns _ hturn =>
    -- the child starts from the counter of its parent
    obtain hspares | ⟨hnever, -⟩ := turn_refunds hturn
    · exact .of_spares ⟨hspares.slots, hspares.refund⟩ hgas hsteps
    · cases hnever
  | pops _ hbelow =>
    rw [hbelow] at hstays
    exact absurd hstays (Nat.not_succ_le_self _)

omit [LawfulLedger L] [StartValues L] in
/-- A frame that waits for a new child has the counter that the child starts from. -/
theorem refund_waiting (hstep : m.step c = .running m')
    (hhigher : m'.below.length = m.below.length + 1) :
    ∃ waiting, m'.below = waiting :: m.below ∧ waiting.gas.refund = m'.top.gas.refund := by
  obtain ⟨message, k, s, t, -, -, rfl⟩ := (step_cases hstep).exists_request hhigher
  exact ⟨_, rfl, rfl⟩

/-! ### Ends of frames -/

/-- The slots when a frame is popped: those at its end if it has succeeded, and those from before
    otherwise. -/
theorem Popped.slots (h : Popped c m last m') :
    (last.topResult c).isSuccess = true ∧ SameSlots last.ledger m'.ledger ∨
      (last.topResult c).isSuccess = false ∧ Undone m.ledger m'.ledger := by
  rw [h.ledger_eq]
  cases h.settled with
  | refused _ _ hnothing _ _ hend hfailed =>
    rw [hend, hnothing]
    exact .inr ⟨hfailed, (SameSlots.refl m.ledger).undone⟩
  | kept _ _ _ hcommit hstate hsuccess =>
    exact .inl ⟨hsuccess, (last.toLocal.sameSlots_deposited c).trans
      (.of_noted (StartValues.noted_commit hcommit) (congrArg LedgerState.storage hstate))⟩
  | undone _ _ hhistory _ hrollback _ _ hfailed =>
    exact .inr ⟨hfailed, (m.top.message.sameSlots_entered c m.ledger).trans_undone
      (undone_of_rollback hhistory hrollback)⟩

/-- A frame that is popped has lost no refund since its end, or since it was put on the stack. -/
theorem Popped.refunds {waiting : Frame} {rest : List Frame} (h : Popped c m last m')
    (hbelow : m.below = waiting :: rest) (hrefund : waiting.gas.refund = m.top.gas.refund) :
    Refunds c last m' ∨ Refunds c m m' := by
  obtain ⟨-, parent, hparent, hhanded⟩ := h.handedTo
  have hsteps : Steps c 0 last m' := .tail (.refl last) h.step (Nat.zero_le _)
  have hcounter := (last.handedTo_gas c parent m'.below).2.2
  rw [← hhanded] at hcounter
  obtain ⟨hsuccess, hsame⟩ | ⟨hfailed, hundone⟩ := h.slots
  · -- the parent takes the counter over
    left
    refine .of_spares ⟨hsame, ?_⟩ (step_gas (step_cases h.step)) hsteps
    show min last.top.gas.refund _ ≤ m'.top.gas.refund
    rw [hcounter.trans (if_pos hsuccess)]
    exact Nat.min_le_left _ _
  · -- the parent still has the counter that the child has started from
    right
    have hwaiting : parent = waiting := by
      have hsame := h.course.below_eq
      rw [hparent, hbelow] at hsame
      exact (List.cons.inj hsame).1
    have hkept : m'.top.gas.refund = m.top.gas.refund := by
      rw [hcounter.trans (if_neg (ne_true_of_eq_false hfailed)), hwaiting, hrefund]
    have hgas : m'.gas ≤ m.gas :=
      Nat.le_trans (step_gas (step_cases h.step)) h.steps.gas_le
    have hcleared := hundone.clearedWorth_le c.fork
    have hchanged := hundone.changedWorth_le c.fork
    refine ⟨fun hcovers _ => ?_, Nat.add_le_add hchanged hgas, hundone.committed⟩
    show clearedWorth c.fork m'.ledger ≤ m'.top.gas.refund
    rw [hkept]
    exact Nat.le_trans hcleared hcovers

/-! ### Courses -/

/-- The course of a frame loses no refund. -/
theorem Course.refunds [LawfulStorage L] (hnet : c.fork.netMetering = true) (h : Course c m m') :
    Refunds c m m' := by
  -- by induction on the course: a child that succeeds adds its own, and one that fails adds nothing
  induction h with
  | refl m => exact .refl m
  | @own m m₁ m₂ hcourse hstep hbelow ih =>
    exact ih.trans (refunds_of_step hnet hstep (Nat.le_of_eq (by rw [hbelow])))
      (hcourse.steps.weaken (Nat.zero_le _)) (.tail (.refl m₁) hstep (Nat.zero_le _))
  | @child m m₁ m₂ last m₃ hcourse hspawn hfresh hhigher hchild hpop hback ih ihchild =>
    have hpopped := hchild.popped hfresh hpop (by omega)
    obtain ⟨waiting, hwaiting, hcounter⟩ := refund_waiting hspawn hhigher
    -- the steps in between
    have before : Steps c 0 m m₁ := hcourse.steps.weaken (Nat.zero_le _)
    have spawned : Steps c 0 m₁ m₂ := .tail (.refl m₁) hspawn (Nat.zero_le _)
    have lived : Steps c 0 m₂ last := hchild.steps.weaken (Nat.zero_le _)
    have ended : Steps c 0 last m₃ := .tail (.refl last) hpop (Nat.zero_le _)
    have start : Refunds c m m₂ :=
      ih.trans (refunds_of_step hnet hspawn (by omega)) before spawned
    have whole : Refunds c m₂ m₃ := by
      obtain hkept | hundone := hpopped.refunds hwaiting hcounter
      · exact ihchild.trans hkept lived ended
      · exact hundone
    exact start.trans whole (before.trans spawned) (lived.trans ended)

/-- Nor is any lost up to some child deep inside. -/
theorem Nested.refunds [LawfulStorage L] (hnet : c.fork.netMetering = true) (h : Nested c m m') :
    Refunds c m m' := by
  induction h with
  | here hcourse => exact hcourse.refunds hnet
  | @under m m₁ m₂ m' hcourse hspawn _ hhigher hnested ih =>
    have before : Steps c 0 m m₁ := hcourse.steps.weaken (Nat.zero_le _)
    have spawned : Steps c 0 m₁ m₂ := .tail (.refl m₁) hspawn (Nat.zero_le _)
    have start : Refunds c m m₂ := (hcourse.refunds hnet).trans
      (refunds_of_step hnet hspawn (by omega)) before spawned
    exact start.trans ih (before.trans spawned) (hnested.steps.weaken (Nat.zero_le _))

/-! ### Whole executions -/

section Executions

variable {l : L} {message : Message} {observer : Observer}

omit [LawfulLedger L] [StartValues L] in
/-- Up to the machine, the refund for the slots that are cleared has always been a counter. -/
def CountableUpTo (c : Context) (l : L) (message : Message) (observer : Observer) (m : Machine L) :
    Prop :=
  ∀ x, Visited c l message observer x → Steps c 0 x m → x.IsCountable c.fork

/-- Accesses from the start write no slot. -/
theorem sameSlots_launch (c : Context) (l : L) (message : Message) (observer : Observer) :
    SameSlots l (launch c l message observer).ledger :=
  (accessed_foldl l _).sameSlots

variable [LawfulStorage L] (hnet : c.fork.netMetering = true)
  (hbegun : ∀ s, StartValues.noted l s = none)

include hnet in
/-- No refund is lost on the way to any machine of an execution. -/
theorem Visited.refunds (h : Visited c l message observer m) :
    Refunds c (launch c l message observer) m :=
  Nested.refunds hnet (Steps.nested h.steps)

include hnet hbegun

/-- So its counter covers the slots that are cleared, as far as their refund is a counter. -/
theorem Visited.covers (h : Visited c l message observer m)
    (hcount : CountableUpTo c l message observer m) : m.Covers c.fork := by
  refine (h.refunds hnet).covers ?_ fun x hx hx' => hcount x ⟨h.depth, hx⟩ hx'
  -- at the start there is nothing to cover
  have none : cleared (launch c l message observer).ledger = ∅ := by
    rw [(sameSlots_launch c l message observer).cleared, ← Set.subset_empty_iff,
      ← changed_of_noted hbegun]
    exact cleared_subset_changed l
  show clearedWorth c.fork (launch c l message observer).ledger ≤ _
  rw [clearedWorth, none, Set.ncard_empty]
  exact Nat.zero_le _

/-- The gas of the message has paid for every slot that is changed. -/
theorem Visited.changedWorth_le (h : Visited c l message observer m) :
    changedWorth c.fork m.ledger ≤ message.gasLimit := by
  have paid := (h.refunds hnet).paid
  have none : changedWorth c.fork (launch c l message observer).ledger = 0 := by
    rw [(sameSlots_launch c l message observer).changedWorth, changedWorth, changed_of_noted hbegun,
      Set.ncard_empty]
    rfl
  have given : (launch c l message observer).gas = message.gasLimit := message.gasLimit_resolve l
  omega

/-- Only slots that were not zero at the start are cleared. -/
theorem Visited.cleared_subset (h : Visited c l message observer m) :
    cleared m.ledger ⊆ {s | storage l s ≠ 0} := by
  rintro s ⟨hstart, -⟩
  have hsame := ((h.refunds hnet).started s).resolve_right hstart
  rw [(sameSlots_launch c l message observer).committed, committedStorage_of_noted hbegun] at hsame
  show storage l s ≠ 0
  rwa [← hsame]

end Executions

end Machine

end Evm
