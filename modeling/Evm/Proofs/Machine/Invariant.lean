import Evm.Proofs.Machine.Lockstep

namespace Evm

/-!
# Invariants of the ledger

A property of the ledger that survives all that the machine may do to it holds after every message.
The machine does less than a client could: storage is emptied only where a contract is created, on
an account that holds nothing, and snapshots are settled in the frame that opened them.

* `LedgerInvariant` — such a property.
* `LedgerInvariant.diagonal` — a ledger with it is coupled to itself.
* `LedgerInvariant.execute` — it holds after every message.
* `LedgerInvariant.steps_related` — a machine stays where the coupling says.
-/

/-- A property of ledgers that survives what the machine does. -/
structure LedgerInvariant {L : Type} [Ledger L] (I : L → Prop) : Prop where
  setBalance {l : L} : I l → ∀ a balance, I (Ledger.setBalance l a balance)
  setNonce {l : L} : I l → ∀ a nonce, I (Ledger.setNonce l a nonce)
  setCode {l : L} : I l → ∀ a code, I (Ledger.setCode l a code)
  setStorage {l : L} : I l → ∀ s value, I (Ledger.setStorage l s value)
  reset {l : L} : I l → ∀ a nonce, Ledger.isOccupied l a = false →
    I (Ledger.setNonce (Ledger.clearStorage l a) a nonce)
  destroyAccount {l : L} : I l → ∀ a, I (Ledger.destroyAccount l a)
  accessAccount {l : L} : I l → ∀ a, I (Ledger.accessAccount l a).2
  accessSlot {l : L} : I l → ∀ s, I (Ledger.accessSlot l s).2
  snapshot {l : L} : I l → I (Ledger.snapshot l).2
  commit {b l l' : L} : I b → I l → Ledger.History (Ledger.snapshot b).2 l →
    Ledger.commit l (Ledger.snapshot b).1 = .ok l' → I l'
  rollback {b l l' : L} : I b → I l → Ledger.History (Ledger.snapshot b).2 l →
    Ledger.rollback l (Ledger.snapshot b).1 = .ok l' → I l'

namespace LedgerInvariant

variable {L : Type} [Ledger L] {I : L → Prop}

/-- Nothing at all is asked. -/
theorem trivial : LedgerInvariant fun _ : L => True := by
  constructor <;> intros <;> exact True.intro

/-- A ledger with the property is coupled to itself.  Every account counts as rooted. -/
def diagonal (h : LedgerInvariant I) : EngineCoupling L L where
  twin l k := l = k ∧ I l
  rooted _ _ := True
  answers := by
    rintro l _ ⟨rfl, -⟩
    exact ⟨rfl, fun _ => rfl, fun _ => rfl, rfl⟩
  isOccupied := by
    rintro l _ ⟨rfl, -⟩ a
    rfl
  setBalance := by
    rintro l _ ⟨rfl, hl⟩ a balance
    exact ⟨rfl, h.setBalance hl a balance⟩
  setNonce := by
    rintro l _ ⟨rfl, hl⟩ a nonce
    exact ⟨rfl, h.setNonce hl a nonce⟩
  setCode := by
    rintro l _ ⟨rfl, hl⟩ a code -
    exact ⟨rfl, h.setCode hl a code⟩
  setStorage := by
    rintro l _ ⟨rfl, hl⟩ s value -
    exact ⟨rfl, h.setStorage hl s value⟩
  reset := by
    rintro l _ ⟨rfl, hl⟩ a nonce hfree
    exact ⟨rfl, h.reset hl a nonce hfree⟩
  destroyAccount := by
    rintro l _ ⟨rfl, hl⟩ a
    exact ⟨rfl, h.destroyAccount hl a⟩
  accessAccount := by
    rintro l _ ⟨rfl, hl⟩ a
    exact ⟨rfl, h.accessAccount hl a⟩
  accessSlot := by
    rintro l _ ⟨rfl, hl⟩ s
    exact ⟨rfl, h.accessSlot hl s⟩
  snapshot := by
    rintro l _ ⟨rfl, hl⟩
    exact ⟨rfl, h.snapshot hl⟩
  commit := by
    rintro b l l' _ _ k' ⟨rfl, hb⟩ ⟨rfl, hl⟩ hsince - hl' hk'
    exact ⟨Except.ok.inj (hl'.symm.trans hk'), h.commit hb hl hsince hl'⟩
  rollback := by
    rintro b l l' _ _ k' ⟨rfl, hb⟩ ⟨rfl, hl⟩ hsince - hl' hk'
    exact ⟨Except.ok.inj (hl'.symm.trans hk'), h.rollback hb hl hsince hl'⟩
  rooted_history _ _ := True.intro
  rooted_commit _ _ := True.intro
  rooted_snapshot _ := True.intro
  rooted_reset _ _ _ := True.intro
  rooted_destroyAccount _ _ := True.intro

variable [LawfulLedger L]

/-- The property holds after every message. -/
theorem execute (h : LedgerInvariant I) (c : Context) {l : L} (hl : I l) (message : Message)
    (observer : Observer) : I (Evm.execute c l message observer).ledger :=
  (EngineCoupling.execute_alike (C := h.diagonal) c ⟨rfl, hl⟩
    (fun _ => .inr (.inr (.inl True.intro))) observer).ledger.2

/-! ### One machine -/

omit [LawfulLedger L] in
/-- An invariant is a relation of a fresh frame with itself. -/
theorem related_of_isFresh (h : LedgerInvariant I) {c : Context} {m : Machine L}
    (hfresh : m.IsFresh c) (hl : I m.ledger) :
    h.diagonal.Related c m.below m.below m.ledger m.ledger m m := by
  obtain ⟨message, refund, htop⟩ := hfresh
  have halive : h.diagonal.Alive c m.top m.top m.ledger m.ledger m.ledger m.ledger := by
    rw [htop]
    exact ⟨rfl, ⟨rfl, hl⟩, ⟨rfl, hl⟩, .created rfl rfl rfl (.inr (.inr (.inl True.intro)))⟩
  exact ⟨rfl, m.ledger, m.ledger, .base, halive⟩

/-- As long as the lowest frames of concern stay, a machine stays related to itself. -/
theorem steps_related (h : LedgerInvariant I) {c : Context} {low : List Frame} {e : L}
    {m m' : Machine L} (hsteps : Machine.Steps c low.length m m')
    (hm : h.diagonal.Related c low low e e m m) : h.diagonal.Related c low low e e m' m' := by
  have hlow : EngineCoupling.TwinFrames low low := List.forall₂_same.2 fun _ _ => rfl
  induction hsteps with
  | refl => exact hm
  | tail _ hstep hfloor ih =>
    -- the next step keeps the relation because it does not leave the frames of concern
    have hnext := EngineCoupling.step_alike hlow ih
    rw [hstep] at hnext
    cases hnext with
    | running hrelated => exact hrelated hfloor

end LedgerInvariant

end Evm
