import Evm.Proofs.Ledger.Standard
import Evm.Proofs.Ledger.State

namespace Evm

/-!
# Sessions

A session is what a client may do to a ledger between two points at which the same snapshots are
open: operations one after the other, and in between whole sessions under a snapshot of their own
that is kept or undone at their end.

* `LedgerOp` — an operation that changes a ledger.
* `Session`, `Session.run` — operations with well-nested snapshots, and what they do.
* `Ledger.History` — one ledger comes from another by some session.
* `LawfulLedger` — writes do to the answers of a ledger what they say; a snapshot at the end of any
  session can be kept or undone, and undoing it brings the answers back.
-/

/-! ### Operations -/

/-- An operation that changes a ledger.  Reading changes nothing and needs no place here. -/
inductive LedgerOp where
  | setBalance (address : Address) (balance : Word)
  | setNonce (address : Address) (nonce : Nat)
  | setCode (address : Address) (code : Bytes)
  | setStorage (slot : Slot) (value : Word)
  | clearStorage (address : Address)
  | destroyAccount (address : Address)
  | addBalance (address : Address) (amount : Word)
  | subBalance (address : Address) (amount : Word)
  | incNonce (address : Address)
  | transfer (sender recipient : Address) (value : Word)
  | accessAccount (address : Address)
  | accessSlot (slot : Slot)
  deriving DecidableEq

variable {L : Type} [Ledger L]

/-- The ledger after an operation that it may refuse. -/
def Ledger.orUnchanged (l : L) : Except StateError L → L
  | .ok l' => l'
  | .error _ => l

/-- The ledger after an operation.  One that is refused leaves the ledger as it was. -/
def LedgerOp.apply (l : L) : LedgerOp → L
  | setBalance a balance => Ledger.setBalance l a balance
  | setNonce a nonce => Ledger.setNonce l a nonce
  | setCode a code => Ledger.setCode l a code
  | setStorage s value => Ledger.setStorage l s value
  | clearStorage a => Ledger.clearStorage l a
  | destroyAccount a => Ledger.destroyAccount l a
  | addBalance a amount => Ledger.orUnchanged l (Ledger.addBalance l a amount)
  | subBalance a amount => Ledger.orUnchanged l (Ledger.subBalance l a amount)
  | incNonce a => Ledger.orUnchanged l ((Ledger.incNonce l a).map Prod.snd)
  | transfer sender recipient value =>
    Ledger.orUnchanged l (Ledger.transfer l sender recipient value)
  | accessAccount a => (Ledger.accessAccount l a).2
  | accessSlot s => (Ledger.accessSlot l s).2

/-! ### Operations as series of writes -/

/-- A transfer that goes through either changes nothing or writes both balances. -/
theorem Ledger.transfer_cases [StandardLedger L] {l l' : L} {sender recipient : Address} {value : Word}
    (h : Ledger.transfer l sender recipient value = .ok l') :
    l' = l ∨ sender ≠ recipient ∧ value ≤ Ledger.balance l sender ∧
      ∃ credited, (Ledger.balance l recipient).checkedAdd value = some credited ∧
        l' = Ledger.setBalance
          (Ledger.setBalance l sender (Ledger.balance l sender - value)) recipient credited := by
  -- the four checks of a transfer, in their order
  rw [Ledger.transfer_eq] at h
  split at h
  · exact .inl (Except.ok.inj h).symm
  · split at h
    · cases h
    · rename_i covered
      split at h
      · exact .inl (Except.ok.inj h).symm
      · rename_i different
        split at h
        · rename_i credited hc
          refine .inr ⟨different, BitVec.not_lt.1 covered, credited, hc, (Except.ok.inj h).symm⟩
        · cases h

/-- Ether is added to a balance if the sum is a word. -/
theorem Ledger.addBalance_cases [StandardLedger L] {l l' : L} {a : Address} {amount : Word}
    (h : Ledger.addBalance l a amount = .ok l') :
    ∃ sum, (Ledger.balance l a).checkedAdd amount = some sum ∧ l' = Ledger.setBalance l a sum := by
  rw [Ledger.addBalance_eq] at h
  split at h
  · rename_i sum hsum
    exact ⟨sum, hsum, (Except.ok.inj h).symm⟩
  · cases h

omit [Ledger L] in
/-- What holds whether or not a call is refused. -/
theorem Ledger.orUnchanged_induction {I : L → Prop} {l : L} {r : Except StateError L} (h : I l)
    (hr : ∀ l', r = .ok l' → I l') : I (Ledger.orUnchanged l r) := by
  cases r with
  | ok l' => exact hr l' rfl
  | error e => exact h

/-- What single writes of balances and nonces keep, the operations that are made of them keep. -/
theorem LedgerOp.apply_induction [StandardLedger L] {I : L → Prop}
    (hbalance : ∀ {l : L} (a : Address) (balance : Word), I l → I (Ledger.setBalance l a balance))
    (hnonce : ∀ {l : L} (a : Address) (nonce : Nat), I l → I (Ledger.setNonce l a nonce)) {l : L}
    (h : I l) (hcode : ∀ a code, I (Ledger.setCode l a code))
    (hstorage : ∀ s value, I (Ledger.setStorage l s value))
    (haccount : ∀ a, I (Ledger.accessAccount l a).2) (hslot : ∀ s, I (Ledger.accessSlot l s).2)
    (o : LedgerOp) (hclear : ∀ a, o = clearStorage a → I (Ledger.clearStorage l a))
    (hdestroy : ∀ a, o = destroyAccount a → I (Ledger.destroyAccount l a)) : I (o.apply l) := by
  cases o with
  | setBalance a balance => exact hbalance a balance h
  | setNonce a nonce => exact hnonce a nonce h
  | setCode a code => exact hcode a code
  | setStorage s value => exact hstorage s value
  | clearStorage a => exact hclear a rfl
  | destroyAccount a => exact hdestroy a rfl
  -- the composite operations change balances and nonces only, and change nothing when they are
  -- refused
  | addBalance a amount =>
    refine Ledger.orUnchanged_induction h fun l' hl' => ?_
    obtain ⟨sum, -, rfl⟩ := Ledger.addBalance_cases hl'
    exact hbalance a sum h
  | subBalance a amount =>
    refine Ledger.orUnchanged_induction h fun l' hl' => ?_
    rw [Ledger.subBalance_eq] at hl'
    split at hl'
    · cases hl'
      exact hbalance a _ h
    · cases hl'
  | incNonce a =>
    refine Ledger.orUnchanged_induction h fun l' hl' => ?_
    rw [Ledger.incNonce_eq] at hl'
    split at hl'
    · cases hl'
      exact hnonce a _ h
    · cases hl'
  | transfer sender recipient value =>
    refine Ledger.orUnchanged_induction h fun l' hl' => ?_
    obtain rfl | ⟨-, -, credited, -, rfl⟩ := Ledger.transfer_cases hl'
    · exact h
    · exact hbalance recipient credited (hbalance sender _ h)
  | accessAccount a => exact haccount a
  | accessSlot s => exact hslot s

/-- A relation that holds across each single write, and across any series of them. -/
structure Ledger.ClosedUnderWrites (Q : L → L → Prop) : Prop where
  refl (l : L) : Q l l
  trans {l l' l'' : L} : Q l l' → Q l' l'' → Q l l''
  setBalance (l : L) (a : Address) (balance : Word) : Q l (Ledger.setBalance l a balance)
  setNonce (l : L) (a : Address) (nonce : Nat) : Q l (Ledger.setNonce l a nonce)
  setCode (l : L) (a : Address) (code : Bytes) : Q l (Ledger.setCode l a code)
  setStorage (l : L) (s : Slot) (value : Word) : Q l (Ledger.setStorage l s value)
  clearStorage (l : L) (a : Address) : Q l (Ledger.clearStorage l a)
  destroyAccount (l : L) (a : Address) : Q l (Ledger.destroyAccount l a)
  accessAccount (l : L) (a : Address) : Q l (Ledger.accessAccount l a).2
  accessSlot (l : L) (s : Slot) : Q l (Ledger.accessSlot l s).2

/-- Such a relation holds across every operation. -/
theorem Ledger.ClosedUnderWrites.apply [StandardLedger L] {Q : L → L → Prop}
    (h : Ledger.ClosedUnderWrites Q) (l : L) (o : LedgerOp) : Q l (o.apply l) := by
  refine LedgerOp.apply_induction (I := Q l) (fun {l'} a balance hl => ?_)
    (fun {l'} a nonce hl => ?_) (h.refl l) (h.setCode l) (h.setStorage l) (h.accessAccount l)
    (h.accessSlot l) o (fun a _ => h.clearStorage l a) fun a _ => h.destroyAccount l a
  -- an operation of several writes is followed through the ledgers in between
  · exact h.trans hl (h.setBalance l' a balance)
  · exact h.trans hl (h.setNonce l' a nonce)

/-! ### Sessions -/

/-- Operations with well-nested snapshots. -/
inductive Session where
  | done
  /-- An operation, and what follows. -/
  | op (o : LedgerOp) (rest : Session)
  /-- A session under a snapshot that is kept, and what follows. -/
  | kept (inner rest : Session)
  /-- A session under a snapshot that is undone, and what follows. -/
  | undone (inner rest : Session)
  deriving DecidableEq

namespace Session

/-- The ledger after a session.  Each snapshot is settled by the name it was given when it was
    opened; if the ledger refuses that, so does the session. -/
def run : Session → L → Except StateError L
  | done, l => .ok l
  | op o rest, l => rest.run (o.apply l)
  | kept inner rest, l => do
    let (token, opened) := Ledger.snapshot l
    rest.run (← Ledger.commit (← inner.run opened) token)
  | undone inner rest, l => do
    let (token, opened) := Ledger.snapshot l
    rest.run (← Ledger.rollback (← inner.run opened) token)

/-- One session after another. -/
def append : Session → Session → Session
  | done, t => t
  | op o rest, t => op o (rest.append t)
  | kept inner rest, t => kept inner (rest.append t)
  | undone inner rest, t => undone inner (rest.append t)

/-- Two sessions one after the other. -/
theorem run_append (s t : Session) (l : L) : (s.append t).run l = s.run l >>= t.run := by
  induction s generalizing l with
  | done => rfl
  | op o rest ih => exact ih _
  | kept inner rest _ ih =>
    simp only [append, run, bind_assoc]
    exact bind_congr fun _ => bind_congr fun _ => ih _
  | undone inner rest _ ih =>
    simp only [append, run, bind_assoc]
    exact bind_congr fun _ => bind_congr fun _ => ih _

end Session

/-- A relation that also holds from before a snapshot to after it is settled.  It may say that the
    ledger can settle the snapshot. -/
structure Ledger.ClosedUnderSessions (Q : L → L → Prop) : Prop
    extends Ledger.ClosedUnderWrites Q where
  commit {l l' : L} : Q (Ledger.snapshot l).2 l' →
    ∃ l'', Ledger.commit l' (Ledger.snapshot l).1 = .ok l'' ∧ Q l l''
  rollback {l l' : L} : Q (Ledger.snapshot l).2 l' →
    ∃ l'', Ledger.rollback l' (Ledger.snapshot l).1 = .ok l'' ∧ Q l l''

/-- Such a relation holds across every session, and no session is refused. -/
theorem Ledger.ClosedUnderSessions.run [StandardLedger L] {Q : L → L → Prop}
    (h : Ledger.ClosedUnderSessions Q) (t : Session) (l : L) : ∃ l', t.run l = .ok l' ∧ Q l l' := by
  induction t generalizing l with
  | done => exact ⟨l, rfl, h.refl l⟩
  | op o rest ih =>
    obtain ⟨l', hrun, hl'⟩ := ih (o.apply l)
    exact ⟨l', hrun, h.trans (h.toClosedUnderWrites.apply l o) hl'⟩
  | kept inner rest ihInner ihRest =>
    -- what holds from the opened snapshot on lets it be settled, and then holds from before it
    obtain ⟨l₁, hrun₁, hl₁⟩ := ihInner (Ledger.snapshot l).2
    obtain ⟨l₂, hsettle, hl₂⟩ := h.commit hl₁
    obtain ⟨l₃, hrun₃, hl₃⟩ := ihRest l₂
    refine ⟨l₃, ?_, h.trans hl₂ hl₃⟩
    simp only [Session.run, hrun₁]
    exact (congrArg (· >>= rest.run) hsettle).trans hrun₃
  | undone inner rest ihInner ihRest =>
    obtain ⟨l₁, hrun₁, hl₁⟩ := ihInner (Ledger.snapshot l).2
    obtain ⟨l₂, hsettle, hl₂⟩ := h.rollback hl₁
    obtain ⟨l₃, hrun₃, hl₃⟩ := ihRest l₂
    refine ⟨l₃, ?_, h.trans hl₂ hl₃⟩
    simp only [Session.run, hrun₁]
    exact (congrArg (· >>= rest.run) hsettle).trans hrun₃

/-! ### Histories -/

namespace Ledger

/-- The second ledger comes from the first by some session. -/
def History (l l' : L) : Prop := ∃ t : Session, t.run l = .ok l'

namespace History

/-- Nothing happened. -/
theorem refl (l : L) : History l l := ⟨.done, rfl⟩

/-- One history after another. -/
theorem trans {l l' l'' : L} (h : History l l') (k : History l' l'') : History l l'' := by
  obtain ⟨s, hs⟩ := h
  obtain ⟨t, ht⟩ := k
  refine ⟨s.append t, ?_⟩
  rw [Session.run_append, hs]
  exact ht

/-- A single operation. -/
theorem op (l : L) (o : LedgerOp) : History l (o.apply l) := ⟨.op o .done, rfl⟩

/-- A snapshot that was committed. -/
theorem kept {l l' l'' : L} (h : History (snapshot l).2 l')
    (k : commit l' (snapshot l).1 = .ok l'') : History l l'' := by
  obtain ⟨t, ht⟩ := h
  refine ⟨.kept t .done, ?_⟩
  simp only [Session.run, ht]
  exact (congrArg (· >>= Session.done.run) k)

/-- A snapshot that was rolled back. -/
theorem undone {l l' l'' : L} (h : History (snapshot l).2 l')
    (k : rollback l' (snapshot l).1 = .ok l'') : History l l'' := by
  obtain ⟨t, ht⟩ := h
  refine ⟨.undone t .done, ?_⟩
  simp only [Session.run, ht]
  exact (congrArg (· >>= Session.done.run) k)

end History

/-- What holds across every session holds across every history. -/
theorem ClosedUnderSessions.of_history [StandardLedger L] {Q : L → L → Prop}
    (h : ClosedUnderSessions Q) {l l' : L} (k : History l l') : Q l l' := by
  obtain ⟨t, ht⟩ := k
  obtain ⟨l₁, hrun, hl₁⟩ := h.run t l
  rw [ht] at hrun
  cases hrun
  exact hl₁

end Ledger

/-! ### Lawful ledgers -/

open Ledger in
/-- A ledger whose answers follow its operations.  Clearing storage is only described together
    with the nonce that is set next: alone, it may or may not bring the account into being. -/
class LawfulLedger (L : Type) [Ledger L] : Prop extends StandardLedger L where
  state_setBalance (l : L) (a : Address) (balance : Word) :
    state (setBalance l a balance) = (state l).setBalance a balance
  state_setNonce (l : L) (a : Address) (nonce : Nat) :
    state (setNonce l a nonce) = (state l).setNonce a nonce
  state_setCode (l : L) (a : Address) (code : Bytes) :
    state (setCode l a code) = (state l).setCode a code
  state_setStorage (l : L) (s : Slot) (value : Word) :
    state (setStorage l s value) = (state l).setStorage s value
  state_reset (l : L) (a : Address) (nonce : Nat) :
    state (setNonce (clearStorage l a) a nonce) = (state l).reset a nonce
  state_destroyAccount (l : L) (a : Address) :
    state (destroyAccount l a) = (state l).destroyAccount a
  state_accessAccount (l : L) (a : Address) : state (accessAccount l a).2 = state l
  state_accessSlot (l : L) (s : Slot) : state (accessSlot l s).2 = state l
  warmth_setBalance (l : L) (a : Address) (balance : Word) :
    warmth (setBalance l a balance) = warmth l
  warmth_setNonce (l : L) (a : Address) (nonce : Nat) : warmth (setNonce l a nonce) = warmth l
  warmth_setCode (l : L) (a : Address) (code : Bytes) : warmth (setCode l a code) = warmth l
  warmth_setStorage (l : L) (s : Slot) (value : Word) : warmth (setStorage l s value) = warmth l
  warmth_clearStorage (l : L) (a : Address) : warmth (clearStorage l a) = warmth l
  warmth_destroyAccount (l : L) (a : Address) : warmth (destroyAccount l a) = warmth l
  warmth_accessAccount (l : L) (a : Address) :
    warmth (accessAccount l a).2 = (warmth l).touchAccount a
  warmth_accessSlot (l : L) (s : Slot) : warmth (accessSlot l s).2 = (warmth l).touchSlot s
  state_snapshot (l : L) : state (snapshot l).2 = state l
  warmth_snapshot (l : L) : warmth (snapshot l).2 = warmth l
  /-- A snapshot can be kept after any session. -/
  commit_history {l l' : L} (h : History (snapshot l).2 l') :
    ∃ l'', commit l' (snapshot l).1 = .ok l'' ∧ state l'' = state l' ∧ warmth l'' = warmth l'
  /-- A snapshot can be undone after any session, and then all is as when it was taken. -/
  rollback_history {l l' : L} (h : History (snapshot l).2 l') :
    ∃ l'', rollback l' (snapshot l).1 = .ok l'' ∧ state l'' = state l ∧ warmth l'' = warmth l

attribute [simp] LawfulLedger.state_setBalance LawfulLedger.state_setNonce
  LawfulLedger.state_setCode LawfulLedger.state_setStorage LawfulLedger.state_reset
  LawfulLedger.state_destroyAccount LawfulLedger.state_accessAccount LawfulLedger.state_accessSlot
  LawfulLedger.warmth_setBalance LawfulLedger.warmth_setNonce LawfulLedger.warmth_setCode
  LawfulLedger.warmth_setStorage LawfulLedger.warmth_clearStorage
  LawfulLedger.warmth_destroyAccount LawfulLedger.warmth_accessAccount
  LawfulLedger.warmth_accessSlot LawfulLedger.state_snapshot LawfulLedger.warmth_snapshot

end Evm
