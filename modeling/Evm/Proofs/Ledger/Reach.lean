import Evm.Proofs.Ledger.StartValues
import Evm.Proofs.Ledger.Supply

namespace Evm

/-!
# Ledgers in the course of a transaction

A client works on a ledger by single operations, and opens, keeps and undoes snapshots in between,
the last one first.  As long as it destroys no account, and empties only storage that is empty, the
ledger tells of every slot at any time what it held when the transaction started.

* `LedgerOp.IsGuarded` — an operation that takes no value of a slot away.
* `Ledger.Reached` — the ledgers that a client can come to, and the snapshots that are open there.
* `Ledger.Remembers` — a ledger tells the same values at the start as another one.
* `Ledger.Layered` — each open snapshot was taken of a ledger that is remembered.
* `Ledger.Layered.commit`, `Ledger.Layered.rollback` — the latest snapshot can be settled.
* `Ledger.Reached.committedStorage` — the values at the start, wherever a client has come to.
-/

/-- An operation that takes no value of a slot away but by writing the slot: it destroys no account,
    and it empties storage only if there is none. -/
def LedgerOp.IsGuarded {L : Type} [Ledger L] (l : L) : LedgerOp → Prop
  | destroyAccount _ => False
  | clearStorage a => Ledger.hasStorage l a = false
  | _ => True

namespace Ledger

variable {L : Type} [Ledger L]

/-- What a client can come to from a ledger by guarded operations, with the names of the snapshots
    that it has opened since and not yet settled, latest first. -/
inductive Reached (b : L) : List Nat → L → Prop where
  | start : Reached b [] b
  | op {tokens : List Nat} {l : L} (o : LedgerOp) : Reached b tokens l → o.IsGuarded l →
      Reached b tokens (o.apply l)
  | snapshot {tokens : List Nat} {l : L} : Reached b tokens l →
      Reached b ((snapshot l).1 :: tokens) (snapshot l).2
  | commit {token : Nat} {tokens : List Nat} {l l' : L} : Reached b (token :: tokens) l →
      commit l token = .ok l' → Reached b tokens l'
  | rollback {token : Nat} {tokens : List Nat} {l l' : L} : Reached b (token :: tokens) l →
      rollback l token = .ok l' → Reached b tokens l'

/-! ### Values that are remembered -/

/-- The second ledger knows what the first one has noted, and tells the same value of every slot at
    the start. -/
structure Remembers [StartValues L] (b l : L) : Prop where
  noted {s : Slot} {value : Word} :
    StartValues.noted b s = some value → StartValues.noted l s = some value
  committed (s : Slot) : committedStorage l s = committedStorage b s

namespace Remembers

variable [StartValues L] {b l l' : L}

/-- A ledger remembers itself. -/
theorem refl (l : L) : Remembers l l := ⟨id, fun _ => rfl⟩

/-- What is remembered twice is remembered. -/
theorem trans (h : Remembers b l) (k : Remembers l l') : Remembers b l' :=
  ⟨fun hb => k.noted (h.noted hb), fun s => (k.committed s).trans (h.committed s)⟩

/-- To remember is more than to recall. -/
theorem recalls (h : Remembers b l) : Recalls b l := ⟨h.noted, fun s => .inl (h.committed s)⟩

/-- A ledger with the same notes and the same slots remembers. -/
theorem of_sameSlots (hnoted : StartValues.noted l = StartValues.noted b) (h : SameSlots b l) :
    Remembers b l :=
  ⟨fun hb => hnoted ▸ hb, h.committed⟩

/-- Storage is as it was before, and what was noted since is kept. -/
theorem of_undone (h : Remembers b l) (hnoted : StartValues.noted l' = StartValues.noted l)
    (hstorage : storage l' = storage b) : Remembers b l' := by
  refine ⟨fun hb => hnoted ▸ h.noted hb, fun s => ?_⟩
  rcases h.recalls.committed_of_undone hnoted hstorage s with hlast | hfirst
  · exact hlast.trans (h.committed s)
  · exact hfirst

variable [LawfulLedger L]

/-- A balance is no slot. -/
theorem setBalance (l : L) (a : Address) (balance : Word) : Remembers l (setBalance l a balance) :=
  of_sameSlots (StartValues.noted_setBalance l a balance) (sameSlots_setBalance l a balance)

/-- Nor is a nonce. -/
theorem setNonce (l : L) (a : Address) (nonce : Nat) : Remembers l (setNonce l a nonce) :=
  of_sameSlots (StartValues.noted_setNonce l a nonce) (sameSlots_setNonce l a nonce)

/-- Nor is code. -/
theorem setCode (l : L) (a : Address) (code : Bytes) : Remembers l (setCode l a code) :=
  of_sameSlots (StartValues.noted_setCode l a code) (sameSlots_setCode l a code)

/-- A write notes the value from before it, if there is no note. -/
theorem setStorage (l : L) (s : Slot) (value : Word) : Remembers l (setStorage l s value) :=
  ⟨(Recalls.setStorage l s value).noted, fun t =>
    congrFun (committedStorage_setStorage l s value) t⟩

/-- Storage that is emptied was empty. -/
theorem clearStorage [LawfulStorage L] {l : L} {a : Address} (h : hasStorage l a = false) :
    Remembers l (clearStorage l a) :=
  of_sameSlots (StartValues.noted_clearStorage l a) (sameSlots_clearStorage h)

/-- An access to an account changes no slot. -/
theorem accessAccount (l : L) (a : Address) : Remembers l (accessAccount l a).2 :=
  of_sameSlots (StartValues.noted_accessAccount l a) (sameSlots_accessAccount l a)

/-- Nor does an access to a slot. -/
theorem accessSlot (l : L) (s : Slot) : Remembers l (accessSlot l s).2 :=
  of_sameSlots (StartValues.noted_accessSlot l s) (sameSlots_accessSlot l s)

/-- Nor does a snapshot. -/
theorem snapshot (l : L) : Remembers l (snapshot l).2 :=
  of_sameSlots (StartValues.noted_snapshot l) (sameSlots_snapshot l)

/-- Nor does money that comes in. -/
theorem addBalance {l l' : L} {a : Address} {amount : Word}
    (h : addBalance l a amount = .ok l') : Remembers l l' := by
  obtain ⟨sum, -, rfl⟩ := addBalance_cases h
  exact setBalance l a sum

/-- Nor does money that moves. -/
theorem transfer {l l' : L} {sender recipient : Address} {value : Word}
    (h : transfer l sender recipient value = .ok l') : Remembers l l' := by
  rcases transfer_cases h with rfl | ⟨-, -, credited, -, rfl⟩
  · exact refl _
  · exact (setBalance l sender _).trans (setBalance _ recipient credited)

/-- Guarded operations leave the values at the start. -/
theorem apply [LawfulStorage L] {l : L} {o : LedgerOp} (h : o.IsGuarded l) :
    Remembers l (o.apply l) := by
  refine LedgerOp.apply_induction (fun {l'} a balance hl => ?_) (fun {l'} a nonce hl => ?_) (refl l)
    (setCode l) (setStorage l) (accessAccount l) (accessSlot l) o (fun a ha => ?_) fun a ha => ?_
  · exact hl.trans (setBalance l' a balance)
  · exact hl.trans (setNonce l' a nonce)
  · subst ha
    exact clearStorage h
  · subst ha
    exact False.elim h

end Remembers

/-! ### Open snapshots -/

section Layers

variable [StartValues L] {b l l' : L} {token : Nat} {tokens : List Nat}

/-- A session leads from one ledger to the other, and leaves the values at the start. -/
structure Leaves (l l' : L) : Prop where
  history : History l l'
  remembers : Remembers l l'

/-- Where nothing is done nothing is forgotten. -/
theorem Leaves.refl (l : L) : Leaves l l := ⟨.refl l, .refl l⟩

/-- One session comes after another. -/
theorem Leaves.trans {l'' : L} (h : Leaves l l') (k : Leaves l' l'') : Leaves l l'' :=
  ⟨h.history.trans k.history, h.remembers.trans k.remembers⟩

variable [LawfulLedger L]

/-- A snapshot that is kept is as if it had never been opened. -/
theorem Leaves.commit (h : Leaves (Ledger.snapshot l).2 l') :
    ∃ l'', Ledger.commit l' (Ledger.snapshot l).1 = .ok l'' ∧ Leaves l l'' := by
  obtain ⟨l'', hcommit, hstate, -⟩ := LawfulLedger.commit_history h.history
  have hnoted := StartValues.noted_commit hcommit
  have hsame := SameSlots.of_noted hnoted (congrArg LedgerState.storage hstate)
  exact ⟨l'', hcommit, h.history.kept hcommit,
    ((Remembers.snapshot l).trans h.remembers).trans (.of_sameSlots hnoted hsame)⟩

/-- When it is undone the slots are as when it was taken, and what was noted since is true all the
    same. -/
theorem Leaves.rollback (h : Leaves (Ledger.snapshot l).2 l') :
    ∃ l'', Ledger.rollback l' (Ledger.snapshot l).1 = .ok l'' ∧ Leaves l l'' := by
  obtain ⟨l'', hrollback, hstate, -⟩ := LawfulLedger.rollback_history h.history
  have hsince := (Remembers.snapshot l).trans h.remembers
  exact ⟨l'', hrollback, h.history.undone hrollback,
    hsince.of_undone (StartValues.noted_rollback hrollback) (congrArg LedgerState.storage hstate)⟩

/-- From the ledger at the start, through those of which the open snapshots were taken, to the
    present one. -/
inductive Layered (b : L) : List Nat → L → Prop where
  | bottom {l : L} : Leaves b l → Layered b [] l
  | above {tokens : List Nat} {l l' : L} : Layered b tokens l → Leaves (Ledger.snapshot l).2 l' →
      Layered b ((Ledger.snapshot l).1 :: tokens) l'

namespace Layered

omit [LawfulLedger L] in
/-- A session goes on at the top. -/
theorem leaves (h : Layered b tokens l) (k : Leaves l l') : Layered b tokens l' := by
  cases h with
  | bottom hfirst => exact .bottom (hfirst.trans k)
  | above hbelow hlast => exact .above hbelow (hlast.trans k)

/-- The values at the start are remembered across all layers. -/
theorem remembers (h : Layered b tokens l) : Remembers b l := by
  induction h with
  | bottom hfirst => exact hfirst.remembers
  | above _ hlast ih => exact (ih.trans (.snapshot _)).trans hlast.remembers

/-- The latest snapshot can be kept. -/
theorem commit (h : Layered b (token :: tokens) l) :
    ∃ l', Ledger.commit l token = .ok l' ∧ Layered b tokens l' := by
  cases h with
  | above hbelow hlast =>
    obtain ⟨l', hcommit, hleaves⟩ := hlast.commit
    exact ⟨l', hcommit, hbelow.leaves hleaves⟩

/-- It can also be undone. -/
theorem rollback (h : Layered b (token :: tokens) l) :
    ∃ l', Ledger.rollback l token = .ok l' ∧ Layered b tokens l' := by
  cases h with
  | above hbelow hlast =>
    obtain ⟨l', hrollback, hleaves⟩ := hlast.rollback
    exact ⟨l', hrollback, hbelow.leaves hleaves⟩

end Layered

/-! ### Wherever a client has come to -/

namespace Reached

variable [LawfulStorage L]

/-- Wherever a client has come to, its snapshots lie on one another. -/
theorem layered (h : Reached b tokens l) : Layered b tokens l := by
  -- by induction on the run: each token that is settled is the one of the latest layer
  induction h with
  | start => exact .bottom (.refl b)
  | op o _ hguarded ih => exact ih.leaves ⟨.op _ o, .apply hguarded⟩
  | snapshot _ ih => exact .above ih (.refl _)
  | commit _ hcommit ih =>
    obtain ⟨l', hkept, hlayered⟩ := ih.commit
    have same := Except.ok.inj (hkept.symm.trans hcommit)
    exact same ▸ hlayered
  | rollback _ hrollback ih =>
    obtain ⟨l', hundone, hlayered⟩ := ih.rollback
    have same := Except.ok.inj (hundone.symm.trans hrollback)
    exact same ▸ hlayered

/-- Where nothing was noted at first, the ledger tells what each slot held then. -/
theorem committedStorage (h : Reached b tokens l) (hbegun : ∀ s, StartValues.noted b s = none)
    (s : Slot) : Ledger.committedStorage l s = Ledger.storage b s := by
  rw [h.layered.remembers.committed, committedStorage_of_noted hbegun]

end Reached

end Layers

end Ledger

end Evm
