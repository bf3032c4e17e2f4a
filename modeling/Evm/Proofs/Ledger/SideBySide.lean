import Evm.Proofs.Ledger.NetEffect
import Evm.Proofs.Ledger.Twins

namespace Evm

/-!
# One client of two ledgers

A client that works on the journaled ledger over a world, and does the same on the copying ledger
that owns it, gets the same answers.  The ledgers differ in two respects: the journaled one brings
an account into being when its storage is emptied, and it takes slots of the world below for storage
that have been set to zero.

* `ClientStep`, `Client` — operations and snapshots, settled last one first.
* `ClientStep.answer`, `Client.step` — what a client is told, and where it goes.
* `Alike` — ledgers of the two kinds that answer alike in all other respects.
* `Abreast` — clients of two such ledgers, whose open snapshots were taken of such ledgers as well.
* `ledgers_agree` — what two clients that have done the same can find out.
-/

/-! ### Clients -/

/-- What a client does to a ledger. -/
inductive ClientStep where
  | op (o : LedgerOp)
  | snapshot
  /-- The latest open snapshot is kept. -/
  | keep
  /-- The latest open snapshot is undone. -/
  | undo
  deriving DecidableEq

/-- What a client is told, other than the names of snapshots. -/
inductive LedgerAnswer where
  | done
  | nonce (n : Nat)
  | access (status : Access)
  | refused (e : StateError)
  deriving DecidableEq

/-- A ledger, and the names of the snapshots that its client has opened, latest first. -/
structure Client (L : Type) where
  ledger : L
  tokens : List Nat := []

section Clients

variable {L : Type} [Ledger L]

/-- The answer to an operation that may be refused. -/
def LedgerAnswer.ofExcept : Except StateError L → LedgerAnswer
  | .ok _ => .done
  | .error e => .refused e

/-- What an operation answers. -/
def LedgerOp.answer (l : L) : LedgerOp → LedgerAnswer
  | addBalance a amount => .ofExcept (Ledger.addBalance l a amount)
  | subBalance a amount => .ofExcept (Ledger.subBalance l a amount)
  | incNonce a =>
    match Ledger.incNonce l a with
    | .ok (n, _) => .nonce n
    | .error e => .refused e
  | transfer sender recipient value => .ofExcept (Ledger.transfer l sender recipient value)
  | accessAccount a => .access (Ledger.accessAccount l a).1
  | accessSlot s => .access (Ledger.accessSlot l s).1
  | _ => .done

/-- What a step answers.  Without an open snapshot there is nothing to settle. -/
def ClientStep.answer (c : Client L) : ClientStep → LedgerAnswer
  | op o => o.answer c.ledger
  | snapshot => .done
  | keep =>
    match c.tokens with
    | [] => .done
    | token :: _ => .ofExcept (Ledger.commit c.ledger token)
  | undo =>
    match c.tokens with
    | [] => .done
    | token :: _ => .ofExcept (Ledger.rollback c.ledger token)

/-- The client after a step.  One that is refused leaves everything as it was. -/
def Client.step (c : Client L) : ClientStep → Client L
  | .op o => { c with ledger := o.apply c.ledger }
  | .snapshot => ⟨(Ledger.snapshot c.ledger).2, (Ledger.snapshot c.ledger).1 :: c.tokens⟩
  | .keep =>
    match c.tokens with
    | [] => c
    | token :: rest =>
      match Ledger.commit c.ledger token with
      | .ok l => ⟨l, rest⟩
      | .error _ => c
  | .undo =>
    match c.tokens with
    | [] => c
    | token :: rest =>
      match Ledger.rollback c.ledger token with
      | .ok l => ⟨l, rest⟩
      | .error _ => c

/-- The client after one step and another. -/
def Client.run (c : Client L) (steps : List ClientStep) : Client L := steps.foldl Client.step c

end Clients

/-! ### Ledgers that answer alike -/

/-- A journaled ledger over a world and a copying ledger that answer alike, but for existence and
    storage.  If they are strictly alike, existence is no exception. -/
structure Alike (w : World) (strict : Prop) (l : JournaledLedger World) (k : SnapshotLedger) :
    Prop where
  source : l.source = w
  state : Ledger.state l = { Ledger.state k with present := Ledger.accountExists l }
  access : l.access = k.access
  startValues : l.startValues = k.startValues
  nonzero : k.world.Nonzero
  recorded : k.world.Recorded
  present (a : Address) : Ledger.accountExists k a = true → Ledger.accountExists l a = true
  strictly : strict → Ledger.accountExists l = Ledger.accountExists k

namespace Alike

variable {w : World} {strict : Prop} {l l' : JournaledLedger World} {k k' : SnapshotLedger}

/-- They answer the same balances. -/
theorem balance (h : Alike w strict l k) (a : Address) :
    Ledger.balance l a = Ledger.balance k a :=
  congrArg (LedgerState.balance · a) h.state

/-- They answer the same nonces. -/
theorem nonce (h : Alike w strict l k) (a : Address) : Ledger.nonce l a = Ledger.nonce k a :=
  congrArg (LedgerState.nonce · a) h.state

/-- They answer the same code. -/
theorem code (h : Alike w strict l k) (a : Address) : Ledger.code l a = Ledger.code k a :=
  congrArg (LedgerState.code · a) h.state

/-- They answer the same storage. -/
theorem storage (h : Alike w strict l k) (s : Slot) : Ledger.storage l s = Ledger.storage k s :=
  congrArg (LedgerState.storage · s) h.state

/-- They count the same as accessed. -/
theorem warmth (h : Alike w strict l k) : Ledger.warmth l = Ledger.warmth k := by
  rw [JournaledLedger.warmth_eq, SnapshotLedger.warmth_eq, h.access]

/-! ### Writes -/

/-- Two writes that do the same to the states, up to existence. -/
theorem state_of_write (h : Alike w strict l k) {f : LedgerState → LedgerState}
    {p : Address → Bool}
    (hf : ∀ s p, f { s with present := p } =
      { f s with present := (f { s with present := p }).present })
    (hl : Ledger.state l' = { f (Ledger.state l) with present := p })
    (hk : Ledger.state k' = f (Ledger.state k)) :
    Ledger.state l' = { Ledger.state k' with present := Ledger.accountExists l' } := by
  have hp : Ledger.accountExists l' = p := congrArg LedgerState.present hl
  rw [hl, hk, hp, h.state, hf]

/-- A write that brings an account into being, or removes it, on both sides. -/
theorem update (h : Alike w strict l k) (f : LedgerState → LedgerState) {a : Address} {there : Bool}
    (hf : ∀ s p, f { s with present := p } =
      { f s with present := (f { s with present := p }).present })
    (hpresent : ∀ s, (f s).present = Function.update s.present a there)
    (hl : Ledger.state l' = f (Ledger.state l)) (hk : Ledger.state k' = f (Ledger.state k))
    (hsource : l'.source = l.source) (haccess : l'.access = l.access ∧ k'.access = k.access)
    (hvalues : l'.startValues = l.startValues ∧ k'.startValues = k.startValues)
    (hnonzero : k'.world.Nonzero) (hrecorded : k'.world.Recorded) : Alike w strict l' k' := by
  have hleft : Ledger.accountExists l' = Function.update (Ledger.accountExists l) a there :=
    (congrArg LedgerState.present hl).trans (hpresent _)
  have hright : Ledger.accountExists k' = Function.update (Ledger.accountExists k) a there :=
    (congrArg LedgerState.present hk).trans (hpresent _)
  -- the two ledgers are the same operation apart, but for what is present
  refine ⟨hsource.trans h.source, h.state_of_write hf hl hk, ?_, ?_, hnonzero, hrecorded,
    fun b hb => ?_, fun hs => ?_⟩
  · rw [haccess.1, haccess.2, h.access]
  · rw [hvalues.1, hvalues.2, h.startValues]
  · rw [hright, Function.update_apply] at hb
    rw [hleft, Function.update_apply]
    split
    · rename_i hba
      rwa [if_pos hba] at hb
    · rename_i hba
      rw [if_neg hba] at hb
      exact h.present b hb
  · rw [hleft, hright, h.strictly hs]

/-- They stay alike when a balance is set. -/
theorem setBalance (h : Alike w strict l k) (a : Address) (balance : Word) :
    Alike w strict (Ledger.setBalance l a balance) (Ledger.setBalance k a balance) :=
  h.update (·.setBalance a balance) (fun _ _ => rfl) (fun _ => rfl)
    (LawfulLedger.state_setBalance l a balance) (LawfulLedger.state_setBalance k a balance)
    rfl ⟨rfl, rfl⟩ ⟨rfl, rfl⟩ h.nonzero (h.recorded.setAccount a _)

/-- They stay alike when a nonce is set. -/
theorem setNonce (h : Alike w strict l k) (a : Address) (nonce : Nat) :
    Alike w strict (Ledger.setNonce l a nonce) (Ledger.setNonce k a nonce) :=
  h.update (·.setNonce a nonce) (fun _ _ => rfl) (fun _ => rfl)
    (LawfulLedger.state_setNonce l a nonce) (LawfulLedger.state_setNonce k a nonce)
    rfl ⟨rfl, rfl⟩ ⟨rfl, rfl⟩ h.nonzero (h.recorded.setAccount a _)

/-- They stay alike when code is set. -/
theorem setCode (h : Alike w strict l k) (a : Address) (code : Bytes) :
    Alike w strict (Ledger.setCode l a code) (Ledger.setCode k a code) :=
  h.update (·.setCode a code) (fun _ _ => rfl) (fun _ => rfl)
    (LawfulLedger.state_setCode l a code) (LawfulLedger.state_setCode k a code)
    rfl ⟨rfl, rfl⟩ ⟨rfl, rfl⟩ h.nonzero (h.recorded.setCode a code)

/-- They stay alike when an account is destroyed. -/
theorem destroyAccount (h : Alike w strict l k) (a : Address) :
    Alike w strict (Ledger.destroyAccount l a) (Ledger.destroyAccount k a) :=
  h.update (·.destroyAccount a) (fun _ _ => rfl) (fun _ => rfl)
    (LawfulLedger.state_destroyAccount l a) (LawfulLedger.state_destroyAccount k a)
    rfl ⟨rfl, rfl⟩ ⟨rfl, rfl⟩ (h.nonzero.clearStorage a) (h.recorded.removeAccount a)

/-- They stay alike when a slot is written, whether the account is there or not. -/
theorem setStorage (h : Alike w strict l k) (s : Slot) (value : Word) :
    Alike w strict (Ledger.setStorage l s value) (Ledger.setStorage k s value) where
  source := h.source
  state := h.state_of_write (f := (·.setStorage s value)) (fun _ _ => rfl)
    (LawfulLedger.state_setStorage l s value)
    (LawfulLedger.state_setStorage k s value)
  access := h.access
  startValues := by
    change l.startValues.insertIfNew s (Ledger.storage l s) =
      k.startValues.insertIfNew s (Ledger.storage k s)
    rw [h.startValues, h.storage]
  nonzero := h.nonzero.setStorage s value
  recorded := h.recorded
  present := h.present
  strictly := h.strictly

/-- Only one side brings the account into being. -/
theorem clearStorage (h : Alike w strict l k) (a : Address)
    (hplaced : strict → Ledger.accountExists k a = true) :
    Alike w strict (Ledger.clearStorage l a) (Ledger.clearStorage k a) := by
  have hl := JournaledLedger.state_clearStorage l a
  have hexists : Ledger.accountExists (Ledger.clearStorage l a) =
      Function.update (Ledger.accountExists l) a true := congrArg LedgerState.present hl
  have hstate := h.state_of_write (f := (·.clearStorage a)) (fun _ _ => rfl) hl
    (SnapshotLedger.state_clearStorage k a)
  refine ⟨h.source, hstate, h.access, h.startValues, h.nonzero.clearStorage a, h.recorded,
    fun b hb => ?_, fun hs => ?_⟩
  -- clearing creates the account on one of them, which the other may lack
  · rw [hexists, Function.update_apply]
    split
    · rfl
    · exact h.present b hb
  · rw [hexists, h.strictly hs]
    exact Function.update_eq_self_iff.2 (hplaced hs).symm

/-- Both sides do no more than make something warm. -/
theorem warmed (h : Alike w strict l k) {access : AccessList} (hsource : l'.source = l.source)
    (hstate : Ledger.state l' = Ledger.state l) (haccess : l'.access = access)
    (hvalues : l'.startValues = l.startValues) : Alike w strict l' { k with access } := by
  have hexists := congrArg LedgerState.present hstate
  exact ⟨hsource.trans h.source, h.state_of_write (f := id) (fun _ _ => rfl) hstate rfl, haccess,
    hvalues.trans h.startValues, h.nonzero, h.recorded,
    fun b hb => (congrFun hexists b).trans (h.present b hb), fun hs => hexists.trans (h.strictly hs)⟩

/-- They stay alike when an account is accessed. -/
theorem accessAccount (h : Alike w strict l k) (a : Address) :
    Alike w strict (Ledger.accessAccount l a).2 (Ledger.accessAccount k a).2 :=
  h.warmed (JournaledLedger.KeepsRoots.accessAccount l a).source
    (LawfulLedger.state_accessAccount l a)
    ((JournaledLedger.access_accessAccount l a).trans (by rw [h.access]))
    (JournaledLedger.startValues_accessAccount l a)

/-- They stay alike when a slot is accessed. -/
theorem accessSlot (h : Alike w strict l k) (s : Slot) :
    Alike w strict (Ledger.accessSlot l s).2 (Ledger.accessSlot k s).2 :=
  h.warmed (JournaledLedger.KeepsRoots.accessSlot l s).source (LawfulLedger.state_accessSlot l s)
    ((JournaledLedger.access_accessSlot l s).trans (by rw [h.access]))
    (JournaledLedger.startValues_accessSlot l s)

end Alike

/-- An operation that empties storage only of an account that is there. -/
def LedgerOp.IsPlaced {L : Type} [Ledger L] (l : L) : LedgerOp → Prop
  | clearStorage a => Ledger.accountExists l a = true
  | _ => True

/-- An operation does the same to ledgers that answer alike, and answers the same. -/
theorem Alike.op {w : World} {strict : Prop} {l : JournaledLedger World} {k : SnapshotLedger}
    (h : Alike w strict l k) (o : LedgerOp) (hplaced : strict → o.IsPlaced k) :
    Alike w strict (o.apply l) (o.apply k) ∧ o.answer l = o.answer k := by
  cases o with
  | setBalance a balance => exact ⟨h.setBalance a balance, rfl⟩
  | setNonce a nonce => exact ⟨h.setNonce a nonce, rfl⟩
  | setCode a code => exact ⟨h.setCode a code, rfl⟩
  | setStorage s value => exact ⟨h.setStorage s value, rfl⟩
  | clearStorage a => exact ⟨h.clearStorage a hplaced, rfl⟩
  | destroyAccount a => exact ⟨h.destroyAccount a, rfl⟩
  -- an amount that does not fit is refused by both, for they read the same balance
  | addBalance a amount =>
    simp only [LedgerOp.apply, LedgerOp.answer, Ledger.addBalance_eq, h.balance]
    cases (Ledger.balance k a).checkedAdd amount with
    | some sum => exact ⟨h.setBalance a sum, rfl⟩
    | none => exact ⟨h, rfl⟩
  | subBalance a amount =>
    simp only [LedgerOp.apply, LedgerOp.answer, Ledger.subBalance_eq, h.balance]
    split
    · exact ⟨h.setBalance a _, rfl⟩
    · exact ⟨h, rfl⟩
  | incNonce a =>
    simp only [LedgerOp.apply, LedgerOp.answer, Ledger.incNonce_eq, h.nonce]
    split
    · exact ⟨h.setNonce a _, rfl⟩
    · exact ⟨h, rfl⟩
  | transfer sender recipient value =>
    simp only [LedgerOp.apply, LedgerOp.answer, Ledger.transfer_eq, h.balance]
    split
    · exact ⟨h, rfl⟩
    · split
      · exact ⟨h, rfl⟩
      · split
        · exact ⟨h, rfl⟩
        · cases (Ledger.balance k recipient).checkedAdd value with
          | some credited => exact ⟨(h.setBalance sender _).setBalance recipient credited, rfl⟩
          | none => exact ⟨h, rfl⟩
  | accessAccount a =>
    exact ⟨h.accessAccount a,
      congrArg (fun v : Warmth => LedgerAnswer.access (v.account a)) h.warmth⟩
  | accessSlot s =>
    exact ⟨h.accessSlot s, congrArg (fun v : Warmth => LedgerAnswer.access (v.slot s)) h.warmth⟩

/-! ### What can be read -/

namespace Alike

variable {w : World} {strict : Prop} {l : JournaledLedger World} {k : SnapshotLedger}

/-- They answer the same hashes, if the hashes of the world are those of its code. -/
theorem codeHash (h : Alike w strict l k) (hw : w.Recorded) (hcodes : w.RecordsCode)
    (a : Address) : Ledger.codeHash l a = Ledger.codeHash k a := by
  have hcode : (l.load a).code = k.world.code a := h.code a
  change l.codeHash a = Evm.codeHash (k.world.code a)
  rw [← hcode]
  exact JournaledLedger.codeHash_eq (h.source ▸ hw) (h.source ▸ hcodes) a

/-- They answer the same values at the start. -/
theorem committedStorage (h : Alike w strict l k) (s : Slot) :
    Ledger.committedStorage l s = Ledger.committedStorage k s := by
  change l.startValues.getD s (Ledger.storage l s) = k.startValues.getD s (Ledger.storage k s)
  rw [h.startValues, h.storage]

/-- They find the same accounts empty. -/
theorem isEmpty (h : Alike w strict l k) (a : Address) :
    Ledger.isEmpty l a = Ledger.isEmpty k a := by
  rw [StandardLedger.isEmpty_eq, StandardLedger.isEmpty_eq, h.nonce, h.balance, h.code]

/-- An account that is there on one side alone is empty. -/
theorem isDead (h : Alike w strict l k) (a : Address) : Ledger.isDead l a = Ledger.isDead k a := by
  rw [StandardLedger.isDead_eq, StandardLedger.isDead_eq, h.isEmpty]
  cases hk : Ledger.accountExists k a with
  | true => rw [h.present a hk]
  -- an account that the copying ledger lacks has no code recorded, so it is empty
  | false =>
    have hnone : k.world.accounts[a]? = none := by
      have hcontains : k.world.accounts.contains a = false := hk
      rwa [Std.ExtTreeMap.contains_eq_isSome_getElem?, Option.isSome_eq_false_iff,
        Option.isNone_iff_eq_none] at hcontains
    have hcode : k.world.code a = #[] := by
      by_contra hsome
      exact h.recorded a hsome hnone
    have hempty : Ledger.isEmpty k a = true := by
      simp [Ledger.isEmpty, hnone, hcode]
    rw [hempty, Bool.or_true, Bool.or_true]

/-- One ledger also counts slots of the world below that have been set to zero. -/
theorem hasStorage (h : Alike w strict l k) (a : Address) :
    Ledger.hasStorage l a = (Ledger.hasStorage k a || (!l.isCleared a && w.hasStorage a)) := by
  have hright : Ledger.hasStorage k a = true ↔ ∃ key, l.storage ⟨a, key⟩ ≠ 0 := by
    refine (World.hasStorage_iff h.nonzero a).trans (exists_congr fun key => not_congr ?_)
    rw [show l.storage ⟨a, key⟩ = k.world.storage ⟨a, key⟩ from h.storage ⟨a, key⟩]
  rw [Bool.eq_iff_iff, Bool.or_eq_true_iff, Bool.and_eq_true_iff, Bool.not_eq_true', hright,
    ← h.source]
  exact l.hasStorage_iff_or a

/-- So more addresses may count as occupied. -/
theorem isOccupied (h : Alike w strict l k) (a : Address) :
    Ledger.isOccupied l a = (Ledger.isOccupied k a || (!l.isCleared a && w.hasStorage a)) := by
  rw [StandardLedger.isOccupied_eq, StandardLedger.isOccupied_eq, h.nonce, h.code, h.hasStorage,
    Bool.or_assoc, Bool.or_assoc, Bool.or_assoc]

/-- An empty overlay on a world and a ledger that owns that world. -/
theorem ofWorld (hw : w.Nonzero) (hrecorded : w.Recorded) (strict : Prop) :
    Alike w strict (.ofSource w) (.ofWorld w) := by
  have htwins := Twins.ofWorld hw
  have hexists := congrArg LedgerState.present htwins.state
  refine ⟨rfl, htwins.state.trans ?_, rfl, rfl, hw, hrecorded,
    fun a ha => (congrFun hexists a).trans ha, fun _ => hexists⟩
  exact LedgerState.ext rfl rfl rfl hexists.symm rfl

end Alike

/-! ### Clients abreast -/

open Ledger in
/-- The ledgers of two clients answer alike, and so did those of which their open snapshots were
    taken. -/
inductive Abreast (w : World) (strict : Prop) :
    Client (JournaledLedger World) → Client SnapshotLedger → Prop where
  | bottom {l : JournaledLedger World} {k : SnapshotLedger} : Alike w strict l k →
      Abreast w strict ⟨l, []⟩ ⟨k, []⟩
  | above {l l' : JournaledLedger World} {k k' : SnapshotLedger} {tokens tokens' : List Nat} :
      Abreast w strict ⟨l, tokens⟩ ⟨k, tokens'⟩ →
      JournaledLedger.Extends (snapshot l).2 l' → SnapshotLedger.Keeps (snapshot k).2 k' →
      Alike w strict l' k' →
      Abreast w strict ⟨l', (snapshot l).1 :: tokens⟩ ⟨k', (snapshot k).1 :: tokens'⟩

namespace Abreast

variable {w : World} {strict : Prop} {c : Client (JournaledLedger World)}
  {d : Client SnapshotLedger}

/-- The ledgers of clients abreast answer alike. -/
theorem alike (h : Abreast w strict c d) : Alike w strict c.ledger d.ledger := by
  cases h with
  | bottom halike => exact halike
  | above _ _ _ halike => exact halike

/-- Both clients go on without settling a snapshot. -/
theorem moves {l l' : JournaledLedger World} {k k' : SnapshotLedger} {tokens tokens' : List Nat}
    (h : Abreast w strict ⟨l, tokens⟩ ⟨k, tokens'⟩) (hl : JournaledLedger.Extends l l')
    (hk : SnapshotLedger.Keeps k k') (halike : Alike w strict l' k') :
    Abreast w strict ⟨l', tokens⟩ ⟨k', tokens'⟩ := by
  cases h with
  | bottom _ => exact .bottom halike
  | above hbelow hleft hright _ =>
    exact .above hbelow (hleft.trans hl) (Eq.trans hk hright) halike

/-- Snapshots are never refused, and what is left of them is alike. -/
theorem keep {l : JournaledLedger World} {k : SnapshotLedger} {token token' : Nat}
    {tokens tokens' : List Nat} (h : Abreast w strict ⟨l, token :: tokens⟩ ⟨k, token' :: tokens'⟩) :
    ∃ l' k', Ledger.commit l token = .ok l' ∧ Ledger.commit k token' = .ok k' ∧
      Abreast w strict ⟨l', tokens⟩ ⟨k', tokens'⟩ := by
  cases h with
  | above hbelow hleft hright halike =>
    exact ⟨_, _, JournaledLedger.ledger_commit_of_extends hleft,
      SnapshotLedger.commit_of_keeps hright,
      hbelow.moves hleft.of_commit rfl ⟨halike.source, halike.state, halike.access,
        halike.startValues, halike.nonzero, halike.recorded, halike.present, halike.strictly⟩⟩

/-- What is undone leaves its start values behind, on both sides the same. -/
theorem undo {l : JournaledLedger World} {k : SnapshotLedger} {token token' : Nat}
    {tokens tokens' : List Nat} (h : Abreast w strict ⟨l, token :: tokens⟩ ⟨k, token' :: tokens'⟩) :
    ∃ l' k', Ledger.rollback l token = .ok l' ∧ Ledger.rollback k token' = .ok k' ∧
      Abreast w strict ⟨l', tokens⟩ ⟨k', tokens'⟩ := by
  cases h with
  | above hbelow hleft hright halike =>
    have hfirst := hbelow.alike
    exact ⟨_, _, JournaledLedger.ledger_rollback_of_extends hleft,
      SnapshotLedger.rollback_of_keeps hright,
      hbelow.moves (.of_rollback _ _) rfl ⟨hfirst.source, hfirst.state, hfirst.access,
        halike.startValues, hfirst.nonzero, hfirst.recorded, hfirst.present, hfirst.strictly⟩⟩

end Abreast

/-- A step that empties storage only of an account that is there. -/
def ClientStep.IsPlaced {L : Type} [Ledger L] (c : Client L) : ClientStep → Prop
  | op o => o.IsPlaced c.ledger
  | _ => True

/-- Each of the steps is such where it is taken. -/
def Client.AllPlaced {L : Type} [Ledger L] (c : Client L) : List ClientStep → Prop
  | [] => True
  | s :: rest => s.IsPlaced c ∧ AllPlaced (c.step s) rest

namespace Abreast

variable {w : World} {strict : Prop} {c : Client (JournaledLedger World)}
  {d : Client SnapshotLedger}

/-- Clients that take the same step stay abreast. -/
theorem step (h : Abreast w strict c d) (s : ClientStep) (hplaced : strict → s.IsPlaced d) :
    Abreast w strict (c.step s) (d.step s) := by
  obtain ⟨l, tokens⟩ := c
  obtain ⟨k, tokens'⟩ := d
  cases s with
  | op o =>
    -- an operation moves the tops; what is below them stays
    exact h.moves (JournaledLedger.closedUnderSessions_extends.apply l o)
      (SnapshotLedger.closedUnderSessions_keeps.apply k o) (h.alike.op o hplaced).1
  | snapshot =>
    have halike := h.alike
    exact .above h (.refl _) rfl ⟨halike.source, halike.state, halike.access, halike.startValues,
      halike.nonzero, halike.recorded, halike.present, halike.strictly⟩
  | keep =>
    -- a token is kept or undone on both sides, or on neither
    cases tokens with
    | nil =>
      cases h with
      | bottom halike => exact .bottom halike
    | cons token tokens =>
      cases tokens' with
      | nil => cases h
      | cons token' tokens' =>
        obtain ⟨l', k', hl, hk, hnext⟩ := h.keep
        simpa only [Client.step, hl, hk] using hnext
  | undo =>
    cases tokens with
    | nil =>
      cases h with
      | bottom halike => exact .bottom halike
    | cons token tokens =>
      cases tokens' with
      | nil => cases h
      | cons token' tokens' =>
        obtain ⟨l', k', hl, hk, hnext⟩ := h.undo
        simpa only [Client.step, hl, hk] using hnext

/-- Clients abreast stay so, whatever they do. -/
theorem run (h : Abreast w strict c d) (steps : List ClientStep)
    (hplaced : strict → d.AllPlaced steps) : Abreast w strict (c.run steps) (d.run steps) := by
  induction steps generalizing c d with
  | nil => exact h
  | cons s rest ih =>
    exact ih (h.step s fun hs => (hplaced hs).1) fun hs => (hplaced hs).2

/-- No snapshot is ever refused. -/
theorem answer_settle (h : Abreast w strict c d) {s : ClientStep} (hs : s = .keep ∨ s = .undo) :
    s.answer c = .done ∧ s.answer d = .done := by
  obtain ⟨l, tokens⟩ := c
  obtain ⟨k, tokens'⟩ := d
  cases tokens with
  | nil =>
    cases h with
    | bottom halike => obtain rfl | rfl := hs <;> exact ⟨rfl, rfl⟩
  | cons token tokens =>
    cases tokens' with
    | nil => cases h
    | cons token' tokens' =>
      obtain rfl | rfl := hs
      -- the tokens differ, the answers do not
      · obtain ⟨l', k', hl, hk, -⟩ := h.keep
        simp only [ClientStep.answer, hl, hk, LedgerAnswer.ofExcept, and_self]
      · obtain ⟨l', k', hl, hk, -⟩ := h.undo
        simp only [ClientStep.answer, hl, hk, LedgerAnswer.ofExcept, and_self]

end Abreast

/-! ### What clients can find out -/

/-- What a client of the journaled ledger over a world finds out, and one of the copying ledger. -/
structure FindSame (w : World) (c : Client (JournaledLedger World)) (d : Client SnapshotLedger) :
    Prop where
  /-- Whatever is done next is answered alike. -/
  answer (s : ClientStep) : s.answer c = s.answer d
  /-- Snapshots can always be settled. -/
  settled {s : ClientStep} : s = .keep ∨ s = .undo → s.answer c = .done
  balance (a : Address) : Ledger.balance c.ledger a = Ledger.balance d.ledger a
  nonce (a : Address) : Ledger.nonce c.ledger a = Ledger.nonce d.ledger a
  code (a : Address) : Ledger.code c.ledger a = Ledger.code d.ledger a
  codeHash (a : Address) : Ledger.codeHash c.ledger a = Ledger.codeHash d.ledger a
  storage (s : Slot) : Ledger.storage c.ledger s = Ledger.storage d.ledger s
  committedStorage (s : Slot) :
    Ledger.committedStorage c.ledger s = Ledger.committedStorage d.ledger s
  warmth : Ledger.warmth c.ledger = Ledger.warmth d.ledger
  isEmpty (a : Address) : Ledger.isEmpty c.ledger a = Ledger.isEmpty d.ledger a
  isDead (a : Address) : Ledger.isDead c.ledger a = Ledger.isDead d.ledger a
  /-- The copying ledger has storage exactly where some slot is not zero. -/
  hasStorage_iff (a : Address) :
    Ledger.hasStorage d.ledger a = true ↔ ∃ key, Ledger.storage d.ledger ⟨a, key⟩ ≠ 0
  /-- The journaled one has it also where the world below has some, unless that was emptied. -/
  hasStorage (a : Address) : Ledger.hasStorage c.ledger a =
    (Ledger.hasStorage d.ledger a || (!c.ledger.isCleared a && w.hasStorage a))
  isOccupied (a : Address) : Ledger.isOccupied c.ledger a =
    (Ledger.isOccupied d.ledger a || (!c.ledger.isCleared a && w.hasStorage a))
  /-- What is there for the copying ledger is there for the journaled one. -/
  accountExists (a : Address) :
    Ledger.accountExists d.ledger a = true → Ledger.accountExists c.ledger a = true
  /-- The journaled ledger brings an account into being when its storage is emptied, and the copying
      one does not. -/
  clearStorage (a : Address) :
    Ledger.accountExists (Ledger.clearStorage c.ledger a) =
        Function.update (Ledger.accountExists c.ledger) a true ∧
      Ledger.accountExists (Ledger.clearStorage d.ledger a) = Ledger.accountExists d.ledger

/-- So they find the same. -/
theorem Abreast.findSame {w : World} {c : Client (JournaledLedger World)}
    {d : Client SnapshotLedger} (h : Abreast w False c d) (hw : w.Recorded)
    (hcodes : w.RecordsCode) : FindSame w c d where
  answer s := by
    cases s with
    | op o => exact (h.alike.op o False.elim).2
    | snapshot => rfl
    | keep => exact (h.answer_settle (.inl rfl)).1.trans (h.answer_settle (.inl rfl)).2.symm
    | undo => exact (h.answer_settle (.inr rfl)).1.trans (h.answer_settle (.inr rfl)).2.symm
  settled hs := (h.answer_settle hs).1
  balance := h.alike.balance
  nonce := h.alike.nonce
  code := h.alike.code
  codeHash := h.alike.codeHash hw hcodes
  storage := h.alike.storage
  committedStorage := h.alike.committedStorage
  warmth := h.alike.warmth
  isEmpty := h.alike.isEmpty
  isDead := h.alike.isDead
  hasStorage_iff := World.hasStorage_iff h.alike.nonzero
  hasStorage := h.alike.hasStorage
  isOccupied := h.alike.isOccupied
  accountExists := h.alike.present
  clearStorage a :=
    ⟨congrArg LedgerState.present (JournaledLedger.state_clearStorage c.ledger a),
      congrArg LedgerState.present (SnapshotLedger.state_clearStorage d.ledger a)⟩

/-- **The two ledgers agree.**  Clients that do the same on the journaled ledger over a world and on
    the copying ledger that owns it get the same answers and read the same, up to existence and
    storage; and existence is no exception if storage is only emptied of accounts that are there. -/
theorem ledgers_agree {w : World} (hw : w.Reachable) (hcodes : w.RecordsCode)
    (steps : List ClientStep) :
    let c := (Client.mk (JournaledLedger.ofSource w) []).run steps
    let start : Client SnapshotLedger := { ledger := .ofWorld w }
    FindSame w c (start.run steps) ∧
      (start.AllPlaced steps →
        ∀ a, Ledger.accountExists c.ledger a = Ledger.accountExists (start.run steps).ledger a) := by
  intro c start
  have habreast (strict : Prop) (hplaced : strict → start.AllPlaced steps) :
      Abreast w strict c (start.run steps) :=
    (Abreast.bottom (.ofWorld hw.nonzero hw.recorded strict)).run steps hplaced
  refine ⟨(habreast False False.elim).findSame hw.recorded hcodes, fun hplaced a => ?_⟩
  exact congrFun ((habreast True fun _ => hplaced).alike.strictly trivial) a

/-- A contract is emptied and written under a snapshot that is undone. -/
theorem ledgers_agree_past_rollback :
    let w : World := World.setStorage (.setCode {} 7 #[0]) ⟨7, 0⟩ 1
    let steps : List ClientStep :=
      [.snapshot, .op (.clearStorage 7), .op (.setStorage ⟨7, 1⟩ 2), .undo]
    let c := (Client.mk (JournaledLedger.ofSource w) []).run steps
    let start : Client SnapshotLedger := { ledger := .ofWorld w }
    w.Reachable ∧ w.RecordsCode ∧ start.AllPlaced steps ∧ FindSame w c (start.run steps) ∧
      Ledger.accountExists c.ledger 7 = Ledger.accountExists (start.run steps).ledger 7 := by
  intro w steps c start
  have hw : w.Reachable := .setStorage ⟨7, 0⟩ 1 (.setCode 7 #[0] .empty)
  have hcodes : w.RecordsCode :=
    World.RecordsCode.setCode (w := {}) (fun a record h => by simp at h) 7 #[0]
  have hthere : Ledger.accountExists (start.step .snapshot).ledger 7 = true := by decide +kernel
  have hplaced : start.AllPlaced steps := ⟨trivial, hthere, trivial, trivial, trivial⟩
  obtain ⟨hsame, hexists⟩ := ledgers_agree hw hcodes steps
  exact ⟨hw, hcodes, hplaced, hsame, hexists hplaced 7⟩

/-- One ledger takes a slot for storage that was set to zero, and brings an account into being whose
    storage is emptied. -/
theorem ledgers_agree_not_on_storage :
    let w : World := World.setStorage (.setCode {} 7 #[]) ⟨7, 0⟩ 1
    let steps : List ClientStep := [.op (.setStorage ⟨7, 0⟩ 0), .op (.clearStorage 8)]
    let l := ((Client.mk (JournaledLedger.ofSource w) []).run steps).ledger
    let k := ((Client.mk (SnapshotLedger.ofWorld w) []).run steps).ledger
    (w.Reachable ∧ w.RecordsCode) ∧
      (Ledger.hasStorage l 7 = true ∧ Ledger.hasStorage k 7 = false ∧
        ∀ key, Ledger.storage l ⟨7, key⟩ = 0) ∧
      Ledger.isOccupied l 7 = true ∧ Ledger.isOccupied k 7 = false ∧
      Ledger.accountExists l 8 = true ∧ Ledger.accountExists k 8 = false := by
  intro w steps l k
  have hw : w.Reachable := .setStorage ⟨7, 0⟩ 1 (.setCode 7 #[] .empty)
  have hcodes : w.RecordsCode :=
    World.RecordsCode.setCode (w := {}) (fun a record h => by simp at h) 7 #[]
  have hempty : k.world.hasStorage 7 = false := by decide +kernel
  have halike : Alike w False l k :=
    ((Abreast.bottom (.ofWorld hw.nonzero hw.recorded False)).run steps False.elim).alike
  refine ⟨⟨hw, hcodes⟩, ⟨by decide +kernel, hempty, fun key => ?_⟩, by decide +kernel,
    by decide +kernel, by decide +kernel, by decide +kernel⟩
  rw [halike.storage]
  exact World.storage_of_hasStorage_eq_false hempty key

end Evm
