import Evm.Proofs.Ledger.Copies
import Evm.Proofs.Ledger.Journaled
import Evm.Proofs.Instruction.Agreement
import Evm.Proofs.State.World

namespace Evm

/-!
# The two ledgers side by side

The journaled ledger over a world and the copying ledger that owns one may give the same answers and
still disagree on whether an account has storage: a slot that the overlay has set to zero counts for
one of them if the world below holds it.  They agree where the overlay has taken over all storage
of an account, and where it has not written any.

* `JournaledLedger.Rooted`, `JournaledLedger.Untouched`, `JournaledLedger.Footed` — where an
  account stands.
* `JournaledLedger.hasStorage_iff` — there is storage exactly if some slot is not zero.
* `Twins` — ledgers of the two kinds that stand for each other.
-/

/-! ### Digests of code -/

/-- The record of every account tells the digest of its code. -/
def World.RecordsCode (w : World) : Prop :=
  ∀ a record, w.accounts[a]? = some record → record.codeHash = codeHash (w.code a)

/-- Setting code also sets the digest in the record. -/
theorem World.RecordsCode.setCode {w : World} (h : w.RecordsCode) (a : Address) (code : Bytes) :
    (w.setCode a code).RecordsCode := by
  intro b record hb
  have hsame : (w.setCode a code).accounts[b]? =
      (w.modifyAccount a ({ · with codeHash := Evm.codeHash code })).accounts[b]? := rfl
  -- the code and its hash are written together
  rw [hsame, getElem?_modifyAccount] at hb
  rw [code_setCode]
  split at hb
  · rename_i hba
    rw [if_pos hba]
    cases hb
    rfl
  · rename_i hba
    rw [if_neg hba]
    exact h b record hb

namespace JournaledLedger

section Roots

variable {S : Type} [WorldSource S]

/-! ### Roots -/

/-- The slots of the world below play no part: they no longer count, or there are none. -/
def Rooted (l : JournaledLedger S) (a : Address) : Prop :=
  l.isCleared a = true ∨ WorldSource.hasStorage l.source a = false

/-- No slot of the account has been written. -/
def Untouched (l : JournaledLedger S) (a : Address) : Prop :=
  ∀ key, l.slots[(⟨a, key⟩ : Slot)]? = none

/-- Written slots of an account without code are all that it has. -/
def Footed (l : JournaledLedger S) (a : Address) : Prop :=
  l.Rooted a ∨ l.Untouched a ∨ (l.load a).code ≠ #[]

/-- The world below is the same, and what no longer counts in it stays so. -/
structure KeepsRoots (l l' : JournaledLedger S) : Prop where
  source : l'.source = l.source
  cleared (a : Address) : l.isCleared a = true → l'.isCleared a = true

/-- A root stays one. -/
theorem Rooted.kept {l l' : JournaledLedger S} {a : Address} (h : l.Rooted a)
    (hkeeps : KeepsRoots l l') : l'.Rooted a := by
  unfold Rooted
  rw [hkeeps.source]
  exact h.imp_left (hkeeps.cleared a)

omit [WorldSource S] in
/-- Nothing is lost where nothing is done. -/
theorem KeepsRoots.refl (l : JournaledLedger S) : KeepsRoots l l := ⟨rfl, fun _ => id⟩

omit [WorldSource S] in
/-- Roots are kept step by step. -/
theorem KeepsRoots.trans {l l' l'' : JournaledLedger S} (h : KeepsRoots l l')
    (k : KeepsRoots l' l'') : KeepsRoots l l'' :=
  ⟨k.source.trans h.source, fun a => k.cleared a ∘ h.cleared a⟩

/-- An overlay that counts as cleared where its account did. -/
theorem KeepsRoots.putAccount {l : JournaledLedger S} {a : Address} {o : Overlay}
    (h : l.isCleared a = true → o.storageCleared = true) : KeepsRoots l (l.putAccount a o) := by
  refine ⟨rfl, fun b hb => ?_⟩
  rw [isCleared_eq_load, load_putAccount]
  split
  · rename_i hab
    exact h (hab ▸ hb)
  · rwa [← isCleared_eq_load]

/-- A change that does not take the mark on storage away. -/
theorem KeepsRoots.modifyAccount (l : JournaledLedger S) (a : Address) {f : Overlay → Overlay}
    (h : ∀ o, o.storageCleared = true → (f o).storageCleared = true) :
    KeepsRoots l (l.modifyAccount a f) :=
  .putAccount fun ha => h _ (isCleared_eq_load l a ▸ ha)

omit [WorldSource S] in
/-- An access to an account keeps roots. -/
theorem KeepsRoots.accessAccount (l : JournaledLedger S) (a : Address) :
    KeepsRoots l (l.accessAccount a).2 := by
  unfold JournaledLedger.accessAccount
  split <;> exact ⟨rfl, fun _ => id⟩

omit [WorldSource S] in
/-- An access to a slot keeps roots. -/
theorem KeepsRoots.accessSlot (l : JournaledLedger S) (s : Slot) :
    KeepsRoots l (l.accessSlot s).2 := by
  unfold JournaledLedger.accessSlot
  split <;> exact ⟨rfl, fun _ => id⟩

omit [WorldSource S] in
/-- Dropping written slots keeps roots. -/
theorem KeepsRoots.dropSlots (l : JournaledLedger S) (a : Address) :
    KeepsRoots l (l.dropSlots a) := ⟨rfl, fun _ => id⟩

omit [WorldSource S] in
/-- Closing a snapshot keeps roots. -/
theorem KeepsRoots.commit {l l' : JournaledLedger S} {token : Nat} (h : l.commit token = .ok l') :
    KeepsRoots l l' := by
  unfold JournaledLedger.commit at h
  cases hbelow : openBelow l.openSnapshots token with
  | error e =>
    rw [hbelow] at h
    cases h
  | ok below =>
    rw [hbelow] at h
    cases h
    exact ⟨rfl, fun _ => id⟩

/-- No session takes a root away. -/
theorem closedUnderSessions_keepsRoots :
    Ledger.ClosedUnderSessions fun l l' : JournaledLedger S => Extends l l' ∧ KeepsRoots l l' where
  refl l := ⟨.refl l, .refl l⟩
  trans h k := ⟨h.1.trans k.1, h.2.trans k.2⟩
  setBalance l a _ := ⟨extends_modifyAccount l a _, .modifyAccount l a fun _ => id⟩
  setNonce l a _ := ⟨extends_modifyAccount l a _, .modifyAccount l a fun _ => id⟩
  setCode l a _ := ⟨extends_modifyAccount l a _, .modifyAccount l a fun _ => id⟩
  setStorage l s value := ⟨extends_setStorage l s value, rfl, fun _ => id⟩
  clearStorage l a :=
    ⟨extends_clearStorage l a, (KeepsRoots.dropSlots l a).trans (.putAccount fun _ => rfl)⟩
  destroyAccount l a :=
    ⟨extends_destroyAccount l a, (KeepsRoots.dropSlots l a).trans (.putAccount fun _ => rfl)⟩
  accessAccount l a := ⟨extends_accessAccount l a, .accessAccount l a⟩
  accessSlot l s := ⟨extends_accessSlot l s, .accessSlot l s⟩
  commit h := ⟨_, ledger_commit_of_extends h.1, h.1.of_commit, h.2.source, h.2.cleared⟩
  rollback h := ⟨_, ledger_rollback_of_extends h.1, .of_rollback _ _, rfl, fun _ => id⟩

/-- A root stays one through any session. -/
theorem Rooted.history {l l' : JournaledLedger S} {a : Address} (h : Ledger.History l l')
    (ha : l.Rooted a) : l'.Rooted a :=
  ha.kept (closedUnderSessions_keepsRoots.of_history h).2

/-- An account that is put as cleared has a root. -/
theorem rooted_putAccount {l : JournaledLedger S} {a : Address} {o : Overlay}
    (h : o.storageCleared = true) : (l.putAccount a o).Rooted a := by
  left
  rw [isCleared_eq_load, load_putAccount, if_pos rfl, h]

/-! ### Footing -/

/-- What footing depends on. -/
theorem Footed.congr {l l' : JournaledLedger S} {a : Address} (h : l.Footed a)
    (hsource : l'.source = l.source)
    (hcleared : (l'.load a).storageCleared = (l.load a).storageCleared)
    (hcode : (l'.load a).code = (l.load a).code)
    (hslots : ∀ key, l'.slots[(⟨a, key⟩ : Slot)]? = l.slots[(⟨a, key⟩ : Slot)]?) :
    l'.Footed a := by
  unfold Footed Rooted Untouched at h ⊢
  rw [isCleared_eq_load] at h ⊢
  rw [hsource, hcleared, hcode]
  simpa only [hslots] using h

/-- An overlay concerns the footing of its own account. -/
theorem Footed.putAccount {l : JournaledLedger S} {a b : Address} {o : Overlay} (h : l.Footed b)
    (ha : b = a → (l.putAccount a o).Footed a) : (l.putAccount a o).Footed b := by
  by_cases hb : b = a
  · exact hb ▸ ha hb
  · refine h.congr rfl ?_ ?_ fun _ => rfl
    all_goals rw [load_putAccount, if_neg hb]

/-- A change that leaves the mark on storage and the code alone. -/
theorem Footed.modifyAccount {l : JournaledLedger S} {b : Address} (h : l.Footed b) (a : Address)
    {f : Overlay → Overlay} (hcleared : ∀ o, (f o).storageCleared = o.storageCleared)
    (hcode : ∀ o, (f o).code = o.code) : (l.modifyAccount a f).Footed b := by
  refine h.putAccount fun hb => ?_
  subst hb
  refine h.congr rfl ?_ ?_ fun _ => rfl
  · rw [load_putAccount, if_pos rfl]
    exact hcleared _
  · rw [load_putAccount, if_pos rfl]
    exact hcode _

/-- Code gives footing to an account with a root. -/
theorem Footed.setCode {l : JournaledLedger S} {a b : Address} (h : l.Footed b) (ha : l.Rooted a)
    (code : Bytes) : (Ledger.setCode l a code).Footed b :=
  h.putAccount fun _ =>
    .inl (ha.kept (.putAccount fun hcleared => isCleared_eq_load l a ▸ hcleared))

/-- A slot is written where there is a root or code. -/
theorem Footed.setStorage {l : JournaledLedger S} {b : Address} (h : l.Footed b) (s : Slot)
    (value : Word) (hs : l.Rooted s.owner ∨ (l.load s.owner).code ≠ #[]) :
    (l.setStorage s value).Footed b := by
  by_cases hb : b = s.owner
  · subst hb
    exact hs.imp_right .inr
  · refine h.congr rfl rfl rfl fun key => ?_
    refine Std.ExtTreeMap.getElem?_insert.trans (if_neg fun hkey => hb ?_)
    rw [Std.LawfulEqCmp.compare_eq_iff_eq] at hkey
    rw [hkey]

/-- Dropping slots of one account leaves the footing of others. -/
theorem Footed.dropSlots {l : JournaledLedger S} {b : Address} (h : l.Footed b) (a : Address)
    (hb : b ≠ a) : (l.dropSlots a).Footed b := by
  refine h.congr rfl rfl rfl fun key => ?_
  refine Std.ExtTreeMap.getElem?_filter'.trans ?_
  have hother : (b != a) = true := bne_iff_ne.2 hb
  cases l.slots[(⟨b, key⟩ : Slot)]? <;> simp [Option.filter, hother]

/-- Once the slots of an account are dropped and those below no longer count, it is rooted. -/
theorem Footed.putAccount_dropSlots {l : JournaledLedger S} {b : Address} (h : l.Footed b)
    (a : Address) {o : Overlay} (ho : o.storageCleared = true) :
    ((l.dropSlots a).putAccount a o).Footed b := by
  by_cases hb : b = a
  · exact .inl (hb ▸ rooted_putAccount ho)
  · exact (h.dropSlots a hb).putAccount fun hab => absurd hab hb

/-- An access to an account leaves footing. -/
theorem Footed.accessAccount {l : JournaledLedger S} {b : Address} (h : l.Footed b) (a : Address) :
    (l.accessAccount a).2.Footed b := by
  unfold JournaledLedger.accessAccount
  split <;> exact h

/-- An access to a slot leaves footing. -/
theorem Footed.accessSlot {l : JournaledLedger S} {b : Address} (h : l.Footed b) (s : Slot) :
    (l.accessSlot s).2.Footed b := by
  unfold JournaledLedger.accessSlot
  split <;> exact h

end Roots

/-! ### Storage -/

/-- There is storage if some slot is not zero, and also if the world below has some that counts,
    even where all of it has been set to zero. -/
theorem hasStorage_iff_or (l : JournaledLedger World) (a : Address) :
    l.hasStorage a = true ↔ (∃ key, l.storage ⟨a, key⟩ ≠ 0) ∨
      l.isCleared a = false ∧ l.source.hasStorage a = true := by
  have hbelow : (!l.isCleared a && WorldSource.hasStorage l.source a) = true ↔
      l.isCleared a = false ∧ l.source.hasStorage a = true := by
    rw [Bool.and_eq_true_iff, Bool.not_eq_true']
    rfl
  rw [hasStorage, Bool.or_eq_true_iff, hbelow, any_eq_true_iff]
  constructor
  · refine Or.imp_left ?_
    rintro ⟨⟨owner, key⟩, value, hslot, hp⟩
    obtain ⟨rfl, hvalue⟩ : owner = a ∧ value ≠ 0 := by simpa using hp
    refine ⟨key, ?_⟩
    rwa [storage, hslot]
  · rintro (⟨key, hkey⟩ | hcounts)
    · cases hslot : l.slots[(⟨a, key⟩ : Slot)]? with
      | some value =>
        rw [storage, hslot] at hkey
        exact .inl ⟨⟨a, key⟩, value, hslot, by simpa using hkey⟩
      | none =>
        -- a slot that was not written is one of the world below
        rw [storage, hslot] at hkey
        dsimp only at hkey
        split at hkey
        · exact absurd rfl hkey
        · rename_i hcleared
          refine .inr ⟨by simpa using hcleared, ?_⟩
          by_contra hnone
          exact hkey (World.storage_of_hasStorage_eq_false (by simpa using hnone) key)
    · exact .inr hcounts

/-- What is written, or not written at all, tells whether there is storage. -/
theorem hasStorage_iff {l : JournaledLedger World} {a : Address} (hsource : l.source.Nonzero)
    (h : l.Rooted a ∨ l.Untouched a) :
    l.hasStorage a = true ↔ ∃ key, l.storage ⟨a, key⟩ ≠ 0 := by
  rw [hasStorage_iff_or]
  refine or_iff_left_of_imp ?_
  rintro ⟨hcleared, hstorage⟩
  have hrooted : ¬l.Rooted a := by
    rintro (hmark | hnone)
    · rw [hcleared] at hmark
      cases hmark
    · exact absurd hstorage (Bool.eq_false_iff.1 hnone)
  -- nothing is written, so what the world below holds still shows
  obtain ⟨key, hkey⟩ := (World.hasStorage_iff hsource a).1 hstorage
  refine ⟨key, ?_⟩
  rw [storage, h.resolve_left hrooted key]
  dsimp only
  rwa [if_neg (by simp [hcleared])]

/-- The digest of code is right if the records below tell the digests of all code. -/
theorem codeHash_eq {l : JournaledLedger World} (hrecorded : l.source.Recorded)
    (hcodes : l.source.RecordsCode) (a : Address) : l.codeHash a = Evm.codeHash (l.load a).code := by
  unfold codeHash load
  cases l.accounts[a]? with
  | some o => rfl
  | none =>
    -- the record below tells the digest, and where there is no record there is no code
    change (l.source.accounts[a]?).elim emptyCodeHash Account.codeHash =
      Evm.codeHash (l.source.code a)
    cases hrecord : l.source.accounts[a]? with
    | some record => exact hcodes a record hrecord
    | none =>
      have hnone : l.source.code a = #[] := by
        by_contra hsome
        exact hrecorded a hsome hrecord
      rw [hnone]
      rfl

end JournaledLedger

/-! ### Twins -/

/-- A journaled ledger over a world and a copying ledger that stand for each other. -/
structure Twins (w : World) (l : JournaledLedger World) (k : SnapshotLedger) : Prop where
  source : l.source = w
  state : Ledger.state l = Ledger.state k
  access : l.access = k.access
  startValues : l.startValues = k.startValues
  nonzero : k.world.Nonzero
  footed (a : Address) : l.Footed a

namespace Twins

variable {w : World} {l : JournaledLedger World} {k : SnapshotLedger}

/-- Twins answer the same storage. -/
theorem storage (h : Twins w l k) (s : Slot) : l.storage s = k.world.storage s :=
  congrArg (LedgerState.storage · s) h.state

/-- Twins give the same answers, if the records below tell the digests of all code. -/
theorem answers (h : Twins w l k) (hrecorded : w.Recorded) (hcodes : w.RecordsCode) :
    Ledger.SameAnswers l k where
  state := h.state
  codeHash a := by
    have hcode : (l.load a).code = k.world.code a := congrArg (LedgerState.code · a) h.state
    change l.codeHash a = codeHash (k.world.code a)
    rw [← hcode]
    exact JournaledLedger.codeHash_eq (h.source ▸ hrecorded) (h.source ▸ hcodes) a
  committedStorage s := by
    change l.startValues.getD s (l.storage s) = k.startValues.getD s (k.world.storage s)
    rw [h.startValues, h.storage]
  warmth := by
    rw [JournaledLedger.warmth_eq, SnapshotLedger.warmth_eq, h.access]

/-- Twins agree on where a contract cannot be created. -/
theorem isOccupied (h : Twins w l k) (hw : w.Nonzero) (a : Address) :
    Ledger.isOccupied l a = Ledger.isOccupied k a := by
  have hnonce : Ledger.nonce l a = Ledger.nonce k a := congrArg (LedgerState.nonce · a) h.state
  have hcode : Ledger.code l a = Ledger.code k a := congrArg (LedgerState.code · a) h.state
  rw [StandardLedger.isOccupied_eq, StandardLedger.isOccupied_eq, hnonce, hcode]
  by_cases hempty : Ledger.code k a = #[]
  -- without code, the account is cleared, or nobody has touched it
  · have hstanding : l.Rooted a ∨ l.Untouched a := by
      obtain hrooted | huntouched | hsome := h.footed a
      · exact .inl hrooted
      · exact .inr huntouched
      · exact absurd (hcode.trans hempty) hsome
    have hsame : Ledger.hasStorage l a = Ledger.hasStorage k a := by
      rw [Bool.eq_iff_iff]
      refine (JournaledLedger.hasStorage_iff (h.source ▸ hw) hstanding).trans ?_
      simp only [h.storage]
      exact (World.hasStorage_iff h.nonzero a).symm
    rw [hsame]
  · -- where there is code, storage does not matter
    have hcontract : (Ledger.code k a).isEmpty = false := by simpa using hempty
    rw [hcontract]
    simp

/-! ### Writes -/

/-- Twins stay so when a balance is set. -/
theorem setBalance (h : Twins w l k) (a : Address) (balance : Word) :
    Twins w (Ledger.setBalance l a balance) (Ledger.setBalance k a balance) where
  source := h.source
  state := by rw [LawfulLedger.state_setBalance, LawfulLedger.state_setBalance, h.state]
  access := h.access
  startValues := h.startValues
  nonzero := h.nonzero
  footed b := (h.footed b).modifyAccount a (fun _ => rfl) fun _ => rfl

/-- Twins stay so when a nonce is set. -/
theorem setNonce (h : Twins w l k) (a : Address) (nonce : Nat) :
    Twins w (Ledger.setNonce l a nonce) (Ledger.setNonce k a nonce) where
  source := h.source
  state := by rw [LawfulLedger.state_setNonce, LawfulLedger.state_setNonce, h.state]
  access := h.access
  startValues := h.startValues
  nonzero := h.nonzero
  footed b := (h.footed b).modifyAccount a (fun _ => rfl) fun _ => rfl

/-- Twins stay so when an account with a root gets code. -/
theorem setCode (h : Twins w l k) (a : Address) (code : Bytes) (ha : l.Rooted a) :
    Twins w (Ledger.setCode l a code) (Ledger.setCode k a code) where
  source := h.source
  state := by rw [LawfulLedger.state_setCode, LawfulLedger.state_setCode, h.state]
  access := h.access
  startValues := h.startValues
  nonzero := h.nonzero
  footed b := (h.footed b).setCode ha code

/-- Twins stay so when a slot is written that has footing. -/
theorem setStorage (h : Twins w l k) (s : Slot) (value : Word)
    (hs : l.Rooted s.owner ∨ Ledger.code l s.owner ≠ #[]) :
    Twins w (Ledger.setStorage l s value) (Ledger.setStorage k s value) where
  source := h.source
  state := by rw [LawfulLedger.state_setStorage, LawfulLedger.state_setStorage, h.state]
  access := h.access
  startValues := by
    change l.startValues.insertIfNew s (l.storage s) =
      k.startValues.insertIfNew s (k.world.storage s)
    rw [h.startValues, h.storage]
  nonzero := h.nonzero.setStorage s value
  footed b := (h.footed b).setStorage s value hs

/-- Only together with the nonce, which brings the account into being on both sides. -/
theorem reset (h : Twins w l k) (a : Address) (nonce : Nat) :
    Twins w (Ledger.setNonce (Ledger.clearStorage l a) a nonce)
      (Ledger.setNonce (Ledger.clearStorage k a) a nonce) where
  source := h.source
  state := by rw [LawfulLedger.state_reset, LawfulLedger.state_reset, h.state]
  access := h.access
  startValues := h.startValues
  nonzero := h.nonzero.clearStorage a
  footed b := ((h.footed b).putAccount_dropSlots a rfl).modifyAccount a (fun _ => rfl) fun _ => rfl

/-- Twins stay so when an account is destroyed. -/
theorem destroyAccount (h : Twins w l k) (a : Address) :
    Twins w (Ledger.destroyAccount l a) (Ledger.destroyAccount k a) where
  source := h.source
  state := by rw [LawfulLedger.state_destroyAccount, LawfulLedger.state_destroyAccount, h.state]
  access := h.access
  startValues := h.startValues
  nonzero := h.nonzero.clearStorage a
  footed b := (h.footed b).putAccount_dropSlots a rfl

/-! ### Accesses and snapshots -/

/-- Twins stay so when an account is accessed. -/
theorem accessAccount (h : Twins w l k) (a : Address) :
    Twins w (Ledger.accessAccount l a).2 (Ledger.accessAccount k a).2 where
  source := by
    rw [← h.source]
    exact (JournaledLedger.KeepsRoots.accessAccount l a).source
  state := by rw [LawfulLedger.state_accessAccount, LawfulLedger.state_accessAccount, h.state]
  access := by
    refine (JournaledLedger.access_accessAccount l a).trans ?_
    rw [h.access]
    rfl
  startValues := (JournaledLedger.startValues_accessAccount l a).trans h.startValues
  nonzero := h.nonzero
  footed b := (h.footed b).accessAccount a

/-- Twins stay so when a slot is accessed. -/
theorem accessSlot (h : Twins w l k) (s : Slot) :
    Twins w (Ledger.accessSlot l s).2 (Ledger.accessSlot k s).2 where
  source := by
    rw [← h.source]
    exact (JournaledLedger.KeepsRoots.accessSlot l s).source
  state := by rw [LawfulLedger.state_accessSlot, LawfulLedger.state_accessSlot, h.state]
  access := by
    refine (JournaledLedger.access_accessSlot l s).trans ?_
    rw [h.access]
    rfl
  startValues := (JournaledLedger.startValues_accessSlot l s).trans h.startValues
  nonzero := h.nonzero
  footed b := (h.footed b).accessSlot s

/-- Twins stay so when both take a snapshot. -/
theorem snapshot (h : Twins w l k) : Twins w (Ledger.snapshot l).2 (Ledger.snapshot k).2 :=
  ⟨h.source, h.state, h.access, h.startValues, h.nonzero, h.footed⟩

/-- Keeping a snapshot changes the bookkeeping alone. -/
theorem commit {b l' : JournaledLedger World} {d k' : SnapshotLedger} (h : Twins w l k)
    (hl : Ledger.History (Ledger.snapshot b).2 l) (hk : Ledger.History (Ledger.snapshot d).2 k)
    (hl' : Ledger.commit l (Ledger.snapshot b).1 = .ok l')
    (hk' : Ledger.commit k (Ledger.snapshot d).1 = .ok k') : Twins w l' k' := by
  have hleft := JournaledLedger.ledger_commit_of_extends (JournaledLedger.extends_of_history hl)
  have hright := SnapshotLedger.commit_of_keeps (SnapshotLedger.keeps_of_history hk)
  cases hl'.symm.trans hleft
  cases hk'.symm.trans hright
  exact ⟨h.source, h.state, h.access, h.startValues, h.nonzero, h.footed⟩

/-- Undoing a snapshot brings the twins back that were there when it was taken, with the start
    values that have been noted since. -/
theorem rollback {b l' : JournaledLedger World} {d k' : SnapshotLedger} (hb : Twins w b d)
    (h : Twins w l k) (hl : Ledger.History (Ledger.snapshot b).2 l)
    (hk : Ledger.History (Ledger.snapshot d).2 k)
    (hl' : Ledger.rollback l (Ledger.snapshot b).1 = .ok l')
    (hk' : Ledger.rollback k (Ledger.snapshot d).1 = .ok k') : Twins w l' k' := by
  have hleft := JournaledLedger.ledger_rollback_of_extends (JournaledLedger.extends_of_history hl)
  have hright := SnapshotLedger.rollback_of_keeps (SnapshotLedger.keeps_of_history hk)
  cases hl'.symm.trans hleft
  cases hk'.symm.trans hright
  exact ⟨hb.source, hb.state, hb.access, h.startValues, hb.nonzero, hb.footed⟩

/-! ### Transactions -/

/-- A new transaction forgets accesses, start values and snapshots on both sides. -/
theorem beginTransaction (h : Twins w l k) :
    Twins w l.beginTransaction k.beginTransaction :=
  ⟨h.source, h.state, rfl, rfl, h.nonzero, h.footed⟩

/-- An empty overlay on a world and a ledger that owns that world. -/
theorem ofWorld (hw : w.Nonzero) : Twins w (.ofSource w) (.ofWorld w) where
  source := rfl
  state := by
    refine LedgerState.ext rfl rfl rfl (funext fun _ => ?_) rfl
    exact Std.ExtTreeMap.contains_eq_isSome_getElem?.symm
  access := rfl
  startValues := rfl
  nonzero := hw
  footed _ := .inr (.inl fun _ => Std.ExtTreeMap.getElem?_empty)

end Twins

end Evm
