import Evm.Proofs.Ledger.Copies
import Evm.Proofs.Ledger.Journaled
import Evm.Proofs.State.World

namespace Evm

/-!
# Changes lead from the world below to the ledger

A list of changes acts on each account apart from the others, so it is enough to follow one account
through the changes that are about it.

* `AccountView`, `LedgerState.view` — what a state answers about one account.
* `LedgerState.view_foldl_change` — only the changes about an account show in it.
* `JournaledLedger.Accounted`, `JournaledLedger.Marked` — overlays whose marks tell how they differ
  from the world below, in full or as far as any writes leave them.
* `JournaledLedger.reported` — what the changes tell of the ledger.
* `JournaledLedger.foldl_changes_view` — the changes about an account lead to what is reported of
  it.
* `JournaledLedger.state_apply_changes` — if the marks tell the truth, all changes lead to all that
  the ledger answers.
-/

/-! ### One account -/

/-- What a state answers about one account. -/
@[ext] structure AccountView where
  balance : Word
  nonce : Nat
  code : Bytes
  present : Bool
  storage : Word → Word

namespace AccountView

/-- An account that is not there. -/
def absent : AccountView where
  balance := 0
  nonce := 0
  code := #[]
  present := false
  storage _ := 0

/-- What a change does to the account that it is about. -/
def change (v : AccountView) : StateChange → AccountView
  | .balanceSet _ balance => { v with balance, present := true }
  | .nonceSet _ nonce => { v with nonce, present := true }
  | .codeSet _ code => { v with code, present := true }
  | .storageWrite _ key value => { v with storage := Function.update v.storage key value }
  | .storageDelete _ key => { v with storage := Function.update v.storage key 0 }
  | .accountDestroyed _ => absent

end AccountView

namespace LedgerState

/-- What a state answers about an account. -/
def view (s : LedgerState) (a : Address) : AccountView where
  balance := s.balance a
  nonce := s.nonce a
  code := s.code a
  present := s.present a
  storage key := s.storage ⟨a, key⟩

/-- A state is what is seen of all its accounts. -/
theorem ext_view {s t : LedgerState} (h : ∀ a, s.view a = t.view a) : s = t := by
  refine LedgerState.ext (funext fun a => ?_) (funext fun a => ?_) (funext fun a => ?_)
    (funext fun a => ?_) (funext fun slot => ?_)
  · exact congrArg AccountView.balance (h a)
  · exact congrArg AccountView.nonce (h a)
  · exact congrArg AccountView.code (h a)
  · exact congrArg AccountView.present (h a)
  · exact congrArg (AccountView.storage · slot.key) (h slot.owner)

/-- What a change does to a state. -/
def change (s : LedgerState) : StateChange → LedgerState
  | .balanceSet a balance => s.setBalance a balance
  | .nonceSet a nonce => s.setNonce a nonce
  | .codeSet a code => s.setCode a code
  | .storageWrite a key value => s.setStorage ⟨a, key⟩ value
  | .storageDelete a key => s.setStorage ⟨a, key⟩ 0
  | .accountDestroyed a => s.destroyAccount a

/-- A slot that is written shows in the storage of its owner. -/
theorem view_setStorage_self (s : LedgerState) (a : Address) (key value : Word) :
    (s.setStorage ⟨a, key⟩ value).view a =
      { s.view a with storage := Function.update (s.view a).storage key value } := by
  refine AccountView.ext rfl rfl rfl rfl (funext fun k => ?_)
  simp [setStorage, view, Function.update_apply]

/-- A change is seen at its target. -/
theorem view_change_self (s : LedgerState) (c : StateChange) :
    (s.change c).view c.target = (s.view c.target).change c := by
  cases c with
  | balanceSet a balance =>
    simp [change, setBalance, view, StateChange.target, AccountView.change]
  | nonceSet a nonce => simp [change, setNonce, view, StateChange.target, AccountView.change]
  | codeSet a code => simp [change, setCode, view, StateChange.target, AccountView.change]
  | storageWrite a key value => exact view_setStorage_self s a key value
  | storageDelete a key => exact view_setStorage_self s a key 0
  | accountDestroyed a =>
    simp [change, destroyAccount, clearStorage, view, StateChange.target, AccountView.change,
      AccountView.absent]

/-- It is not seen at any other account. -/
theorem view_change_of_ne (s : LedgerState) {c : StateChange} {a : Address} (h : a ≠ c.target) :
    (s.change c).view a = s.view a := by
  cases c with
  | balanceSet b balance => simp_all [change, setBalance, view, StateChange.target]
  | nonceSet b nonce => simp_all [change, setNonce, view, StateChange.target]
  | codeSet b code => simp_all [change, setCode, view, StateChange.target]
  | storageWrite b key value => simp_all [change, setStorage, view, StateChange.target]
  | storageDelete b key => simp_all [change, setStorage, view, StateChange.target]
  | accountDestroyed b =>
    simp_all [change, destroyAccount, clearStorage, view, StateChange.target]

/-- Of a list of changes, those about an account make it what it is in the end. -/
theorem view_foldl_change (s : LedgerState) (changes : List StateChange) (a : Address) :
    (changes.foldl change s).view a =
      (changes.filter (·.target = a)).foldl AccountView.change (s.view a) := by
  induction changes generalizing s with
  | nil => rfl
  | cons c rest ih =>
    rw [List.foldl_cons, ih]
    by_cases h : c.target = a
    · subst h
      rw [view_change_self, List.filter_cons_of_pos (by simp), List.foldl_cons]
    · rw [view_change_of_ne s (Ne.symm h), List.filter_cons_of_neg (by simpa using h)]

end LedgerState

/-! ### Worlds -/

/-- What a world answers. -/
def World.state (w : World) : LedgerState := Ledger.state (SnapshotLedger.ofWorld w)

/-- A change does to a world what it does to its answers. -/
theorem World.state_applyChange (w : World) (c : StateChange) :
    (w.applyChange c).state = w.state.change c := by
  cases c with
  | balanceSet a balance => exact SnapshotLedger.state_setBalance (.ofWorld w) a balance
  | nonceSet a nonce => exact SnapshotLedger.state_setNonce (.ofWorld w) a nonce
  | codeSet a code => exact SnapshotLedger.state_setCode (.ofWorld w) a code
  | storageWrite a key value => exact SnapshotLedger.state_setStorage (.ofWorld w) ⟨a, key⟩ value
  | storageDelete a key => exact SnapshotLedger.state_setStorage (.ofWorld w) ⟨a, key⟩ 0
  | accountDestroyed a => exact SnapshotLedger.state_destroyAccount (.ofWorld w) a

/-- A world takes changes as its state does. -/
theorem World.state_apply (w : World) (changes : List StateChange) :
    (w.apply changes).state = changes.foldl LedgerState.change w.state := by
  unfold World.apply
  induction changes generalizing w with
  | nil => rfl
  | cons c rest ih => rw [List.foldl_cons, ih, World.state_applyChange, List.foldl_cons]

variable {S : Type} [WorldSource S]

/-- Whatever has code or a slot other than zero has a record. -/
def WorldSource.Grounded (source : S) : Prop :=
  ∀ a, (WorldSource.code source a ≠ #[] ∨ ∃ key, WorldSource.storage source ⟨a, key⟩ ≠ 0) →
    WorldSource.account source a ≠ none

/-! ### Overlays -/

/-- The marks of an overlay tell how it differs from the world below. -/
structure Overlay.Accounted (source : S) (a : Address) (o : Overlay) : Prop where
  /-- An account that is gone was destroyed. -/
  absent : o.present = false →
    o.storageCleared = true ∧ o.balance = 0 ∧ o.nonce = 0 ∧ o.code = #[]
  /-- Code that was not set is that of the world below, or was destroyed with it. -/
  code : o.codeSet = false → o.code = if o.storageCleared then #[] else WorldSource.code source a

/-- What the marks of an overlay tell after any writes, also if storage was emptied where there is
    code. -/
structure Overlay.Marked (source : S) (a : Address) (o : Overlay) : Prop where
  /-- An account that is not there was destroyed, or was never there. -/
  absent : o.present = false →
    (o.storageCleared = true ∨ WorldSource.account source a = none) ∧
      o.balance = 0 ∧ o.nonce = 0 ∧ o.code = #[]
  /-- Code that was not set is that of the world below, unless it was destroyed with it. -/
  code : o.codeSet = false →
    o.code = WorldSource.code source a ∨ o.storageCleared = true ∧ o.code = #[]

/-- An overlay that is accounted for has marks such as writes leave. -/
theorem Overlay.Accounted.marked {source : S} {a : Address} {o : Overlay}
    (h : o.Accounted source a) : o.Marked source a := by
  refine ⟨fun hgone => (h.absent hgone).imp_left .inl, fun hunset => ?_⟩
  have hcode := h.code hunset
  cases hcleared : o.storageCleared with
  | false =>
    rw [hcleared] at hcode
    exact .inl hcode
  | true =>
    rw [hcleared] at hcode
    exact .inr ⟨rfl, hcode⟩

namespace JournaledLedger

/-- The marks of all overlays tell how they differ from the world below. -/
def Accounted (l : JournaledLedger S) : Prop :=
  ∀ a o, l.accounts[a]? = some o → Overlay.Accounted l.source a o

/-- The marks of all overlays are such as writes leave them. -/
def Marked (l : JournaledLedger S) : Prop :=
  ∀ a o, l.accounts[a]? = some o → Overlay.Marked l.source a o

/-- What a source answers about an account. -/
def sourceView (source : S) (a : Address) : AccountView where
  balance := (WorldSource.account source a).elim 0 Account.balance
  nonce := (WorldSource.account source a).elim 0 Account.nonce
  code := WorldSource.code source a
  present := (WorldSource.account source a).isSome
  storage key := WorldSource.storage source ⟨a, key⟩

/-! ### What the changes tell -/

omit [WorldSource S] in
/-- The account will be described afresh, but without its code. -/
def losesCode (l : JournaledLedger S) (a : Address) : Bool :=
  (l.accounts[a]?).any fun o => o.storageCleared && !o.codeSet

/-- The storage was emptied, but that is not told: there is no record to destroy. -/
def hidesClearing (l : JournaledLedger S) (a : Address) : Bool :=
  l.isCleared a && (WorldSource.account l.source a).isNone

/-- What the world below answers after the changes: what the ledger does, but for code that was not
    described again and for slots of which nobody told that they were emptied. -/
def reported (l : JournaledLedger S) : LedgerState :=
  { Ledger.state l with
    code := fun a => if l.losesCode a then #[] else (l.load a).code
    storage := fun s => if l.hidesClearing s.owner && l.storage s = 0 then
      WorldSource.storage l.source s else l.storage s }

/-- The code that is reported. -/
theorem reported_code (l : JournaledLedger S) (a : Address) :
    l.reported.code a = if l.losesCode a then #[] else (l.load a).code := rfl

/-- The storage that is reported. -/
theorem reported_storage (l : JournaledLedger S) (s : Slot) :
    l.reported.storage s =
      if l.hidesClearing s.owner && l.storage s = 0 then WorldSource.storage l.source s
      else l.storage s := rfl

/-- Nothing is lost exactly if the code that is not described again is empty, and the slots that are
    not told of are empty below. -/
theorem reported_eq_state_iff {l : JournaledLedger S} : l.reported = Ledger.state l ↔
    (∀ a, l.losesCode a = true → (l.load a).code = #[]) ∧
      ∀ s, l.hidesClearing s.owner = true → l.storage s = 0 →
        WorldSource.storage l.source s = 0 := by
  -- the two reports differ where code is lost and where a clearing is hidden, and nowhere else
  constructor
  · intro h
    refine ⟨fun a hloses => ?_, fun s hhides hzero => ?_⟩
    · have hcode : l.reported.code a = (l.load a).code := congrArg (LedgerState.code · a) h
      rw [reported_code, if_pos hloses] at hcode
      exact hcode.symm
    · have hstorage : l.reported.storage s = l.storage s := congrArg (LedgerState.storage · s) h
      rw [reported_storage, if_pos (by simp [hhides, hzero])] at hstorage
      exact hstorage.trans hzero
  · rintro ⟨hcode, hstorage⟩
    refine LedgerState.ext rfl rfl (funext fun a => ?_) rfl (funext fun s => ?_)
    · rw [reported_code]
      split
      · rename_i hloses
        exact (hcode a hloses).symm
      · rfl
    · rw [reported_storage]
      split
      · rename_i hhides
        obtain ⟨hhidden, hzero⟩ := Bool.and_eq_true_iff.1 hhides
        have hzero := of_decide_eq_true hzero
        exact (hstorage s hhidden hzero).trans hzero.symm
      · rfl

/-! ### Changes to records -/

/-- What an account is described on top of: what the world below holds, or nothing if its record is
    destroyed first. -/
def foundation (l : JournaledLedger S) (a : Address) : AccountView :=
  if l.isCleared a && (WorldSource.account l.source a).isSome then .absent
  else sourceView l.source a

/-- Without a record there is nothing but slots either. -/
theorem foundation_eq_absent {l : JournaledLedger S} {a : Address}
    (hrecorded : WorldSource.code l.source a ≠ #[] → WorldSource.account l.source a ≠ none)
    (h : l.isCleared a = true ∨ WorldSource.account l.source a = none) :
    l.foundation a = { AccountView.absent with storage := (l.foundation a).storage } := by
  unfold foundation
  cases hrecord : WorldSource.account l.source a with
  | some r =>
    rw [h.resolve_right (by simp [hrecord])]
    rfl
  | none =>
    rw [Option.isSome_none, Bool.and_false]
    have hcode : WorldSource.code l.source a = #[] := by
      by_contra hsome
      exact hrecorded hsome hrecord
    simp only [sourceView, hrecord, hcode]
    rfl

/-- The description starts from what the record holds that is there at that point. -/
theorem field_foundation {l : JournaledLedger S} {a : Address}
    (hrecorded : WorldSource.code l.source a ≠ #[] → WorldSource.account l.source a ≠ none)
    {α : Type} (field : AccountView → α) (ofRecord : Option Account → α)
    (habsent : ∀ storage, field { AccountView.absent with storage } = ofRecord none)
    (hbelow : field (sourceView l.source a) = ofRecord (WorldSource.account l.source a)) :
    field (l.foundation a) =
      ofRecord (if l.isCleared a then none else WorldSource.account l.source a) := by
  by_cases hcleared : l.isCleared a = true
  · rw [foundation_eq_absent hrecorded (.inl hcleared), if_pos hcleared]
    exact habsent _
  · rw [foundation, if_neg (by simp [hcleared]), if_neg hcleared]
    exact hbelow

/-- What the changes to its record make of an account of the world below. -/
def rebuilt (l : JournaledLedger S) (a : Address) : AccountView :=
  { l.foundation a with
    balance := (l.load a).balance
    nonce := (l.load a).nonce
    code := if l.losesCode a then #[] else (l.load a).code
    present := (l.load a).present }

omit [WorldSource S] in
/-- An account that is there is described in full, if the description starts from what its record
    was; but code is only described if it was set. -/
theorem foldl_described (a : Address) {v : AccountView} {record : Option Account} {o : Overlay}
    (hbalance : v.balance = record.elim 0 Account.balance)
    (hnonce : v.nonce = record.elim 0 Account.nonce) (hpresent : v.present = record.isSome) :
    ((if record.map Account.balance = some o.balance then []
          else [StateChange.balanceSet a o.balance])
        ++ (if record.elim 0 Account.nonce = o.nonce then [] else [StateChange.nonceSet a o.nonce])
        ++ (if o.codeSet then [StateChange.codeSet a o.code] else [])).foldl AccountView.change v =
      { v with
        balance := o.balance, nonce := o.nonce, present := true
        code := if o.codeSet then o.code else v.code } := by
  -- a change is left out where it would do nothing, so each part sets its field either way
  have afterBalance :
      (if record.map Account.balance = some o.balance then []
        else [StateChange.balanceSet a o.balance]).foldl AccountView.change v =
      { v with balance := o.balance, present := true } := by
    split
    · rename_i hsame
      obtain ⟨r, hr, hrb⟩ := Option.map_eq_some_iff.1 hsame
      rw [hr] at hbalance hpresent
      exact AccountView.ext (hbalance.trans hrb) rfl rfl hpresent rfl
    · rfl
  have afterNonce (w : AccountView) (hw : w.nonce = v.nonce) (hthere : w.present = true) :
      (if record.elim 0 Account.nonce = o.nonce then []
        else [StateChange.nonceSet a o.nonce]).foldl AccountView.change w =
      { w with nonce := o.nonce } := by
    split
    · rename_i hsame
      exact AccountView.ext rfl ((hw.trans hnonce).trans hsame) rfl rfl rfl
    · exact AccountView.ext rfl rfl rfl hthere.symm rfl
  have afterCode (w : AccountView) (hthere : w.present = true) :
      (if o.codeSet then [StateChange.codeSet a o.code] else []).foldl AccountView.change w =
      { w with code := if o.codeSet then o.code else w.code } := by
    split
    · exact AccountView.ext rfl rfl rfl hthere.symm rfl
    · rfl
  rw [List.foldl_append, List.foldl_append, afterBalance,
    afterNonce { v with balance := o.balance, present := true } rfl rfl,
    afterCode { v with balance := o.balance, nonce := o.nonce, present := true } rfl]

/-- The changes to a record lead from the world below to the account as it is rebuilt. -/
theorem foldl_accountChanges {l : JournaledLedger S} (hl : l.Marked)
    (hrecorded : ∀ a, WorldSource.code l.source a ≠ #[] → WorldSource.account l.source a ≠ none)
    (a : Address) :
    (l.accountChanges a).foldl AccountView.change (sourceView l.source a) = l.rebuilt a := by
  cases h : l.accounts[a]? with
  | none =>
    unfold accountChanges rebuilt losesCode foundation isCleared load
    rw [h]
    rfl
  | some o =>
    obtain ⟨habsent, hcode⟩ := hl a o h
    have hmark : l.isCleared a = o.storageCleared := by
      unfold isCleared
      rw [h]
      rfl
    have hfoundation := foundation_eq_absent (hrecorded a)
    rw [hmark] at hfoundation
    have afterDestroyed :
        (if o.storageCleared && (WorldSource.account l.source a).isSome
          then [StateChange.accountDestroyed a] else []).foldl AccountView.change
            (sourceView l.source a) = l.foundation a := by
      unfold foundation
      rw [hmark]
      split <;> rfl
    unfold accountChanges rebuilt losesCode load
    rw [h]
    dsimp only [Option.any_some]
    rw [List.foldl_append, afterDestroyed]
    cases hthere : o.present with
    | false =>
      -- gone in the end: the destruction is the only change
      obtain ⟨hcleared, hbalance, hnonce, hempty⟩ := habsent hthere
      rw [hbalance, hnonce, hempty, ite_self]
      exact hfoundation hcleared
    | true =>
      have hstart {α : Type} (field : AccountView → α) (ofRecord : Option Account → α)
          (habsent : ∀ storage, field { AccountView.absent with storage } = ofRecord none)
          (hbelow : field (sourceView l.source a) = ofRecord (WorldSource.account l.source a)) :=
        hmark ▸ field_foundation (hrecorded a) field ofRecord habsent hbelow
      rw [if_pos rfl, foldl_described a
        (hstart AccountView.balance (·.elim 0 Account.balance) (fun _ => rfl) rfl)
        (hstart AccountView.nonce (·.elim 0 Account.nonce) (fun _ => rfl) rfl)
        (hstart AccountView.present Option.isSome (fun _ => rfl) rfl)]
      refine AccountView.ext rfl rfl ?_ rfl rfl
      change (if o.codeSet then o.code else (l.foundation a).code) =
        if o.storageCleared && !o.codeSet then #[] else o.code
      by_cases hset : o.codeSet = true
      · rw [if_pos hset, if_neg (by simp [hset])]
      · rw [if_neg hset]
        rw [Bool.not_eq_true] at hset
        by_cases hcleared : o.storageCleared = true
        · rw [if_pos (by simp [hset, hcleared])]
          exact congrArg AccountView.code (hfoundation (.inl hcleared))
        · -- neither set nor destroyed, so it is the code below
          have hbelow := (hcode hset).resolve_right fun hgone => hcleared hgone.1
          rw [Bool.not_eq_true] at hcleared
          unfold foundation
          rw [hmark, hcleared, if_neg (by simp), if_neg (by simp), hbelow]
          rfl

/-! ### Changes to slots -/

/-- The change that a written slot calls for, if it held something else before. -/
def slotChange (l : JournaledLedger S) (a : Address) (e : Slot × Word) : Option StateChange :=
  let before := if l.isCleared a then 0 else WorldSource.storage l.source e.1
  if before = e.2 then none
  else if e.2 = 0 then some (.storageDelete a e.1.key)
  else some (.storageWrite a e.1.key e.2)

/-- The changes to slots are drawn from the slots that were written. -/
theorem slotChanges_eq (l : JournaledLedger S) (a : Address) :
    l.slotChanges a =
      (l.slots.toList.filter fun e => e.1.owner == a).filterMap (l.slotChange a) := rfl

/-- What a written slot comes to hold; nothing is told of one that held the same before. -/
def slotAfter (l : JournaledLedger S) (a : Address) (v : AccountView) (e : Slot × Word) : Word :=
  if (if l.isCleared a then 0 else WorldSource.storage l.source e.1) = e.2 then v.storage e.1.key
  else e.2

/-- The change for a slot is seen in that slot. -/
theorem foldl_slotChange (l : JournaledLedger S) (a : Address) (e : Slot × Word)
    (v : AccountView) :
    (l.slotChange a e).toList.foldl AccountView.change v =
      { v with storage := Function.update v.storage e.1.key (l.slotAfter a v e) } := by
  unfold slotChange slotAfter
  generalize (if l.isCleared a then 0 else WorldSource.storage l.source e.1) = before
  dsimp only
  split
  · exact AccountView.ext rfl rfl rfl rfl (Function.update_eq_self ..).symm
  · split
    · rename_i hzero
      rw [hzero]
      rfl
    · rfl

/-- The changes to slots make each written one hold what it comes to hold, and leave the others. -/
theorem foldl_slotChanges (l : JournaledLedger S) (a : Address) {written : List (Slot × Word)}
    (hdistinct : written.Pairwise fun e e' => e.1.key ≠ e'.1.key) (v : AccountView) :
    ∃ storage, (written.filterMap (l.slotChange a)).foldl AccountView.change v =
        { v with storage } ∧
      (∀ e ∈ written, storage e.1.key = l.slotAfter a v e) ∧
      ∀ key, (∀ e ∈ written, e.1.key ≠ key) → storage key = v.storage key := by
  induction written generalizing v with
  | nil => exact ⟨v.storage, rfl, nofun, fun _ _ => rfl⟩
  | cons e rest ih =>
    -- keys are distinct, so the other changes find their slots as they were and leave this one
    obtain ⟨hfirst, hrest⟩ := List.pairwise_cons.1 hdistinct
    have hstep := l.foldl_slotChange a e v
    obtain ⟨storage, heq, hwritten, hothers⟩ :=
      ih hrest { v with storage := Function.update v.storage e.1.key (l.slotAfter a v e) }
    refine ⟨storage, ?_, ?_, ?_⟩
    · have hcons : (e :: rest).filterMap (l.slotChange a) =
          (l.slotChange a e).toList ++ rest.filterMap (l.slotChange a) := by
        cases hchange : l.slotChange a e <;> simp [hchange]
      rw [hcons, List.foldl_append, hstep, heq]
    · rintro e' (_ | ⟨_, he'⟩)
      · rw [hothers e.1.key fun e' he' => (hfirst e' he').symm]
        exact Function.update_self ..
      · rw [hwritten e' he']
        unfold slotAfter
        dsimp only
        rw [Function.update_of_ne (hfirst e' he').symm]
    · intro key hkey
      rw [hothers key fun e' he' => hkey e' (List.mem_cons_of_mem e he')]
      exact Function.update_of_ne (hkey e List.mem_cons_self).symm ..

/-! ### All changes -/

/-- What a rebuilt account starts from holds what is reported of a slot, unless it was written. -/
theorem foundation_storage (l : JournaledLedger S) (s : Slot) :
    (l.foundation s.owner).storage s.key =
      if l.hidesClearing s.owner then WorldSource.storage l.source s
      else if l.isCleared s.owner then 0 else WorldSource.storage l.source s := by
  unfold foundation hidesClearing
  cases l.isCleared s.owner with
  | false => rfl
  | true => cases WorldSource.account l.source s.owner <;> rfl

/-- A written slot of a rebuilt account comes to hold what is reported. -/
theorem slotAfter_rebuilt {l : JournaledLedger S} {s : Slot} {value : Word}
    (h : l.slots[s]? = some value) :
    l.slotAfter s.owner (l.rebuilt s.owner) (s, value) = l.reported.storage s := by
  have hvalue : l.storage s = value := by rw [storage, h]
  have hrebuilt : (l.rebuilt s.owner).storage s.key = (l.foundation s.owner).storage s.key := rfl
  rw [slotAfter, hrebuilt, foundation_storage, reported_storage, hvalue]
  by_cases hhides : l.hidesClearing s.owner = true
  · -- an emptied slot is only told of if it was written again
    have hcleared : l.isCleared s.owner = true := (Bool.and_eq_true_iff.1 hhides).1
    simp only [hhides, hcleared, if_true, Bool.true_and, decide_eq_true_eq, @eq_comm _ 0 value]
  · simp only [hhides, Bool.false_eq_true, if_false, Bool.false_and]
    exact ite_eq_right_iff.2 id

/-- So does a slot that was not written. -/
theorem rebuilt_storage {l : JournaledLedger S} {s : Slot} (h : l.slots[s]? = none) :
    (l.rebuilt s.owner).storage s.key = l.reported.storage s := by
  have hrebuilt : (l.rebuilt s.owner).storage s.key = (l.foundation s.owner).storage s.key := rfl
  have hvalue : l.storage s = if l.isCleared s.owner then 0 else WorldSource.storage l.source s := by
    rw [storage, h]
  rw [hrebuilt, foundation_storage, reported_storage, hvalue]
  by_cases hhides : l.hidesClearing s.owner = true
  · have hcleared : l.isCleared s.owner = true := (Bool.and_eq_true_iff.1 hhides).1
    simp [hhides, hcleared]
  · simp [hhides]

/-- The changes about an account lead from the world below to what is reported of it. -/
theorem foldl_changes_view {l : JournaledLedger S} (hl : l.Marked)
    (hrecorded : ∀ a, WorldSource.code l.source a ≠ #[] → WorldSource.account l.source a ≠ none)
    (a : Address) :
    (l.accountChanges a ++ l.slotChanges a).foldl AccountView.change (sourceView l.source a) =
      l.reported.view a := by
  rw [List.foldl_append, foldl_accountChanges hl hrecorded, slotChanges_eq]
  have hmem (e : Slot × Word) : e ∈ l.slots.toList.filter (fun e => e.1.owner == a) ↔
      l.slots[e.1]? = some e.2 ∧ e.1.owner = a := by
    rw [List.mem_filter, beq_iff_eq]
    exact and_congr_left' Std.ExtTreeMap.mem_toList_iff_getElem?_eq_some
  -- slots are distinct, and these have one owner
  have hdistinct : (l.slots.toList.filter fun e => e.1.owner == a).Pairwise
      fun e e' => e.1.key ≠ e'.1.key := by
    refine (Std.ExtTreeMap.distinct_keys_toList.filter _).imp_of_mem ?_
    refine fun {e e'} he he' h hkey => h ?_
    have howner := ((hmem e).1 he).2.trans ((hmem e').1 he').2.symm
    have hsame : e.1 = e'.1 := by
      obtain ⟨⟨_, _⟩, _⟩ := e
      obtain ⟨⟨_, _⟩, _⟩ := e'
      simp_all
    rw [hsame]
    exact Std.ReflOrd.compare_self
  obtain ⟨storage, heq, hwritten, hothers⟩ := l.foldl_slotChanges a hdistinct (l.rebuilt a)
  rw [heq]
  refine AccountView.ext rfl rfl rfl rfl (funext fun key => ?_)
  change storage key = l.reported.storage ⟨a, key⟩
  cases hslot : l.slots[(⟨a, key⟩ : Slot)]? with
  | some value =>
    rw [hwritten (⟨a, key⟩, value) ((hmem _).2 ⟨hslot, rfl⟩)]
    exact slotAfter_rebuilt hslot
  | none =>
    rw [← rebuilt_storage hslot]
    refine hothers key fun e he hkey => ?_
    obtain ⟨hentry, howner⟩ := (hmem e).1 he
    rw [← howner, ← hkey, hentry] at hslot
    cases hslot

omit [WorldSource S] in
/-- A list of one change, or none. -/
theorem eq_of_mem_ite {p : Prop} [Decidable p] {c x : StateChange}
    (h : (c ∈ if p then [] else [x]) ∨ c ∈ if p then [x] else []) : c = x := by
  by_cases hp : p <;> simpa [hp] using h

/-- Changes to an account have it as their target. -/
theorem target_of_mem_accountChanges {l : JournaledLedger S} {a : Address} {c : StateChange}
    (h : c ∈ l.accountChanges a) : c.target = a := by
  unfold accountChanges at h
  cases hoverlay : l.accounts[a]? with
  | none =>
    rw [hoverlay] at h
    cases h
  | some o =>
    rw [hoverlay] at h
    obtain h | h := List.mem_append.1 h
    · rw [eq_of_mem_ite (.inr h)]
      rfl
    -- only an account that is there reports its fields
    · cases hthere : o.present with
      | false =>
        rw [hthere] at h
        cases h
      | true =>
        rw [hthere, if_pos rfl, List.mem_append, List.mem_append] at h
        obtain (h | h) | h := h
        · rw [eq_of_mem_ite (.inl h)]
          rfl
        · rw [eq_of_mem_ite (.inl h)]
          rfl
        · rw [eq_of_mem_ite (.inr h)]
          rfl

/-- So have changes to its slots. -/
theorem target_of_mem_slotChanges {l : JournaledLedger S} {a : Address} {c : StateChange}
    (h : c ∈ l.slotChanges a) : c.target = a := by
  rw [slotChanges_eq, List.mem_filterMap] at h
  obtain ⟨e, -, he⟩ := h
  unfold slotChange at he
  dsimp only at he
  -- cleared or not, the slot is reported against one value from before
  generalize (if l.isCleared a then 0 else WorldSource.storage l.source e.1) = before at he
  by_cases hsame : before = e.2
  · rw [if_pos hsame] at he
    cases he
  · rw [if_neg hsame] at he
    by_cases hzero : e.2 = 0
    · rw [if_pos hzero] at he
      rw [← Option.some.inj he]
      rfl
    · rw [if_neg hzero] at he
      rw [← Option.some.inj he]
      rfl

/-- Of changes put together account by account, those about one account are its own. -/
theorem filter_flatMap_target {addresses : List Address} (hdistinct : addresses.Nodup)
    {f : Address → List StateChange} (hf : ∀ b, ∀ c ∈ f b, c.target = b) (a : Address) :
    (addresses.flatMap f).filter (·.target = a) = if a ∈ addresses then f a else [] := by
  -- by induction on the addresses: each of them contributes to its own changes alone
  induction addresses with
  | nil => rfl
  | cons b rest ih =>
    obtain ⟨hfresh, hrest⟩ := List.nodup_cons.1 hdistinct
    rw [List.flatMap_cons, List.filter_append, ih hrest]
    by_cases hb : b = a
    · subst hb
      rw [if_neg hfresh, if_pos List.mem_cons_self, List.append_nil]
      exact List.filter_eq_self.2 fun c hc => by simpa using hf b c hc
    · have hnone : (f b).filter (·.target = a) = [] :=
        List.filter_eq_nil_iff.2 fun c hc => by simpa [hf b c hc] using hb
      have hmem : a ∈ b :: rest ↔ a ∈ rest := by simp [Ne.symm hb]
      rw [hnone, List.nil_append]
      simp only [hmem]

/-- An account that is not listed has no changes. -/
theorem changes_of_not_mem {l : JournaledLedger S} {a : Address} (h : a ∉ l.changedAddresses) :
    l.accountChanges a ++ l.slotChanges a = [] := by
  -- an account or a slot that the overlay holds has its address listed
  have hlisted (hin : a ∈ l.accounts.keys ++ l.slots.keys.map Slot.owner) :
      a ∈ l.changedAddresses :=
    Std.ExtTreeSet.mem_toList.2 (Std.ExtTreeSet.mem_ofList.2 (List.contains_iff_mem.2 hin))
  have haccount : l.accounts[a]? = none := by
    by_contra hsome
    refine h (hlisted (List.mem_append_left _ (Std.ExtTreeMap.mem_keys.2 ?_)))
    exact Std.ExtTreeMap.mem_iff_isSome_getElem?.2 (Option.isSome_iff_ne_none.2 hsome)
  have hslots : (l.slots.toList.filter fun e => e.1.owner == a) = [] := by
    refine List.filter_eq_nil_iff.2 fun e he howner => h (hlisted (List.mem_append_right _ ?_))
    have hentry := Std.ExtTreeMap.mem_toList_iff_getElem?_eq_some.1 he
    refine List.mem_map.2 ⟨e.1, Std.ExtTreeMap.mem_keys.2 ?_, beq_iff_eq.1 howner⟩
    rw [Std.ExtTreeMap.mem_iff_isSome_getElem?, hentry]
    rfl
  rw [slotChanges_eq, hslots, accountChanges, haccount]
  rfl

/-- What is told of an account are its own changes and those to its slots. -/
theorem filter_changes (l : JournaledLedger S) (a : Address) :
    l.changes.filter (·.target = a) = l.accountChanges a ++ l.slotChanges a := by
  -- the addresses are listed once each, for they are the elements of a set
  have hdistinct : l.changedAddresses.Nodup :=
    Std.ExtTreeSet.distinct_toList.imp fun h hsame => by
      subst hsame
      exact h Std.ReflOrd.compare_self
  have htarget (b : Address) (c : StateChange) (hc : c ∈ l.accountChanges b ++ l.slotChanges b) :
      c.target = b :=
    (List.mem_append.1 hc).elim target_of_mem_accountChanges target_of_mem_slotChanges
  refine (filter_flatMap_target hdistinct htarget a).trans ?_
  split
  · rfl
  · rename_i hmem
    exact (changes_of_not_mem hmem).symm

end JournaledLedger

/-- A world answers what it would answer as a source. -/
theorem World.view_state (w : World) (a : Address) :
    w.state.view a = JournaledLedger.sourceView w a :=
  AccountView.ext rfl rfl rfl Std.ExtTreeMap.contains_eq_isSome_getElem? rfl

/-- Once the changes are applied, the world below answers what they report. -/
theorem JournaledLedger.state_apply_changes_eq_reported {l : JournaledLedger World} (hl : l.Marked)
    (hrecorded : l.source.Recorded) : (l.source.apply l.changes).state = l.reported := by
  refine LedgerState.ext_view fun a => ?_
  rw [World.state_apply, LedgerState.view_foldl_change, filter_changes, World.view_state]
  exact foldl_changes_view hl hrecorded a

/-- If the marks of all overlays tell the truth, that is what the ledger does. -/
theorem JournaledLedger.state_apply_changes {l : JournaledLedger World} (hl : l.Accounted)
    (hground : WorldSource.Grounded l.source) :
    (l.source.apply l.changes).state = Ledger.state l := by
  rw [state_apply_changes_eq_reported (fun a o h => (hl a o h).marked)
    fun a hcode => hground a (.inl hcode)]
  refine reported_eq_state_iff.2 ⟨fun a hloses => ?_, fun s hhides _ => ?_⟩
  · -- code that is not described again was destroyed with the storage
    obtain ⟨o, ho, hmarks⟩ := (Option.any_eq_true ..).1 hloses
    rw [Bool.and_eq_true_iff, Bool.not_eq_true'] at hmarks
    rw [load, ho]
    exact ((hl a o ho).code hmarks.2).trans (if_pos hmarks.1)
  · by_contra hsome
    refine hground s.owner (.inr ⟨s.key, hsome⟩) ?_
    exact Option.isNone_iff_eq_none.1 (Bool.and_eq_true_iff.1 hhides).2

end Evm
