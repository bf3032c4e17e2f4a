import Evm.Proofs.Ledger.Changes
import Evm.Proofs.Ledger.Supply

namespace Evm

/-!
# What changes tell of any series of calls

The changes of a ledger are put together from the marks on its overlays.  A client that calls the
ledger as it likes, and settles snapshots by whatever number, still leaves marks of a kind; so it
can be said exactly what the changes tell, and when that is all that has happened.

* `LedgerCall`, `Ledger.afterCalls` — calls of a ledger in any order.
* `JournaledLedger.Everywhere` — a property of all overlays, also of those that a rollback can bring
  back.
* `JournaledLedger.Everywhere.call` — what the writes keep, any call keeps.
* `net_effect` — the world below answers after the changes what is reported, and what the ledger
  does if storage was only emptied where that can be told.
-/

/-! ### Calls -/

/-- A call of a ledger that may change it.  Snapshots are settled by any number. -/
inductive LedgerCall where
  | op (o : LedgerOp)
  | snapshot
  | commit (token : Nat)
  | rollback (token : Nat)
  deriving DecidableEq

section Calls

variable {L : Type} [Ledger L]

/-- The ledger after a call.  One that is refused leaves the ledger as it was. -/
def LedgerCall.apply (l : L) : LedgerCall → L
  | op o => o.apply l
  | snapshot => (Ledger.snapshot l).2
  | commit token => Ledger.orUnchanged l (Ledger.commit l token)
  | rollback token => Ledger.orUnchanged l (Ledger.rollback l token)

/-- The ledger after calls one after another. -/
def Ledger.afterCalls (l : L) (calls : List LedgerCall) : L := calls.foldl LedgerCall.apply l

end Calls

namespace JournaledLedger

variable {S : Type} [WorldSource S]

/-! ### Properties of all overlays -/

/-- The overlay of an account that was destroyed. -/
def destroyed : Overlay where
  balance := 0
  nonce := 0
  code := #[]
  present := false
  storageCleared := true

/-- What writes to an account keep, other than those that empty its storage. -/
structure Keeps (source : S) (P : Address → Overlay → Prop) : Prop where
  untouched (a : Address) : P a ((ofSource source).load a)
  setBalance {a : Address} (o : Overlay) (balance : Word) :
    P a o → P a { o with balance, present := true }
  setNonce {a : Address} (o : Overlay) (nonce : Nat) : P a o → P a { o with nonce, present := true }
  setCode {a : Address} (o : Overlay) (code : Bytes) :
    P a o → P a { o with code, codeSet := true, present := true }

/-- All overlays have a property, also those that the journal can bring back. -/
structure Everywhere (source : S) (P : Address → Overlay → Prop) (l : JournaledLedger S) :
    Prop where
  source : l.source = source
  present {a : Address} {o : Overlay} : l.accounts[a]? = some o → P a o
  past {a : Address} {o : Overlay} : .account a (some o) ∈ l.journal → P a o

namespace Everywhere

variable {source : S} {P : Address → Overlay → Prop} {l l' : JournaledLedger S}

omit [WorldSource S] in
/-- A ledger on which nothing is written has no overlays. -/
theorem ofSource (source : S) (P : Address → Overlay → Prop) :
    Everywhere source P (.ofSource source) where
  source := rfl
  present h := by
    rw [JournaledLedger.ofSource, Std.ExtTreeMap.getElem?_empty] at h
    cases h
  past h := by
    rw [JournaledLedger.ofSource] at h
    cases Array.not_mem_empty _ h

/-- What holds of the overlays holds of an account as it is loaded. -/
theorem load (hP : Keeps source P) (h : Everywhere source P l) (a : Address) : P a (l.load a) := by
  have huntouched := hP.untouched a
  unfold JournaledLedger.load at huntouched ⊢
  rw [JournaledLedger.ofSource, Std.ExtTreeMap.getElem?_empty] at huntouched
  rw [h.source]
  cases hentry : l.accounts[a]? with
  | some o => exact h.present hentry
  | none => exact huntouched

omit [WorldSource S] in
/-- Writes that leave the overlays of accounts alone. -/
theorem push (h : Everywhere source P l) (hsource : l'.source = l.source)
    (haccounts : l'.accounts = l.accounts) {e : JournalEntry}
    (hjournal : l'.journal = l.journal.push e) (he : ∀ a o, e ≠ .account a (some o)) :
    Everywhere source P l' where
  source := hsource.trans h.source
  present hentry := h.present (haccounts ▸ hentry)
  past hentry := by
    rw [hjournal, Array.mem_push] at hentry
    exact hentry.elim h.past fun hnew => absurd hnew.symm (he _ _)

omit [WorldSource S] in
/-- An overlay is put that has the property. -/
theorem putAccount (h : Everywhere source P l) {a : Address} {o : Overlay} (ho : P a o) :
    Everywhere source P (l.putAccount a o) where
  source := h.source
  present {b o'} hentry := by
    rw [getElem?_putAccount] at hentry
    split at hentry
    · rename_i hab
      exact hab ▸ Option.some.inj hentry ▸ ho
    · exact h.present hentry
  past {b o'} hentry := by
    -- what was there before the write was there now
    rw [JournaledLedger.putAccount, Array.mem_push] at hentry
    refine hentry.elim h.past fun hnew => ?_
    obtain ⟨rfl, hbefore⟩ := JournalEntry.account.inj hnew
    exact h.present hbefore.symm

/-- So it is when a loaded account is changed. -/
theorem modifyAccount (h : Everywhere source P l) {a : Address} (f : Overlay → Overlay)
    (hf : P a { f (l.load a) with present := true }) : Everywhere source P (l.modifyAccount a f) :=
  h.putAccount hf

omit [WorldSource S] in
/-- Slots are no overlays. -/
theorem dropSlots (h : Everywhere source P l) (a : Address) :
    Everywhere source P (l.dropSlots a) :=
  h.push rfl rfl rfl nofun

/-- Writing a slot puts no overlay. -/
theorem setStorage (h : Everywhere source P l) (s : Slot) (value : Word) :
    Everywhere source P (l.setStorage s value) :=
  h.push rfl rfl rfl nofun

omit [WorldSource S] in
/-- Nor does an access to an account. -/
theorem accessAccount (h : Everywhere source P l) (a : Address) :
    Everywhere source P (l.accessAccount a).2 := by
  unfold JournaledLedger.accessAccount
  split
  · exact h.push rfl rfl rfl nofun
  · exact h

omit [WorldSource S] in
/-- Nor does an access to a slot. -/
theorem accessSlot (h : Everywhere source P l) (s : Slot) :
    Everywhere source P (l.accessSlot s).2 := by
  unfold JournaledLedger.accessSlot
  split
  · exact h.push rfl rfl rfl nofun
  · exact h

/-- Storage may be emptied where the property allows it. -/
theorem op (hP : Keeps source P) (h : Everywhere source P l) (o : LedgerOp)
    (hclear : ∀ a, o = .clearStorage a →
      P a { l.load a with storageCleared := true, present := true })
    (hdestroy : ∀ a, o = .destroyAccount a → P a destroyed) : Everywhere source P (o.apply l) := by
  refine LedgerOp.apply_induction (fun {l} a balance hl => ?_) (fun {l} a nonce hl => ?_) h
    (fun a code => ?_) h.setStorage h.accessAccount h.accessSlot o (fun a ha => ?_) fun a ha => ?_
  · exact hl.modifyAccount _ (hP.setBalance (l.load a) balance (hl.load hP a))
  · exact hl.modifyAccount _ (hP.setNonce (l.load a) nonce (hl.load hP a))
  · exact h.modifyAccount _ (hP.setCode (l.load a) code (h.load hP a))
  · exact (h.dropSlots a).modifyAccount ({ · with storageCleared := true }) (hclear a ha)
  · exact (h.dropSlots a).putAccount (hdestroy a ha)

/-! ### Snapshots -/

omit [WorldSource S] in
/-- A part of the journal has no other entries. -/
theorem mem_of_mem_extract {es : Array JournalEntry} {e : JournalEntry} {start stop : Nat}
    (h : e ∈ es.extract start stop) : e ∈ es := by
  obtain ⟨i, hi, rfl⟩ := Array.mem_extract_iff_getElem.1 h
  exact Array.getElem_mem _

omit [WorldSource S] in
/-- The way back brings only such overlays back. -/
theorem undo (h : Everywhere source P l) {e : JournalEntry}
    (he : ∀ a o, e = .account a (some o) → P a o) : Everywhere source P (undo e l) := by
  cases e with
  | account a previous =>
    -- the overlay that comes back is one the account has had before
    refine ⟨h.source, fun {b o} hentry => ?_, h.past⟩
    cases previous with
    | some before =>
      have hnow : (l.accounts.insert a before)[b]? = some o := hentry
      rw [Std.ExtTreeMap.getElem?_insert] at hnow
      split at hnow
      · rename_i hab
        rw [Std.LawfulEqCmp.compare_eq_iff_eq] at hab
        exact he b o (by rw [hab, Option.some.inj hnow])
      · exact h.present hnow
    | none =>
      have hnow : (l.accounts.erase a)[b]? = some o := hentry
      rw [Std.ExtTreeMap.getElem?_erase] at hnow
      split at hnow
      · cases hnow
      · exact h.present hnow
  | slot s previous => exact ⟨h.source, h.present, h.past⟩
  | cleared slots => exact ⟨h.source, h.present, h.past⟩
  | accountWarmed a => exact ⟨h.source, h.present, h.past⟩
  | slotWarmed s => exact ⟨h.source, h.present, h.past⟩

omit [WorldSource S] in
/-- Going back brings back overlays that the journal holds. -/
theorem foldr_undo (h : Everywhere source P l) {es : List JournalEntry}
    (hes : ∀ a o, .account a (some o) ∈ es → P a o) :
    Everywhere source P (es.foldr JournaledLedger.undo l) := by
  induction es with
  | nil => exact h
  | cons e es ih =>
    have hrest := ih fun a o hmem => hes a o (List.mem_cons_of_mem e hmem)
    exact hrest.undo fun a o hfirst => hes a o (hfirst ▸ List.mem_cons_self)

/-- Whichever snapshot is meant, only entries of the journal are gone back over. -/
theorem rollback (h : Everywhere source P l) {token : Nat}
    (hrollback : Ledger.rollback l token = .ok l') : Everywhere source P l' := by
  rw [ledger_rollback, JournaledLedger.rollback] at hrollback
  cases hbelow : openBelow l.openSnapshots token with
  | error e =>
    rw [hbelow] at hrollback
    cases hrollback
  | ok below =>
    rw [hbelow] at hrollback
    cases hrollback
    -- by induction on the entries: each of them holds what the account has had before
    have hback : Everywhere source P
        ((l.journal.extract token).toList.foldr JournaledLedger.undo l) := by
      refine h.foldr_undo fun a o hmem => h.past ?_
      rw [Array.mem_toList_iff] at hmem
      exact mem_of_mem_extract hmem
    rw [Array.foldr_toList] at hback
    exact ⟨hback.source, hback.present, fun hentry => h.past (mem_of_mem_extract hentry)⟩

/-- Closing a snapshot changes no overlay. -/
theorem commit (h : Everywhere source P l) {token : Nat}
    (hcommit : Ledger.commit l token = .ok l') : Everywhere source P l' := by
  rw [ledger_commit, JournaledLedger.commit] at hcommit
  cases hbelow : openBelow l.openSnapshots token with
  | error e =>
    rw [hbelow] at hcommit
    cases hcommit
  | ok below =>
    rw [hbelow] at hcommit
    cases hcommit
    exact ⟨h.source, h.present, h.past⟩

/-- A call empties storage where the property allows it. -/
theorem call (hP : Keeps source P) (h : Everywhere source P l) (c : LedgerCall)
    (hclear : ∀ a, c = .op (.clearStorage a) →
      P a { l.load a with storageCleared := true, present := true })
    (hdestroy : ∀ a, c = .op (.destroyAccount a) → P a destroyed) :
    Everywhere source P (c.apply l) := by
  cases c with
  | op o =>
    exact h.op hP o (fun a ha => hclear a (ha ▸ rfl)) fun a ha => hdestroy a (ha ▸ rfl)
  | snapshot => exact ⟨h.source, h.present, h.past⟩
  | commit token => exact Ledger.orUnchanged_induction h fun l' hl' => h.commit hl'
  | rollback token => exact Ledger.orUnchanged_induction h fun l' hl' => h.rollback hl'

/-- So does a session. -/
theorem history (hP : Keeps source P) (h : Everywhere source P l)
    (hclear : ∀ (a : Address) (o : Overlay), P a o →
      P a { o with storageCleared := true, present := true })
    (hdestroy : ∀ a, P a destroyed) (k : Ledger.History l l') : Everywhere source P l' := by
  have calls {l : JournaledLedger S} (hl : Everywhere source P l) (c : LedgerCall) :
      Everywhere source P (c.apply l) :=
    hl.call hP c (fun a _ => hclear a _ (hl.load hP a)) fun a _ => hdestroy a
  obtain ⟨t, ht⟩ := k
  -- by induction on the session: an inner one runs from the snapshot, and the rest from where it
  -- was settled
  induction t generalizing l l' with
  | done => exact Except.ok.inj ht ▸ h
  | op o rest ih => exact ih (calls h (.op o)) ht
  | kept inner rest ihInner ihRest =>
    -- a session that ran has run each of its parts
    cases hinner : inner.run (Ledger.snapshot l).2 with
    | error e =>
      simp only [Session.run, hinner] at ht
      cases ht
    | ok l₁ =>
      cases hcommit : Ledger.commit l₁ (Ledger.snapshot l).1 with
      | error e =>
        simp only [Session.run, hinner] at ht
        cases (congrArg (· >>= rest.run) hcommit).symm.trans ht
      | ok l₂ =>
        simp only [Session.run, hinner] at ht
        have hrest : rest.run l₂ = .ok l' := (congrArg (· >>= rest.run) hcommit).symm.trans ht
        exact ihRest ((ihInner (calls h .snapshot) hinner).commit hcommit) hrest
  | undone inner rest ihInner ihRest =>
    cases hinner : inner.run (Ledger.snapshot l).2 with
    | error e =>
      simp only [Session.run, hinner] at ht
      cases ht
    | ok l₁ =>
      cases hrollback : Ledger.rollback l₁ (Ledger.snapshot l).1 with
      | error e =>
        simp only [Session.run, hinner] at ht
        cases (congrArg (· >>= rest.run) hrollback).symm.trans ht
      | ok l₂ =>
        simp only [Session.run, hinner] at ht
        have hrest : rest.run l₂ = .ok l' := (congrArg (· >>= rest.run) hrollback).symm.trans ht
        exact ihRest ((ihInner (calls h .snapshot) hinner).rollback hrollback) hrest

end Everywhere

/-! ### Marks that any calls leave -/

/-- Marks are such as writes leave them, whatever is written. -/
theorem keeps_marked {source : S}
    (hrecorded : ∀ a, WorldSource.code source a ≠ #[] → WorldSource.account source a ≠ none) :
    Keeps source (Overlay.Marked source) where
  untouched a := by
    rw [load, ofSource, Std.ExtTreeMap.getElem?_empty]
    refine ⟨fun hgone => ?_, fun _ => .inl rfl⟩
    have hnone : WorldSource.account source a = none :=
      Option.isNone_iff_eq_none.1 (by simpa using hgone)
    -- an account without a record has no code either
    have hcode : WorldSource.code source a = #[] := by
      by_contra hsome
      exact hrecorded a hsome hnone
    exact ⟨.inr hnone, congrArg (·.elim 0 Account.balance) hnone,
      congrArg (·.elim 0 Account.nonce) hnone, hcode⟩
  setBalance _ _ h := ⟨nofun, h.code⟩
  setNonce _ _ h := ⟨nofun, h.code⟩
  setCode _ _ _ := ⟨nofun, nofun⟩

/-- Emptying storage leaves a mark such as writes leave. -/
theorem marked_cleared {source : S} {a : Address} {o : Overlay} (h : o.Marked source a) :
    Overlay.Marked source a { o with storageCleared := true, present := true } :=
  ⟨nofun, fun hunset => (h.code hunset).imp_right fun hgone => ⟨rfl, hgone.2⟩⟩

/-- So does a destruction. -/
theorem marked_destroyed (source : S) (a : Address) : destroyed.Marked source a :=
  ⟨fun _ => ⟨.inl rfl, rfl, rfl, rfl⟩, fun _ => .inr ⟨rfl, rfl⟩⟩

/-- After any calls the marks are such as writes leave them. -/
theorem everywhere_marked {source : S}
    (hrecorded : ∀ a, WorldSource.code source a ≠ #[] → WorldSource.account source a ≠ none)
    (calls : List LedgerCall) {l : JournaledLedger S}
    (h : Everywhere source (Overlay.Marked source) l) :
    Everywhere source (Overlay.Marked source) (Ledger.afterCalls l calls) := by
  have hkeeps := keeps_marked hrecorded
  induction calls generalizing l with
  | nil => exact h
  | cons c rest ih =>
    exact ih (h.call hkeeps c (fun a _ => marked_cleared (h.load hkeeps a))
      fun a _ => marked_destroyed source a)

/-! ### Storage that is emptied in the open -/

/-- The changes can tell that the storage of an account was emptied: there is a record that can be
    destroyed, or nothing to empty. -/
def Anchored (source : S) (a : Address) : Prop :=
  WorldSource.account source a ≠ none ∨ ∀ key, WorldSource.storage source ⟨a, key⟩ = 0

/-- The marks of an overlay tell all that has happened to the account. -/
structure Told (source : S) (a : Address) (o : Overlay) : Prop where
  /-- Code that is lost with the storage was set anew, or was destroyed as well. -/
  code : o.storageCleared = true → o.codeSet = true ∨ o.code = #[]
  storage : o.storageCleared = true → Anchored source a

/-- Writes tell what they do, unless they empty storage. -/
theorem keeps_told (source : S) : Keeps source (Told source) where
  untouched a := by
    rw [load, ofSource, Std.ExtTreeMap.getElem?_empty]
    exact ⟨fun hcleared => absurd hcleared Bool.false_ne_true,
      fun hcleared => absurd hcleared Bool.false_ne_true⟩
  setBalance _ _ h := ⟨h.code, h.storage⟩
  setNonce _ _ h := ⟨h.code, h.storage⟩
  setCode _ _ h := ⟨fun _ => .inl rfl, h.storage⟩

/-- If all that has happened is told, what is reported is what the ledger answers. -/
theorem reported_eq_state_of_told {source : S} {l : JournaledLedger S}
    (h : Everywhere source (Told source) l) : l.reported = Ledger.state l := by
  refine reported_eq_state_iff.2 ⟨fun a hloses => ?_, fun s hhides _ => ?_⟩
  · obtain ⟨o, ho, hmarks⟩ := (Option.any_eq_true ..).1 hloses
    rw [Bool.and_eq_true_iff, Bool.not_eq_true'] at hmarks
    rw [load, ho]
    exact ((h.present ho).code hmarks.1).resolve_left (by simp [hmarks.2])
  · obtain ⟨hcleared, hnone⟩ := Bool.and_eq_true_iff.1 hhides
    obtain ⟨o, ho, hmark⟩ := (Option.any_eq_true ..).1 hcleared
    rw [h.source] at hnone ⊢
    exact ((h.present ho).storage hmark).resolve_left
      (fun hsome => hsome (Option.isNone_iff_eq_none.1 hnone)) s.key

end JournaledLedger

/-- A call that empties storage only where the changes can tell it, and only together with code that
    is not that of the world below. -/
def LedgerCall.IsOpen {S : Type} [WorldSource S] (l : JournaledLedger S) : LedgerCall → Prop
  | op (.clearStorage a) =>
    ((l.load a).codeSet = true ∨ (l.load a).code = #[]) ∧ JournaledLedger.Anchored l.source a
  | op (.destroyAccount a) => JournaledLedger.Anchored l.source a
  | _ => True

/-- Each of the calls is such where it is made. -/
def JournaledLedger.AllOpen {S : Type} [WorldSource S] (l : JournaledLedger S) :
    List LedgerCall → Prop
  | [] => True
  | c :: rest => c.IsOpen l ∧ AllOpen (c.apply l) rest

namespace JournaledLedger

variable {S : Type} [WorldSource S]

/-- After any calls the marks tell all, if storage is emptied only where it can be told. -/
theorem everywhere_told {source : S} (calls : List LedgerCall) {l : JournaledLedger S}
    (h : Everywhere source (Told source) l) (hopen : l.AllOpen calls) :
    Everywhere source (Told source) (Ledger.afterCalls l calls) := by
  have hkeeps := keeps_told source
  induction calls generalizing l with
  | nil => exact h
  | cons c rest ih =>
    refine ih (h.call hkeeps c (fun a hc => ?_) fun a hc => ?_) hopen.2
    · subst hc
      obtain ⟨hcode, hanchored⟩ := hopen.1
      exact ⟨fun _ => hcode, fun _ => h.source ▸ hanchored⟩
    · subst hc
      exact ⟨fun _ => .inr rfl, fun _ => h.source ▸ hopen.1⟩

end JournaledLedger

/-- What the changes of a ledger over a world tell after some calls. -/
structure NetEffect (w : World) (calls : List LedgerCall) (l : JournaledLedger World) : Prop where
  /-- Balances, nonces and existence are always told; code and storage as far as they are
      reported. -/
  reported : (w.apply l.changes).state = l.reported
  /-- What the ledger answers is told in full exactly if nothing is lost in the report. -/
  full_iff : (w.apply l.changes).state = Ledger.state l ↔
    (∀ a, l.losesCode a = true → Ledger.code l a = #[]) ∧
      ∀ s, l.hidesClearing s.owner = true → Ledger.storage l s = 0 → w.storage s = 0
  /-- That is so if storage is only emptied where it can be told. -/
  full : JournaledLedger.AllOpen (.ofSource w) calls → (w.apply l.changes).state = Ledger.state l

/-- **Changes are the net effect of any calls.**  After any calls of a ledger over a world, whatever
    is emptied, destroyed, kept or undone, the world answers after the changes as the ledger does,
    up to code and slots of accounts whose storage was emptied in a way that no change can tell. -/
theorem net_effect {w : World} (hw : w.Reachable) (calls : List LedgerCall) :
    NetEffect w calls (Ledger.afterCalls (.ofSource w) calls) := by
  have hrecorded : ∀ a, WorldSource.code w a ≠ #[] → WorldSource.account w a ≠ none := hw.recorded
  have hmarked := JournaledLedger.everywhere_marked hrecorded calls (.ofSource w _)
  have htold (hopen : JournaledLedger.AllOpen (.ofSource w) calls) :=
    JournaledLedger.everywhere_told calls (.ofSource w _) hopen
  -- the ledger stands for whatever the calls have left, of which only the marks are used
  generalize Ledger.afterCalls (JournaledLedger.ofSource w) calls = l at hmarked htold ⊢
  obtain ⟨hsource, hmarks, -⟩ := hmarked
  have hreported : (w.apply l.changes).state = l.reported := by
    rw [← hsource] at hrecorded hmarks ⊢
    exact JournaledLedger.state_apply_changes_eq_reported (fun a o => hmarks) hrecorded
  refine ⟨hreported, ?_, fun hopen => ?_⟩
  · rw [hreported, JournaledLedger.reported_eq_state_iff, hsource]
    exact Iff.rfl
  · exact hreported.trans (JournaledLedger.reported_eq_state_of_told (htold hopen))

/-- A contract writes a slot, is destroyed under a snapshot, and comes back by a rollback. -/
theorem net_effect_past_rollback :
    let w : World := World.setStorage (.setCode {} 7 #[0]) ⟨7, 0⟩ 1
    let calls : List LedgerCall :=
      [.op (.setStorage ⟨7, 0⟩ 2), .snapshot, .op (.destroyAccount 7), .rollback 1]
    let l := Ledger.afterCalls (JournaledLedger.ofSource w) calls
    w.Reachable ∧ l.changes = [.storageWrite 7 0 2] ∧
      (w.apply l.changes).state = Ledger.state l := by
  intro w calls l
  have hw : w.Reachable := .setStorage ⟨7, 0⟩ 1 (.setCode 7 #[0] .empty)
  have hopen : JournaledLedger.AllOpen (.ofSource w) calls :=
    ⟨trivial, trivial, .inl (by decide +kernel), trivial, trivial⟩
  exact ⟨hw, by decide +kernel, (net_effect hw calls).full hopen⟩

/-- Storage that is emptied where the world below holds code takes the code with it; storage that is
    emptied where the world below holds no record comes back. -/
theorem net_effect_not_full :
    (let w : World := .setCode {} 7 #[0]
      let l := Ledger.afterCalls (JournaledLedger.ofSource w) [.op (.clearStorage 7)]
      w.Reachable ∧ Ledger.code l 7 = #[0] ∧ (w.apply l.changes).state.code 7 = #[]) ∧
    let w : World := .setStorage {} ⟨7, 0⟩ 1
    let l := Ledger.afterCalls (JournaledLedger.ofSource w) [.op (.destroyAccount 7)]
    w.Reachable ∧ Ledger.storage l ⟨7, 0⟩ = 0 ∧ (w.apply l.changes).state.storage ⟨7, 0⟩ = 1 := by
  refine ⟨⟨.setCode 7 #[0] .empty, ?_⟩, .setStorage ⟨7, 0⟩ 1 .empty, ?_⟩
  · decide +kernel
  · decide +kernel

end Evm
