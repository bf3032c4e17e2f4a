import Evm.Proofs.Machine.Existence

namespace Evm

/-!
# The digest of code

The copying ledger computes the digest of an account's code.  The journaled ledger computes it once
it has an overlay for the account, and before that it takes the record below at its word.  A record
may leave the digest of no code out, which makes it zero.  Then the answer changes with the first
write to the account, and with a rollback of that write.

* `Account.Describes` — a record tells the digest of the code, or leaves that of no code out.
* `World.Built` — worlds in which records were only put in place where they describe the code.
* `World.Built.described` — then every record describes the code.
* `JournaledLedger.IsUnhashed` — the ledger answers zero for the digest of no code.
* `code_hashes` — both ledgers answer with the digest of the code, but for such accounts.
-/

/-- The record tells the digest of the code, or the digest of no code was left out of it. -/
def Account.Describes (record : Account) (code : Bytes) : Prop :=
  record.codeHash = Evm.codeHash code ∨ record.codeHash = 0 ∧ code = #[]

/-- A record describes the code if it says truly whether there is any, and if it tells the digest
    of code that is there. -/
theorem Account.describes_of_hasNoCode {record : Account} {code : Bytes}
    (hempty : record.hasNoCode = code.isEmpty)
    (hhash : code ≠ #[] → record.codeHash = Evm.codeHash code) : record.Describes code := by
  by_cases hcode : code = #[]
  · have hnone : record.hasNoCode = true := by
      rw [hempty, hcode]
      rfl
    unfold Account.hasNoCode at hnone
    -- no code is the empty digest, or an account that was never given any
    rw [Bool.or_eq_true, decide_eq_true_iff, decide_eq_true_iff] at hnone
    rcases hnone with hdigest | hzero
    · refine .inl (hdigest.trans ?_)
      rw [hcode]
      rfl
    · exact .inr ⟨hzero, hcode⟩
  · exact .inl (hhash hcode)

namespace World

/-- Worlds that setters have built from an empty one, where a record is only put in place if it
    describes the code that is there. -/
inductive Built : World → Prop where
  | empty : Built {}
  | setAccount {w : World} (a : Address) {record : Account} : record.Describes (w.code a) →
      Built w → Built (w.setAccount a record)
  | setBalance {w : World} (a : Address) (balance : Word) : Built w → Built (w.setBalance a balance)
  | setNonce {w : World} (a : Address) (nonce : Nat) : Built w → Built (w.setNonce a nonce)
  | setCode {w : World} (a : Address) (code : Bytes) : Built w → Built (w.setCode a code)
  | setStorage {w : World} (s : Slot) (value : Word) : Built w → Built (w.setStorage s value)
  | clearStorage {w : World} (a : Address) : Built w → Built (w.clearStorage a)
  | removeAccount {w : World} (a : Address) : Built w → Built (w.removeAccount a)

/-- A world that is built is one that can be reached. -/
theorem Built.reachable {w : World} (h : w.Built) : w.Reachable := by
  induction h with
  | empty => exact .empty
  | setAccount a _ _ ih => exact .setAccount a _ ih
  | setBalance a balance _ ih => exact .setBalance a balance ih
  | setNonce a nonce _ ih => exact .setNonce a nonce ih
  | setCode a code _ ih => exact .setCode a code ih
  | setStorage s value _ ih => exact .setStorage s value ih
  | clearStorage a _ ih => exact .clearStorage a ih
  | removeAccount a _ ih => exact .removeAccount a ih

/-- Every record describes the code. -/
def Described (w : World) : Prop :=
  ∀ (a : Address) (record : Account), w.accounts[a]? = some record → record.Describes (w.code a)

namespace Described

variable {w : World}

/-- A record is set that describes the code. -/
theorem setAccount (h : w.Described) {a : Address} {record : Account}
    (hrecord : record.Describes (w.code a)) : (w.setAccount a record).Described := by
  intro b other hother
  change other.Describes (w.code b)
  unfold World.setAccount at hother
  simp only [Std.ExtTreeMap.getElem?_insert, Std.LawfulEqCmp.compare_eq_iff_eq] at hother
  split at hother
  · rename_i hab
    cases hother
    exact hab ▸ hrecord
  · exact h b other hother

/-- A record that is there describes the code, and a plain one does where there is no record. -/
theorem getD (h : w.Described) (hrecorded : w.Recorded) (a : Address) :
    (w.accounts.getD a .plain).Describes (w.code a) := by
  rw [Std.ExtTreeMap.getD_eq_getD_getElem?]
  cases hrecord : w.accounts[a]? with
  | some record => exact h a record hrecord
  | none =>
    -- there is no code without a record, and a plain record says so
    have hnone : w.code a = #[] := by
      by_contra hsome
      exact hrecorded a hsome hrecord
    rw [hnone]
    exact .inl rfl

/-- A change of a record that leaves its digest alone. -/
theorem modifyAccount (h : w.Described) (hrecorded : w.Recorded) (a : Address)
    {f : Account → Account} (hf : ∀ record, (f record).codeHash = record.codeHash) :
    (w.modifyAccount a f).Described := by
  refine h.setAccount ?_
  unfold Account.Describes
  rw [hf]
  exact h.getD hrecorded a

/-- Setting code also sets the digest in the record. -/
theorem setCode (h : w.Described) (a : Address) (code : Bytes) : (w.setCode a code).Described := by
  intro b record hrecord
  have same : (w.setCode a code).accounts[b]? =
      (w.modifyAccount a ({ · with codeHash := codeHash code })).accounts[b]? := rfl
  rw [same, getElem?_modifyAccount] at hrecord
  rw [code_setCode]
  split at hrecord
  · rename_i hba
    cases hrecord
    exact .inl (by rw [if_pos hba])
  · rename_i hba
    rw [if_neg hba]
    exact h b record hrecord

/-- An account that is removed goes with its record, and the others stay. -/
theorem removeAccount (h : w.Described) (a : Address) : (w.removeAccount a).Described := by
  intro b record hrecord
  unfold World.removeAccount at hrecord
  unfold World.removeAccount World.code
  simp only [Std.ExtTreeMap.getElem?_erase, Std.ExtTreeMap.getD_erase,
    Std.LawfulEqCmp.compare_eq_iff_eq] at hrecord ⊢
  split at hrecord
  · cases hrecord
  · rename_i hother
    rw [if_neg hother]
    exact h b record hrecord

end Described

/-- The records of a world that is built describe its code. -/
theorem Built.described {w : World} (h : w.Built) : w.Described := by
  induction h with
  | empty => exact fun a record hrecord => absurd hrecord (by simp)
  | setAccount a hrecord _ ih => exact ih.setAccount hrecord
  | setBalance a _ hw ih => exact ih.modifyAccount hw.reachable.recorded a fun _ => rfl
  | setNonce a _ hw ih => exact ih.modifyAccount hw.reachable.recorded a fun _ => rfl
  | setCode a code _ ih => exact ih.setCode a code
  | setStorage _ _ _ ih => exact ih
  | clearStorage _ _ ih => exact ih
  | removeAccount a _ ih => exact ih.removeAccount a

end World

/-! ### The journaled ledger -/

namespace JournaledLedger

variable {w : World} {l : JournaledLedger World} {a : Address}

/-- The account has no code and no overlay, and the digest was left out of its record. -/
def IsUnhashed (l : JournaledLedger World) (a : Address) : Prop :=
  l.accounts[a]? = none ∧ l.source.code a = #[] ∧
    ∃ record, l.source.accounts[a]? = some record ∧ record.codeHash = 0

/-- There the ledger answers zero. -/
theorem codeHash_of_isUnhashed (h : l.IsUnhashed a) : l.codeHash a = 0 := by
  obtain ⟨hnone, -, record, hrecord, hzero⟩ := h
  have hbelow : WorldSource.account l.source a = some record := hrecord
  rw [codeHash, hnone, hbelow]
  exact hzero

/-- There is no code there. -/
theorem load_code_of_isUnhashed (h : l.IsUnhashed a) : (l.load a).code = #[] := by
  obtain ⟨hnone, hcode, -⟩ := h
  rw [load, hnone]
  exact hcode

/-- Otherwise the overlay or the record tells the digest. -/
theorem codeHash_of_not_isUnhashed (hrecorded : l.source.Recorded) (hsource : l.source.Described)
    (h : ¬ l.IsUnhashed a) : l.codeHash a = Evm.codeHash (l.load a).code := by
  -- an overlay holds the digest of its own code; otherwise the record is asked
  cases hoverlay : l.accounts[a]? with
  | some o => simp only [codeHash, load, hoverlay]
  | none =>
    simp only [codeHash, load, hoverlay]
    change (l.source.accounts[a]?).elim emptyCodeHash Account.codeHash =
      Evm.codeHash (l.source.code a)
    cases hrecord : l.source.accounts[a]? with
    | some record =>
      rcases hsource a record hrecord with hdigest | ⟨hzero, hcode⟩
      · exact hdigest
      · exact absurd ⟨hoverlay, hcode, record, hrecord, hzero⟩ h
    | none =>
      have hnone : l.source.code a = #[] := by
        by_contra hsome
        exact hrecorded a hsome hrecord
      rw [hnone]
      rfl

/-- A write to an account that leaves its code alone makes its digest right, and leaves the digests
    of the others. -/
theorem codeHash_modifyAccount (l : JournaledLedger World) (a b : Address) {f : Overlay → Overlay}
    (hf : ∀ o, (f o).code = o.code) : (l.modifyAccount b f).codeHash a =
      if b = a then Evm.codeHash (l.load a).code else l.codeHash a := by
  have hentry := getElem?_putAccount l b a { f (l.load b) with present := true }
  unfold codeHash modifyAccount
  rw [hentry]
  by_cases hba : b = a
  · rw [if_pos hba, if_pos hba, ← hba]
    exact congrArg Evm.codeHash (hf _)
  · rw [if_neg hba, if_neg hba]
    rfl

end JournaledLedger

/-- How a ledger answers for the digests of code, with the accounts for which it answers zero. -/
structure CodeHashes {L : Type} [Ledger L] (unhashed : L → Address → Prop) (l : L) : Prop where
  /-- Every other account has the digest of its code. -/
  digest {a : Address} : ¬ unhashed l a → Ledger.codeHash l a = Evm.codeHash (Ledger.code l a)
  /-- Such an account has no code, and its digest is not zero. -/
  unanswered {a : Address} : unhashed l a →
    Ledger.code l a = #[] ∧ Ledger.codeHash l a = 0 ∧ Evm.codeHash (Ledger.code l a) ≠ 0
  /-- Writes that leave code alone also leave the digests, but for that of such an account. -/
  setBalance (a b : Address) (balance : Word) :
    Ledger.codeHash (Ledger.setBalance l b balance) a = Ledger.codeHash l a ↔
      ¬ (b = a ∧ unhashed l a)
  setNonce (a b : Address) (nonce : Nat) :
    Ledger.codeHash (Ledger.setNonce l b nonce) a = Ledger.codeHash l a ↔ ¬ (b = a ∧ unhashed l a)
  setStorage (a : Address) (s : Slot) (value : Word) :
    Ledger.codeHash (Ledger.setStorage l s value) a = Ledger.codeHash l a

namespace JournaledLedger

variable {w : World} {l : JournaledLedger World} {a : Address}

/-- No hash of code is zero there. -/
theorem digest_ne_zero (h : l.IsUnhashed a) : Evm.codeHash (l.load a).code ≠ 0 := by
  rw [load_code_of_isUnhashed h]
  decide

/-- A write to an account leaves its digest exactly if that is right. -/
theorem codeHash_modifyAccount_eq_iff (hrecorded : l.source.Recorded)
    (hsource : l.source.Described) (b : Address) {f : Overlay → Overlay}
    (hf : ∀ o, (f o).code = o.code) :
    (l.modifyAccount b f).codeHash a = l.codeHash a ↔ ¬ (b = a ∧ l.IsUnhashed a) := by
  rw [codeHash_modifyAccount l a b hf]
  by_cases hba : b = a
  · rw [if_pos hba]
    by_cases hzero : l.IsUnhashed a
    · -- the write makes an overlay, which answers with the digest of no code
      rw [codeHash_of_isUnhashed hzero]
      exact iff_of_false (digest_ne_zero hzero) fun hspared => hspared ⟨hba, hzero⟩
    · rw [codeHash_of_not_isUnhashed hrecorded hsource hzero]
      exact iff_of_true rfl fun hboth => hzero hboth.2
  · rw [if_neg hba]
    exact iff_of_true rfl fun hboth => hba hboth.1

/-- So the exceptions are just the unhashed accounts. -/
theorem codeHashes (hrecorded : l.source.Recorded) (hsource : l.source.Described) :
    CodeHashes IsUnhashed l where
  digest := codeHash_of_not_isUnhashed hrecorded hsource
  unanswered h := ⟨load_code_of_isUnhashed h, codeHash_of_isUnhashed h, digest_ne_zero h⟩
  setBalance _ b _ := codeHash_modifyAccount_eq_iff hrecorded hsource b fun _ => rfl
  setNonce _ b _ := codeHash_modifyAccount_eq_iff hrecorded hsource b fun _ => rfl
  setStorage _ _ _ := rfl

end JournaledLedger

/-- The copying ledger has no exceptions. -/
theorem SnapshotLedger.codeHashes (l : SnapshotLedger) : CodeHashes (fun _ _ => False) l where
  digest _ := rfl
  unanswered := False.elim
  setBalance _ _ _ := iff_of_true rfl fun h => h.2
  setNonce _ _ _ := iff_of_true rfl fun h => h.2
  setStorage _ _ _ := rfl

/-- **Digests describe code.**  Whatever a client has made of a ledger on a world whose records
    describe the code, the ledger answers with the digest of the code that it has, and writes that
    leave the code alone leave the answer.  The one exception is an account without code that the
    journaled ledger has no overlay for and whose record leaves the digest out. -/
theorem code_hashes {w : World} (hw : w.Built) :
    (∀ l : JournaledLedger World, l.Used w → CodeHashes JournaledLedger.IsUnhashed l) ∧
      ∀ l : SnapshotLedger, CodeHashes (fun _ _ => False) l := by
  refine ⟨fun l hused => ?_, SnapshotLedger.codeHashes⟩
  have hsource : l.source = w := hused.everywhere.source
  exact JournaledLedger.codeHashes (hsource ▸ hw.reachable.recorded) (hsource ▸ hw.described)

/-- Two accounts have a record without a digest.  One gets code and the other a balance that is
    undone: the first then has the digest of its code, and the second has none again. -/
theorem code_hashes_after_calls :
    let w : World := World.setAccount (.setAccount {} 7 { balance := 1 }) 8 { balance := 1 }
    let l := Ledger.afterCalls (JournaledLedger.ofSource w)
      [.op (.setCode 7 #[0]), .snapshot, .op (.setBalance 8 2), .rollback 1]
    w.Built ∧ l.Used w ∧ Ledger.codeHash l 7 = Evm.codeHash #[0] ∧ Ledger.codeHash l 8 = 0 ∧
      Ledger.codeHash (Ledger.setBalance l 8 2) 8 ≠ 0 := by
  intro w l
  have built : w.Built := by
    refine .setAccount 8 (.inr ⟨rfl, ?_⟩) (.setAccount 7 (.inr ⟨rfl, ?_⟩) .empty)
    · decide +kernel
    · decide +kernel
  have used : l.Used w := JournaledLedger.Used.fresh.afterCalls _
  have hashes := (code_hashes built).1 l used
  -- the overlay has the code's digest, and the record without one is still untouched
  have written : ¬ l.IsUnhashed 7 := fun h => absurd h.1 (by decide +kernel)
  have unhashed : l.IsUnhashed 8 :=
    ⟨by decide +kernel, by decide +kernel, { balance := 1 }, by decide +kernel, rfl⟩
  have code : Ledger.code l 7 = #[0] := by decide +kernel
  refine ⟨built, used, ?_, (hashes.unanswered unhashed).2.1, fun hzero => ?_⟩
  · rw [hashes.digest written, code]
  · refine (hashes.setBalance 8 8 2).1 ?_ ⟨rfl, unhashed⟩
    rw [hzero, (hashes.unanswered unhashed).2.1]

/-- An account with a balance and no code, whose record says so by the digest zero.  It has no
    digest until its balance is written, and then that of no code. -/
theorem code_hashes_not_untouched :
    let record : Account := { balance := 1 }
    let w : World := World.setAccount {} 7 record
    let l := JournaledLedger.ofSource w
    w.Built ∧ record.hasNoCode = (w.code 7).isEmpty ∧ l.Used w ∧ Ledger.isDead l 7 = false ∧
      Ledger.code l 7 = #[] ∧ Ledger.codeHash l 7 = 0 ∧
      Ledger.codeHash (Ledger.setBalance l 7 2) 7 = emptyCodeHash := by
  intro record w l
  have built : w.Built := .setAccount 7 (.inr ⟨rfl, by decide +kernel⟩) .empty
  exact ⟨built, by decide +kernel, .fresh, by decide +kernel, by decide +kernel, by decide +kernel,
    by decide +kernel⟩

end Evm
