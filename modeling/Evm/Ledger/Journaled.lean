import Evm.Ledger.Basic

namespace Evm

/-!
# The journaled ledger

A ledger that never writes to the world it starts from.  Changes go to an overlay, and each leaves
an entry in a journal that tells how to undo it.  A snapshot is a length of the journal.

* `Overlay` — the present state of an account, if it was changed.
* `JournalEntry`, `JournaledLedger.undo` — one change, and the way back.
* `JournaledLedger.restore_insert`, `JournaledLedger.rollback_snapshot` — an entry undoes its
  change, and a rollback right after its snapshot changes nothing.
* `JournaledLedger.changes` — what has to be done to the world to make it like the ledger.
-/

/-- The present state of an account. -/
structure Overlay where
  balance : Word
  nonce : Nat
  code : Bytes
  /-- The account is there. -/
  present : Bool
  /-- The code was set. -/
  codeSet : Bool := false
  /-- The slots of the world below no longer count. -/
  storageCleared : Bool := false
  deriving DecidableEq

/-- A change, as the way back from it. -/
inductive JournalEntry where
  /-- What the account overlay was; none if the account was unchanged. -/
  | account (address : Address) (previous : Option Overlay)
  /-- What the slot overlay was; none if the slot was unchanged. -/
  | slot (slot : Slot) (previous : Option Word)
  /-- The slots that were dropped from the overlay. -/
  | cleared (slots : List (Slot × Word))
  | accountWarmed (address : Address)
  | slotWarmed (slot : Slot)
  deriving DecidableEq

/-- An overlay on a world that can only be read. -/
structure JournaledLedger (S : Type) where
  source : S
  accounts : Std.ExtTreeMap Address Overlay := ∅
  slots : Std.ExtTreeMap Slot Word := ∅
  /-- For slots written in this transaction, the value at its start. -/
  startValues : Std.ExtTreeMap Slot Word := ∅
  access : AccessList := {}
  /-- Oldest change first. -/
  journal : Array JournalEntry := #[]
  /-- The lengths of the journal at the open snapshots, latest first. -/
  openSnapshots : List Nat := []

namespace JournaledLedger

variable {S : Type} [WorldSource S]

/-- An empty overlay. -/
def ofSource (source : S) : JournaledLedger S := { source }

/-- Starts a transaction: nothing is accessed or written yet, and no snapshot is open. -/
def beginTransaction (l : JournaledLedger S) : JournaledLedger S :=
  { source := l.source, accounts := l.accounts, slots := l.slots }

/-- The number of open snapshots. -/
def depth (l : JournaledLedger S) : Nat := l.openSnapshots.length

/-! ### Accounts -/

/-- The slots of the world below no longer count for this account. -/
def isCleared (l : JournaledLedger S) (a : Address) : Bool :=
  (l.accounts[a]?).any (·.storageCleared)

/-- The present state of an account, taken from the world below if it is unchanged. -/
def load (l : JournaledLedger S) (a : Address) : Overlay :=
  match l.accounts[a]? with
  | some o => o
  | none =>
    let record := WorldSource.account l.source a
    { balance := record.elim 0 Account.balance
      nonce := record.elim 0 Account.nonce
      code := WorldSource.code l.source a
      present := record.isSome }

/-- Puts an account overlay in place and notes what was there. -/
def putAccount (l : JournaledLedger S) (a : Address) (o : Overlay) : JournaledLedger S :=
  { l with
    accounts := l.accounts.insert a o
    journal := l.journal.push (.account a l.accounts[a]?) }

/-- Changes an account; it is there afterwards. -/
def modifyAccount (l : JournaledLedger S) (a : Address) (f : Overlay → Overlay) :
    JournaledLedger S :=
  l.putAccount a { f (l.load a) with present := true }

/-- The digest of the code.  The record of an unchanged account is taken at its word. -/
def codeHash (l : JournaledLedger S) (a : Address) : Word :=
  match l.accounts[a]? with
  | some o => Evm.codeHash o.code
  | none => (WorldSource.account l.source a).elim emptyCodeHash Account.codeHash

/-! ### Storage -/

/-- The value of a slot. -/
def storage (l : JournaledLedger S) (s : Slot) : Word :=
  match l.slots[s]? with
  | some value => value
  | none => if l.isCleared s.owner then 0 else WorldSource.storage l.source s

/-- Writes a slot and remembers what it held before the first write. -/
def setStorage (l : JournaledLedger S) (s : Slot) (value : Word) : JournaledLedger S :=
  { l with
    startValues := l.startValues.insertIfNew s (l.storage s)
    slots := l.slots.insert s value
    journal := l.journal.push (.slot s l.slots[s]?) }

/-- The value before the first write, or the present one. -/
def committedStorage (l : JournaledLedger S) (s : Slot) : Word :=
  l.startValues.getD s (l.storage s)

/-- Some slot is not zero in the overlay or in the world below.  A slot of the world below counts
    even if the overlay has set it to zero. -/
def hasStorage (l : JournaledLedger S) (a : Address) : Bool :=
  (l.slots.any fun s value => s.owner == a && value != 0)
    || (!l.isCleared a && WorldSource.hasStorage l.source a)

/-- Drops the slots of an account from the overlay. -/
def dropSlots (l : JournaledLedger S) (a : Address) : JournaledLedger S :=
  { l with
    slots := l.slots.filter fun s _ => s.owner != a
    journal := l.journal.push (.cleared (l.slots.toList.filter fun e => e.1.owner == a)) }

/-- Empties every slot of an account. -/
def clearStorage (l : JournaledLedger S) (a : Address) : JournaledLedger S :=
  (l.dropSlots a).modifyAccount a ({ · with storageCleared := true })

/-- Removes an account with its code and its storage. -/
def destroyAccount (l : JournaledLedger S) (a : Address) : JournaledLedger S :=
  (l.dropSlots a).putAccount a
    { balance := 0, nonce := 0, code := #[], present := false, storageCleared := true }

/-! ### Accesses -/

/-- Records an access to an account. -/
def accessAccount (l : JournaledLedger S) (a : Address) : Access × JournaledLedger S :=
  match l.access.touchAccount a with
  | (.cold, access) => (.cold, { l with access, journal := l.journal.push (.accountWarmed a) })
  | (.warm, _) => (.warm, l)

/-- Records an access to a slot. -/
def accessSlot (l : JournaledLedger S) (s : Slot) : Access × JournaledLedger S :=
  match l.access.touchSlot s with
  | (.cold, access) => (.cold, { l with access, journal := l.journal.push (.slotWarmed s) })
  | (.warm, _) => (.warm, l)

/-! ### Snapshots -/

/-- The map with one entry as it was before. -/
def restore {α β : Type} [Ord α] [Std.TransOrd α] (m : Std.ExtTreeMap α β) (k : α) :
    Option β → Std.ExtTreeMap α β
  | some v => m.insert k v
  | none => m.erase k

/-- A map that has gained an entry is as before once the entry is put back. -/
theorem restore_insert {α β : Type} [Ord α] [Std.TransOrd α] [Std.LawfulEqOrd α]
    (m : Std.ExtTreeMap α β) (k : α) (v : β) : restore (m.insert k v) k m[k]? = m := by
  apply Std.ExtTreeMap.ext_getElem?
  intro j
  unfold restore
  split
  · rename_i previous h
    rw [Std.ExtTreeMap.getElem?_insert, Std.ExtTreeMap.getElem?_insert]
    split
    · rename_i hj
      rw [← Std.LawfulEqOrd.eq_of_compare hj, h]
    · rfl
  · rename_i h
    rw [Std.ExtTreeMap.getElem?_erase, Std.ExtTreeMap.getElem?_insert]
    split
    · rename_i hj
      rw [← Std.LawfulEqOrd.eq_of_compare hj, h]
    · rfl

/-- Goes back over one change. -/
def undo (e : JournalEntry) (l : JournaledLedger S) : JournaledLedger S :=
  match e with
  | .account a previous => { l with accounts := restore l.accounts a previous }
  | .slot s previous => { l with slots := restore l.slots s previous }
  | .cleared slots =>
    { l with slots := slots.foldl (fun m (s, value) => m.insert s value) l.slots }
  | .accountWarmed a => { l with access := l.access.forgetAccount a }
  | .slotWarmed s => { l with access := l.access.forgetSlot s }

/-- The open snapshots below the latest one of a name. -/
def openBelow (snapshots : List Nat) (token : Nat) : Except StateError (List Nat) :=
  match snapshots.dropWhile (· != token) with
  | _ :: below => .ok below
  | [] => .error (.unknownSnapshot token)

/-- Opens a snapshot, named by the length of the journal. -/
def snapshot (l : JournaledLedger S) : Nat × JournaledLedger S :=
  (l.journal.size, { l with openSnapshots := l.journal.size :: l.openSnapshots })

/-- Closes a snapshot and all later ones. -/
def commit (l : JournaledLedger S) (token : Nat) : Except StateError (JournaledLedger S) := do
  let below ← openBelow l.openSnapshots token
  return { l with openSnapshots := below }

/-- Closes a snapshot and all later ones, and goes back over the changes since, latest first. -/
def rollback (l : JournaledLedger S) (token : Nat) : Except StateError (JournaledLedger S) := do
  let below ← openBelow l.openSnapshots token
  let undone := (l.journal.extract token).foldr undo l
  return { undone with openSnapshots := below, journal := l.journal.take token }

instance : Ledger (JournaledLedger S) where
  balance l a := (l.load a).balance
  setBalance l a balance := l.modifyAccount a ({ · with balance })
  nonce l a := (l.load a).nonce
  setNonce l a nonce := l.modifyAccount a ({ · with nonce })
  code l a := (l.load a).code
  setCode l a code := l.modifyAccount a ({ · with code, codeSet := true })
  codeHash := codeHash
  storage := storage
  setStorage := setStorage
  committedStorage := committedStorage
  hasStorage := hasStorage
  clearStorage := clearStorage
  accountExists l a := (l.load a).present
  destroyAccount := destroyAccount
  accessAccount := accessAccount
  accessSlot := accessSlot
  snapshot := snapshot
  tryCommit token := .ofChange (·.commit token)
  tryRollback token := .ofChange (·.rollback token)

/-! ### Net changes -/

/-- The accounts that the overlay says something about, in order. -/
def changedAddresses (l : JournaledLedger S) : List Address :=
  (Std.ExtTreeSet.ofList (l.accounts.keys ++ l.slots.keys.map Slot.owner)).toList

/-- Changes to the record and the code of an account.  An account whose storage was cleared is
    removed first, if it is there, and then described afresh. -/
def accountChanges (l : JournaledLedger S) (a : Address) : List StateChange :=
  match l.accounts[a]? with
  | none => []
  | some o =>
    let below := WorldSource.account l.source a
    let base := if o.storageCleared then none else below
    let destroyed := if o.storageCleared && below.isSome then [.accountDestroyed a] else []
    let described :=
      if o.present then
        (if base.map Account.balance = some o.balance then [] else [.balanceSet a o.balance])
        ++ (if base.elim 0 Account.nonce = o.nonce then [] else [.nonceSet a o.nonce])
        ++ (if o.codeSet then [.codeSet a o.code] else [])
      else []
    destroyed ++ described

/-- Changes to the slots of an account, in the order of their keys. -/
def slotChanges (l : JournaledLedger S) (a : Address) : List StateChange :=
  (l.slots.toList.filter fun e => e.1.owner == a).filterMap fun (s, value) =>
    let before := if l.isCleared a then 0 else WorldSource.storage l.source s
    if before = value then none
    else if value = 0 then some (.storageDelete a s.key)
    else some (.storageWrite a s.key value)

/-- What has to be done to the world below to make it like the ledger, by address. -/
def changes (l : JournaledLedger S) : List StateChange :=
  l.changedAddresses.flatMap fun a => l.accountChanges a ++ l.slotChanges a

end JournaledLedger

/-- Rolling back at once changes nothing. -/
theorem JournaledLedger.rollback_snapshot {S : Type} (l : JournaledLedger S) :
    l.snapshot.2.rollback l.snapshot.1 = .ok l := by
  simp only [rollback, snapshot, openBelow, List.dropWhile, bne_self_eq_false]
  simp [Bind.bind, Except.bind, Pure.pure, Except.pure]

end Evm
