import Evm.State.Account

namespace Evm

/-!
# World state

Accounts, code and storage in three maps.  Slots that hold zero and code that is empty are not
stored.

* `WorldSource` — read access to a world, whatever holds it.
* `World` — a world in memory, with its setters.
* `World.storage_setStorage`, `World.code_setCode` and their kin — what a reader sees after a
  setter.
* `StateChange`, `World.apply` — a step in a list of changes, and what it does to a world.
-/

/-- Read access to a world. -/
class WorldSource (S : Type) where
  /-- The record of an account that is there. -/
  account : S → Address → Option Account
  /-- The code of an account; empty if it has none or is not there. -/
  code : S → Address → Bytes
  /-- The value of a slot; zero if it was never written. -/
  storage : S → Slot → Word
  /-- Some slot of the account holds another value than zero. -/
  hasStorage : S → Address → Bool

/-- A world in memory. -/
structure World where
  accounts : Std.ExtTreeMap Address Account := ∅
  /-- Code that is not empty. -/
  codes : Std.ExtTreeMap Address Bytes := ∅
  /-- Slots that are not zero. -/
  slots : Std.ExtTreeMap Slot Word := ∅

namespace World

/-! ### Reading -/

/-- The code of an account. -/
def code (w : World) (a : Address) : Bytes := w.codes.getD a #[]

/-- The value of a slot. -/
def storage (w : World) (s : Slot) : Word := w.slots.getD s 0

/-- Some slot of the account is stored. -/
def hasStorage (w : World) (a : Address) : Bool := w.slots.any fun s _ => s.owner == a

/-- The account is there. -/
def contains (w : World) (a : Address) : Bool := w.accounts.contains a

instance : WorldSource World where
  account w a := w.accounts[a]?
  code := code
  storage := storage
  hasStorage := hasStorage

/-! ### Writing -/

/-- Puts a record in place. -/
def setAccount (w : World) (a : Address) (record : Account) : World :=
  { w with accounts := w.accounts.insert a record }

/-- Changes a record; an account that is not there starts as a plain one. -/
def modifyAccount (w : World) (a : Address) (f : Account → Account) : World :=
  w.setAccount a (f (w.accounts.getD a (.plain)))

/-- Sets a balance. -/
def setBalance (w : World) (a : Address) (balance : Word) : World :=
  w.modifyAccount a ({ · with balance })

/-- Sets a nonce. -/
def setNonce (w : World) (a : Address) (nonce : Nat) : World :=
  w.modifyAccount a ({ · with nonce })

/-- Sets the code of an account and the code hash in its record. -/
def setCode (w : World) (a : Address) (code : Bytes) : World :=
  let w := w.modifyAccount a ({ · with codeHash := codeHash code })
  { w with codes := if code.isEmpty then w.codes.erase a else w.codes.insert a code }

/-- Writes a slot.  No account comes into being by it. -/
def setStorage (w : World) (s : Slot) (value : Word) : World :=
  { w with slots := if value = 0 then w.slots.erase s else w.slots.insert s value }

/-- Empties every slot of an account. -/
def clearStorage (w : World) (a : Address) : World :=
  { w with slots := w.slots.filter fun s _ => s.owner != a }

/-- Removes an account with its code and its storage. -/
def removeAccount (w : World) (a : Address) : World :=
  { (w.clearStorage a) with accounts := w.accounts.erase a, codes := w.codes.erase a }

/-! ### What the setters do -/

/-- The written slot has the value, and every other slot its own. -/
theorem storage_setStorage (w : World) (s t : Slot) (value : Word) :
    (w.setStorage s value).storage t = if t = s then value else w.storage t := by
  unfold setStorage storage
  by_cases h : value = 0
  · simp only [h, if_true, Std.ExtTreeMap.getD_erase, Std.LawfulEqCmp.compare_eq_iff_eq]
    grind
  · simp only [h, if_false, Std.ExtTreeMap.getD_insert, Std.LawfulEqCmp.compare_eq_iff_eq]
    grind

/-- The slots of the account are zero, and every other slot has its own value. -/
theorem storage_clearStorage (w : World) (a : Address) (s : Slot) :
    (w.clearStorage a).storage s = if s.owner = a then 0 else w.storage s := by
  rw [clearStorage, storage, storage, Std.ExtTreeMap.getD_filter',
    Std.ExtTreeMap.getD_eq_getD_getElem?]
  by_cases h : s.owner = a
  · simp [h]
  · have differs : (s.owner != a) = true := bne_iff_ne.2 h
    rw [if_neg h]
    cases w.slots[s]? <;> simp [Option.filter, differs]

/-- The account has the code, and every other account its own. -/
theorem code_setCode (w : World) (a b : Address) (code : Bytes) :
    (w.setCode a code).code b = if b = a then code else w.code b := by
  unfold setCode World.code modifyAccount setAccount
  by_cases h : code = #[]
  · simp only [h, Array.isEmpty_empty, if_true, Std.ExtTreeMap.getD_erase]
    grind
  · simp only [Array.isEmpty_iff, h, if_false, Std.ExtTreeMap.getD_insert]
    grind

/-- The account is there, modified, and every other account is as it was. -/
theorem getElem?_modifyAccount (w : World) (a b : Address) (f : Account → Account) :
    (w.modifyAccount a f).accounts[b]? =
      if b = a then some (f (w.accounts.getD a .plain)) else w.accounts[b]? := by
  unfold modifyAccount setAccount
  grind

end World

/-! ### Changes -/

/-- A step in a list of changes. -/
inductive StateChange where
  | balanceSet (address : Address) (balance : Word)
  | nonceSet (address : Address) (nonce : Nat)
  | codeSet (address : Address) (code : Bytes)
  | storageWrite (address : Address) (key value : Word)
  | storageDelete (address : Address) (key : Word)
  | accountDestroyed (address : Address)
  deriving DecidableEq

/-- Takes one step. -/
def World.applyChange (w : World) : StateChange → World
  | .balanceSet a balance => w.setBalance a balance
  | .nonceSet a nonce => w.setNonce a nonce
  | .codeSet a code => w.setCode a code
  | .storageWrite a key value => w.setStorage ⟨a, key⟩ value
  | .storageDelete a key => w.setStorage ⟨a, key⟩ 0
  | .accountDestroyed a => w.removeAccount a

/-- Takes all steps in order. -/
def World.apply (w : World) (changes : List StateChange) : World :=
  changes.foldl applyChange w

end Evm
