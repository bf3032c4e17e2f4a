import Mathlib.Logic.Function.Basic
import Evm.Ledger.Basic

namespace Evm

/-!
# What a ledger answers

The two ledgers keep their data in different ways.  What the rules of execution depend on is only
what they answer, so that is made a value of its own, with the writes as updates of it.

* `LedgerState` — balance, nonce, code, presence and storage of everything.
* `Warmth` — which accounts and slots count as accessed.
* `Ledger.state`, `Ledger.warmth` — what a ledger answers now.
-/

/-- What a ledger answers about accounts and slots. -/
@[ext] structure LedgerState where
  balance : Address → Word
  nonce : Address → Nat
  code : Address → Bytes
  present : Address → Bool
  storage : Slot → Word

namespace LedgerState

/-- Sets a balance; the account is there afterwards. -/
def setBalance (s : LedgerState) (a : Address) (balance : Word) : LedgerState :=
  { s with
    balance := Function.update s.balance a balance
    present := Function.update s.present a true }

/-- Sets a nonce; the account is there afterwards. -/
def setNonce (s : LedgerState) (a : Address) (nonce : Nat) : LedgerState :=
  { s with
    nonce := Function.update s.nonce a nonce
    present := Function.update s.present a true }

/-- Sets the code; the account is there afterwards. -/
def setCode (s : LedgerState) (a : Address) (code : Bytes) : LedgerState :=
  { s with
    code := Function.update s.code a code
    present := Function.update s.present a true }

/-- Writes a slot. -/
def setStorage (s : LedgerState) (slot : Slot) (value : Word) : LedgerState :=
  { s with storage := Function.update s.storage slot value }

/-- Empties every slot of an account. -/
def clearStorage (s : LedgerState) (a : Address) : LedgerState :=
  { s with storage := fun slot => if slot.owner = a then 0 else s.storage slot }

/-- Removes an account with its code and its storage. -/
def destroyAccount (s : LedgerState) (a : Address) : LedgerState :=
  { s.clearStorage a with
    balance := Function.update s.balance a 0
    nonce := Function.update s.nonce a 0
    code := Function.update s.code a #[]
    present := Function.update s.present a false }

/-- Makes room for a new contract: no storage, and a nonce. -/
def reset (s : LedgerState) (a : Address) (nonce : Nat) : LedgerState :=
  (s.clearStorage a).setNonce a nonce

end LedgerState

/-- Whether an access would be the first one. -/
@[ext] structure Warmth where
  account : Address → Access
  slot : Slot → Access

namespace Warmth

/-- The account has been accessed. -/
def touchAccount (w : Warmth) (a : Address) : Warmth :=
  { w with account := Function.update w.account a .warm }

/-- The slot has been accessed. -/
def touchSlot (w : Warmth) (s : Slot) : Warmth :=
  { w with slot := Function.update w.slot s .warm }

/-- An access to a warm account changes nothing. -/
theorem touchAccount_eq_self {w : Warmth} {a : Address} (h : w.account a = .warm) :
    w.touchAccount a = w := by
  rw [touchAccount, ← h, Function.update_eq_self]

end Warmth

/-! ### Access lists as answers -/

namespace AccessList

/-- What an access list would answer to an access. -/
def warmth (l : AccessList) : Warmth where
  account a := (l.touchAccount a).1
  slot s := (l.touchSlot s).1

/-- The list answers warm for the accounts in it. -/
theorem warmth_account (l : AccessList) (a : Address) :
    l.warmth.account a = if l.isAccountWarm a then .warm else .cold := by
  simp only [warmth, touchAccount]
  split <;> rfl

/-- The list answers warm for the slots in it. -/
theorem warmth_slot (l : AccessList) (s : Slot) :
    l.warmth.slot s = if l.isSlotWarm s then .warm else .cold := by
  simp only [warmth, touchSlot]
  split <;> rfl

/-- An account that is touched is answered warm. -/
theorem warmth_touchAccount (l : AccessList) (a : Address) :
    (l.touchAccount a).2.warmth = l.warmth.touchAccount a := by
  have hslots (s : Slot) : (l.touchAccount a).2.isSlotWarm s = l.isSlotWarm s := by
    unfold touchAccount
    split <;> rfl
  refine Warmth.ext (funext fun b => ?_) (funext fun s => ?_)
  · simp only [Warmth.touchAccount, Function.update_apply, warmth_account,
      isAccountWarm_touchAccount]
    by_cases h : b = a <;> simp [h]
  · simp only [Warmth.touchAccount, warmth_slot, hslots]

/-- A slot that is touched is answered warm. -/
theorem warmth_touchSlot (l : AccessList) (s : Slot) :
    (l.touchSlot s).2.warmth = l.warmth.touchSlot s := by
  have haccounts (a : Address) : (l.touchSlot s).2.isAccountWarm a = l.isAccountWarm a := by
    unfold touchSlot
    split <;> rfl
  refine Warmth.ext (funext fun a => ?_) (funext fun t => ?_)
  · simp only [Warmth.touchSlot, warmth_account, haccounts]
  · simp only [Warmth.touchSlot, Function.update_apply, warmth_slot, isSlotWarm_touchSlot]
    by_cases h : t = s <;> simp [h]

end AccessList

/-! ### Ledgers as answers -/

namespace Ledger

variable {L : Type} [Ledger L]

/-- What the ledger answers about accounts and slots. -/
def state (l : L) : LedgerState where
  balance := balance l
  nonce := nonce l
  code := code l
  present := accountExists l
  storage := storage l

/-- What the ledger would answer to an access. -/
def warmth (l : L) : Warmth where
  account a := (accessAccount l a).1
  slot s := (accessSlot l s).1

@[simp] theorem state_balance (l : L) (a : Address) : (state l).balance a = balance l a := rfl

@[simp] theorem state_nonce (l : L) (a : Address) : (state l).nonce a = nonce l a := rfl

@[simp] theorem state_code (l : L) (a : Address) : (state l).code a = code l a := rfl

@[simp] theorem state_present (l : L) (a : Address) : (state l).present a = accountExists l a := rfl

@[simp] theorem state_storage (l : L) (s : Slot) : (state l).storage s = storage l s := rfl

@[simp] theorem warmth_account (l : L) (a : Address) :
    (warmth l).account a = (accessAccount l a).1 := rfl

@[simp] theorem warmth_slot (l : L) (s : Slot) : (warmth l).slot s = (accessSlot l s).1 := rfl

end Ledger

end Evm
