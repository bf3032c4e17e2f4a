import Std.Data.ExtTreeMap
import Evm.Hash.Keccak

namespace Evm

/-!
# Accounts and slots

* `Account` — the record of an account in the world state.
* `codeHash` — the digest of code, with the fixed digest of no code.
* `Slot` — a storage key of an account, ordered by account and then by key.
-/

/-- The Keccak-256 digest of the empty byte string. -/
def emptyCodeHash : Word := 0xc5d2460186f7233c927e7db2dcc703c0e500b653ca82273b7bfad8045d85a470

/-- The digest of code. -/
def codeHash (code : Bytes) : Word := if code.isEmpty then emptyCodeHash else keccak256 code

/-- The record of an account. -/
structure Account where
  balance : Word := 0
  nonce : Nat := 0
  codeHash : Word := 0
  /-- Carried along; nothing here computes it. -/
  storageRoot : Word := 0
  deriving DecidableEq

namespace Account

/-- An account without code. -/
def plain (balance : Word := 0) (nonce : Nat := 0) : Account where
  balance := balance
  nonce := nonce
  codeHash := emptyCodeHash

/-- The account has no code: its code hash is that of no code, or was never set. -/
def hasNoCode (a : Account) : Bool := a.codeHash = emptyCodeHash || a.codeHash = 0

/-- No balance, no nonce and no code. -/
def isEmpty (a : Account) : Bool := a.balance = 0 && a.nonce = 0 && a.hasNoCode

end Account

/-! ### Addresses as keys -/

instance : Std.TransOrd Address := BitVec.instTransOrd

instance : Std.LawfulEqOrd Address := BitVec.instLawfulEqOrd

/-! ### Slots -/

/-- A storage key of an account. -/
structure Slot where
  owner : Address
  key : Word
  deriving DecidableEq

namespace Slot

/-- By owner, and then by key. -/
def order (a b : Slot) : Ordering :=
  compareLex (compareOn owner) (compareOn key) a b

instance : Ord Slot := ⟨order⟩

instance : Std.TransOrd Slot :=
  inferInstanceAs (Std.TransCmp (compareLex (compareOn owner) (compareOn key)))

/-- The order tells slots apart. -/
theorem order_eq_iff (a b : Slot) : order a b = .eq ↔ a = b := by
  cases a
  cases b
  simp [order, compareLex, compareOn, Ordering.then_eq_eq]

instance : Std.LawfulEqOrd Slot where
  eq_of_compare := (order_eq_iff _ _).1
  compare_self := (order_eq_iff _ _).2 rfl

end Slot

end Evm
