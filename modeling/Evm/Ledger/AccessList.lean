import Std.Data.ExtTreeSet
import Evm.State.Account

namespace Evm

/-!
# Access lists

Which accounts and slots a transaction has accessed before.  An access can be forgotten again,
so that a rollback makes things cold.

* `Access` — first access or not.
* `AccessList.touchAccount`, `AccessList.touchSlot` — report an access and record it.
* `AccessList.forgetAccount_touchAccount`, `AccessList.forgetSlot_touchSlot` — forgetting a first
  access undoes it.
-/

/-- Whether something was accessed before. -/
inductive Access where
  | cold
  | warm
  deriving DecidableEq, Repr

/-- This was the first access. -/
def Access.isCold (s : Access) : Bool := s = .cold

/-- The accounts and slots accessed so far. -/
structure AccessList where
  accounts : Std.ExtTreeSet Address := ∅
  slots : Std.ExtTreeSet Slot := ∅

namespace AccessList

/-- A list with accesses that count as done. -/
def ofLists (accounts : List Address) (slots : List Slot) : AccessList where
  accounts := .ofList accounts
  slots := .ofList slots

/-- The account was accessed before. -/
def isAccountWarm (l : AccessList) (a : Address) : Bool := l.accounts.contains a

/-- The slot was accessed before. -/
def isSlotWarm (l : AccessList) (s : Slot) : Bool := l.slots.contains s

/-- Records an access to an account. -/
def touchAccount (l : AccessList) (a : Address) : Access × AccessList :=
  if l.isAccountWarm a then (.warm, l) else (.cold, { l with accounts := l.accounts.insert a })

/-- Records an access to a slot. -/
def touchSlot (l : AccessList) (s : Slot) : Access × AccessList :=
  if l.isSlotWarm s then (.warm, l) else (.cold, { l with slots := l.slots.insert s })

/-- Forgets the accesses to an account. -/
def forgetAccount (l : AccessList) (a : Address) : AccessList :=
  { l with accounts := l.accounts.erase a }

/-- Forgets the accesses to a slot. -/
def forgetSlot (l : AccessList) (s : Slot) : AccessList := { l with slots := l.slots.erase s }

/-! ### Laws -/

/-- An access makes one account warm and leaves the others as they were. -/
theorem isAccountWarm_touchAccount (l : AccessList) (a b : Address) :
    (l.touchAccount a).2.isAccountWarm b = (b = a || l.isAccountWarm b) := by
  unfold touchAccount isAccountWarm
  grind

/-- An access makes one slot warm and leaves the others as they were. -/
theorem isSlotWarm_touchSlot (l : AccessList) (s t : Slot) :
    (l.touchSlot s).2.isSlotWarm t = (t = s || l.isSlotWarm t) := by
  unfold touchSlot isSlotWarm
  grind

/-- A first access that is forgotten has not happened. -/
theorem forgetAccount_touchAccount {l : AccessList} {a : Address} (h : l.isAccountWarm a = false) :
    (l.touchAccount a).2.forgetAccount a = l := by
  have restored : (l.accounts.insert a).erase a = l.accounts := by
    apply Std.ExtTreeSet.ext_mem
    unfold isAccountWarm at h
    grind
  simp [touchAccount, forgetAccount, h, restored]

/-- A first access that is forgotten has not happened. -/
theorem forgetSlot_touchSlot {l : AccessList} {s : Slot} (h : l.isSlotWarm s = false) :
    (l.touchSlot s).2.forgetSlot s = l := by
  have restored : (l.slots.insert s).erase s = l.slots := by
    apply Std.ExtTreeSet.ext_mem
    unfold isSlotWarm at h
    grind
  simp [touchSlot, forgetSlot, h, restored]

end AccessList

end Evm
