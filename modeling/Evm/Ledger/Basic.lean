import Evm.Counter
import Evm.Error
import Evm.Ledger.AccessList
import Evm.State.World

namespace Evm

/-!
# Ledgers

A ledger is a world that can be changed, that remembers how slots were when the transaction
started and what has been accessed, and that takes nested snapshots.

* `LedgerStep` — a step that a ledger may refuse.
* `Ledger` — the operations of a ledger.  What is changed after a snapshot is undone by rolling
  it back, the access list included.  Operations that can be put together from others are so
  unless a ledger has its own.
* `Ledger.commit`, `Ledger.transfer` and their kin — what comes of a step that is not refused.
-/

/-- A step that a ledger may refuse.  It also tells what the ledger is after a refusal. -/
abbrev LedgerStep (L α : Type) := EStateM StateError L α

/-- The operations of a ledger. -/
class Ledger (L : Type) where
  /-- The balance of an account; zero if it is not there. -/
  balance : L → Address → Word
  /-- Sets a balance; the account is there afterwards. -/
  setBalance : L → Address → Word → L
  /-- The nonce of an account; zero if it is not there. -/
  nonce : L → Address → Nat
  /-- Sets a nonce; the account is there afterwards. -/
  setNonce : L → Address → Nat → L
  /-- The code of an account. -/
  code : L → Address → Bytes
  /-- Sets the code; the account is there afterwards. -/
  setCode : L → Address → Bytes → L
  /-- The value of a slot. -/
  storage : L → Slot → Word
  /-- Writes a slot. -/
  setStorage : L → Slot → Word → L
  /-- The value of a slot at the start of the transaction. -/
  committedStorage : L → Slot → Word
  /-- Some slot of the account holds another value than zero. -/
  hasStorage : L → Address → Bool
  /-- Empties every slot of an account. -/
  clearStorage : L → Address → L
  /-- The account is there. -/
  accountExists : L → Address → Bool
  /-- Removes an account with its code and its storage. -/
  destroyAccount : L → Address → L
  /-- Records an access to an account. -/
  accessAccount : L → Address → Access × L
  /-- Records an access to a slot. -/
  accessSlot : L → Slot → Access × L
  /-- Opens a snapshot and names it. -/
  snapshot : L → Nat × L
  /-- Keeps what was changed since the snapshot; it now belongs to the one around it. -/
  tryCommit : Nat → LedgerStep L Unit
  /-- Undoes what was changed since the snapshot. -/
  tryRollback : Nat → LedgerStep L Unit
  /-- Adds to a balance, unless the sum is no word. -/
  tryAddBalance : Address → Word → LedgerStep L Unit := fun a amount l =>
    match (balance l a).checkedAdd amount with
    | some sum => .ok () (setBalance l a sum)
    | none => .error (.balanceOverflow a) l
  /-- Takes from a balance, unless there is too little. -/
  trySubBalance : Address → Word → LedgerStep L Unit := fun a amount l =>
    let available := balance l a
    if amount ≤ available then .ok () (setBalance l a (available - amount))
    else .error (.insufficientBalance a amount available) l
  /-- Raises a nonce by one, unless it is the largest, and tells what it was. -/
  tryIncNonce : Address → LedgerStep L Nat := fun a l =>
    let n := nonce l a
    if n < Counter.limit then .ok n (setNonce l a (n + 1)) else .error (.nonceOverflow a) l
  /-- Moves value.  The sender must hold it, also when it sends to itself, and the balance of the
      recipient must stay a word. -/
  tryTransfer : Address → Address → Word → LedgerStep L Unit := fun sender recipient value l =>
    if value = 0 then .ok () l
    else
      let available := balance l sender
      if available < value then .error (.insufficientBalance sender value available) l
      else if sender = recipient then .ok () l
      else
        match (balance l recipient).checkedAdd value with
        | some credited =>
          .ok () (setBalance (setBalance l sender (available - value)) recipient credited)
        | none => .error (.balanceOverflow recipient) l
  /-- The digest of the code. -/
  codeHash : L → Address → Word := fun l a => Evm.codeHash (code l a)
  /-- No nonce, no balance and no code. -/
  isEmpty : L → Address → Bool := fun l a =>
    nonce l a = 0 && balance l a = 0 && (code l a).isEmpty
  /-- Not there, or empty. -/
  isDead : L → Address → Bool := fun l a => !accountExists l a || isEmpty l a
  /-- A contract cannot be created here: the account has a nonce, code or storage. -/
  isOccupied : L → Address → Bool := fun l a =>
    nonce l a ≠ 0 || !(code l a).isEmpty || hasStorage l a

namespace LedgerStep

variable {L α : Type}

/-- A change that a ledger may refuse.  A refusal leaves the ledger as it was. -/
def ofChange (f : L → Except StateError L) : LedgerStep L Unit := fun l =>
  match f l with
  | .ok l' => .ok () l'
  | .error e => .error e l

/-- What comes of a step, if it is not refused. -/
def outcome (step : LedgerStep L α) (l : L) : Except StateError (α × L) :=
  match step l with
  | .ok a l' => .ok (a, l')
  | .error e _ => .error e

/-- The ledger after a step, if it is not refused. -/
def after (step : LedgerStep L Unit) (l : L) : Except StateError L :=
  match step l with
  | .ok _ l' => .ok l'
  | .error e _ => .error e

end LedgerStep

namespace Ledger

variable {L : Type} [Ledger L]

/-! ### Steps that are not refused -/

/-- Keeps what was changed since the snapshot. -/
def commit (l : L) (token : Nat) : Except StateError L := (tryCommit token).after l

/-- Undoes what was changed since the snapshot. -/
def rollback (l : L) (token : Nat) : Except StateError L := (tryRollback token).after l

/-- Adds to a balance. -/
def addBalance (l : L) (a : Address) (amount : Word) : Except StateError L :=
  (tryAddBalance a amount).after l

/-- Takes from a balance. -/
def subBalance (l : L) (a : Address) (amount : Word) : Except StateError L :=
  (trySubBalance a amount).after l

/-- Raises a nonce by one and tells what it was. -/
def incNonce (l : L) (a : Address) : Except StateError (Nat × L) := (tryIncNonce a).outcome l

/-- Moves value. -/
def transfer (l : L) (sender recipient : Address) (value : Word) : Except StateError L :=
  (tryTransfer sender recipient value).after l

end Ledger

end Evm
