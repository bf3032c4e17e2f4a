import Mathlib.Logic.Function.Basic
import Evm.Proofs.State.World

namespace Evm

/-!
# Worlds after any operations

A world keeps accounts, code and slots in three maps.  The operations that change it reach more than
one of them, and lists of changes are applied on a way of their own.  After any series of operations
the maps are in step all the same, and each address holds what the writes at this address alone make
of nothing.

* `AccountWrite`, `World.write` — what can be written at an address.
* `Holding`, `World.holding` — what a world answers about an address.
* `World.holding_write` — a write shows at its address, and nowhere else.
* `WorldOp`, `World.after` — operations one after another, lists of changes among them.
* `World.holding_after` — an address after any operations.
* `worlds_in_step` — all that is known of a world after any operations.
-/

/-! ### Writes at an address -/

/-- What can be written to a world at one address. -/
inductive AccountWrite where
  | record (record : Account)
  | balance (balance : Word)
  | nonce (nonce : Nat)
  | code (code : Bytes)
  | slot (key value : Word)
  | clearStorage
  | remove
  deriving DecidableEq

/-- Writes at an address. -/
def World.write (w : World) (a : Address) : AccountWrite → World
  | .record record => w.setAccount a record
  | .balance balance => w.setBalance a balance
  | .nonce nonce => w.setNonce a nonce
  | .code code => w.setCode a code
  | .slot key value => w.setStorage ⟨a, key⟩ value
  | .clearStorage => w.clearStorage a
  | .remove => w.removeAccount a

/-- What a world answers about an address. -/
@[ext] structure Holding where
  account : Option Account
  code : Bytes
  storage : Word → Word

namespace Holding

/-- An address at which nothing has been written. -/
def nothing : Holding where
  account := none
  code := #[]
  storage _ := 0

/-- The record that a write changes; a plain one if there is none. -/
def record (h : Holding) : Account := h.account.getD .plain

/-- What a write makes of a holding. -/
def write (h : Holding) : AccountWrite → Holding
  | .record record => { h with account := some record }
  | .balance balance => { h with account := some { h.record with balance } }
  | .nonce nonce => { h with account := some { h.record with nonce } }
  | .code code =>
    { h with
      account := some { h.record with codeHash := codeHash code }
      code }
  | .slot key value => { h with storage := Function.update h.storage key value }
  | .clearStorage => { h with storage := fun _ => 0 }
  | .remove => nothing

end Holding

namespace World

/-- What a world answers about an address. -/
def holding (w : World) (a : Address) : Holding where
  account := WorldSource.account w a
  code := WorldSource.code w a
  storage key := WorldSource.storage w ⟨a, key⟩

/-- An empty world holds nothing. -/
theorem holding_empty (a : Address) : ({} : World).holding a = .nothing := by
  refine Holding.ext ?_ ?_ (funext fun key => ?_)
  · simp [holding, WorldSource.account, Holding.nothing]
  · simp [holding, WorldSource.code, World.code, Holding.nothing]
  · simp [holding, WorldSource.storage, World.storage, Holding.nothing]

/-- A record shows at its address. -/
theorem holding_setAccount (w : World) (a b : Address) (record : Account) :
    (w.setAccount a record).holding b =
      if b = a then { w.holding a with account := some record } else w.holding b := by
  by_cases hb : b = a
  · subst hb
    rw [if_pos rfl]
    refine Holding.ext ?_ rfl rfl
    exact Std.ExtTreeMap.getElem?_insert_self
  · rw [if_neg hb]
    refine Holding.ext ?_ rfl rfl
    show (w.accounts.insert a record)[b]? = w.accounts[b]?
    rw [Std.ExtTreeMap.getElem?_insert, if_neg (by simpa using Ne.symm hb)]

/-- So does a record that is changed. -/
theorem holding_modifyAccount (w : World) (a b : Address) (f : Account → Account) :
    (w.modifyAccount a f).holding b =
      if b = a then { w.holding a with account := some (f (w.holding a).record) }
      else w.holding b := by
  have hrecord : w.accounts.getD a .plain = (w.holding a).record :=
    Std.ExtTreeMap.getD_eq_getD_getElem?
  rw [modifyAccount, holding_setAccount, hrecord]

/-- So does code. -/
theorem holding_setCode (w : World) (a b : Address) (code : Bytes) :
    (w.setCode a code).holding b =
      if b = a then (w.holding a).write (.code code) else w.holding b := by
  -- the record is written as in a change of the record alone, and the code in a map of its own
  have haccount := congrArg Holding.account
    (holding_modifyAccount w a b ({ · with codeHash := codeHash code }))
  have hcode := code_setCode w a b code
  by_cases hb : b = a
  · rw [if_pos hb] at haccount hcode ⊢
    subst hb
    exact Holding.ext haccount hcode rfl
  · rw [if_neg hb] at haccount hcode ⊢
    exact Holding.ext haccount hcode rfl

/-- So does a slot. -/
theorem holding_setStorage (w : World) (a b : Address) (key value : Word) :
    (w.setStorage ⟨a, key⟩ value).holding b =
      if b = a then (w.holding a).write (.slot key value) else w.holding b := by
  by_cases hb : b = a
  · subst hb
    rw [if_pos rfl]
    -- balance, nonce and code are the record's, which a slot does not touch
    refine Holding.ext rfl rfl (funext fun k => ?_)
    show (w.setStorage ⟨b, key⟩ value).storage ⟨b, k⟩ =
      Function.update (w.holding b).storage key value k
    rw [storage_setStorage, Function.update_apply]
    simp only [Slot.mk.injEq, true_and]
    rfl
  · rw [if_neg hb]
    refine Holding.ext rfl rfl (funext fun k => ?_)
    show (w.setStorage ⟨a, key⟩ value).storage ⟨b, k⟩ = w.storage ⟨b, k⟩
    rw [storage_setStorage, if_neg fun h => hb (congrArg Slot.owner h)]

/-- So does emptied storage. -/
theorem holding_clearStorage (w : World) (a b : Address) :
    (w.clearStorage a).holding b =
      if b = a then (w.holding a).write .clearStorage else w.holding b := by
  by_cases hb : b = a
  · subst hb
    rw [if_pos rfl]
    refine Holding.ext rfl rfl (funext fun k => ?_)
    exact (storage_clearStorage w b ⟨b, k⟩).trans (if_pos rfl)
  · rw [if_neg hb]
    refine Holding.ext rfl rfl (funext fun k => ?_)
    exact (storage_clearStorage w a ⟨b, k⟩).trans (if_neg hb)

/-- The record and the code go with the storage. -/
theorem holding_removeAccount (w : World) (a b : Address) :
    (w.removeAccount a).holding b = if b = a then .nothing else w.holding b := by
  have hstorage := congrArg Holding.storage (holding_clearStorage w a b)
  by_cases hb : b = a
  · subst hb
    rw [if_pos rfl] at hstorage ⊢
    refine Holding.ext ?_ ?_ hstorage
    · exact Std.ExtTreeMap.getElem?_erase_self
    · exact Std.ExtTreeMap.getD_erase_self
  · rw [if_neg hb] at hstorage ⊢
    refine Holding.ext ?_ ?_ hstorage
    -- the record and the code of another account are left in their maps
    · show (w.accounts.erase a)[b]? = w.accounts[b]?
      rw [Std.ExtTreeMap.getElem?_erase, if_neg (by simpa using Ne.symm hb)]
    · show (w.codes.erase a).getD b #[] = w.codes.getD b #[]
      rw [Std.ExtTreeMap.getD_erase, if_neg (by simpa using Ne.symm hb)]

/-- **A write shows at its address, and nowhere else.** -/
theorem holding_write (w : World) (a b : Address) (x : AccountWrite) :
    (w.write a x).holding b = if b = a then (w.holding a).write x else w.holding b := by
  cases x with
  | record record => exact holding_setAccount w a b record
  | balance balance => exact holding_modifyAccount w a b _
  | nonce nonce => exact holding_modifyAccount w a b _
  | code code => exact holding_setCode w a b code
  | slot key value => exact holding_setStorage w a b key value
  | clearStorage => exact holding_clearStorage w a b
  | remove => exact holding_removeAccount w a b

/-- Of a list of writes, those at an address make it what it is in the end. -/
theorem holding_foldl_write (w : World) (writes : List (Address × AccountWrite)) (a : Address) :
    (writes.foldl (fun w e => w.write e.1 e.2) w).holding a =
      ((writes.filter (·.1 = a)).map Prod.snd).foldl Holding.write (w.holding a) := by
  induction writes generalizing w with
  | nil => rfl
  | cons e rest ih =>
    rw [List.foldl_cons, ih, holding_write]
    by_cases h : e.1 = a
    · rw [if_pos h.symm, List.filter_cons_of_pos (by simpa using h), List.map_cons,
        List.foldl_cons, h]
    · rw [if_neg (Ne.symm h), List.filter_cons_of_neg (by simpa using h)]

/-- An account is there if it has a record. -/
theorem contains_eq (w : World) (a : Address) : w.contains a = (w.holding a).account.isSome :=
  Std.ExtTreeMap.contains_eq_isSome_getElem?

/-- Whether there is storage can be told from the slots. -/
theorem hasStorage_congr {w w' : World} {a : Address} (h : w.Nonzero) (h' : w'.Nonzero)
    (same : w.holding a = w'.holding a) : w.hasStorage a = w'.hasStorage a := by
  have slots (key : Word) : w.storage ⟨a, key⟩ = w'.storage ⟨a, key⟩ :=
    congrFun (congrArg Holding.storage same) key
  rw [Bool.eq_iff_iff, hasStorage_iff h, hasStorage_iff h']
  simp only [slots]

/-- A write leads to a world that can be reached. -/
theorem Reachable.write {w : World} (h : w.Reachable) (a : Address) (x : AccountWrite) :
    (w.write a x).Reachable := by
  cases x with
  | record record => exact .setAccount a record h
  | balance balance => exact .setBalance a balance h
  | nonce nonce => exact .setNonce a nonce h
  | code code => exact .setCode a code h
  | slot key value => exact .setStorage ⟨a, key⟩ value h
  | clearStorage => exact .clearStorage a h
  | remove => exact .removeAccount a h

end World

/-! ### Operations -/

/-- What a change writes at its target. -/
def StateChange.write : StateChange → AccountWrite
  | balanceSet _ balance => .balance balance
  | nonceSet _ nonce => .nonce nonce
  | codeSet _ code => .code code
  | storageWrite _ key value => .slot key value
  | storageDelete _ key => .slot key 0
  | accountDestroyed _ => .remove

/-- An operation that changes a world: a write, or a list of changes. -/
inductive WorldOp where
  | write (a : Address) (x : AccountWrite)
  | apply (changes : List StateChange)
  deriving DecidableEq

namespace WorldOp

/-- The world after an operation. -/
def run (w : World) : WorldOp → World
  | write a x => w.write a x
  | apply changes => w.apply changes

/-- The writes that an operation stands for, each with its address. -/
def writes : WorldOp → List (Address × AccountWrite)
  | write a x => [(a, x)]
  | apply changes => changes.map fun c => (c.target, c.write)

/-- The addresses that an operation is about. -/
def targets (op : WorldOp) : List Address := op.writes.map Prod.fst

/-- The writes at an address among operations. -/
def writesAt (a : Address) (history : List WorldOp) : List AccountWrite :=
  ((history.flatMap writes).filter (·.1 = a)).map Prod.snd

end WorldOp

namespace World

/-- An empty world after operations one after another. -/
def after (history : List WorldOp) : World := history.foldl WorldOp.run {}

/-- A list of changes writes what its changes do, one after another. -/
theorem run_eq_foldl_write (w : World) (op : WorldOp) :
    op.run w = op.writes.foldl (fun w e => w.write e.1 e.2) w := by
  cases op with
  | write a x => rfl
  | apply changes =>
    -- each change goes through the setter of its write
    have same : applyChange = fun w c => w.write c.target c.write := by
      funext w c
      cases c <;> rfl
    show changes.foldl applyChange w = (changes.map fun c => (c.target, c.write)).foldl _ w
    rw [List.foldl_map, same]

/-- A history is the series of its writes. -/
theorem foldl_run (w : World) (history : List WorldOp) :
    history.foldl WorldOp.run w =
      (history.flatMap WorldOp.writes).foldl (fun w e => w.write e.1 e.2) w := by
  induction history generalizing w with
  | nil => rfl
  | cons op rest ih =>
    rw [List.foldl_cons, ih, run_eq_foldl_write, List.flatMap_cons, List.foldl_append]

/-- So a history leads to a world that can be reached. -/
theorem Reachable.foldl_run {w : World} (h : w.Reachable) (history : List WorldOp) :
    (history.foldl WorldOp.run w).Reachable := by
  rw [World.foldl_run]
  induction history.flatMap WorldOp.writes generalizing w with
  | nil => exact h
  | cons e rest ih => exact ih (h.write e.1 e.2)

/-- Each address holds what the writes at it make of nothing. -/
theorem holding_after (history : List WorldOp) (a : Address) :
    (after history).holding a = (WorldOp.writesAt a history).foldl Holding.write .nothing := by
  rw [after, foldl_run, holding_foldl_write, holding_empty]
  rfl

/-- An operation shows at its targets only. -/
theorem holding_run_of_not_mem (w : World) {op : WorldOp} {a : Address} (h : a ∉ op.targets) :
    (op.run w).holding a = w.holding a := by
  -- no write of the operation is at this address
  have none : op.writes.filter (·.1 = a) = [] := by
    refine List.filter_eq_nil_iff.2 fun e he hea => h ?_
    exact List.mem_map.2 ⟨e, he, of_decide_eq_true hea⟩
  rw [run_eq_foldl_write, holding_foldl_write, none]
  rfl

/-- What is known of a world after some operations. -/
structure InStep (history : List WorldOp) (w : World) : Prop where
  /-- No stored slot holds zero. -/
  slot_ne_zero (s : Slot) : w.slots[s]? ≠ some 0
  /-- No stored code is empty. -/
  code_ne_empty (a : Address) : w.codes[a]? ≠ some #[]
  /-- There is storage exactly if some slot is not zero. -/
  hasStorage_iff (a : Address) :
    WorldSource.hasStorage w a = true ↔ ∃ key, WorldSource.storage w ⟨a, key⟩ ≠ 0
  /-- Whatever has code is there. -/
  contains_of_code (a : Address) : WorldSource.code w a ≠ #[] → w.contains a = true
  /-- An account that is removed answers as in an empty world. -/
  removed (a : Address) :
    (w.removeAccount a).holding a = ({} : World).holding a ∧
      (w.removeAccount a).hasStorage a = ({} : World).hasStorage a ∧
      (w.removeAccount a).contains a = ({} : World).contains a
  /-- An operation leaves all addresses alone that it is not about. -/
  apart (op : WorldOp) (a : Address) : a ∉ op.targets →
    (op.run w).holding a = w.holding a ∧ (op.run w).hasStorage a = w.hasStorage a
  /-- An address holds what the writes at this address alone make of nothing. -/
  holding_eq (a : Address) :
    w.holding a = (WorldOp.writesAt a history).foldl Holding.write .nothing

end World

/-- After any series of operations on an empty world, its three maps are in step. -/
theorem worlds_in_step (history : List WorldOp) :
    World.InStep history (World.after history) := by
  -- every invariant of the world is one of the worlds that are reached
  have reachable : (World.after history).Reachable := World.Reachable.empty.foldl_run history
  refine ⟨reachable.nonzero, reachable.noEmptyCode, World.hasStorage_iff reachable.nonzero,
    ?_, ?_, ?_, World.holding_after history⟩
  · intro a hcode
    rw [World.contains_eq]
    exact Option.isSome_iff_ne_none.2 (reachable.recorded a hcode)
  · intro a
    have gone : ((World.after history).removeAccount a).holding a = ({} : World).holding a := by
      rw [World.holding_removeAccount, if_pos rfl, World.holding_empty]
    refine ⟨gone, World.hasStorage_congr (reachable.removeAccount a).nonzero
      World.Reachable.empty.nonzero gone, ?_⟩
    rw [World.contains_eq, World.contains_eq, gone]
  · intro op a hother
    have same := World.holding_run_of_not_mem (World.after history) hother
    have after : (op.run (World.after history)).Reachable := reachable.foldl_run [op]
    exact ⟨same, World.hasStorage_congr after.nonzero reachable.nonzero same⟩

end Evm
