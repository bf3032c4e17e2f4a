import Evm.State.World

namespace Evm

/-!
# Worlds that setters build

The maps of a world are only changed by its setters.  So no stored slot holds zero, no stored code
is empty, and whatever has code has a record.

* `any_eq_true_iff` — what it means that some entry of a map has a property.
* `World.Reachable` — a world that setters have built from an empty one.
* `World.Reachable.nonzero`, `World.Reachable.noEmptyCode`, `World.Reachable.recorded` — what holds
  of every such world.
* `World.hasStorage_iff` — there is storage exactly if some slot is not zero.
* `StateChange.target` — the account that a change is about.
-/

/-- The account that a change is about. -/
def StateChange.target : StateChange → Address
  | balanceSet a _ | nonceSet a _ | codeSet a _ | storageWrite a _ _ | storageDelete a _
  | accountDestroyed a => a

/-! ### Entries of a map -/

open Std.DTreeMap.Internal in
/-- A map has an entry with a property exactly if its list of entries has one. -/
theorem any_eq_any_toList {α β : Type} [Ord α] [Std.TransOrd α] (m : Std.ExtTreeMap α β)
    (p : α → β → Bool) : m.any p = m.toList.any fun e => p e.1 e.2 := by
  obtain ⟨m⟩ := m
  induction m using Std.ExtDTreeMap.inductionOn with
  | mk m =>
    -- the search of the tree is a loop over its list that stops at the first hit
    change m.any p = (Impl.Const.toList m.inner).any _
    simp only [Std.DTreeMap.any, Impl.any, ForIn.forIn, Impl.Const.forIn_eq_forIn_toList]
    induction Impl.Const.toList m.inner with
    | nil => rfl
    | cons e rest ih =>
      rw [List.any_cons]
      cases hp : p e.1 e.2
      · simpa [hp] using ih
      · simp [hp]

/-- A map has an entry of a kind if some key leads to one. -/
theorem any_eq_true_iff {α β : Type} [Ord α] [Std.TransOrd α] [Std.LawfulEqOrd α]
    (m : Std.ExtTreeMap α β) (p : α → β → Bool) :
    m.any p = true ↔ ∃ k v, m[k]? = some v ∧ p k v = true := by
  rw [any_eq_any_toList, List.any_eq_true]
  constructor
  · rintro ⟨⟨k, v⟩, hmem, hp⟩
    exact ⟨k, v, Std.ExtTreeMap.mem_toList_iff_getElem?_eq_some.1 hmem, hp⟩
  · rintro ⟨k, v, hk, hp⟩
    exact ⟨⟨k, v⟩, Std.ExtTreeMap.mem_toList_iff_getElem?_eq_some.2 hk, hp⟩

namespace World

/-! ### Stored slots -/

/-- No stored slot holds zero. -/
def Nonzero (w : World) : Prop := ∀ s : Slot, w.slots[s]? ≠ some 0

/-- A zero is not kept. -/
theorem Nonzero.setStorage {w : World} (h : w.Nonzero) (s : Slot) (value : Word) :
    (w.setStorage s value).Nonzero := by
  intro t
  unfold World.setStorage
  -- a zero is not written down but erased
  by_cases hzero : value = 0
  · rw [if_pos hzero]
    simp only [Std.ExtTreeMap.getElem?_erase]
    split
    · nofun
    · exact h t
  · rw [if_neg hzero]
    simp only [Std.ExtTreeMap.getElem?_insert]
    split
    · exact fun hvalue => hzero (Option.some.inj hvalue)
    · exact h t

/-- Emptying storage keeps no zero. -/
theorem Nonzero.clearStorage {w : World} (h : w.Nonzero) (a : Address) :
    (w.clearStorage a).Nonzero := by
  intro t ht
  rw [World.clearStorage] at ht
  simp only [Std.ExtTreeMap.getElem?_filter', Option.filter_eq_some_iff] at ht
  exact h t ht.1

/-- There is storage exactly if some slot does not hold zero. -/
theorem hasStorage_iff {w : World} (h : w.Nonzero) (a : Address) :
    w.hasStorage a = true ↔ ∃ key, w.storage ⟨a, key⟩ ≠ 0 := by
  unfold hasStorage storage
  simp only [any_eq_true_iff, beq_iff_eq, Std.ExtTreeMap.getD_eq_getD_getElem?]
  constructor
  -- a slot that is written down is not zero, and one that is not zero is written down
  · rintro ⟨⟨owner, key⟩, value, hslot, rfl⟩
    refine ⟨key, ?_⟩
    rw [hslot]
    exact fun hzero => h _ (hslot.trans (congrArg some hzero))
  · rintro ⟨key, hkey⟩
    cases hslot : w.slots[(⟨a, key⟩ : Slot)]? with
    | none =>
      rw [hslot] at hkey
      exact absurd rfl hkey
    | some value => exact ⟨⟨a, key⟩, value, hslot, rfl⟩

/-- Without storage every slot holds zero. -/
theorem storage_of_hasStorage_eq_false {w : World} {a : Address} (h : w.hasStorage a = false)
    (key : Word) : w.storage ⟨a, key⟩ = 0 := by
  rw [storage, Std.ExtTreeMap.getD_eq_getD_getElem?]
  cases hslot : w.slots[(⟨a, key⟩ : Slot)]? with
  | none => rfl
  | some value =>
    have hany : w.hasStorage a = true :=
      (any_eq_true_iff ..).2 ⟨⟨a, key⟩, value, hslot, beq_self_eq_true a⟩
    rw [h] at hany
    cases hany

/-! ### Reachable worlds -/

/-- Worlds that setters have built from an empty one. -/
inductive Reachable : World → Prop where
  | empty : Reachable {}
  | setAccount {w : World} (a : Address) (record : Account) :
      Reachable w → Reachable (w.setAccount a record)
  | setBalance {w : World} (a : Address) (balance : Word) :
      Reachable w → Reachable (w.setBalance a balance)
  | setNonce {w : World} (a : Address) (nonce : Nat) : Reachable w → Reachable (w.setNonce a nonce)
  | setCode {w : World} (a : Address) (code : Bytes) : Reachable w → Reachable (w.setCode a code)
  | setStorage {w : World} (s : Slot) (value : Word) :
      Reachable w → Reachable (w.setStorage s value)
  | clearStorage {w : World} (a : Address) : Reachable w → Reachable (w.clearStorage a)
  | removeAccount {w : World} (a : Address) : Reachable w → Reachable (w.removeAccount a)

/-- So no world that can be reached keeps zeros. -/
theorem Reachable.nonzero {w : World} (h : Reachable w) : w.Nonzero := by
  induction h with
  | empty => exact fun _ => by simp
  | setAccount _ _ _ ih => exact ih
  | setBalance _ _ _ ih => exact ih
  | setNonce _ _ _ ih => exact ih
  | setCode _ _ _ ih => exact ih
  | setStorage s value _ ih => exact ih.setStorage s value
  | clearStorage a _ ih => exact ih.clearStorage a
  | removeAccount a _ ih => exact ih.clearStorage a

/-- No stored code is empty. -/
def NoEmptyCode (w : World) : Prop := ∀ a : Address, w.codes[a]? ≠ some #[]

/-- Empty code is not kept. -/
theorem NoEmptyCode.setCode {w : World} (h : w.NoEmptyCode) (a : Address) (code : Bytes) :
    (w.setCode a code).NoEmptyCode := by
  intro b
  show (if code.isEmpty then w.codes.erase a else w.codes.insert a code)[b]? ≠ some #[]
  by_cases hempty : code.isEmpty = true
  · rw [if_pos hempty, Std.ExtTreeMap.getElem?_erase]
    split
    · nofun
    · exact h b
  · rw [if_neg hempty, Std.ExtTreeMap.getElem?_insert]
    split
    · exact fun hcode => hempty (Array.isEmpty_iff.2 (Option.some.inj hcode))
    · exact h b

/-- Removing an account keeps no empty code. -/
theorem NoEmptyCode.removeAccount {w : World} (h : w.NoEmptyCode) (a : Address) :
    (w.removeAccount a).NoEmptyCode := by
  intro b
  show (w.codes.erase a)[b]? ≠ some #[]
  rw [Std.ExtTreeMap.getElem?_erase]
  split
  · nofun
  · exact h b

/-- So no world that can be reached keeps empty code. -/
theorem Reachable.noEmptyCode {w : World} (h : Reachable w) : w.NoEmptyCode := by
  induction h with
  | empty => exact fun _ => by simp
  | setAccount _ _ _ ih => exact ih
  | setBalance _ _ _ ih => exact ih
  | setNonce _ _ _ ih => exact ih
  | setCode a code _ ih => exact ih.setCode a code
  | setStorage _ _ _ ih => exact ih
  | clearStorage _ _ ih => exact ih
  | removeAccount a _ ih => exact ih.removeAccount a

/-- Whatever has code has a record. -/
def Recorded (w : World) : Prop := ∀ a, w.code a ≠ #[] → w.accounts[a]? ≠ none

/-- An account that is set has a record. -/
theorem Recorded.setAccount {w : World} (h : w.Recorded) (a : Address) (record : Account) :
    (w.setAccount a record).Recorded := by
  intro b hb
  unfold World.setAccount
  simp only [Std.ExtTreeMap.getElem?_insert]
  split
  · nofun
  · exact h b hb

/-- An account with code has a record. -/
theorem Recorded.setCode {w : World} (h : w.Recorded) (a : Address) (code : Bytes) :
    (w.setCode a code).Recorded := by
  intro b hb
  have hsame : (w.setCode a code).accounts[b]? =
      (w.modifyAccount a ({ · with codeHash := codeHash code })).accounts[b]? := rfl
  rw [hsame, getElem?_modifyAccount]
  rw [code_setCode] at hb
  split
  · nofun
  · rename_i hother
    rw [if_neg hother] at hb
    exact h b hb

/-- An account loses its code with its record. -/
theorem Recorded.removeAccount {w : World} (h : w.Recorded) (a : Address) :
    (w.removeAccount a).Recorded := by
  intro b hb
  unfold World.removeAccount World.code at hb
  unfold World.removeAccount
  simp only [Std.ExtTreeMap.getD_erase, Std.ExtTreeMap.getElem?_erase] at hb ⊢
  split
  · rename_i heq
    rw [if_pos heq] at hb
    exact absurd rfl hb
  · rename_i hother
    rw [if_neg hother] at hb
    exact h b hb

/-- So in every world that can be reached there is a record where there is code. -/
theorem Reachable.recorded {w : World} (h : Reachable w) : w.Recorded := by
  induction h with
  | empty => exact fun a ha => absurd (by simp [World.code]) ha
  | setAccount a record _ ih => exact ih.setAccount a record
  | setBalance a _ _ ih => exact ih.setAccount a _
  | setNonce a _ _ ih => exact ih.setAccount a _
  | setCode a code _ ih => exact ih.setCode a code
  | setStorage _ _ _ ih => exact ih
  | clearStorage _ _ ih => exact ih
  | removeAccount a _ ih => exact ih.removeAccount a

end World

end Evm
