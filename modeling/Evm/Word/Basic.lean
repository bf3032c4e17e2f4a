import Evm.Bytes

namespace Evm

/-!
# Words and addresses

* `Word` — a 256-bit word: stack items, amounts, hashes, storage keys and values.
* `Address` — the 160-bit name of an account.
* `Word.toBytes`, `Word.ofBytes` and their `Address` twins — big-endian byte strings.
* `Word.checkedAdd` — a sum that is exact or missing.
* `Word.toAddress`, `Address.toWord` — the low 20 bytes of a word, and zero extension.
* `Word.ofBytes?_toBytes`, `Address.ofBytes?_toBytes`, `Address.toAddress_toWord` — each form leads
  back to the value.
-/

/-- A 256-bit word. -/
abbrev Word := BitVec 256

/-- The 160-bit name of an account. -/
abbrev Address := BitVec 160

namespace Word

/-- One for true and zero for false. -/
def ofBool (b : Bool) : Word := if b then 1 else 0

/-- The 32 bytes of the word, most significant first. -/
def toBytes (w : Word) : Bytes := Bytes.ofNat 32 w.toNat

/-- The big-endian reading of a byte string, modulo `2 ^ 256`. -/
def ofBytes (b : Bytes) : Word := BitVec.ofNat 256 b.toNat

/-- The word with these 32 bytes; no other length is a word. -/
def ofBytes? (b : Bytes) : Option Word := if b.size = 32 then some (ofBytes b) else none

/-- The least significant byte. -/
def lowByte (w : Word) : UInt8 := UInt8.ofNat w.toNat

/-- The account named by the low 20 bytes. -/
def toAddress (w : Word) : Address := w.setWidth 160

/-- The sum, if it is a word. -/
def checkedAdd (a b : Word) : Option Word := if a.uaddOverflow b then none else some (a + b)

/-- A checked sum is exact. -/
theorem checkedAdd_eq_some_iff {a b c : Word} :
    a.checkedAdd b = some c ↔ c.toNat = a.toNat + b.toNat := by
  have := c.isLt
  unfold checkedAdd BitVec.uaddOverflow
  constructor
  · intro h
    split at h
    · cases h
    · rename_i hsum
      obtain rfl := Option.some.inj h
      rw [BitVec.toNat_add]
      simp only [decide_eq_true_eq] at hsum
      omega
  · intro h
    rw [if_neg (by simp only [decide_eq_true_eq]; omega)]
    refine congrArg some (BitVec.eq_of_toNat_eq ?_)
    rw [BitVec.toNat_add]
    omega

@[simp] theorem size_toBytes (w : Word) : w.toBytes.size = 32 := Bytes.size_ofNat _ _

/-- The bytes of a word stand for its value. -/
theorem toNat_toBytes (w : Word) : Bytes.toNat w.toBytes = w.toNat := by
  rw [toBytes, Bytes.toNat_ofNat, Nat.one_shiftLeft]
  exact Nat.mod_eq_of_lt w.isLt

/-- A word is read back from its bytes. -/
@[simp] theorem ofBytes_toBytes (w : Word) : ofBytes w.toBytes = w := by
  apply BitVec.eq_of_toNat_eq
  rw [ofBytes, BitVec.toNat_ofNat, toNat_toBytes]
  exact Nat.mod_eq_of_lt w.isLt

/-- Thirty-two bytes are written back as they were read. -/
theorem toBytes_ofBytes {b : Bytes} (h : b.size = 32) : (ofBytes b).toBytes = b := by
  have same := Bytes.ofNat_toNat b
  have low := Bytes.toNat_ofNat b.size b.toNat
  rw [same, h, Nat.one_shiftLeft] at low
  rw [toBytes, ofBytes, BitVec.toNat_ofNat, ← low, ← h]
  exact same

/-- The checked reading accepts the bytes of a word. -/
theorem ofBytes?_toBytes (w : Word) : ofBytes? w.toBytes = some w := by
  rw [ofBytes?, if_pos (size_toBytes w), ofBytes_toBytes]

end Word

namespace Address

/-- The 20 bytes of the address, most significant first. -/
def toBytes (a : Address) : Bytes := Bytes.ofNat 20 a.toNat

/-- The address with these 20 bytes; no other length is an address. -/
def ofBytes? (b : Bytes) : Option Address :=
  if b.size = 20 then some (BitVec.ofNat 160 b.toNat) else none

/-- The address whose last eight bytes hold a 64-bit number. -/
def ofCounter (n : Nat) : Address := (BitVec.ofNat 64 n).setWidth 160

/-- Zero extension. -/
def toWord (a : Address) : Word := a.setWidth 256

@[simp] theorem size_toBytes (a : Address) : a.toBytes.size = 20 := Bytes.size_ofNat _ _

/-- The checked reading accepts the bytes of an address. -/
theorem ofBytes?_toBytes (a : Address) : ofBytes? a.toBytes = some a := by
  rw [ofBytes?, if_pos (size_toBytes a)]
  refine congrArg some (BitVec.eq_of_toNat_eq ?_)
  have := a.isLt
  rw [BitVec.toNat_ofNat, toBytes, Bytes.toNat_ofNat, Nat.one_shiftLeft]
  omega

/-- An address survives its widening to a word. -/
theorem toAddress_toWord (a : Address) : a.toWord.toAddress = a := by
  simp [toWord, Word.toAddress]

end Address

end Evm
