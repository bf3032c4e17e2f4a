import Evm.Gas.Meter
import Evm.Word.Basic

namespace Evm

/-!
# Memory

The scratch memory of a frame: bytes, in whole words of 32, that grow only against payment.  The
bytes are packed, since a memory can be paid for that would not fit into an array of boxed values.

* `Memory.extend` — makes a range addressable and charges for the growth.
* `Memory.read`, `Memory.readWord` — total: bytes past the end are zero.
* `Memory.write`, `Memory.writeByte`, `Memory.writeWord` — only inside what is addressable.
* `Memory.cost`, `Memory.expansionCost` — the quadratic price of a size and of a growth.
* `Memory.cost_add_expansionCost` — what growth costs in all depends on the final size only.
* `Memory.resize`, `Memory.paidSize` — growth, and the size that comes of it, in 64 bits.
* `Memory.getD_resize`, `Memory.getElem?_overwrite` — growth shows no other byte, and a write only
  its own.
* `Word.clampOffset` — operands beyond `2 ^ 31 - 1` count as `2 ^ 31 - 1`.
-/

/-- The largest offset or size, `2 ^ 31 - 1`. -/
abbrev maxOffset : Nat := 0x7fffffff

/-- An operand as offset or size.  The bound lies far beyond any memory that can be paid for. -/
def Word.clampOffset (w : Word) : Nat := min w.toNat maxOffset

/-- The bytes of a frame's memory. -/
structure Memory where
  packed : ByteArray := .empty

namespace Memory

/-- The bytes, one by one. -/
def data (m : Memory) : Bytes := m.packed.data

/-- Memory is known by its bytes. -/
theorem ext_data {m m' : Memory} (h : m.data = m'.data) : m = m' :=
  congrArg mk (ByteArray.ext h)

/-- Memories are the same if they hold the same bytes. -/
instance : DecidableEq Memory := fun _ _ => decidable_of_iff _ ⟨ext_data, congrArg data⟩

/-- Length in bytes. -/
def size (m : Memory) : Nat := m.packed.size

/-- Length in words. -/
def words (m : Memory) : Nat := m.size / 32

/-- The size is the number of bytes. -/
@[simp] theorem size_data (m : Memory) : m.data.size = m.size := rfl

/-- Memory is empty at first. -/
@[simp] theorem size_empty : ({} : Memory).size = 0 := rfl

/-! ### Price -/

/-- The price of a memory of so many words. -/
def cost (words : Nat) : Nat :=
  Counter.add (Counter.mul words words / 512) (Counter.mul words 3)

/-- The price of growing from one number of words to another; shrinking is free. -/
def expansionCost (old new : Nat) : Nat := if new ≤ old then 0 else cost new - cost old

/-- More words cost more. -/
theorem cost_mono {a b : Nat} (h : a ≤ b) : cost a ≤ cost b :=
  Counter.add_mono (Nat.div_le_div_right (Counter.mul_mono h h))
    (Counter.mul_mono h (Nat.le_refl 3))

/-- Growing in two steps costs as much as growing at once. -/
theorem cost_add_expansionCost {old new : Nat} (h : old ≤ new) :
    cost old + expansionCost old new = cost new := by
  have := cost_mono h
  unfold expansionCost
  split
  · rw [Nat.le_antisymm h ‹_›]
    rfl
  · omega

/-! ### Growth -/

/-- A block of zeros. -/
def zeroBlock (n : Nat) : ByteArray := ⟨Array.replicate n 0⟩

/-- The zeros that are appended at once where many are. -/
def zeroPage : ByteArray := zeroBlock 4096

/-- Appends so many zeros, page by page as far as that goes. -/
def appendZeros (packed : ByteArray) (n : Nat) : ByteArray :=
  (n % 4096).repeat (· ++ zeroBlock 1) ((n / 4096).repeat (· ++ zeroPage) packed)

/-- Blocks of zeros, one after another. -/
theorem data_repeat_append (size k : Nat) (packed : ByteArray) :
    (k.repeat (· ++ zeroBlock size) packed).data =
      packed.data ++ Array.replicate (size * k) 0 := by
  induction k with
  | zero => simp [Nat.repeat]
  | succ k ih =>
    rw [Nat.repeat, ByteArray.data_append, ih, zeroBlock, Array.append_assoc,
      Array.replicate_append_replicate, Nat.mul_succ]

/-- Zeros come after what is there. -/
theorem data_appendZeros (packed : ByteArray) (n : Nat) :
    (appendZeros packed n).data = packed.data ++ Array.replicate n 0 := by
  rw [appendZeros, zeroPage, data_repeat_append, data_repeat_append, Array.append_assoc,
    Array.replicate_append_replicate, Nat.one_mul, Nat.div_add_mod]

/-- Cuts the memory off at a size, or appends zeros up to it. -/
def resize (m : Memory) (size : Nat) : Memory where
  packed := appendZeros (m.packed.copySlice 0 (.emptyWithCapacity size) 0 size) (size - m.size)

/-- Memory is cut off or goes on with zeros. -/
theorem data_resize (m : Memory) (size : Nat) :
    (m.resize size).data = m.data.extract 0 size ++ Array.replicate (size - m.size) 0 := by
  have kept : (m.packed.copySlice 0 (.emptyWithCapacity size) 0 size).data =
      m.data.extract 0 size := by
    show #[].extract 0 0 ++ m.packed.data.extract 0 (0 + size) ++ #[].extract _ _ = _
    simp [data]
  rw [data, resize, data_appendZeros, kept]

/-- Memory has the size that was asked for. -/
@[simp] theorem size_resize (m : Memory) (size : Nat) : (m.resize size).size = size := by
  rw [← size_data, data_resize, Array.size_append, Array.size_extract, Array.size_replicate,
    size_data]
  omega

/-- Growth is not seen by a reader that takes zeros past the end. -/
theorem getD_resize {m : Memory} {size : Nat} (h : m.size ≤ size) (i : Nat) :
    (m.resize size).data.getD i 0 = m.data.getD i 0 := by
  have whole : m.data.extract 0 size = m.data := Array.extract_eq_self_of_le h
  simp only [data_resize, whole, Array.getD_eq_getD_getElem?, Array.getElem?_append]
  split
  · rfl
  · rename_i hpast
    rw [Array.getElem?_eq_none (Nat.le_of_not_lt hpast), Array.getElem?_replicate]
    split <;> rfl

/-- The size of so many words.  It is counted in 64 bits, which the size of `2 ^ 59` words, all that
    can be addressed, just exceeds. -/
def paidSize (words : Nat) : Nat := Counter.wrap (32 * words)

/-- Makes `len` bytes from `offset` on addressable.  Nothing is charged for an empty range,
    wherever it lies; if the growth cannot be paid, nothing changes. -/
def extend (m : Memory) (offset len : Nat) (gas : Meter) : Except VmError (Memory × Meter) :=
  let last := Counter.add offset len
  if len = 0 ∨ last ≤ m.size then .ok (m, gas)
  else do
    let gas ← gas.consume (expansionCost m.words (wordCount last))
    match Counter.checked (paidSize (wordCount last)) with
    | some size => return (m.resize size, gas)
    | none => throw .outOfGas

/-! ### Reading and writing -/

/-- The `len` bytes from `offset` on, zero past the end. -/
@[irreducible]
def read (m : Memory) (offset len : Nat) : Bytes :=
  let part := (m.packed.extract offset (offset + len)).data
  part ++ Array.replicate (len - part.size) 0

/-- What is read beyond the end is zero. -/
theorem read_eq_window (m : Memory) (offset len : Nat) :
    m.read offset len = m.data.window offset len := by
  rw [read, ByteArray.data_extract]
  rfl

/-- As much is read as was asked for. -/
@[simp] theorem size_read (m : Memory) (offset len : Nat) : (m.read offset len).size = len := by
  rw [read_eq_window, Bytes.size_window]

/-- The word that starts at `offset`. -/
def readWord (m : Memory) (offset : Nat) : Word := Word.ofBytes (m.read offset 32)

/-- Replaces the bytes from `offset` on. -/
def overwrite (m : Memory) (offset : Nat) (b : Bytes) : Memory where
  packed := (ByteArray.mk b).copySlice 0 m.packed offset b.size

/-- Only the bytes at the offset change. -/
theorem data_overwrite (m : Memory) (offset : Nat) (b : Bytes) :
    (m.overwrite offset b).data =
      m.data.extract 0 offset ++ b ++ m.data.extract (offset + b.size) := by
  show m.data.extract 0 offset ++ b.extract 0 (0 + b.size) ++
    m.data.extract (offset + min b.size (b.size - 0)) = _
  rw [Nat.zero_add, Array.extract_size, Nat.sub_zero, Nat.min_self]

/-- Writing within memory leaves its size. -/
@[simp] theorem size_overwrite (m : Memory) (offset : Nat) (b : Bytes)
    (h : offset + b.size ≤ m.size) : (m.overwrite offset b).size = m.size := by
  rw [← size_data, data_overwrite]
  simp only [Array.size_append, Array.size_extract, size_data]
  omega

/-- Inside the range stand the new bytes, outside the old ones. -/
theorem getElem?_overwrite (m : Memory) (offset : Nat) (b : Bytes)
    (h : offset + b.size ≤ m.size) (i : Nat) :
    (m.overwrite offset b).data[i]? =
      if offset ≤ i ∧ i < offset + b.size then b[i - offset]? else m.data[i]? := by
  have front : (m.data.extract 0 offset).size = offset := by
    rw [Array.size_extract, size_data]
    omega
  rw [data_overwrite, Array.append_assoc, Array.getElem?_append, front]
  by_cases hbefore : i < offset
  · rw [if_pos hbefore, if_neg (by omega), Array.getElem?_extract, Nat.zero_add, if_pos]
    rw [size_data]
    omega
  · rw [if_neg hbefore, Array.getElem?_append]
    by_cases hin : i < offset + b.size
    · rw [if_pos (by omega), if_pos (by omega)]
    · rw [if_neg (by omega), if_neg (by omega), Array.getElem?_extract, size_data]
      by_cases hend : i < m.size
      · rw [if_pos (by omega)]
        congr 1
        omega
      · rw [if_neg (by omega)]
        exact (Array.getElem?_eq_none (Nat.not_lt.1 hend)).symm

/-- Writes bytes into an addressable range.  An empty write succeeds everywhere. -/
def write (m : Memory) (offset : Nat) (b : Bytes) : Except VmError Memory :=
  if b.isEmpty then .ok m
  else if offset + b.size ≤ m.size then .ok (m.overwrite offset b)
  else .error (.outOfBounds offset b.size)

/-- Writes one byte. -/
def writeByte (m : Memory) (offset : Nat) (b : UInt8) : Except VmError Memory :=
  m.write offset #[b]

/-- Writes the 32 bytes of a word. -/
def writeWord (m : Memory) (offset : Nat) (w : Word) : Except VmError Memory :=
  m.write offset w.toBytes

end Memory

end Evm
