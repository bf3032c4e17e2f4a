namespace Evm

/-!
# Byte strings

Call data, contract code and return data are arrays of bytes.

* `Bytes.toNat`, `Bytes.ofNat` — the big-endian reading of a byte string and the byte string of
  a given width with a given reading.
* `Bytes.window` — a slice of fixed length that reads zero past the end.
* `wordCount` — how many 32-byte words cover a length.
* `Bytes.toNat_ofNat`, `Bytes.ofNat_toNat` — reading and writing undo each other.
* `Bytes.getD_window`, `Bytes.window_middle`, `Bytes.window_congr` — what a window shows, and what
  it depends on.
-/

/-- A byte string. -/
abbrev Bytes := Array UInt8

namespace Bytes

/-- The number whose big-endian digits to base 256 are the bytes. -/
def toNat (b : Bytes) : Nat :=
  b.foldl (fun n byte => n * 256 + byte.toNat) 0

/-- The last `width` big-endian digits to base 256 of `n`. -/
def ofNat (width n : Nat) : Bytes :=
  Array.ofFn fun i : Fin width => UInt8.ofNat (n >>> (8 * (width - 1 - i)))

/-- The `len` bytes from `offset` on, zero past the end of `b`. -/
def window (b : Bytes) (offset len : Nat) : Bytes :=
  let part := b.extract offset (offset + len)
  part ++ Array.replicate (len - part.size) 0

/-! ### Windows -/

@[simp] theorem size_window (b : Bytes) (offset len : Nat) : (b.window offset len).size = len := by
  simp only [window, Array.size_append, Array.size_extract, Array.size_replicate]
  omega

/-- A window shows the bytes from its offset on, and zero past either end. -/
theorem getD_window (b : Bytes) (offset len i : Nat) :
    (b.window offset len).getD i 0 = if i < len then b.getD (offset + i) 0 else 0 := by
  simp only [window, Array.getD_eq_getD_getElem?, Array.getElem?_append, Array.size_extract,
    Array.getElem?_extract, Array.getElem?_replicate]
  by_cases hi : i < len
  · by_cases hb : offset + i < b.size
    · rw [if_pos (by omega), if_pos (by omega), if_pos hi]
    · rw [if_neg (by omega), if_pos hi, Array.getElem?_eq_none (by omega)]
      split <;> rfl
  · rw [if_neg hi]
    split
    · omega
    · rw [if_neg (by omega)]
      rfl

/-- The middle of three parts. -/
theorem extract_middle (front middle back : Bytes) :
    (front ++ middle ++ back).extract front.size (front.size + middle.size) = middle := by
  apply Array.toList_inj.1
  rw [Array.toList_extract, Array.toList_append, Array.toList_append]
  simp

/-- A window on a part of a string shows that part. -/
theorem window_middle (front middle back : Bytes) :
    (front ++ middle ++ back).window front.size middle.size = middle := by
  rw [window, extract_middle, Nat.sub_self]
  simp

/-- Windows are the same where all bytes are that they show. -/
theorem window_congr {b c : Bytes} {offset len : Nat}
    (same : ∀ i < len, b.getD (offset + i) 0 = c.getD (offset + i) 0) :
    b.window offset len = c.window offset len := by
  have shown (i : Nat) : (b.window offset len).getD i 0 = (c.window offset len).getD i 0 := by
    rw [getD_window, getD_window]
    split
    · exact same i ‹_›
    · rfl
  apply Array.ext
  · rw [size_window, size_window]
  · intro i hb hc
    have shown := shown i
    rwa [Array.getD_eq_getD_getElem?, Array.getD_eq_getD_getElem?, Array.getElem?_eq_getElem hb,
      Array.getElem?_eq_getElem hc] at shown

/-! ### Big-endian numbers -/

@[simp] theorem size_ofNat (width n : Nat) : (ofNat width n).size = width := by
  simp [ofNat]

/-- The last byte is the lowest digit. -/
theorem toNat_push (b : Bytes) (x : UInt8) : toNat (b.push x) = toNat b * 256 + x.toNat := by
  simp [toNat]

/-- One more digit splits off the lowest one. -/
theorem ofNat_succ (width n : Nat) :
    ofNat (width + 1) n = (ofNat width (n / 256)).push (UInt8.ofNat n) := by
  apply Array.ext
  · simp [ofNat]
  · intro i h h'
    simp only [ofNat, Array.getElem_ofFn, Array.getElem_push, Array.size_ofFn]
    split
    · rw [show 8 * (width + 1 - 1 - i) = 8 + 8 * (width - 1 - i) by omega, Nat.shiftRight_add,
        Nat.shiftRight_eq_div_pow n 8]
    · have hi : i = width := by
        rw [size_ofNat] at h
        omega
      subst hi
      simp

/-- Reading gives back the number that was written, as far as the width goes. -/
theorem toNat_ofNat (width n : Nat) : toNat (ofNat width n) = n % (1 <<< (8 * width)) := by
  induction width generalizing n with
  | zero => simp [ofNat, toNat, Nat.mod_one]
  | succ width ih =>
    have lowest := @Nat.mod_mul 256 (1 <<< (8 * width)) n
    have digits : 1 <<< (8 * (width + 1)) = 256 * (1 <<< (8 * width)) := by
      rw [show 8 * (width + 1) = 8 + 8 * width by omega, Nat.shiftLeft_add, Nat.one_shiftLeft,
        Nat.one_shiftLeft, Nat.shiftLeft_eq]
    rw [ofNat_succ, toNat_push, ih, UInt8.toNat_ofNat', digits, lowest]
    omega

/-- Writing gives back the bytes that were read. -/
theorem ofNat_toNat (b : Bytes) : ofNat b.size (toNat b) = b := by
  obtain ⟨n, hn⟩ : ∃ n, b.size = n := ⟨_, rfl⟩
  induction n generalizing b with
  | zero =>
    rw [Array.eq_empty_of_size_eq_zero hn]
    rfl
  | succ n ih =>
    obtain ⟨front, x, rfl⟩ := Array.eq_push_of_size_ne_zero (show b.size ≠ 0 by omega)
    have hfront := ih front (by simpa using hn)
    have hx := x.toNat_lt
    have quotient : (toNat front * 256 + x.toNat) / 256 = toNat front := by omega
    have digit : UInt8.ofNat (toNat front * 256 + x.toNat) = x := by
      apply UInt8.toNat_inj.1
      rw [UInt8.toNat_ofNat']
      omega
    rw [Array.size_push, ofNat_succ, toNat_push, quotient, digit, hfront]

end Bytes

/-- The number of 32-byte words that cover `size` bytes. -/
def wordCount (size : Nat) : Nat := (size + 31) / 32

end Evm
