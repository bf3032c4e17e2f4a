import Evm.Memory

namespace Evm

/-!
# Memory that grows

What a frame sees of memory that it extends.  The size is counted in 64 bits, so all this is so only
as long as the end of the range, up to a whole word, can be counted; the operands of instructions
are cut off far below.  A range that ends later is charged for, and then leaves no memory at all.

* `Memory.InRange` — a range whose end can be counted.
* `Memory.extend_eq` — growth fails only where it cannot be paid.
* `Memory.eq_of_extend` — memory that is extended was large enough, or has grown as far as it must.
* `Memory.read_of_extend`, `Memory.funds_of_extend` — it shows the same bytes, and is paid for.
* `Memory.extend_past_end` — what becomes of memory that is extended too far.
-/

/-- Whole words hold at least as many bytes as they cover. -/
theorem le_wordCount (size : Nat) : size ≤ 32 * wordCount size := by
  unfold wordCount
  omega

/-- An operand is cut off at the largest offset. -/
theorem Word.clampOffset_le (a : Word) : a.clampOffset ≤ maxOffset := Nat.min_le_right _ _

namespace Memory

/-! ### Ranges -/

/-- The end of the range can be counted, also when it is rounded up to whole words. -/
def InRange (offset len : Nat) : Prop := offset + len + 31 ≤ Counter.limit

/-- Offsets and sizes that instructions can ask for lie far below what can be counted. -/
theorem inRange_of_le {offset len : Nat} (hoffset : offset ≤ maxOffset) (hlen : len ≤ maxOffset) :
    InRange offset len :=
  calc offset + len + 31
      ≤ maxOffset + maxOffset + 31 := by omega
    _ ≤ Counter.limit := by decide

/-- Two operands make a range that can be counted. -/
theorem inRange_operands (offset len : Word) : InRange offset.clampOffset len.clampOffset :=
  inRange_of_le offset.clampOffset_le len.clampOffset_le

/-- So does one operand with a fixed number of bytes. -/
theorem inRange_operand (offset : Word) {len : Nat} (hlen : len ≤ maxOffset) :
    InRange offset.clampOffset len :=
  inRange_of_le offset.clampOffset_le hlen

variable {offset len : Nat}

/-- In range, the end is the plain sum. -/
theorem InRange.add (h : InRange offset len) : Counter.add offset len = offset + len :=
  Counter.add_of_le (Nat.le_trans (Nat.le_add_right _ 31) h)

/-- In range the size that is paid for is the size of the words. -/
theorem InRange.paidSize (h : InRange offset len) :
    paidSize (wordCount (offset + len)) = 32 * wordCount (offset + len) := by
  refine Counter.wrap_of_le ?_
  unfold InRange at h
  unfold wordCount
  omega

/-- Any size that is paid for is one of whole words. -/
theorem dvd_paidSize (words : Nat) : 32 ∣ paidSize words :=
  (Nat.dvd_mod_iff (show 32 ∣ Counter.limit + 1 by decide)).2 (Nat.dvd_mul_right 32 words)

/-- Past the last whole word that can be counted the size starts again from zero. -/
theorem paidSize_past_end {last : Nat} (hpast : Counter.limit < last + 31)
    (hlast : last ≤ Counter.limit) : paidSize (wordCount last) = 0 := by
  have words : wordCount last = 2 ^ 59 := by
    unfold wordCount
    simp only [Counter.limit] at hpast hlast
    omega
  rw [words]
  rfl

/-! ### Growth -/

/-- The size that is paid for is always a counter, so that growth fails only where it cannot be
    paid. -/
theorem extend_eq (m : Memory) (offset len : Nat) (gas : Meter) :
    m.extend offset len gas =
      if len = 0 ∨ Counter.add offset len ≤ m.size then .ok (m, gas)
      else do
        let gas ← gas.consume (expansionCost m.words (wordCount (Counter.add offset len)))
        return (m.resize (paidSize (wordCount (Counter.add offset len))), gas) := by
  simp only [extend, paidSize, Counter.checked_wrap]

variable {m m' : Memory} {gas gas' : Meter}

/-- Memory that is extended was large enough, or its growth is paid for and it has the new size. -/
theorem cases_of_extend (h : m.extend offset len gas = .ok (m', gas')) :
    (len = 0 ∨ Counter.add offset len ≤ m.size) ∧ m' = m ∧ gas' = gas ∨
      ¬ (len = 0 ∨ Counter.add offset len ≤ m.size) ∧
        m' = m.resize (paidSize (wordCount (Counter.add offset len))) ∧
        gas.consume (expansionCost m.words (wordCount (Counter.add offset len))) = .ok gas' := by
  rw [extend_eq] at h
  split at h
  · rename_i hlarge
    cases h
    exact .inl ⟨hlarge, rfl, rfl⟩
  · rename_i hsmall
    cases hgas : gas.consume (expansionCost m.words (wordCount (Counter.add offset len))) with
    | error e =>
      rw [hgas] at h
      cases h
    | ok paid =>
      rw [hgas] at h
      cases h
      exact .inr ⟨hsmall, rfl, rfl⟩

/-- In range, memory that is extended was large enough, or it has grown as far as it must and that
    is paid for. -/
theorem eq_of_extend (hrange : InRange offset len) (h : m.extend offset len gas = .ok (m', gas')) :
    (len = 0 ∨ offset + len ≤ m.size) ∧ m' = m ∧ gas' = gas ∨
      (len ≠ 0 ∧ m.size < offset + len) ∧ m' = m.resize (32 * wordCount (offset + len)) ∧
        gas.consume (expansionCost m.words (wordCount (offset + len))) = .ok gas' := by
  have cases := cases_of_extend h
  rwa [hrange.add, hrange.paidSize, not_or, Nat.not_le] at cases

/-- Growing memory is paid for by one charge, which may be nothing. -/
theorem consume_of_extend (h : m.extend offset len gas = .ok (m', gas')) :
    ∃ amount, gas.consume amount = .ok gas' := by
  obtain ⟨-, -, rfl⟩ | ⟨-, -, hgas⟩ := cases_of_extend h
  · exact ⟨0, Meter.consume_eq_ok_iff.2 ⟨rfl, rfl, rfl⟩⟩
  · exact ⟨_, hgas⟩

/-- Memory of whole words stays so, wherever the range lies. -/
theorem dvd_size_of_extend (hm : 32 ∣ m.size) (h : m.extend offset len gas = .ok (m', gas')) :
    32 ∣ m'.size := by
  obtain ⟨-, rfl, -⟩ | ⟨-, rfl, -⟩ := cases_of_extend h
  · exact hm
  · rw [size_resize]
    exact dvd_paidSize _

/-- Memory that is extended loses nothing. -/
theorem size_le_of_extend (hrange : InRange offset len)
    (h : m.extend offset len gas = .ok (m', gas')) : m.size ≤ m'.size := by
  obtain ⟨-, rfl, -⟩ | ⟨⟨-, hsmall⟩, rfl, -⟩ := eq_of_extend hrange h
  · exact Nat.le_refl _
  · rw [size_resize]
    have := le_wordCount (offset + len)
    omega

/-- A range that is not empty lies inside memory that was extended to hold it. -/
theorem le_size_of_extend (hrange : InRange offset len)
    (h : m.extend offset len gas = .ok (m', gas')) (hlen : len ≠ 0) : offset + len ≤ m'.size := by
  obtain ⟨hlarge, rfl, -⟩ | ⟨-, rfl, -⟩ := eq_of_extend hrange h
  · exact hlarge.resolve_left hlen
  · rw [size_resize]
    exact le_wordCount _

/-- Growth is not seen by a reader that takes zeros past the end. -/
theorem getD_of_extend (hrange : InRange offset len)
    (h : m.extend offset len gas = .ok (m', gas')) (i : Nat) :
    m'.data.getD i 0 = m.data.getD i 0 := by
  obtain ⟨-, rfl, -⟩ | ⟨⟨-, hsmall⟩, rfl, -⟩ := eq_of_extend hrange h
  · rfl
  · have := le_wordCount (offset + len)
    exact getD_resize (by omega) i

/-- A reader of a range sees the bytes from before. -/
theorem read_of_extend (hrange : InRange offset len)
    (h : m.extend offset len gas = .ok (m', gas')) (a b : Nat) : m'.read a b = m.read a b := by
  rw [read_eq_window, read_eq_window]
  exact Bytes.window_congr fun i _ => getD_of_extend hrange h (a + i)

/-- Memory that has grown to whole words has as many. -/
theorem words_resize (m : Memory) (words : Nat) : (m.resize (32 * words)).words = words := by
  unfold Memory.words
  rw [size_resize]
  omega

/-- Growth is paid for by what the memory costs then. -/
theorem funds_of_extend (hrange : InRange offset len)
    (h : m.extend offset len gas = .ok (m', gas')) :
    gas'.limit = gas.limit ∧ gas'.remaining + cost m'.words = gas.remaining + cost m.words := by
  obtain ⟨-, rfl, rfl⟩ | ⟨⟨-, hsmall⟩, rfl, hgas⟩ := eq_of_extend hrange h
  · exact ⟨rfl, rfl⟩
  · obtain ⟨hlimit, hpaid, -⟩ := Meter.consume_eq_ok_iff.1 hgas
    have hold : m.words ≤ wordCount (offset + len) := by
      have := le_wordCount (offset + len)
      show m.size / 32 ≤ _
      omega
    have hcost := cost_add_expansionCost hold
    refine ⟨hlimit, ?_⟩
    rw [words_resize]
    omega

/-- Growth earns no refund. -/
theorem refund_of_extend (h : m.extend offset len gas = .ok (m', gas')) :
    gas'.refund = gas.refund := by
  obtain ⟨amount, hgas⟩ := consume_of_extend h
  exact (Meter.consume_eq_ok_iff.1 hgas).2.2

/-! ### Ranges that end too far out -/

/-- Memory without bytes. -/
theorem resize_zero (m : Memory) : m.resize 0 = {} := by
  refine ext_data (Array.eq_empty_of_size_eq_zero ?_)
  rw [size_data, size_resize]

/-- Memory that is extended past the last word that can be counted is charged for, and empty
    afterwards. -/
theorem extend_past_end (hpast : ¬ InRange offset len)
    (hsmall : ¬ (len = 0 ∨ Counter.add offset len ≤ m.size))
    (h : m.extend offset len gas = .ok (m', gas')) : m' = {} := by
  obtain ⟨hlarge, -⟩ | ⟨-, rfl, -⟩ := cases_of_extend h
  · exact absurd hlarge hsmall
  · have past : Counter.limit < Counter.add offset len + 31 := by
      unfold InRange at hpast
      unfold Counter.add
      omega
    rw [paidSize_past_end past (Counter.add_le_limit offset len), resize_zero]

/-- One byte is asked for at the last place of all: a word of memory is there before, and none after
    all that has been paid. -/
example :
    ((({} : Memory).resize 32).extend Counter.limit 1 (.full Counter.limit)).toOption.map
      (fun grown => (grown.1.size, grown.2.used)) = some (0, 1765411053929234428) := by
  decide +kernel

end Memory

end Evm
