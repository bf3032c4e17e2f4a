import Mathlib.Algebra.Ring.Nat
import Evm.Rlp

namespace Evm

/-!
# Shortest forms of numbers

A number has many big-endian forms, which differ in the zero bytes in front.

* `Bytes.toNat_append`, `Bytes.toNat_lt` — what the bytes in front add, and how far a length
  reaches.
* `Bytes.IsShortest` — no other form has fewer bytes.
* `Bytes.isShortest_iff` — the shortest form is `Rlp.minimalBytes`, and no other.
* `Bytes.isShortest_toNat_iff` — it is the form that has no zero byte in front.
-/

namespace Bytes

/-! ### Big-endian readings -/

/-- The bytes in front count by as many places as there are bytes after them. -/
theorem toNat_append (b c : Bytes) : toNat (b ++ c) = toNat b * 256 ^ c.size + toNat c := by
  have shifted (digits : List UInt8) (n : Nat) :
      digits.foldl (fun n byte => n * 256 + byte.toNat) n =
        n * 256 ^ digits.length + digits.foldl (fun n byte => n * 256 + byte.toNat) 0 := by
    induction digits generalizing n with
    | nil => simp
    | cons x rest ih =>
      rw [List.foldl_cons, ih, List.foldl_cons, ih (0 * 256 + x.toNat), List.length_cons,
        Nat.pow_succ', Nat.add_mul, Nat.mul_assoc, Nat.zero_mul, Nat.zero_add, Nat.add_assoc]
  have split := shifted c.toList (toNat b)
  rw [Array.foldl_toList, Array.foldl_toList, Array.length_toList] at split
  exact (Array.foldl_append ..).trans split

/-- A reading has no more digits than there are bytes. -/
theorem toNat_lt (b : Bytes) : toNat b < 256 ^ b.size := by
  have written := toNat_ofNat b.size (toNat b)
  rw [ofNat_toNat, Nat.one_shiftLeft, Nat.pow_mul] at written
  exact written ▸ Nat.mod_lt _ (Nat.pow_pos (by decide))

/-- Bytes of one length are told apart by their reading. -/
theorem eq_of_toNat_eq {b c : Bytes} (size : b.size = c.size) (same : toNat b = toNat c) :
    b = c := by
  rw [← ofNat_toNat b, ← ofNat_toNat c, size, same]

/-- The reading of a string with one more byte in front. -/
theorem toNat_cons (x : UInt8) (rest : List UInt8) :
    toNat (x :: rest).toArray = x.toNat * 256 ^ rest.length + toNat rest.toArray := by
  have split := toNat_append #[x] rest.toArray
  rwa [show toNat #[x] = x.toNat by simp [toNat], List.size_toArray,
    show #[x] ++ rest.toArray = (x :: rest).toArray by simp] at split

/-! ### The shortest form -/

/-- The bytes read as the number, and no fewer bytes do. -/
def IsShortest (b : Bytes) (n : Nat) : Prop :=
  toNat b = n ∧ ∀ c : Bytes, toNat c = n → b.size ≤ c.size

/-- A number has one shortest form. -/
theorem IsShortest.eq {b c : Bytes} {n : Nat} (hb : b.IsShortest n) (hc : c.IsShortest n) :
    b = c :=
  eq_of_toNat_eq (Nat.le_antisymm (hb.2 c hc.1) (hc.2 b hb.1)) (hb.1.trans hc.1.symm)

/-- No form of a number has fewer bytes than its bits need. -/
theorem size_minimalBytes_le {n : Nat} {c : Bytes} (hc : toNat c = n) :
    (Rlp.minimalBytes n).size ≤ c.size := by
  unfold Rlp.minimalBytes
  split
  · exact Nat.zero_le _
  · rename_i hn
    rw [size_ofNat]
    have reach : n < 2 ^ (8 * c.size) := by
      have := toNat_lt c
      rwa [hc, show 256 = 2 ^ 8 from rfl, ← Nat.pow_mul] at this
    have := (Nat.log2_lt hn).2 reach
    omega

/-- The minimal bytes stand for the number. -/
theorem toNat_minimalBytes (n : Nat) : toNat (Rlp.minimalBytes n) = n := by
  unfold Rlp.minimalBytes
  split
  · rename_i hn
    exact hn.symm
  · rename_i hn
    rw [toNat_ofNat, Nat.one_shiftLeft]
    refine Nat.mod_eq_of_lt ((Nat.log2_lt hn).1 ?_)
    omega

/-- The minimal bytes are the shortest form. -/
theorem minimalBytes_isShortest (n : Nat) : (Rlp.minimalBytes n).IsShortest n :=
  ⟨toNat_minimalBytes n, fun _ hc => size_minimalBytes_le hc⟩

/-- Each number has one shortest form. -/
theorem isShortest_iff {b : Bytes} {n : Nat} : b.IsShortest n ↔ b = Rlp.minimalBytes n :=
  ⟨fun h => h.eq (minimalBytes_isShortest n), fun h => h ▸ minimalBytes_isShortest n⟩

/-- A form is shortest exactly if it has no zero byte in front. -/
theorem isShortest_toNat_iff (b : Bytes) : b.IsShortest (toNat b) ↔ b[0]? ≠ some 0 := by
  obtain ⟨digits⟩ := b
  cases digits with
  | nil => simp [IsShortest]
  | cons x rest =>
    have reading := toNat_cons x rest
    have head : (x :: rest).toArray[0]? = some x := by simp
    rw [head, ne_eq, Option.some.injEq]
    constructor
    · -- without a zero in front the reading is the same
      rintro ⟨-, least⟩ rfl
      have shorter := least rest.toArray (by simpa using reading.symm)
      exact Nat.not_succ_le_self rest.length shorter
    -- with a digit in front the number needs all of its bytes
    · intro hx
      refine ⟨rfl, fun c hc => ?_⟩
      have positive : 1 ≤ x.toNat := Nat.pos_of_ne_zero fun h => hx (UInt8.toNat_inj.1 h)
      have reach : 256 ^ rest.length < 256 ^ c.size :=
        calc 256 ^ rest.length
          _ ≤ x.toNat * 256 ^ rest.length := Nat.le_mul_of_pos_left _ positive
          _ ≤ toNat c := (hc.trans reading) ▸ Nat.le_add_right _ _
          _ < 256 ^ c.size := toNat_lt c
      exact (Nat.pow_lt_pow_iff_right (by decide)).1 reach

end Bytes

end Evm
