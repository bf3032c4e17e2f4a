import Mathlib.Algebra.Ring.Int.Defs
import Mathlib.Algebra.Ring.Nat
import Evm.Word.Arithmetic

namespace Evm.Word

/-!
# Signed words are integers

Division, remainder, comparison, the shift that fills with the sign and the extension of a sign work
on magnitudes, masks and fills.  On the two's complement readings they are the operations of the
integers, reduced to a word.

* `toInt_eq` — the signed reading from sign and magnitude.
* `shiftRightSigned_eq_sshiftRight`, `signExtend_eq` — masks and fills, bit by bit.
* `signed_operations` — all five operations.
-/

/-! ### Sign and magnitude -/

/-- The sign is the upper half of the words. -/
theorem isNegative_iff (w : Word) : w.isNegative = true ↔ 2 ^ 255 ≤ w.toNat := by
  rw [isNegative, BitVec.msb_eq_true_iff_two_mul_ge]
  omega

/-- The signed reading is the magnitude with the sign put back. -/
theorem toInt_eq (w : Word) :
    w.toInt = if w.isNegative then -(w.magnitude.toNat : Int) else w.magnitude.toNat := by
  have hw := w.isLt
  rw [BitVec.toInt_eq_msb_cond, magnitude]
  show (if w.isNegative = true then _ else _) = _
  by_cases hneg : w.isNegative = true
  · have := w.isNegative_iff.1 hneg
    rw [if_pos hneg, if_pos hneg, if_pos hneg, BitVec.toNat_neg]
    omega
  · rw [if_neg hneg, if_neg hneg, if_neg hneg]

/-- A word is the word of its unsigned reading. -/
theorem ofInt_toNat (w : Word) : BitVec.ofInt 256 w.toNat = w := by
  rw [BitVec.ofInt_natCast, BitVec.ofNat_toNat, BitVec.setWidth_eq]

/-- The quotient of the magnitudes gets a sign where one of the operands has one. -/
theorem sdiv_eq (a b : Word) :
    sdiv a b = if b = 0 then 0 else BitVec.ofInt 256 (a.toInt.tdiv b.toInt) := by
  have quotient : BitVec.ofInt 256 ((a.magnitude.toNat : Int).tdiv b.magnitude.toNat) =
      a.magnitude / b.magnitude := by
    rw [← Int.ofNat_tdiv, ← BitVec.toNat_udiv, ofInt_toNat]
  rw [sdiv, toInt_eq a, toInt_eq b]
  cases a.isNegative <;> cases b.isNegative <;>
    simp only [Int.neg_tdiv, Int.tdiv_neg, Int.neg_neg, BitVec.ofInt_neg, quotient, if_true,
      Bool.false_eq_true, Bool.true_eq_false, if_false]

/-- The remainder of the magnitudes gets the sign of the dividend. -/
theorem smod_eq (a b : Word) :
    smod a b = if b = 0 then 0 else BitVec.ofInt 256 (a.toInt.tmod b.toInt) := by
  have remainder : BitVec.ofInt 256 ((a.magnitude.toNat : Int).tmod b.magnitude.toNat) =
      a.magnitude % b.magnitude := by
    rw [← Int.ofNat_tmod, ← BitVec.toNat_umod, ofInt_toNat]
  rw [smod, toInt_eq a, toInt_eq b]
  cases a.isNegative <;> cases b.isNegative <;>
    simp only [Int.neg_tmod, Int.tmod_neg, BitVec.ofInt_neg, remainder, if_true,
      Bool.false_eq_true, if_false]

/-- The comparison is the one of the integers. -/
theorem slt_iff (a b : Word) : slt a b = true ↔ a.toInt < b.toInt := by
  have ha := a.isLt
  have hb := b.isLt
  have signA := a.isNegative_iff
  have signB := b.isNegative_iff
  rw [BitVec.toInt_eq_toNat_cond, BitVec.toInt_eq_toNat_cond, slt]
  cases hna : a.isNegative <;> cases hnb : b.isNegative <;>
    simp only [hna, hnb, Bool.false_eq_true, false_iff, true_iff, Nat.not_le] at signA signB <;>
    simp only [decide_eq_true_eq, BitVec.lt_def, Bool.false_eq_true, false_iff, true_iff] <;>
    omega

/-! ### Masks and fills -/

/-- The fill covers the bits above those of the shifted word. -/
theorem getLsbD_fill {s i : Nat} (hs : s < 256) (hi : i < 256) :
    (BitVec.allOnes 256 <<< (256 - s)).getLsbD i = decide (256 ≤ s + i) := by
  rw [BitVec.getLsbD_shiftLeft, BitVec.getLsbD_allOnes, decide_eq_true hi, Bool.true_and,
    decide_eq_true (show i - (256 - s) < 256 by omega), Bool.and_true, ← decide_not]
  exact decide_eq_decide.2 (by omega)

/-- The bits that come in from the left are copies of the sign. -/
theorem shiftRightSigned_eq_sshiftRight (s w : Word) :
    shiftRightSigned s w = w.sshiftRight s.toNat := by
  apply BitVec.eq_of_getLsbD_eq
  intro i hi
  have inside : (!decide (256 ≤ i)) = true := by
    rw [decide_eq_false (show ¬256 ≤ i by omega), Bool.not_false]
  rw [BitVec.getLsbD_sshiftRight, inside, Bool.true_and, shiftRightSigned, isNegative]
  by_cases hs : 256 ≤ s.toNat
  · -- only copies of the sign are left
    rw [if_pos hs, if_neg (show ¬s.toNat + i < 256 by omega)]
    cases w.msb
    · exact BitVec.getLsbD_zero
    · rw [if_pos rfl, BitVec.getLsbD_allOnes, decide_eq_true hi]
  · rw [if_neg hs]
    by_cases hfill : (w.msb && decide (0 < s.toNat)) = true
    · obtain ⟨hsign, -⟩ := Bool.and_eq_true _ _ ▸ hfill
      rw [if_pos hfill, BitVec.getLsbD_or, BitVec.getLsbD_ushiftRight, getLsbD_fill (by omega) hi]
      by_cases hbit : s.toNat + i < 256
      · rw [if_pos hbit, decide_eq_false (by omega), Bool.or_false]
      · rw [if_neg hbit, decide_eq_true (by omega), Bool.or_true, hsign]
    · rw [if_neg hfill, BitVec.getLsbD_ushiftRight]
      by_cases hbit : s.toNat + i < 256
      · rw [if_pos hbit]
      · -- the word is shifted, and it is not negative
        have shifted : decide (0 < s.toNat) = true := decide_eq_true (by omega)
        rw [shifted, Bool.and_true] at hfill
        rw [if_neg hbit, BitVec.getLsbD_of_ge _ _ (by omega), eq_false_of_ne_true hfill]

/-- A mask of `n` low bits. -/
theorem getLsbD_mask {n : Nat} (hn : n < 256) (i : Nat) :
    ((1 : Word) <<< n - 1).getLsbD i = decide (i < n) := by
  have bound : 2 ^ n < 2 ^ 256 := Nat.pow_lt_pow_right (by decide) hn
  have value : ((1 : Word) <<< n - 1).toNat = 2 ^ n - 1 := by
    have := Nat.two_pow_pos n
    rw [BitVec.toNat_sub, BitVec.toNat_shiftLeft, Nat.shiftLeft_eq]
    show (2 ^ 256 - 1 + 1 * 2 ^ n % 2 ^ 256) % 2 ^ 256 = _
    omega
  rw [BitVec.getLsbD, value, Nat.testBit_two_pow_sub_one]

/-- The top bit of byte `k` stands for all bits above it. -/
theorem getLsbD_signExtend {k : Word} (hk : k.toNat < 31) (w : Word) {i : Nat} (hi : i < 256) :
    (signExtend k w).getLsbD i = w.getLsbD (min i (8 * k.toNat + 7)) := by
  rw [signExtend, if_neg (by omega)]
  obtain ⟨top, htop⟩ : ∃ top, 8 * k.toNat + 7 = top := ⟨_, rfl⟩
  have mask := getLsbD_mask (show top < 256 by omega) i
  rw [htop]
  show (if w.getLsbD top then w ||| ~~~((1 : Word) <<< top - 1)
    else w &&& ((1 : Word) <<< top - 1)).getLsbD i = _
  -- below the sign bit the word is kept, from there on the sign is repeated
  by_cases hlow : i < top
  · rw [decide_eq_true hlow] at mask
    rw [Nat.min_eq_left (by omega)]
    split
    · rw [BitVec.getLsbD_or, BitVec.getLsbD_not, mask, Bool.not_true, Bool.and_false, Bool.or_false]
    · rw [BitVec.getLsbD_and, mask, Bool.and_true]
  · rw [decide_eq_false hlow] at mask
    rw [Nat.min_eq_right (by omega)]
    by_cases hsign : w.getLsbD top = true
    · rw [if_pos hsign, BitVec.getLsbD_or, BitVec.getLsbD_not, mask, hsign, decide_eq_true hi,
        Bool.not_false, Bool.and_self, Bool.or_true]
    · rw [if_neg hsign, BitVec.getLsbD_and, mask, Bool.and_false, eq_false_of_ne_true hsign]

/-- Below thirty-one bytes, the extension is the one of the vector. -/
theorem signExtend_eq {k : Word} (hk : k.toNat < 31) (w : Word) :
    signExtend k w = (w.setWidth (8 * (k.toNat + 1))).signExtend 256 := by
  apply BitVec.eq_of_getLsbD_eq
  intro i hi
  rw [getLsbD_signExtend hk w hi, BitVec.getLsbD_signExtend, BitVec.getLsbD_setWidth,
    BitVec.msb_setWidth, decide_eq_true hi, Bool.true_and]
  by_cases hlow : i < 8 * (k.toNat + 1)
  · rw [if_pos hlow, decide_eq_true hlow, Bool.true_and, Nat.min_eq_left (by omega)]
  · rw [if_neg hlow, decide_eq_true (show 0 < 8 * (k.toNat + 1) by omega), Bool.true_and,
      Nat.min_eq_right (by omega)]
    rfl

/-! ### All signed operations -/

/-- On words read as two's complement, each signed operation is the one of the integers, reduced to
    a word: division truncates toward zero and gives zero for a zero divisor, the remainder is what
    that division leaves, the comparison is exact, the shift rounds down for every amount that is a
    word, and the extension keeps the reading of the `k + 1` low bytes. -/
theorem signed_operations (a b s k w : Word) :
    sdiv a b = (if b = 0 then 0 else BitVec.ofInt 256 (a.toInt.tdiv b.toInt)) ∧
      smod a b =
        (if b = 0 then 0 else BitVec.ofInt 256 (a.toInt - b.toInt * a.toInt.tdiv b.toInt)) ∧
      (slt a b = true ↔ a.toInt < b.toInt) ∧
      shiftRightSigned s w = BitVec.ofInt 256 (w.toInt.fdiv (2 ^ s.toNat)) ∧
      (if 31 ≤ k.toNat then signExtend k w = w
        else (signExtend k w).toInt = (w.setWidth (8 * (k.toNat + 1))).toInt) := by
  refine ⟨sdiv_eq a b, ?_, slt_iff a b, ?_, ?_⟩
  · rw [smod_eq, Int.tmod_def]
  · have positive : (0 : Int) ≤ 2 ^ s.toNat := Int.le_of_lt (Int.pow_pos (by decide))
    have shifted : (w.sshiftRight s.toNat).toInt = w.toInt.fdiv (2 ^ s.toNat) := by
      rw [BitVec.toInt_sshiftRight, Int.shiftRight_eq_div_pow, Int.natCast_pow,
        Int.fdiv_eq_ediv_of_nonneg _ positive]
      rfl
    rw [shiftRightSigned_eq_sshiftRight, ← shifted, BitVec.ofInt_toInt]
  · by_cases hk : 31 ≤ k.toNat
    · rw [if_pos hk, signExtend, if_pos hk]
    · rw [if_neg hk, signExtend_eq (by omega), BitVec.toInt_signExtend_of_le (by omega)]

/-- The smallest word has no positive counterpart. -/
example : sdiv (1 <<< 255) (-1) = 1 <<< 255 := by decide

end Evm.Word
