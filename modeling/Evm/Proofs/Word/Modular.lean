import Mathlib.Data.Nat.ModEq
import Evm.Gas.Schedule
import Evm.Proofs.Bytes

namespace Evm.Word

/-!
# Modular operations are exact

Sums and products that are reduced by a modulus never wrap before that, since they are taken in
double width.  A power is found by squaring, in no more turns than an exponent has bits.

* `Squares` — the turns that it takes to use up an exponent.
* `expLoop_squares`, `Squares.modEq` — the loop gets there in time, and what it has found then.
* `modular_operations` — powers, sums and products, and what an exponent costs.
-/

/-! ### Powers -/

/-- With `n` turns the exponent is used up, and `acc` has become `result`: each turn multiplies by
    the base if the exponent is odd, squares the base and halves the exponent. -/
inductive Squares : (base exponent acc : Word) → (n : Nat) → (result : Word) → Prop
  | done (base acc : Word) : Squares base 0 acc 0 acc
  | turn {base exponent acc result : Word} {n : Nat} (hexponent : exponent ≠ 0)
      (rest : Squares (base * base) (exponent >>> 1)
        (if exponent.getLsbD 0 then acc * base else acc) n result) :
      Squares base exponent acc (n + 1) result

/-- As many turns as the exponent has bits use it up. -/
theorem expLoop_squares {fuel : Nat} {exponent : Word} (hbits : exponent.toNat < 2 ^ fuel)
    (base acc : Word) :
    ∃ n ≤ fuel, Squares base exponent acc n (expLoop fuel base exponent acc) := by
  -- by induction on the fuel: a turn halves the exponent, which has one bit less to go
  induction fuel generalizing base exponent acc with
  | zero =>
    obtain rfl : exponent = 0 := BitVec.eq_of_toNat_eq (by simpa using hbits)
    exact ⟨0, Nat.le_refl 0, .done base acc⟩
  | succ fuel ih =>
    by_cases hexponent : exponent = 0
    · subst hexponent
      exact ⟨0, Nat.zero_le _, .done base acc⟩
    · have halved : (exponent >>> 1).toNat < 2 ^ fuel := by
        rw [BitVec.toNat_ushiftRight, Nat.shiftRight_one]
        omega
      obtain ⟨n, hn, rest⟩ := ih halved (base * base)
        (if exponent.getLsbD 0 then acc * base else acc)
      refine ⟨n + 1, Nat.succ_le_succ hn, ?_⟩
      rw [expLoop, if_neg hexponent]
      exact .turn hexponent rest

/-- One turn moves a factor from the power to the accumulator. -/
theorem turn_modEq (base exponent acc : Word) :
    (if exponent.getLsbD 0 then acc * base else acc).toNat *
        (base * base).toNat ^ (exponent >>> 1).toNat ≡
      acc.toNat * base.toNat ^ exponent.toNat [MOD 2 ^ 256] := by
  have reduced (a b : Word) : (a * b).toNat ≡ a.toNat * b.toNat [MOD 2 ^ 256] := by
    rw [BitVec.toNat_mul]
    exact Nat.mod_modEq _ _
  have parity : exponent.getLsbD 0 = decide (exponent.toNat % 2 = 1) := by
    rw [BitVec.getLsbD, Nat.testBit_zero]
  rw [BitVec.toNat_ushiftRight, Nat.shiftRight_one, parity]
  obtain ⟨half, hhalf⟩ : ∃ half, exponent.toNat / 2 = half := ⟨_, rfl⟩
  have squared := (reduced base base).pow half
  rw [← Nat.pow_two, ← Nat.pow_mul] at squared
  rw [hhalf]
  -- the odd turn takes one factor of the base over
  by_cases hodd : exponent.toNat % 2 = 1
  · rw [decide_eq_true hodd, if_pos rfl, show exponent.toNat = 2 * half + 1 by omega]
    calc (acc * base).toNat * (base * base).toNat ^ half
      _ ≡ acc.toNat * base.toNat * base.toNat ^ (2 * half) [MOD 2 ^ 256] :=
        (reduced acc base).mul squared
      _ = acc.toNat * base.toNat ^ (2 * half + 1) := by rw [Nat.pow_succ', Nat.mul_assoc]
  · rw [decide_eq_false hodd, if_neg Bool.false_ne_true,
      show exponent.toNat = 2 * half by omega]
    exact squared.mul_left acc.toNat

/-- What the turns come to is the power, times what was there. -/
theorem Squares.modEq {base exponent acc result : Word} {n : Nat}
    (h : Squares base exponent acc n result) :
    result.toNat ≡ acc.toNat * base.toNat ^ exponent.toNat [MOD 2 ^ 256] := by
  induction h with
  | done base acc =>
    show acc.toNat ≡ acc.toNat * base.toNat ^ 0 [MOD 2 ^ 256]
    rw [Nat.pow_zero, Nat.mul_one]
  | turn hexponent rest ih => exact ih.trans (turn_modEq ..)

/-! ### Double width -/

/-- A widened word has its value. -/
theorem toNat_widen (w : Word) : w.widen.toNat = w.toNat := by
  have := w.isLt
  rw [widen, BitVec.toNat_setWidth]
  exact Nat.mod_eq_of_lt (by omega)

/-- A remainder of double width is a word. -/
theorem toNat_reduced (x : BitVec 512) {n : Word} (hn : n ≠ 0) :
    ((x % n.widen).setWidth 256).toNat = x.toNat % n.toNat := by
  have positive : 0 < n.toNat := Nat.pos_of_ne_zero fun h => hn (BitVec.eq_of_toNat_eq h)
  have below := Nat.mod_lt x.toNat positive
  have := n.isLt
  rw [BitVec.toNat_setWidth, BitVec.toNat_umod, toNat_widen]
  exact Nat.mod_eq_of_lt (by omega)

/-- The sum is reduced as a natural number; modulo zero it is zero. -/
theorem toNat_addMod (a b n : Word) :
    (addMod a b n).toNat = if n = 0 then 0 else (a.toNat + b.toNat) % n.toNat := by
  unfold addMod
  split
  · rfl
  · rename_i hn
    have := a.isLt
    have := b.isLt
    rw [toNat_reduced _ hn, BitVec.toNat_add, toNat_widen, toNat_widen,
      Nat.mod_eq_of_lt (a := a.toNat + b.toNat) (by omega)]

/-- The product is reduced as a natural number; modulo zero it is zero. -/
theorem toNat_mulMod (a b n : Word) :
    (mulMod a b n).toNat = if n = 0 then 0 else (a.toNat * b.toNat) % n.toNat := by
  unfold mulMod
  split
  · rfl
  · rename_i hn
    have fits : a.toNat * b.toNat < 2 ^ 512 := by
      rw [show 512 = 256 + 256 from rfl, Nat.pow_add]
      exact Nat.mul_lt_mul'' a.isLt b.isLt
    simp only [toNat_reduced _ hn, BitVec.toNat_mul, toNat_widen, Nat.mod_eq_of_lt fits]

/-! ### The price of an exponent -/

/-- A word has as many bytes as its shortest form. -/
theorem byteLength_eq {w : Word} {digits : Bytes} (h : digits.IsShortest w.toNat) :
    w.byteLength = digits.size := by
  rw [Bytes.isShortest_iff.1 h, byteLength, Rlp.minimalBytes]
  have zero : w.toNat = 0 ↔ w = 0 := ⟨fun h => BitVec.eq_of_toNat_eq h, congrArg BitVec.toNat⟩
  by_cases hw : w = 0
  · rw [if_pos hw, if_pos (zero.2 hw)]
    rfl
  · rw [if_neg hw, if_neg (mt zero.1 hw), Bytes.size_ofNat]

/-! ### All modular operations -/

/-- The loop that finds a power uses up any exponent in at most 256 turns, and finds the power
    reduced to a word; an empty product is one.  Sums and products reduced by a modulus are those of
    the natural numbers, reduced once, and zero for a modulus of zero.  Each byte of the shortest
    form of an exponent is paid once. -/
theorem modular_operations (base exponent a b n : Word) (f : Fork) :
    (∃ turns ≤ 256, Squares base exponent 1 turns (exp base exponent)) ∧
      (exp base exponent).toNat = base.toNat ^ exponent.toNat % 2 ^ 256 ∧
      (addMod a b n).toNat = (if n = 0 then 0 else (a.toNat + b.toNat) % n.toNat) ∧
      (mulMod a b n).toNat = (if n = 0 then 0 else (a.toNat * b.toNat) % n.toNat) ∧
      ∃ digits : Bytes, digits.IsShortest exponent.toNat ∧
        Gas.expBytes f exponent =
          (digits.toList.map fun _ => if .spuriousDragon ≤ f then 50 else 10).sum := by
  obtain ⟨turns, hturns, squares⟩ := expLoop_squares exponent.isLt base 1
  refine ⟨⟨turns, hturns, squares⟩, ?_, toNat_addMod a b n, toNat_mulMod a b n, ?_⟩
  · have power := squares.modEq
    rw [show (1 : Word).toNat = 1 from rfl, Nat.one_mul] at power
    exact (Nat.mod_eq_of_lt (exp base exponent).isLt).symm.trans power
  · have shortest := Bytes.minimalBytes_isShortest exponent.toNat
    refine ⟨_, shortest, ?_⟩
    rw [Gas.expBytes, byteLength_eq shortest, List.map_const', List.sum_replicate_nat,
      Array.length_toList, Nat.mul_comm]

example : exp 0 0 = 1 ∧ exp 2 255 = 1 <<< 255 ∧ exp 2 256 = 0 := by decide +kernel

end Evm.Word
