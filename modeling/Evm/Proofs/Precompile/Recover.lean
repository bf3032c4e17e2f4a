import Evm.Precompile.Recover

namespace Evm.Precompile

/-!
# Signatures come in pairs

With `n` for the order of the group, `(r, s)` and `(r, n - s)` are signatures of the same digest
under the same key, with nonce points of different parity.  The contract finds the same account in
both: it takes the smaller second number, and changes the parity in exactly the cases in which that
is another one.

* `Signature.low` — the signature of a pair that has the smaller second number.
* `SignatureLibrary.IsLawful` — what the contract relies on; `secp256k1_isLawful`.
* `recoveryInput` — four words as input; `SignatureLibrary.signer_recoveryInput` — the account that
  they lead to.
* `SignatureLibrary.signer_congr` — input past four words is not looked at.
* `recovery_symmetric` — the contract on both signatures of a pair, and on any input.
-/

/-! ### Pairs -/

namespace Signature

/-- A number in range is a nonzero residue of the order. -/
theorem inRange_iff {n : Nat} : inRange n = true ↔ 0 < n ∧ n < Secp256k1.order := by
  simp [inRange]

/-- The negative of a number in range is in range. -/
theorem inRange_order_sub {n : Nat} (h : inRange n) : inRange (Secp256k1.order - n) := by
  rw [inRange_iff] at h ⊢
  omega

variable {sig : Signature}

/-- The signature of a pair that has the smaller second number. -/
def low (sig : Signature) : Signature := { sig with s := min sig.s (Secp256k1.order - sig.s) }

/-- A pair has one lower signature. -/
theorem low_reflect (h : inRange sig.s) : sig.reflect.low = sig.low := by
  rw [inRange_iff] at h
  have back : Secp256k1.order - (Secp256k1.order - sig.s) = sig.s := by omega
  show Signature.mk sig.r (min _ (Secp256k1.order - (Secp256k1.order - sig.s))) = _
  rw [back, Nat.min_comm]
  rfl

/-- The order is odd, so that exactly one signature of a pair is high. -/
theorem isHigh_reflect (h : inRange sig.s) : sig.reflect.isHigh = !sig.isHigh := by
  rw [inRange_iff] at h
  have odd : Secp256k1.order % 2 = 1 := by decide
  -- no number is its own negation, so that one of the two lies above half of the order
  by_cases high : Secp256k1.order < 2 * sig.s
  · have reflected : ¬ Secp256k1.order < 2 * (Secp256k1.order - sig.s) := by omega
    simp only [isHigh, reflect, high, reflected, decide_true, decide_false, Bool.not_true]
  · have reflected : Secp256k1.order < 2 * (Secp256k1.order - sig.s) := by omega
    simp only [isHigh, reflect, high, reflected, decide_true, decide_false, Bool.not_false]

/-- It makes no difference that half of the order is rounded down. -/
theorem isHigh_eq (sig : Signature) : sig.isHigh = decide (Secp256k1.order / 2 < sig.s) := by
  have odd : Secp256k1.order % 2 = 1 := by decide
  rw [isHigh, decide_eq_decide]
  omega

/-- The lower signature of a pair is the reflected one exactly if the other one is high. -/
theorem low_eq (sig : Signature) : sig.low = if sig.isHigh then sig.reflect else sig := by
  unfold low reflect isHigh
  by_cases high : Secp256k1.order < 2 * sig.s
  · rw [if_pos (decide_eq_true high), Nat.min_eq_right (by omega)]
  · rw [if_neg (by simpa using high), Nat.min_eq_left (by omega)]

end Signature

/-! ### Libraries -/

namespace SignatureLibrary

/-- What the contract relies on.  Nothing is said of the keys that are recovered. -/
structure IsLawful (lib : SignatureLibrary) : Prop where
  /-- Two words are a signature exactly if both lie strictly between zero and the order. -/
  read_eq (r s : Word) : lib.read (r.toBytes ++ s.toBytes) =
    if (0 < r.toNat ∧ r.toNat < Secp256k1.order) ∧ 0 < s.toNat ∧ s.toNat < Secp256k1.order then
      some { r := r.toNat, s := s.toNat }
    else none
  /-- The second number is negated exactly if it is more than half of the order. -/
  normalize_eq (sig : Signature) : 0 < sig.s → sig.s < Secp256k1.order →
    lib.normalize sig =
      if Secp256k1.order / 2 < sig.s then some { sig with s := Secp256k1.order - sig.s } else none

/-- A signature whose second number is in range is replaced by the lower one of its pair, and the
    parity changes if that is the other one. -/
theorem IsLawful.normalized_eq {lib : SignatureLibrary} (h : lib.IsLawful) (sig : Signature)
    (hs : Signature.inRange sig.s) (odd : Bool) :
    lib.normalized sig odd = (sig.low, odd ^^ sig.isHigh) := by
  have range := Signature.inRange_iff.1 hs
  rw [normalized, h.normalize_eq sig range.1 range.2, Signature.low_eq, Signature.isHigh_eq]
  by_cases high : Secp256k1.order / 2 < sig.s
  · rw [if_pos high, if_pos (decide_eq_true high), decide_eq_true high, Bool.xor_true]
    rfl
  · rw [if_neg high, if_neg (by simpa using high), decide_eq_false high, Bool.xor_false]

end SignatureLibrary

/-! ### Input -/

/-- A digest, a number for the parity, and the two numbers of a signature as input. -/
def recoveryInput (digest v r s : Word) : Bytes :=
  digest.toBytes ++ v.toBytes ++ r.toBytes ++ s.toBytes

/-- Four words are the whole input. -/
theorem size_recoveryInput (digest v r s : Word) : (recoveryInput digest v r s).size = 128 := by
  simp only [recoveryInput, Array.size_append, Word.size_toBytes]

/-- The windows of the input are the words that it was made of. -/
theorem window_recoveryInput (digest v r s : Word) :
    (recoveryInput digest v r s).window 0 32 = digest.toBytes ∧
      (recoveryInput digest v r s).window 32 32 = v.toBytes ∧
      (recoveryInput digest v r s).window 64 64 = r.toBytes ++ s.toBytes := by
  have first := Bytes.window_middle #[] digest.toBytes (v.toBytes ++ r.toBytes ++ s.toBytes)
  have second := Bytes.window_middle digest.toBytes v.toBytes (r.toBytes ++ s.toBytes)
  have rest := Bytes.window_middle (digest.toBytes ++ v.toBytes) (r.toBytes ++ s.toBytes) #[]
  simp only [Array.size_append, Word.size_toBytes, Array.size_empty, Array.empty_append,
    Array.append_empty, ← Array.append_assoc] at first second rest
  exact ⟨first, second, rest⟩

namespace SignatureLibrary

/-- The key for a signature with a parity: the library is asked about the lower one of its pair. -/
def keyOf (lib : SignatureLibrary) (digest : Bytes) (sig : Signature) (odd : Bool) : Option Bytes :=
  lib.recoverKey digest sig.low (odd ^^ sig.isHigh)

/-- The parity changes twice: with the signature, and with the half that the signature is in. -/
theorem keyOf_reflect (lib : SignatureLibrary) (digest : Bytes) {sig : Signature}
    (hs : Signature.inRange sig.s) (odd : Bool) :
    lib.keyOf digest sig.reflect (!odd) = lib.keyOf digest sig odd := by
  rw [keyOf, keyOf, Signature.low_reflect hs, Signature.isHigh_reflect hs, Bool.not_xor_not]

/-- The account that four words lead to. -/
theorem signer_recoveryInput {lib : SignatureLibrary} (h : lib.IsLawful) (digest v r s : Word) :
    lib.signer (recoveryInput digest v r s) =
      (parity? v).bind fun odd =>
        if Signature.inRange r.toNat ∧ Signature.inRange s.toNat then
          (lib.keyOf digest.toBytes { r := r.toNat, s := s.toNat } odd).map Address.ofPublicKey
        else none := by
  obtain ⟨first, second, rest⟩ := window_recoveryInput digest v r s
  unfold signer
  rw [first, second, rest, Word.ofBytes_toBytes, h.read_eq]
  cases parity? v with
  | none => rfl
  | some odd =>
    -- whether there is a signature depends on both numbers, and on nothing else
    simp only [Signature.inRange_iff, Option.bind_eq_bind, Option.bind_some]
    by_cases range : (0 < r.toNat ∧ r.toNat < Secp256k1.order) ∧
        0 < s.toNat ∧ s.toNat < Secp256k1.order
    · have asked := h.normalized_eq { r := r.toNat, s := s.toNat }
        (Signature.inRange_iff.2 range.2) odd
      rw [if_pos range, if_pos range, Option.bind_some, asked, Option.map_eq_bind]
      rfl
    · rw [if_neg range, if_neg range, Option.bind_none]

/-- Both signatures of a pair lead to one account, if the parity changes with them. -/
theorem signer_reflect {lib : SignatureLibrary} (h : lib.IsLawful) (digest r : Word) {v s : Word}
    (hv : v = 27 ∨ v = 28) (hs : Signature.inRange s.toNat) :
    lib.signer (recoveryInput digest (55 - v) r (BitVec.ofNat 256 (Secp256k1.order - s.toNat))) =
      lib.signer (recoveryInput digest v r s) := by
  have swapped : parity? (55 - v) = (parity? v).map not := by
    rcases hv with rfl | rfl
    · rfl
    · rfl
  have negated : (BitVec.ofNat 256 (Secp256k1.order - s.toNat)).toNat =
      Secp256k1.order - s.toNat := by
    rw [BitVec.toNat_ofNat]
    refine Nat.mod_eq_of_lt (Nat.lt_of_le_of_lt (Nat.sub_le _ _) ?_)
    decide
  rw [signer_recoveryInput h, signer_recoveryInput h, swapped, negated]
  cases parity? v with
  | none => rfl
  | some odd =>
    -- both numbers are in range or out of range in both inputs, and the keys are the same
    have image : ({ r := r.toNat, s := Secp256k1.order - s.toNat } : Signature) =
        Signature.reflect { r := r.toNat, s := s.toNat } := rfl
    simp only [Option.map_some, Option.bind_some, hs, Signature.inRange_order_sub hs]
    rw [image, keyOf_reflect _ _ hs]

/-- Input past four words is not looked at, and missing input counts as zero. -/
theorem signer_congr (lib : SignatureLibrary) {input input' : Bytes}
    (same : ∀ i < 128, input.getD i 0 = input'.getD i 0) :
    lib.signer input = lib.signer input' := by
  have windows (offset len : Nat) (inside : offset + len ≤ 128) :
      input.window offset len = input'.window offset len :=
    Bytes.window_congr fun i hi => same (offset + i) (by omega)
  unfold signer
  rw [windows 0 32 (by decide), windows 32 32 (by decide), windows 64 64 (by decide)]

/-- The library for the curve keeps what the contract relies on. -/
theorem secp256k1_isLawful : secp256k1.IsLawful where
  read_eq r s := by
    have first := Bytes.extract_middle #[] r.toBytes s.toBytes
    have second := Bytes.extract_middle r.toBytes s.toBytes #[]
    simp only [Word.size_toBytes, Array.size_empty, Array.empty_append, Array.append_empty]
      at first second
    simp only [secp256k1, Signature.ofBytes?, first, second, Word.toNat_toBytes, Bool.and_eq_true,
      Signature.inRange_iff]
  normalize_eq sig _ _ := by
    simp only [secp256k1, Signature.lower?, Signature.isHigh_eq, decide_eq_true_eq]
    rfl

end SignatureLibrary

/-! ### The contract -/

/-- The contract takes its price and writes the account as a word. -/
theorem run_recoverWith (lib : SignatureLibrary) (input : Bytes) (gas : Nat) :
    (recoverWith lib).run input gas =
      if 3000 ≤ gas then
        .ok {
          gasUsed := 3000
          output := (lib.signer input).elim #[] fun a => a.toWord.toBytes }
      else .error .outOfGas := by
  have output :
      lib.recoverOutput input = (lib.signer input).elim #[] fun a => a.toWord.toBytes := by
    unfold SignatureLibrary.recoverOutput
    cases lib.signer input with
    | none => rfl
    | some a => rfl
  rw [← output, recoverWith, ofFunction]

/-- With any library that keeps what the contract relies on, and under any gas limit: the contract
    gives the same answer to `(r, s)` with 27 or 28 and to `(r, n - s)` with the other one of these.
    If both numbers are in range and there is the gas, this is the account that belongs to the key
    that the library recovers from the lower signature of the pair.  The answer to any input is that
    to its first 128 bytes, where missing ones count as zero. -/
theorem recovery_symmetric {lib : SignatureLibrary} (hlib : lib.IsLawful) (gas : Nat) :
    (∀ digest v r s : Word, v = 27 ∨ v = 28 → 1 ≤ s.toNat → s.toNat ≤ Secp256k1.order - 1 →
      (recoverWith lib).run
          (recoveryInput digest (55 - v) r (BitVec.ofNat 256 (Secp256k1.order - s.toNat))) gas =
        (recoverWith lib).run (recoveryInput digest v r s) gas) ∧
    (∀ (digest r s : Word) (odd : Bool), 3000 ≤ gas →
      1 ≤ r.toNat → r.toNat ≤ Secp256k1.order - 1 → 1 ≤ s.toNat → s.toNat ≤ Secp256k1.order - 1 →
      (recoverWith lib).run (recoveryInput digest (if odd then 28 else 27) r s) gas =
        .ok {
          gasUsed := 3000
          output :=
            (lib.recoverKey digest.toBytes
              { r := r.toNat, s := min s.toNat (Secp256k1.order - s.toNat) }
              (odd ^^ decide (Secp256k1.order / 2 < s.toNat))).elim #[]
              fun key => (Address.ofPublicKey key).toWord.toBytes }) ∧
    ∀ input input' : Bytes, (∀ i < 128, input.getD i 0 = input'.getD i 0) →
      (recoverWith lib).run input gas = (recoverWith lib).run input' gas := by
  refine ⟨?_, ?_, ?_⟩
  -- the negative of the second number goes with the other parity
  · intro digest v r s hv positive below
    have hs : Signature.inRange s.toNat := Signature.inRange_iff.2 (by omega)
    rw [run_recoverWith, run_recoverWith, SignatureLibrary.signer_reflect hlib digest r hv hs]
  · -- the number in the input stands for the parity, and the library is asked about the lower one
    intro digest r s odd enough positive below positive' below'
    have number : parity? (if odd then 28 else 27) = some odd := by
      cases odd
      · rfl
      · rfl
    have range : Signature.inRange r.toNat ∧ Signature.inRange s.toNat :=
      ⟨Signature.inRange_iff.2 (by omega), Signature.inRange_iff.2 (by omega)⟩
    have account := SignatureLibrary.signer_recoveryInput hlib digest (if odd then 28 else 27) r s
    rw [number, Option.bind_some, if_pos range, SignatureLibrary.keyOf, Signature.low,
      Signature.isHigh_eq] at account
    rw [run_recoverWith, if_pos enough, account]
    cases lib.recoverKey _ _ _ with
    | none => rfl
    | some key => rfl
  · intro input input' same
    rw [run_recoverWith, run_recoverWith, lib.signer_congr same]

/-- The digest zero, signed with the key 1 and the nonce 1: the nonce point is the generator, both
    numbers are its first coordinate, and the public key is the generator again. -/
theorem recoverKey_generator :
    let x := 0x79be667ef9dcbbac55a06295ce870b07029bfcdb2dce28d959f2815b16f81798
    let y := 0x483ada7726a3c4655da4fbfc0e1108a8fd17b448a68554199c47d08ffb10d4b8
    SignatureLibrary.secp256k1.recoverKey (Word.toBytes 0) { r := x, s := x } false =
      some (Bytes.ofNat 32 x ++ Bytes.ofNat 32 y) := by
  intro x y
  have digest : Bytes.toNat (Word.toBytes 0) = 0 := Word.toNat_toBytes 0
  have nonce : Secp256k1.liftX x false = some Secp256k1.generator := by decide +kernel
  have inverse : Secp256k1.invMod Secp256k1.order x * x % Secp256k1.order = 1 := by decide +kernel
  have sum : (Secp256k1.generator.mul 0).add (Secp256k1.generator.mul 1) = .affine x y := by
    decide +kernel
  simp only [SignatureLibrary.secp256k1, Signature.publicKey?, Secp256k1.recover, digest, nonce,
    inverse, sum, Option.bind_eq_bind, Option.bind_some, Nat.zero_mod, Nat.mul_zero, Nat.sub_zero,
    Nat.mod_self]

/-- Both signatures of that pair lead to the account of the key, with more input after them or
    without. -/
theorem recovery_symmetric_on_generator :
    let r : Word := 0x79be667ef9dcbbac55a06295ce870b07029bfcdb2dce28d959f2815b16f81798
    let y := 0x483ada7726a3c4655da4fbfc0e1108a8fd17b448a68554199c47d08ffb10d4b8
    let negated : Word := BitVec.ofNat 256 (Secp256k1.order - r.toNat)
    let account := Address.ofPublicKey (Bytes.ofNat 32 r.toNat ++ Bytes.ofNat 32 y)
    let answer : Except PrecompileError PrecompileOutput :=
      .ok { gasUsed := 3000, output := account.toWord.toBytes }
    SignatureLibrary.secp256k1.IsLawful ∧ 1 ≤ r.toNat ∧ r.toNat ≤ Secp256k1.order - 1 ∧
      recover.run (recoveryInput 0 27 r r) 3000 = answer ∧
      recover.run (recoveryInput 0 28 r negated) 3000 = answer ∧
      recover.run (recoveryInput 0 28 r negated ++ #[1, 2, 3]) 3000 = answer := by
  intro r y negated account answer
  obtain ⟨pair, found, looked⟩ := recovery_symmetric SignatureLibrary.secp256k1_isLawful 3000
  have positive : 1 ≤ r.toNat := by decide
  have below : r.toNat ≤ Secp256k1.order - 1 := by decide
  have low : recover.run (recoveryInput 0 27 r r) 3000 = answer := by
    have smaller : min r.toNat (Secp256k1.order - r.toNat) = r.toNat := by decide
    have half : decide (Secp256k1.order / 2 < r.toNat) = false := by decide
    have reading : r.toNat =
        0x79be667ef9dcbbac55a06295ce870b07029bfcdb2dce28d959f2815b16f81798 := by decide
    have recovered := recoverKey_generator
    rw [← reading] at recovered
    have answered := found 0 r r false (Nat.le_refl _) positive below positive below
    -- the first number is the smaller one, so the library is asked about it as it stands
    rw [smaller, half, Bool.xor_false, recovered] at answered
    exact answered
  have high : recover.run (recoveryInput 0 28 r negated) 3000 = answer :=
    (pair 0 27 r r (.inl rfl) positive below).trans low
  have longer : recover.run (recoveryInput 0 28 r negated ++ #[1, 2, 3]) 3000 = answer := by
    refine (looked _ (recoveryInput 0 28 r negated) fun i hi => ?_).trans high
    rw [Array.getD_eq_getD_getElem?, Array.getD_eq_getD_getElem?,
      Array.getElem?_append_left (by rwa [size_recoveryInput])]
  exact ⟨SignatureLibrary.secp256k1_isLawful, positive, below, low, high, longer⟩

end Evm.Precompile
