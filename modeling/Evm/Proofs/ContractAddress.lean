import Evm.ContractAddress
import Evm.Counter
import Evm.Proofs.Rlp

namespace Evm

/-!
# Origins of contracts

The address of a new contract is derived from its creator and a nonce that the creator uses up, or
from its creator, a salt and the init code.  What is hashed tells all of these, of the init code its
digest.

* `Origin`, `Origin.preimage`, `Origin.address` — what an address is derived from, and how.
* `Address.createPreimage_eq` — the creator and the nonce are hashed as an encoded list.
* `Address.create2Preimage_inj` — the parts of the other preimage stand at fixed places.
* `origins_told_apart` — different origins share an address only if their preimages collide.
-/

/-! ### Origins -/

/-- What the address of a new contract is derived from. -/
inductive Origin where
  | numbered (creator : Address) (nonce : Nat)
  | salted (creator : Address) (salt : Word) (initCode : Bytes)
  deriving DecidableEq

namespace Origin

/-- Where it leads. -/
def address : Origin → Address
  | numbered creator nonce => .ofCreate creator nonce
  | salted creator salt initCode => .ofCreate2 creator salt initCode

/-- What is hashed for it. -/
def preimage : Origin → Bytes
  | numbered creator nonce => Address.createPreimage creator nonce
  | salted creator salt initCode => Address.create2Preimage creator salt (keccak256 initCode)

/-- What the preimage is made of: of the init code only its digest. -/
def parts : Origin → (Address × Nat) ⊕ (Address × Word × Word)
  | numbered creator nonce => .inl (creator, nonce)
  | salted creator salt initCode => .inr (creator, salt, keccak256 initCode)

/-- The nonce, if there is one, is a 64-bit number. -/
def IsCounted : Origin → Prop
  | numbered _ nonce => nonce ≤ Counter.limit
  | salted .. => True

/-- The origin that a list of creator and nonce stands for. -/
def ofItem : Rlp.Item → Option Origin
  | .list [.bytes creator, .bytes nonce] =>
    (Address.ofBytes? creator).map fun creator => numbered creator nonce.toNat
  | _ => none

/-- The address is the low 20 bytes of the digest. -/
theorem address_eq (o : Origin) : o.address = (keccak256 o.preimage).toAddress := by
  cases o <;> rfl

end Origin

/-- Two byte strings whose digests end in the same 20 bytes. -/
def Collide (x y : Bytes) : Prop := x ≠ y ∧ (keccak256 x).toAddress = (keccak256 y).toAddress

/-- Words with equal bytes are equal. -/
theorem Word.toBytes_inj {a b : Word} : a.toBytes = b.toBytes ↔ a = b := by
  refine ⟨fun h => ?_, congrArg toBytes⟩
  rw [← ofBytes_toBytes a, h, ofBytes_toBytes]

namespace Address

/-- Addresses with equal bytes are equal. -/
theorem toBytes_inj {a b : Address} : a.toBytes = b.toBytes ↔ a = b := by
  refine ⟨fun h => ?_, congrArg toBytes⟩
  have read := ofBytes?_toBytes a
  rw [h, ofBytes?_toBytes] at read
  exact (Option.some.inj read).symm

/-! ### Creator and nonce -/

/-- Without bytes in front a shorter string of the same digits is left. -/
theorem extract_ofNat {width skipped : Nat} (h : skipped ≤ width) (n : Nat) :
    (Bytes.ofNat width n).extract skipped width = Bytes.ofNat (width - skipped) n := by
  apply Array.ext
  · rw [Array.size_extract, Bytes.size_ofNat, Bytes.size_ofNat]
    omega
  · intro i hi hi'
    rw [Bytes.size_ofNat] at hi'
    simp only [Array.getElem_extract, Bytes.ofNat, Array.getElem_ofFn]
    rw [show width - 1 - (skipped + i) = width - skipped - 1 - i by omega]

/-- What is left of a 64-bit nonce is its shortest form. -/
theorem nonceDigits_eq {nonce : Nat} (h : nonce ≤ Counter.limit) :
    nonceDigits nonce = Rlp.minimalBytes nonce := by
  unfold nonceDigits leadingZeros Rlp.minimalBytes
  by_cases hzero : nonce = 0
  · subst hzero
    rfl
  · have bits := (Nat.log2_lt (k := 64) hzero).2 (Nat.lt_succ_of_le h)
    rw [if_neg hzero, if_neg hzero, extract_ofNat (by omega)]
    congr 1
    omega

/-- The digits of a nonce fit eight bytes. -/
theorem size_nonceDigits_le (nonce : Nat) : (nonceDigits nonce).size ≤ 8 := by
  rw [nonceDigits, Array.size_extract]
  omega

/-- The length in the header of the list is the one that the nonce takes. -/
theorem size_nonceItem (digits : Bytes) : (nonceItem digits).size = nonceSize digits := by
  unfold nonceItem nonceSize
  by_cases h : isBare digits = true
  · rw [if_pos h, if_pos h]
    exact of_decide_eq_true (Bool.and_eq_true _ _ ▸ h).1
  · rw [if_neg h, if_neg h, Array.size_append]
    rfl

/-- The short form of the nonce is its string encoding. -/
theorem nonceItem_eq {digits : Bytes} (h : digits.size ≤ 55) :
    nonceItem digits = Rlp.encodeBytes digits := by
  have bare : isBare digits = true ↔ digits.size = 1 ∧ digits.getD 0 0 < 0x80 := by
    rw [isBare, Bool.and_eq_true, decide_eq_true_iff, decide_eq_true_iff]
  rw [nonceItem, Rlp.encodeBytes, Rlp.header, if_pos h]
  by_cases hbare : isBare digits = true
  · rw [if_pos hbare, if_pos (bare.1 hbare)]
  · rw [if_neg hbare, if_neg (mt bare.2 hbare)]

/-- An encoded nonce takes nine bytes at most. -/
theorem nonceSize_le (nonce : Nat) : nonceSize (nonceDigits nonce) ≤ 9 := by
  have := size_nonceDigits_le nonce
  unfold nonceSize
  split <;> omega

/-- What is hashed is the encoding of the list of creator and nonce. -/
theorem createPreimage_eq (creator : Address) (nonce : Nat) :
    createPreimage creator nonce =
      Rlp.encode (.list [.bytes creator.toBytes, .bytes (nonceDigits nonce)]) := by
  have digits := size_nonceDigits_le nonce
  have item := nonceSize_le nonce
  -- twenty bytes have a header of one
  have sender : Rlp.encodeBytes creator.toBytes = #[0x80 + 20] ++ creator.toBytes := by
    have size := size_toBytes creator
    rw [Rlp.encodeBytes, if_neg fun h => by omega, Rlp.header, size]
    rfl
  have payload : Rlp.encodeAll [.bytes creator.toBytes, .bytes (nonceDigits nonce)] =
      #[0x80 + 20] ++ creator.toBytes ++ nonceItem (nonceDigits nonce) := by
    rw [Rlp.encodeAll, Rlp.encode, sender, Rlp.encodeAll_singleton, Rlp.encode,
      nonceItem_eq (by omega)]
  have size : (Rlp.encodeAll [.bytes creator.toBytes, .bytes (nonceDigits nonce)]).size =
      21 + nonceSize (nonceDigits nonce) := by
    rw [payload, Array.size_append, Array.size_append, size_toBytes, size_nonceItem]
    rfl
  rw [Rlp.encode, size, payload, Rlp.header, if_pos (by omega)]
  simp [createPreimage]

/-- The preimage of a numbered creation is shorter than that of a salted one. -/
theorem size_createPreimage (creator : Address) (nonce : Nat) :
    (createPreimage creator nonce).size = 22 + nonceSize (nonceDigits nonce) := by
  simp only [createPreimage, Array.size_append, size_toBytes, size_nonceItem]
  rfl

/-- The list is read from what is hashed, and from nothing else. -/
theorem decode_eq_some_iff {creator : Address} {nonce : Nat} {b : Bytes} :
    Rlp.decode b = some (.list [.bytes creator.toBytes, .bytes (nonceDigits nonce)]) ↔
      b = createPreimage creator nonce := by
  rw [createPreimage_eq]
  apply Rlp.decode_eq_some_iff
  have := nonceSize_le nonce
  rw [← createPreimage_eq, size_createPreimage]
  omega

/-! ### Creator, salt and digest -/

/-- All parts have their fixed lengths. -/
theorem create2Preimage_inj {creator creator' : Address} {salt salt' hash hash' : Word} :
    create2Preimage creator salt hash = create2Preimage creator' salt' hash' ↔
      creator = creator' ∧ salt = salt' ∧ hash = hash' := by
  refine ⟨fun h => ?_, fun ⟨h, k, l⟩ => h ▸ k ▸ l ▸ rfl⟩
  obtain ⟨h, sameHash⟩ := Array.append_inj' h (by simp only [Word.size_toBytes])
  obtain ⟨h, sameSalt⟩ := Array.append_inj' h (by simp only [Word.size_toBytes])
  obtain ⟨-, sameCreator⟩ := Array.append_inj' h (by simp only [size_toBytes])
  exact ⟨toBytes_inj.1 sameCreator, Word.toBytes_inj.1 sameSalt, Word.toBytes_inj.1 sameHash⟩

/-- The preimage of a salted creation has one size. -/
theorem size_create2Preimage (creator : Address) (salt hash : Word) :
    (create2Preimage creator salt hash).size = 85 := by
  simp only [create2Preimage, Array.size_append, size_toBytes, Word.size_toBytes]
  rfl

end Address

/-! ### Origins are told apart -/

namespace Origin

open Address

/-- An origin with a nonce is read from its preimage. -/
theorem ofItem_decode (creator : Address) {nonce : Nat} (h : nonce ≤ Counter.limit) :
    (Rlp.decode (createPreimage creator nonce)).bind ofItem = some (numbered creator nonce) := by
  rw [Address.decode_eq_some_iff.2 rfl, Option.bind_some, ofItem, ofBytes?_toBytes, Option.map_some,
    nonceDigits_eq h, Bytes.toNat_minimalBytes]

/-- The preimage is made of its parts, and tells them. -/
theorem preimage_eq_iff {o o' : Origin} (ho : o.IsCounted) (ho' : o'.IsCounted) :
    o.preimage = o'.preimage ↔ o.parts = o'.parts := by
  -- a numbered preimage is shorter than a salted one
  have apart (creator creator' : Address) (nonce : Nat) (salt hash : Word) :
      createPreimage creator nonce ≠ create2Preimage creator' salt hash := by
    intro h
    have := congrArg Array.size h
    have := nonceSize_le nonce
    rw [size_createPreimage, size_create2Preimage] at *
    omega
  cases o with
  | numbered creator nonce =>
    cases o' with
    | numbered creator' nonce' =>
      constructor
      · intro h
        have read := ofItem_decode creator ho
        rw [show createPreimage creator nonce = createPreimage creator' nonce' from h,
          ofItem_decode creator' ho'] at read
        obtain ⟨rfl, rfl⟩ := Origin.numbered.inj (Option.some.inj read)
        rfl
      · intro h
        obtain ⟨rfl, rfl⟩ := Prod.mk.inj (Sum.inl.inj h)
        rfl
    | salted => exact iff_of_false (apart _ _ _ _ _) Sum.inl_ne_inr
  | salted creator salt initCode =>
    cases o' with
    | numbered => exact iff_of_false (apart _ _ _ _ _).symm Sum.inr_ne_inl
    | salted creator' salt' initCode' =>
      refine create2Preimage_inj.trans ?_
      simp only [parts, Sum.inr.injEq, Prod.mk.injEq]

/-- Two origins share an address if they have the same parts, or if their preimages collide. -/
theorem address_eq_iff {o o' : Origin} (ho : o.IsCounted) (ho' : o'.IsCounted) :
    o.address = o'.address ↔ o.parts = o'.parts ∨ Collide o.preimage o'.preimage := by
  rw [← preimage_eq_iff ho ho', address_eq, address_eq]
  by_cases same : o.preimage = o'.preimage
  · exact iff_of_true (congrArg (fun b => (keccak256 b).toAddress) same) (.inl same)
  · exact ⟨fun h => .inr ⟨same, h⟩, fun h => (h.resolve_left same).2⟩

end Origin

/-- The address of an origin is the low 20 bytes of the digest of its preimage.  For a creator and a
    64-bit nonce the preimage is the encoding of the list of both, the nonce in its shortest form:
    the list is read from it and from nothing else, and gives back the origin.  For any two origins,
    with a nonce or a salt, the preimages are the same exactly if creator, nonce, salt and digest of
    the init code are, and those of different kinds never are.  So two origins share an address only
    if these parts are the same, unless their preimages collide. -/
theorem origins_told_apart {o o' : Origin} (ho : o.IsCounted) (ho' : o'.IsCounted) :
    o.address = (keccak256 o.preimage).toAddress ∧
      (∀ creator nonce, o = .numbered creator nonce →
        ∃ digits : Bytes, digits.IsShortest nonce ∧
          let pair : Rlp.Item := .list [.bytes creator.toBytes, .bytes digits]
          o.preimage = Rlp.encode pair ∧ (∀ b, Rlp.decode b = some pair ↔ b = o.preimage) ∧
            (Rlp.decode o.preimage).bind Origin.ofItem = some o) ∧
      (o.preimage = o'.preimage ↔ o.parts = o'.parts) ∧
      (o.address = o'.address ↔ o.parts = o'.parts ∨ Collide o.preimage o'.preimage) := by
  refine ⟨o.address_eq, ?_, Origin.preimage_eq_iff ho ho', Origin.address_eq_iff ho ho'⟩
  rintro creator nonce rfl
  have shortest := Bytes.minimalBytes_isShortest nonce
  rw [← Address.nonceDigits_eq ho] at shortest
  exact ⟨_, shortest, Address.createPreimage_eq creator nonce,
    fun b => Address.decode_eq_some_iff, Origin.ofItem_decode creator ho⟩

/-- The last nonce that is a single byte and the first that has a header lead one creator to
    different addresses, unless the preimages collide. -/
theorem origins_told_apart_at_first_header :
    Origin.IsCounted (.numbered 7 0x7f) ∧ Origin.IsCounted (.numbered 7 0x80) ∧
      (Rlp.decode (Address.createPreimage 7 0x7f)).bind Origin.ofItem =
        some (.numbered 7 0x7f) ∧
      Address.createPreimage 7 0x7f ≠ Address.createPreimage 7 0x80 ∧
      (Address.ofCreate 7 0x7f = Address.ofCreate 7 0x80 →
        Collide (Address.createPreimage 7 0x7f) (Address.createPreimage 7 0x80)) := by
  have counted : Origin.IsCounted (.numbered 7 0x7f) := show 0x7f ≤ Counter.limit by decide
  have counted' : Origin.IsCounted (.numbered 7 0x80) := show 0x80 ≤ Counter.limit by decide
  obtain ⟨-, canonical, preimages, addresses⟩ := origins_told_apart counted counted'
  obtain ⟨-, -, -, -, read⟩ := canonical 7 0x7f rfl
  have parts : Origin.parts (.numbered 7 0x7f) ≠ Origin.parts (.numbered 7 0x80) := by decide
  exact ⟨counted, counted', read, fun h => parts (preimages.1 h),
    fun h => (addresses.1 h).resolve_left parts⟩

end Evm
