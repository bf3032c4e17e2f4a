import Evm.Proofs.Bytes

namespace Evm.Rlp

/-!
# Reading encodings

A reader of the recursive length encoding that takes shortest forms only: a single byte below 128
has no header, a length up to 55 stands in the header byte, and a larger one has no zero byte in
front.

* `split` — the first item of a byte string, as its payload, and what follows it.
* `decodeAll`, `decode` — items one after the other, and a single item.
* `decode_eq_some_iff` — each item is read from its encoding, and from nothing else.
-/

/-! ### The reader -/

/-- The length that a header byte tells, `code` above its base, by itself or with the bytes after
    it. -/
def readLength (code : Nat) (rest : List UInt8) : Option (Nat × List UInt8) :=
  if code ≤ 55 then some (code, rest)
  else
    let digits : Bytes := (rest.take (code - 55)).toArray
    if digits.size = code - 55 ∧ digits[0]? ≠ some 0 ∧ 55 < digits.toNat then
      some (digits.toNat, rest.drop (code - 55))
    else none

/-- Where the header bytes of strings and of lists start. -/
def headerBase (isList : Bool) : UInt8 := if isList then 0xc0 else 0x80

/-- Only a byte below 128 does without a header. -/
def HasHeader (isList : Bool) (payload : Bytes) : Prop :=
  isList = true ∨ ¬(payload.size = 1 ∧ payload.getD 0 0 < 0x80)

instance (isList : Bool) (payload : Bytes) : Decidable (HasHeader isList payload) :=
  inferInstanceAs (Decidable (_ ∨ _))

/-- The payload of the length that follows, and what comes after it. -/
def splitPayload (isList : Bool) (code : Nat) (b : List UInt8) :
    Option (Bool × Bytes × List UInt8) :=
  (readLength code b).bind fun (len, rest) =>
    let payload : Bytes := (rest.take len).toArray
    if payload.size = len ∧ HasHeader isList payload then some (isList, payload, rest.drop len)
    else none

/-- Whether the first item is a list, its payload and what follows it. -/
def split : List UInt8 → Option (Bool × Bytes × List UInt8)
  | [] => none
  | first :: rest =>
    if first < 0x80 then some (false, #[first], rest)
    else
      let isList := decide (0xc0 ≤ first)
      splitPayload isList (first.toNat - (headerBase isList).toNat) rest

/-- The items that stand one after the other; no more than `fuel` of them inside or after one
    another. -/
def decodeAll : (fuel : Nat) → List UInt8 → Option (List Item)
  | _, [] => some []
  | 0, _ :: _ => none
  | fuel + 1, first :: rest =>
    (split (first :: rest)).bind fun (isList, payload, rest) =>
      let item? := if isList then (decodeAll fuel payload.toList).map .list else some (.bytes payload)
      item?.bind fun item => (decodeAll fuel rest).map (item :: ·)

/-- The item that a byte string encodes; each item takes at least one byte. -/
def decode (b : Bytes) : Option Item :=
  match decodeAll b.size b.toList with
  | some [item] => some item
  | _ => none

/-! ### Lengths -/

/-- What a header byte adds to its base. -/
def lengthCode (len : Nat) : Nat := if len ≤ 55 then len else 55 + (minimalBytes len).size

/-- What follows the header byte. -/
def lengthDigits (len : Nat) : Bytes := if len ≤ 55 then #[] else minimalBytes len

/-- A header is the length code above the base, then the digits of a long length. -/
theorem header_eq (base : UInt8) (len : Nat) :
    header base len = #[base + UInt8.ofNat (lengthCode len)] ++ lengthDigits len := by
  unfold header lengthCode lengthDigits
  split
  · rfl
  · rw [UInt8.ofNat_add, ← UInt8.add_assoc]
    rfl

/-- The length code of a size that fits eight bytes leaves room for the base. -/
theorem lengthCode_le {len : Nat} (h : len < 2 ^ 64) : lengthCode len ≤ 63 := by
  unfold lengthCode
  split
  · omega
  · have := Bytes.size_minimalBytes_le (Bytes.toNat_ofNat 8 len |>.trans (Nat.mod_eq_of_lt h))
    rw [Bytes.size_ofNat] at this
    omega

/-- A length is read from its shortest form, and from nothing else. -/
theorem readLength_eq_some_iff {code len : Nat} {rest rest' : List UInt8} :
    readLength code rest = some (len, rest') ↔
      code = lengthCode len ∧ rest = (lengthDigits len).toList ++ rest' := by
  unfold readLength lengthCode lengthDigits
  constructor
  · intro h
    -- a short length is its own code, a long one is the number of digits behind it
    by_cases hcode : code ≤ 55
    · rw [if_pos hcode] at h
      obtain ⟨rfl, rfl⟩ := Prod.mk.inj (Option.some.inj h)
      rw [if_pos hcode, if_pos hcode]
      exact ⟨rfl, rfl⟩
    · rw [if_neg hcode] at h
      obtain ⟨digits, hdigits⟩ : ∃ digits, digits = (rest.take (code - 55)).toArray := ⟨_, rfl⟩
      simp only [← hdigits, Option.ite_none_right_eq_some, Option.some.injEq, Prod.mk.injEq] at h
      obtain ⟨⟨size, lead, long⟩, rfl, rfl⟩ := h
      -- the reader refuses a leading zero, and that is what makes the digits the shortest
      have shortest := Bytes.isShortest_iff.1 ((Bytes.isShortest_toNat_iff digits).2 lead)
      rw [if_neg (by omega), if_neg (by omega), ← shortest]
      refine ⟨by omega, ?_⟩
      rw [hdigits, List.take_append_drop]
  · rintro ⟨rfl, rfl⟩
    by_cases hlen : len ≤ 55
    · rw [if_pos hlen, if_pos hlen, if_pos hlen]
      rfl
    · have reading := Bytes.toNat_minimalBytes len
      obtain ⟨digits, hdigits⟩ : ∃ digits, digits = minimalBytes len := ⟨_, rfl⟩
      rw [if_neg hlen, if_neg hlen, ← hdigits]
      rw [← hdigits] at reading
      have lead := (Bytes.isShortest_toNat_iff digits).1
        (Bytes.isShortest_iff.2 (reading.symm ▸ hdigits))
      have long : digits.size ≠ 0 := by
        intro h
        rw [Array.eq_empty_of_size_eq_zero h] at reading
        exact hlen (reading ▸ Nat.zero_le 55)
      have taken : ((digits.toList ++ rest').take digits.size).toArray = digits := by
        rw [List.take_left' Array.length_toList]
      rw [if_neg (by omega), Nat.add_sub_cancel_left, taken]
      refine (if_pos ⟨rfl, lead, by omega⟩).trans ?_
      rw [reading, List.drop_left' Array.length_toList]

/-! ### Payloads -/

/-- A payload with its header, if it has one. -/
def frame (isList : Bool) (payload : Bytes) : Bytes :=
  if HasHeader isList payload then header (headerBase isList) payload.size ++ payload else payload

/-- Whether an item is a list. -/
def Item.isList : Item → Bool
  | .bytes _ => false
  | .list _ => true

/-- What is encoded behind the header. -/
def Item.payload : Item → Bytes
  | .bytes b => b
  | .list items => encodeAll items

/-- An encoding is the payload in its frame. -/
theorem encode_eq (item : Item) : encode item = frame item.isList item.payload := by
  cases item with
  | bytes b =>
    rw [encode, encodeBytes, frame]
    by_cases h : b.size = 1 ∧ b.getD 0 0 < 0x80
    · exact (if_pos h).trans (if_neg fun k => k.elim Bool.false_ne_true fun k => k h).symm
    · exact (if_neg h).trans (if_pos (.inr h)).symm
  | list items =>
    rw [encode, frame, if_pos (.inl rfl)]
    rfl

/-- The two bases of the headers. -/
theorem toNat_headerBase (isList : Bool) :
    (headerBase isList).toNat = if isList then 192 else 128 := by
  cases isList <;> rfl

/-- A header byte tells its kind and its code. -/
theorem headerByte {code : Nat} (hcode : code ≤ 63) (isList : Bool) :
    let first := headerBase isList + UInt8.ofNat code
    ¬first < 0x80 ∧ decide (0xc0 ≤ first) = isList ∧
      first.toNat - (headerBase isList).toNat = code := by
  intro first
  have base := toNat_headerBase isList
  -- no carry leaves the byte, for the base leaves room for the code
  have value : first.toNat = (headerBase isList).toNat + code := by
    rw [UInt8.toNat_add, UInt8.toNat_ofNat']
    split at base <;> omega
  have listed : 0xc0 ≤ first ↔ isList = true := by
    rw [UInt8.le_iff_toNat_le]
    show 192 ≤ first.toNat ↔ _
    split at base
    · exact iff_of_true (by omega) ‹_›
    · exact iff_of_false (by omega) ‹_›
  refine ⟨fun h => ?_, ?_, by omega⟩
  · have : first.toNat < 128 := UInt8.lt_iff_toNat_lt.1 h
    split at base <;> omega
  · exact Bool.eq_iff_iff.2 (decide_eq_true_iff.trans listed)

/-- A byte from 128 on is the header byte of its kind and code. -/
theorem eq_headerByte {first : UInt8} (h : ¬first < 0x80) :
    let isList := decide (0xc0 ≤ first)
    first = headerBase isList + UInt8.ofNat (first.toNat - (headerBase isList).toNat) := by
  intro isList
  have base := toNat_headerBase isList
  have high : ¬first.toNat < 128 := fun k => h (UInt8.lt_iff_toNat_lt.2 k)
  -- which base it is, the byte itself tells
  have listed : isList = true ↔ 192 ≤ first.toNat :=
    decide_eq_true_iff.trans UInt8.le_iff_toNat_le
  have := first.toNat_lt
  apply UInt8.toNat_inj.1
  rw [UInt8.toNat_add, UInt8.toNat_ofNat']
  split at base
  · have := listed.1 ‹_›
    omega
  · omega

/-- What it means that a payload is split off, for a header byte of the given kind. -/
theorem splitPayload_eq_some_iff {isList kind : Bool} {code : Nat} {b rest : List UInt8}
    {payload : Bytes} :
    splitPayload isList code b = some (kind, payload, rest) ↔
      kind = isList ∧ HasHeader isList payload ∧ code = lengthCode payload.size ∧
        b = (lengthDigits payload.size).toList ++ (payload.toList ++ rest) := by
  unfold splitPayload
  constructor
  · intro h
    obtain ⟨⟨len, after⟩, length, taken⟩ := Option.bind_eq_some_iff.1 h
    simp only [Option.ite_none_right_eq_some, Option.some.injEq, Prod.mk.injEq] at taken
    obtain ⟨⟨size, header⟩, rfl, rfl, rfl⟩ := taken
    rw [size, List.take_append_drop]
    exact ⟨rfl, header, readLength_eq_some_iff.1 length⟩
  · rintro ⟨rfl, header, rfl, rfl⟩
    have length := readLength_eq_some_iff.2
      ⟨rfl, Eq.refl ((lengthDigits payload.size).toList ++ (payload.toList ++ rest))⟩
    have taken : ((payload.toList ++ rest).take payload.size).toArray = payload := by
      rw [List.take_left' Array.length_toList]
    rw [length, Option.bind_some]
    simp only [taken, true_and]
    rw [if_pos header, List.drop_left' Array.length_toList]

/-- A payload is read from its frame. -/
theorem split_frame {isList : Bool} {payload : Bytes} (hsize : payload.size < 2 ^ 64)
    (rest : List UInt8) :
    split ((frame isList payload).toList ++ rest) = some (isList, payload, rest) := by
  unfold frame
  by_cases h : HasHeader isList payload
  · obtain ⟨low, kind, code⟩ := headerByte (lengthCode_le hsize) isList
    have framed : (header (headerBase isList) payload.size ++ payload).toList ++ rest =
        (headerBase isList + UInt8.ofNat (lengthCode payload.size)) ::
          ((lengthDigits payload.size).toList ++ (payload.toList ++ rest)) := by
      simp [header_eq]
    rw [if_pos h, framed, split, if_neg low]
    simp only [kind, code]
    exact splitPayload_eq_some_iff.2 ⟨rfl, h, rfl, rfl⟩
  · -- a single byte stands for itself
    obtain ⟨hkind, hbare⟩ := not_or.1 h
    obtain ⟨single, low⟩ := Decidable.not_not.1 hbare
    obtain ⟨x, rfl⟩ := Array.size_eq_one_iff.1 single
    rw [if_neg h, eq_false_of_ne_true hkind]
    exact if_pos low

/-- What is read as a payload is its frame. -/
theorem eq_frame_of_split {b rest : List UInt8} {isList : Bool} {payload : Bytes}
    (h : split b = some (isList, payload, rest)) : b = (frame isList payload).toList ++ rest := by
  cases b with
  | nil => cases h
  | cons first after =>
    rw [split] at h
    by_cases hlow : first < 0x80
    -- a byte on its own, without a header
    · rw [if_pos hlow] at h
      cases h
      have bare : ¬HasHeader false #[first] :=
        fun k => k.elim Bool.false_ne_true fun k => k ⟨rfl, hlow⟩
      rw [frame, if_neg bare]
      rfl
    · rw [if_neg hlow] at h
      obtain ⟨hkind, hheader, hcode, rfl⟩ := splitPayload_eq_some_iff.1 h
      have byte := eq_headerByte hlow
      simp only at byte
      rw [hcode, ← hkind] at byte
      rw [← hkind] at hheader
      rw [frame, if_pos hheader, header_eq]
      simpa using byte

/-! ### Items -/

/-- A frame is never empty, and never shorter than what it holds; a list's is longer. -/
theorem size_frame (isList : Bool) (payload : Bytes) :
    0 < (frame isList payload).size ∧ payload.size ≤ (frame isList payload).size ∧
      (isList = true → payload.size < (frame isList payload).size) := by
  unfold frame
  split
  · rw [header_eq, Array.size_append, Array.size_append, List.size_toArray]
    simp only [List.length_cons, List.length_nil]
    omega
  · rename_i hbare
    obtain ⟨hkind, hbyte⟩ := not_or.1 hbare
    have := (Decidable.not_not.1 hbyte).1
    exact ⟨by omega, Nat.le_refl _, fun k => absurd k hkind⟩

/-- The item with a payload, its own items read with so much fuel. -/
def readItem (fuel : Nat) (isList : Bool) (payload : Bytes) : Option Item :=
  if isList then (decodeAll fuel payload.toList).map .list else some (.bytes payload)

/-- The first item is split off and read, and then the others are. -/
theorem decodeAll_succ (fuel : Nat) {b : List UInt8} (hb : b ≠ []) :
    decodeAll (fuel + 1) b = (split b).bind fun (isList, payload, rest) =>
      (readItem fuel isList payload).bind fun item => (decodeAll fuel rest).map (item :: ·) := by
  cases b with
  | nil => exact absurd rfl hb
  | cons first rest => rfl

/-- Items are read from their encodings, with fuel for each byte. -/
theorem decodeAll_encodeAll {fuel : Nat} {items : List Item}
    (hsize : (encodeAll items).size < 2 ^ 64) (hfuel : (encodeAll items).size ≤ fuel) :
    decodeAll fuel (encodeAll items).toList = some items := by
  induction fuel generalizing items with
  | zero =>
    cases items with
    | nil => rfl
    | cons item rest =>
      have := size_frame item.isList item.payload
      rw [encodeAll, encode_eq, Array.size_append] at hfuel
      omega
  | succ fuel ih =>
    cases items with
    | nil => rfl
    | cons item rest =>
      obtain ⟨positive, within, inside⟩ := size_frame item.isList item.payload
      rw [encodeAll, encode_eq] at hsize hfuel ⊢
      rw [Array.size_append] at hsize hfuel
      have read : readItem fuel item.isList item.payload = some item := by
        cases item with
        | bytes b => rfl
        | list items =>
          -- the header is a byte, so that the fuel covers the items inside
          have shorter : (encodeAll items).size < (frame true (encodeAll items)).size := inside rfl
          have known : (frame true (encodeAll items)).size + _ ≤ fuel + 1 := hfuel
          show (decodeAll fuel (encodeAll items).toList).map Item.list = _
          rw [ih (Nat.lt_of_le_of_lt within (by omega)) (by omega)]
          rfl
      have nonempty : (frame item.isList item.payload ++ encodeAll rest).toList ≠ [] := by
        rw [← List.length_pos_iff, Array.length_toList, Array.size_append]
        omega
      rw [decodeAll_succ fuel nonempty, Array.toList_append, split_frame (by omega), Option.bind_some]
      simp only [read, Option.bind_some]
      rw [ih (by omega) (by omega)]
      rfl

/-- What is read as items is their encodings. -/
theorem eq_encodeAll_of_decodeAll {fuel : Nat} {b : List UInt8} {items : List Item}
    (h : decodeAll fuel b = some items) : b = (encodeAll items).toList := by
  -- by induction on the fuel: each turn splits one item off the front
  induction fuel generalizing b items with
  | zero =>
    cases b with
    | nil =>
      obtain rfl := Option.some.inj h
      rfl
    | cons first rest => cases h
  | succ fuel ih =>
    by_cases hb : b = []
    · subst hb
      obtain rfl := Option.some.inj h
      rfl
    · rw [decodeAll_succ fuel hb] at h
      obtain ⟨⟨isList, payload, rest⟩, hsplit, h⟩ := Option.bind_eq_some_iff.1 h
      obtain ⟨item, hitem, h⟩ := Option.bind_eq_some_iff.1 h
      obtain ⟨others, hothers, rfl⟩ := Option.map_eq_some_iff.1 h
      have framed : frame isList payload = encode item := by
        rw [encode_eq]
        cases isList with
        | true =>
          obtain ⟨items, hitems, rfl⟩ := Option.map_eq_some_iff.1 hitem
          rw [show payload = encodeAll items from Array.toList_inj.1 (ih hitems)]
          rfl
        | false =>
          obtain rfl := Option.some.inj hitem
          rfl
      rw [eq_frame_of_split hsplit, ih hothers, framed, encodeAll, Array.toList_append]

/-- One item is encoded as itself. -/
theorem encodeAll_singleton (item : Item) : encodeAll [item] = encode item := by
  rw [encodeAll, encodeAll, Array.append_empty]

/-- Each item is read from its encoding, and from nothing else. -/
theorem decode_eq_some_iff {b : Bytes} {item : Item} (hsize : (encode item).size < 2 ^ 64) :
    decode b = some item ↔ b = encode item := by
  unfold decode
  constructor
  -- the whole input was one item, and nothing was left over
  · intro h
    split at h
    · rename_i single hread
      obtain rfl := Option.some.inj h
      exact Array.toList_inj.1 ((eq_encodeAll_of_decodeAll hread).trans (by rw [encodeAll_singleton]))
    · cases h
  · rintro rfl
    rw [← encodeAll_singleton] at hsize ⊢
    rw [decodeAll_encodeAll hsize (Nat.le_refl _)]

/-- A byte below 128 is not read behind a header. -/
example : decode #[0x81, 0x7f] = none := rfl

end Evm.Rlp
