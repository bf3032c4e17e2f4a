import Evm.Proofs.Bytes
import Evm.RevertReason

namespace Evm

/-!
# Revert reasons are read safely

The data of a rollback may come from any code.  Reading it never leaves the data and never
overflows, and it finds a text exactly where the data has one.

* `RevertReason.encode` — the data that tells a text.
* `RevertReason.decode_eq` — no access to any data can fail.
* `RevertReason.textAt_eq_some_iff` — the data that has a given text.
* `revert_reasons_safe` — the reason of any result.
-/

namespace RevertReason

/-- The data of a call to `Error(string)`: the selector, the place of the text, which is after two
    words, its length, its bytes, and any bytes after them. -/
def encode (text : String) (padding : Bytes) : Bytes :=
  selector ++ Word.toBytes 32 ++ Word.toBytes (BitVec.ofNat 256 text.utf8ByteSize) ++
    text.toUTF8.data ++ padding

/-! ### Reading -/

/-- A range within the data is cut out as it is. -/
theorem slice_eq {data : Bytes} {first last : Nat} (h : first ≤ last ∧ last ≤ data.size) :
    slice data first last = .ok (data.extract first last) :=
  if_pos h

/-- The word after the selector and the first word. -/
def lengthWord (data : Bytes) : Word := Word.ofBytes (data.extract 36 68)

/-- All ranges lie in the data and all sums are 64-bit numbers, whatever the data. -/
theorem decode_eq (data : Bytes) :
    decode data = .ok
      (if 68 ≤ data.size ∧ data.extract 0 4 = selector then textAt data 68 (lengthWord data)
      else none) := by
  unfold decode
  by_cases hsize : data.size < 68
  · rw [if_pos hsize, if_neg fun h => by omega]
    rfl
  · rw [if_neg hsize, slice_eq (by omega)]
    show (if data.extract 0 4 ≠ selector then _ else _) = _
    by_cases hselector : data.extract 0 4 = selector
    · rw [if_neg fun h => h hselector, if_pos ⟨by omega, hselector⟩]
      -- both sums are of constants
      show (slice data 36 68).bind _ = _
      rw [slice_eq (by omega)]
      rfl
    · rw [if_pos hselector, if_neg fun h => hselector h.2]
      rfl

/-- The length word is read as it stands. -/
theorem toNat_lengthWord {data : Bytes} (h : 68 ≤ data.size) :
    (lengthWord data).toNat = Bytes.toNat (data.extract 36 68) := by
  have size : (data.extract 36 68).size = 32 := by
    rw [Array.size_extract]
    omega
  have reach := Bytes.toNat_lt (data.extract 36 68)
  rw [size] at reach
  rw [lengthWord, Word.ofBytes, BitVec.toNat_ofNat]
  exact Nat.mod_eq_of_lt reach

/-- A text is read from its bytes, and from nothing else. -/
theorem fromUTF8?_eq_some_iff {b : Bytes} {text : String} :
    String.fromUTF8? ⟨b⟩ = some text ↔ b = text.toUTF8.data := by
  unfold String.fromUTF8?
  constructor
  · intro h
    split at h
    · obtain rfl := Option.some.inj h
      rfl
    · cases h
  · rintro rfl
    exact dif_pos text.isValidUTF8

/-- A checked number is one that fits the counter. -/
theorem checked_eq_some_iff {n m : Nat} :
    Counter.checked n = some m ↔ n ≤ Counter.limit ∧ n = m := by
  rw [Counter.checked, Option.ite_none_right_eq_some, Option.some.injEq]

/-- A text is found if its end is within the data and is a 64-bit number, and its bytes stand there.
    -/
theorem textAt_eq_some_iff {data : Bytes} {start : Nat} {length : Word} {text : String} :
    textAt data start length = some text ↔
      start + length.toNat ≤ min data.size Counter.limit ∧
        data.extract start (start + length.toNat) = text.toUTF8.data := by
  unfold textAt
  constructor
  · intro h
    obtain ⟨len, hlen, h⟩ := Option.bind_eq_some_iff.1 h
    obtain ⟨last, hlast, h⟩ := Option.bind_eq_some_iff.1 h
    obtain ⟨bytes, hbytes, h⟩ := Option.bind_eq_some_iff.1 h
    -- each of the three checks has passed, so the numbers are the plain ones
    obtain ⟨-, rfl⟩ := checked_eq_some_iff.1 hlen
    obtain ⟨counted, rfl⟩ := checked_eq_some_iff.1 hlast
    rw [slice?, Option.ite_none_right_eq_some, Option.some.injEq] at hbytes
    obtain ⟨⟨-, inside⟩, rfl⟩ := hbytes
    exact ⟨Nat.le_min.2 ⟨inside, counted⟩, fromUTF8?_eq_some_iff.1 h⟩
  · rintro ⟨hend, htext⟩
    obtain ⟨inside, counted⟩ := Nat.le_min.1 hend
    have len : Counter.checked length.toNat = some length.toNat := if_pos (by omega)
    have last : Counter.checked (start + length.toNat) = some (start + length.toNat) :=
      if_pos counted
    have bytes : slice? data start (start + length.toNat) = some text.toUTF8.data :=
      (if_pos ⟨by omega, inside⟩).trans (congrArg some htext)
    rw [len, Option.bind_eq_bind, Option.bind_some, last, Option.bind_eq_bind, Option.bind_some, bytes]
    exact fromUTF8?_eq_some_iff.2 rfl

/-! ### Written data -/

/-- The word for the length is the length of the text. -/
theorem lengthWord_encode {text : String} (h : text.utf8ByteSize < 2 ^ 256) (padding : Bytes) :
    (lengthWord (encode text padding)).toNat = text.utf8ByteSize := by
  have front : (selector ++ Word.toBytes 32).size = 36 := by decide
  have word := Bytes.extract_middle (selector ++ Word.toBytes 32)
    (Word.toBytes (BitVec.ofNat 256 text.utf8ByteSize)) (text.toUTF8.data ++ padding)
  rw [front, Word.size_toBytes, ← Array.append_assoc] at word
  rw [lengthWord, encode, word, Word.ofBytes_toBytes, BitVec.toNat_ofNat]
  exact Nat.mod_eq_of_lt h

/-- The size of an encoded reason. -/
theorem size_encode (text : String) (padding : Bytes) :
    (encode text padding).size = 68 + text.utf8ByteSize + padding.size := by
  simp only [encode, Array.size_append, Word.size_toBytes]
  rfl

/-- An encoded reason starts with the selector. -/
theorem extract_selector (text : String) (padding : Bytes) :
    (encode text padding).extract 0 4 = selector := by
  have front := Bytes.extract_middle #[] selector (Word.toBytes 32 ++
    (Word.toBytes (BitVec.ofNat 256 text.utf8ByteSize) ++ (text.toUTF8.data ++ padding)))
  simp only [Array.empty_append] at front
  simp only [encode, Array.append_assoc]
  exact front

/-- The text stands behind the two words, and the padding behind the text. -/
theorem extract_text (text : String) (padding : Bytes) :
    (encode text padding).extract 68 (68 + text.utf8ByteSize) = text.toUTF8.data := by
  have front : (selector ++ Word.toBytes 32 ++
      Word.toBytes (BitVec.ofNat 256 text.utf8ByteSize)).size = 68 := by
    rw [Array.size_append, Word.size_toBytes]
    rfl
  have bytes := Bytes.extract_middle (selector ++ Word.toBytes 32 ++
    Word.toBytes (BitVec.ofNat 256 text.utf8ByteSize)) text.toUTF8.data padding
  rw [front] at bytes
  exact bytes

end RevertReason

open RevertReason

/-- The reason is what is read from the output of a rollback. -/
theorem ExecutionResult.revertReason_eq (r : ExecutionResult) :
    ∃ reason, decode r.output = .ok reason ∧
      r.revertReason = if r.status = .reverted then reason else none := by
  refine ⟨_, decode_eq r.output, ?_⟩
  rw [revertReason, decode_eq]
  rfl

/-- When a result has a reason. -/
theorem ExecutionResult.revertReason_eq_some_iff {r : ExecutionResult} {text : String} :
    r.revertReason = some text ↔
      r.status = .reverted ∧ 68 ≤ r.output.size ∧ r.output.extract 0 4 = selector ∧
        68 + (lengthWord r.output).toNat ≤ min r.output.size Counter.limit ∧
        r.output.extract 68 (68 + (lengthWord r.output).toNat) = text.toUTF8.data := by
  rw [revertReason, decode_eq, Option.ite_none_right_eq_some]
  show _ ∧ (if _ then _ else none) = _ ↔ _
  rw [Option.ite_none_right_eq_some, textAt_eq_some_iff, and_assoc]

/-- Reading the reason of a result ends without leaving its output and without an overflow, whatever
    the output is.  A rollback with the data of a text of less than `2 ^ 63` bytes gives that text
    as its reason.  A result that gives a text has been rolled back, with at least 68 bytes of
    output: the selector, a word, the length of the text in bytes, and then its bytes. -/
theorem revert_reasons_safe (r : ExecutionResult) :
    (∃ reason, decode r.output = .ok reason ∧
      r.revertReason = if r.status = .reverted then reason else none) ∧
    (∀ (text : String) (padding : Bytes), text.utf8ByteSize < 2 ^ 63 → r.status = .reverted →
      r.output = encode text padding → r.revertReason = some text) ∧
    (∀ text : String, r.revertReason = some text →
      r.status = .reverted ∧ 68 ≤ r.output.size ∧ r.output.extract 0 4 = selector ∧
        Bytes.toNat (r.output.extract 36 68) = text.utf8ByteSize ∧
        text.toUTF8.data.toList <+: r.output.toList.drop 68) := by
  refine ⟨r.revertReason_eq, ?_, ?_⟩
  · intro text padding hsize hstatus houtput
    have length := lengthWord_encode (Nat.lt_trans hsize (by decide)) padding
    rw [ExecutionResult.revertReason_eq_some_iff, houtput, length, size_encode]
    refine ⟨hstatus, by omega, extract_selector text padding, ?_, extract_text text padding⟩
    unfold Counter.limit
    omega
  · intro text h
    obtain ⟨hstatus, hsize, hselector, hend, htext⟩ :=
      ExecutionResult.revertReason_eq_some_iff.1 h
    -- the text fills the bytes that the length promises
    have size : (lengthWord r.output).toNat = text.utf8ByteSize := by
      have same : _ = text.utf8ByteSize := congrArg Array.size htext
      rw [Array.size_extract] at same
      omega
    refine ⟨hstatus, hsize, hselector, (toNat_lengthWord hsize).symm.trans size, ?_⟩
    rw [← htext, Array.toList_extract, List.extract_eq_take_drop]
    exact List.take_prefix _ _

/-- A single character of two bytes, without padding. -/
theorem revert_reasons_safe_on_character :
    let r := ExecutionResult.reverted (encode "é" #[]) 100
    r.status = .reverted ∧ r.output.size = 70 ∧ r.revertReason = some "é" := by
  intro r
  obtain ⟨-, found, -⟩ := revert_reasons_safe r
  exact ⟨rfl, size_encode "é" #[], found "é" #[] (by decide) rfl rfl⟩

end Evm
