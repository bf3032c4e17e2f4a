import Evm.Proofs.Instruction.Access
import Evm.Proofs.Instruction.Causes

namespace Evm

/-!
# What memory costs in the end

A frame asks for one range of memory after the other, and each time pays for what its memory has to
grow.  In the end it has paid the price of the largest size that it has asked for and been granted,
in whatever order it has asked, and what was refused has cost nothing.

* `Memory.wordsFor` — the words that a range needs.
* `Memory.words_of_extend` — memory that is extended has as many, or those that it had if they are
  more.
* `Local.extendEach` — asks for ranges one by one, and tells which were granted.
* `memory_gas_of_final_size` — the size in the end, and the gas that has gone.
-/

/-! ### One range -/

namespace Memory

/-- The words that a range needs: none if it is empty, wherever it lies. -/
def wordsFor (range : Nat × Nat) : Nat :=
  if range.2 = 0 then 0 else wordCount (range.1 + range.2)

/-- Memory of whole words. -/
def IsWhole (m : Memory) : Prop := m.size = 32 * m.words

variable {m m' : Memory} {offset len : Nat} {gas gas' : Meter}

/-- Memory of whole words that is extended stays so, and grows to what the range needs. -/
theorem words_of_extend (hm : m.IsWhole) (hrange : InRange offset len)
    (h : m.extend offset len gas = .ok (m', gas')) :
    m'.IsWhole ∧ m'.words = max m.words (wordsFor (offset, len)) := by
  unfold IsWhole at hm ⊢
  unfold wordsFor
  rcases eq_of_extend hrange h with ⟨hlarge, rfl, -⟩ | ⟨⟨hlen, hsmall⟩, rfl, -⟩
  · refine ⟨hm, ?_⟩
    dsimp only
    unfold wordCount
    split <;> omega
  · have hcovers := le_wordCount (offset + len)
    rw [words_resize, size_resize, if_neg hlen]
    dsimp only
    omega

/-- Ranges that are empty need not be counted. -/
theorem foldl_wordsFor (ranges : List (Nat × Nat)) (words : Nat) :
    (ranges.map wordsFor).foldl max words =
      ((ranges.filter (0 < ·.2)).map fun range => wordCount (range.1 + range.2)).foldl max
        words := by
  induction ranges generalizing words with
  | nil => rfl
  | cons range ranges ih =>
    rw [List.map_cons, List.foldl_cons, ih, wordsFor]
    split
    · rename_i hnone
      rw [Nat.max_zero, List.filter_cons_of_neg (by simp [hnone])]
    · rename_i hsome
      rw [List.filter_cons_of_pos (by simpa using Nat.pos_of_ne_zero hsome), List.map_cons,
        List.foldl_cons]

end Memory

/-! ### One range after the other -/

namespace Local

variable {L : Type}

/-- Asks for ranges of memory one by one, and goes on from whatever comes of each.  Tells which ones
    were granted. -/
def extendEach (s : Local L) : List (Nat × Nat) → List (Nat × Nat) × Local L
  | [] => ([], s)
  | range :: ranges =>
    match (Effect.extendMemory range.1 range.2).run s with
    | .ok _ t => (range :: (t.extendEach ranges).1, (t.extendEach ranges).2)
    | .error _ t => t.extendEach ranges

/-- What a frame comes to that has been granted some ranges: its memory has the words that they
    need, it has paid for them, and nothing else has happened. -/
structure Grown (s : Local L) (granted : List (Nat × Nat)) (t : Local L) : Prop where
  whole : t.frame.memory.IsWhole
  words : t.frame.memory.words = (granted.map Memory.wordsFor).foldl max s.frame.memory.words
  paid : t.frame.gas.remaining + Memory.cost t.frame.memory.words =
    s.frame.gas.remaining + Memory.cost s.frame.memory.words
  limit : t.frame.gas.limit = s.frame.gas.limit
  refund : t.frame.gas.refund = s.frame.gas.refund
  rest : t = { s with frame := { s.frame with memory := t.frame.memory, gas := t.frame.gas } }

variable {s t u : Local L}

/-- No extension, and the memory as it was. -/
theorem grown_refl (h : s.frame.memory.IsWhole) : Grown s [] s := ⟨h, rfl, rfl, rfl, rfl, rfl⟩

/-- One more range before the others. -/
theorem Grown.cons {range : Nat × Nat} {granted : List (Nat × Nat)} (h : Grown s [range] t)
    (h' : Grown t granted u) : Grown s (range :: granted) u where
  whole := h'.whole
  words := by
    rw [h'.words, h.words]
    rfl
  paid := h'.paid.trans h.paid
  limit := h'.limit.trans h.limit
  refund := h'.refund.trans h.refund
  rest := by
    rw [h'.rest, h.rest]

/-- A range that is granted. -/
theorem grown_of_extendMemory {range : Nat × Nat} {a : Unit} (hs : s.frame.memory.IsWhole)
    (hrange : Memory.InRange range.1 range.2)
    (h : (Effect.extendMemory range.1 range.2).run s = .ok a t) : Grown s [range] t := by
  rw [Effect.run_extendMemory] at h
  cases hm : s.frame.memory.extend range.1 range.2 s.frame.gas with
  | error e =>
    rw [hm] at h
    cases h
  | ok grown =>
    obtain ⟨memory, gas⟩ := grown
    rw [hm] at h
    cases h
    obtain ⟨whole, words⟩ := Memory.words_of_extend hs hrange hm
    obtain ⟨limit, paid⟩ := Memory.funds_of_extend hrange hm
    exact ⟨whole, words, paid, limit, Memory.refund_of_extend hm, rfl⟩

/-- A range that is refused leaves everything alone. -/
theorem eq_of_extendMemory {offset len : Nat} {e : VmError}
    (h : (Effect.extendMemory offset len).run s = .error e t) : t = s ∧ e = .outOfGas := by
  rw [Effect.run_extendMemory] at h
  cases hm : s.frame.memory.extend offset len s.frame.gas with
  | error cause =>
    rw [hm] at h
    cases h
    exact ⟨rfl, Memory.error_of_extend hm⟩
  | ok grown =>
    rw [hm] at h
    cases h

/-- After any ranges the frame has come to those that were granted. -/
theorem grown_extendEach (hs : s.frame.memory.IsWhole) {ranges : List (Nat × Nat)}
    (hranges : ∀ range ∈ ranges, Memory.InRange range.1 range.2) :
    Grown s (s.extendEach ranges).1 (s.extendEach ranges).2 := by
  induction ranges generalizing s with
  | nil => exact grown_refl hs
  | cons range ranges ih =>
    obtain ⟨hrange, hrest⟩ := List.forall_mem_cons.1 hranges
    unfold extendEach
    cases hrun : (Effect.extendMemory range.1 range.2).run s with
    | ok a t =>
      have first := grown_of_extendMemory hs hrange hrun
      exact first.cons (ih first.whole hrest)
    | error e t =>
      rw [(eq_of_extendMemory hrun).1]
      exact ih hs hrest

end Local

/-- However a frame asks for memory, it has paid for the size that it has in the end and for nothing
    else.  It starts without memory and asks for ranges that instructions can ask for.  Then its
    memory has as many whole words as the largest of the ranges that were granted needs, and the gas
    that has gone is the price of so many words.  A range that is refused, for want of gas, changes
    nothing.  The price grows with the size, so that the price of a growth is never cut off. -/
theorem memory_gas_of_final_size {L : Type} {s : Local L} {ranges : List (Nat × Nat)}
    (hempty : s.frame.memory = {})
    (hranges : ∀ range ∈ ranges, range.1 ≤ maxOffset ∧ range.2 ≤ maxOffset) :
    let granted := (s.extendEach ranges).1
    let t := (s.extendEach ranges).2
    t.frame.memory.words =
        ((granted.filter (0 < ·.2)).map fun range => wordCount (range.1 + range.2)).foldl max 0 ∧
      t.frame.memory.size = 32 * t.frame.memory.words ∧
      t.frame.gas.remaining + Memory.cost t.frame.memory.words = s.frame.gas.remaining ∧
      t = { s with frame := { s.frame with memory := t.frame.memory, gas := t.frame.gas } } ∧
      t.frame.gas.limit = s.frame.gas.limit ∧ t.frame.gas.refund = s.frame.gas.refund ∧
      (∀ (u v : Local L) (offset len : Nat) (e : VmError),
        (Effect.extendMemory offset len).run u = .error e v → v = u ∧ e = .outOfGas) ∧
      ∀ old new, old ≤ new → Memory.cost old ≤ Memory.cost new ∧
        Memory.cost old + Memory.expansionCost old new = Memory.cost new := by
  intro granted t
  -- an empty memory is whole, and has no words to begin with
  have whole : s.frame.memory.IsWhole := by
    rw [hempty]
    rfl
  have grown : s.Grown granted t := Local.grown_extendEach whole fun range hrange => by
    obtain ⟨hoffset, hlen⟩ := hranges range hrange
    exact Memory.inRange_of_le hoffset hlen
  have none : s.frame.memory.words = 0 := by
    rw [hempty]
    rfl
  have paid := grown.paid
  have words := grown.words
  rw [none] at paid words
  refine ⟨?_, grown.whole, paid, grown.rest, grown.limit, grown.refund, ?_, ?_⟩
  · rw [words, Memory.foldl_wordsFor]
  · exact fun u v offset len e hrun => Local.eq_of_extendMemory hrun
  · exact fun old new h => ⟨Memory.cost_mono h, Memory.cost_add_expansionCost h⟩

/-- A frame asks for one byte, for far more than it can pay, for nothing, and for bytes on its third
    word and before them.  It has paid for three words. -/
theorem memory_gas_of_final_size_past_refusal :
    let s : Local Unit := { frame := .ofMessage (.call 1 7 0 #[] 100) 0 1024, ledger := () }
    let ranges := [(0, 1), (maxOffset, maxOffset), (500, 0), (40, 32), (0, 64)]
    let t := (s.extendEach ranges).2
    s.frame.memory = {} ∧ (s.extendEach ranges).1 = [(0, 1), (500, 0), (40, 32), (0, 64)] ∧
      t.frame.memory.words = 3 ∧ t.frame.memory.size = 3 * 32 ∧
      t.frame.gas.remaining + Memory.cost 3 = 100 := by
  intro s ranges t
  have granted : (s.extendEach ranges).1 = [(0, 1), (500, 0), (40, 32), (0, 64)] := by
    decide +kernel
  have small : ∀ range ∈ ranges, range.1 ≤ maxOffset ∧ range.2 ≤ maxOffset := by decide
  obtain ⟨words, size, paid, -⟩ := memory_gas_of_final_size (s := s) rfl small
  rw [granted] at words
  have three : t.frame.memory.words = 3 := words.trans (by decide)
  rw [three] at size paid
  exact ⟨rfl, granted, three, size, paid⟩

end Evm
