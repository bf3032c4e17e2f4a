import Evm.Proofs.Instruction.Funds

namespace Evm

/-!
# Offsets and sizes as they are

Instructions take offsets and sizes beyond `2 ^ 31 - 1` as `2 ^ 31 - 1`, and their prices stop at
the end of the range of a counter.  Here they are once more with the operands as they are and with
prices that are sums of natural numbers.  A frame that cannot pay for `2 ^ 26` words of memory does
not see the difference: a range for which it shows is too dear in both ways.

* `Exact.ofInstruction`, `Exact.paidEffect` — the instructions without bounds.
* `Frame.IsShort` — the funds do not reach for `2 ^ 26` words.
* `Memory.extend_min` — such a frame grows its memory alike in both ways.
* `Effect.Alike` — two effects that lead to the same place, and how that follows their structure.
* `Effect.paidEffect_alike` — the instructions do the same in both ways.
-/

/-! ### Instructions without bounds -/

namespace Exact

open Effect

/-- The price of a memory of so many words. -/
def memoryCost (words : Nat) : Nat := words * words / 512 + 3 * words

/-- Makes `len` bytes from `offset` on addressable and charges what the memory costs more then. -/
def extend (m : Memory) (offset len : Nat) (gas : Meter) : Except VmError (Memory × Meter) :=
  if len = 0 ∨ offset + len ≤ m.size then .ok (m, gas)
  else do
    let words := wordCount (offset + len)
    let gas ← gas.consume (memoryCost words - memoryCost m.words)
    return (m.resize (32 * words), gas)

variable {L : Type}

/-- Makes a range of memory addressable and pays for it. -/
def extendMemory (offset len : Nat) : Effect L Unit := do
  let f ← frame
  match extend f.memory offset len f.gas with
  | .ok (memory, gas) => modifyFrame ({ · with memory, gas })
  | .error e => throw e

/-- Copies `size` bytes of `source` from `src` to `dest`. -/
def copyRange (source : Bytes) (dest src size : Word) : Effect L Unit := do
  extendMemory dest.toNat size.toNat
  charge (Gas.copyWord * wordCount size.toNat)
  writeMemory dest.toNat (source.window src.toNat size.toNat)

/-- Copies from a byte string, with the three operands on the stack. -/
def copyToMemory (source : Bytes) : Effect L Unit := do
  let (dest, src, size) ← pop3
  copyRange source dest src size

/-- Copies from the output of the last child. -/
def returnDataCopy : Effect L Unit := do
  let (dest, src, size) ← pop3
  let source := (← frame).returnData
  if src.toNat + size.toNat ≤ source.size then copyRange source dest src size
  else throw (.outOfBounds src.toNat size.toNat)

/-- Hashes a range of memory. -/
def keccak256 : Effect L Unit := do
  let (offset, size) ← pop2
  extendMemory offset.toNat size.toNat
  charge (Gas.keccakWord * wordCount size.toNat)
  push (Evm.keccak256 (← readMemory offset.toNat size.toNat))

/-- Leaves a record of a range of memory. -/
def log (topicCount : Nat) : Effect L Unit := do
  requireNonStatic
  let (offset, size) ← pop2
  let topics ← popTopics topicCount
  extendMemory offset.toNat size.toNat
  charge (Gas.logTopic * topicCount + Gas.logByte * size.toNat)
  let data ← readMemory offset.toNat size.toNat
  modifyFrame fun f => { f with logs := f.logs.push { address := f.address, topics, data } }

/-- Gives back a range of memory. -/
def setOutput : Effect L Unit := do
  let (offset, size) ← pop2
  extendMemory offset.toNat size.toNat
  let output ← readMemory offset.toNat size.toNat
  modifyFrame ({ · with output })

/-- Reads a word of memory. -/
def mload : Effect L Unit := do
  let offset := (← pop).toNat
  extendMemory offset 32
  push ((← frame).memory.readWord offset)

/-- Writes a word of memory. -/
def mstore : Effect L Unit := do
  let (offset, value) ← pop2
  extendMemory offset.toNat 32
  writeMemory offset.toNat value.toBytes

/-- Writes a byte of memory. -/
def mstore8 : Effect L Unit := do
  let (offset, value) ← pop2
  extendMemory offset.toNat 1
  writeMemory offset.toNat #[value.lowByte]

variable [Ledger L]

/-- Asks for a call. -/
def call (c : Context) (form : CallForm) : Effect L Flow := do
  let (requested, target) ← pop2
  let target := target.toAddress
  let value ← if form.takesValue then pop else pure 0
  let (inOffset, inLen, outOffset, outLen) ← pop4
  if form = .call ∧ value ≠ 0 then requireNonStatic
  accessAccount c.fork target Gas.coldAccountSurcharge
  extendMemory inOffset.toNat inLen.toNat
  extendMemory outOffset.toNat outLen.toNat
  if value ≠ 0 then charge Gas.callValue
  if form = .call ∧ targetIsNew c.fork (← ledger) target value then charge Gas.newAccount
  let gasLimit ← reserveCallGas c requested value
  if ← canSpawn c value then
    let input ← readMemory inOffset.toNat inLen.toNat
    let message := form.message (← frame).message target value input gasLimit
    return .spawn message (.call outOffset.toNat outLen.toNat)
  else skipSpawn gasLimit

/-- Asks for a creation; a salted one takes the salt from the stack. -/
def create (c : Context) (salted : Bool) : Effect L Flow := do
  requireNonStatic
  let (value, offset, size) ← pop3
  let kind ← if salted then CallKind.create2 <$> pop else pure CallKind.create
  extendMemory offset.toNat size.toNat
  requireInitCodeSize c size.toNat
  charge (if .shanghai ≤ c.fork then Gas.initCodeWord * wordCount size.toNat else 0)
  if salted then charge (Gas.keccakWord * wordCount size.toNat)
  let initCode ← readMemory offset.toNat size.toNat
  let creator := (← frame).address
  let target := creationTarget kind (← ledger) creator initCode
  let gasLimit := Gas.forCreate c.fork (← frame).gas.remaining
  charge gasLimit
  if ← canSpawn c value then
    let message : Message :=
      { kind
        sender := creator
        recipient := target
        codeAddress := target
        input := initCode
        value
        gasLimit
        depth := (← frame).message.childDepth }
    return .spawn message .create
  else skipSpawn gasLimit

/-- What an instruction does.  One that takes no offset and no size is what it is. -/
def ofInstruction (c : Context) (ancestors : List Frame) (i : Instruction) : Effect L Flow :=
  let next (e : Effect L Unit) : Effect L Flow := do e; return .next
  match i with
  | .keccak256 => next keccak256
  | .callDataCopy => next do copyToMemory (← frame).message.input
  | .codeCopy => next do copyToMemory (← frame).program.code.bytes
  | .extCodeCopy => next do
    let a ← popAccessed c
    copyToMemory (Ledger.code (← ledger) a)
  | .returnDataCopy => next returnDataCopy
  | .mload => next mload
  | .mstore => next mstore
  | .mstore8 => next mstore8
  | .log n => next (log n)
  | .create => create c false
  | .create2 => create c true
  | .call => call c .call
  | .callCode => call c .callCode
  | .delegateCall => call c .delegateCall
  | .staticCall => call c .staticCall
  | .ret => do
    setOutput
    return .halt
  | .revert => do
    setOutput
    throw .revert
  | other => Effect.ofInstruction c ancestors other

/-- Pays the fixed price of an instruction and runs it. -/
def paidEffect (c : Context) (ancestors : List Frame) (i : Instruction) : Effect L Flow := do
  charge (i.staticGas c.fork)
  ofInstruction c ancestors i

end Exact

/-! ### Memory that cannot be paid for -/

/-- The funds of the frame do not reach for `2 ^ 26` words of memory, the least that goes up to the
    largest offset. -/
structure Frame.IsShort (f : Frame) : Prop where
  funds : f.funds < Memory.cost (2 ^ 26)
  words : 32 ∣ f.memory.size

/-- A frame that has spent gas has no more than before. -/
theorem Frame.Spends.isShort {f g : Frame} {spent : Nat} (h : f.Spends spent g) (hf : f.IsShort) :
    g.IsShort where
  funds := Nat.lt_of_le_of_lt (Nat.le_of_add_right_le h.funds) hf.funds
  words := h.words hf.words

/-- More memory costs more. -/
theorem Exact.memoryCost_mono {a b : Nat} (h : a ≤ b) : memoryCost a ≤ memoryCost b :=
  Nat.add_le_add (Nat.div_le_div_right (Nat.mul_le_mul h h)) (Nat.mul_le_mul_left 3 h)

namespace Memory

/-- Up to `2 ^ 26` words the price is far within the range of a counter. -/
theorem cost_eq {words : Nat} (h : words ≤ 2 ^ 26) : cost words = Exact.memoryCost words := by
  have range : Counter.limit = 18446744073709551615 := rfl
  have square : words * words ≤ 2 ^ 26 * 2 ^ 26 := Nat.mul_le_mul h h
  unfold cost Exact.memoryCost
  rw [Counter.mul_of_le (by omega), Counter.mul_of_le (by omega), Counter.add_of_le (by omega),
    Nat.mul_comm words 3]

/-- It takes so many words to come up to the largest offset. -/
theorem wordCount_of_maxOffset_le {last : Nat} (h : maxOffset ≤ last) :
    2 ^ 26 ≤ wordCount last := by
  have largest : maxOffset = 2147483647 := rfl
  unfold wordCount
  omega

variable {m : Memory} {gas : Meter} {offset len : Nat}

/-- A memory that has been paid for ends far from the largest offset. -/
theorem size_of_short (hfunds : gas.remaining + cost m.words < cost (2 ^ 26))
    (hwords : 32 ∣ m.size) : m.words < 2 ^ 26 ∧ m.size < maxOffset := by
  have few : m.words < 2 ^ 26 := by
    -- the words alone would have cost as much as all the funds
    by_contra hmany
    have := cost_mono (Nat.le_of_not_lt hmany)
    omega
  refine ⟨few, ?_⟩
  change m.size / 32 < 2 ^ 26 at few
  show m.size < 2 ^ 31 - 1
  omega

/-- A growth to `2 ^ 26` words or more cannot be paid for. -/
theorem consume_of_short (hfunds : gas.remaining + cost m.words < cost (2 ^ 26)) {total : Nat}
    (htotal : cost (2 ^ 26) ≤ total) : gas.consume (total - cost m.words) = .error .outOfGas := by
  unfold Meter.consume
  rw [if_neg (by omega)]

/-- A range that is not empty and ends beyond the largest offset runs out of gas. -/
theorem extend_beyond (hfunds : gas.remaining + cost m.words < cost (2 ^ 26))
    (hwords : 32 ∣ m.size) (hlen : len ≠ 0) (hend : maxOffset < offset + len) :
    m.extend (min offset maxOffset) (min len maxOffset) gas = .error .outOfGas := by
  obtain ⟨few, small⟩ := size_of_short hfunds hwords
  have range : 2 * maxOffset ≤ Counter.limit := by decide
  have some : min len maxOffset ≠ 0 := by
    have : maxOffset ≠ 0 := by decide
    omega
  -- the bounds may have made the range smaller, but not so much that it could be paid for
  have last : maxOffset ≤ Counter.add (min offset maxOffset) (min len maxOffset) := by
    rw [Counter.add_of_le (by omega)]
    omega
  have many := wordCount_of_maxOffset_le last
  rw [extend_eq, if_neg (by omega), expansionCost, if_neg (by omega),
    consume_of_short hfunds (cost_mono many)]
  rfl

/-- So it does without the bounds. -/
theorem exact_beyond (hfunds : gas.remaining + cost m.words < cost (2 ^ 26))
    (hwords : 32 ∣ m.size) (hlen : len ≠ 0) (hend : maxOffset < offset + len) :
    Exact.extend m offset len gas = .error .outOfGas := by
  obtain ⟨few, small⟩ := size_of_short hfunds hwords
  have price : cost (2 ^ 26) ≤ Exact.memoryCost (wordCount (offset + len)) := by
    rw [cost_eq (Nat.le_refl _)]
    exact Exact.memoryCost_mono (wordCount_of_maxOffset_le (Nat.le_of_lt hend))
  simp only [Exact.extend]
  rw [if_neg (by omega), ← cost_eq (Nat.le_of_lt few), consume_of_short hfunds price]
  rfl

/-- A range that does not end beyond the largest offset is priced exactly. -/
theorem extend_within (hend : offset + len ≤ maxOffset) (hsize : m.words < 2 ^ 26) :
    m.extend offset len gas = Exact.extend m offset len gas := by
  have largest : maxOffset = 2147483647 := rfl
  -- all of it lies in reach, so no counter saturates
  have few : wordCount (offset + len) ≤ 2 ^ 26 := by
    unfold wordCount
    omega
  have range : InRange offset len := by
    unfold InRange
    have : maxOffset + 31 ≤ Counter.limit := by decide
    omega
  simp only [extend_eq, Exact.extend]
  rw [range.add, range.paidSize]
  split
  · rfl
  · rename_i hlarger
    have grows : m.words ≤ wordCount (offset + len) := by
      unfold wordCount
      show m.size / 32 ≤ _
      omega
    have price : expansionCost m.words (wordCount (offset + len)) =
        Exact.memoryCost (wordCount (offset + len)) - Exact.memoryCost m.words := by
      rw [← cost_eq few, ← cost_eq (Nat.le_of_lt hsize), ← cost_add_expansionCost grows,
        Nat.add_sub_cancel_left]
    rw [price]

/-- Memory that has been paid for so far grows alike with bounds and without, or does not. -/
theorem extend_min (hfunds : gas.remaining + cost m.words < cost (2 ^ 26))
    (hwords : 32 ∣ m.size) (offset len : Nat) :
    m.extend (min offset maxOffset) (min len maxOffset) gas = Exact.extend m offset len gas := by
  by_cases hlen : len = 0
  · -- nothing is asked for, wherever it is
    subst hlen
    simp [extend_eq, Exact.extend]
  · by_cases hend : offset + len ≤ maxOffset
    · rw [Nat.min_eq_left (by omega), Nat.min_eq_left (by omega)]
      exact extend_within hend (size_of_short hfunds hwords).1
    · rw [extend_beyond hfunds hwords hlen (Nat.lt_of_not_le hend),
        exact_beyond hfunds hwords hlen (Nat.lt_of_not_le hend)]

end Memory

/-- A price that leaves the range of a counter cannot be paid, wherever it stops. -/
theorem Meter.consume_min {gas : Meter} (h : gas.remaining < Counter.limit) (amount : Nat) :
    gas.consume (min amount Counter.limit) = gas.consume amount := by
  by_cases hrange : amount ≤ Counter.limit
  · rw [Nat.min_eq_left hrange]
  · unfold consume
    rw [if_neg (by omega), if_neg (by omega)]

/-- A frame that is short of gas has less than the largest counter. -/
theorem Frame.IsShort.remaining {f : Frame} (h : f.IsShort) : f.gas.remaining < Counter.limit :=
  calc f.gas.remaining
      ≤ f.funds := Nat.le_add_right _ _
    _ < Memory.cost (2 ^ 26) := h.funds
    _ ≤ Counter.limit := Counter.add_le_limit _ _

/-- The price of a hash stops at the largest counter. -/
theorem Gas.keccakWords_eq (size : Nat) :
    keccakWords size = min (keccakWord * wordCount size) Counter.limit := rfl

/-- The price of a copy stops at the largest counter. -/
theorem Gas.copy_eq (size : Nat) : copy size = min (copyWord * wordCount size) Counter.limit := rfl

/-- The price of a record stops at the largest counter. -/
theorem Gas.log_eq (size topics : Nat) :
    log size topics = min (logTopic * topics + logByte * size) Counter.limit := by
  unfold log Counter.add Counter.mul
  omega

/-- The price of init code stops at the largest counter. -/
theorem Gas.initCode_eq (fork : Fork) (size : Nat) :
    initCode fork size =
      min (if .shanghai ≤ fork then initCodeWord * wordCount size else 0) Counter.limit := by
  unfold initCode
  split <;> rfl

/-! ### Ranges within reach -/

/-- The range is empty, or does not end beyond the largest offset. -/
def Exact.InReach (offset len : Nat) : Prop := len = 0 ∨ offset + len ≤ maxOffset

namespace Exact.InReach

variable {offset len : Nat}

/-- A range is out of reach if it is not empty and ends past the largest offset. -/
theorem not_iff : ¬ InReach offset len ↔ len ≠ 0 ∧ maxOffset < offset + len := by
  unfold InReach
  push Not
  rfl

/-- The length of a range in reach is not cut. -/
theorem min_len (h : InReach offset len) : min len maxOffset = len := by
  unfold InReach at h
  omega

/-- The offset of a range in reach is not cut, unless the range is empty. -/
theorem min_offset (h : InReach offset len) (hlen : len ≠ 0) : min offset maxOffset = offset := by
  unfold InReach at h
  omega

/-- A size that is within reach is not cut. -/
theorem clamp_size {size : Word} (h : InReach offset size.toNat) : size.clampOffset = size.toNat :=
  h.min_len

end Exact.InReach

namespace Memory

/-- Where nothing is read, it does not matter where. -/
theorem read_empty (m : Memory) (offset : Nat) : m.read offset 0 = #[] :=
  Array.eq_empty_of_size_eq_zero (m.size_read offset 0)

/-- What is read is the same in both ways. -/
theorem read_min (m : Memory) {offset len : Nat} (h : Exact.InReach offset len) :
    m.read (min offset maxOffset) len = m.read offset len := by
  by_cases hlen : len = 0
  · rw [hlen, read_empty, read_empty]
  · rw [h.min_offset hlen]

/-- So is what is written. -/
theorem write_min (m : Memory) {offset : Nat} {b : Bytes} (h : Exact.InReach offset b.size) :
    m.write (min offset maxOffset) b = m.write offset b := by
  by_cases hempty : b.size = 0
  · unfold write
    rw [if_pos (Array.isEmpty_iff_size_eq_zero.2 hempty),
      if_pos (Array.isEmpty_iff_size_eq_zero.2 hempty)]
  · rw [h.min_offset hempty]

end Memory

/-! ### Errors and flows -/

/-- The error that is reported for another one.  Of a range out of bounds the numbers are cut. -/
inductive VmError.Reports : VmError → VmError → Prop where
  | same (e : VmError) : Reports e e
  | bounds (offset size : Word) :
      Reports (.outOfBounds offset.clampOffset size.clampOffset)
        (.outOfBounds offset.toNat size.toNat)

/-- The continuations are the same, or differ only in where an output without bytes is to go. -/
inductive Continuation.Alike : Continuation → Continuation → Prop where
  | same (k : Continuation) : Alike k k
  | empty (offset offset' : Nat) : Alike (.call offset 0) (.call offset' 0)

/-- Control goes to the same place.  Of a child that is asked for, the message is the same. -/
inductive Flow.Alike : Flow → Flow → Prop where
  | same (flow : Flow) : Alike flow flow
  | spawn (message : Message) {k k' : Continuation} : k.Alike k' →
      Alike (.spawn message k) (.spawn message k')

/-- An output that is within reach goes to the same place. -/
theorem Continuation.Alike.of_reach {offset len : Nat} (h : Exact.InReach offset len) :
    (Continuation.call (min offset maxOffset) (min len maxOffset)).Alike (.call offset len) := by
  rw [h.min_len]
  by_cases hlen : len = 0
  · subst hlen
    exact .empty _ _
  · rw [h.min_offset hlen]
    exact .same _

/-! ### Effects that do the same -/

namespace Effect

variable {L : Type} {α β : Type}

/-- Both runs lead to the same place.  They give something alike, or fail for the same reason. -/
inductive SameRun (R : α → α → Prop) :
    EStateM.Result VmError (Local L) α → EStateM.Result VmError (Local L) α → Prop where
  | ok {a b : α} {t : Local L} : R a b → SameRun R (.ok a t) (.ok b t)
  | error {e e' : VmError} {t : Local L} : e.Reports e' → SameRun R (.error e t) (.error e' t)

/-- From here the two effects do the same. -/
def Alike (R : α → α → Prop) (e e' : Effect L α) (s : Local L) : Prop :=
  SameRun R (e.run s) (e'.run s)

namespace Alike

variable {R : α → α → Prop} {s : Local L}

/-- Effects with the same outcome are alike. -/
theorem of_run_eq {e e' : Effect L α} (hR : ∀ a, R a a) (h : e.run s = e'.run s) :
    Alike R e e' s := by
  unfold Alike
  rw [h]
  cases e'.run s with
  | ok a t => exact .ok (hR a)
  | error x t => exact .error (.same x)

/-- An effect is like itself. -/
theorem same (hR : ∀ a, R a a) (e : Effect L α) : Alike R e e s := of_run_eq hR rfl

/-- What follows two effects that run in the same way. -/
theorem bind_of_run {e e' : Effect L β} {k k' : β → Effect L α} (hrun : e.run s = e'.run s)
    (hk : ∀ b t, e.run s = .ok b t → Alike R (k b) (k' b) t) : Alike R (e >>= k) (e' >>= k') s := by
  unfold Alike
  rw [run_bind, run_bind, ← hrun]
  cases he : e.run s with
  | ok b t => exact hk b t he
  | error x t => exact .error (.same x)

/-- The same effect first, which brings no funds. -/
theorem after {e : Effect L β} {k k' : β → Effect L α} (he : IsFrugal e) (hs : s.frame.IsShort)
    (hk : ∀ b t, t.frame.IsShort → Alike R (k b) (k' b) t) : Alike R (e >>= k) (e >>= k') s :=
  bind_of_run rfl fun b t hrun => hk b t ((he.goes hrun).isShort hs)

/-- Branches are alike one by one. -/
theorem ite {p : Prop} [Decidable p] {e₁ e₁' e₂ e₂' : Effect L α} (h₁ : Alike R e₁ e₁' s)
    (h₂ : Alike R e₂ e₂' s) : Alike R (if p then e₁ else e₂) (if p then e₁' else e₂') s := by
  split
  · exact h₁
  · exact h₂

/-- An effect that only runs in some cases, and what follows it. -/
theorem ite_after {p : Prop} [Decidable p] {e : Effect L Unit} {k k' : Unit → Effect L α}
    (he : IsFrugal e) (hs : s.frame.IsShort)
    (hk : ∀ u t, t.frame.IsShort → Alike R (k u) (k' u) t) :
    Alike R (if p then e >>= k else k ()) (if p then e >>= k' else k' ()) s :=
  ite (after he hs hk) (hk () s hs)

/-- What is alike for the frame at hand. -/
theorem frame_bind {k k' : Frame → Effect L α} (h : Alike R (k s.frame) (k' s.frame) s) :
    Alike R (frame >>= k) (frame >>= k') s := h

/-- What is alike for the ledger at hand. -/
theorem ledger_bind {k k' : L → Effect L α} (h : Alike R (k s.ledger) (k' s.ledger) s) :
    Alike R (ledger >>= k) (ledger >>= k') s := h

/-- What follows two effects that do the same, whatever they give. -/
theorem bind {Q : β → β → Prop} {e e' : Effect L β} {k k' : β → Effect L α} (he : Alike Q e e' s)
    (hk : ∀ b b' t, Q b b' → Alike R (k b) (k' b') t) : Alike R (e >>= k) (e' >>= k') s := by
  unfold Alike at he ⊢
  rw [run_bind, run_bind]
  generalize e.run s = r, e'.run s = r' at he
  cases he with
  | ok hQ => exact hk _ _ _ hQ
  | error hreports => exact .error hreports

/-- A price that stops at the end of the range of a counter. -/
theorem charge_bind (hs : s.frame.IsShort) {amount price : Nat}
    (hprice : price = min amount Counter.limit) {k k' : Unit → Effect L α}
    (hk : ∀ t, t.frame.IsShort → Alike R (k ()) (k' ()) t) :
    Alike R (charge price >>= k) (charge amount >>= k') s := by
  refine bind_of_run ?_ fun _ t hrun => hk t (((IsFrugal.charge price).goes hrun).isShort hs)
  rw [run_charge, run_charge, hprice, Meter.consume_min hs.remaining]

/-- A charge that only some instructions make. -/
theorem ite_charge_bind (hs : s.frame.IsShort) {p : Prop} [Decidable p] {amount price : Nat}
    (hprice : price = min amount Counter.limit) {k k' : Unit → Effect L α}
    (hk : ∀ t, t.frame.IsShort → Alike R (k ()) (k' ()) t) :
    Alike R (if p then charge price >>= k else k ()) (if p then charge amount >>= k' else k' ()) s :=
  ite (charge_bind hs hprice hk) (hk s hs)

/-- A range of memory is asked for.  What follows may rely on it that the range is within reach. -/
theorem extendMemory_bind (hs : s.frame.IsShort) {offset len cutOffset cutLen : Nat}
    (hoffset : cutOffset = min offset maxOffset) (hlen : cutLen = min len maxOffset)
    {k k' : Unit → Effect L α}
    (hk : ∀ t, t.frame.IsShort → Exact.InReach offset len → Alike R (k ()) (k' ()) t) :
    Alike R (extendMemory cutOffset cutLen >>= k) (Exact.extendMemory offset len >>= k') s := by
  -- the two memories grow alike, in reach and out of it
  have grown : s.frame.memory.extend (min offset maxOffset) (min len maxOffset) s.frame.gas =
      Exact.extend s.frame.memory offset len s.frame.gas :=
    Memory.extend_min hs.funds hs.words offset len
  rw [hoffset, hlen]
  refine bind_of_run ?_ fun _ t hrun => hk t ?_ ?_
  · rw [run_extendMemory, Exact.extendMemory, run_frame_bind, grown]
    cases Exact.extend s.frame.memory offset len s.frame.gas <;> rfl
  · have range := Memory.inRange_of_le (Nat.min_le_right offset _) (Nat.min_le_right len _)
    exact ((IsFrugal.extendMemory range).goes hrun).isShort hs
  · -- it would have run out of gas
    by_contra hfar
    obtain ⟨hsome, hend⟩ := Exact.InReach.not_iff.1 hfar
    rw [run_extendMemory, Memory.extend_beyond hs.funds hs.words hsome hend] at hrun
    cases hrun

/-- Reading a range in reach. -/
theorem readMemory_bind {offset len : Nat} (hreach : Exact.InReach offset len)
    {k k' : Bytes → Effect L α}
    (h : Alike R (k (s.frame.memory.read offset len)) (k' (s.frame.memory.read offset len)) s) :
    Alike R (readMemory (min offset maxOffset) len >>= k) (readMemory offset len >>= k') s := by
  show SameRun R ((k (s.frame.memory.read _ _)).run s) ((k' (s.frame.memory.read offset len)).run s)
  rw [s.frame.memory.read_min hreach]
  exact h

/-- Writing a range in reach. -/
theorem writeMemory {offset : Nat} {b : Bytes} (hreach : Exact.InReach offset b.size) :
    Alike Eq (writeMemory (min offset maxOffset) b) (writeMemory offset b) s := by
  refine of_run_eq (fun _ => rfl) ?_
  rw [Effect.writeMemory, Effect.writeMemory, run_frame_bind, run_frame_bind,
    Memory.write_min _ hreach]

/-! ### Instructions -/

/-- Copying a range with its operands at hand. -/
theorem copyRange (hs : s.frame.IsShort) (source : Bytes) (dest src size : Word) :
    Alike Eq (copyRange source dest src size) (Exact.copyRange source dest src size) s := by
  refine extendMemory_bind hs (by rfl) (by rfl) fun t ht hreach => ?_
  rw [hreach.clamp_size]
  refine charge_bind ht (Gas.copy_eq _) fun u hu => writeMemory ?_
  rwa [Bytes.size_window]

/-- Copying a range with its operands on the stack. -/
theorem copyToMemory (hs : s.frame.IsShort) (source : Bytes) :
    Alike Eq (copyToMemory source) (Exact.copyToMemory source) s :=
  after (.onStack Stack.pop3) hs fun (dest, src, size) _ ht => copyRange ht source dest src size

/-- Return data is bounded by the range itself, cut or not. -/
theorem returnDataCopy (hs : s.frame.IsShort) :
    Alike Eq (returnDataCopy : Effect L Unit) Exact.returnDataCopy s := by
  refine after (.onStack Stack.pop3) hs fun (dest, src, size) t ht => frame_bind ?_
  exact ite (copyRange ht _ dest src size) (.error (.bounds src size))

/-- Hashing memory. -/
theorem keccak256 (hs : s.frame.IsShort) :
    Alike Eq (keccak256 : Effect L Unit) Exact.keccak256 s := by
  refine after (.onStack Stack.pop2) hs fun (offset, size) t ht => ?_
  refine extendMemory_bind ht (by rfl) (by rfl) fun u hu hreach => ?_
  rw [hreach.clamp_size]
  refine charge_bind hu (Gas.keccakWords_eq size.toNat) fun v hv => ?_
  exact readMemory_bind hreach (same (fun _ => rfl) _)

/-- Recording memory. -/
theorem log [Ledger L] (hs : s.frame.IsShort) (n : Nat) :
    Alike Eq (log n : Effect L Unit) (Exact.log n) s := by
  have hC := IsFrugal.letsWork (L := L)
  refine after (Follows.requireWritable hC.toLetsPay) hs fun _ s₁ h₁ => ?_
  refine after (.onStack Stack.pop2) h₁ fun (offset, size) s₂ h₂ => ?_
  refine after (Follows.popTopics hC n) h₂ fun topics s₃ h₃ => ?_
  refine extendMemory_bind h₃ (by rfl) (by rfl) fun s₄ h₄ hreach => ?_
  rw [hreach.clamp_size]
  -- a number of topics that no instruction has would only make the price stop at its end
  refine charge_bind h₄ (Gas.log_eq size.toNat n) fun s₅ h₅ => ?_
  exact readMemory_bind hreach (same (fun _ => rfl) _)

/-- Ending with memory as the output. -/
theorem setOutput (hs : s.frame.IsShort) :
    Alike Eq (setOutput : Effect L Unit) Exact.setOutput s := by
  refine after (.onStack Stack.pop2) hs fun (offset, size) t ht => ?_
  refine extendMemory_bind ht (by rfl) (by rfl) fun u hu hreach => ?_
  rw [hreach.clamp_size]
  exact readMemory_bind hreach (same (fun _ => rfl) _)

/-- Loading a word. -/
theorem mload (hs : s.frame.IsShort) : Alike Eq (mload : Effect L Unit) Exact.mload s := by
  refine after (.onStack Stack.pop) hs fun offset t ht => ?_
  refine extendMemory_bind ht (by rfl) (by rfl) fun u hu hreach => ?_
  rw [show offset.clampOffset = offset.toNat from hreach.min_offset (by decide)]
  exact same (fun _ => rfl) _

/-- Storing a word. -/
theorem mstore (hs : s.frame.IsShort) : Alike Eq (mstore : Effect L Unit) Exact.mstore s := by
  refine after (.onStack Stack.pop2) hs fun (offset, value) t ht => ?_
  refine extendMemory_bind ht (by rfl) (by rfl) fun u hu hreach => ?_
  exact writeMemory ((Word.size_toBytes value).symm ▸ hreach)

/-- Storing a byte. -/
theorem mstore8 (hs : s.frame.IsShort) : Alike Eq (mstore8 : Effect L Unit) Exact.mstore8 s := by
  refine after (.onStack Stack.pop2) hs fun (offset, value) t ht => ?_
  refine extendMemory_bind ht (by rfl) (by rfl) fun u hu hreach => ?_
  exact writeMemory hreach

/-- A part of an instruction and where control goes after it. -/
theorem next {e e' : Effect L Unit} (h : Alike Eq e e' s) (flow : Flow) :
    Alike Flow.Alike (do e; return flow) (do e'; return flow) s :=
  bind h fun _ _ _ _ => same .same _

variable [Ledger L]

/-- The output of a call may go to another place, but only if there is to be none. -/
theorem call (hs : s.frame.IsShort) (c : Context) (form : CallForm) :
    Alike Flow.Alike (call c form) (Exact.call c form) s := by
  have hC := IsFrugal.letsWork (L := L)
  refine after (.onStack Stack.pop2) hs fun (requested, target) s₁ h₁ => ?_
  refine ite (after (Follows.pop hC) h₁ fun value s₂ h₂ => ?_)
    (after (.pure 0) h₁ fun value s₂ h₂ => ?_)
  all_goals
    refine after (.onStack Stack.pop4) h₂ fun (inOffset, inLen, outOffset, outLen) s₃ h₃ => ?_
    refine ite_after (Follows.requireWritable hC.toLetsPay) h₃ fun _ s₄ h₄ => ?_
    refine after (Follows.accessAccount hC.toLetsPay _ _ _) h₄ fun _ s₅ h₅ => ?_
    -- once both ranges are paid for, they are within reach
    refine extendMemory_bind h₅ (by rfl) (by rfl) fun s₆ h₆ hin => ?_
    refine extendMemory_bind h₆ (by rfl) (by rfl) fun s₇ h₇ hout => ?_
    refine ite_after (.charge _) h₇ fun _ s₈ h₈ => ledger_bind ?_
    refine ite_after (.charge _) h₈ fun _ s₉ h₉ => ?_
    refine after (Follows.reserveCallGas hC.toLetsPay c requested value) h₉ fun gasLimit t ht => ?_
    refine after (.canSpawn c value) ht fun can u hu => ite ?_ (same .same _)
    rw [hin.clamp_size]
    exact readMemory_bind hin (frame_bind (.ok (.spawn _ (.of_reach hout))))

/-- Asking for a creation with init code from memory. -/
theorem create (hs : s.frame.IsShort) (c : Context) (salted : Bool) :
    Alike Flow.Alike (create c salted) (Exact.create c salted) s := by
  have hC := IsFrugal.letsWork (L := L)
  refine after (Follows.requireWritable hC.toLetsPay) hs fun _ s₁ h₁ => ?_
  refine after (.onStack Stack.pop3) h₁ fun (value, offset, size) s₂ h₂ => ?_
  refine ite (after (.bind (Follows.pop hC) fun _ => .pure _) h₂ fun kind s₃ h₃ => ?_)
    (after (.pure _) h₂ fun kind s₃ h₃ => ?_)
  all_goals
    refine extendMemory_bind h₃ (by rfl) (by rfl) fun s₄ h₄ hreach => ?_
    -- init code that is too long to be paid for does not come to the check of its length
    rw [hreach.clamp_size]
    refine after (Follows.requireInitCodeSize hC.toLetsPay c _) h₄ fun _ s₅ h₅ => ?_
    refine charge_bind h₅ (Gas.initCode_eq c.fork size.toNat) fun s₆ h₆ => ?_
    refine ite_charge_bind h₆ (Gas.keccakWords_eq size.toNat) fun s₇ h₇ => ?_
    exact readMemory_bind hreach (same .same _)

end Alike

/-- An instruction does the same with its offsets and sizes cut and without, if its frame cannot pay
    for memory up to where they are cut. -/
theorem ofInstruction_alike [Ledger L] {s : Local L} (hs : s.frame.IsShort) (c : Context)
    (ancestors : List Frame) (i : Instruction) :
    Alike Flow.Alike (ofInstruction c ancestors i) (Exact.ofInstruction c ancestors i) s := by
  cases i with
  | keccak256 => exact .next (.keccak256 hs) _
  | callDataCopy | codeCopy => exact .next (.frame_bind (.copyToMemory hs _)) _
  | extCodeCopy =>
    exact .next (.after (Follows.popAccessed IsFrugal.letsWork c) hs
      fun a t ht => .ledger_bind (.copyToMemory ht _)) _
  | returnDataCopy => exact .next (.returnDataCopy hs) _
  | mload => exact .next (.mload hs) _
  | mstore => exact .next (.mstore hs) _
  | mstore8 => exact .next (.mstore8 hs) _
  | log n => exact .next (.log hs n) _
  | create | create2 => exact .create hs c _
  | call | callCode | delegateCall | staticCall => exact .call hs c _
  | ret => exact .next (.setOutput hs) _
  | revert => exact .bind (.setOutput hs) fun _ _ _ _ => .same .same _
  -- the others have no bounds to lose
  | _ => exact .same .same _

/-- Every instruction is like its exact counterpart in a frame that is short of gas. -/
theorem paidEffect_alike [Ledger L] {s : Local L} (hs : s.frame.IsShort) (c : Context)
    (ancestors : List Frame) (i : Instruction) :
    Alike Flow.Alike (Local.paidEffect c ancestors i) (Exact.paidEffect c ancestors i) s :=
  .after (.charge _) hs fun _ _ ht => ofInstruction_alike ht c ancestors i

end Effect

end Evm
