import Evm.Proofs.Instruction.Causes
import Evm.Proofs.Instruction.Exact
import Evm.Proofs.Instruction.Ranges

namespace Evm

/-!
# Memory as an array without end

Memory shows a byte at every position, zero past its end.  Growth changes none of them, a write only
those of its range.  An instruction that copies puts a slice of its source there, with zeros past
the end of the source; offset and size are cut to the largest ones before, which shows only in a
memory that goes up to the largest offset.

* `Memory.byte` — what memory shows.
* `Memory.Receives` — memory before and after a slice has been copied into it.
* `Local.copy` — what an instruction copies, by its operands.
* `Effect.paidEffect_copies` — an instruction that succeeds has copied that.
* `copies_are_slices` — memory, copies and CALLDATALOAD together.
-/

/-! ### Memory -/

/-- Gas that is there can be spent. -/
theorem Meter.exists_consume {gas : Meter} {amount : Nat} (h : amount ≤ gas.remaining) :
    ∃ gas', gas.consume amount = .ok gas' ∧ gas'.remaining = gas.remaining - amount :=
  ⟨_, if_pos h, rfl⟩

namespace Memory

/-- The byte at a position; zero past the end. -/
def byte (m : Memory) (i : Nat) : UInt8 := m.data.getD i 0

variable {m m' m'' : Memory} {offset len : Nat} {gas gas' : Meter}

/-- Memory that can be counted shows the same bytes when it grows. -/
theorem byte_of_extend (hrange : InRange offset len) (h : m.extend offset len gas = .ok (m', gas'))
    (i : Nat) : m'.byte i = m.byte i :=
  getD_of_extend hrange h i

/-- A written byte is the one that was given, and every other byte is as it was. -/
theorem byte_of_write {b : Bytes} (h : m.write offset b = .ok m') (i : Nat) :
    m'.byte i = if offset ≤ i ∧ i < offset + b.size then b.getD (i - offset) 0 else m.byte i := by
  unfold byte
  rw [Array.getD_eq_getD_getElem?, getElem?_of_write h]
  split
  · rw [Array.getD_eq_getD_getElem?]
  · rw [Array.getD_eq_getD_getElem?]

/-- What is read is what the memory holds. -/
theorem getD_read (m : Memory) (offset len i : Nat) :
    (m.read offset len).getD i 0 = if i < len then m.byte (offset + i) else 0 := by
  rw [read_eq_window, Bytes.getD_window]
  rfl

/-- Once a slice has been copied: at `size` positions from `dest` on stand the bytes of the source
    from `src` on, zero past its end, and everywhere else what stood there before. -/
def Receives (m : Memory) (source : Bytes) (dest src size : Nat) (m' : Memory) : Prop :=
  ∀ i, m'.byte i =
    if dest ≤ i ∧ i < dest + size then source.getD (src + (i - dest)) 0 else m.byte i

/-- Where nothing is copied, it does not matter where. -/
theorem Receives.of_empty {source : Bytes} {dest src : Nat} (h : m.Receives source dest src 0 m')
    (dest' : Nat) : m.Receives source dest' src 0 m' := by
  intro i
  rw [h i, if_neg (by omega), if_neg (by omega)]

/-- Memory that has been made large enough and then written to. -/
theorem receives_of_write {source : Bytes} {dest src size : Nat} (hrange : InRange dest size)
    (hgrown : m.extend dest size gas = .ok (m', gas'))
    (hwrite : m'.write dest (source.window src size) = .ok m'') :
    m.Receives source dest src size m'' := by
  intro i
  rw [byte_of_write hwrite, Bytes.size_window, Bytes.getD_window, byte_of_extend hrange hgrown]
  split
  · rw [if_pos (by omega)]
  · rfl

end Memory

/-! ### Copies -/

/-- What an instruction copies into memory. -/
structure Copy where
  source : Bytes
  dest : Word
  src : Word
  size : Word

/-- What the instruction copies, by its operands. -/
def Local.copy {L : Type} [Ledger L] (s : Local L) : Instruction → Option Copy
  | .callDataCopy =>
    some ⟨s.frame.message.input, s.frame.operand 0, s.frame.operand 1, s.frame.operand 2⟩
  | .codeCopy =>
    some ⟨s.frame.program.code.bytes, s.frame.operand 0, s.frame.operand 1, s.frame.operand 2⟩
  | .returnDataCopy =>
    some ⟨s.frame.returnData, s.frame.operand 0, s.frame.operand 1, s.frame.operand 2⟩
  | .extCodeCopy =>
    some ⟨Ledger.code s.ledger (s.frame.operand 0).toAddress, s.frame.operand 1, s.frame.operand 2,
      s.frame.operand 3⟩
  | _ => none

/-- Memory before and after a copy, with offset and size cut to the largest ones.  If the size is
    not zero, the range is there afterwards. -/
structure Copy.Done (copy : Copy) (m m' : Memory) : Prop where
  receives : m.Receives copy.source copy.dest.clampOffset copy.src.toNat copy.size.clampOffset m'
  reach : copy.size.clampOffset ≠ 0 →
    copy.dest.clampOffset + copy.size.clampOffset ≤ m'.size

/-- The cuts only show in memory that goes up to the largest offset. -/
theorem Copy.Done.exact {copy : Copy} {m m' : Memory} (h : copy.Done m m')
    (hsmall : m'.size < maxOffset) :
    m.Receives copy.source copy.dest.toNat copy.src.toNat copy.size.toNat m' := by
  have dest : copy.dest.clampOffset = min copy.dest.toNat maxOffset := rfl
  have size : copy.size.clampOffset = min copy.size.toNat maxOffset := rfl
  have receives := h.receives
  by_cases hnone : copy.size.toNat = 0
  · rw [size, hnone] at receives
    rw [hnone]
    exact receives.of_empty _
  · have reach := h.reach (by omega)
    rwa [show copy.dest.clampOffset = copy.dest.toNat by omega,
      show copy.size.clampOffset = copy.size.toNat by omega] at receives

namespace Effect

variable {L : Type} {s : Local L}

/-- The copy is done when the effect succeeds. -/
theorem copyRange_done (copy : Copy) : Grants
    (copyRange copy.source copy.dest copy.src copy.size)
    (fun _ t => copy.Done s.frame.memory t.frame.memory) s := by
  have hrange := Memory.inRange_operands copy.dest copy.size
  refine .bind (.extendMemory (fun memory gas hgrown => ?_) trivial)
  refine .bind (.charge (fun paid _ => .frame_bind ?_) trivial)
  dsimp only
  cases hwrite : memory.write copy.dest.clampOffset
    (copy.source.window copy.src.toNat copy.size.clampOffset) with
  | error e => exact .throw trivial
  | ok written =>
    refine .modifyFrame ⟨Memory.receives_of_write hrange hgrown hwrite, fun hsome => ?_⟩
    rw [Memory.size_of_write hwrite]
    exact Memory.le_size_of_extend hrange hgrown hsome

/-- The three words that say what to copy. -/
theorem copyToMemory_done (source : Bytes) : Grants (copyToMemory source)
    (fun _ t => (Copy.mk source (s.frame.operand 0) (s.frame.operand 1) (s.frame.operand 2)).Done
      s.frame.memory t.frame.memory) s := by
  refine .bind (.onStack (fun (dest, src, size) stack hpop => ?_) trivial)
  unfold Frame.operand
  rw [Stack.eq_of_pop3 hpop]
  exact copyRange_done ⟨source, dest, src, size⟩

/-- An access costs gas at most. -/
theorem accessAccount_spends [Ledger L] (fork : Fork) (a : Address) (surcharge : Nat) :
    Grants (accessAccount fork a surcharge) (fun _ t =>
      (∃ gas, t.frame = { s.frame with gas }) ∧ Ledger.Accessed s.ledger t.ledger) s := by
  refine Ensures.ite (fun _ => .bind (.of_run rfl ?_)) fun _ => .pure ⟨⟨_, rfl⟩, .refl _⟩
  refine .ite (fun _ => .charge (fun gas _ => ?_) trivial) fun _ => .pure ?_
  · exact ⟨⟨gas, rfl⟩, .account a (.refl _)⟩
  · exact ⟨⟨_, rfl⟩, .account a (.refl _)⟩

variable [Ledger L] [LawfulLedger L]

/-- An instruction that copies and succeeds has copied what its operands say. -/
theorem paidEffect_copies (c : Context) (ancestors : List Frame) {i : Instruction} {copy : Copy}
    (hcopy : s.copy i = some copy) : Grants (Local.paidEffect c ancestors i)
      (fun _ t => copy.Done s.frame.memory t.frame.memory) s := by
  refine .bind (.charge (fun gas _ => ?_) trivial)
  cases i with
  | callDataCopy | codeCopy =>
    cases hcopy
    exact .next (.frame_bind (copyToMemory_done _))
  | returnDataCopy =>
    cases hcopy
    refine .next (.bind (.onStack (fun (dest, src, size) stack hpop => .frame_bind ?_) trivial))
    refine .ite (fun _ => ?_) fun _ => .throw trivial
    unfold Frame.operand
    rw [show s.frame.stack = _ from Stack.eq_of_pop3 hpop]
    exact copyRange_done ⟨s.frame.returnData, dest, src, size⟩
  | extCodeCopy =>
    cases hcopy
    refine .next (.bind (.bind (.bind (.onStack (fun w stack hpop => .pure ?_) trivial))))
    refine .bind ((accessAccount_spends c.fork w.toAddress _).mono fun _ t ht => ?_)
    obtain ⟨⟨paid, hframe⟩, haccessed⟩ := ht
    refine .pure (.ledger_bind ?_)
    -- the access leaves the code alone
    have code : Ledger.code t.ledger w.toAddress = Ledger.code s.ledger w.toAddress :=
      congrFun (congrArg LedgerState.code haccessed.state) _
    have copied := copyToMemory_done (s := t) (Ledger.code t.ledger w.toAddress)
    rw [code, hframe] at copied
    unfold Frame.operand at copied ⊢
    rw [show s.frame.stack = _ from Stack.eq_of_pop hpop]
    rw [code]
    exact copied
  | _ => cases hcopy

omit [LawfulLedger L] in
/-- A word of call data shows the bytes from its offset on. -/
theorem callDataLoad_pushes (c : Context) (ancestors : List Frame) :
    Grants (Local.paidEffect c ancestors .callDataLoad)
      (fun _ t => ∃ w : Word, t.frame.stack.items = w :: s.frame.stack.items.drop 1 ∧
        ∀ i < 32, w.toBytes.getD i 0 =
          s.frame.message.input.getD ((s.frame.operand 0).toNat + i) 0) s := by
  refine .bind (.charge (fun gas _ => .next (.bind (.onStack (fun offset stack hpop => ?_) trivial)))
    trivial)
  refine .frame_bind (.push (fun _ => ?_) trivial)
  refine ⟨Word.ofBytes (s.frame.message.input.window offset.toNat 32), ?_, fun i hi => ?_⟩
  · rw [show s.frame.stack = _ from Stack.eq_of_pop hpop]
    rfl
  · have first : s.frame.operand 0 = offset := by
      rw [Frame.operand, show s.frame.stack = _ from Stack.eq_of_pop hpop]
      rfl
    rw [Word.toBytes_ofBytes (Bytes.size_window ..), Bytes.getD_window, if_pos hi, first]

/-! ### When a copy fails -/

omit [Ledger L] [LawfulLedger L] in
/-- To copy return data past its end fails before anything is copied. -/
theorem returnDataCopy_past {dest src size : Word} {stack : Stack}
    (hpop : s.frame.stack.pop3 = .ok ((dest, src, size), stack))
    (hpast : s.frame.returnData.size < src.toNat + size.toNat) :
    (returnDataCopy : Effect L Unit).run s =
      .error (.outOfBounds src.clampOffset size.clampOffset)
        { s with frame := { s.frame with stack } } := by
  rw [returnDataCopy, run_bind, pop3, run_onStack, hpop]
  dsimp only
  rw [run_frame_bind]
  dsimp only
  rw [if_neg (Nat.not_le.2 hpast)]
  rfl

omit [LawfulLedger L] in
/-- With its operands and its fixed price at hand, RETURNDATACOPY goes out of bounds if and only if
    it asks for more than there is. -/
theorem returnDataCopy_outOfBounds_iff (c : Context) (ancestors : List Frame)
    (hsize : 3 ≤ s.frame.stack.size)
    (hgas : Instruction.staticGas c.fork .returnDataCopy ≤ s.frame.gas.remaining) :
    (∃ offset size t, (Local.paidEffect c ancestors .returnDataCopy).run s =
      .error (.outOfBounds offset size) t) ↔
        s.frame.returnData.size < (s.frame.operand 1).toNat + (s.frame.operand 2).toNat := by
  constructor
  · rintro ⟨offset, size, t, hrun⟩
    -- of the causes of a failure only this one names a range
    rcases paidEffect_fails hrun with hfault | ⟨hrevert, -⟩ | ⟨-, _, _, -, dest, src, len, rest, hover⟩
    · exact hfault.elim
    · cases hrevert
    · obtain ⟨hitems, hpast, -, -⟩ := hover
      unfold Frame.operand
      rwa [hitems]
  -- nothing else is in the way: the operands are there and the static price is paid
  · intro hpast
    have popped := Stack.pop3_dropped (s := s.frame.stack) (n := 0) hsize
    obtain ⟨gas, hpaid, -⟩ := Meter.exists_consume hgas
    refine ⟨(s.frame.operand 1).clampOffset, (s.frame.operand 2).clampOffset,
      { s with frame := { s.frame with gas, stack := s.frame.stack.dropped 3 } }, ?_⟩
    rw [Local.paidEffect, run_bind, run_charge, hpaid]
    dsimp only
    show (do returnDataCopy; return .next : Effect L Flow).run _ = _
    rw [run_bind, returnDataCopy_past (s := { s with frame := { s.frame with gas } }) popped hpast]
    rfl

end Effect

/-! ### Copies that go through -/

/-- A range whose whole price is there is granted, and leaves the rest. -/
theorem Memory.extend_of_price (m : Memory) {offset len rest : Nat} {gas : Meter}
    (h : cost (wordCount (Counter.add offset len)) + rest ≤ gas.remaining) :
    ∃ m' gas', m.extend offset len gas = .ok (m', gas') ∧ rest ≤ gas'.remaining := by
  rw [extend_eq]
  split
  · exact ⟨m, gas, rfl, by omega⟩
  · have growth : expansionCost m.words (wordCount (Counter.add offset len)) ≤
        cost (wordCount (Counter.add offset len)) := by
      unfold expansionCost
      split
      · exact Nat.zero_le _
      · exact Nat.sub_le _ _
    obtain ⟨gas', hpaid, left⟩ := gas.exists_consume (Nat.le_trans growth (by omega))
    rw [hpaid]
    exact ⟨_, gas', rfl, by omega⟩

namespace Effect

variable {L : Type} {s : Local L}

/-- A copy goes through if the price of its range and of the bytes is there. -/
theorem copyRange_runs (source : Bytes) (dest src size : Word)
    (hgas : Memory.cost (wordCount (Counter.add dest.clampOffset size.clampOffset)) +
      Gas.copy size.clampOffset ≤ s.frame.gas.remaining) :
    ∃ t, (copyRange source dest src size).run s = .ok () t := by
  obtain ⟨memory, gas, hgrown, hleft⟩ := s.frame.memory.extend_of_price hgas
  obtain ⟨gas', hpaid, -⟩ := Meter.exists_consume hleft
  have reach := Memory.reach_of_extend (Memory.inRange_operands dest size) hgrown
  have exact : (source.window src.toNat size.clampOffset).size ≤ size.clampOffset :=
    Nat.le_of_eq (Bytes.size_window ..)
  obtain ⟨written, hwrite⟩ := Memory.write_of_reach exact reach
  refine ⟨{ s with frame := { s.frame with memory := written, gas := gas' } }, ?_⟩
  rw [copyRange, run_bind, run_extendMemory, hgrown]
  dsimp only
  rw [run_bind, run_charge, hpaid]
  dsimp only
  rw [writeMemory, run_frame_bind, hwrite]
  rfl

/-- So does CALLDATACOPY, with its operands and its fixed price. -/
theorem callDataCopy_runs [Ledger L] (c : Context) (ancestors : List Frame) {dest src size : Word}
    {stack : Stack} (hpop : s.frame.stack.pop3 = .ok ((dest, src, size), stack))
    (hgas : Instruction.staticGas c.fork .callDataCopy +
      (Memory.cost (wordCount (Counter.add dest.clampOffset size.clampOffset)) +
        Gas.copy size.clampOffset) ≤ s.frame.gas.remaining) :
    ∃ t, (Local.paidEffect c ancestors .callDataCopy).run s = .ok .next t := by
  obtain ⟨gas, hpaid, left⟩ := s.frame.gas.exists_consume (Nat.le_trans (Nat.le_add_right _ _) hgas)
  obtain ⟨t, hcopied⟩ := copyRange_runs (s := { s with frame := { s.frame with gas, stack } })
    s.frame.message.input dest src size (show _ ≤ gas.remaining by omega)
  refine ⟨t, ?_⟩
  rw [Local.paidEffect, run_bind, run_charge, hpaid]
  dsimp only
  show ((frame >>= fun f => copyToMemory f.message.input) >>= fun _ => pure .next :
    Effect L Flow).run _ = _
  rw [run_bind, run_frame_bind, copyToMemory, run_bind, pop3, run_onStack]
  dsimp only
  rw [hpop]
  dsimp only
  rw [hcopied]
  rfl

end Effect

/-- Memory is an array of bytes without end, all zero at first, and copies are slices that are put
    there.  Growth changes no byte, unless the range ends past the last word that can be counted:
    then the size starts again from zero, and memory that was not as large already is empty.  A
    write changes the bytes of its range, and a reader sees those of its range.  An instruction that
    copies and succeeds has put the slice of its source there that its operands say, with offset and
    size cut to the largest ones.  Unless memory then goes up to the largest offset, that is what
    the operands say without the cuts; a frame whose funds do not reach for `2 ^ 26` words has no
    such memory.  CALLDATALOAD gives a slice of its source in the same way, and RETURNDATACOPY goes
    out of bounds if and only if its slice ends past the return data. -/
theorem copies_are_slices {L : Type} [Ledger L] [LawfulLedger L] :
    (∀ i, ({} : Memory).byte i = 0) ∧
    (∀ (m m' : Memory) (offset len : Nat) (gas gas' : Meter),
      m.extend offset len gas = .ok (m', gas') →
        (offset + len + 31 ≤ Counter.limit → ∀ i, m'.byte i = m.byte i) ∧
        (Counter.limit < offset + len + 31 →
          if len = 0 ∨ Counter.add offset len ≤ m.size then m' = m else m' = {})) ∧
    (∀ (m m' : Memory) (offset : Nat) (b : Bytes), m.write offset b = .ok m' → ∀ i, m'.byte i =
      if offset ≤ i ∧ i < offset + b.size then b.getD (i - offset) 0 else m.byte i) ∧
    (∀ (m : Memory) (offset len : Nat), (m.read offset len).size = len ∧
      ∀ i < len, (m.read offset len).getD i 0 = m.byte (offset + i)) ∧
    (∀ (c : Context) (ancestors : List Frame) (i : Instruction) (copy : Copy) (s t : Local L)
      (flow : Flow), s.copy i = some copy →
        (Local.paidEffect c ancestors i).run s = .ok flow t →
          s.frame.memory.Receives copy.source (min copy.dest.toNat maxOffset) copy.src.toNat
            (min copy.size.toNat maxOffset) t.frame.memory ∧
          (t.frame.memory.size < maxOffset → s.frame.memory.Receives copy.source copy.dest.toNat
            copy.src.toNat copy.size.toNat t.frame.memory) ∧
          (s.frame.gas.remaining + Memory.cost s.frame.memory.words < Memory.cost (2 ^ 26) →
            32 ∣ s.frame.memory.size → t.frame.memory.size < maxOffset)) ∧
    (∀ (c : Context) (ancestors : List Frame) (s t : Local L) (flow : Flow),
      (Local.paidEffect c ancestors .callDataLoad).run s = .ok flow t →
        ∃ w : Word, t.frame.stack.items = w :: s.frame.stack.items.drop 1 ∧
          ∀ i < 32, w.toBytes.getD i 0 =
            s.frame.message.input.getD ((s.frame.operand 0).toNat + i) 0) ∧
    ∀ (c : Context) (ancestors : List Frame) (s : Local L), 3 ≤ s.frame.stack.size →
      Instruction.staticGas c.fork .returnDataCopy ≤ s.frame.gas.remaining →
        ((∃ offset size t, (Local.paidEffect c ancestors .returnDataCopy).run s =
          .error (.outOfBounds offset size) t) ↔
            s.frame.returnData.size < (s.frame.operand 1).toNat + (s.frame.operand 2).toNat) := by
  refine ⟨fun i => rfl, ?_, ?_, ?_, ?_, ?_, ?_⟩
  · intro m m' offset len gas gas' h
    refine ⟨fun hrange => Memory.byte_of_extend hrange h, fun hpast => ?_⟩
    split
    · rename_i hlarge
      exact ((Memory.cases_of_extend h).resolve_right fun hgrown => hgrown.1 hlarge).2.1
    · rename_i hsmall
      exact Memory.extend_past_end (Nat.not_le.2 hpast) hsmall h
  · exact fun m m' offset b h => Memory.byte_of_write h
  · intro m offset len
    refine ⟨m.size_read offset len, fun i hi => ?_⟩
    rw [Memory.getD_read, if_pos hi]
  · intro c ancestors i copy s t flow hcopy hrun
    have done := (Effect.paidEffect_copies c ancestors hcopy).elim hrun
    refine ⟨done.receives, done.exact, fun hfunds hwords => ?_⟩
    have asks : i.asksForChild = false := by
      cases i <;> first | rfl | cases hcopy
    have frugal : Effect.IsFrugal (Local.paidEffect c ancestors i : Effect L Flow) :=
      .bind (Effect.IsFrugal.charge _) fun _ => Effect.IsFrugal.ofInstruction c ancestors asks
    have short := (frugal.goes hrun).isShort ⟨hfunds, hwords⟩
    exact (Memory.size_of_short short.funds short.words).2
  · exact fun c ancestors s t flow hrun => (Effect.callDataLoad_pushes c ancestors).elim hrun
  · exact fun c ancestors s hsize hgas => Effect.returnDataCopy_outOfBounds_iff c ancestors hsize hgas

/-- A frame copies two bytes of its call data, of which only the first is there. -/
theorem copies_are_slices_past_call_data :
    let c : Context := { precompiles := .none }
    let s : Local SnapshotLedger :=
      { frame := { Frame.ofMessage (.call 1 7 0 #[1, 2, 3] 1000) 0 1024 with
          stack := { items := [5, 2, 2] } }
        ledger := SnapshotLedger.ofWorld {} }
    ∃ t, (Local.paidEffect c [] .callDataCopy).run s = .ok .next t ∧
      t.frame.memory.byte 4 = 0 ∧ t.frame.memory.byte 5 = 3 ∧ t.frame.memory.byte 6 = 0 := by
  intro c s
  obtain ⟨t, hrun⟩ := Effect.callDataCopy_runs (s := s) c [] rfl (by decide +kernel)
  obtain ⟨-, -, -, -, copies, -⟩ := copies_are_slices (L := SnapshotLedger)
  obtain ⟨-, exact, short⟩ := copies c [] .callDataCopy ⟨#[1, 2, 3], 5, 2, 2⟩ s t .next rfl hrun
  have receives := exact (short (by decide +kernel) (by decide +kernel))
  exact ⟨t, hrun, receives 4, receives 5, receives 6⟩

/-- The cut shows in a frame that can pay for so much memory: it copies one byte to the position
    `2 ^ 31`, and the byte is put before that. -/
theorem copy_past_largest_offset :
    let c : Context := { precompiles := .none }
    let s : Local SnapshotLedger :=
      { frame := { Frame.ofMessage (.call 1 7 0 #[1] 10000000000000) 0 1024 with
          stack := { items := [0x80000000, 0, 1] } }
        ledger := SnapshotLedger.ofWorld {} }
    let copy : Copy := ⟨#[1], 0x80000000, 0, 1⟩
    s.copy .callDataCopy = some copy ∧
      ∃ t, (Local.paidEffect c [] .callDataCopy).run s = .ok .next t ∧
        t.frame.memory.byte 0x7fffffff = 1 ∧ t.frame.memory.byte 0x80000000 = 0 ∧
        ¬ s.frame.memory.Receives copy.source copy.dest.toNat copy.src.toNat copy.size.toNat
          t.frame.memory := by
  intro c s copy
  obtain ⟨t, hrun⟩ := Effect.callDataCopy_runs (s := s) c [] rfl (by decide +kernel)
  have done : copy.Done s.frame.memory t.frame.memory :=
    (Effect.paidEffect_copies c [] rfl).elim hrun
  have last : t.frame.memory.byte 0x7fffffff = 1 := done.receives 0x7fffffff
  have past : t.frame.memory.byte 0x80000000 = 0 := done.receives 0x80000000
  refine ⟨rfl, t, hrun, last, past, fun hexact => ?_⟩
  have wanted : t.frame.memory.byte 0x80000000 = 1 := hexact 0x80000000
  exact absurd (past.symm.trans wanted) (by decide)

end Evm
