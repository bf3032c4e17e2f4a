import Evm.Ledger.Snapshots
import Evm.Proofs.Instruction.Ranges
import Evm.Proofs.Machine.FrameStack
import Evm.Proofs.Machine.Gas

namespace Evm

/-!
# Bounds on offsets and sizes do not show

Whatever a frame does, what is left of its gas and what its memory has cost come to no more than it
was given, and while a child runs there is room for all the gas of the child as well.  So a frame
that was given less than `2 ^ 26` words of memory cost never has memory up to the largest offset,
and cannot tell that offsets and sizes beyond are cut.

* `Frame.resume_alike` — where an output without bytes is to go plays no part.
* `Machine.Covered` — the gas and the memory of each frame are covered by what it was given.
* `Machine.Visited.isShort` — a frame that was given too little for `2 ^ 26` words is short.
* `ClampingInvisible` — what this means for the instructions of an execution.
* `clamping_invisible` — all executions are like that.
-/

/-! ### Children that are taken in -/

namespace Frame

/-- The merge of a child reads no continuation. -/
theorem mergeChild_continuation (f : Frame) (k : Option Continuation) (childGas : Meter)
    (result : ExecutionResult) :
    ({ f with continuation := k } : Frame).mergeChild childGas result =
      { f.mergeChild childGas result with continuation := k } := by
  rw [mergeChild_eq, mergeChild_eq]
  dsimp only
  split <;> rfl

/-- A call without output does not depend on where that would go. -/
theorem afterCall_empty (f : Frame) (k k' : Option Continuation) (result : ExecutionResult)
    (offset offset' : Nat) :
    ({ f with continuation := k } : Frame).afterCall result offset 0 =
      ({ f with continuation := k' } : Frame).afterCall result offset' 0 := by
  have nothing : (result.output.extract 0 (min 0 result.output.size)).isEmpty := by
    rw [Nat.zero_min, Array.isEmpty_iff_size_eq_zero, Array.size_extract]
    omega
  have written (offset : Nat) : f.memory.write offset
      (result.output.extract 0 (min 0 result.output.size)) = .ok f.memory := if_pos nothing
  unfold afterCall
  dsimp only
  rw [written, written]

/-- A parent takes in its child alike with continuations that are alike. -/
theorem resume_alike {k k' : Continuation} (h : k.Alike k') (f : Frame) (childGas : Meter)
    (result : ExecutionResult) :
    ({ f with continuation := some k } : Frame).resume childGas result =
      ({ f with continuation := some k' } : Frame).resume childGas result := by
  cases h with
  | same => rfl
  | empty offset offset' =>
    have merged (k : Continuation) := f.mergeChild_continuation (some k) childGas result
    rw [resume_eq, resume_eq, merged, merged]
    exact afterCall_empty ..

/-- The memory of a parent stays as large as it is. -/
theorem words_resume (parent : Frame) (childGas : Meter) (result : ExecutionResult) :
    (parent.resume childGas result).memory.words = parent.memory.words := by
  -- a write of the result stays inside the memory that was paid for
  have merged : (parent.mergeChild childGas result).memory = parent.memory := by
    rw [mergeChild_eq]
    dsimp only
    split <;> rfl
  rw [resume_eq, ← merged]
  dsimp only
  split
  · unfold afterCall
    dsimp only
    split
    · rfl
    · rename_i hwrite
      have kept := Memory.words_of_write hwrite
      split
      · exact kept
      · exact kept
  · unfold afterCreate
    dsimp only
    split <;> rfl
  · rfl

end Frame

/-! ### What frames were given -/

/-- A new frame has all that it was given, and no memory. -/
theorem Frame.funds_ofMessage (message : Message) (refund stackLimit : Nat) :
    (ofMessage message refund stackLimit).funds = message.gasLimit := by
  have empty : (ofMessage message refund stackLimit).memory.words = 0 := by
    simp [ofMessage, Memory.words]
  have free : Memory.cost 0 = 0 := by decide
  rw [funds, empty, free]
  rfl

/-- The parent has room for all the gas of the child, next to what is left of its own and what its
    memory has cost. -/
def Frame.Supports (child parent : Frame) : Prop :=
  parent.funds + child.gas.limit ≤ parent.gas.limit

variable {L : Type} [Ledger L]

namespace Machine

variable {c : Context} {m m' : Machine L}

/-- What is left of the gas of a frame and what its memory has cost are covered by what it was
    given, also with what its child may give back. -/
structure Covered (m : Machine L) : Prop where
  top : m.top.funds ≤ m.top.gas.limit
  below : List.IsChain Frame.Supports (m.top :: m.below)

omit [Ledger L] in
/-- Whether a frame is supported depends on what it was given alone. -/
theorem isChain_supports_congr {f g : Frame} {below : List Frame}
    (h : g.gas.limit = f.gas.limit) (hchain : List.IsChain Frame.Supports (f :: below)) :
    List.IsChain Frame.Supports (g :: below) := by
  cases below with
  | nil => exact .singleton g
  | cons parent below =>
    obtain ⟨hsupports, hrest⟩ := List.isChain_cons_cons.1 hchain
    refine List.isChain_cons_cons.2 ⟨?_, hrest⟩
    unfold Frame.Supports
    rw [h]
    exact hsupports

omit [Ledger L] in
/-- A top frame that only spends. -/
theorem Covered.spend (h : m.Covered) (hbelow : m'.below = m.below)
    (hlimit : m'.top.gas.limit = m.top.gas.limit) (hspends : m.top.Spends 0 m'.top) :
    m'.Covered where
  top := calc m'.top.funds
      ≤ m.top.funds := hspends.funds
    _ ≤ m.top.gas.limit := h.top
    _ = m'.top.gas.limit := hlimit.symm
  below := by
    rw [hbelow]
    exact isChain_supports_congr hlimit h.below

/-- The preparation pays for nothing. -/
theorem prepare_spends (c : Context) (m : Machine L) : m.top.Spends 0 (m.prepare c).top := by
  obtain ⟨program, snapshot, heq⟩ := m.toLocal.attempt_prepare_eq c
  unfold prepare
  dsimp only
  rw [heq]
  split
  · exact (Frame.Spends.refl m.top).congr rfl rfl
  · exact (Frame.Spends.refl m.top).congr rfl rfl

omit [Ledger L] in
/-- Nor does the opening of the frame. -/
theorem enter_spends (c : Context) (m : Machine L) : m.top.Spends 0 (m.enter c).top := by
  unfold enter
  cases m.calledPrecompile c with
  | none => exact (Frame.Spends.refl m.top).congr rfl rfl
  | some p =>
    obtain ⟨gas, output, hgas, heq⟩ := m.top.answered_eq p
    dsimp only
    rw [Local.attempt_runPrecompile]
    dsimp only [toLocal]
    rw [heq]
    exact .of_gas hgas rfl

/-- A turn pays for the gas that it hands to a child. -/
theorem turn_spends {o : Outcome} {s : Local L} {t : Trace} (h : m.turn c = (o, s, t)) :
    m.top.Spends o.childGas s.frame :=
  have spends := Local.turn_spends (s := m.running) h
  ⟨spends.funds, spends.words⟩

/-- The top frame asks for a child, whose gas it has spent. -/
theorem Covered.spawn (h : m.Covered) {message : Message} {k : Continuation} {s : Local L}
    {t : Trace} (hturn : m.turn c = (.waits message k, s, t)) :
    ((m.landed s t).spawn c message k).Covered where
  top := Nat.le_of_eq (Frame.funds_ofMessage ..)
  below := by
    have hlimit := (turn_gas hturn).1
    -- the parent has paid for the child, so this much of what it was given is free
    have paid : s.frame.funds + message.gasLimit ≤ m.top.funds := (turn_spends hturn).funds
    have given : m.top.funds ≤ m.top.gas.limit := h.top
    refine List.isChain_cons_cons.2 ⟨?_, isChain_supports_congr hlimit h.below⟩
    show s.frame.funds + message.gasLimit ≤ s.frame.gas.limit
    omega

/-- The parent takes back no more than there is room for. -/
theorem Covered.pop (h : m.Covered) {parent : Frame} {below : List Frame}
    (hbelow : m.below = parent :: below) : (m.handedTo c parent below).Covered := by
  have hlimit := (m.handedTo_gas c parent below).1
  obtain ⟨-, hchain⟩ := h
  rw [hbelow] at hchain
  obtain ⟨room, hrest⟩ := List.isChain_cons_cons.1 hchain
  change parent.funds + m.top.gas.limit ≤ parent.gas.limit at room
  refine ⟨?_, isChain_supports_congr hlimit hrest⟩
  -- the child leaves no more gas than it was given, and that was set aside
  have taken : (m.handedTo c parent below).top.gas.remaining ≤
      parent.gas.remaining + (m.toLocal.finalize c m.isRoot).2.frame.gas.remaining :=
    (m.handedTo_gas c parent below).2.1.symm ▸ Nat.min_le_left ..
  have left : (m.toLocal.finalize c m.isRoot).2.frame.gas.remaining ≤ m.top.gas.remaining :=
    m.toLocal.finalize_gas c m.isRoot
  have within := m.top.gas.remaining_le
  have kept : (m.handedTo c parent below).top.memory.words = parent.memory.words :=
    parent.words_resume ..
  unfold Frame.funds at room ⊢
  rw [hlimit, kept]
  omega

/-- One step keeps the stack covered: what a child receives, its parent has paid. -/
theorem Covered.step (h : m.Covered) (hstep : Stepped c m m') : m'.Covered := by
  cases hstep with
  | prepares hphase => exact h.spend rfl (by rw [prepare_gas]) (m.prepare_spends c)
  | enters hphase => exact h.spend (enter_below c m) (m.enter_gas c).1 (m.enter_spends c)
  | continues hrun hturn =>
    exact h.spend rfl (turn_gas hturn).1 ((turn_spends hturn).weaken (Nat.zero_le _))
  | ends hrun hturn hends =>
    exact h.spend rfl (turn_gas hturn).1
      (((turn_spends hturn).weaken (Nat.zero_le _)).congr rfl rfl)
  | spawns hrun hturn => exact h.spawn hturn
  | pops hphase hbelow => exact h.pop hbelow

namespace Visited

variable {l : L} {message : Message} {observer : Observer}

/-- Every machine of an execution is covered. -/
theorem covered (h : Visited c l message observer m) : m.Covered :=
  h.invariant ⟨Nat.le_of_eq (Frame.funds_ofMessage ..), .singleton _⟩ fun _ _ hm hstep => hm.step hstep

/-- A frame that was given less than the price of `2 ^ 26` words is short of them. -/
theorem isShort (h : Visited c l message observer m)
    (hlimit : m.top.gas.limit < Memory.cost (2 ^ 26)) : m.top.IsShort where
  funds := Nat.lt_of_le_of_lt h.covered.top hlimit
  words := h.stacked.top.fits.words

end Visited

end Machine

/-! ### Instructions -/

/-- A turn ends with the failure of its instruction. -/
theorem Local.turn_of_error {c : Context} {ancestors : List Frame} {s t : Local L} (trace : Trace)
    {i : Instruction} (hnext : s.frame.nextInstruction c.fork = some i) {e : VmError}
    (hrun : (paidEffect c ancestors i).run s = .error e t) :
    (s.turn c ancestors trace).1 = .failed e := by
  rw [turn_eq_runInstruction ancestors trace hnext]
  unfold runInstruction
  rw [hrun]
  dsimp only
  split
  · rename_i heq
    cases heq
  · rename_i heq
    cases heq
    rfl
  · rename_i heq
    cases heq
    rfl

open Machine in
/-- In the execution of a message it does not show that instructions cut their offsets and sizes,
    where a frame was given less gas than `2 ^ 26` words of memory cost. -/
structure ClampingInvisible (c : Context) (l : L) (message : Message) (observer : Observer) :
    Prop where
  /-- The next instruction does the same with its operands as they are and with exact prices: both
      ways succeed or both fail, and either way the gas, the memory, the stack and all else is the
      same after it. -/
  alike {m : Machine L} {i : Instruction} : Visited c l message observer m → m.Executes c i →
    m.top.gas.limit < Memory.cost (2 ^ 26) →
      Effect.Alike Flow.Alike (Local.paidEffect c m.below i) (Exact.paidEffect c m.below i) m.running
  /-- If it asks for a child whose output is to go to another place, none is to go there, and the
      parent takes in the result alike. -/
  resumed {k k' : Continuation} (parent : Frame) (childGas : Meter) (result : ExecutionResult) :
    k.Alike k' → ({ parent with continuation := some k } : Frame).resume childGas result =
      ({ parent with continuation := some k' } : Frame).resume childGas result
  /-- An instruction that comes to its memory runs out of gas if it wants a range that is not empty
      and ends beyond the largest offset. -/
  beyond {m : Machine L} {i : Instruction} {offset len : Nat} : Visited c l message observer m →
    m.Executes c i → m.top.gas.limit < Memory.cost (2 ^ 26) → m.top.Reaches i →
      (offset, len) ∈ m.top.ranges i → len ≠ 0 → maxOffset < offset + len →
      (m.turn c).1 = .failed .outOfGas
  /-- So does each single access, whatever the frame has spent before it. -/
  access {m : Machine L} {s : Local L} {offset size : Word} : Visited c l message observer m →
    m.top.gas.limit < Memory.cost (2 ^ 26) → m.top.Spends 0 s.frame → size ≠ 0 →
      maxOffset < offset.toNat + size.toNat →
      (Effect.extendMemory offset.clampOffset size.clampOffset).run s = .error .outOfGas s
  /-- An access of size zero succeeds at any offset and changes nothing. -/
  empty (s : Local L) (offset : Word) :
    (Effect.extendMemory offset.clampOffset (0 : Word).clampOffset).run s = .ok () s ∧
      (Effect.readMemory offset.clampOffset (0 : Word).clampOffset).run s = .ok #[] s ∧
      (Effect.writeMemory offset.clampOffset #[]).run s = .ok () s

open Machine in
/-- In no execution does it show. -/
theorem clamping_invisible (c : Context) (l : L) (message : Message) (observer : Observer) :
    ClampingInvisible c l message observer where
  alike {m i} hm _ hlimit := by
    -- the phase is no part of what makes a frame short
    have short : m.running.frame.IsShort := ⟨(hm.isShort hlimit).funds, (hm.isShort hlimit).words⟩
    exact Effect.paidEffect_alike short c m.below i
  resumed parent childGas result h := parent.resume_alike h childGas result
  beyond {m i offset len} hm hexec hlimit hreaches hrange hlen hend := by
    have short := hm.isShort hlimit
    -- no gas limit of that size pays for what lies beyond
    have far := Exact.InReach.not_iff.2 ⟨hlen, hend⟩
    have start : m.top.HasTaken 0 m.running.frame :=
      ⟨(Frame.Spends.refl m.top).congr rfl rfl, rfl, rfl, rfl⟩
    have runs : Effect.RunsOut m.top 0 (Local.paidEffect c m.below i : Effect L Flow) :=
      .after (.charge _) fun _ =>
        Effect.ofInstruction_runsOut short c m.below hreaches hrange far
    obtain ⟨t, hrun⟩ := runs m.running start
    exact Local.turn_of_error m.trace hexec.2 hrun
  access {m s offset size} hm hlimit hspends hsize hend := by
    have short := hspends.isShort (hm.isShort hlimit)
    have some : size.toNat ≠ 0 := fun h => hsize (BitVec.eq_of_toNat_eq h)
    have fails := Memory.extend_beyond short.funds short.words some hend
    rw [Effect.run_extendMemory]
    unfold Word.clampOffset
    rw [fails]
  empty s offset := by
    refine ⟨rfl, ?_, rfl⟩
    show EStateM.Result.ok (s.frame.memory.read _ 0) s = _
    rw [Memory.read_empty]

/-- A contract hashes no bytes at the last of all offsets, which costs no memory, and then wants to
    store a word there, which runs out of gas. -/
theorem clamping_invisible_at_last_offset :
    let c : Context := { precompiles := .none }
    let last : Bytes := Array.replicate 32 0xff
    let l := SnapshotLedger.ofWorld (World.setCode {} 7
      (#[0x60, 0, 0x7f] ++ last ++ #[0x20, 0x7f] ++ last ++ #[0x52]))
    let message := Message.call 1 7 0 #[] 100000
    let m := (Machine.launch c l message .off).after c 4
    let m' := (Machine.launch c l message .off).after c 6
    Memory.cost (2 ^ 26) = 8796294348800 ∧
      Machine.Visited c l message .off m ∧ m.Executes c .keccak256 ∧
      Effect.Alike Flow.Alike (Local.paidEffect c m.below .keccak256)
        (Exact.paidEffect c m.below .keccak256) m.running ∧
      (m.turn c).1 = .continues ∧ (m.turn c).2.1.frame.memory.size = 0 ∧
      Machine.Visited c l message .off m' ∧ m'.Executes c .mstore ∧
      (2 ^ 256 - 1, 32) ∈ m'.top.ranges .mstore ∧ (m'.turn c).1 = .failed .outOfGas := by
  intro c last l message m m'
  have visited : Machine.Visited c l message .off m :=
    Machine.Visited.iff_after.2 ⟨Nat.zero_le _, 4, rfl⟩
  have visited' : Machine.Visited c l message .off m' :=
    Machine.Visited.iff_after.2 ⟨Nat.zero_le _, 6, rfl⟩
  have hashes : m.Executes c .keccak256 := ⟨.inl (by decide +kernel), by decide +kernel⟩
  have stores : m'.Executes c .mstore := ⟨.inl (by decide +kernel), by decide +kernel⟩
  have price : Memory.cost (2 ^ 26) = 8796294348800 := by decide
  have few : m.top.gas.limit < Memory.cost (2 ^ 26) := by decide +kernel
  have few' : m'.top.gas.limit < Memory.cost (2 ^ 26) := by decide +kernel
  have far : (2 ^ 256 - 1, 32) ∈ m'.top.ranges .mstore := by decide +kernel
  have reaches : m'.top.Reaches .mstore :=
    ⟨by decide +kernel, fun h => by simp at h, fun h => by simp at h⟩
  have invisible := clamping_invisible c l message .off
  exact ⟨price, visited, hashes, invisible.alike visited hashes few, by decide +kernel,
    by decide +kernel, visited', stores, far,
    invisible.beyond visited' stores few' reaches far (by decide) (by decide)⟩

end Evm
