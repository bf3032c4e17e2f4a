import Evm.Proofs.Instruction.Conduct
import Evm.Proofs.Instruction.Words

namespace Evm

/-!
# Instructions at work

Instructions are put together from a few parts.  A conduct that lets an effect use these parts lets
it be any instruction, but for what single instructions do with the output, the program, the
records, the refund or the ledger; there it is asked about these alone.

* `VmError.IsFault` — how instructions fail in general.
* `Effect.Conduct.LetsPay`, `Effect.Conduct.LetsWork` — conducts that allow the parts beside the
  stack, and all of them.
* `Effect.Follows.ofPlain` — the instructions that do nothing else.
* `Effect.Follows.call`, `Effect.Follows.create` — requests, if a child may be skipped.
* `Effect.Follows.log`, `Effect.Follows.sstore`, `Effect.Follows.selfDestruct`,
  `Effect.Follows.setOutput`, `Effect.Follows.jumpTo` — the others.
-/

/-! ### Failures of the parts -/

/-- Memory only fails to grow for want of gas. -/
theorem Memory.error_of_extend {m : Memory} {offset len : Nat} {gas : Meter} {e : VmError}
    (h : m.extend offset len gas = .error e) : e = .outOfGas := by
  rw [extend_eq] at h
  split at h
  · cases h
  · cases hgas : gas.consume (expansionCost m.words (wordCount (Counter.add offset len))) with
    | error err =>
      rw [hgas] at h
      cases h
      exact (Meter.consume_eq_error_iff.1 hgas).1
    | ok paid =>
      rw [hgas] at h
      cases h

/-- A write that fails goes out of bounds. -/
theorem Memory.error_of_write {m : Memory} {offset : Nat} {b : Bytes} {e : VmError}
    (h : m.write offset b = .error e) : e = .outOfBounds offset b.size := by
  unfold write at h
  split at h
  · cases h
  · split at h <;> cases h
    rfl

/-- A jump that fails has no target. -/
theorem Program.error_of_jump {p : Program} {target : Nat} {e : VmError}
    (h : p.jump target = .error e) : e = .invalidJumpDestination target := by
  unfold jump at h
  split at h <;> cases h
  rfl

/-- Gas for a child can only be set aside if it is there. -/
theorem Gas.error_of_forCall {fork : Fork} {available : Nat} {requested : Word} {e : VmError}
    (h : forCall fork available requested = .error e) : e = .outOfGas := by
  unfold forCall at h
  split at h
  · cases h
  · split at h <;> cases h
    rfl

/-- What instructions fail with in general: no rollback that the code asks for, and no range out of
    bounds. -/
def VmError.IsFault : VmError → Prop
  | stackUnderflow | stackOverflow | outOfGas | invalidJumpDestination _ | invalidInstruction _
  | staticStateChange | initCodeSizeExceeded _ _ | state _ => True
  | _ => False

/-- Every fault of an instruction uses up the gas. -/
theorem VmError.IsFault.consumesAllGas {e : VmError} (h : e.IsFault) : e.consumesAllGas = true := by
  cases e <;> first | rfl | exact h.elim

/-- The instruction works on its frame and looks at the ledger, and does nothing else. -/
def Instruction.isPlain : Instruction → Bool
  | sstore | log _ | jump | jumpi | create | create2 | call | callCode | delegateCall | staticCall
  | ret | revert | selfDestruct | returnDataCopy => false
  | _ => true

namespace Effect

variable {L : Type} [Ledger L] {α : Type}

/-! ### Conducts that allow the parts -/

/-- The conduct lets an effect pay, use memory that it has paid for, and look at accounts and slots.
    It may fail as instructions in general do, but not for want of room on the stack. -/
structure Conduct.LetsPay (C : Conduct L) : Prop where
  refuse {x : VmError} : x.IsFault → x ≠ .stackOverflow → ∀ s, C.fails x s s
  charge (amount : Nat) : Follows C (charge amount)
  extendMemory {offset len : Nat} : Memory.InRange offset len → Follows C (extendMemory offset len)
  store {offset len : Nat} {b : Bytes} : Memory.InRange offset len → b.size ≤ len →
    Follows C (do Effect.extendMemory offset len; writeMemory offset b)
  storePaid {offset len amount : Nat} {b : Bytes} : Memory.InRange offset len → b.size ≤ len →
    Follows C (do Effect.extendMemory offset len; Effect.charge amount; writeMemory offset b)
  lookAtAccount (a : Address) : Follows C (onLedger (Ledger.accessAccount · a))
  lookAtSlot (slot : Slot) : Follows C (onLedger (Ledger.accessSlot · slot))

/-- And it lets the effect use the stack, in any way that fails for want of words or of room. -/
structure Conduct.LetsWork (C : Conduct L) : Prop extends C.LetsPay where
  onStack {α : Type} {f : Stack → Except VmError (α × Stack)} : Stack.Faults f →
    Follows C (onStack f)

/-- Where any write is allowed, those to memory that is paid for are. -/
theorem Conduct.LetsPay.of_writeMemory {C : Conduct L}
    (refuse : ∀ {x : VmError}, x.IsFault → x ≠ .stackOverflow → ∀ s, C.fails x s s)
    (charge : ∀ amount, Follows C (Effect.charge amount))
    (extendMemory : ∀ {offset len}, Memory.InRange offset len →
      Follows C (Effect.extendMemory offset len))
    (writeMemory : ∀ offset b, Follows C (Effect.writeMemory offset b))
    (lookAtAccount : ∀ a, Follows C (onLedger (Ledger.accessAccount · a)))
    (lookAtSlot : ∀ slot, Follows C (onLedger (Ledger.accessSlot · slot))) : C.LetsPay where
  refuse := refuse
  charge := charge
  extendMemory := extendMemory
  store hrange _ := .bind (extendMemory hrange) fun _ => writeMemory _ _
  storePaid hrange _ := .bind (extendMemory hrange) fun _ => .bind (charge _) fun _ =>
    writeMemory _ _
  lookAtAccount := lookAtAccount
  lookAtSlot := lookAtSlot

/-- So does any conduct that allows as much. -/
theorem Conduct.LetsWork.imp {C D : Conduct L} (hC : C.LetsWork)
    (hgoes : ∀ {s t}, C.goes s t → D.goes s t)
    (hfails : ∀ {x s t}, C.fails x s t → D.fails x s t) : D.LetsWork where
  refuse hx hroom s := hfails (hC.refuse hx hroom s)
  charge amount := (hC.charge amount).imp hgoes hfails
  extendMemory hrange := (hC.extendMemory hrange).imp hgoes hfails
  store hrange hb := (hC.store hrange hb).imp hgoes hfails
  storePaid hrange hb := (hC.storePaid hrange hb).imp hgoes hfails
  lookAtAccount a := (hC.lookAtAccount a).imp hgoes hfails
  lookAtSlot slot := (hC.lookAtSlot slot).imp hgoes hfails
  onStack hf := (hC.onStack hf).imp hgoes hfails

namespace Follows

variable {C : Conduct L}

/-! ### Beside the stack -/

section Paying

variable (hC : C.LetsPay)

include hC

/-- The first access to an account is paid for. -/
theorem accessAccount (fork : Fork) (a : Address) (surcharge : Nat) :
    Follows C (accessAccount fork a surcharge) :=
  ite (bind (hC.lookAtAccount a) fun _ => ite (hC.charge surcharge) (pure ())) (pure ())

/-- So is the first access to a slot. -/
theorem accessSlot (fork : Fork) (slot : Slot) (surcharge : Nat) :
    Follows C (accessSlot fork slot surcharge) :=
  ite (bind (hC.lookAtSlot slot) fun _ => ite (hC.charge surcharge) (pure ())) (pure ())

/-- A static frame refuses to change state. -/
theorem requireWritable : Follows C (Effect.requireNonStatic : Effect L Unit) :=
  requireNonStatic (hC.refuse trivial nofun)

/-- Looking at the gas that is left is work, and may find it short. -/
theorem requireSentry (c : Context) : Follows C (requireSentry c) :=
  frame_bind fun _ => ite (throw (hC.refuse trivial nofun)) (pure ())

/-- Looking at the size of init code is work, and may find it too large. -/
theorem requireInitCodeSize (c : Context) (size : Nat) : Follows C (requireInitCodeSize c size) :=
  ite (throw (hC.refuse trivial nofun)) (pure ())

/-- A copy is paid for before it is made. -/
theorem copyRange (source : Bytes) (dest src size : Word) :
    Follows C (copyRange source dest src size) :=
  hC.storePaid (Memory.inRange_operands dest size) (Nat.le_of_eq (Bytes.size_window _ _ _))

/-- Gas for a child is set aside if it is there. -/
theorem reserveCallGas (c : Context) (requested value : Word) :
    Follows C (reserveCallGas c requested value) := by
  refine frame_bind fun f => ?_
  cases hgas : Gas.forCall c.fork f.gas.remaining requested with
  | ok gas => exact bind (hC.charge gas) fun _ => pure _
  | error e => exact throw (Gas.error_of_forCall hgas ▸ hC.refuse trivial nofun)

omit hC in
/-- Looking whether a child can be afforded is work. -/
theorem canSpawn (c : Context) (value : Word) : Follows C (canSpawn c value) :=
  frame_bind fun _ => ledger_bind fun _ => pure _

omit hC [Ledger L] in
/-- The refund for a destruction, if the refund counter may have it. -/
theorem refundDestruction
    (hrefund : Follows C
      (modifyFrame fun f => { f with gas := f.gas.addRefund Gas.selfDestructRefund }))
    (fork : Fork) (ancestors : List Frame) : Follows C (refundDestruction fork ancestors) :=
  frame_bind fun _ => ite hrefund (pure ())

end Paying

/-! ### With the stack -/

section Working

variable (hC : C.LetsWork)

include hC

/-- So is an operation on the stack. -/
theorem updateStack {f : Stack → Except VmError Stack} (hf : Stack.Faults f) :
    Follows C (updateStack f) :=
  hC.onStack hf.update

/-- So is a push. -/
theorem push (w : Word) : Follows C (push w) := updateStack hC (Stack.faults_push w)

/-- So is taking a word. -/
theorem pop : Follows C (pop : Effect L Word) := hC.onStack Stack.drops_pop.faults

/-- So is taking two words. -/
theorem pop2 : Follows C (pop2 : Effect L (Word × Word)) := hC.onStack Stack.drops_pop2.faults

/-- So is taking three words. -/
theorem pop3 : Follows C (pop3 : Effect L (Word × Word × Word)) :=
  hC.onStack Stack.drops_pop3.faults

/-- So is taking four words. -/
theorem pop4 : Follows C (pop4 : Effect L (Word × Word × Word × Word)) :=
  hC.onStack Stack.drops_pop4.faults

/-- So is taking an address. -/
theorem popAddress : Follows C (popAddress : Effect L Address) := bind (pop hC) fun _ => pure _

/-- So is taking an address and accessing it. -/
theorem popAccessed (c : Context) : Follows C (popAccessed c) :=
  bind (popAddress hC) fun _ => bind (accessAccount hC.toLetsPay _ _ _) fun _ => pure _

/-- So is taking topics. -/
theorem popTopics (n : Nat) : Follows C (popTopics n : Effect L (List Word)) := by
  induction n with
  | zero => exact pure []
  | succ n ih => exact bind (pop hC) fun topic => bind ih fun rest => pure (topic :: rest)

/-- So is a copy into memory. -/
theorem copyToMemory (source : Bytes) : Follows C (copyToMemory source) :=
  bind (pop3 hC) fun (dest, src, size) => copyRange hC.toLetsPay source dest src size

/-- Return data past its end, if one may fail for that. -/
theorem returnDataCopy (hpast : ∀ offset size s, C.fails (.outOfBounds offset size) s s) :
    Follows C (returnDataCopy : Effect L Unit) :=
  bind (pop3 hC) fun (dest, src, size) => frame_bind fun f =>
    ite (copyRange hC.toLetsPay f.returnData dest src size) (throw (hpast _ _))

/-- So is a hash of memory. -/
theorem keccak256 : Follows C (keccak256 : Effect L Unit) :=
  bind (pop2 hC) fun (offset, size) =>
    bind (hC.extendMemory (Memory.inRange_operands offset size)) fun _ =>
      bind (hC.charge _) fun _ => bind (readMemory _ _) fun b => push hC (Evm.keccak256 b)

/-- The plain instructions. -/
theorem ofPlain (c : Context) (ancestors : List Frame) {i : Instruction} (hi : i.isPlain = true) :
    Follows C (ofInstruction c ancestors i) := by
  -- one range of memory from an operand, of a fixed size
  have range (offset : Word) {len : Nat} (hlen : len ≤ maxOffset) :
      Memory.InRange offset.clampOffset len := Memory.inRange_operand offset hlen
  cases i with
  | sstore | log n | jump | jumpi | create | create2 | call | callCode | delegateCall | staticCall
  | ret | revert | selfDestruct | returnDataCopy => cases hi
  | stop | jumpDest => exact pure _
  | invalid => exact throw (hC.refuse trivial nofun)
  | isZero | not | blockHash => exact next (bind (pop hC) fun _ => push hC _) _
  | add | mul | sub | div | sdiv | mod | smod | signExtend | lt | gt | slt | sgt | eq | and | or
  | xor | byte | shl | shr | sar => exact next (bind (pop2 hC) fun _ => push hC _) _
  | addMod | mulMod => exact next (bind (pop3 hC) fun _ => push hC _) _
  | exp => exact next (bind (pop2 hC) fun _ => bind (hC.charge _) fun _ => push hC _) _
  | keccak256 => exact next (keccak256 hC) _
  | origin | gasPrice | coinbase | timestamp | number | prevRandao | gasLimit | chainId | baseFee =>
    exact next (push hC _) _
  | address | caller | callValue | callDataSize | codeSize | returnDataSize | pc | msize | gas
  | push n => exact next (frame_bind fun _ => push hC _) _
  | callDataLoad => exact next (bind (pop hC) fun _ => frame_bind fun _ => push hC _) _
  | callDataCopy | codeCopy => exact next (frame_bind fun _ => copyToMemory hC _) _
  | balance | extCodeSize | extCodeHash =>
    exact next (bind (popAccessed hC c) fun _ => ledger_bind fun _ => push hC _) _
  | extCodeCopy =>
    exact next (bind (popAccessed hC c) fun _ => ledger_bind fun _ => copyToMemory hC _) _
  | selfBalance => exact next (ledger_bind fun _ => frame_bind fun _ => push hC _) _
  | pop => exact next (bind (pop hC) fun _ => pure ()) _
  | mload =>
    exact next (bind (pop hC) fun offset => bind (hC.extendMemory (range offset (by decide)))
      fun _ => frame_bind fun _ => push hC _) _
  | mstore =>
    exact next (bind (pop2 hC) fun (offset, value) => hC.store (range offset (by decide))
      (Nat.le_of_eq (Word.size_toBytes value))) _
  | mstore8 =>
    exact next (bind (pop2 hC) fun (offset, _) => hC.store (range offset (by decide))
      (Nat.le_refl 1)) _
  | sload =>
    exact next (bind (pop hC) fun _ => frame_bind fun _ =>
      bind (accessSlot hC.toLetsPay _ _ _) fun _ => ledger_bind fun _ => push hC _) _
  | dup n => exact next (updateStack hC (Stack.faults_dup n)) _
  | swap n => exact next (updateStack hC (Stack.faults_swap n)) _

/-! ### Instructions that leave something -/

/-- The output, if the frame may have one of that size. -/
theorem setOutput
    (houtput : ∀ output : Bytes, output.size ≤ maxOffset →
      Follows C (modifyFrame ({ · with output }))) : Follows C (setOutput : Effect L Unit) := by
  refine bind (pop2 hC) fun (offset, size) => ?_
  refine bind (hC.extendMemory (Memory.inRange_operands offset size)) fun _ => ?_
  -- the output is as long as it was asked to be, and no more than so much can be asked for
  exact readMemory_bind fun output hsize => houtput output (hsize ▸ size.clampOffset_le)

/-- A record, if the frame may keep one. -/
theorem log
    (hrecord : ∀ topics data, Follows C
      (modifyFrame fun f => { f with logs := f.logs.push { address := f.address, topics, data } }))
    (n : Nat) : Follows C (log n) := by
  refine bind (requireWritable hC.toLetsPay) fun _ => bind (pop2 hC) fun (offset, size) => ?_
  refine bind (popTopics hC n) fun topics => ?_
  refine bind (hC.extendMemory (Memory.inRange_operands offset size)) fun _ => ?_
  exact bind (hC.charge _) fun _ => bind (readMemory _ _) fun data => hrecord topics data

/-- A storage write, if the refund counter and the slot may change. -/
theorem sstore
    (hrefund : ∀ less more : Nat, Follows C
      (modifyFrame fun f => { f with gas := (f.gas.subRefund less).addRefund more }))
    (hwrite : ∀ slot value, Follows C (modifyLedger (Ledger.setStorage · slot value)))
    (c : Context) : Follows C (sstore c) := by
  refine bind (requireWritable hC.toLetsPay) fun _ => bind (requireSentry hC.toLetsPay c) fun _ => ?_
  refine bind (pop2 hC) fun _ => frame_bind fun _ => ?_
  refine bind (accessSlot hC.toLetsPay _ _ _) fun _ => ledger_bind fun _ => ?_
  exact bind (hC.charge _) fun _ => bind (hrefund _ _) fun _ => hwrite _ _

/-- A destruction, if it may be refunded and registered and the balance may be handed over. -/
theorem selfDestruct
    (hrefund : Follows C
      (modifyFrame fun f => { f with gas := f.gas.addRefund Gas.selfDestructRefund }))
    (hregister : ∀ a, Follows C (modifyFrame (·.registerSelfDestruct a)))
    (hhand : ∀ beneficiary balance,
      Follows C (tryLedger (Ledger.tryAddBalance beneficiary balance) .state))
    (hburn : ∀ a, Follows C (modifyLedger (Ledger.setBalance · a 0)))
    (c : Context) (ancestors : List Frame) : Follows C (selfDestruct c ancestors) := by
  refine bind (requireWritable hC.toLetsPay) fun _ => bind (popAddress hC) fun beneficiary => ?_
  refine frame_bind fun f => bind (accessAccount hC.toLetsPay _ _ _) fun _ => ledger_bind fun l => ?_
  refine ite_bind (hC.charge _) fun _ => bind (refundDestruction hrefund _ _) fun _ => ?_
  exact bind (hregister f.address) fun _ => ite_bind (hhand _ _) fun _ => hburn f.address

/-- A jump, if the program may be elsewhere. -/
theorem jumpTo (hjump : ∀ program, Follows C (modifyFrame ({ · with program }))) (target : Word) :
    Follows C (jumpTo target) := by
  refine frame_bind fun f => ?_
  cases h : f.program.jump (min target.toNat Counter.limit) with
  | ok program => exact bind (hjump program) fun _ => pure _
  | error e => exact throw (Program.error_of_jump h ▸ hC.refuse trivial nofun)

/-! ### Requests -/

/-- A child that is skipped, if what was set aside for it may come back. -/
theorem skipSpawn
    (hback : ∀ reserved, Follows C
      (modifyFrame fun f => { f with gas := f.gas.giveBack reserved, returnData := #[] }))
    (reserved : Nat) : Follows C (skipSpawn reserved) :=
  bind (hback reserved) fun _ => bind (push hC 0) fun _ => pure _

/-- Asking for a call, if the child may be skipped. -/
theorem call (hskip : ∀ reserved, Follows C (Effect.skipSpawn reserved)) (c : Context)
    (form : CallForm) : Follows C (call c form) := by
  have paying := hC.toLetsPay
  refine bind (pop2 hC) fun (requested, target) => ?_
  -- the forms that take a value, and those that take none
  refine ite (bind (pop hC) fun value => ?_) (bind (pure 0) fun value => ?_)
  all_goals
    refine bind (pop4 hC) fun (inOffset, inLen, outOffset, outLen) => ?_
    refine ite_bind (requireWritable paying) fun _ => bind (accessAccount paying _ _ _) fun _ => ?_
    refine bind (hC.extendMemory (Memory.inRange_operands inOffset inLen)) fun _ => ?_
    refine bind (hC.extendMemory (Memory.inRange_operands outOffset outLen)) fun _ => ?_
    refine ite_bind (hC.charge _) fun _ => ledger_bind fun _ => ite_bind (hC.charge _) fun _ => ?_
    refine bind (reserveCallGas paying c requested value) fun gasLimit => ?_
    refine bind (canSpawn c value) fun _ => ite ?_ (hskip gasLimit)
    exact bind (readMemory _ _) fun _ => frame_bind fun _ => pure _

/-- Asking for a creation, if the child may be skipped. -/
theorem create (hskip : ∀ reserved, Follows C (Effect.skipSpawn reserved)) (c : Context)
    (salted : Bool) : Follows C (create c salted) := by
  have paying := hC.toLetsPay
  refine bind (requireWritable paying) fun _ => bind (pop3 hC) fun (value, offset, size) => ?_
  -- the salt is one more word
  refine ite (bind (bind (pop hC) fun _ => pure _) fun kind => ?_) (bind (pure _) fun kind => ?_)
  all_goals
    refine bind (hC.extendMemory (Memory.inRange_operands offset size)) fun _ => ?_
    refine bind (requireInitCodeSize paying c _) fun _ => bind (hC.charge _) fun _ => ?_
    refine ite_bind (hC.charge _) fun _ => bind (readMemory _ _) fun _ => frame_bind fun _ => ?_
    refine ledger_bind fun _ => frame_bind fun _ => bind (hC.charge _) fun _ => ?_
    exact bind (canSpawn c value) fun _ => ite (frame_bind fun _ => pure _) (hskip _)

end Working

end Follows

end Effect

end Evm
