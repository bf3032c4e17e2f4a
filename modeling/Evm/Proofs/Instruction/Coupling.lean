import Evm.Machine.Turn
import Evm.Proofs.Instruction.Agreement

namespace Evm

/-!
# No instruction tells coupled ledgers apart

Every instruction agrees with itself on two coupled ledgers: it reads the same answers, pays the
same gas, asks for the same child, and makes the same writes on both sides.

* `Effect.Agree.sstore`, `Effect.Agree.call` and their kin — one lemma for each part of an
  instruction.
* `Effect.Agree.ofInstruction` — the instruction set.
* `Local.turn_sameTurn` — one turn of a frame, with what an observer sees of it.
-/

/-- A write is never free. -/
theorem Gas.storageWrite_charge_pos (fork : Fork) (start current new : Word) :
    1 ≤ (storageWrite fork start current new).charge := by
  -- each of the prices that the write may choose from is positive
  have noop : 1 ≤ sstoreNoop fork := by
    unfold sstoreNoop
    split
    · decide
    · split <;> decide
  have reset : 1 ≤ sstoreReset fork := by
    unfold sstoreReset
    split <;> decide
  unfold storageWrite netWrite grossWrite
  split
  · split
    · exact noop
    · split
      · split
        · decide
        · exact reset
      · exact noop
  · dsimp only
    split <;> decide

/-- Every instruction has a fixed price but those that end the frame, and storage writes. -/
theorem Instruction.staticGas_pos (i : Instruction) (f : Fork)
    (h : i ∉ [stop, ret, revert, invalid, sstore, selfDestruct]) : 1 ≤ i.staticGas f := by
  have choice {p : Prop} [Decidable p] {a b : Nat} (ha : 1 ≤ a) (hb : 1 ≤ b) :
      1 ≤ if p then a else b := by split <;> assumption
  cases i with
  | stop | ret | revert | invalid | sstore | selfDestruct => simp at h
  | balance => exact choice (by decide) (choice (by decide) (choice (by decide) (by decide)))
  | extCodeSize | extCodeCopy => exact choice (by decide) (choice (by decide) (by decide))
  | extCodeHash => exact choice (by decide) (choice (by decide) (by decide))
  | sload => exact choice (by decide) (choice (by decide) (choice (by decide) (by decide)))
  | call | callCode | delegateCall | staticCall =>
    exact choice (by decide) (choice (by decide) (by decide))
  | push n => cases n <;> exact Nat.le_of_ble_eq_true rfl
  | _ => exact Nat.le_of_ble_eq_true rfl

/-- A refund does not change what a frame was given. -/
theorem Meter.limit_addRefund (m : Meter) (amount : Nat) :
    (m.addRefund amount).limit = m.limit := rfl

/-- A refund is no gas that could be spent. -/
theorem Meter.remaining_addRefund (m : Meter) (amount : Nat) :
    (m.addRefund amount).remaining = m.remaining := rfl

/-! ### Where an instruction leads -/

/-- What a flow has cost at least: a frame that goes on has paid, and one that asks for a child
    has paid for the gas of the child as well. -/
def Flow.price : Flow → Nat
  | .next | .jumped => 1
  | .halt => 0
  | .spawn message _ => message.gasLimit + 1

/-- Entering a frame with the message changes no account: nothing is created, and if value moves at
    all then from an account to itself. -/
structure Message.IsHarmless (m : Message) : Prop where
  isCreate : m.isCreate = false
  value : m.kind.transfersValue = true → m.value = 0 ∨ m.sender = m.recipient

/-- The first message is one that a frame with the second may ask for.  The child acts on the
    account whose code it runs, on the account of its parent, or on a new one, and its value is what
    its parent pays. -/
structure Message.IsChildOf (child parent : Message) : Prop where
  depth : child.depth = parent.childDepth
  isStatic : parent.isStatic = true → child.isStatic = true
  payer : child.kind.transfersValue = true → child.sender = parent.recipient
  account : child.isCreate = true ∨ child.recipient = child.codeAddress
    ∨ child.recipient = parent.recipient
  harmless : child.isStatic = true → child.IsHarmless

/-- A child that a flow asks for is one that the frame may ask for. -/
def Flow.IsFrom (parent : Message) : Flow → Prop
  | .spawn message _ => message.IsChildOf parent
  | _ => True

/-- A frame that may not change state has to call without value.  Value that goes with the code of
    another account stays where it is. -/
theorem Effect.CallForm.isChildOf_message (form : CallForm) (parent : Message) (target : Address)
    {value : Word} (hvalue : form = .call → parent.isStatic = true → value = 0) (input : Bytes)
    (gasLimit : Nat) : (form.message parent target value input gasLimit).IsChildOf parent := by
  cases form with
  | call =>
    refine ⟨rfl, by simp [message], fun _ => rfl, .inr (.inl rfl), fun static => ⟨rfl, fun _ => ?_⟩⟩
    exact .inl (hvalue rfl static)
  | callCode =>
    exact ⟨rfl, by simp [message], fun _ => rfl, .inr (.inr rfl), fun _ => ⟨rfl, fun _ => .inr rfl⟩⟩
  | delegateCall => exact ⟨rfl, by simp [message], nofun, .inr (.inr rfl), fun _ => ⟨rfl, nofun⟩⟩
  | staticCall =>
    exact ⟨rfl, by simp [message], fun _ => rfl, .inr (.inl rfl), fun _ => ⟨rfl, nofun⟩⟩

/-- The child gets the gas that is set aside for it. -/
theorem Effect.CallForm.gasLimit_message (form : CallForm) (parent : Message) (target : Address)
    (value : Word) (input : Bytes) (gasLimit : Nat) :
    (form.message parent target value input gasLimit).gasLimit = gasLimit := by
  cases form <;> rfl

/-- Where an instruction that has not failed has led two runs of a frame. -/
structure Effect.Led {L₁ L₂ : Type} (f₀ : Frame) (token : Option Nat) (Q : L₁ → L₂ → Prop)
    (flow : Flow) (s : Local L₁) (t : Local L₂) : Prop where
  aligned : Aligned f₀ token Q flow.price s t
  isFrom : flow.IsFrom f₀.message

namespace Effect.Agree

variable {L₁ L₂ : Type} {f₀ : Frame} {token : Option Nat} {Q : L₁ → L₂ → Prop}

/-! ### Words -/

/-- Operations on one word agree. -/
theorem unary (f : Word → Word) : Agree f₀ token Q (unary f : Effect L₁ Unit) (unary f) :=
  bind pop fun a => push (f a)

/-- Operations on two words agree. -/
theorem binary (f : Word → Word → Word) :
    Agree f₀ token Q (binary f : Effect L₁ Unit) (binary f) :=
  bind (onStack Stack.pop2) fun (a, b) => push (f a b)

/-- Operations on three words agree. -/
theorem ternary (f : Word → Word → Word → Word) :
    Agree f₀ token Q (ternary f : Effect L₁ Unit) (ternary f) :=
  bind (onStack Stack.pop3) fun (a, b, c) => push (f a b c)

/-- Powers agree, with what the exponent costs. -/
theorem exp (c : Context) : Agree f₀ token Q (exp c : Effect L₁ Unit) (exp c) :=
  bind (onStack Stack.pop2) fun (base, exponent) =>
    bind (charge (Gas.expBytes c.fork exponent)) fun _ => push (Word.exp base exponent)

/-- Hashes of blocks come from the environment. -/
theorem blockHash (c : Context) : Agree f₀ token Q (blockHash c : Effect L₁ Unit) (blockHash c) :=
  bind pop fun number =>
    push (if number.toNat ≤ Counter.limit then c.env.block.ancestorHash number.toNat else 0)

/-! ### Data -/

/-- Copying a range of the same source agrees. -/
theorem copyRange (source : Bytes) (dest src size : Word) :
    Agree f₀ token Q (copyRange source dest src size : Effect L₁ Unit)
      (copyRange source dest src size) :=
  bind (extendMemory dest.clampOffset size.clampOffset) fun _ =>
    bind (charge (Gas.copy size.clampOffset)) fun _ => writeMemory dest.clampOffset _

/-- So it does with operands from the stack. -/
theorem copyToMemory (source : Bytes) :
    Agree f₀ token Q (copyToMemory source : Effect L₁ Unit) (copyToMemory source) :=
  bind (onStack Stack.pop3) fun (dest, src, size) => copyRange source dest src size

/-- Both frames have the same return data. -/
theorem returnDataCopy : Agree f₀ token Q (returnDataCopy : Effect L₁ Unit) returnDataCopy := by
  refine bind (onStack Stack.pop3) fun (dest, src, size) => frame_bind fun f _ => ?_
  exact ite Iff.rfl (fun _ => copyRange f.returnData dest src size) fun _ => throw _

/-- Both frames have the same call data. -/
theorem callDataLoad : Agree f₀ token Q (callDataLoad : Effect L₁ Unit) callDataLoad :=
  bind pop fun _ => frame_bind fun _ _ => push _

/-- Both hash the same bytes. -/
theorem keccak256 : Agree f₀ token Q (keccak256 : Effect L₁ Unit) keccak256 := by
  refine bind (onStack Stack.pop2) fun (offset, size) => ?_
  refine bind (extendMemory offset.clampOffset size.clampOffset) fun _ => ?_
  refine bind (charge (Gas.keccakWords size.clampOffset)) fun _ => ?_
  exact bind (readMemory offset.clampOffset size.clampOffset) fun b => push (Evm.keccak256 b)

/-- Both take the same topics. -/
theorem popTopics (n : Nat) :
    Agree f₀ token Q (popTopics n : Effect L₁ (List Word)) (popTopics n) := by
  induction n with
  | zero => exact pure []
  | succ n ih => exact bind pop fun topic => bind ih fun rest => pure (topic :: rest)

/-- A record is made in both frames or, if they are static, in none. -/
theorem log (topicCount : Nat) :
    Agree f₀ token Q (log topicCount : Effect L₁ Unit) (log topicCount) := by
  refine requireNonStatic_bind fun writable => ?_
  refine bind (onStack Stack.pop2) fun (offset, size) => ?_
  refine bind (popTopics topicCount) fun topics => ?_
  refine bind (extendMemory offset.clampOffset size.clampOffset) fun _ => ?_
  refine bind (charge (Gas.log size.clampOffset topicCount)) fun _ => ?_
  refine bind (readMemory offset.clampOffset size.clampOffset) fun data => ?_
  refine modifyFrame (fun _ => rfl) (fun f hf => ?_) fun _ => rfl
  -- logs are sealed in static frames alone
  have writableHere : f.isStatic = false := (Frame.isStatic_eq_of_activation hf).trans writable
  exact (Frame.activation_withEffects writableHere _ f.selfDestructs).trans hf

/-- Both end with the same output. -/
theorem setOutput : Agree f₀ token Q (setOutput : Effect L₁ Unit) setOutput := by
  refine bind (onStack Stack.pop2) fun (offset, size) => ?_
  refine bind (extendMemory offset.clampOffset size.clampOffset) fun _ => ?_
  refine bind (readMemory offset.clampOffset size.clampOffset) fun output => ?_
  exact modifyFrame (fun _ => rfl) (fun _ h => h) fun _ => rfl

/-- Both load the same word. -/
theorem mload : Agree f₀ token Q (mload : Effect L₁ Unit) mload := by
  refine bind pop fun offset => bind (extendMemory offset.clampOffset 32) fun _ => ?_
  exact frame_bind fun f _ => push (f.memory.readWord offset.clampOffset)

/-- Both store the same word. -/
theorem mstore : Agree f₀ token Q (mstore : Effect L₁ Unit) mstore := by
  refine bind (onStack Stack.pop2) fun (offset, value) => ?_
  refine bind (extendMemory offset.clampOffset 32) fun _ => ?_
  exact writeMemory offset.clampOffset value.toBytes

/-- Both store the same byte. -/
theorem mstore8 : Agree f₀ token Q (mstore8 : Effect L₁ Unit) mstore8 := by
  refine bind (onStack Stack.pop2) fun (offset, value) => ?_
  refine bind (extendMemory offset.clampOffset 1) fun _ => ?_
  exact writeMemory offset.clampOffset #[value.lowByte]

/-! ### Control -/

/-- A jump moves within the same code. -/
theorem code_of_jump {p p' : Program} {target : Nat} (h : p.jump target = .ok p') :
    p'.code = p.code := by
  unfold Program.jump at h
  split at h
  · rw [← Except.ok.inj h]
  · cases h

/-- A jump leads both to the same target, once it is paid for. -/
theorem jumpTo {spent : Nat} (hpaid : 1 ≤ spent) (target : Word) :
    Leads f₀ token Q spent (jumpTo target : Effect L₁ Flow) (jumpTo target) (Led f₀ token Q) := by
  refine Leads.frame_bind fun f hf => ?_
  rw [Frame.withSnapshot_program]
  -- the target is looked up in the code, which the two frames have in common
  cases hjump : f.program.jump (min target.toNat Counter.limit) with
  | error e => exact Leads.throw e
  | ok program =>
    refine Leads.after (modifyFrame (fun _ => rfl) (fun g hg => ?_) fun _ => rfl) fun _ => ?_
    · -- the jump was computed on the frame that was read, which still runs the same code
      have hcode : program.code = g.program.code := by
        refine (code_of_jump hjump).trans ?_
        exact congrArg Frame.Activation.code (hf.trans hg.symm)
      have kept : ({ g with program } : Frame).activation = g.activation := by
        simp only [Frame.activation, hcode]
        rfl
      exact kept.trans hg
    · exact Leads.pure fun _ _ h' => ⟨h'.weaken hpaid, trivial⟩

/-- Both jump or none does. -/
theorem jumpIf {spent : Nat} (hpaid : 1 ≤ spent) :
    Leads f₀ token Q spent (jumpIf : Effect L₁ Flow) jumpIf (Led f₀ token Q) := by
  refine Leads.after (onStack Stack.pop2) fun (target, condition) => ?_
  refine Leads.ite Iff.rfl (fun _ => ?_) fun _ => jumpTo hpaid target
  exact Leads.pure fun _ _ h' => ⟨h'.weaken hpaid, trivial⟩

/-- Both have the same code to take data from. -/
theorem pushImmediate (n : Nat) :
    Agree f₀ token Q (pushImmediate n : Effect L₁ Unit) (pushImmediate n) :=
  frame_bind fun _ _ => push _

/-! ### Accounts and slots -/

variable [Ledger L₁] [Ledger L₂] (h : InstructionCoupling f₀.message Q)

include h

/-- An address that is taken and accessed is the same on both sides. -/
theorem popAccessed (c : Context) :
    Agree f₀ token Q (popAccessed c : Effect L₁ Address) (popAccessed c) :=
  bind popAddress fun a =>
    bind (accessAccount h c.fork a Gas.coldAccountSurcharge) fun _ => pure a

/-- Both ledgers answer the same balance. -/
theorem balance (c : Context) : Agree f₀ token Q (balance c : Effect L₁ Unit) (balance c) := by
  refine bind (popAccessed h c) fun a => ledger_bind fun l k hq => ?_
  rw [(h.answers hq).balance]
  exact push _

/-- So they do for the account of the frame. -/
theorem selfBalance : Agree f₀ token Q (selfBalance : Effect L₁ Unit) selfBalance := by
  refine ledger_bind fun l k hq => frame_bind fun f _ => ?_
  rw [(h.answers hq).balance]
  exact push _

/-- Both ledgers answer the same code. -/
theorem extCodeSize (c : Context) :
    Agree f₀ token Q (extCodeSize c : Effect L₁ Unit) (extCodeSize c) := by
  refine bind (popAccessed h c) fun a => ledger_bind fun l k hq => ?_
  rw [(h.answers hq).code]
  exact push _

/-- So the same code is copied. -/
theorem extCodeCopy (c : Context) :
    Agree f₀ token Q
      (do let a ← Effect.popAccessed c; Effect.copyToMemory (Ledger.code (← ledger) a) :
        Effect L₁ Unit)
      (do let a ← Effect.popAccessed c; Effect.copyToMemory (Ledger.code (← ledger) a)) := by
  refine bind (popAccessed h c) fun a => ledger_bind fun l k hq => ?_
  rw [(h.answers hq).code]
  exact copyToMemory _

/-- Both ledgers answer the same hash. -/
theorem extCodeHash (c : Context) :
    Agree f₀ token Q (extCodeHash c : Effect L₁ Unit) (extCodeHash c) := by
  refine bind (popAccessed h c) fun a => ledger_bind fun l k hq => ?_
  rw [h.isDead hq, (h.answers hq).codeHash]
  exact push _

/-- Both ledgers answer the same word. -/
theorem sload (c : Context) : Agree f₀ token Q (sload c : Effect L₁ Unit) (sload c) := by
  refine bind pop fun key => frame_bind fun f _ => ?_
  refine bind (accessSlot h c.fork ⟨f.address, key⟩ Gas.coldSlotSurcharge) fun _ => ?_
  refine ledger_bind fun l k hq => ?_
  rw [Frame.withSnapshot_address, (h.answers hq).storage]
  exact push _

omit [Ledger L₁] [Ledger L₂] h in
/-- Both frames have the gas that a write must leave or none has. -/
theorem requireSentry (c : Context) :
    Agree f₀ token Q (requireSentry c : Effect L₁ Unit) (requireSentry c) :=
  frame_bind fun _ _ => ite Iff.rfl (fun _ => throw .outOfGas) fun _ => pure ()

/-- A write costs the same on both sides and is done on both. -/
theorem sstore (c : Context) (spent : Nat) :
    Leads f₀ token Q spent (sstore c : Effect L₁ Unit) (sstore c)
      fun _ => Aligned f₀ token Q (spent + 1) := by
  refine Leads.requireNonStatic_bind fun writable => ?_
  refine Leads.after (requireSentry c) fun _ => ?_
  refine Leads.after (onStack Stack.pop2) fun (key, value) => ?_
  refine Leads.frame_bind fun f hf => ?_
  -- a coupling only promises writes to the slots of the recipient
  have own : f.address = f₀.message.recipient :=
    congrArg Message.recipient (Frame.message_eq_of_activation hf)
  rw [Frame.withSnapshot_address, own]
  refine Leads.after (accessSlot h c.fork ⟨f₀.message.recipient, key⟩ Gas.coldSlot) fun _ => ?_
  refine Leads.ledger_bind fun l k hq => ?_
  rw [(h.answers hq).storage, (h.answers hq).committedStorage]
  refine Leads.charge_bind fun _ => ?_
  -- the instruction has no fixed price, but the write itself is charged for
  have paid := Gas.storageWrite_charge_pos c.fork
    (Ledger.committedStorage k ⟨f₀.message.recipient, key⟩)
    (Ledger.storage k ⟨f₀.message.recipient, key⟩) value
  refine Leads.after (modifyFrame (fun _ => rfl) (fun _ hf => hf) fun _ => rfl) fun _ => ?_
  intro s t hst
  refine (modifyLedger (fun l k hq => h.setStorage hq writable key value) _ s t hst).mono ?_
  exact fun _ _ _ h' => h'.weaken (by omega)

/-! ### Destruction -/

/-- Whether an heir has to be paid for as a new account does not depend on the side. -/
theorem beneficiaryIsNew {l : L₁} {k : L₂} (hq : Q l k) (fork : Fork) (beneficiary : Address)
    (balance : Word) :
    beneficiaryIsNew fork l beneficiary balance = beneficiaryIsNew fork k beneficiary balance := by
  unfold Effect.beneficiaryIsNew
  rw [h.isDead hq, (h.answers hq).accountExists]

omit [Ledger L₁] [Ledger L₂] h in
/-- A refund is granted on both sides or on none, if the frames below have registered the same. -/
theorem refundDestruction (fork : Fork) {ancestors₁ ancestors₂ : List Frame}
    (hanc : ∀ a, ancestors₁.any (·.hasSelfDestructed a) = ancestors₂.any (·.hasSelfDestructed a)) :
    Agree f₀ token Q (refundDestruction fork ancestors₁ : Effect L₁ Unit)
      (refundDestruction fork ancestors₂) := by
  refine frame_bind fun f _ => ?_
  rw [Frame.withSnapshot_hasSelfDestructed, Frame.withSnapshot_address, hanc]
  refine ite Iff.rfl (fun _ => modifyFrame (fun _ => rfl) (fun g hg => ?_) fun g => ?_)
    fun _ => pure ()
  · exact (Frame.activation_withGas (Meter.limit_addRefund g.gas _)).trans hg
  · exact Meter.remaining_addRefund g.gas _

/-- An heir takes the balance on both sides or on none. -/
theorem handOver (writable : f₀.isStatic = false) (a : Address) (amount : Word) :
    Agree f₀ token Q
      (Effect.tryLedger (Ledger.tryAddBalance a amount) .state : Effect L₁ Unit)
      (Effect.tryLedger (Ledger.tryAddBalance a amount) .state) :=
  tryLedger fun _ _ hq => h.addBalance hq writable a amount

/-- An account destroys itself on both sides in the same way. -/
theorem selfDestruct (c : Context) {ancestors₁ ancestors₂ : List Frame}
    (hanc : ∀ a, ancestors₁.any (·.hasSelfDestructed a) = ancestors₂.any (·.hasSelfDestructed a)) :
    Agree f₀ token Q (selfDestruct c ancestors₁ : Effect L₁ Unit) (selfDestruct c ancestors₂) := by
  refine requireNonStatic_bind fun writable => ?_
  refine bind popAddress fun beneficiary => frame_bind fun f _ => ?_
  rw [Frame.withSnapshot_address]
  refine bind (accessAccount h c.fork beneficiary Gas.coldAccount) fun _ => ?_
  refine ledger_bind fun l k hq => ?_
  rw [(h.answers hq).balance]
  refine ite_bind (by rw [beneficiaryIsNew h hq]) (charge Gas.newAccount) fun _ => ?_
  refine bind (refundDestruction c.fork hanc) fun _ => ?_
  refine bind (modifyFrame (fun g => ?_) (fun g hg => ?_) fun g => ?_) fun _ => ?_
  -- the registration reads neither the token nor anything that differs
  · unfold Frame.registerSelfDestruct
    rw [Frame.withSnapshot_hasSelfDestructed]
    split <;> rfl
  · have writableHere : g.isStatic = false := (Frame.isStatic_eq_of_activation hg).trans writable
    exact (Frame.activation_registerSelfDestruct writableHere _).trans hg
  · unfold Frame.registerSelfDestruct
    split <;> rfl
  refine ite_bind Iff.rfl (handOver h writable beneficiary _) fun _ => ?_
  exact modifyLedger fun _ _ hq => h.setBalance hq writable f.address 0

/-! ### Children -/

/-- A child is afforded on both sides or on none. -/
theorem canSpawn (c : Context) (value : Word) :
    Agree f₀ token Q (canSpawn c value : Effect L₁ Bool) (canSpawn c value) := by
  refine frame_bind fun f _ => ledger_bind fun l k hq => ?_
  rw [Frame.withSnapshot_message, Frame.withSnapshot_address, (h.answers hq).balance]
  exact pure _

omit [Ledger L₁] [Ledger L₂] h in
/-- A child that is skipped has been paid for, and more. -/
theorem skipSpawn {spent reserved : Nat} (hpaid : reserved + 1 ≤ spent) :
    Leads f₀ token Q spent (skipSpawn reserved : Effect L₁ Flow) (skipSpawn reserved)
      (Led f₀ token Q) := by
  have back : Leads f₀ token Q spent
      (Effect.modifyFrame (L := L₁) fun f =>
        { f with gas := f.gas.giveBack reserved, returnData := #[] })
      (Effect.modifyFrame fun f => { f with gas := f.gas.giveBack reserved, returnData := #[] })
      fun _ => Aligned f₀ token Q 1 := by
    intro s t hst
    refine .ok ⟨?_, ⟨?_, ?_⟩, hst.ledgers⟩
    · simp only [hst.frame]
      rfl
    · exact (Frame.activation_withGas rfl).trans hst.onward.activation
    -- what was held back for the child is given back, less the unit for the step
    · have := hst.onward.gas
      have given : (s.frame.gas.giveBack reserved).remaining ≤ s.frame.gas.remaining + reserved :=
        Nat.min_le_left _ _
      change (s.frame.gas.giveBack reserved).remaining + 1 ≤ f₀.gas.remaining
      omega
  refine Leads.bind back fun _ s t hst => ?_
  exact Leads.after (push 0) (fun _ => Leads.pure fun _ _ h' => ⟨h', trivial⟩) s t hst

/-- What the child of a call gets for free. -/
def stipend (value : Word) : Nat := if value = 0 then 0 else Gas.callStipend

omit [Ledger L₁] [Ledger L₂] h in
/-- The same gas is set aside on both sides, and it is spent but for the stipend. -/
theorem reserveCallGas (c : Context) (requested value : Word) (spent : Nat) :
    Leads f₀ token Q spent (reserveCallGas c requested value : Effect L₁ Nat)
      (reserveCallGas c requested value)
      fun gasLimit => Aligned f₀ token Q (spent + gasLimit - stipend value) := by
  refine Leads.frame_bind fun f _ => ?_
  rw [Frame.withSnapshot_gas]
  cases Gas.forCall c.fork f.gas.remaining requested with
  | ok gas =>
    refine Leads.charge_bind fun _ => Leads.pure fun s t hst => hst.weaken ?_
    unfold stipend
    split <;> omega
  | error e => exact Leads.throw e

/-- Whether a target has to be paid for as a new account does not depend on the side. -/
theorem targetIsNew {l : L₁} {k : L₂} (hq : Q l k) (fork : Fork) (target : Address)
    (value : Word) : targetIsNew fork l target value = targetIsNew fork k target value := by
  unfold Effect.targetIsNew
  rw [h.isDead hq, (h.answers hq).accountExists]

/-- The stipend is less than what is paid for moving value, so that the child is paid for. -/
theorem call (c : Context) (form : CallForm) :
    Leads f₀ token Q 1 (call c form : Effect L₁ Flow) (call c form) (Led f₀ token Q) := by
  refine Leads.after (onStack Stack.pop2) fun (requested, target) => ?_
  refine Leads.either_after pop (pure 0) fun value => ?_
  refine Leads.after (onStack Stack.pop4) fun (inOffset, inLen, outOffset, outLen) => ?_
  refine Leads.requireNonStatic_if fun writable => ?_
  refine Leads.after (accessAccount h c.fork target.toAddress Gas.coldAccountSurcharge) fun _ => ?_
  refine Leads.after (extendMemory inOffset.clampOffset inLen.clampOffset) fun _ => ?_
  refine Leads.after (extendMemory outOffset.clampOffset outLen.clampOffset) fun _ => ?_
  refine Leads.ite_charge_bind fun _ => ?_
  refine Leads.ledger_bind fun l k hq => ?_
  refine Leads.ite_after (by rw [targetIsNew h hq]) (charge Gas.newAccount) fun _ => ?_
  refine Leads.bind (reserveCallGas c requested value _) fun gasLimit s t hst => ?_
  -- value that moves has cost more than the stipend, so the child never runs on unpaid gas
  have paid : gasLimit + 1 ≤
      (if value ≠ 0 then 1 + Gas.callValue else 1) + gasLimit - stipend value := by
    have covered : Gas.callStipend ≤ Gas.callValue := by decide
    unfold stipend
    by_cases hv : value = 0
    · simp only [hv, ne_eq, not_true_eq_false, if_false, if_true]
      omega
    · simp only [hv, ne_eq, not_false_eq_true, if_false, if_true]
      omega
  refine Leads.after (canSpawn h c value) (fun canSpawn => Leads.ite Iff.rfl (fun _ => ?_)
    fun _ => skipSpawn paid) s t hst
  refine Leads.after (readMemory inOffset.clampOffset inLen.clampOffset) fun input => ?_
  refine Leads.frame_bind fun f hf => Leads.pure fun s t hst => ⟨hst.weaken ?_, ?_⟩
  · rw [Flow.price, CallForm.gasLimit_message]
    exact paid
  · rw [Frame.message_eq_of_activation hf]
    refine CallForm.isChildOf_message _ _ _ (fun hform static => ?_) _ _
    by_contra hv
    exact Bool.eq_false_iff.1 (writable ⟨hform, hv⟩) static

omit [Ledger L₁] [Ledger L₂] h in
/-- Both refuse the same init code. -/
theorem requireInitCodeSize (c : Context) (size : Nat) :
    Agree f₀ token Q (requireInitCodeSize c size : Effect L₁ Unit) (requireInitCodeSize c size) :=
  ite Iff.rfl (fun _ => throw _) fun _ => pure ()

/-- A contract goes to the same address, since the nonces are the same. -/
theorem creationTarget {l : L₁} {k : L₂} (hq : Q l k) (kind : CallKind) (creator : Address)
    (initCode : Bytes) :
    creationTarget kind l creator initCode = creationTarget kind k creator initCode := by
  unfold Effect.creationTarget
  rw [(h.answers hq).nonce]

/-- Both ask for the same creation, or none does. -/
theorem create (c : Context) (salted : Bool) :
    Leads f₀ token Q 1 (create c salted : Effect L₁ Flow) (create c salted) (Led f₀ token Q) := by
  refine Leads.requireNonStatic_bind fun writable => ?_
  refine Leads.after (onStack Stack.pop3) fun (value, offset, size) => ?_
  refine Leads.either_after (bind pop fun salt => pure (CallKind.create2 salt))
    (pure CallKind.create) fun kind => ?_
  refine Leads.after (extendMemory offset.clampOffset size.clampOffset) fun _ => ?_
  refine Leads.after (requireInitCodeSize c size.clampOffset) fun _ => ?_
  refine Leads.after (charge (Gas.initCode c.fork size.clampOffset)) fun _ => ?_
  refine Leads.ite_after Iff.rfl (charge (Gas.keccakWords size.clampOffset)) fun _ => ?_
  refine Leads.after (readMemory offset.clampOffset size.clampOffset) fun initCode => ?_
  refine Leads.frame_bind fun f hf => Leads.ledger_bind fun l k hq => Leads.frame_bind fun g _ => ?_
  rw [Frame.withSnapshot_address, Frame.withSnapshot_gas, creationTarget h hq]
  -- what the child gets is charged here, on top of the unit that the instruction has cost
  refine Leads.charge_bind fun _ => Leads.after (canSpawn h c value) fun canSpawn => ?_
  refine Leads.ite Iff.rfl (fun _ => ?_) fun _ => skipSpawn (by omega)
  refine Leads.frame_bind fun e he => Leads.pure fun s t hst => ⟨hst.weaken ?_, ?_⟩
  · simp only [Flow.price]
    omega
  · refine ⟨?_, fun static => ?_, fun _ => ?_, .inr (.inl rfl), nofun⟩
    · rw [← Frame.message_eq_of_activation he]
    · exact absurd static (Bool.eq_false_iff.1 writable)
    · exact congrArg Message.recipient (Frame.message_eq_of_activation hf)

/-! ### The instruction set -/

omit [Ledger L₁] [Ledger L₂] h in
/-- A part of an instruction after which the program goes on to the next one. -/
theorem next {spent : Nat} (hpaid : 1 ≤ spent) {e₁ : Effect L₁ Unit} {e₂ : Effect L₂ Unit}
    (he : Agree f₀ token Q e₁ e₂) :
    Leads f₀ token Q spent (do e₁; return Flow.next) (do e₂; return Flow.next) (Led f₀ token Q) :=
  Leads.after he fun _ => Leads.pure fun _ _ h' => ⟨h'.weaken hpaid, trivial⟩

omit [Ledger L₁] [Ledger L₂] h in
/-- A part of an instruction after which the frame ends. -/
theorem halt {spent : Nat} {e₁ : Effect L₁ Unit} {e₂ : Effect L₂ Unit}
    (he : Agree f₀ token Q e₁ e₂) :
    Leads f₀ token Q spent (do e₁; return Flow.halt) (do e₂; return Flow.halt) (Led f₀ token Q) :=
  Leads.after he fun _ => Leads.pure fun _ _ h' => ⟨h'.weaken (Nat.zero_le _), trivial⟩

/-- Every instruction leads both runs to the same, once its fixed price is paid. -/
theorem ofInstruction (c : Context) {ancestors₁ ancestors₂ : List Frame}
    (hanc : ∀ a, ancestors₁.any (·.hasSelfDestructed a) = ancestors₂.any (·.hasSelfDestructed a))
    (i : Instruction) :
    Leads f₀ token Q (i.staticGas c.fork) (ofInstruction c ancestors₁ i : Effect L₁ Flow)
      (ofInstruction c ancestors₂ i) (Led f₀ token Q) := by
  -- an instruction that goes on has been paid for by its fixed price, storage writes apart
  have paid := i.staticGas_pos c.fork
  cases i with
  | stop => exact Leads.pure fun _ _ h' => ⟨h'.weaken (Nat.zero_le _), trivial⟩
  | jumpDest => exact Leads.pure fun _ _ h' => ⟨h'.weaken (paid (by simp)), trivial⟩
  | invalid => exact Leads.throw _
  | add | mul | sub | div | sdiv | mod | smod | signExtend | lt | gt | slt | sgt | eq | and | or
  | xor | byte | shl | shr | sar => exact next (paid (by simp)) (binary _)
  | addMod | mulMod => exact next (paid (by simp)) (ternary _)
  | isZero | not => exact next (paid (by simp)) (unary _)
  | exp => exact next (paid (by simp)) (exp c)
  | keccak256 => exact next (paid (by simp)) keccak256
  | balance => exact next (paid (by simp)) (balance h c)
  | origin | gasPrice | coinbase | timestamp | number | prevRandao | gasLimit | chainId | baseFee =>
    exact next (paid (by simp)) (push _)
  | address | caller | callValue | callDataSize | codeSize | returnDataSize | pc | msize | gas =>
    exact next (paid (by simp)) (frame_bind fun _ _ => push _)
  | callDataLoad => exact next (paid (by simp)) callDataLoad
  | callDataCopy | codeCopy => exact next (paid (by simp)) (frame_bind fun _ _ => copyToMemory _)
  | extCodeSize => exact next (paid (by simp)) (extCodeSize h c)
  | extCodeCopy => exact next (paid (by simp)) (extCodeCopy h c)
  | returnDataCopy => exact next (paid (by simp)) returnDataCopy
  | extCodeHash => exact next (paid (by simp)) (extCodeHash h c)
  | blockHash => exact next (paid (by simp)) (blockHash c)
  | selfBalance => exact next (paid (by simp)) (selfBalance h)
  | pop => exact next (paid (by simp)) (bind pop fun _ => pure ())
  | mload => exact next (paid (by simp)) mload
  | mstore => exact next (paid (by simp)) mstore
  | mstore8 => exact next (paid (by simp)) mstore8
  | sload => exact next (paid (by simp)) (sload h c)
  | sstore =>
    refine Leads.bind (sstore h c _) fun _ s t hst => .ok ⟨?_, trivial⟩
    exact hst.weaken (Nat.le_add_left _ _)
  | push n => exact next (paid (by simp)) (pushImmediate n)
  | dup n | swap n => exact next (paid (by simp)) (updateStack _)
  | log n => exact next (paid (by simp)) (log n)
  | jump => exact Leads.after pop fun target => jumpTo (paid (by simp)) target
  | jumpi => exact jumpIf (paid (by simp))
  | create => exact (create h c false).strengthen (paid (by simp))
  | create2 => exact (create h c true).strengthen (paid (by simp))
  | call | callCode | delegateCall | staticCall =>
    exact (call h c _).strengthen (paid (by simp))
  | ret => exact halt setOutput
  | revert => exact Leads.after setOutput fun _ => Leads.throw .revert
  | selfDestruct => exact halt (selfDestruct h c hanc)

/-- So it does together with its fixed price. -/
theorem paidEffect (c : Context) {ancestors₁ ancestors₂ : List Frame}
    (hanc : ∀ a, ancestors₁.any (·.hasSelfDestructed a) = ancestors₂.any (·.hasSelfDestructed a))
    (i : Instruction) :
    Leads f₀ token Q 0 (Local.paidEffect c ancestors₁ i : Effect L₁ Flow)
      (Local.paidEffect c ancestors₂ i) (Led f₀ token Q) :=
  Leads.charge_bind fun _ => (ofInstruction h c hanc i).strengthen (Nat.le_add_left _ _)

end Effect.Agree

/-! ### Turns -/

/-- What an outcome has cost at least. -/
def Outcome.price : Outcome → Nat
  | .continues => 1
  | .halted | .failed _ => 0
  | .waits message _ => message.gasLimit + 1

/-- A child that a frame waits for is one that it may ask for. -/
def Outcome.IsFrom (parent : Message) : Outcome → Prop
  | .waits message _ => message.IsChildOf parent
  | _ => True

namespace Local

variable {L₁ L₂ : Type}

/-- Two turns with the same outcome, which show an observer the same, at related places. -/
inductive SameTurn (f₀ : Frame) (token : Option Nat) (Q : L₁ → L₂ → Prop) :
    Outcome × Local L₁ × Trace → Outcome × Local L₂ × Trace → Prop where
  | mk {o : Outcome} {s : Local L₁} {t : Local L₂} {trace : Trace} :
      o.IsFrom f₀.message → Effect.Aligned f₀ token Q o.price s t →
      SameTurn f₀ token Q (o, s, trace) (o, t, trace)

variable {f₀ : Frame} {token : Option Nat} {Q : L₁ → L₂ → Prop} {s : Local L₁} {t : Local L₂}

/-- Moving on in the code keeps two runs together. -/
theorem aligned_advance {spent : Nat} (h : Effect.Aligned f₀ token Q spent s t) (n : Nat) :
    Effect.Aligned f₀ token Q spent (s.advance n) (t.advance n) := by
  refine ⟨?_, ⟨h.onward.activation, h.onward.gas⟩, h.ledgers⟩
  simp only [advance, h.frame]
  rfl

/-- Where a program goes on is the same on both sides. -/
theorem sameTurn_follow {flow : Flow} (h : Effect.Led f₀ token Q flow s t) (i : Instruction)
    (trace : Trace) :
    SameTurn f₀ token Q ((s.follow i flow).1, (s.follow i flow).2, trace)
      ((t.follow i flow).1, (t.follow i flow).2, trace) := by
  obtain ⟨haligned, hfrom⟩ := h
  cases flow with
  | next => exact .mk trivial (aligned_advance haligned _)
  | jumped => exact .mk trivial haligned
  | halt => exact .mk trivial haligned
  | spawn message k => exact .mk hfrom (aligned_advance haligned 1)

variable [Ledger L₁] [Ledger L₂] (h : InstructionCoupling f₀.message Q)

include h

/-- An instruction makes the same turn on both sides. -/
theorem runInstruction_sameTurn (c : Context) {ancestors₁ ancestors₂ : List Frame}
    (hanc : ∀ a, ancestors₁.any (·.hasSelfDestructed a) = ancestors₂.any (·.hasSelfDestructed a))
    (hst : Effect.Aligned f₀ token Q 0 s t) (trace : Trace) (i : Instruction) :
    SameTurn f₀ token Q (s.runInstruction c ancestors₁ trace i)
      (t.runInstruction c ancestors₂ trace i) := by
  have same := Effect.Agree.paidEffect h c hanc i s t hst
  unfold runInstruction
  rw [hst.frame]
  generalize (paidEffect c ancestors₁ i).run s = r₁ at same
  generalize (paidEffect c ancestors₂ i).run t = r₂ at same
  cases same with
  | ok h' =>
    dsimp only
    rw [h'.aligned.frame]
    exact sameTurn_follow h' i _
  | @error e _ _ h' =>
    -- the failures differ in what the observer is shown
    cases e
    all_goals
      dsimp only
      rw [h'.frame]
      exact .mk trivial h'

/-- A turn on coupled ledgers has one outcome, shows an observer one thing, pays at least the
    price of the outcome, and keeps the ledgers coupled. -/
theorem turn_sameTurn (c : Context) {ancestors₁ ancestors₂ : List Frame}
    (hanc : ∀ a, ancestors₁.any (·.hasSelfDestructed a) = ancestors₂.any (·.hasSelfDestructed a))
    (hst : Effect.Aligned f₀ token Q 0 s t) (trace : Trace) :
    SameTurn f₀ token Q (s.turn c ancestors₁ trace) (t.turn c ancestors₂ trace) := by
  unfold turn
  rw [hst.frame, Frame.withSnapshot_program]
  cases s.frame.program.current with
  | none => exact .mk trivial hst
  | some b =>
    dsimp only
    cases Instruction.decode c.fork b with
    | some i => exact runInstruction_sameTurn h c hanc hst trace i
    | none =>
      simp only [undefinedInstruction, hst.frame]
      exact .mk trivial hst

end Local

/-! ### One ledger -/

section One

variable {L : Type} [Ledger L]

/-- A ledger is coupled with itself. -/
theorem InstructionCoupling.refl (m : Message) : InstructionCoupling m (Eq : L → L → Prop) where
  answers h := h ▸ ⟨rfl, fun _ => rfl, fun _ => rfl, rfl⟩
  isDead h _ := h ▸ rfl
  accessAccount h _ := h ▸ rfl
  accessSlot h _ := h ▸ rfl
  setStorage h _ _ _ := h ▸ rfl
  setBalance h _ _ _ := h ▸ rfl
  addBalance h _ _ _ := h ▸ .refl _

/-- A turn pays at least the price of its outcome and leaves alone what instructions do. -/
theorem Local.turn_onward (c : Context) (ancestors : List Frame) (s : Local L) (trace : Trace) :
    s.frame.Onward (s.turn c ancestors trace).1.price (s.turn c ancestors trace).2.1.frame ∧
      (s.turn c ancestors trace).1.IsFrom s.frame.message := by
  have start : Effect.Aligned s.frame s.frame.snapshot (Eq : L → L → Prop) 0 s s :=
    ⟨rfl, ⟨rfl, Nat.le_refl _⟩, rfl⟩
  have same := turn_sameTurn (.refl s.frame.message) c
    (fun a => Eq.refl (ancestors.any (·.hasSelfDestructed a))) start trace
  generalize s.turn c ancestors trace = r at same
  cases same with
  | mk hfrom haligned => exact ⟨haligned.onward, hfrom⟩

end One

end Evm
