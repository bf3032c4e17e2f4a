import Evm.Proofs.Instruction.Coupling
import Evm.Proofs.Instruction.Refund

namespace Evm

/-!
# What an access costs

From Berlin on, an instruction that looks at an account or a slot pays a surcharge if that is cold,
and then it is warm.  All that such an instruction costs is told here as one sum, so that it shows
whether the surcharge is part of it; the other instructions leave the ledger alone.

* `Touch` — an account or a slot that is accessed.
* `Frame.touched`, `Instruction.surcharge`, `Local.dues` — what an instruction accesses, what this
  costs if it is cold, and what the instruction costs besides.
* `Frame.funds` — the gas that is left, with what the memory has cost.
* `Local.Billed` — an access is recorded and paid for.
* `Effect.ofInstruction_billed` — every instruction that accesses something does it like that.
* `Effect.ofInstruction_untouched` — every other one leaves the ledger alone.
* `Local.turn_billed`, `Local.turn_untouched` — what this means for a turn.
-/

/-! ### Touches -/

/-- An account or a slot that is accessed. -/
inductive Touch where
  | account (a : Address)
  | slot (s : Slot)
  deriving DecidableEq

namespace Warmth

/-- What an access would find. -/
def of (w : Warmth) : Touch → Access
  | .account a => w.account a
  | .slot s => w.slot s

/-- The access has been made. -/
def touch (w : Warmth) : Touch → Warmth
  | .account a => w.touchAccount a
  | .slot s => w.touchSlot s

/-- An access makes warm what is accessed, and nothing else. -/
theorem of_touch (w : Warmth) (t t' : Touch) :
    (w.touch t).of t' = if t' = t then .warm else w.of t' := by
  cases t with
  | account a =>
    cases t' with
    | account b =>
      show Function.update w.account a .warm b = _
      simp only [Function.update_apply, Touch.account.injEq]
      rfl
    | slot s => exact (if_neg nofun).symm
  | slot s =>
    cases t' with
    | account b => exact (if_neg nofun).symm
    | slot s' =>
      show Function.update w.slot s .warm s' = _
      simp only [Function.update_apply, Touch.slot.injEq]
      rfl

end Warmth

/-- An operand of the next instruction, counted from the top of the stack. -/
def Frame.operand (f : Frame) (n : Nat) : Word := f.stack.items.getD n 0

/-- What the instruction accesses, by its operands. -/
def Frame.touched (f : Frame) : Instruction → Option Touch
  | .balance | .extCodeSize | .extCodeCopy | .extCodeHash | .selfDestruct =>
    some (.account (f.operand 0).toAddress)
  | .call | .callCode | .delegateCall | .staticCall => some (.account (f.operand 1).toAddress)
  | .sload | .sstore => some (.slot ⟨f.address, f.operand 0⟩)
  | _ => none

/-! ### Prices -/

/-- What the instruction costs on top if what it accesses is cold. -/
def Instruction.surcharge : Instruction → Nat
  | .sload => Gas.coldSlotSurcharge
  | .sstore => Gas.coldSlot
  | .selfDestruct => Gas.coldAccount
  | _ => Gas.coldAccountSurcharge

/-- The gas that a child is given. -/
def Flow.childGas : Flow → Nat
  | .spawn message _ => message.gasLimit
  | _ => 0

/-- The gas that a child is given. -/
def Outcome.childGas : Outcome → Nat
  | .waits message _ => message.gasLimit
  | _ => 0

/-- The gas that is left, with what the memory has cost.  Memory that grows moves some of it. -/
def Frame.funds (f : Frame) : Nat := f.gas.remaining + Memory.cost f.memory.words

namespace Local

variable {L : Type} [Ledger L]

/-- The value that a call of the form moves, by its operands. -/
def calledValue (form : Effect.CallForm) (s : Local L) : Word :=
  if form.takesValue then s.frame.operand 2 else 0

/-- What a call costs besides the access, memory and the gas of the child.  The stipend comes out of
    the price of the value. -/
def callDues (c : Context) (form : Effect.CallForm) (s : Local L) : Nat :=
  (if s.calledValue form ≠ 0 then Gas.callValue - Gas.callStipend else 0) +
    if form = .call ∧ Effect.targetIsNew c.fork s.ledger (s.frame.operand 1).toAddress
      (s.calledValue form) then Gas.newAccount else 0

/-- What the instruction costs besides its fixed price, the access, memory and the gas of a child.
    What an access would find plays no part. -/
def dues (c : Context) (s : Local L) : Instruction → Nat
  | .extCodeCopy => Gas.copy (s.frame.operand 3).clampOffset
  | .sstore => (s.writePrice c.fork).charge
  | .selfDestruct =>
    if Effect.beneficiaryIsNew c.fork s.ledger (s.frame.operand 0).toAddress
      (Ledger.balance s.ledger s.frame.address) then Gas.newAccount else 0
  | .call => s.callDues c .call
  | .callCode => s.callDues c .callCode
  | .delegateCall => s.callDues c .delegateCall
  | .staticCall => s.callDues c .staticCall
  | _ => 0

/-- The second place is where an access leads that is paid for: it is recorded, and what has become
    of the funds is the gas of a child, the dues, and the surcharge if it was the first access. -/
structure Billed (t : Touch) (surcharge dues childGas : Nat) (s u : Local L) : Prop where
  warmth : Ledger.warmth u.ledger = (Ledger.warmth s.ledger).touch t
  funds : s.frame.funds = u.frame.funds + childGas + dues +
    if (Ledger.warmth s.ledger).of t = .cold then surcharge else 0

end Local

/-- Registering an account costs nothing by itself. -/
theorem Frame.funds_registerSelfDestruct (f : Frame) (a : Address) :
    (f.registerSelfDestruct a).funds = f.funds := by
  unfold registerSelfDestruct
  split <;> rfl

/-! ### Memory -/

/-- A write keeps the size. -/
theorem Memory.words_of_write {m m' : Memory} {offset : Nat} {b : Bytes}
    (h : m.write offset b = .ok m') : m'.words = m.words := by
  unfold write at h
  split at h
  · cases h
    rfl
  · split at h
    · rename_i hroom
      cases h
      rw [words, words, size_overwrite _ _ _ hroom]
    · cases h

/-! ### Rules -/

namespace Effect

variable {L : Type} {α : Type}

/-- What an effect that succeeds ensures; nothing is said about failures. -/
abbrev Grants (e : Effect L α) (Q : α → Local L → Prop) (s : Local L) : Prop :=
  Ensures e Q (fun _ => True) s

namespace Grants

variable {s : Local L} {Q : α → Local L → Prop}

/-- A charge in some cases, and what follows it. -/
theorem charge_if {p : Prop} [Decidable p] {amount : Nat} {k : Unit → Effect L α}
    (h : ∀ gas : Meter, gas.limit = s.frame.gas.limit →
      gas.remaining + (if p then amount else 0) = s.frame.gas.remaining →
        Grants (k ()) Q { s with frame := { s.frame with gas } }) :
    Grants (if p then Effect.charge amount >>= k else k ()) Q s := by
  refine Ensures.ite (fun hp => .bind (.charge (fun gas hgas => ?_) trivial)) fun hp => ?_
  · obtain ⟨hlimit, hpaid, -⟩ := Meter.consume_eq_ok_iff.1 hgas
    exact h gas hlimit (by rwa [if_pos hp])
  · exact h s.frame.gas rfl (by rw [if_neg hp]; rfl)

/-- What only some forms have to look at costs nothing. -/
theorem requireNonStatic_if {p : Prop} [Decidable p] {k : Unit → Effect L α}
    (h : Grants (k ()) Q s) :
    Grants (if p then Effect.requireNonStatic >>= k else k ()) Q s :=
  Ensures.ite (fun _ => .bind (.requireNonStatic (fun _ => h) trivial)) fun _ => h

/-- Memory that grows is paid for out of the funds of the frame. -/
theorem extendMemory {offset len : Nat} (hrange : Memory.InRange offset len)
    {Q : Unit → Local L → Prop}
    (h : ∀ (memory : Memory) (gas : Meter), gas.limit = s.frame.gas.limit →
      gas.remaining + Memory.cost memory.words =
        s.frame.gas.remaining + Memory.cost s.frame.memory.words →
          Q () { s with frame := { s.frame with memory, gas } }) :
    Grants (Effect.extendMemory offset len) Q s := by
  refine Ensures.extendMemory (fun memory gas hmemory => ?_) trivial
  obtain ⟨hlimit, hfunds⟩ := Memory.funds_of_extend hrange hmemory
  exact h memory gas hlimit hfunds

/-- A push costs nothing by itself. -/
theorem push {w : Word} {Q : Unit → Local L → Prop}
    (h : ∀ stack, Q () { s with frame := { s.frame with stack } }) : Grants (Effect.push w) Q s := by
  unfold Effect.push updateStack
  exact .onStack (fun _ stack _ => h stack) trivial

/-- Writing where memory has grown costs nothing. -/
theorem writeMemory {offset : Nat} {b : Bytes} {Q : Unit → Local L → Prop}
    (h : ∀ memory : Memory, memory.words = s.frame.memory.words →
      Q () { s with frame := { s.frame with memory } }) :
    Grants (Effect.writeMemory offset b) Q s := by
  refine .frame_bind ?_
  cases hwrite : s.frame.memory.write offset b with
  | ok memory => exact .modifyFrame (h memory (Memory.words_of_write hwrite))
  | error e => exact .throw trivial

/-- The first access is paid for. -/
theorem charge_first {access : Access} {amount : Nat} {Q : Unit → Local L → Prop}
    (h : ∀ gas : Meter, gas.limit = s.frame.gas.limit →
      gas.remaining + (if access = .cold then amount else 0) = s.frame.gas.remaining →
        Q () { s with frame := { s.frame with gas } }) :
    Grants (if access.isCold then Effect.charge amount else Pure.pure ()) Q s := by
  refine Ensures.ite (fun hcold => .charge (fun gas hgas => ?_) trivial) fun hwarm => .pure ?_
  · obtain ⟨hlimit, hpaid, -⟩ := Meter.consume_eq_ok_iff.1 hgas
    exact h gas hlimit (by rwa [if_pos (of_decide_eq_true hcold)])
  · exact h s.frame.gas rfl (by rw [if_neg fun hcold => hwarm (decide_eq_true hcold)]; rfl)

variable [Ledger L]

/-- An access is recorded, and the first one is paid for. -/
theorem accessAccount {fork : Fork} (hfork : fork.accessLists = true) {a : Address}
    {surcharge : Nat} {Q : Unit → Local L → Prop}
    (h : ∀ gas : Meter, gas.limit = s.frame.gas.limit →
      gas.remaining + (if (Ledger.warmth s.ledger).of (.account a) = .cold then surcharge else 0) =
        s.frame.gas.remaining →
          Q () { frame := { s.frame with gas }, ledger := (Ledger.accessAccount s.ledger a).2 }) :
    Grants (Effect.accessAccount fork a surcharge) Q s := by
  refine Ensures.ite (fun _ => .bind (.of_run rfl ?_)) fun hother => absurd hfork hother
  exact charge_first fun gas hlimit hpaid => h gas hlimit hpaid

/-- An access to a slot costs the surcharge if the slot is cold. -/
theorem accessSlot {fork : Fork} (hfork : fork.accessLists = true) {slot : Slot}
    {surcharge : Nat} {Q : Unit → Local L → Prop}
    (h : ∀ gas : Meter, gas.limit = s.frame.gas.limit →
      gas.remaining + (if (Ledger.warmth s.ledger).of (.slot slot) = .cold then surcharge else 0) =
        s.frame.gas.remaining →
          Q () { frame := { s.frame with gas }, ledger := (Ledger.accessSlot s.ledger slot).2 }) :
    Grants (Effect.accessSlot fork slot surcharge) Q s := by
  refine Ensures.ite (fun _ => .bind (.of_run rfl ?_)) fun hother => absurd hfork hother
  exact charge_first fun gas hlimit hpaid => h gas hlimit hpaid

/-- An address is taken from the stack and accessed. -/
theorem popAccessed {c : Context} (hfork : c.fork.accessLists = true)
    {Q : Address → Local L → Prop}
    (h : ∀ (stack : Stack) (gas : Meter), gas.limit = s.frame.gas.limit →
      (∀ n, stack.items.getD n 0 = s.frame.operand (n + 1)) →
      gas.remaining + (if (Ledger.warmth s.ledger).of (.account (s.frame.operand 0).toAddress) = .cold
        then Gas.coldAccountSurcharge else 0) = s.frame.gas.remaining →
          Q (s.frame.operand 0).toAddress
            { frame := { s.frame with stack, gas }
              ledger := (Ledger.accessAccount s.ledger (s.frame.operand 0).toAddress).2 }) :
    Grants (Effect.popAccessed c) Q s := by
  refine .bind (.bind (.onStack (fun w stack hpop => .pure ?_) trivial))
  have hitems := Stack.eq_of_pop hpop
  have hfirst : s.frame.operand 0 = w := by
    rw [Frame.operand, hitems]
    rfl
  refine .bind (accessAccount hfork fun gas hlimit hpaid => .pure ?_)
  rw [← hfirst] at hpaid ⊢
  refine h stack gas hlimit (fun n => ?_) hpaid
  rw [Frame.operand, hitems]
  rfl

end Grants

/-! ### Instructions that access -/

section Accessing

variable [Ledger L] [LawfulLedger L] {c : Context} {s : Local L}

/-- A word is read off the account that is accessed. -/
theorem read_billed (hfork : c.fork.accessLists = true) (f : L → Address → Word) :
    Grants (do let a ← popAccessed c; push (f (← ledger) a))
      (fun _ u => s.Billed (.account (s.frame.operand 0).toAddress) Gas.coldAccountSurcharge 0 0 u)
      s := by
  refine .bind (Grants.popAccessed hfork fun stack gas hlimit _ hpaid => ?_)
  refine .ledger_bind (Grants.push fun stack' => ⟨?_, ?_⟩)
  · exact LawfulLedger.warmth_accessAccount ..
  · show s.frame.gas.remaining + Memory.cost s.frame.memory.words =
      gas.remaining + Memory.cost s.frame.memory.words + 0 + 0 + _
    omega

/-- The code of the account is copied to memory. -/
theorem extCodeCopy_billed (hfork : c.fork.accessLists = true) :
    Grants (do let a ← popAccessed c; copyToMemory (Ledger.code (← ledger) a))
      (fun _ u => s.Billed (.account (s.frame.operand 0).toAddress) Gas.coldAccountSurcharge
        (Gas.copy (s.frame.operand 3).clampOffset) 0 u) s := by
  refine .bind (Grants.popAccessed hfork fun stack gas hlimit hstack hpaid => ?_)
  refine .ledger_bind (.bind (.onStack (fun (dest, src, size) stack' hpop => ?_) trivial))
  have hsize : s.frame.operand 3 = size := by
    have htop : stack = _ := Stack.eq_of_pop3 hpop
    rw [← hstack 2, htop]
    rfl
  have hrange := Memory.inRange_operands dest size
  -- what is copied is paid for after the memory it goes to
  refine .bind (Grants.extendMemory hrange fun memory gas' _ hgrown => ?_)
  refine .bind (.charge (fun gas'' hgas => ?_) trivial)
  obtain ⟨-, hcopied, -⟩ := Meter.consume_eq_ok_iff.1 hgas
  refine Grants.writeMemory fun memory' hwords => ⟨?_, ?_⟩
  · exact LawfulLedger.warmth_accessAccount ..
  · rw [hsize]
    show s.frame.gas.remaining + Memory.cost s.frame.memory.words =
      gas''.remaining + Memory.cost memory'.words + 0 + Gas.copy size.clampOffset + _
    rw [hwords]
    dsimp only at hgrown hcopied ⊢
    omega

/-- A slot is read. -/
theorem sload_billed (hfork : c.fork.accessLists = true) :
    Grants (sload c) (fun _ u => s.Billed (.slot ⟨s.frame.address, s.frame.operand 0⟩)
      Gas.coldSlotSurcharge 0 0 u) s := by
  refine .bind (.onStack (fun key stack hpop => .frame_bind ?_) trivial)
  have hkey : s.frame.operand 0 = key := by
    rw [Frame.operand, Stack.eq_of_pop hpop]
    rfl
  rw [hkey]
  refine .bind (Grants.accessSlot hfork fun gas _ hpaid => ?_)
  refine .ledger_bind (Grants.push fun stack' => ⟨?_, ?_⟩)
  · exact LawfulLedger.warmth_accessSlot ..
  · have paid : gas.remaining + (if (Ledger.warmth s.ledger).of (.slot ⟨s.frame.address, key⟩) = .cold
        then Gas.coldSlotSurcharge else 0) = s.frame.gas.remaining := hpaid
    show s.frame.gas.remaining + Memory.cost s.frame.memory.words =
      gas.remaining + Memory.cost s.frame.memory.words + 0 + 0 + _
    omega

/-- A slot is written. -/
theorem sstore_billed [StartValues L] (hfork : c.fork.accessLists = true) :
    Grants (sstore c) (fun _ u => s.Billed (.slot ⟨s.frame.address, s.frame.operand 0⟩) Gas.coldSlot
      (s.writePrice c.fork).charge 0 u) s := by
  refine .bind (.requireNonStatic (fun _ => ?_) trivial)
  refine .bind (.frame_bind (.ite (fun _ => .throw trivial) fun _ => .pure ?_))
  refine .bind (.onStack (fun (key, value) stack hpop => .frame_bind ?_) trivial)
  have hslot : s.frame.writtenSlot = ⟨s.frame.address, key⟩ := by
    rw [Frame.writtenSlot, Stack.eq_of_pop2 hpop]
    rfl
  have hvalue : s.frame.writtenValue = value := by
    rw [Frame.writtenValue, Stack.eq_of_pop2 hpop]
    rfl
  rw [show (⟨s.frame.address, s.frame.operand 0⟩ : Slot) = _ from hslot]
  refine .bind (Grants.accessSlot hfork fun gas _ hpaid => ?_)
  refine .ledger_bind (.bind (.charge (fun gas' hgas => ?_) trivial))
  refine .bind (.modifyFrame (.modifyLedger ⟨?_, ?_⟩))
  · rw [LawfulLedger.warmth_setStorage]
    exact LawfulLedger.warmth_accessSlot ..
  · -- the access has not changed what the price depends on
    have same : Ledger.SameSlots s.ledger (Ledger.accessSlot s.ledger ⟨s.frame.address, key⟩).2 :=
      Ledger.sameSlots_accessSlot ..
    have price : s.writePrice c.fork = Gas.storageWrite c.fork
        (Ledger.committedStorage (Ledger.accessSlot s.ledger ⟨s.frame.address, key⟩).2
          ⟨s.frame.address, key⟩)
        (Ledger.storage (Ledger.accessSlot s.ledger ⟨s.frame.address, key⟩).2
          ⟨s.frame.address, key⟩) value := by
      rw [Local.writePrice, hslot, hvalue, same.committed, same.storage]
    have paid : gas.remaining + (if (Ledger.warmth s.ledger).of (.slot ⟨s.frame.address, key⟩) = .cold
        then Gas.coldSlot else 0) = s.frame.gas.remaining := hpaid
    have written : gas'.remaining + (s.writePrice c.fork).charge = gas.remaining := by
      rw [price]
      exact (Meter.consume_eq_ok_iff.1 hgas).2.1
    -- the surcharge and the price of the write come off the same gas
    show s.frame.gas.remaining + Memory.cost s.frame.memory.words =
      gas'.remaining + Memory.cost s.frame.memory.words + 0 + (s.writePrice c.fork).charge + _
    omega

omit [Ledger L] [LawfulLedger L] in
/-- The refund for a destruction does not come out of the gas. -/
theorem Grants.refundDestruction {fork : Fork} {ancestors : List Frame} {Q : Unit → Local L → Prop}
    (h : ∀ gas : Meter, gas.remaining = s.frame.gas.remaining →
      Q () { s with frame := { s.frame with gas } }) :
    Grants (Effect.refundDestruction fork ancestors) Q s := by
  refine .frame_bind (.ite (fun _ => .modifyFrame ?_) fun _ => .pure ?_)
  · exact h _ (Meter.remaining_addRefund s.frame.gas Gas.selfDestructRefund)
  · exact h s.frame.gas rfl

/-- The balance is handed over. -/
theorem surrender_warmth (a beneficiary : Address) (balance : Word) :
    Grants (do
      if beneficiary ≠ a then
        tryLedger (Ledger.tryAddBalance beneficiary balance) .state
      modifyLedger (Ledger.setBalance · a 0))
      (fun _ u => u.frame = s.frame ∧ Ledger.warmth u.ledger = Ledger.warmth s.ledger) s := by
  refine .ite (fun _ => .bind (.tryLedger (fun _ l hadd => .modifyLedger ⟨rfl, ?_⟩)
    fun _ _ _ => trivial)) fun _ => .modifyLedger ⟨rfl, LawfulLedger.warmth_setBalance ..⟩
  obtain ⟨sum, -, rfl⟩ := Ledger.addBalance_cases (LedgerStep.after_eq_ok_iff.2 hadd)
  rw [LawfulLedger.warmth_setBalance, LawfulLedger.warmth_setBalance]

/-- Whether an account is dead shows in the answers of the ledger. -/
theorem isDead_of_state {l l' : L} (h : Ledger.state l' = Ledger.state l) (a : Address) :
    Ledger.isDead l' a = Ledger.isDead l a := by
  rw [StandardLedger.isDead_eq, StandardLedger.isDead_eq, StandardLedger.isEmpty_eq,
    StandardLedger.isEmpty_eq, ← Ledger.state_present, ← Ledger.state_nonce, ← Ledger.state_balance,
    ← Ledger.state_code, h]
  rfl

/-- Accesses do not make an heir new. -/
theorem beneficiaryIsNew_of_state {l l' : L} (h : Ledger.state l' = Ledger.state l) (fork : Fork)
    (beneficiary : Address) (balance : Word) :
    beneficiaryIsNew fork l' beneficiary balance = beneficiaryIsNew fork l beneficiary balance := by
  unfold beneficiaryIsNew
  rw [isDead_of_state h, ← Ledger.state_present, ← Ledger.state_present, h]

/-- Accesses do not make a target new. -/
theorem targetIsNew_of_state {l l' : L} (h : Ledger.state l' = Ledger.state l) (fork : Fork)
    (target : Address) (value : Word) :
    targetIsNew fork l' target value = targetIsNew fork l target value := by
  unfold targetIsNew
  rw [isDead_of_state h, ← Ledger.state_present, ← Ledger.state_present, h]

/-- The account is destroyed. -/
theorem selfDestruct_billed (hfork : c.fork.accessLists = true) (ancestors : List Frame) :
    Grants (selfDestruct c ancestors) (fun _ u => s.Billed (.account (s.frame.operand 0).toAddress)
      Gas.coldAccount (if beneficiaryIsNew c.fork s.ledger (s.frame.operand 0).toAddress
        (Ledger.balance s.ledger s.frame.address) then Gas.newAccount else 0) 0 u) s := by
  refine .bind (.requireNonStatic (fun _ => ?_) trivial)
  refine .bind (.bind (.onStack (fun w stack hpop => .pure (.frame_bind ?_)) trivial))
  have hfirst : s.frame.operand 0 = w := by
    rw [Frame.operand, Stack.eq_of_pop hpop]
    rfl
  rw [hfirst]
  refine .bind (Grants.accessAccount hfork fun gas _ hpaid => ?_)
  refine .ledger_bind (Grants.charge_if fun gas' _ hnew => ?_)
  refine .bind (Grants.refundDestruction fun gas'' hkept => ?_)
  refine .bind (.modifyFrame ?_)
  refine (surrender_warmth _ _ _).mono fun _ u hu => ⟨?_, ?_⟩
  · exact hu.2.trans (LawfulLedger.warmth_accessAccount ..)
  · -- what is due for a new account is told from the accounts, which the access leaves alone
    have same : Ledger.state (Ledger.accessAccount s.ledger w.toAddress).2 = Ledger.state s.ledger :=
      LawfulLedger.state_accessAccount ..
    have balance : Ledger.balance (Ledger.accessAccount s.ledger w.toAddress).2 s.frame.address =
        Ledger.balance s.ledger s.frame.address :=
      congrFun (congrArg LedgerState.balance same) s.frame.address
    have accessed : gas.remaining + (if (Ledger.warmth s.ledger).of (.account w.toAddress) = .cold
        then Gas.coldAccount else 0) = s.frame.gas.remaining := hpaid
    have paid : gas'.remaining + (if beneficiaryIsNew c.fork s.ledger w.toAddress
        (Ledger.balance s.ledger s.frame.address) then Gas.newAccount else 0) = gas.remaining := by
      rw [← beneficiaryIsNew_of_state same, ← balance]
      exact hnew
    have left : u.frame.funds = gas'.remaining + Memory.cost s.frame.memory.words := by
      rw [hu.1, Frame.funds_registerSelfDestruct]
      exact congrArg (· + Memory.cost s.frame.memory.words) hkept
    show s.frame.gas.remaining + Memory.cost s.frame.memory.words = u.frame.funds + 0 + _ + _
    omega

omit [Ledger L] [LawfulLedger L] in
/-- The gas of a child is set aside, with the stipend on top. -/
theorem Grants.reserveCallGas {requested value : Word} {Q : Nat → Local L → Prop}
    (h : ∀ (gas : Meter) (reserved : Nat), gas.limit = s.frame.gas.limit →
      gas.remaining + reserved = s.frame.gas.remaining + (if value = 0 then 0 else Gas.callStipend) →
        Q reserved { s with frame := { s.frame with gas } }) :
    Grants (Effect.reserveCallGas c requested value) Q s := by
  refine .frame_bind ?_
  cases Gas.forCall c.fork s.frame.gas.remaining requested with
  | error e => exact .throw trivial
  | ok setAside =>
    refine .bind (.charge (fun gas hgas => .pure ?_) trivial)
    obtain ⟨hlimit, hpaid, -⟩ := Meter.consume_eq_ok_iff.1 hgas
    refine h gas _ hlimit ?_
    split <;> omega

/-- What a call does once it has its target and its value. -/
def placeCall (c : Context) (form : CallForm) (requested : Word) (target : Address) (value : Word) :
    Effect L Flow := do
  let (inOffset, inLen, outOffset, outLen) ← pop4
  if form = .call ∧ value ≠ 0 then requireNonStatic
  accessAccount c.fork target Gas.coldAccountSurcharge
  extendMemory inOffset.clampOffset inLen.clampOffset
  extendMemory outOffset.clampOffset outLen.clampOffset
  if value ≠ 0 then charge Gas.callValue
  if form = .call ∧ targetIsNew c.fork (← ledger) target value then charge Gas.newAccount
  let gasLimit ← reserveCallGas c requested value
  if ← canSpawn c value then
    let input ← readMemory inOffset.clampOffset inLen.clampOffset
    let message := form.message (← frame).message target value input gasLimit
    return .spawn message (.call outOffset.clampOffset outLen.clampOffset)
  else skipSpawn gasLimit

/-- A call with its operands at hand pays for its access, its value, its new account and its child.
    -/
theorem placeCall_billed (hfork : c.fork.accessLists = true) (form : CallForm) (requested : Word)
    (target : Address) (value : Word) :
    Grants (placeCall c form requested target value)
      (fun flow u => s.Billed (.account target) Gas.coldAccountSurcharge
        ((if value ≠ 0 then Gas.callValue - Gas.callStipend else 0) +
          if form = .call ∧ targetIsNew c.fork s.ledger target value then Gas.newAccount else 0)
        flow.childGas u) s := by
  refine .bind (.onStack (fun (inOffset, inLen, outOffset, outLen) stack _ => ?_) trivial)
  refine Grants.requireNonStatic_if (.bind (Grants.accessAccount hfork fun gas₁ _ hpaid => ?_))
  have hinput := Memory.inRange_operands inOffset inLen
  have houtput := Memory.inRange_operands outOffset outLen
  refine .bind (Grants.extendMemory hinput fun memory gas₂ _ hin => ?_)
  refine .bind (Grants.extendMemory houtput fun memory' gas₃ _ hout => ?_)
  refine Grants.charge_if fun gas₄ hlimit₄ hvalue => ?_
  refine .ledger_bind (Grants.charge_if fun gas₅ hlimit₅ hnew => ?_)
  refine .bind (Grants.reserveCallGas fun gas₆ reserved hlimit₆ hreserved => ?_)
  have same : Ledger.state (Ledger.accessAccount s.ledger target).2 = Ledger.state s.ledger :=
    LawfulLedger.state_accessAccount ..
  have accessed : gas₁.remaining + (if (Ledger.warmth s.ledger).of (.account target) = .cold
      then Gas.coldAccountSurcharge else 0) = s.frame.gas.remaining := hpaid
  -- memory may grow twice, and what it takes stays in the funds
  have grown : gas₃.remaining + Memory.cost memory'.words =
      gas₁.remaining + Memory.cost s.frame.memory.words := hout.trans hin
  have brought : gas₅.remaining + (if form = .call ∧ targetIsNew c.fork s.ledger target value
      then Gas.newAccount else 0) = gas₄.remaining := by
    rw [← targetIsNew_of_state same]
    exact hnew
  have moved : gas₄.remaining + (if value ≠ 0 then Gas.callValue else 0) = gas₃.remaining := hvalue
  have given : gas₆.remaining + reserved =
      gas₅.remaining + (if value = 0 then 0 else Gas.callStipend) := hreserved
  -- value costs more than the stipend that comes with it
  have stipend : (if value = 0 then 0 else Gas.callStipend) +
      (if value ≠ 0 then Gas.callValue - Gas.callStipend else 0) =
        if value ≠ 0 then Gas.callValue else 0 := by
    by_cases hv : value = 0
    · rw [if_pos hv, if_neg (not_not.2 hv), if_neg (not_not.2 hv)]
    · rw [if_neg hv, if_pos hv, if_pos hv]
      exact Nat.add_sub_of_le (by decide)
  refine .bind (.frame_bind (.ledger_bind (.pure ?_)))
  refine .ite (fun _ => .readMemory_bind (.frame_bind (.pure ⟨?_, ?_⟩))) fun _ =>
    .bind (.modifyFrame (.bind (Grants.push fun stack' => .pure ⟨?_, ?_⟩)))
  · exact LawfulLedger.warmth_accessAccount ..
  · rw [Flow.childGas, CallForm.gasLimit_message]
    show s.frame.gas.remaining + Memory.cost s.frame.memory.words =
      gas₆.remaining + Memory.cost memory'.words + reserved + _ + _
    omega
  · exact LawfulLedger.warmth_accessAccount ..
  · -- a child that is skipped gives its gas back, which is no more than was there
    have room : gas₆.remaining + reserved ≤ gas₆.limit := by
      have full := gas₃.remaining_le
      have limits : gas₆.limit = gas₃.limit := hlimit₆.trans (hlimit₅.trans hlimit₄)
      omega
    have back : min (gas₆.remaining + reserved) gas₆.limit = gas₆.remaining + reserved :=
      Nat.min_eq_left room
    show s.frame.gas.remaining + Memory.cost s.frame.memory.words =
      min (gas₆.remaining + reserved) gas₆.limit + Memory.cost memory'.words + 0 + _ + _
    omega

/-- So does a call with its operands on the stack. -/
theorem call_billed (hfork : c.fork.accessLists = true) (form : CallForm) :
    Grants (call c form) (fun flow u => s.Billed (.account (s.frame.operand 1).toAddress)
      Gas.coldAccountSurcharge (s.callDues c form) flow.childGas u) s := by
  refine .bind (.onStack (fun (requested, target) stack hpop => ?_) trivial)
  have htarget : s.frame.operand 1 = target := by
    rw [Frame.operand, Stack.eq_of_pop2 hpop]
    rfl
  rw [Local.callDues, htarget]
  refine .ite (fun htakes => .bind (.onStack (fun value stack' hpop' => ?_) trivial))
    fun hnone => .bind (.pure ?_)
  · have hvalue : s.calledValue form = value := by
      have hrest : stack = { stack' with items := value :: stack'.items } := Stack.eq_of_pop hpop'
      rw [Local.calledValue, if_pos htakes, Frame.operand, Stack.eq_of_pop2 hpop, hrest]
      rfl
    rw [hvalue]
    exact (placeCall_billed hfork form requested target.toAddress value).mono
      fun _ u hu => ⟨hu.warmth, hu.funds⟩
  · have hvalue : s.calledValue form = 0 := if_neg hnone
    rw [hvalue]
    exact (placeCall_billed hfork form requested target.toAddress 0).mono
      fun _ u hu => ⟨hu.warmth, hu.funds⟩

/-- Every instruction that accesses something is paid for like that. -/
theorem ofInstruction_billed [StartValues L] (hfork : c.fork.accessLists = true)
    (ancestors : List Frame) {i : Instruction} {t : Touch} (ht : s.frame.touched i = some t) :
    Grants (ofInstruction c ancestors i)
      (fun flow u => s.Billed t i.surcharge (s.dues c i) flow.childGas u) s := by
  cases i with
  -- the touched target is the one that the instruction names; the others touch nothing
  | balance =>
    obtain rfl := Option.some.inj ht
    exact Ensures.next (read_billed hfork Ledger.balance)
  | extCodeSize =>
    obtain rfl := Option.some.inj ht
    exact Ensures.next (read_billed hfork fun l a => BitVec.ofNat 256 (Ledger.code l a).size)
  | extCodeHash =>
    obtain rfl := Option.some.inj ht
    exact Ensures.next
      (read_billed hfork fun l a => if Ledger.isDead l a then 0 else Ledger.codeHash l a)
  | extCodeCopy =>
    obtain rfl := Option.some.inj ht
    exact Ensures.next (extCodeCopy_billed hfork)
  | sload =>
    obtain rfl := Option.some.inj ht
    exact Ensures.next (sload_billed hfork)
  | sstore =>
    obtain rfl := Option.some.inj ht
    exact Ensures.next (sstore_billed hfork)
  | selfDestruct =>
    obtain rfl := Option.some.inj ht
    exact Ensures.next (selfDestruct_billed hfork ancestors)
  | call | callCode | delegateCall | staticCall =>
    obtain rfl := Option.some.inj ht
    exact call_billed hfork _
  | _ => cases ht

end Accessing

/-! ### Instructions that do not access -/

/-- The same ledger, but accesses leave no trace. -/
abbrev forgetful (L : Type) [Ledger L] : Ledger L :=
  { (inferInstance : Ledger L) with
    accessAccount := fun l _ => (.warm, l)
    accessSlot := fun l _ => (.warm, l) }

/-- Where accesses leave no trace, no more than accesses is nothing. -/
theorem eq_of_accessed_forgetful [Ledger L] {l l' : L} (h : (forgetful L).Accessed l l') : l' = l := by
  induction h with
  | refl => rfl
  | account a _ ih => exact ih
  | slot s _ ih => exact ih

/-- All other instructions leave the ledger alone. -/
theorem ofInstruction_untouched [Ledger L] (c : Context) (ancestors : List Frame) {i : Instruction}
    {s : Local L} (h : s.frame.touched i = none) :
    (final (ofInstruction c ancestors i) s).ledger = s.ledger := by
  -- they do not see how the ledger records accesses
  have same : (ofInstruction c ancestors i : Effect L Flow) =
      @ofInstruction L (forgetful L) c ancestors i := by
    cases i with
    | balance | extCodeSize | extCodeCopy | extCodeHash | sload | sstore | call | callCode
    | delegateCall | staticCall | selfDestruct => cases h
    | _ => rfl
  have did := @ofInstruction_did L (forgetful L) c ancestors i s
  rw [same]
  generalize final (@ofInstruction L (forgetful L) c ancestors i) s = t at did
  cases did with
  | quiet hquiet | logged _ _ hquiet _ =>
    obtain ⟨-, -, -, -, hledger⟩ := hquiet
    exact eq_of_accessed_forgetful hledger
  | stored => cases h
  | destroyed => cases h

end Effect

/-! ### Turns -/

/-- What the next instruction accesses, by its operands. -/
def Frame.touches (fork : Fork) (f : Frame) : Option Touch := (f.nextInstruction fork).bind f.touched

namespace Local

variable {L : Type} [Ledger L] {c : Context} {ancestors : List Frame} {s u : Local L}
  {trace trace' : Trace} {o : Outcome} {i : Instruction}

/-- If an instruction that accesses something goes through, it is paid for. -/
theorem turn_billed [LawfulLedger L] [StartValues L] (hfork : c.fork.accessLists = true)
    (h : s.turn c ancestors trace = (o, u, trace'))
    (hnext : s.frame.nextInstruction c.fork = some i) {t : Touch} (ht : s.frame.touched i = some t)
    (hgood : ∀ e, o ≠ .failed e) :
    s.Billed t i.surcharge (i.staticGas c.fork + s.dues c i) o.childGas u := by
  have paid : Effect.Grants (paidEffect c ancestors i) (fun flow u =>
      s.Billed t i.surcharge (i.staticGas c.fork + s.dues c i) flow.childGas u) s := by
    -- first the static price, then what the instruction itself is billed for
    refine .bind (.charge (fun gas hgas => ?_) trivial)
    have billed := Effect.ofInstruction_billed (s := { s with frame := { s.frame with gas } })
      hfork ancestors ht
    refine billed.mono fun flow u hu => ⟨hu.warmth, ?_⟩
    have hstatic := (Meter.consume_eq_ok_iff.1 hgas).2.1
    have hfunds : gas.remaining + Memory.cost s.frame.memory.words =
        u.frame.funds + flow.childGas + s.dues c i +
          if (Ledger.warmth s.ledger).of t = .cold then i.surcharge else 0 := hu.funds
    show s.frame.gas.remaining + Memory.cost s.frame.memory.words = _
    omega
  obtain ⟨flow, v, hbilled, hfollow⟩ | ⟨⟨e, he⟩, -⟩ := turn_ensures h hnext paid
  · -- where the program goes on does not matter
    cases flow <;> cases hfollow <;> exact ⟨hbilled.warmth, hbilled.funds⟩
  · exact absurd he (hgood e)

/-- A turn that accesses nothing leaves the ledger alone. -/
theorem turn_untouched (h : s.turn c ancestors trace = (o, u, trace'))
    (ht : s.frame.touches c.fork = none) : u.ledger = s.ledger := by
  cases hnext : s.frame.nextInstruction c.fork with
  | none => rw [(turn_ends h hnext).1]
  | some i =>
    rw [Frame.touches, hnext] at ht
    have left : Effect.Ensures (paidEffect c ancestors i) (fun _ u => u.ledger = s.ledger)
        (fun u => u.ledger = s.ledger) s := by
      refine .bind (.charge (fun gas _ => ?_) rfl)
      exact .of_final (Effect.ofInstruction_untouched (s := { s with frame := { s.frame with gas } })
        c ancestors ht)
    obtain ⟨flow, v, hledger, hfollow⟩ | ⟨-, hledger⟩ := turn_ensures h hnext left
    · cases flow <;> cases hfollow <;> exact hledger
    · exact hledger

end Local

end Evm
