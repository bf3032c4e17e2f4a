import Evm.Proofs.Instruction.Access
import Evm.Proofs.Instruction.Operands
import Evm.Proofs.Instruction.Request
import Evm.Proofs.Instruction.Stipend

namespace Evm

/-!
# What an instruction leaves of the funds

Memory that grows moves gas of the frame into memory, and nothing brings it back: what is left and
what the memory has cost never come to more than before.  Gas comes back only where a child is
skipped, and then no more of it than the instruction has set aside.

* `Frame.Spends` — at least so much of the funds is gone.
* `Effect.IsFrugal` — an effect that brings no funds, and how that follows its structure.
* `Effect.Ensures.frugal_bind`, `Effect.Ensures.charge_bind` — what is spent on the way to a child.
* `Effect.ofInstruction_pays` — an instruction has paid for the gas of its child.
* `Local.turn_spends` — so has the turn of a frame.
-/

/-! ### Frames -/

/-- From one place to another the frame has spent at least so much of its funds.  Memory that was
    made of whole words still is. -/
structure Frame.Spends (f : Frame) (spent : Nat) (g : Frame) : Prop where
  funds : g.funds + spent ≤ f.funds
  words : 32 ∣ f.memory.size → 32 ∣ g.memory.size

namespace Frame.Spends

variable {f g h : Frame} {spent more : Nat}

/-- A frame that stays as it is spends nothing. -/
theorem refl (f : Frame) : f.Spends 0 f := ⟨Nat.le_refl _, id⟩

/-- What two parts spend adds up. -/
theorem trans (hfg : f.Spends spent g) (hgh : g.Spends more h) : f.Spends (spent + more) h where
  funds := by
    have := hfg.funds
    have := hgh.funds
    omega
  words hf := hgh.words (hfg.words hf)

/-- What spends an amount spends every smaller one. -/
theorem weaken (hfg : f.Spends spent g) {less : Nat} (hle : less ≤ spent) : f.Spends less g where
  funds := Nat.le_trans (Nat.add_le_add_left hle _) hfg.funds
  words := hfg.words

/-- The memory stays as large as it is, and so much gas is gone. -/
theorem of_gas (hgas : g.gas.remaining + spent ≤ f.gas.remaining)
    (hsize : g.memory.size = f.memory.size) : f.Spends spent g where
  funds := by
    have same : g.memory.words = f.memory.words := congrArg (· / 32) hsize
    unfold Frame.funds
    rw [same]
    omega
  words hf := hsize.symm ▸ hf

/-- Other changes of the frame play no part. -/
theorem congr (hfg : f.Spends spent g) (hgas : h.gas = g.gas) (hmemory : h.memory = g.memory) :
    f.Spends spent h := by
  have kept : g.Spends 0 h := of_gas (by rw [hgas]; rfl) (by rw [hmemory])
  exact hfg.trans kept

/-- A charge is spent. -/
theorem consume {amount : Nat} {gas : Meter} (hgas : f.gas.consume amount = .ok gas) :
    f.Spends amount { f with gas } :=
  of_gas (Nat.le_of_eq (Meter.consume_eq_ok_iff.1 hgas).2.1) rfl

/-- Growth of the memory is paid for by what the memory costs then. -/
theorem extend {offset len : Nat} {memory : Memory} {gas : Meter}
    (hrange : Memory.InRange offset len)
    (hm : f.memory.extend offset len f.gas = .ok (memory, gas)) :
    f.Spends 0 { f with memory, gas } where
  funds := Nat.le_of_eq (Memory.funds_of_extend hrange hm).2
  words hf := Memory.dvd_size_of_extend hf hm

/-- What is given back comes out of what has been spent. -/
theorem giveBack (hfg : f.Spends spent g) {gas : Meter} (hgas : gas = g.gas.giveBack spent) :
    f.Spends 0 { g with gas } where
  funds := by
    have paid : g.gas.remaining + Memory.cost g.memory.words + spent ≤ f.funds := hfg.funds
    have back : gas.remaining ≤ g.gas.remaining + spent := hgas ▸ Nat.min_le_left _ _
    show gas.remaining + Memory.cost g.memory.words + 0 ≤ f.funds
    omega
  words := hfg.words

end Frame.Spends

/-! ### Effects that bring no funds -/

namespace Effect

variable {L : Type} {α β : Type}

/-- No funds come in, whether an effect succeeds or not. -/
@[reducible] def Conduct.frugal : Conduct L :=
  .always (fun s t => s.frame.Spends 0 t.frame) (fun s => .refl s.frame) fun _ _ _ => .trans

/-- The effect brings no funds, whether it succeeds or not. -/
abbrev IsFrugal (e : Effect L α) : Prop := Follows .frugal e

namespace IsFrugal

/-- A change of the frame that leaves its gas and its memory alone. -/
theorem modifyFrame {f : Frame → Frame}
    (hf : ∀ g, (f g).gas.remaining = g.gas.remaining ∧ (f g).memory = g.memory) :
    IsFrugal (Effect.modifyFrame f : Effect L Unit) := by
  intro s
  obtain ⟨hgas, hmemory⟩ := hf s.frame
  exact .of_gas (Nat.le_of_eq hgas) (congrArg Memory.size hmemory)

/-- The funds of a frame are no matter of the ledger. -/
theorem modifyLedger (f : L → L) : IsFrugal (Effect.modifyLedger f) := fun s => .refl s.frame

/-- A read of the ledger spends nothing. -/
theorem onLedger (f : L → α × L) : IsFrugal (Effect.onLedger f) := fun s => .refl s.frame

/-- A step of the ledger spends nothing, refused or not. -/
theorem tryLedger (step : LedgerStep L α) (cause : StateError → VmError) :
    IsFrugal (Effect.tryLedger step cause) := by
  intro s
  rw [run_tryLedger]
  cases step s.ledger with
  | ok a ledger => exact .refl s.frame
  | error e ledger => exact .refl s.frame

/-- A charge is a loss. -/
theorem charge (amount : Nat) : IsFrugal (charge amount : Effect L Unit) := by
  intro s
  rw [run_charge]
  cases hgas : s.frame.gas.consume amount with
  | ok gas => exact (Frame.Spends.consume hgas).weaken (Nat.zero_le _)
  | error e => exact .refl s.frame

/-- Gas that goes into memory that can be counted stays with the funds. -/
theorem extendMemory {offset len : Nat} (hrange : Memory.InRange offset len) :
    IsFrugal (extendMemory offset len : Effect L Unit) := by
  intro s
  rw [run_extendMemory]
  cases hm : s.frame.memory.extend offset len s.frame.gas with
  | ok r => exact .extend hrange hm
  | error e => exact .refl s.frame

/-- A write to memory spends nothing. -/
theorem writeMemory (offset : Nat) (b : Bytes) :
    IsFrugal (writeMemory offset b : Effect L Unit) := by
  intro s
  rw [Effect.writeMemory, run_frame_bind]
  cases hwrite : s.frame.memory.write offset b with
  | ok memory => exact .of_gas (Nat.le_refl _) (Memory.size_of_write hwrite)
  | error e => exact .refl s.frame

/-- Work on the stack spends nothing. -/
theorem onStack (f : Stack → Except VmError (α × Stack)) :
    IsFrugal (onStack f : Effect L α) := by
  intro s
  rw [run_onStack]
  cases f s.frame.stack with
  | ok r => exact .of_gas (Nat.le_refl _) rfl
  | error e => exact .refl s.frame

/-! ### Instructions -/

variable [Ledger L]

/-- Nothing that all instructions are made of brings funds. -/
theorem letsWork : (Conduct.frugal : Conduct L).LetsWork where
  toLetsPay := .of_writeMemory (fun _ _ s => .refl s.frame) charge extendMemory writeMemory
    (fun _ => onLedger _) fun _ => onLedger _
  onStack _ := onStack _

/-- Instructions that ask for no child bring no funds. -/
theorem ofInstruction (c : Context) (ancestors : List Frame) {i : Instruction}
    (h : i.asksForChild = false) : IsFrugal (ofInstruction c ancestors i : Effect L Flow) := by
  have jump (target : Word) : IsFrugal (jumpTo target : Effect L Flow) :=
    Follows.jumpTo letsWork (fun _ => modifyFrame fun _ => ⟨rfl, rfl⟩) target
  have output : IsFrugal (setOutput : Effect L Unit) :=
    Follows.setOutput letsWork fun _ _ => modifyFrame fun _ => ⟨rfl, rfl⟩
  -- plain instructions spend like their parts; the others are gone through below
  cases hplain : i.isPlain with
  | true => exact .ofPlain letsWork c ancestors hplain
  | false =>
    cases i with
    | call | callCode | delegateCall | staticCall | create | create2 => cases h
    | returnDataCopy =>
      exact Follows.next (Follows.returnDataCopy letsWork fun _ _ s => .refl s.frame) _
    | log n =>
      exact Follows.next (Follows.log letsWork (fun _ _ => modifyFrame fun _ => ⟨rfl, rfl⟩) n) _
    | sstore =>
      refine Follows.next (Follows.sstore letsWork (fun _ _ => modifyFrame fun _ => ?_)
        (fun _ _ => modifyLedger _) c) _
      exact ⟨rfl, rfl⟩
    | selfDestruct =>
      refine Follows.next (Follows.selfDestruct letsWork (modifyFrame fun g => ?_)
        (fun _ => modifyFrame fun g => ?_) (fun _ _ => tryLedger _ _) (fun _ => modifyLedger _) c
        ancestors) _
      · exact ⟨Meter.remaining_addRefund g.gas _, rfl⟩
      · -- an account that is registered already changes nothing
        unfold Frame.registerSelfDestruct
        split <;> exact ⟨rfl, rfl⟩
    | jump => exact Follows.bind (Follows.pop letsWork) fun target => jump target
    | jumpi => exact Follows.bind (onStack Stack.pop2) fun _ => .ite (.pure _) (jump _)
    | ret => exact Follows.next output _
    | revert => exact Follows.bind output fun _ => .throw fun s => .refl s.frame
    | _ => cases hplain

end IsFrugal

/-! ### Requests -/

namespace Ensures

variable {s t : Local L} {spent : Nat} {R : β → Local L → Prop}

/-- An effect on the way that brings no funds. -/
theorem frugal_bind {e : Effect L α} {k : α → Effect L β} (he : IsFrugal e)
    (ht : s.frame.Spends spent t.frame)
    (hk : ∀ a u, s.frame.Spends spent u.frame →
      Ensures (k a) R (fun u => s.frame.Spends 0 u.frame) u) :
    Ensures (e >>= k) R (fun u => s.frame.Spends 0 u.frame) t := by
  have after : s.frame.Spends spent (final e t).frame := ht.trans (he.final t)
  refine .bind ((of_final (P := fun u => s.frame.Spends spent u.frame) after).imp hk ?_)
  exact fun u hu => hu.weaken (Nat.zero_le _)

/-- An effect on the way that brings no funds, in some cases. -/
theorem frugal_ite_bind {p : Prop} [Decidable p] {e : Effect L Unit} {k : Unit → Effect L β}
    (he : IsFrugal e) (ht : s.frame.Spends spent t.frame)
    (hk : ∀ a u, s.frame.Spends spent u.frame →
      Ensures (k a) R (fun u => s.frame.Spends 0 u.frame) u) :
    Ensures (if p then e >>= k else k ()) R (fun u => s.frame.Spends 0 u.frame) t :=
  .ite (fun _ => frugal_bind he ht hk) fun _ => hk () t ht

/-- A charge on the way adds to what is spent. -/
theorem charge_bind {amount : Nat} {k : Unit → Effect L β} (ht : s.frame.Spends spent t.frame)
    (hk : ∀ u, s.frame.Spends (spent + amount) u.frame →
      Ensures (k ()) R (fun u => s.frame.Spends 0 u.frame) u) :
    Ensures (Effect.charge amount >>= k) R (fun u => s.frame.Spends 0 u.frame) t :=
  .bind (.charge (fun _ hgas => hk _ (ht.trans (.consume hgas))) (ht.weaken (Nat.zero_le _)))

end Ensures

/-- The frame has paid for what the effect does, the gas of a child included.  If it fails, it has
    paid as well. -/
abbrev Pays (s : Local L) (e : Effect L Flow) (t : Local L) : Prop :=
  Ensures e (fun flow u => s.frame.Spends flow.childGas u.frame) (fun u => s.frame.Spends 0 u.frame) t

variable {s t : Local L}

/-- The price of the value covers the stipend that comes with it. -/
theorem callValue_bind {value : Word} {k : Unit → Effect L Flow} (ht : s.frame.Spends 0 t.frame)
    (hk : ∀ u, s.frame.Spends (Agree.stipend value) u.frame → Pays s (k ()) u) :
    Pays s (if value ≠ 0 then charge Gas.callValue >>= k else k ()) t := by
  have covered := stipend_le value 0
  refine .ite (fun hvalue => .charge_bind ht fun u hu => hk u (hu.weaken ?_))
    fun hvalue => hk t (ht.weaken ?_)
  · rwa [if_pos hvalue, Nat.zero_add] at covered
  · rwa [if_neg hvalue, Nat.zero_add] at covered

/-- What is set aside for the child of a call is paid. -/
theorem reserveCallGas_bind {c : Context} {requested value : Word} {k : Nat → Effect L Flow}
    (ht : s.frame.Spends (Agree.stipend value) t.frame)
    (hk : ∀ gasLimit u, s.frame.Spends gasLimit u.frame → Pays s (k gasLimit) u) :
    Pays s (reserveCallGas c requested value >>= k) t := by
  refine .bind (.frame_bind ?_)
  cases Gas.forCall c.fork t.frame.gas.remaining requested with
  | error e => exact .throw (ht.weaken (Nat.zero_le _))
  | ok gas =>
    refine Ensures.charge_bind (R := fun gasLimit u => Pays s (k gasLimit) u) ht fun u hu => ?_
    refine .pure (hk _ u (hu.weaken ?_))
    unfold Agree.stipend
    split <;> omega

section Requests

variable [Ledger L]

/-- A child that is skipped gives back what was set aside for it. -/
theorem skipSpawn_pays {reserved : Nat} (ht : s.frame.Spends reserved t.frame) :
    Pays s (skipSpawn reserved) t := by
  refine .bind (.modifyFrame ?_)
  exact .frugal_bind (Follows.push IsFrugal.letsWork 0) ((ht.giveBack rfl).congr rfl rfl)
    fun _ u (hu : s.frame.Spends 0 u.frame) => .pure hu

/-- A call has paid for its child. -/
theorem call_pays (c : Context) (form : CallForm) (s : Local L) : Pays s (call c form) s := by
  have hC := IsFrugal.letsWork (L := L)
  refine .frugal_bind (Follows.pop2 hC) (.refl _) fun (requested, target) s₁ h₁ => ?_
  refine .ite (fun _ => .frugal_bind (Follows.pop hC) h₁ fun value s₂ h₂ => ?_)
    fun _ => .frugal_bind (.pure 0) h₁ fun value s₂ h₂ => ?_
  all_goals
    refine .frugal_bind (Follows.pop4 hC) h₂ fun (inOffset, inLen, outOffset, outLen) s₃ h₃ => ?_
    refine .frugal_ite_bind (Follows.requireWritable hC.toLetsPay) h₃ fun _ s₄ h₄ => ?_
    refine .frugal_bind (Follows.accessAccount hC.toLetsPay _ _ _) h₄ fun _ s₅ h₅ => ?_
    refine .frugal_bind (hC.extendMemory (Memory.inRange_operands inOffset inLen)) h₅
      fun _ s₆ h₆ => ?_
    refine .frugal_bind (hC.extendMemory (Memory.inRange_operands outOffset outLen)) h₆
      fun _ s₇ h₇ => ?_
    -- what comes with the value is set aside with its price, and the rest of the gas below
    refine callValue_bind h₇ fun s₈ h₈ => .ledger_bind ?_
    refine .frugal_ite_bind (hC.charge _) h₈ fun _ s₉ h₉ => ?_
    refine reserveCallGas_bind h₉ fun gasLimit u hu => ?_
    refine .bind (.frame_bind (.ledger_bind (.pure (.ite (fun _ => ?_) fun _ => skipSpawn_pays hu))))
    refine .readMemory_bind (.frame_bind (.pure ?_))
    cases form <;> exact hu

/-- So has a creation. -/
theorem create_pays (c : Context) (salted : Bool) (s : Local L) : Pays s (create c salted) s := by
  have hC := IsFrugal.letsWork (L := L)
  refine .frugal_bind (Follows.requireWritable hC.toLetsPay) (.refl _) fun _ s₁ h₁ => ?_
  refine .frugal_bind (Follows.pop3 hC) h₁ fun (value, offset, size) s₂ h₂ => ?_
  refine .ite (fun _ => .frugal_bind (.bind (Follows.pop hC) fun _ => .pure _) h₂ fun kind s₃ h₃ => ?_)
    fun _ => .frugal_bind (.pure _) h₂ fun kind s₃ h₃ => ?_
  all_goals
    refine .frugal_bind (hC.extendMemory (Memory.inRange_operands offset size)) h₃ fun _ s₄ h₄ => ?_
    refine .frugal_bind (Follows.requireInitCodeSize hC.toLetsPay c _) h₄ fun _ s₅ h₅ => ?_
    refine .frugal_bind (hC.charge _) h₅ fun _ s₆ h₆ => ?_
    refine .frugal_ite_bind (hC.charge _) h₆ fun _ s₇ h₇ => ?_
    refine .readMemory_bind (.frame_bind (.ledger_bind (.frame_bind ?_)))
    -- this charge is all the gas of the child
    refine .charge_bind h₇ fun u hu => ?_
    refine .bind (.frame_bind (.ledger_bind (.pure (.ite (fun _ => ?_) fun _ => ?_))))
    · exact .frame_bind (.pure (hu.weaken (Nat.le_add_left _ _)))
    · exact skipSpawn_pays (hu.weaken (Nat.le_add_left _ _))

/-- What an instruction has done its frame has paid for, the gas of its child included. -/
theorem ofInstruction_pays (c : Context) (ancestors : List Frame) (i : Instruction) (s : Local L) :
    Pays s (ofInstruction c ancestors i) s := by
  cases hasks : i.asksForChild with
  | true =>
    cases i with
    | call | callCode | delegateCall | staticCall => exact call_pays c _ s
    | create | create2 => exact create_pays c _ s
    | _ => cases hasks
  | false =>
    -- no child is asked for, so that nothing is to be paid for one
    have own := Gives.own c ancestors hasks s
    have spent := IsFrugal.ofInstruction c ancestors hasks s
    unfold Ensures at own
    unfold Pays Ensures
    cases hrun : (ofInstruction c ancestors i).run s with
    | ok flow t =>
      rw [hrun] at own spent
      cases flow with
      | next | jumped | halt => exact spent
      | spawn message k => exact own.elim
    | error e t =>
      rw [hrun] at spent
      exact spent

end Requests

end Effect

/-! ### Turns -/

/-- A turn has been paid for out of the funds of its frame, the gas of a child included. -/
theorem Local.turn_spends {L : Type} [Ledger L] {c : Context} {ancestors : List Frame}
    {s t : Local L} {trace trace' : Trace} {o : Outcome}
    (h : s.turn c ancestors trace = (o, t, trace')) : s.frame.Spends o.childGas t.frame := by
  cases hnext : s.frame.nextInstruction c.fork with
  | none =>
    obtain ⟨rfl, rfl | ⟨e, rfl⟩⟩ := turn_ends h hnext
    · exact .refl _
    · exact .refl _
  | some i =>
    -- the charge, and what the instruction spends and hands on
    have paid : Effect.Pays s (paidEffect c ancestors i) s := by
      refine .frugal_bind (Effect.IsFrugal.charge _) (.refl _) fun _ u hu => ?_
      refine (Effect.ofInstruction_pays c ancestors i u).imp (fun flow v hv => ?_) fun v hv => ?_
      · exact Nat.zero_add flow.childGas ▸ hu.trans hv
      · exact hu.trans hv
    obtain ⟨flow, u, hu, hfollow⟩ | ⟨⟨e, rfl⟩, ht⟩ := turn_ensures h hnext paid
    · cases flow with
      | next | jumped | halt | spawn =>
        cases hfollow
        exact hu.congr rfl rfl
    · exact ht

end Evm
