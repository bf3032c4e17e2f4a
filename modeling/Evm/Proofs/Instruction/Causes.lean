import Evm.Proofs.Instruction.Operands
import Evm.Proofs.Instruction.Stipend

namespace Evm

/-!
# Why a frame ends

Once code runs, a frame fails in one of two ways.  REVERT asks for a rollback and keeps the gas that
is left; every other failure uses it all.  The failures that keep gas for other reasons come before
any code runs.  No failure comes from a write to memory: each instruction has made its range
addressable before, so that only RETURNDATACOPY goes out of bounds, those of the return data.

* `Effect.Faults` — an effect that fails as instructions in general do.
* `Frame.Oversteps` — the operands ask for return data past its end.
* `Effect.paidEffect_ok`, `Effect.paidEffect_fails` — what comes of an instruction.
* `Local.turn_fails`, `Local.turn_error` — what a frame fails for in its turn.
-/

/-! ### Causes -/

/-- The words on the stack ask for return data past its end, from an offset on and so much of it. -/
def Frame.Oversteps (f : Frame) (offset size : Nat) : Prop :=
  ∃ dest src len rest, f.stack.items = dest :: src :: len :: rest ∧
    f.returnData.size < src.toNat + len.toNat ∧
    offset = src.clampOffset ∧ size = len.clampOffset

/-! ### Effects -/

namespace Effect

variable {L : Type} {α β : Type}

/-- An effect in two parts that fails does so in its first part or in its second. -/
theorem error_of_bind {e : Effect L α} {k : α → Effect L β} {s t : Local L} {err : VmError}
    (h : (e >>= k).run s = .error err t) :
    e.run s = .error err t ∨ ∃ a u, e.run s = .ok a u ∧ (k a).run u = .error err t := by
  change EStateM.bind e k s = _ at h
  rw [EStateM.bind] at h
  cases hrun : e s with
  | ok a u =>
    rw [hrun] at h
    exact .inr ⟨a, u, hrun, h⟩
  | error err' u =>
    rw [hrun] at h
    cases h
    exact .inl hrun

/-- Failures are those of instructions in general; nothing is said about success. -/
@[reducible] def Conduct.faulting : Conduct L where
  goes _ _ := True
  fails x _ _ := x.IsFault
  refl _ := trivial
  trans _ _ := trivial
  late _ := id

/-- If the effect fails, then as instructions in general do. -/
abbrev Faults (e : Effect L α) : Prop := Follows .faulting e

namespace Faults

/-- It is enough to look at failures. -/
theorem of_error {e : Effect L α}
    (h : ∀ ⦃s t : Local L⦄ ⦃x : VmError⦄, e.run s = .error x t → x.IsFault) : Faults e := by
  intro s
  cases hrun : e.run s with
  | ok a t => exact trivial
  | error x t => exact h hrun

/-- An effect in two parts that fails does so as instructions in general do, or it fails in its
    second part. -/
theorem error_of_bind {e : Effect L α} {k : α → Effect L β} (he : Faults e) {s t : Local L}
    {err : VmError} (h : (e >>= k).run s = .error err t) :
    err.IsFault ∨ ∃ a u, e.run s = .ok a u ∧ (k a).run u = .error err t :=
  (Effect.error_of_bind h).imp_left fun hfirst => he.fails hfirst

/-- An effect that does not fail at all. -/
theorem modifyFrame (f : Frame → Frame) : Faults (Effect.modifyFrame f : Effect L Unit) :=
  fun _ => trivial

/-- A change of the ledger raises nothing. -/
theorem modifyLedger (f : L → L) : Faults (Effect.modifyLedger f) := fun _ => trivial

/-- A read of the ledger raises nothing. -/
theorem onLedger (f : L → α × L) : Faults (Effect.onLedger f) := fun _ => trivial

/-- A ledger that refuses makes the frame fail. -/
theorem tryLedger (step : LedgerStep L α) : Faults (Effect.tryLedger step VmError.state) := by
  refine of_error fun s t x h => ?_
  rw [run_tryLedger] at h
  split at h <;> cases h
  trivial

/-! ### Parts of instructions -/

/-- A charge raises out of gas only. -/
theorem charge (amount : Nat) : Faults (charge amount : Effect L Unit) := by
  refine of_error fun s t x h => ?_
  rw [run_charge] at h
  split at h
  · cases h
  · rename_i e hgas
    cases h
    rw [(Meter.consume_eq_error_iff.1 hgas).1]
    trivial

/-- Work on the stack raises what the stack raises. -/
theorem onStack {f : Stack → Except VmError (α × Stack)} (hf : Stack.Faults f) :
    Faults (onStack f : Effect L α) := by
  refine of_error fun s t x h => ?_
  rw [run_onStack] at h
  split at h
  · cases h
  · rename_i e hstack
    cases h
    rcases hf hstack with rfl | rfl
    · trivial
    · trivial

/-- Three operands are missing or there. -/
theorem pop3 : Faults (pop3 : Effect L (Word × Word × Word)) := onStack Stack.drops_pop3.faults

/-- An extension raises what its charge raises. -/
theorem extendMemory (offset len : Nat) : Faults (extendMemory offset len : Effect L Unit) := by
  refine of_error fun s t x h => ?_
  rw [run_extendMemory] at h
  split at h
  · cases h
  · rename_i e hmemory
    cases h
    rw [Memory.error_of_extend hmemory]
    trivial

/-- What comes after a range of memory has been asked for may rely on it. -/
theorem extendMemory_bind {offset len : Nat} (hrange : Memory.InRange offset len)
    {k : Unit → Effect L α}
    (hk : ∀ ⦃s t : Local L⦄ ⦃err : VmError⦄,
      (Continuation.call offset len).reach ≤ s.frame.memory.size →
        (k ()).run s = .error err t → err.IsFault) :
    Faults (Effect.extendMemory offset len >>= k) := by
  refine of_error fun s t x h => ?_
  obtain hfault | ⟨_, u, hrun, hsecond⟩ := (extendMemory offset len).error_of_bind h
  · exact hfault
  · rw [run_extendMemory] at hrun
    split at hrun
    · rename_i memory gas hgrown
      cases hrun
      exact hk (Memory.reach_of_extend hrange hgrown) hsecond
    · cases hrun

/-- A write to a range of memory that is there goes through. -/
theorem writeMemory_ne_error {s t : Local L} {err : VmError} {offset len : Nat} {b : Bytes}
    (hb : b.size ≤ len) (hreach : (Continuation.call offset len).reach ≤ s.frame.memory.size) :
    (writeMemory offset b).run s ≠ .error err t := by
  intro h
  obtain ⟨memory, hwrite⟩ := Memory.write_of_reach hb hreach
  rw [writeMemory, run_frame_bind, hwrite] at h
  cases h

/-- So does one that is paid for first. -/
theorem storePaid {offset len amount : Nat} {b : Bytes} (hrange : Memory.InRange offset len)
    (hb : b.size ≤ len) :
    Faults (do Effect.extendMemory offset len; Effect.charge amount; writeMemory offset b
      : Effect L Unit) := by
  refine extendMemory_bind hrange fun s t err hreach h => ?_
  obtain hfault | ⟨_, u, hrun, hwrite⟩ := (charge _).error_of_bind h
  · exact hfault
  · -- the price leaves memory as it is
    rw [run_charge] at hrun
    split at hrun
    · cases hrun
      exact absurd hwrite (writeMemory_ne_error hb hreach)
    · cases hrun

/-! ### Instructions -/

variable [Ledger L]

/-- The parts of instructions fail in general ways alone. -/
theorem letsWork : (Conduct.faulting : Conduct L).LetsWork where
  refuse hx _ _ := hx
  charge := charge
  extendMemory _ := extendMemory _ _
  store hrange hb :=
    extendMemory_bind hrange fun _ _ _ hreach h => absurd h (writeMemory_ne_error hb hreach)
  storePaid := storePaid
  lookAtAccount _ := onLedger _
  lookAtSlot _ := onLedger _
  onStack := onStack

/-- There are two instructions that fail in another way as well: one asks for a rollback, and one
    reads return data. -/
theorem ofInstruction (c : Context) (ancestors : List Frame) {i : Instruction}
    (hrevert : i ≠ .revert) (hcopy : i ≠ .returnDataCopy) :
    Faults (ofInstruction c ancestors i : Effect L Flow) := by
  have hC := letsWork (L := L)
  -- the instructions that are not plain, one by one
  have skip (reserved : Nat) : Faults (skipSpawn reserved : Effect L Flow) :=
    Follows.skipSpawn hC (fun _ => modifyFrame _) reserved
  have jump (target : Word) : Faults (jumpTo target : Effect L Flow) :=
    Follows.jumpTo hC (fun _ => modifyFrame _) target
  cases hplain : i.isPlain with
  | true => exact .ofPlain hC c ancestors hplain
  | false =>
    cases i with
    | revert => exact absurd rfl hrevert
    | returnDataCopy => exact absurd rfl hcopy
    | sstore =>
      exact Follows.next (Follows.sstore hC (fun _ _ => modifyFrame _) (fun _ _ => modifyLedger _) c) _
    | log n => exact Follows.next (Follows.log hC (fun _ _ => modifyFrame _) n) _
    | jump => exact Follows.bind (Follows.pop hC) jump
    | jumpi => exact Follows.bind (onStack Stack.drops_pop2.faults) fun _ => .ite (.pure _) (jump _)
    | create | create2 => exact Follows.create hC skip c _
    | call | callCode | delegateCall | staticCall => exact Follows.call hC skip c _
    | ret => exact Follows.next (Follows.setOutput hC fun _ _ => modifyFrame _) _
    | selfDestruct =>
      exact Follows.next (Follows.selfDestruct hC (modifyFrame _) (fun _ => modifyFrame _)
        (fun _ _ => tryLedger _) (fun _ => modifyLedger _) c ancestors) _
    | _ => cases hplain

end Faults

end Effect

/-! ### Turns -/

namespace Effect

variable {L : Type} [Ledger L]

/-- An instruction that has been paid for and goes through is not the one that asks for a rollback,
    and if it asks for a child, it is a call or a creation. -/
theorem paidEffect_ok {c : Context} {ancestors : List Frame} {i : Instruction} {s t : Local L}
    {flow : Flow} (h : (Local.paidEffect c ancestors i).run s = .ok flow t) :
    i ≠ .revert ∧ (flow.IsOwn ∨ i.asksForChild = true) := by
  have gives {P : Flow → Prop} (hi : Gives (ofInstruction c ancestors i : Effect L Flow) P) :
      P flow := by
    have hpaid : Gives (Local.paidEffect c ancestors i : Effect L Flow) P := .after fun _ => hi
    have hflow := hpaid s
    unfold Ensures at hflow
    rwa [h] at hflow
  constructor
  · rintro rfl
    exact gives (P := fun _ => False) (.after fun _ => .throw _)
  · cases hasks : i.asksForChild with
    | false => exact .inl (gives (.own c ancestors hasks))
    | true => exact .inr rfl

/-- To copy return data fails for want of words or of gas, or if there is not so much of it. -/
theorem returnDataCopy_fails {s t : Local L} {e : VmError}
    (h : (returnDataCopy : Effect L Unit).run s = .error e t) :
    e.IsFault ∨ ∃ offset size, e = .outOfBounds offset size ∧ s.frame.Oversteps offset size := by
  obtain hfault | ⟨⟨dest, src, size⟩, u, hpop, hcopy⟩ := Faults.pop3.error_of_bind h
  · exact .inl hfault
  · rw [pop3, run_onStack] at hpop
    split at hpop
    · rename_i stack hstack
      cases hpop
      rw [run_frame_bind] at hcopy
      dsimp only at hcopy
      split at hcopy
      · exact .inl ((Follows.copyRange Faults.letsWork.toLetsPay _ dest src size).fails hcopy)
      · -- the check comes before anything is written
        rename_i hpast
        cases hcopy
        refine .inr ⟨_, _, rfl, dest, src, size, stack.items, ?_, Nat.lt_of_not_le hpast, rfl, rfl⟩
        exact congrArg Stack.items (Stack.eq_of_pop3 hstack)
    · cases hpop

/-- One that fails does so as instructions in general do, or it asks for a rollback, or for return
    data past its end. -/
theorem paidEffect_fails {c : Context} {ancestors : List Frame} {i : Instruction} {s t : Local L}
    {e : VmError} (h : (Local.paidEffect c ancestors i).run s = .error e t) :
    e.IsFault ∨ (e = .revert ∧ i = .revert) ∨
      i = .returnDataCopy ∧ ∃ offset size, e = .outOfBounds offset size ∧
        s.frame.Oversteps offset size := by
  -- the two instructions with causes of their own come after their charge
  by_cases hi : i = .revert ∨ i = .returnDataCopy
  · obtain hfault | ⟨_, u, hpaid, hfails⟩ := (Faults.charge _).error_of_bind h
    · exact .inl hfault
    · rcases hi with rfl | rfl
      · have output : Faults (setOutput : Effect L Unit) :=
          Follows.setOutput Faults.letsWork fun _ _ => Faults.modifyFrame _
        obtain hfault | ⟨_, u', -, hthrown⟩ := output.error_of_bind hfails
        · exact .inl hfault
        · cases hthrown
          exact .inr (.inl ⟨rfl, rfl⟩)
      · obtain hcopy | ⟨_, u', -, hnext⟩ := error_of_bind hfails
        · rw [run_charge] at hpaid
          split at hpaid <;> cases hpaid
          exact (returnDataCopy_fails hcopy).imp_right fun hover => .inr ⟨rfl, hover⟩
        · cases hnext
  · push Not at hi
    have hpaid : Faults (Local.paidEffect c ancestors i : Effect L Flow) :=
      Follows.bind (Faults.charge _) fun _ => Faults.ofInstruction c ancestors hi.1 hi.2
    exact .inl (hpaid.fails h)

/-- So it uses all gas, or asks for a rollback. -/
theorem paidEffect_error {c : Context} {ancestors : List Frame} {i : Instruction} {s t : Local L}
    {e : VmError} (h : (Local.paidEffect c ancestors i).run s = .error e t) :
    e.consumesAllGas = true ∨ e = .revert ∧ i = .revert := by
  obtain hfault | hrevert | ⟨-, offset, size, rfl, -⟩ := paidEffect_fails h
  · exact .inl hfault.consumesAllGas
  · exact .inr hrevert
  · exact .inl rfl

end Effect

namespace Local

variable {L : Type} [Ledger L]

/-- What a frame fails for in its turn. -/
theorem turn_fails {c : Context} {ancestors : List Frame} {s t : Local L} {trace trace' : Trace}
    {e : VmError} (h : s.turn c ancestors trace = (.failed e, t, trace')) :
    e.IsFault ∨ (e = .revert ∧ s.frame.nextInstruction c.fork = some .revert) ∨
      s.frame.nextInstruction c.fork = some .returnDataCopy ∧
        ∃ offset size, e = .outOfBounds offset size ∧ s.frame.Oversteps offset size := by
  unfold turn at h
  split at h
  · cases h
  · rename_i b hb
    split at h
    · cases h
      exact .inl trivial
    · rename_i i hi
      -- whatever the effect fails with, the turn fails with
      have hnext : s.frame.nextInstruction c.fork = some i := by
        rw [Frame.nextInstruction, hb]
        exact hi
      rw [hnext]
      have cause {err : VmError} {u : Local L}
          (hrun : (paidEffect c ancestors i).run s = .error err u) :
          err.IsFault ∨ (err = .revert ∧ some i = some .revert) ∨
            some i = some .returnDataCopy ∧ ∃ offset size, err = .outOfBounds offset size ∧
              s.frame.Oversteps offset size := by
        simpa only [Option.some.injEq] using Effect.paidEffect_fails hrun
      unfold runInstruction at h
      dsimp only at h
      split at h
      · rename_i flow u hrun
        cases flow <;> cases h
      · rename_i hrun
        cases h
        exact cause hrun
      · rename_i hrun
        cases h
        exact cause hrun

/-- A frame that fails in its turn uses all gas, or asks for a rollback. -/
theorem turn_error {c : Context} {ancestors : List Frame} {s t : Local L} {trace trace' : Trace}
    {e : VmError} (h : s.turn c ancestors trace = (.failed e, t, trace')) :
    e = .revert ∨ e.consumesAllGas = true := by
  obtain hfault | ⟨rfl, -⟩ | ⟨-, offset, size, rfl, -⟩ := turn_fails h
  · exact .inr hfault.consumesAllGas
  · exact .inl rfl
  · exact .inr rfl

end Local

end Evm
