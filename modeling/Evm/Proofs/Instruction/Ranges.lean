import Evm.Proofs.Instruction.Causes
import Evm.Proofs.Instruction.Exact

namespace Evm

/-!
# The ranges of memory that an instruction asks for

The operands of an instruction say which memory it reads or writes.  If one of its ranges is not
empty and goes beyond the largest offset, an instruction that finds its words on the stack and is
not held up otherwise runs out of gas.

* `Frame.ranges` — the ranges, by the operands.
* `Frame.Reaches` — nothing but gas keeps an instruction from its memory.
* `Effect.RunsOut` — an effect that runs out of gas, and how that follows its structure.
* `Effect.ofInstruction_runsOut` — an instruction with a range beyond does.
-/

/-! ### Operands -/

/-- The ranges of memory that the instruction asks for, as offset and size. -/
def Frame.ranges (f : Frame) : Instruction → List (Nat × Nat)
  | .keccak256 | .log _ | .ret | .revert => [((f.operand 0).toNat, (f.operand 1).toNat)]
  | .mload | .mstore => [((f.operand 0).toNat, 32)]
  | .mstore8 => [((f.operand 0).toNat, 1)]
  | .callDataCopy | .codeCopy | .returnDataCopy => [((f.operand 0).toNat, (f.operand 2).toNat)]
  | .extCodeCopy => [((f.operand 1).toNat, (f.operand 3).toNat)]
  | .create | .create2 => [((f.operand 1).toNat, (f.operand 2).toNat)]
  | .call | .callCode =>
    [((f.operand 3).toNat, (f.operand 4).toNat), ((f.operand 5).toNat, (f.operand 6).toNat)]
  | .delegateCall | .staticCall =>
    [((f.operand 2).toNat, (f.operand 3).toNat), ((f.operand 4).toNat, (f.operand 5).toNat)]
  | _ => []

/-- How many words an instruction takes that asks for memory. -/
def Instruction.operandCount : Instruction → Nat
  | .mload => 1
  | .keccak256 | .mstore | .mstore8 | .ret | .revert => 2
  | .callDataCopy | .codeCopy | .returnDataCopy | .create => 3
  | .extCodeCopy | .create2 => 4
  | .delegateCall | .staticCall => 6
  | .call | .callCode => 7
  | .log n => n + 2
  | _ => 0

/-- Nothing but gas keeps the instruction from its memory: its words are there, the frame may do
    what it does, and there is as much return data as it wants. -/
structure Frame.Reaches (f : Frame) (i : Instruction) : Prop where
  operands : i.operandCount ≤ f.stack.size
  writable : i = .create ∨ i = .create2 ∨ (∃ n, i = .log n) ∨ (i = .call ∧ f.operand 2 ≠ 0) →
    f.isStatic = false
  returnData : i = .returnDataCopy →
    (f.operand 1).toNat + (f.operand 2).toNat ≤ f.returnData.size

/-! ### Words that are taken -/

/-- The second frame is the first one with so many words taken.  Otherwise it has only spent. -/
structure Frame.HasTaken (f : Frame) (n : Nat) (g : Frame) : Prop where
  spends : f.Spends 0 g
  stack : g.stack = f.stack.dropped n
  message : g.message = f.message
  returnData : g.returnData = f.returnData

/-- Nothing is taken at first. -/
theorem Frame.HasTaken.refl (f : Frame) : f.HasTaken 0 f := ⟨.refl f, rfl, rfl, rfl⟩

namespace Effect

variable {L : Type} {α β : Type}

/-! ### Effects that only spend -/

/-- The frame spends, and fails for want of gas alone. -/
@[reducible] def Conduct.spending : Conduct L where
  goes s t := s.frame.HasTaken 0 t.frame
  fails x _ _ := x = .outOfGas
  refl s := .refl s.frame
  trans h k := ⟨h.spends.trans k.spends, k.stack.trans h.stack, k.message.trans h.message,
    k.returnData.trans h.returnData⟩
  late _ := id

/-- The effect spends, or fails for want of gas. -/
abbrev OnlySpends (e : Effect L α) : Prop := Follows .spending e

namespace OnlySpends

/-- A charge spends, or runs out of gas. -/
theorem charge (amount : Nat) : OnlySpends (charge amount : Effect L Unit) := by
  intro s
  rw [run_charge]
  cases hgas : s.frame.gas.consume amount with
  | ok gas => exact ⟨(Frame.Spends.consume hgas).weaken (Nat.zero_le _), rfl, rfl, rfl⟩
  | error x => exact (Meter.consume_eq_error_iff.1 hgas).1

/-- So does memory that grows within the range of counters. -/
theorem extendMemory {offset len : Nat} (hrange : Memory.InRange offset len) :
    OnlySpends (extendMemory offset len : Effect L Unit) := by
  intro s
  rw [run_extendMemory]
  cases hm : s.frame.memory.extend offset len s.frame.gas with
  | ok r => exact ⟨.extend hrange hm, rfl, rfl, rfl⟩
  | error x => exact Memory.error_of_extend hm

/-- The ledger costs nothing by itself. -/
theorem onLedger (f : L → α × L) : OnlySpends (Effect.onLedger f) := fun s => .refl s.frame

/-- An access spends, or runs out of gas. -/
theorem accessAccount [Ledger L] (fork : Fork) (a : Address) (surcharge : Nat) :
    OnlySpends (accessAccount fork a surcharge : Effect L Unit) :=
  .ite (.bind (onLedger _) fun _ => .ite (charge surcharge) (.pure ())) (.pure ())

end OnlySpends

/-! ### Effects that run out of gas -/

/-- Wherever the frame has come with so many words taken, the effect runs out of gas. -/
def RunsOut (f : Frame) (n : Nat) (e : Effect L α) : Prop :=
  ∀ s : Local L, f.HasTaken n s.frame → ∃ t, e.run s = .error .outOfGas t

namespace RunsOut

variable {f : Frame} {n : Nat}

/-- Words that are taken. -/
theorem onStack_bind {g : Stack → Except VmError (β × Stack)} {b : β} {more : Nat}
    (hg : g (f.stack.dropped n) = .ok (b, f.stack.dropped more)) {k : β → Effect L α}
    (hk : RunsOut f more (k b)) : RunsOut f n (onStack g >>= k) := by
  intro s hs
  rw [run_bind, run_onStack, hs.stack, hg]
  exact hk _ ⟨hs.spends.congr rfl rfl, rfl, hs.message, hs.returnData⟩

/-- Either the gas is used up on the way, or it is later. -/
theorem after {e : Effect L β} {k : β → Effect L α} (he : OnlySpends e)
    (hk : ∀ b, RunsOut f n (k b)) : RunsOut f n (e >>= k) := by
  -- the first part has only spent, so the second starts from a frame as short as before
  intro s hs
  have first := he s
  rw [run_bind]
  cases hrun : e.run s with
  | error x t =>
    rw [hrun] at first
    obtain rfl := first
    exact ⟨t, rfl⟩
  | ok b t =>
    rw [hrun] at first
    exact hk b t ⟨hs.spends.trans first.spends, first.stack.trans hs.stack,
      first.message.trans hs.message, first.returnData.trans hs.returnData⟩

/-- Either branch runs out of gas. -/
theorem ite {p : Prop} [Decidable p] {e e' : Effect L α} (he : p → RunsOut f n e)
    (he' : ¬ p → RunsOut f n e') : RunsOut f n (if p then e else e') := by
  split
  · rename_i h
    exact he h
  · rename_i h
    exact he' h

/-- Reading the frame comes before running out of gas. -/
theorem frame_bind {k : Frame → Effect L α} (hk : ∀ g, f.HasTaken n g → RunsOut f n (k g)) :
    RunsOut f n (frame >>= k) :=
  fun s hs => hk s.frame hs s hs

/-- So does reading the ledger. -/
theorem ledger_bind {k : L → Effect L α} (hk : ∀ l, RunsOut f n (k l)) :
    RunsOut f n (ledger >>= k) :=
  fun s hs => hk s.ledger s hs

/-- A part of an instruction and where control goes after it. -/
theorem bind {e : Effect L β} (he : RunsOut f n e) (k : β → Effect L α) : RunsOut f n (e >>= k) := by
  intro s hs
  obtain ⟨t, hrun⟩ := he s hs
  exact ⟨t, by rw [run_bind, hrun]⟩

/-- A frame that is not static gets as far as running out of gas. -/
theorem requireNonStatic_bind (hstatic : f.isStatic = false) {k : Unit → Effect L α}
    (hk : RunsOut f n (k ())) : RunsOut f n (requireNonStatic >>= k) := by
  intro s hs
  have same : s.frame.isStatic = false := (congrArg Message.isStatic hs.message).trans hstatic
  rw [run_requireNonStatic_bind, same]
  exact hk s hs

/-- So does one that need not be asked whether it is static. -/
theorem requireNonStatic_if {p : Prop} [Decidable p] (hstatic : p → f.isStatic = false)
    {k : Unit → Effect L α} (hk : RunsOut f n (k ())) :
    RunsOut f n (if p then requireNonStatic >>= k else k ()) :=
  ite (fun hp => requireNonStatic_bind (hstatic hp) hk) fun _ => hk

/-- So does one with enough words for its topics. -/
theorem popTopics_bind (m : Nat) {k : List Word → Effect L α} (hsize : n + m ≤ f.stack.size)
    (hk : ∀ topics, RunsOut f (n + m) (k topics)) : RunsOut f n (popTopics m >>= k) := by
  induction m generalizing n k with
  | zero => exact hk []
  | succ m ih =>
    unfold popTopics
    rw [bind_assoc]
    refine onStack_bind (Stack.pop_dropped (by omega)) ?_
    simp only [bind_assoc, pure_bind]
    refine ih (by omega) fun rest => ?_
    rw [show n + 1 + m = n + (m + 1) by omega]
    exact hk _

/-- A range that goes beyond the largest offset cannot be paid for. -/
theorem extendMemory (hf : f.IsShort) {offset len : Nat} (hfar : ¬ Exact.InReach offset len) :
    RunsOut f n (extendMemory (min offset maxOffset) (min len maxOffset) : Effect L Unit) := by
  intro s hs
  have short := hs.spends.isShort hf
  obtain ⟨hlen, hend⟩ := Exact.InReach.not_iff.1 hfar
  rw [run_extendMemory, Memory.extend_beyond short.funds short.words hlen hend]
  exact ⟨s, rfl⟩

/-- Of two ranges that are asked for, one goes beyond. -/
theorem both_bind (hf : f.IsShort) {inOffset inLen outOffset outLen : Word}
    (hfar : ¬ Exact.InReach inOffset.toNat inLen.toNat ∨
      ¬ Exact.InReach outOffset.toNat outLen.toNat) (k : Unit → Effect L α) :
    RunsOut f n (Effect.extendMemory inOffset.clampOffset inLen.clampOffset >>= fun _ =>
      Effect.extendMemory outOffset.clampOffset outLen.clampOffset >>= k) := by
  obtain hin | hout := hfar
  · exact .bind (.extendMemory hf hin) _
  · -- paying for the first one leaves no more for the second one
    exact .after (.extendMemory (Memory.inRange_operands _ _)) fun _ =>
      .bind (.extendMemory hf hout) _

/-! ### Instructions -/

/-- A copy beyond reach runs out of gas. -/
theorem copyToMemory (hf : f.IsShort) (source : Bytes) (hsize : n + 3 ≤ f.stack.size)
    (hfar : ¬ Exact.InReach (f.operand n).toNat (f.operand (n + 2)).toNat) :
    RunsOut f n (copyToMemory source : Effect L Unit) :=
  onStack_bind (Stack.pop3_dropped hsize) (.bind (.extendMemory hf hfar) _)

/-- So does a copy of return data that is there. -/
theorem returnDataCopy (hf : f.IsShort) (hreaches : f.Reaches .returnDataCopy)
    (hfar : ¬ Exact.InReach (f.operand 0).toNat (f.operand 2).toNat) :
    RunsOut f 0 (returnDataCopy : Effect L Unit) := by
  refine onStack_bind (Stack.pop3_dropped hreaches.operands) (.frame_bind fun g hg => ?_)
  -- whether there is so much return data is checked before memory is asked for
  rw [hg.returnData]
  exact .ite (fun _ => .bind (.extendMemory hf hfar) _)
    fun hpast => absurd (hreaches.returnData rfl) hpast

/-- A hash of a range beyond reach runs out of gas. -/
theorem keccak256 (hf : f.IsShort) (hsize : 2 ≤ f.stack.size)
    (hfar : ¬ Exact.InReach (f.operand 0).toNat (f.operand 1).toNat) :
    RunsOut f 0 (keccak256 : Effect L Unit) :=
  onStack_bind (Stack.pop2_dropped hsize) (.bind (.extendMemory hf hfar) _)

/-- An output beyond reach runs out of gas. -/
theorem setOutput (hf : f.IsShort) (hsize : 2 ≤ f.stack.size)
    (hfar : ¬ Exact.InReach (f.operand 0).toNat (f.operand 1).toNat) :
    RunsOut f 0 (setOutput : Effect L Unit) :=
  onStack_bind (Stack.pop2_dropped hsize) (.bind (.extendMemory hf hfar) _)

/-- A record beyond reach runs out of gas. -/
theorem log (hf : f.IsShort) {m : Nat} (hreaches : f.Reaches (.log m))
    (hfar : ¬ Exact.InReach (f.operand 0).toNat (f.operand 1).toNat) :
    RunsOut f 0 (log m : Effect L Unit) := by
  have hsize : m + 2 ≤ f.stack.size := hreaches.operands
  have writable := hreaches.writable (.inr (.inr (.inl ⟨m, rfl⟩)))
  refine requireNonStatic_bind writable (onStack_bind (Stack.pop2_dropped (by omega)) ?_)
  exact popTopics_bind m (by omega) fun topics => .bind (.extendMemory hf hfar) _

/-- A load beyond reach runs out of gas. -/
theorem mload (hf : f.IsShort) (hsize : 1 ≤ f.stack.size)
    (hfar : ¬ Exact.InReach (f.operand 0).toNat 32) : RunsOut f 0 (mload : Effect L Unit) :=
  onStack_bind (Stack.pop_dropped hsize) (.bind (.extendMemory hf hfar) _)

/-- Storing a word beyond reach runs out of gas. -/
theorem mstore (hf : f.IsShort) (hsize : 2 ≤ f.stack.size)
    (hfar : ¬ Exact.InReach (f.operand 0).toNat 32) : RunsOut f 0 (mstore : Effect L Unit) :=
  onStack_bind (Stack.pop2_dropped hsize) (.bind (.extendMemory hf hfar) _)

/-- Storing a byte beyond reach runs out of gas. -/
theorem mstore8 (hf : f.IsShort) (hsize : 2 ≤ f.stack.size)
    (hfar : ¬ Exact.InReach (f.operand 0).toNat 1) : RunsOut f 0 (mstore8 : Effect L Unit) :=
  onStack_bind (Stack.pop2_dropped hsize) (.bind (.extendMemory hf hfar) _)

variable [Ledger L]

/-- A copy of code beyond reach runs out of gas. -/
theorem extCodeCopy (hf : f.IsShort) (c : Context) (hsize : 4 ≤ f.stack.size)
    (hfar : ¬ Exact.InReach (f.operand 1).toNat (f.operand 3).toNat) :
    RunsOut f 0 (do
      let a ← popAccessed c
      Effect.copyToMemory (Ledger.code (← ledger) a) : Effect L Unit) := by
  unfold popAccessed popAddress
  simp only [bind_assoc, pure_bind]
  refine onStack_bind (Stack.pop_dropped (by omega)) (.after (.accessAccount _ _ _) fun _ => ?_)
  exact .ledger_bind fun _ => copyToMemory hf _ hsize hfar

/-- A creation with init code beyond reach runs out of gas. -/
theorem create (hf : f.IsShort) (c : Context) (salted : Bool) (hstatic : f.isStatic = false)
    (hsize : (if salted then 4 else 3) ≤ f.stack.size)
    (hfar : ¬ Exact.InReach (f.operand 1).toNat (f.operand 2).toNat) :
    RunsOut f 0 (create c salted : Effect L Flow) := by
  have three : 0 + 3 ≤ f.stack.size := by
    split at hsize <;> omega
  refine requireNonStatic_bind hstatic (onStack_bind (Stack.pop3_dropped three) ?_)
  refine .ite (fun hsalted => ?_) fun _ => .after (.pure _) fun kind => ?_
  · rw [if_pos hsalted] at hsize
    rw [map_eq_pure_bind, bind_assoc]
    exact onStack_bind (Stack.pop_dropped hsize) (.bind (.extendMemory hf hfar) _)
  · exact .bind (.extendMemory hf hfar) _

/-- A call, the ranges of which come after so many words. -/
theorem call (hf : f.IsShort) (c : Context) (form : CallForm) {first : Nat}
    (hfirst : first = if form.takesValue then 3 else 2) (hsize : first + 4 ≤ f.stack.size)
    (hstatic : form = .call ∧ f.operand 2 ≠ 0 → f.isStatic = false)
    (hfar : ¬ Exact.InReach (f.operand first).toNat (f.operand (first + 1)).toNat ∨
      ¬ Exact.InReach (f.operand (first + 2)).toNat (f.operand (first + 3)).toNat) :
    RunsOut f 0 (call c form : Effect L Flow) := by
  refine onStack_bind (Stack.pop2_dropped (by omega)) ?_
  refine .ite (fun htakes => ?_) fun htakes => ?_
  · -- the value comes before the ranges
    rw [if_pos htakes] at hfirst
    subst hfirst
    refine onStack_bind (Stack.pop_dropped (by omega)) ?_
    refine onStack_bind (Stack.pop4_dropped hsize) (requireNonStatic_if hstatic ?_)
    exact .after (.accessAccount _ _ _) fun _ => both_bind hf hfar _
  · rw [if_neg htakes] at hfirst
    subst hfirst
    rw [pure_bind]
    refine onStack_bind (Stack.pop4_dropped hsize) (requireNonStatic_if (fun h => ?_) ?_)
    · -- no value is taken, so that none moves
      exact absurd rfl h.2
    · exact .after (.accessAccount _ _ _) fun _ => both_bind hf hfar _

end RunsOut

/-- An instruction that nothing but gas keeps from its memory runs out of gas if one of its ranges
    is not empty and goes beyond the largest offset. -/
theorem ofInstruction_runsOut [Ledger L] {f : Frame} (hf : f.IsShort) (c : Context)
    (ancestors : List Frame) {i : Instruction} (hreaches : f.Reaches i) {offset len : Nat}
    (hrange : (offset, len) ∈ f.ranges i) (hfar : ¬ Exact.InReach offset len) :
    RunsOut f 0 (ofInstruction c ancestors i : Effect L Flow) := by
  -- each instruction names one range or two of them, the second for the calls
  have hsize := hreaches.operands
  have of_range {o l : Nat} (h : (offset, len) ∈ [(o, l)]) : ¬ Exact.InReach o l := by
    cases List.mem_singleton.1 h
    exact hfar
  have of_ranges {o₁ l₁ o₂ l₂ : Nat} (h : (offset, len) ∈ [(o₁, l₁), (o₂, l₂)]) :
      ¬ Exact.InReach o₁ l₁ ∨ ¬ Exact.InReach o₂ l₂ := by
    rcases List.mem_cons.1 h with hfirst | hsecond
    · exact .inl (of_range (List.mem_singleton.2 hfirst))
    · exact .inr (of_range hsecond)
  cases i with
  | call =>
    refine .call hf c .call rfl hsize (fun h => ?_) (of_ranges hrange)
    exact hreaches.writable (.inr (.inr (.inr ⟨rfl, h.2⟩)))
  | callCode => exact .call hf c .callCode rfl hsize (fun h => absurd h.1 nofun) (of_ranges hrange)
  | delegateCall =>
    exact .call hf c .delegateCall rfl hsize (fun h => absurd h.1 nofun) (of_ranges hrange)
  | staticCall =>
    exact .call hf c .staticCall rfl hsize (fun h => absurd h.1 nofun) (of_ranges hrange)
  | keccak256 => exact .bind (.keccak256 hf hsize (of_range hrange)) _
  | log m => exact .bind (.log hf hreaches (of_range hrange)) _
  | ret | revert => exact .bind (.setOutput hf hsize (of_range hrange)) _
  | mload => exact .bind (.mload hf hsize (of_range hrange)) _
  | mstore => exact .bind (.mstore hf hsize (of_range hrange)) _
  | mstore8 => exact .bind (.mstore8 hf hsize (of_range hrange)) _
  | callDataCopy | codeCopy =>
    exact .bind (.frame_bind fun g _ => .copyToMemory hf _ hsize (of_range hrange)) _
  | returnDataCopy => exact .bind (.returnDataCopy hf hreaches (of_range hrange)) _
  | extCodeCopy => exact .bind (.extCodeCopy hf c hsize (of_range hrange)) _
  | create =>
    have writable := hreaches.writable (.inl rfl)
    exact .create hf c false writable hsize (of_range hrange)
  | create2 =>
    have writable := hreaches.writable (.inr (.inl rfl))
    exact .create hf c true writable hsize (of_range hrange)
  | _ => cases hrange

end Effect

end Evm
