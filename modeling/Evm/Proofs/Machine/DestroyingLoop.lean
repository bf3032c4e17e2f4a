import Evm.Proofs.Instruction.Refund
import Evm.Proofs.Machine.Delivery
import Evm.Proofs.Machine.Passages
import Evm.Proofs.Machine.Records

namespace Evm

/-!
# A contract that lets account after account destroy itself

The contract calls the account whose address is the gas that it has left, and starts again.  The
addresses go down, so each round calls another account.  If each of these destroys itself, a round
registers one account more, and costs the same whatever has been registered before.

* `destroyingCode`, `victimCode` — the code of the contract, and that of the others.
* `Effect.run_call`, `Effect.run_selfDestruct` — the two instructions where they go through.
* `Machine.steps_of_destruction` — a child that destroys itself at once.
* `DestroyingRound` — the frame at the start of a round.
* `DestroyingRound.next` — a round registers one more account.
* `DestroyingRound.first` — the first round begins once the code is loaded.
-/

/-- JUMPDEST, five times PUSH1 0, GAS, PUSH1 2, CALL, POP, PUSH1 0, JUMP. -/
def destroyingCode : Bytes :=
  #[0x5b, 0x60, 0, 0x60, 0, 0x60, 0, 0x60, 0, 0x60, 0, 0x5a, 0x60, 2, 0xf1, 0x50, 0x60, 0, 0x56]

/-- ADDRESS, SELFDESTRUCT. -/
def victimCode : Bytes := #[0x30, 0xff]

variable {L : Type} [Ledger L] {c : Context}

/-! ### Instructions that go through -/

/-- An account that is noted alone is noted among others. -/
theorem Frame.foldl_noted_noted (addresses : Array Address) (a : Address) :
    (noted #[] a).foldl noted addresses = noted addresses a := by
  have single : noted #[] a = #[a] := by simp [noted]
  rw [single, List.foldl_toArray]
  rfl

/-- A frame whose account is registered, with nothing left to it. -/
def Local.destroyed (s : Local L) (items : List Word) (refund : Nat) : Local L where
  frame := { s.frame with
    stack := { s.frame.stack with items }
    gas := { s.frame.gas with refund }
    selfDestructs := Frame.noted s.frame.selfDestructs s.frame.address }
  ledger := Ledger.setBalance s.ledger s.frame.address 0

namespace Effect

variable {s : Local L}

/-- A call that moves no value asks for its child, if it goes to an account that is there. -/
theorem run_call {requested target : Word} {rest : List Word} (hfork : c.fork < .tangerineWhistle)
    (hitems : s.frame.stack.items = requested :: target :: 0 :: 0 :: 0 :: 0 :: 0 :: rest)
    (hthere : Ledger.accountExists s.ledger target.toAddress = true)
    (hgas : requested.toNat ≤ s.frame.gas.remaining)
    (hdepth : s.frame.message.childDepth ≤ c.config.maxCallDepth) :
    (call c .call).run s = .ok
      (.spawn (CallForm.message .call s.frame.message target.toAddress 0 #[] requested.toNat)
        (.call 0 0))
      { s with frame := { s.frame with
          stack := { s.frame.stack with items := rest }
          gas := s.frame.gas.spend requested.toNat } } := by
  have stack : s.frame.stack =
      ⟨requested :: target :: 0 :: 0 :: 0 :: 0 :: 0 :: rest, s.frame.stack.limit⟩ := by
    rw [← hitems]
  have cold : c.fork.accessLists = false := by
    revert hfork
    cases c.fork <;> decide
  have early : ¬ (.tangerineWhistle ≤ c.fork) := Nat.not_le.2 hfork
  have known : targetIsNew c.fork s.ledger target.toAddress 0 = false := by
    have : ¬ (.spuriousDragon ≤ c.fork) := by
      revert hfork
      cases c.fork <;> decide
    rw [targetIsNew, if_neg this, hthere]
    rfl
  -- the operands are taken, gas is set aside, and nothing is charged in between
  let popped (items : List Word) : Local L :=
    { s with frame := { s.frame with stack := { s.frame.stack with items } } }
  let paid : Local L :=
    { popped rest with frame := { (popped rest).frame with gas := s.frame.gas.spend requested.toNat } }
  have pops₂ : (pop2 : Effect L (Word × Word)).run s =
      .ok (requested, target) (popped (0 :: 0 :: 0 :: 0 :: 0 :: rest)) := by
    rw [pop2, run_onStack, stack]
    rfl
  have pops₁ : (pop : Effect L Word).run (popped (0 :: 0 :: 0 :: 0 :: 0 :: rest)) =
      .ok 0 (popped (0 :: 0 :: 0 :: 0 :: rest)) := rfl
  have pops₄ : (pop4 : Effect L (Word × Word × Word × Word)).run (popped (0 :: 0 :: 0 :: 0 :: rest)) =
      .ok (0, 0, 0, 0) (popped rest) := rfl
  have accesses : (accessAccount c.fork target.toAddress Gas.coldAccountSurcharge).run (popped rest) =
      .ok () (popped rest) := by
    rw [accessAccount, if_neg (ne_true_of_eq_false cold)]
    rfl
  have grows : (extendMemory (Word.clampOffset 0) (Word.clampOffset 0)).run (popped rest) =
      .ok () (popped rest) := by
    rw [run_extendMemory, Memory.extend_eq, if_pos (.inl rfl)]
  have reserves : (reserveCallGas c requested 0).run (popped rest) = .ok requested.toNat paid := by
    rw [reserveCallGas, run_frame_bind, Gas.forCall, if_neg early, if_pos hgas]
    exact run_bind_of_ok (run_charge_of_le (s := popped rest) hgas)
  have spawns : (canSpawn c 0).run paid = .ok true paid := by
    rw [canSpawn, run_frame_bind, run_ledger_bind]
    show EStateM.Result.ok (decide _ && _) paid = _
    rw [decide_eq_true (show paid.frame.message.childDepth ≤ _ from hdepth)]
    rfl
  refine (run_bind_of_ok pops₂).trans ?_
  refine (run_bind_of_ok pops₁).trans ?_
  refine (run_bind_of_ok pops₄).trans ?_
  refine (run_bind_of_ok accesses).trans ?_
  refine (run_bind_of_ok grows).trans ?_
  refine (run_bind_of_ok grows).trans ?_
  show EStateM.run (if CallForm.call = CallForm.call ∧
    targetIsNew c.fork s.ledger target.toAddress 0 = true then _ else _) (popped rest) = _
  rw [known, if_neg (show ¬ (CallForm.call = CallForm.call ∧ false = true) from
    fun h => Bool.false_ne_true h.2)]
  refine (run_bind_of_ok reserves).trans ?_
  refine (run_bind_of_ok spawns).trans ?_
  show EStateM.Result.ok (Flow.spawn (CallForm.message .call s.frame.message target.toAddress 0
    (s.frame.memory.read 0 0) requested.toNat) (.call 0 0)) paid = _
  rw [show s.frame.memory.read 0 0 = #[] from Array.eq_empty_of_size_eq_zero (Memory.size_read ..)]

/-- An account that is its own heir is registered, and its balance is gone. -/
theorem run_selfDestruct (below : List Frame) {rest : List Word} (hfork : c.fork < .tangerineWhistle)
    (hstatic : s.frame.isStatic = false)
    (hitems : s.frame.stack.items = s.frame.address.toWord :: rest) :
    ∃ refund, (selfDestruct c below).run s = .ok () (s.destroyed rest refund) := by
  have stack : s.frame.stack = ⟨s.frame.address.toWord :: rest, s.frame.stack.limit⟩ := by
    rw [← hitems]
  have cold : c.fork.accessLists = false := by
    revert hfork
    cases c.fork <;> decide
  -- before Tangerine Whistle no heir is ever charged for as a new account
  have known (balance : Word) :
      beneficiaryIsNew c.fork s.ledger s.frame.address balance = false := by
    have late : ¬ (.spuriousDragon ≤ c.fork) := by
      revert hfork
      cases c.fork <;> decide
    have early : ¬ (.tangerineWhistle ≤ c.fork) := Nat.not_le.2 hfork
    rw [beneficiaryIsNew, if_neg late, if_neg early]
  let popped : Local L :=
    { s with frame := { s.frame with stack := { s.frame.stack with items := rest } } }
  have pops : (popAddress : Effect L Address).run s = .ok s.frame.address popped := by
    have taken : (pop : Effect L Word).run s = .ok s.frame.address.toWord popped := by
      rw [pop, run_onStack, stack]
      rfl
    refine (run_bind_of_ok taken).trans ?_
    show EStateM.Result.ok s.frame.address.toWord.toAddress popped = _
    rw [Address.toAddress_toWord]
  have accesses : (accessAccount c.fork s.frame.address Gas.coldAccount).run popped =
      .ok () popped := by
    rw [accessAccount, if_neg (ne_true_of_eq_false cold)]
    rfl
  -- whether a refund is due depends on the frames below; the loop does not need to know
  have refunds : ∃ refund, (refundDestruction c.fork below).run popped =
      .ok () { popped with
        frame := { popped.frame with gas := { popped.frame.gas with refund } } } := by
    rw [refundDestruction, run_frame_bind]
    dsimp only
    split
    · exact ⟨_, rfl⟩
    · exact ⟨_, rfl⟩
  obtain ⟨refund, refunds⟩ := refunds
  refine ⟨refund, ?_⟩
  -- the instruction, part by part
  rw [selfDestruct, run_requireNonStatic_bind, if_neg (ne_true_of_eq_false hstatic)]
  refine (run_bind_of_ok pops).trans ?_
  refine (run_bind_of_ok accesses).trans ?_
  show EStateM.run (if beneficiaryIsNew c.fork s.ledger s.frame.address
    (Ledger.balance s.ledger s.frame.address) = true then _ else _) popped = _
  rw [known, if_neg Bool.false_ne_true]
  refine (run_bind_of_ok refunds).trans ?_
  show EStateM.run (if s.frame.address ≠ s.frame.address then _ else _) _ = _
  rw [if_neg fun h => h rfl]
  show EStateM.Result.ok () (Local.mk (Frame.registerSelfDestruct _ s.frame.address) _) = _
  rw [Frame.registerSelfDestruct_eq]
  rfl

end Effect

namespace Machine

variable {m : Machine L}

/-! ### The contract -/

section Code

variable (hcode : m.top.program.code = .ofBytes destroyingCode) (hlimit : m.top.stack.limit = 1024)

include hcode hlimit

/-- No value and no memory for the call. -/
theorem passes_zeros (hgas : 16 ≤ m.top.gas.remaining) :
    Passes c m 1 [] 1 11 [0, 0, 0, 0, 0] 16 := by
  -- the code of the frame is the loop's, byte by byte
  have byte (i : Nat) : m.top.program.code.bytes[i]? = destroyingCode[i]? := by
    rw [hcode]
    rfl
  have zero {pc spent : Nat} (items : List Word) (hbyte : destroyingCode[pc]? = some 0x60)
      (hdata : Word.ofBytes (destroyingCode.window (Counter.add pc 1) 1) = 0)
      (hitems : items.length < 1024) (hspent : spent + 3 ≤ 16) :
      Passes c m pc items spent (Counter.add pc 2) (0 :: items) (spent + 3) :=
    .push ((byte pc).trans hbyte) (by rw [hcode]; exact hdata) (by rwa [hlimit])
      (Nat.le_trans hspent hgas) rfl
  have first : Passes c m 1 [] 1 3 [0] 4 := zero [] rfl rfl (by decide) (by decide)
  have second : Passes c m 3 [0] 4 5 [0, 0] 7 := zero [0] rfl rfl (by decide) (by decide)
  have third : Passes c m 5 [0, 0] 7 7 [0, 0, 0] 10 := zero [0, 0] rfl rfl (by decide) (by decide)
  have fourth : Passes c m 7 [0, 0, 0] 10 9 [0, 0, 0, 0] 13 :=
    zero [0, 0, 0] rfl rfl (by decide) (by decide)
  have fifth : Passes c m 9 [0, 0, 0, 0] 13 11 [0, 0, 0, 0, 0] 16 :=
    zero [0, 0, 0, 0] rfl rfl (by decide) (by decide)
  exact (((first.trans second).trans third).trans fourth).trans fifth

/-- The operands of the call, which goes to the account of the gas that is left. -/
theorem passes_to_call (hgas : 21 ≤ m.top.gas.remaining) :
    Passes c m 0 [] 0 14 [2, BitVec.ofNat 256 (m.top.gas.remaining - 18), 0, 0, 0, 0, 0] 21 := by
  have byte (i : Nat) : m.top.program.code.bytes[i]? = destroyingCode[i]? := by
    rw [hcode]
    rfl
  -- the passages between the landings, in a row
  have start : Passes c m 0 [] 0 1 [] 1 := .jumpDest (byte 0) (by omega) rfl
  have zeros := passes_zeros (c := c) hcode hlimit (by omega)
  have target : Passes c m 11 [0, 0, 0, 0, 0] 16 12
      [BitVec.ofNat 256 (m.top.gas.remaining - 18), 0, 0, 0, 0, 0] 18 :=
    .gas (byte 11) (by rw [hlimit]; decide) (by omega) rfl
  have gas : Passes c m 12 [BitVec.ofNat 256 (m.top.gas.remaining - 18), 0, 0, 0, 0, 0] 18 14
      [2, BitVec.ofNat 256 (m.top.gas.remaining - 18), 0, 0, 0, 0, 0] 21 :=
    .push (byte 12) (by rw [hcode]; rfl) (by rw [hlimit]; exact Nat.lt_of_sub_pos (by simp))
      (by omega) rfl
  exact ((start.trans zeros).trans target).trans gas

/-- After the call the next round begins. -/
theorem passes_from_call {w : Word} (hgas : 13 ≤ m.top.gas.remaining) :
    Passes c m 15 [w] 0 0 [] 13 := by
  have byte (i : Nat) : m.top.program.code.bytes[i]? = destroyingCode[i]? := by
    rw [hcode]
    rfl
  have dropped : Passes c m 15 [w] 0 16 [] 2 := .pop (byte 15) (by omega) rfl
  have zero : Passes c m 16 [] 2 18 [0] 5 :=
    .push (byte 16) (by rw [hcode]; rfl) (by rw [hlimit]; decide) (by omega) rfl
  exact (dropped.trans zero).trans (.jump (byte 18) (by rw [hcode]; rfl) (by omega) rfl)

end Code

/-- A call that moves no value puts its child on the stack, if it goes to an account that is there.
    -/
theorem step_call (requested : Word) {target : Word} {pc spent : Nat} (items : List Word) {t : Trace}
    (hfork : c.fork < .tangerineWhistle) (hbyte : m.top.program.code.bytes[pc]? = some 0xf1)
    (hthere : Ledger.accountExists m.ledger target.toAddress = true)
    (hgas : spent + 40 + requested.toNat ≤ m.top.gas.remaining)
    (hdepth : m.top.message.childDepth ≤ c.config.maxCallDepth) :
    ∃ t', (m.placed pc (requested :: target :: 0 :: 0 :: 0 :: 0 :: 0 :: items) spent t).step c =
      .running ((m.placed (Counter.add pc 1) items (spent + 40 + requested.toNat) t').spawn c
        (Effect.CallForm.message .call m.top.message target.toAddress 0 #[] requested.toNat)
        (.call 0 0)) := by
  have static : Instruction.staticGas c.fork .call = 40 := by
    revert hfork
    cases c.fork <;> decide
  have decoded : Instruction.decode c.fork 0xf1 = some .call := by cases c.fork <;> rfl
  let s := m.running.placed pc (requested :: target :: 0 :: 0 :: 0 :: 0 :: 0 :: items)
  -- the call takes its operands, pays, and asks for a child
  have called : (Effect.call c .call).run (s (spent + 40)) = .ok
      (.spawn (Effect.CallForm.message .call m.top.message target.toAddress 0 #[] requested.toNat)
        (.call 0 0)) (m.running.placed pc items (spent + 40 + requested.toNat)) := by
    have left : requested.toNat ≤ m.top.gas.remaining - (spent + 40) := by omega
    refine (Effect.run_call hfork rfl hthere left hdepth).trans ?_
    let done := m.running.placed pc items (spent + 40 + requested.toNat)
    exact congrArg (fun gas => EStateM.Result.ok _ { done with frame := { done.frame with gas } })
      (Meter.spend_spend ..)
  -- with the charge for the instruction in front
  have run : (Local.paidEffect c m.below .call).run (s spent) = .ok
      (.spawn (Effect.CallForm.message .call m.top.message target.toAddress 0 #[] requested.toNat)
        (.call 0 0)) (m.running.placed pc items (spent + 40 + requested.toNat)) := by
    rw [Local.run_paidEffect (s := m.running)
      (by rw [static]; exact Nat.le_trans (Nat.le_add_right _ _) hgas), static]
    exact called
  obtain ⟨t', hturn⟩ := Local.turn_of_run (s := s spent) hbyte decoded run t
  refine ⟨t', ?_⟩
  have turned : (m.placed pc (requested :: target :: 0 :: 0 :: 0 :: 0 :: 0 :: items) spent t).turn c =
      (.waits (Effect.CallForm.message .call m.top.message target.toAddress 0 #[] requested.toNat)
        (.call 0 0), m.running.placed (Counter.add pc 1) items (spent + 40 + requested.toNat), t') :=
    hturn
  rw [step_of_isRunning (.inl rfl), runTop_eq, turned]
  rfl

/-! ### The other accounts -/

/-- The top frame has ended by destroying its account. -/
structure Destroyed (m : Machine L) (spent : Nat) (m' : Machine L) : Prop where
  below : m'.below = m.below
  phase : m'.top.phase = .finalizing
  error : m'.top.error = none
  message : m'.top.message = m.top.message
  snapshot : m'.top.snapshot = m.top.snapshot
  gas : m'.top.gas.remaining = m.top.gas.remaining - spent
  selfDestructs : m'.top.selfDestructs = Frame.noted m.top.selfDestructs m.top.address
  ledger : m'.ledger = Ledger.setBalance m.ledger m.top.address 0

/-- A frame that leaves all it has to itself is at its end. -/
theorem step_selfDestruct {pc spent : Nat} (items : List Word) {t : Trace}
    (hfork : c.fork < .tangerineWhistle) (hstatic : m.top.isStatic = false)
    (hbyte : m.top.program.code.bytes[pc]? = some 0xff) (hgas : spent ≤ m.top.gas.remaining) :
    ∃ m', (m.placed pc (m.top.address.toWord :: items) spent t).step c = .running m' ∧
      m.Destroyed spent m' := by
  have free : Instruction.staticGas c.fork .selfDestruct = 0 := by
    revert hfork
    cases c.fork <;> decide
  have decoded : Instruction.decode c.fork 0xff = some .selfDestruct := by cases c.fork <;> rfl
  let s := m.running.placed pc (m.top.address.toWord :: items) spent
  obtain ⟨refund, ended⟩ := Effect.run_selfDestruct (s := s) m.below hfork hstatic rfl
  have run : (Local.paidEffect c m.below .selfDestruct).run s =
      .ok .halt (s.destroyed items refund) := by
    rw [Local.run_paidEffect (s := m.running) (by rw [free]; exact hgas), free]
    exact Effect.run_bind_of_ok ended
  obtain ⟨t', hturn⟩ := Local.turn_of_run (s := s) hbyte decoded run t
  have turned : (m.placed pc (m.top.address.toWord :: items) spent t).turn c =
      (.halted, s.destroyed items refund, t') := hturn
  refine ⟨(m.landed (s.destroyed items refund) t').withTop
    ((s.destroyed items refund).frame.finish none), ?_, ⟨rfl, rfl, rfl, rfl, rfl, rfl, rfl, rfl⟩⟩
  rw [step_of_isRunning (.inl rfl), runTop_eq, turned]
  rfl

/-! ### Back in the contract -/

/-- The parent has taken in a call that has destroyed its account. -/
structure Outlived (m : Machine L) (parent : Frame) (m' : Machine L) : Prop where
  phase : m'.top.phase = .resuming
  message : m'.top.message = parent.message
  program : m'.top.program = parent.program
  stack : m'.top.stack = { parent.stack with items := 1 :: parent.stack.items }
  gas : m'.top.gas.remaining = min (parent.gas.remaining + (m.top.gas.remaining - 2)) parent.gas.limit
  selfDestructs : m'.top.selfDestructs = Frame.noted parent.selfDestructs m.top.address
  state : Ledger.state m'.ledger = (Ledger.state m.ledger).setBalance m.top.address 0

variable [LawfulLedger L] {parent : Frame} {rest : List Frame}

/-- A call that has not failed is kept when it is popped. -/
theorem finalize_kept {s : Local L} {l : L} (herror : s.frame.error = none)
    (hcall : s.frame.message.isCreate = false)
    (hsnapshot : s.frame.snapshot = some (Ledger.snapshot l).1)
    (hhistory : Ledger.History (Ledger.snapshot l).2 s.ledger) :
    (s.finalize c false).1.isSuccess = true ∧
      Ledger.state (s.finalize c false).2.ledger = Ledger.state s.ledger ∧
      (s.finalize c false).2.frame.gas = s.frame.gas := by
  have deposited : s.deposited c = (none, s) := by
    unfold Local.deposited
    rw [herror]
    exact if_neg (ne_true_of_eq_false hcall)
  obtain ⟨l', -, settled, hstate⟩ := Local.settle_none hsnapshot hhistory
  rw [Local.finalize_eq, deposited]
  dsimp only
  rw [show s.swept false none = s from rfl, settled]
  exact ⟨rfl, hstate, rfl⟩

/-- A call to an account that destroys itself comes back to the contract. -/
theorem steps_of_destruction (hfork : c.fork < .tangerineWhistle) (hfresh : m.IsFresh c)
    (hbelow : m.below = parent :: rest) (hlimit : c.config.stackLimit = 1024)
    (hkind : m.top.message.isCreate = false) (hvalue : m.top.message.value = 0)
    (hstatic : m.top.message.isStatic = false)
    (hlookup : c.precompiles.lookup c.fork m.top.message.codeAddress = none)
    (hcode : Ledger.code m.ledger m.top.message.codeAddress = victimCode)
    (hgas : 2 ≤ m.top.gas.remaining) (hwaits : parent.continuation = some (.call 0 0))
    (hroom : parent.stack.size < parent.stack.limit) :
    ∃ m', Steps c rest.length m m' ∧ m'.below = rest ∧ m.Outlived parent m' := by
  obtain ⟨message, refund, htop⟩ := hfresh
  have stack : m.top.stack = { limit := c.config.stackLimit } := by rw [htop]; rfl
  have low : rest.length ≤ m.below.length := by
    rw [hbelow]
    exact Nat.le_succ _
  obtain ⟨t, begins⟩ := steps_to_coded (c := c) (m := m) (by rw [htop]; rfl) hkind hvalue hlookup
  have code : (m.coded .running t).top.program = .ofBytes victimCode := by
    show Program.ofBytes (Ledger.code (Ledger.snapshot m.ledger).2 _) = _
    rw [show Ledger.code (Ledger.snapshot m.ledger).2 _ = Ledger.code m.ledger _ from
      congrArg (LedgerState.code · _) (LawfulLedger.state_snapshot m.ledger), hcode]
  have byte (i : Nat) : (m.coded .running t).top.program.code.bytes[i]? = victimCode[i]? := by
    rw [code]
    rfl
  -- ADDRESS and SELFDESTRUCT
  have room : ([] : List Word).length < (m.coded .running t).top.stack.limit := by
    show 0 < m.top.stack.limit
    rw [stack]
    exact hlimit ▸ Nat.succ_pos _
  have named : Passes c (m.coded .running t) 0 [] 0 1 [m.top.address.toWord] 2 :=
    .address (byte 0) room hgas rfl
  obtain ⟨t', names⟩ := named t
  rw [show (m.coded .running t).placed 0 [] 0 t = m.coded .running t from
    placed_self rfl (congrArg Program.pc code) (congrArg Stack.items stack)] at names
  obtain ⟨last, ends, done⟩ := step_selfDestruct (c := c) (m := m.coded .running t) (t := t') []
    hfork hstatic (byte 1) hgas
  have lives : Steps c rest.length m last := by
    refine (begins.trans (.tail names ends ?_)).weaken low
    rw [done.below]
    exact Nat.le_refl _
  -- the call is kept, and its parent goes on
  have isRoot : last.isRoot = false := by
    rw [isRoot, done.below]
    exact congrArg List.isEmpty hbelow
  have history : Ledger.History (Ledger.snapshot m.ledger).2 last.ledger := by
    rw [done.ledger]
    exact .op _ (.setBalance m.top.address 0)
  have kept := finalize_kept (c := c) (s := last.toLocal) done.error
    ((congrArg Message.isCreate done.message).trans hkind) done.snapshot history
  rw [← isRoot] at kept
  obtain ⟨success, same, left⟩ := kept
  have pops : last.step c = .running (last.handedTo c parent rest) :=
    step_of_finalizing done.phase (done.below.trans hbelow)
  have takes := Frame.takesIn_resume hwaits hroom (Nat.zero_le _)
    (last.toLocal.finalize c last.isRoot).2.frame.gas (last.toLocal.finalize c last.isRoot).1
  have resumed := parent.resumed_resume (last.toLocal.finalize c last.isRoot).2.frame.gas
    (last.toLocal.finalize c last.isRoot).1
  refine ⟨_, .tail lives pops (Nat.le_refl _), rfl, ?_, resumed.message, resumed.program, ?_, ?_, ?_,
    ?_⟩
  · exact congrArg Frame.phase takes.others
  · obtain ⟨hlimits, hitems⟩ := takes.stack
    rw [success] at hitems
    exact congrArg₂ Stack.mk hitems hlimits
  · rw [(last.handedTo_gas c parent rest).2.1, left]
    show min (parent.gas.remaining + last.top.gas.remaining) _ = _
    rw [done.gas]
    rfl
  · rw [(last.handedTo_records c parent rest).2.2, topResult, if_pos success, done.selfDestructs]
    show Array.foldl Frame.noted parent.selfDestructs (Frame.noted m.top.selfDestructs _) = _
    rw [show m.top.selfDestructs = #[] by rw [htop]; rfl]
    exact Frame.foldl_noted_noted ..
  · show Ledger.state (last.toLocal.finalize c last.isRoot).2.ledger = _
    rw [same]
    show Ledger.state last.ledger = _
    rw [done.ledger, LawfulLedger.state_setBalance]
    exact congrArg (LedgerState.setBalance · m.top.address 0) (LawfulLedger.state_snapshot m.ledger)

/-! ### A whole round -/

/-- The account that a round calls: the gas that is left once it comes to ask for it. -/
def calledIn (m : Machine L) : Address :=
  Word.toAddress (BitVec.ofNat 256 (m.top.gas.remaining - 18))

/-- What a round leaves behind. -/
structure Registered (m m' : Machine L) : Prop where
  phase : m'.top.phase = .running
  message : m'.top.message = m.top.message
  program : m'.top.program = { m.top.program with pc := 0 }
  stack : m'.top.stack = { m.top.stack with items := [] }
  gas : m'.top.gas.remaining + 76 = m.top.gas.remaining
  selfDestructs : m'.top.selfDestructs = Frame.noted m.top.selfDestructs m.calledIn
  state : Ledger.state m'.ledger = (Ledger.state m.ledger).setBalance m.calledIn 0

/-- A frame at the start of a round comes through it if the account that it calls destroys itself.
    -/
theorem steps_of_call (hfork : c.fork < .tangerineWhistle) (hlimit : c.config.stackLimit = 1024)
    (hphase : m.top.phase = .running) (hcode : m.top.program.code = .ofBytes destroyingCode)
    (hpc : m.top.program.pc = 0) (hstack : m.top.stack = {}) (hstatic : m.top.message.isStatic = false)
    (hdepth : m.top.message.childDepth ≤ c.config.maxCallDepth)
    (hlookup : c.precompiles.lookup c.fork m.calledIn = none)
    (hthere : Ledger.accountExists m.ledger m.calledIn = true)
    (hvictim : Ledger.code m.ledger m.calledIn = victimCode) (hgas : 76 ≤ m.top.gas.remaining) :
    ∃ m', Steps c m.below.length m m' ∧ m'.below = m.below ∧ m.Registered m' := by
  -- up to the call, through the child, and back to the start
  have height : m.top.stack.limit = 1024 := congrArg Stack.limit hstack
  obtain ⟨t₁, first⟩ := passes_to_call (c := c) hcode height (by omega) m.trace
  rw [placed_self hphase hpc (congrArg Stack.items hstack)] at first
  obtain ⟨t₂, calls⟩ := step_call (c := c) (t := t₁) 2 [] hfork
    (by rw [hcode]; rfl : m.top.program.code.bytes[14]? = some 0xf1) hthere
    (show 21 + 40 + 2 ≤ _ by omega) hdepth
  let called := (m.placed 15 [] 63 t₂).spawn c
    (Effect.CallForm.message .call m.top.message m.calledIn 0 #[] 2) (.call 0 0)
  have room : ([] : List Word).length < m.top.stack.limit := by
    rw [height]
    exact Nat.succ_pos _
  obtain ⟨x, lives, hbelow, outlived⟩ := steps_of_destruction (c := c) (m := called) hfork
    ⟨_, _, rfl⟩ rfl hlimit rfl rfl hstatic hlookup hvictim (Nat.le_refl 2) rfl room
  -- the child hands back all that it was given, for it spends its two units on the heir only
  have left : x.top.gas.remaining = m.top.gas.remaining - 63 := by
    have most := m.top.gas.remaining_le
    refine outlived.gas.trans ?_
    show min (m.top.gas.remaining - 63 + (2 - 2)) m.top.gas.limit = _
    omega
  have back : Passes c x 15 [1] 0 0 [] 13 := passes_from_call
    ((congrArg Program.code outlived.program).trans hcode)
    ((congrArg Stack.limit outlived.stack).trans height) (by omega)
  obtain ⟨t₃, last⟩ := back.steps (.inr outlived.phase) (congrArg Program.pc outlived.program)
    (congrArg Stack.items outlived.stack) (by decide)
  rw [hbelow] at last
  have asks : Steps c m.below.length m called := .tail first calls (Nat.le_succ _)
  refine ⟨x.placed 0 [] 13 t₃, (asks.trans lives).trans last, hbelow, rfl, outlived.message,
    ?_, ?_, ?_, outlived.selfDestructs, outlived.state⟩
  · show { x.top.program with pc := 0 } = _
    rw [outlived.program]
    rfl
  · show { x.top.stack with items := [] } = _
    rw [outlived.stack]
    rfl
  · show x.top.gas.remaining - 13 + 76 = _
    omega

omit [Ledger L] [LawfulLedger L] in
/-- The gas on the stack is what remains after the seven pushes. -/
theorem toNat_calledIn (m : Machine L) (h : m.top.gas.remaining ≤ Counter.limit) :
    m.calledIn.toNat = m.top.gas.remaining - 18 := by
  have : Counter.limit < 2 ^ 160 := by decide
  rw [calledIn, Word.toAddress, BitVec.toNat_setWidth, BitVec.toNat_ofNat]
  omega

end Machine

/-- The top frame is at the start of a round, after so many of them.  The accounts above its own are
    there and destroy themselves when they are called; those below the gas that is left have not
    been called yet. -/
structure DestroyingRound (c : Context) (gas k : Nat) (m : Machine L) : Prop where
  phase : m.top.phase = .running
  notStatic : m.top.message.isStatic = false
  shallow : m.top.message.childDepth ≤ c.config.maxCallDepth
  program : m.top.program = .ofBytes destroyingCode
  stack : m.top.stack = {}
  paid : m.top.gas.remaining + 76 * k = gas
  victims (a : Address) : 7 < a.toNat →
    Ledger.accountExists m.ledger a = true ∧ Ledger.code m.ledger a = victimCode
  called (a : Address) : a ∈ m.top.selfDestructs → m.top.gas.remaining ≤ a.toNat
  registered : m.top.selfDestructs.toList.toFinset.card = k

namespace DestroyingRound

open Machine

variable [LawfulLedger L] {m : Machine L} {gas k : Nat}

/-- Each round registers one more account. -/
theorem next (hfork : c.fork < .tangerineWhistle) (hlimit : c.config.stackLimit = 1024)
    (hlookup : ∀ a, c.precompiles.lookup c.fork a = none) (h : DestroyingRound c gas k m)
    (hcounter : gas ≤ Counter.limit) (hgas : 76 * k + 102 ≤ gas) :
    ∃ m', Steps c m.below.length m m' ∧ m'.below = m.below ∧ DestroyingRound c gas (k + 1) m' := by
  have paid := h.paid
  have left : 102 ≤ m.top.gas.remaining := by omega
  have target : m.calledIn.toNat = m.top.gas.remaining - 18 := m.toNat_calledIn (by omega)
  obtain ⟨hthere, hvictim⟩ := h.victims m.calledIn (by omega)
  obtain ⟨m', steps, hbelow, done⟩ := steps_of_call hfork hlimit h.phase
    (congrArg Program.code h.program) (congrArg Program.pc h.program) h.stack h.notStatic h.shallow
    (hlookup _) hthere hvictim (by omega)
  have spent := done.gas
  have now : m'.top.gas.remaining + 76 * (k + 1) = gas := by
    rw [Nat.mul_succ, ← Nat.add_assoc]
    omega
  -- the account that is called lies below all that have been
  have new : m.calledIn ∉ m.top.selfDestructs := fun hmem => by
    have := h.called _ hmem
    omega
  refine ⟨m', steps, hbelow, done.phase, ?_, ?_, ?_, ?_, now, fun a ha => ?_, fun a ha => ?_, ?_⟩
  · rw [done.message]
    exact h.notStatic
  · rw [done.message]
    exact h.shallow
  · rw [done.program, h.program]
    rfl
  · rw [done.stack, h.stack]
  · obtain ⟨there, code⟩ := h.victims a ha
    constructor
    · show (Ledger.state m'.ledger).present a = true
      rw [done.state]
      show Function.update (Ledger.state m.ledger).present m.calledIn true a = true
      rw [Function.update_apply]
      split
      · rfl
      · exact there
    · exact (congrArg (LedgerState.code · a) done.state).trans code
  · rw [done.selfDestructs, Frame.mem_noted] at ha
    obtain ha | rfl := ha
    · have := h.called a ha
      omega
    · omega
  · have one : m'.top.selfDestructs.toList.toFinset =
        insert m.calledIn m.top.selfDestructs.toList.toFinset := by
      ext a
      rw [done.selfDestructs]
      simp [Frame.mem_noted, or_comm]
    rw [one, Finset.card_insert_of_notMem (by simpa using new), h.registered]

/-- The first round begins once the code is loaded. -/
theorem first {gas : Nat} (hstatic : m.top.message.isStatic = false)
    (hdepth : m.top.message.childDepth ≤ c.config.maxCallDepth) (hstack : m.top.stack = {})
    (hnone : m.top.selfDestructs = #[]) (hgas : m.top.gas.remaining = gas)
    (hcode : Ledger.code m.ledger m.top.message.codeAddress = destroyingCode)
    (hvictims : ∀ a : Address, 7 < a.toNat →
      Ledger.accountExists m.ledger a = true ∧ Ledger.code m.ledger a = victimCode) (t : Trace) :
    DestroyingRound c gas 0 (m.coded .running t) := by
  have same : Ledger.state (Ledger.snapshot m.ledger).2 = Ledger.state m.ledger :=
    LawfulLedger.state_snapshot m.ledger
  refine ⟨rfl, hstatic, hdepth, ?_, hstack, hgas, fun a ha => ?_, fun a ha => ?_, ?_⟩
  -- the snapshot at the entry changes no answer
  · show Program.ofBytes ((Ledger.state (Ledger.snapshot m.ledger).2).code _) = _
    rw [same]
    exact congrArg Program.ofBytes hcode
  · show (Ledger.state (Ledger.snapshot m.ledger).2).present a = true ∧
      (Ledger.state (Ledger.snapshot m.ledger).2).code a = victimCode
    rw [same]
    exact hvictims a ha
  · change a ∈ m.top.selfDestructs at ha
    rw [hnone] at ha
    exact absurd ha (Array.not_mem_empty a)
  · show m.top.selfDestructs.toList.toFinset.card = 0
    rw [hnone]
    rfl

end DestroyingRound

end Evm
