import Evm.Proofs.Instruction.Agreement
import Evm.Proofs.Machine.Execution
import Evm.Proofs.Machine.Stages

namespace Evm

/-!
# Code that is known

How the top frame moves through code that is known byte by byte, as long as it has the gas.  What is
said of one instruction is put together to passages, and a passage that comes back to where it began
can be repeated.

* `Local.placed` — a frame elsewhere in its code, with other words on its stack.
* `Machine.Passes` — the top frame comes from one place of its code to another one.
* `Machine.Passes.jumpDest`, `Machine.Passes.push`, `Machine.Passes.jump` and their kin — single
  instructions.
* `Machine.steps_to_coded` — a call comes to run its code.
* `Machine.steps_of_rounds` — rounds of a loop, one after another.
-/

/-! ### Places -/

namespace Local

variable {L : Type}

/-- The frame at a position of its code, with these words on its stack, after so much more gas is
    spent. -/
def placed (s : Local L) (pc : Nat) (items : List Word) (spent : Nat) : Local L :=
  { s with
    frame := { s.frame with
      program := { s.frame.program with pc }
      stack := { s.frame.stack with items }
      gas := s.frame.gas.spend spent } }

variable {s : Local L} {pc spent : Nat} {items : List Word}

/-- A frame is at its own place. -/
theorem placed_self (hpc : s.frame.program.pc = pc) (hitems : s.frame.stack.items = items) :
    s.placed pc items 0 = s := by
  subst hpc hitems
  rfl

/-- Moving on by some bytes changes the place only. -/
theorem advance_placed (s : Local L) (pc n : Nat) (items : List Word) (spent : Nat) :
    (s.placed pc items spent).advance n = s.placed (Counter.add pc n) items spent := rfl

variable [Ledger L] {c : Context} {below : List Frame} {b : UInt8} {i : Instruction} {flow : Flow}
  {t : Local L}

/-- A turn runs the instruction of the next byte, if that is all that there is to be paid before. -/
theorem turn_of_run (hbyte : s.frame.program.current = some b)
    (hdecode : Instruction.decode c.fork b = some i)
    (hrun : (paidEffect c below i).run s = .ok flow t) (trace : Trace) :
    ∃ trace', s.turn c below trace = ((t.follow i flow).1, (t.follow i flow).2, trace') := by
  unfold turn
  rw [hbyte]
  dsimp only
  rw [hdecode]
  dsimp only
  unfold runInstruction
  dsimp only
  rw [hrun]
  exact ⟨_, rfl⟩

/-- The fixed price of an instruction is paid first. -/
theorem run_paidEffect (hgas : spent + i.staticGas c.fork ≤ s.frame.gas.remaining) :
    (paidEffect c below i).run (s.placed pc items spent) =
      (Effect.ofInstruction c below i).run (s.placed pc items (spent + i.staticGas c.fork)) := by
  rw [paidEffect, Effect.run_bind, Effect.run_charge,
    show (s.placed pc items spent).frame.gas.consume _ = _ from Meter.consume_spend hgas]
  rfl

end Local

namespace Machine

variable {L : Type}

/-- The machine with its top frame running elsewhere in its code. -/
def placed (m : Machine L) (pc : Nat) (items : List Word) (spent : Nat) (t : Trace) : Machine L :=
  m.landed (m.running.placed pc items spent) t

/-- A machine whose top frame runs is at its own place. -/
theorem placed_self {m : Machine L} {pc : Nat} {items : List Word} (hphase : m.top.phase = .running)
    (hpc : m.top.program.pc = pc) (hitems : m.top.stack.items = items) :
    m.placed pc items 0 m.trace = m := by
  have runs : m.running = m.toLocal := by
    rw [running, ← hphase]
    rfl
  rw [placed, runs, Local.placed_self (s := m.toLocal) hpc hitems]
  rfl

variable [Ledger L] {c : Context} {m m' : Machine L} {pc pc' pc'' spent spent' spent'' : Nat}
  {items items' items'' : List Word}

/-- A turn after which the frame goes on is a step. -/
theorem step_of_turn (hphase : m.IsRunning) {s : Local L} {t : Trace}
    (hturn : m.turn c = (.continues, s, t)) : m.step c = .running (m.landed s t) := by
  rw [step_of_isRunning hphase, runTop_eq, hturn]

/-- The top frame comes from one place of its code to another one, whatever an observer sees of it.
    -/
def Passes (c : Context) (m : Machine L) (pc : Nat) (items : List Word) (spent pc' : Nat)
    (items' : List Word) (spent' : Nat) : Prop :=
  ∀ t, ∃ t', Steps c m.below.length (m.placed pc items spent t) (m.placed pc' items' spent' t')

namespace Passes

/-- Two passages in a row. -/
theorem trans (h : Passes c m pc items spent pc' items' spent')
    (k : Passes c m pc' items' spent' pc'' items'' spent'') :
    Passes c m pc items spent pc'' items'' spent'' := by
  intro t
  obtain ⟨t', hsteps⟩ := h t
  obtain ⟨t'', ksteps⟩ := k t'
  exact ⟨t'', hsteps.trans ksteps⟩

/-- A frame that goes on after a child passes as one that has been running all along. -/
theorem steps (h : Passes c m pc items 0 pc' items' spent) (hrun : m.IsRunning)
    (hpc : m.top.program.pc = pc) (hitems : m.top.stack.items = items) (hmoves : pc ≠ pc') :
    ∃ t, Steps c m.below.length m (m.placed pc' items' spent t) := by
  obtain ⟨t, steps⟩ := h m.trace
  -- where the passage starts, the frame is as the machine has it
  have same : m.running.placed pc items 0 = m.running := Local.placed_self (s := m.running) hpc hitems
  have first : (m.placed pc items 0 m.trace).step c = m.step c := by
    rw [step_of_isRunning hrun, step_of_isRunning (.inl rfl), placed, same]
    rfl
  obtain heq | ⟨m₁, hstep, hfloor, hrest⟩ := steps.cases_head
  · exact absurd (congrArg (·.top.program.pc) heq).symm hmoves
  · exact ⟨t, .trans (.tail (.refl m) (first ▸ hstep) hfloor) hrest⟩

section Instructions

variable {b : UInt8} {i : Instruction}
  (hbyte : m.top.program.code.bytes[pc]? = some b)
  (hdecode : Instruction.decode c.fork b = some i)
  (hgas : spent + i.staticGas c.fork ≤ m.top.gas.remaining)

include hbyte hdecode hgas

/-- An instruction that can be paid for and goes through. -/
theorem of_run (flow : Flow) {s : Local L}
    (hrun : (Effect.ofInstruction c m.below i).run
      (m.running.placed pc items (spent + i.staticGas c.fork)) = .ok flow s)
    (hflow : s.follow i flow = (.continues, m.running.placed pc' items' spent')) :
    Passes c m pc items spent pc' items' spent' := by
  intro t
  have paid := (Local.run_paidEffect (s := m.running) hgas).trans hrun
  obtain ⟨t', hturn⟩ := Local.turn_of_run (s := m.running.placed pc items spent) hbyte hdecode paid t
  rw [hflow] at hturn
  have step : (m.placed pc items spent t).step c = .running (m.placed pc' items' spent' t') :=
    step_of_turn (.inl rfl) hturn
  exact ⟨t', .tail (.refl _) step (Nat.le_refl _)⟩

/-- An instruction that does no more than put a word on the stack. -/
theorem of_push {w : Word}
    (hrun : (Effect.ofInstruction c m.below i).run
        (m.running.placed pc items (spent + i.staticGas c.fork)) =
      (do Effect.push w; return .next : Effect L Flow).run
        (m.running.placed pc items (spent + i.staticGas c.fork)))
    (hroom : items.length < m.top.stack.limit) (hpc : Counter.add pc (1 + i.immediateSize) = pc') :
    Passes c m pc items spent pc' (w :: items) (spent + i.staticGas c.fork) := by
  have room : (m.running.placed pc items (spent + i.staticGas c.fork)).frame.stack.push w =
      .ok { m.top.stack with items := w :: items } := if_pos hroom
  refine of_run hbyte hdecode hgas .next
    (s := m.running.placed pc (w :: items) (spent + i.staticGas c.fork)) ?_ ?_
  · rw [hrun, Effect.run_bind, Effect.push, Effect.run_updateStack, room]
    rfl
  · show (Outcome.continues, Local.advance _ _) = _
    rw [Local.advance_placed, hpc]

end Instructions

/-! ### Single instructions -/

variable {w : Word}

/-- A jump destination is stepped over. -/
theorem jumpDest (hbyte : m.top.program.code.bytes[pc]? = some 0x5b)
    (hgas : spent + 1 ≤ m.top.gas.remaining) (hpc : Counter.add pc 1 = pc') :
    Passes c m pc items spent pc' items (spent + 1) := by
  have decoded : Instruction.decode c.fork 0x5b = some .jumpDest := by cases c.fork <;> rfl
  refine of_run hbyte decoded hgas .next rfl ?_
  show (Outcome.continues, Local.advance _ 1) = _
  rw [Local.advance_placed, hpc]
  rfl

/-- PUSH with one byte of data. -/
theorem push (hbyte : m.top.program.code.bytes[pc]? = some 0x60)
    (hdata : Word.ofBytes (m.top.program.code.bytes.window (Counter.add pc 1) 1) = w)
    (hroom : items.length < m.top.stack.limit) (hgas : spent + 3 ≤ m.top.gas.remaining)
    (hpc : Counter.add pc 2 = pc') : Passes c m pc items spent pc' (w :: items) (spent + 3) := by
  have decoded : Instruction.decode c.fork 0x60 = some (.push 1) := by cases c.fork <;> rfl
  refine of_push (i := .push 1) hbyte decoded hgas ?_ hroom hpc
  show (Effect.pushImmediate 1 >>= fun _ => pure .next : Effect L Flow).run _ = _
  rw [Effect.run_bind, Effect.run_bind, Effect.pushImmediate, Effect.run_frame_bind, ← hdata]
  rfl

/-- GAS puts what is left once its own price is paid. -/
theorem gas (hbyte : m.top.program.code.bytes[pc]? = some 0x5a)
    (hroom : items.length < m.top.stack.limit) (hgas : spent + 2 ≤ m.top.gas.remaining)
    (hpc : Counter.add pc 1 = pc') :
    Passes c m pc items spent pc'
      (BitVec.ofNat 256 (m.top.gas.remaining - (spent + 2)) :: items) (spent + 2) := by
  have decoded : Instruction.decode c.fork 0x5a = some .gas := by cases c.fork <;> rfl
  exact of_push (i := .gas) hbyte decoded hgas rfl hroom hpc

/-- ADDRESS puts the account of the frame. -/
theorem address (hbyte : m.top.program.code.bytes[pc]? = some 0x30)
    (hroom : items.length < m.top.stack.limit) (hgas : spent + 2 ≤ m.top.gas.remaining)
    (hpc : Counter.add pc 1 = pc') :
    Passes c m pc items spent pc' (m.top.address.toWord :: items) (spent + 2) := by
  have decoded : Instruction.decode c.fork 0x30 = some .address := by cases c.fork <;> rfl
  exact of_push (i := .address) hbyte decoded hgas rfl hroom hpc

/-- The top of the stack is dropped. -/
theorem pop (hbyte : m.top.program.code.bytes[pc]? = some 0x50)
    (hgas : spent + 2 ≤ m.top.gas.remaining) (hpc : Counter.add pc 1 = pc') :
    Passes c m pc (w :: items) spent pc' items (spent + 2) := by
  have decoded : Instruction.decode c.fork 0x50 = some .pop := by cases c.fork <;> rfl
  refine of_run hbyte decoded hgas .next
    (s := m.running.placed pc items (spent + 2)) rfl ?_
  show (Outcome.continues, Local.advance _ 1) = _
  rw [Local.advance_placed, hpc]

/-- JUMP goes to a target of the code. -/
theorem jump (hbyte : m.top.program.code.bytes[pc]? = some 0x56)
    (htarget : m.top.program.code.isJumpTarget (min w.toNat Counter.limit) = true)
    (hgas : spent + 8 ≤ m.top.gas.remaining) (hpc : min w.toNat Counter.limit = pc') :
    Passes c m pc (w :: items) spent pc' items (spent + 8) := by
  have decoded : Instruction.decode c.fork 0x56 = some .jump := by cases c.fork <;> rfl
  subst hpc
  have jumped : (m.running.placed pc items (spent + 8)).frame.program.jump (min w.toNat Counter.limit) =
      .ok { m.top.program with pc := min w.toNat Counter.limit } := if_pos htarget
  refine of_run hbyte decoded hgas .jumped
    (s := m.running.placed (min w.toNat Counter.limit) items (spent + 8)) ?_ rfl
  show (Effect.pop >>= Effect.jumpTo : Effect L Flow).run _ = _
  rw [Effect.run_bind, Effect.pop, Effect.run_onStack]
  show (Effect.jumpTo w).run (m.running.placed pc items (spent + 8)) = _
  rw [Effect.jumpTo, Effect.run_frame_bind, jumped]
  rfl

end Passes

/-! ### Starts -/

/-- The machine in some phase of a called frame that has its code. -/
def coded (m : Machine L) (phase : Phase) (t : Trace) : Machine L :=
  { m with
    top := { m.top with
      program := .ofBytes (Ledger.code (Ledger.snapshot m.ledger).2 m.top.message.codeAddress)
      snapshot := some (Ledger.snapshot m.ledger).1
      phase }
    ledger := (Ledger.snapshot m.ledger).2
    trace := t }

/-- A call that moves no value comes to run its code, if the contract is not precompiled. -/
theorem steps_to_coded [StandardLedger L] (hphase : m.top.phase = .created)
    (hcall : m.top.message.isCreate = false) (hvalue : m.top.message.value = 0)
    (hlookup : c.precompiles.lookup c.fork m.top.message.codeAddress = none) :
    ∃ t, Steps c m.below.length m (m.coded .running t) := by
  have notCreate : ¬ m.top.message.isCreate = true := ne_true_of_eq_false hcall
  have moved : (m.toLocal.opened m.ledger).moved = .ok (m.toLocal.opened m.ledger) := by
    unfold Local.moved
    -- nothing is moved without a value
    dsimp only
    split
    · have nothing : (m.toLocal.opened m.ledger).frame.message.value = 0 := hvalue
      rw [Ledger.transfer_eq, if_pos nothing]
      rfl
    · rfl
  have loaded : (m.toLocal.opened m.ledger).loaded c = (m.coded .created m.trace).toLocal := by
    have notCompiled : c.precompiles.contains c.fork m.top.message.codeAddress = false := by
      rw [PrecompileSet.contains, hlookup]
      rfl
    unfold coded
    -- the phase is named, for the definition leaves it open
    rw [← hphase]
    exact if_neg (ne_true_of_eq_false notCompiled)
  have attempted : m.toLocal.attempt (Effect.prepare c) =
      (none, (m.coded .created m.trace).toLocal) := by
    have prepared : (Effect.prepare c).run m.toLocal =
        .ok () (m.coded .created m.trace).toLocal := by
      rw [Effect.run_prepare]
      refine (if_neg notCreate).trans ?_
      rw [Effect.run_prepareCall, ← loaded]
      dsimp only
      rw [show m.toLocal.ledger = m.ledger from rfl, moved]
    rw [Local.attempt, prepared]
  have prepares : ∃ t, m.step c = .running (m.coded .prepared t) := by
    refine ⟨(m.prepare c).trace, ?_⟩
    unfold step prepare
    rw [hphase, attempted]
    rfl
  obtain ⟨t, prepares⟩ := prepares
  have enters : (m.coded .prepared t).step c = .running (m.coded .running t) := by
    have called : (m.coded .prepared t).calledPrecompile c = none :=
      (if_neg notCreate).trans hlookup
    -- no precompile answers, so the code runs
    show Progress.running ((m.coded .prepared t).enter c) = _
    rw [enter, called]
    rfl
  exact ⟨t, .tail (.tail (.refl m) prepares (Nat.le_refl _)) enters (Nat.le_refl _)⟩

/-- Where accesses are free, so does the call that is executed. -/
theorem steps_to_coded_of_launch [StandardLedger L] (l : L) {message : Message} (observer : Observer)
    (hfork : c.fork.accessLists = false) (hkind : message.kind = .call) (hvalue : message.value = 0)
    (hlookup : c.precompiles.lookup c.fork message.codeAddress = none) :
    ∃ t, Steps c 0 (launch c l message observer)
      ((start c l { toObserver := observer } message).coded .running t) := by
  have resolved : message.resolve l = message := by
    unfold Message.resolve
    rw [hkind]
  -- the forks of the loop know no access list
  have cold : prewarmed c message = [] := if_neg (ne_true_of_eq_false hfork)
  have launched : launch c l message observer = start c l { toObserver := observer } message := by
    unfold launch
    dsimp only
    rw [resolved, cold]
    rfl
  have notCreate : message.isCreate = false := by
    rw [Message.isCreate, hkind]
    rfl
  rw [launched]
  exact steps_to_coded (m := start c l { toObserver := observer } message) rfl notCreate hvalue hlookup

/-! ### Rounds -/

/-- A loop goes as many rounds as each of them leads to where the next one begins. -/
theorem steps_of_rounds {floor n : Nat} {I : Nat → Machine L → Prop}
    (round : ∀ k x, k < n → I k x → ∃ y, Steps c floor x y ∧ I (k + 1) y) (hstart : I 0 m) :
    ∃ y, Steps c floor m y ∧ I n y := by
  induction n with
  | zero => exact ⟨m, .refl m, hstart⟩
  | succ n ih =>
    obtain ⟨x, hsteps, hx⟩ := ih fun k x hk => round k x (Nat.lt_succ_of_lt hk)
    obtain ⟨y, hround, hy⟩ := round n x (Nat.lt_succ_self n) hx
    exact ⟨y, hsteps.trans hround, hy⟩

end Machine

end Evm
