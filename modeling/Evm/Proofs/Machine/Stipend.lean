import Evm.Proofs.Instruction.Stipend
import Evm.Proofs.Machine.Gas
import Evm.Proofs.Machine.Induction
import Evm.Proofs.Machine.Static

namespace Evm

/-!
# A stipend is safe to give

Whoever sends value lets the recipient run code on the stipend that comes with it.  Except on
Constantinople that code cannot change anything, not even through further calls: what it hands on is
less than it has, and value that moves would cost more.  So no caller need fear that its own storage
is written while a stipend is spent.

* `Frame.IsOnStipend` — a call that was given a stipend at most.
* `Machine.lasting_isOnStipend` — it asks for calls like that only.
* `Machine.tracks_state_of_stipend` — none of them changes an account.
* `stipend_safe` — nothing changes while a stipend is spent.
-/

variable {L : Type} [Ledger L]

/-- A call that was given no more gas than a stipend, and that is to destroy nothing.  Before it is
    prepared, it has no value to move. -/
structure Frame.IsOnStipend (f : Frame) : Prop where
  isCreate : f.message.isCreate = false
  gas : f.gas.limit ≤ Gas.callStipend
  selfDestructs : f.selfDestructs = #[]
  harmless : f.phase = .created → f.message.IsHarmless

namespace Frame.IsOnStipend

variable {f g : Frame}

/-- The stipend reads the message, the gas limit, the registrations and the phase. -/
theorem congr (h : f.IsOnStipend) (hmessage : g.message = f.message)
    (hgas : g.gas.limit = f.gas.limit) (hdestructs : g.selfDestructs = f.selfDestructs)
    (hphase : g.phase = .created → f.phase = .created) : g.IsOnStipend where
  isCreate := hmessage ▸ h.isCreate
  gas := hgas ▸ h.gas
  selfDestructs := hdestructs.trans h.selfDestructs
  harmless hcreated := hmessage ▸ h.harmless (hphase hcreated)

/-- A frame on the stipend never has more than the stipend. -/
theorem remaining_le (h : f.IsOnStipend) : f.gas.remaining ≤ Gas.callStipend :=
  Nat.le_trans f.gas.remaining_le h.gas

end Frame.IsOnStipend

namespace Machine

variable {c : Context} {m m' last x : Machine L}

/-! ### What such a frame does -/

section Turns

variable (hfork : .tangerineWhistle ≤ c.fork) (hother : c.fork ≠ .constantinople)

include hfork hother

/-- What a turn of such a frame changes, and what it hands to a child. -/
theorem turn_of_stipend {o : Outcome} {s : Local L} {t : Trace} (h : m.turn c = (o, s, t))
    (hm : m.top.IsOnStipend) :
    m.running.Faint s ∧ ∀ message k, o = .waits message k → message.IsEndowed :=
  Local.turn_of_stipend hfork hother hm.remaining_le h

/-- The child that it asks for has no value to move: with value it would be given more than the
    frame has left. -/
theorem child_of_stipend {message : Message} {k : Continuation} {s : Local L} {t : Trace}
    (h : m.turn c = (.waits message k, s, t)) (hm : m.top.IsOnStipend) (refund : Nat) :
    (Frame.ofMessage message refund c.config.stackLimit).IsOnStipend := by
  have hendowed := (turn_of_stipend hfork hother h hm).2 message k rfl
  have hpaid := (turn_gas h).2
  have hleft := hm.remaining_le
  -- the unit of gas for the call leaves less than the stipend
  have hless : message.gasLimit < Gas.callStipend := by
    change _ + (message.gasLimit + 1) ≤ _ at hpaid
    omega
  have hvalue : message.kind.transfersValue = true → message.value = 0 := by
    -- a child that is sent a value is given the stipend on top, which is more than there was
    intro hkind
    by_contra hmoves
    have htop := hendowed.stipend hkind hmoves
    omega
  exact ⟨hendowed.isCreate, Nat.le_of_lt hless, rfl,
    fun _ => ⟨hendowed.isCreate, fun hkind => .inl (hvalue hkind)⟩⟩

/-- All that runs on top of such a frame is like that. -/
theorem lasting_isOnStipend : Lasting L c Frame.IsOnStipend where
  prepare {m} hphase hm := by
    obtain ⟨hmessage, -, hdestructs⟩ := m.prepare_records c
    exact hm.congr hmessage (congrArg Meter.limit (m.prepare_gas c)) hdestructs fun _ => hphase
  enter {m} hm := by
    obtain ⟨hmessage, -, hdestructs, -⟩ := m.enter_records c
    have hentered : (m.enter c).top.phase ≠ .created := by
      unfold enter
      split <;> nofun
    exact hm.congr hmessage (m.enter_gas c).1 hdestructs fun hphase => absurd hphase hentered
  turn h hm := by
    have hphase := turn_phase h
    have hfaint := (turn_of_stipend hfork hother h hm).1
    refine hm.congr (turn_message h) (turn_gas h).1 hfaint.selfDestructs fun hcreated => ?_
    -- a frame that has run is past its preparation
    rw [hphase] at hcreated
    cases hcreated
  finish _ hf := hf.congr rfl rfl rfl nofun
  suspend _ hf := hf.congr rfl rfl rfl nofun
  child h hm refund := child_of_stipend hfork hother h hm refund
  resume {m parent below} hm hparent := by
    obtain ⟨hmessage, -, hdestructs⟩ := m.handedTo_records c parent below
    refine hparent.congr hmessage (m.handedTo_gas c parent below).1 ?_ fun hcreated => ?_
    · rw [hdestructs, hm.selfDestructs]
      exact ite_self _
    · rcases m.handedTo_phase c parent below with hphase | hphase
      · exact absurd (hphase.symm.trans hcreated) nofun
      · exact absurd (hphase.symm.trans hcreated) nofun

variable [LawfulLedger L]

/-- No step of such a frame and no end of one changes an account. -/
theorem tracks_state_of_stipend : Tracks c (fun m : Machine L => m.top.IsOnStipend)
    fun m m' => Ledger.state m'.ledger = Ledger.state m.ledger where
  refl _ := rfl
  trans h k := k.trans h
  step {m m'} hm hstep hstays := by
    obtain ⟨hphase, hledger⟩ | hsame | ⟨o, s, t, hturn, hledger⟩ := hstep.ledger_cases hstays
    · rw [hledger]
      exact m.toLocal.state_attempt_prepare c (hm.harmless hphase)
    · rw [hsame]
    · rw [hledger]
      exact (turn_of_stipend hfork hother hturn hm).1.ledger.state
  popped hm hpopped hcourse := hpopped.state_of_call hm.isCreate hcourse

end Turns

/-! ### Executions -/

variable {l : L} {message : Message} {observer : Observer}

/-- A frame that has been prepared has its gas, and has noted nothing. -/
theorem Visited.prepared (h : Visited c l message observer m) (hphase : m.top.phase = .prepared) :
    m.top.gas.limit = m.top.message.gasLimit ∧ m.top.selfDestructs = #[] := by
  obtain ⟨hdepth, hsteps⟩ := h
  cases hsteps with
  | refl => cases hphase
  -- the step before was the preparation, from a frame as it was made
  | @tail before _ hbefore hstep _ =>
    cases step_cases hstep with
    | prepares hcreated =>
      obtain ⟨message, refund, htop⟩ := Visited.isFresh ⟨hdepth, hbefore⟩ hcreated
      obtain ⟨hmessage, -, hdestructs⟩ := before.prepare_records c
      rw [hmessage, hdestructs, before.prepare_gas c, htop]
      exact ⟨rfl, rfl⟩
    | enters _ =>
      unfold enter at hphase
      split at hphase <;> cases hphase
    | continues _ hturn => exact absurd ((turn_phase hturn).symm.trans hphase) nofun
    | ends _ _ _ => cases hphase
    | spawns _ _ => cases hphase
    | @pops parent below _ _ =>
      rcases before.handedTo_phase c parent below with hresuming | hended
      · exact absurd (hresuming.symm.trans hphase) nofun
      · exact absurd (hended.symm.trans hphase) nofun

/-- A call that was given no more than the stipend is on it once it is prepared. -/
theorem Visited.isOnStipend (h : Visited c l message observer m) (hphase : m.top.phase = .prepared)
    (call : m.top.message.isCreate = false) (hgas : m.top.message.gasLimit ≤ Gas.callStipend) :
    m.top.IsOnStipend := by
  obtain ⟨hlimit, hdestructs⟩ := h.prepared hphase
  exact ⟨call, hlimit ▸ hgas, hdestructs, fun hcreated => absurd (hphase.symm.trans hcreated) nofun⟩

end Machine

open Machine in
/-- Ledgers on which, with the rules of the context, nothing changes while a stipend is spent. -/
structure StipendSafe (L : Type) [Ledger L] (c : Context) : Prop where
  /-- From the end of its preparation on, and as long as the frame stays on the stack, all accounts
      and slots are as they were. -/
  state {l : L} {message : Message} {observer : Observer} {m x : Machine L} :
    Visited c l message observer m → m.top.phase = .prepared → m.top.message.isCreate = false →
      m.top.message.gasLimit ≤ Gas.callStipend → Steps c m.below.length m x →
      Ledger.state x.ledger = Ledger.state m.ledger
  /-- No frame registers an account for destruction meanwhile. -/
  selfDestructs {l : L} {message : Message} {observer : Observer} {m x : Machine L} :
    Visited c l message observer m → m.top.phase = .prepared → m.top.message.isCreate = false →
      m.top.message.gasLimit ≤ Gas.callStipend → Steps c m.below.length m x →
      x.top.selfDestructs = #[]

/-- All of it together, over every lawful ledger. -/
theorem stipendSafe_of_lawful [LawfulLedger L] {c : Context} (hfork : .tangerineWhistle ≤ c.fork)
    (hother : c.fork ≠ .constantinople) : StipendSafe L c where
  state {l message observer m x} hm hphase call hgas hsteps := by
    have hlasting : Machine.Lasting L c Frame.IsOnStipend :=
      Machine.lasting_isOnStipend hfork hother
    have hstart := hm.isOnStipend hphase call hgas
    exact hsteps.tracks (Machine.tracks_state_of_stipend hfork hother) fun y hy =>
      hy.lasts hlasting hstart
  selfDestructs hm hphase call hgas hsteps := by
    have hstart := hm.isOnStipend hphase call hgas
    exact (hsteps.lasts (Machine.lasting_isOnStipend hfork hother) hstart).selfDestructs

/-- From Tangerine Whistle on, except on Constantinople, a stipend is safe to give, on both ledgers
    and whatever world lies below. -/
theorem stipend_safe (c : Context) (hfork : .tangerineWhistle ≤ c.fork)
    (hother : c.fork ≠ .constantinople) :
    (∀ (S : Type) [WorldSource S], StipendSafe (JournaledLedger S) c) ∧
      StipendSafe SnapshotLedger c :=
  ⟨fun _ _ => stipendSafe_of_lawful hfork hother, stipendSafe_of_lawful hfork hother⟩

/-- A contract sends a coin to another one and hands no gas on, so that the recipient has the
    stipend alone.  It tries to write a slot, which fails after four more steps: the coin has
    arrived, and nothing else has changed. -/
theorem stipend_safe_on_write :
    let c : Context := { config := { fork := .istanbul }, precompiles := .none }
    let l := SnapshotLedger.ofWorld (World.setCode (World.setBalance
      (World.setCode {} 7 #[0x60, 0, 0x60, 0, 0x60, 0, 0x60, 0, 0x60, 1, 0x60, 8, 0x60, 0, 0xf1])
      7 1) 8 #[0x60, 1, 0x60, 0, 0x55])
    let m := (Machine.launch c l (.call 1 7 0 #[] 200000) .off).after c 11
    let x := m.after c 4
    m.top.message.gasLimit = Gas.callStipend ∧ x.top.error = some .outOfGas ∧
      Ledger.balance x.ledger 8 = 1 ∧ Ledger.state x.ledger = Ledger.state m.ledger ∧
      x.top.selfDestructs = #[] := by
  intro c l m x
  have visited : Machine.Visited c l (.call 1 7 0 #[] 200000) .off m :=
    Machine.Visited.iff_after.2 ⟨Nat.zero_le _, 11, rfl⟩
  have prepared : m.top.phase = .prepared := by decide +kernel
  have call : m.top.message.isCreate = false := by decide +kernel
  have given : m.top.message.gasLimit = Gas.callStipend := by decide +kernel
  have steps : Machine.Steps c m.below.length m x := Machine.steps_after 4 m (by decide +kernel)
  have safe := (stipend_safe c (by decide) (by decide)).2
  exact ⟨given, by decide +kernel, by decide +kernel,
    safe.state visited prepared call (Nat.le_of_eq given) steps,
    safe.selfDestructs visited prepared call (Nat.le_of_eq given) steps⟩

end Evm
