import Evm.Proofs.Machine.Ether
import Evm.Proofs.Machine.Results
import Evm.Proofs.Machine.Snapshots

namespace Evm

/-!
# Frames that cannot be prepared

A frame is barred if its creator has no nonce left, if its target is in use, or if its value cannot
move.  It ends before any of its code has run, and leaves the accounts as they were.  What becomes
of its gas depends on what bars it: a creator without a nonce and a sender that is short have all of
it back, while a target that is in use or could not hold the value costs all of it.

* `Message.bar` — what keeps a frame from being prepared, if anything does.
* `Local.attempt_prepare_bar` — nothing else does.
* `Local.finalize_of_error` — the result of a frame that has failed.
* `BarredFrames` — what becomes of barred frames.
* `barred_frames` — on both ledgers that becomes of them.
-/

namespace Message

/-- What keeps the value of a message from moving between such balances. -/
def paymentBar (m : Message) (balance : Address → Word) : Option VmError :=
  if m.kind.transfersValue = false ∨ m.value = 0 then none
  else if balance m.sender < m.value then
    some (.insufficientBalance m.value (balance m.sender))
  else if m.sender = m.recipient then none
  else if 2 ^ 256 ≤ (balance m.recipient).toNat + m.value.toNat then
    some (.state (.balanceOverflow m.recipient))
  else none

/-- What keeps the frame of a message from being prepared. -/
def bar {L : Type} [Ledger L] (c : Context) (m : Message) (l : L) : Option VmError :=
  if m.isCreate then
    if Counter.limit ≤ Ledger.nonce l m.sender then some (.nonceOverflow m.sender)
    else if Ledger.isOccupied (Ledger.snapshot (m.entered c l)).2 m.recipient then
      some (.addressCollision m.recipient)
    else m.paymentBar (Ledger.balance l)
  else m.paymentBar (Ledger.balance l)

/-- What bars a frame and leaves it its gas. -/
inductive Spared (m : Message) : VmError → Prop where
  | unnumbered : m.isCreate = true → Spared m (.nonceOverflow m.sender)
  | short (available : Word) : available < m.value →
      Spared m (.insufficientBalance m.value available)

/-- What bars a frame and costs all its gas. -/
inductive Forfeited (m : Message) : VmError → Prop where
  | occupied : m.isCreate = true → Forfeited m (.addressCollision m.recipient)
  /-- The recipient could not hold the sum. -/
  | full : m.value ≠ 0 → Forfeited m (.state (.balanceOverflow m.recipient))

variable {m : Message} {e : VmError}

/-- An error that spares a frame hands its gas back. -/
theorem Spared.consumesAllGas (h : m.Spared e) : e.consumesAllGas = false := by
  cases h <;> rfl

/-- An error that forfeits takes all of it. -/
theorem Forfeited.consumesAllGas (h : m.Forfeited e) : e.consumesAllGas = true := by
  cases h <;> rfl

/-- What bars a payment spares the frame, except for the balance that overflows. -/
theorem paymentBar_cases {balance : Address → Word} (h : m.paymentBar balance = some e) :
    m.Spared e ∨ m.Forfeited e := by
  unfold paymentBar at h
  split at h
  · cases h
  · rename_i hmoves
    split at h
    · rename_i hshort
      cases h
      exact .inl (.short _ hshort)
    · split at h
      · cases h
      · split at h
        · cases h
          exact .inr (.full fun hzero => hmoves (.inr hzero))
        · cases h

/-- Where nothing keeps the value from moving, the sender holds it. -/
theorem le_of_paymentBar {balance : Address → Word} (h : m.paymentBar balance = none)
    (hkind : m.kind.transfersValue = true) : m.value ≤ balance m.sender := by
  unfold paymentBar at h
  split at h
  · rename_i hstill
    rcases hstill with hkeeps | hzero
    · cases hkeeps.symm.trans hkind
    · rw [hzero]
      exact BitVec.le_def.2 (Nat.zero_le _)
  · split at h
    · cases h
    · rename_i hcovered
      exact BitVec.not_lt.1 hcovered

/-- What bars a frame either spares it or forfeits its gas. -/
theorem bar_cases {L : Type} [Ledger L] {c : Context} {l : L} (h : m.bar c l = some e) :
    m.Spared e ∨ m.Forfeited e := by
  unfold bar at h
  split at h
  · rename_i hcreate
    split at h
    · cases h
      exact .inl (.unnumbered hcreate)
    · split at h
      · cases h
        exact .inr (.occupied hcreate)
      · exact paymentBar_cases h
  · exact paymentBar_cases h

/-- Nothing that bars a frame is a rollback. -/
theorem ne_revert_of_bar {L : Type} [Ledger L] {c : Context} {l : L} (h : m.bar c l = some e) :
    e ≠ .revert := by
  rcases bar_cases h with hspared | hforfeited
  · cases hspared <;> nofun
  · cases hforfeited <;> nofun

end Message

variable {L : Type} [Ledger L]

/-! ### Preparing -/

namespace Local

variable {s t : Local L}

/-- Value moves unless it is barred. -/
theorem moved_bar [StandardLedger L] (s : Local L) :
    (∃ t, s.moved = .ok t ∧ s.frame.message.paymentBar (Ledger.balance s.ledger) = none) ∨
      ∃ e, s.moved = .error e ∧
        s.frame.message.paymentBar (Ledger.balance s.ledger) = some (Effect.transferError e) := by
  unfold moved Message.paymentBar
  dsimp only
  -- the transfer and the bar make the same checks in the same order
  by_cases hkind : s.frame.message.kind.transfersValue = true
  · rw [if_pos hkind]
    rw [Ledger.transfer_eq]
    by_cases hvalue : s.frame.message.value = 0
    · rw [if_pos hvalue, if_pos (.inr hvalue)]
      exact .inl ⟨_, rfl, rfl⟩
    · have moves : ¬ (s.frame.message.kind.transfersValue = false ∨ s.frame.message.value = 0) := by
        rintro (hstill | hzero)
        · rw [hkind] at hstill
          cases hstill
        · exact hvalue hzero
      rw [if_neg hvalue, if_neg moves]
      by_cases hshort : Ledger.balance s.ledger s.frame.message.sender < s.frame.message.value
      · rw [if_pos hshort, if_pos hshort]
        exact .inr ⟨_, rfl, rfl⟩
      · rw [if_neg hshort, if_neg hshort]
        by_cases hself : s.frame.message.sender = s.frame.message.recipient
        · rw [if_pos hself, if_pos hself]
          exact .inl ⟨_, rfl, rfl⟩
        · rw [if_neg hself, if_neg hself]
          -- the sum that does not fit a word
          unfold Word.checkedAdd BitVec.uaddOverflow
          by_cases hfull : 2 ^ 256 ≤ (Ledger.balance s.ledger s.frame.message.recipient).toNat +
              s.frame.message.value.toNat
          · rw [if_pos (decide_eq_true hfull), if_pos hfull]
            exact .inr ⟨_, rfl, rfl⟩
          · rw [if_neg (by simpa using hfull), if_neg hfull]
            exact .inl ⟨_, rfl, rfl⟩
  · have still : s.frame.message.kind.transfersValue = false := Bool.not_eq_true _ ▸ hkind
    rw [if_neg hkind, if_pos (.inl still)]
    exact .inl ⟨_, rfl, rfl⟩

variable [LawfulLedger L]

/-- A frame is prepared unless it is barred. -/
theorem attempt_prepare_bar (c : Context) (s : Local L) :
    (s.attempt (Effect.prepare c)).1 = s.frame.message.bar c s.ledger := by
  unfold attempt Message.bar
  rw [Effect.run_prepare]
  by_cases hkind : s.frame.message.isCreate
  · rw [if_pos hkind, if_pos hkind, Effect.run_prepareCreate c hkind]
    dsimp only
    by_cases hnonce : Ledger.nonce s.ledger s.frame.message.sender < Counter.limit
    · rw [if_pos hnonce, if_neg (Nat.not_le.2 hnonce)]
      have opened : (s.opened (s.frame.message.entered c s.ledger)).ledger =
          (Ledger.snapshot (s.frame.message.entered c s.ledger)).2 := rfl
      rw [opened]
      by_cases hocc : Ledger.isOccupied (Ledger.snapshot (s.frame.message.entered c s.ledger)).2
        s.frame.message.recipient
      · rw [if_pos hocc, if_pos hocc]
      · rw [if_neg hocc, if_neg hocc]
        -- nothing on the way to the payment has changed a balance
        have balances : Ledger.balance
            (Local.cleared c (s.opened (s.frame.message.entered c s.ledger))).ledger =
            Ledger.balance s.ledger :=
          (congrArg LedgerState.balance (s.state_cleared c)).trans
            (LedgerState.balance_afterFailure _ _)
        rw [← balances]
        rcases (Local.cleared c (s.opened (s.frame.message.entered c s.ledger))).moved_bar with
          ⟨t, hmoved, hbar⟩ | ⟨e, hmoved, hbar⟩
        · rw [hmoved]
          exact hbar.symm
        · rw [hmoved]
          exact hbar.symm
    · rw [if_neg hnonce, if_pos (Nat.not_lt.1 hnonce)]
  · rw [if_neg hkind, if_neg hkind, Effect.run_prepareCall]
    dsimp only
    have balances : Ledger.balance (s.opened s.ledger).ledger = Ledger.balance s.ledger :=
      congrArg LedgerState.balance (LawfulLedger.state_snapshot s.ledger)
    rw [← balances]
    rcases (s.opened s.ledger).moved_bar with ⟨t, hmoved, hbar⟩ | ⟨e, hmoved, hbar⟩
    · rw [hmoved]
      exact hbar.symm
    · rw [hmoved]
      exact hbar.symm

end Local

/-! ### Ends of frames -/

/-- A frame that has failed ends with its error.  It has used all its gas, or what it has spent. -/
theorem Local.finalize_of_error {c : Context} {s : Local L} {e : VmError} (isRoot : Bool)
    (herror : s.frame.error = some e) (hrevert : e ≠ .revert) :
    (s.finalize c isRoot).1 =
        .failure e (if e.consumesAllGas then s.frame.gas.limit else s.frame.gas.used) ∧
      (s.finalize c isRoot).2.frame.gas.remaining =
        if e.consumesAllGas then 0 else s.frame.gas.remaining := by
  have nothing : s.deposited c = (some e, s) := by simp only [deposited, herror]
  obtain ⟨t, hresult, hleft, hframe⟩ := s.finalize_drawn c isRoot
  rw [nothing] at hframe
  rw [hresult, hleft, finalError_of_error isRoot herror, ← hframe]
  exact t.conclude_of_error hrevert

namespace Machine

variable {c : Context} {l : L} {message : Message} {observer : Observer} {m x : Machine L}
  {e : VmError}

/-- The gas of a frame when it ends without having run. -/
theorem Visited.prepare_meter (h : Visited c l message observer m) (hphase : m.top.phase = .created) :
    (m.prepare c).top.gas = .full m.top.message.gasLimit m.top.gas.refund := by
  obtain ⟨child, refund, htop⟩ := h.isFresh hphase
  rw [prepare_gas, htop]
  rfl

variable [LawfulLedger L]

/-- The preparation ends the frame with its bar, and prepares it when there is none. -/
theorem prepare_bar (c : Context) (m : Machine L) :
    (m.prepare c).top.phase = .finalizing ∧
        (m.prepare c).top.error = m.top.message.bar c m.ledger ∧
        m.top.message.bar c m.ledger ≠ none ∨
      (m.prepare c).top.phase = .prepared ∧ m.top.message.bar c m.ledger = none := by
  have hbar := m.toLocal.attempt_prepare_bar c
  change _ = m.top.message.bar c m.ledger at hbar
  rw [← hbar]
  unfold prepare
  dsimp only
  cases (m.toLocal.attempt (Effect.prepare c)).1 with
  | none => exact .inr ⟨rfl, rfl⟩
  | some e => exact .inl ⟨rfl, rfl, nofun⟩

/-- A barred frame has come to its end, with what bars it, as soon as it would have been prepared.
    -/
theorem prepare_of_bar (h : m.top.message.bar c m.ledger = some e) :
    (m.prepare c).top.phase = .finalizing ∧ (m.prepare c).top.error = some e := by
  rcases m.prepare_bar c with ⟨hphase, herror, -⟩ | ⟨-, hnone⟩
  · exact ⟨hphase, herror.trans h⟩
  · rw [h] at hnone
    cases hnone

/-- Nothing of a barred frame runs, and nothing on top of it. -/
theorem eq_of_bar (hphase : m.top.phase = .created) (h : m.top.message.bar c m.ledger = some e)
    (hsteps : Steps c m.below.length m x) : x = m ∨ x = m.prepare c := by
  rcases hsteps.cases_head with rfl | ⟨m₁, hstep, -, hrest⟩
  · exact .inl rfl
  · rw [step_of_created hphase] at hstep
    obtain rfl : m.prepare c = m₁ := Progress.running.inj hstep
    exact .inr (hrest.eq_of_finalizing (prepare_of_bar h).1)

/-- The result of a barred frame, and the gas that it leaves. -/
theorem Visited.finalize_of_bar (h : Visited c l message observer m)
    (hphase : m.top.phase = .created) (hbar : m.top.message.bar c m.ledger = some e) :
    (m.prepare c).topResult c =
        .failure e (if e.consumesAllGas then m.top.message.gasLimit else 0) ∧
      ((m.prepare c).toLocal.finalize c m.isRoot).2.frame.gas.remaining =
        if e.consumesAllGas then 0 else m.top.message.gasLimit := by
  have hmeter := h.prepare_meter hphase
  obtain ⟨hresult, hleft⟩ := Local.finalize_of_error (c := c) (s := (m.prepare c).toLocal) m.isRoot
    (prepare_of_bar hbar).2 (Message.ne_revert_of_bar hbar)
  change _ = ExecutionResult.failure e (if _ then (m.prepare c).top.gas.limit else
    (m.prepare c).top.gas.used) at hresult
  change _ = if _ then 0 else (m.prepare c).top.gas.remaining at hleft
  rw [hmeter] at hresult hleft
  refine ⟨hresult.trans ?_, hleft⟩
  -- a frame that was never entered has used nothing
  have unused : (Meter.full m.top.message.gasLimit m.top.gas.refund).used = 0 :=
    Nat.sub_self m.top.message.gasLimit
  rw [unused]
  rfl

/-- What the parent of a barred frame gets back. -/
theorem Visited.handedTo_of_bar (h : Visited c l message observer m)
    (hphase : m.top.phase = .created) (hbar : m.top.message.bar c m.ledger = some e)
    {parent : Frame} {below : List Frame} (hbelow : m.below = parent :: below) :
    ((m.prepare c).handedTo c parent below).top.gas.remaining =
      parent.gas.remaining + if e.consumesAllGas then 0 else m.top.message.gasLimit := by
  have next : Visited c l message observer (m.prepare c) :=
    ⟨h.depth, h.steps.tail (step_of_created hphase) (Nat.zero_le _)⟩
  have hback := next.metered.resume_exact (c := c) (show (m.prepare c).below = _ from hbelow)
  rw [hback]
  exact congrArg (parent.gas.remaining + ·) (h.finalize_of_bar hphase hbar).2

/-- What a barred frame leaves of the accounts. -/
theorem Visited.state_of_bar (h : Visited c l message observer m) (hphase : m.top.phase = .created)
    (hbar : m.top.message.bar c m.ledger = some e) :
    Ledger.state ((m.prepare c).toLocal.finalize c m.isRoot).2.ledger =
      (Ledger.state m.ledger).afterFailure m.top.message := by
  have hsteps : Steps c m.below.length m (m.prepare c) :=
    .tail (.refl m) (step_of_created hphase) (Nat.le_refl _)
  have failed : ((m.prepare c).topResult c).status ≠ .success := by
    rw [(h.finalize_of_bar hphase hbar).1]
    nofun
  exact (finalize_failed (h.isFresh hphase) hsteps rfl (prepare_of_bar hbar).1 failed).1

/-- A message whose first frame is barred. -/
theorem execute_of_bar (hdepth : message.depth ≤ c.config.maxCallDepth)
    (hbar : (launch c l message observer).top.message.bar c (launch c l message observer).ledger =
      some e) :
    (execute c l message observer).result =
      .failure e (if e.consumesAllGas then message.gasLimit else 0) := by
  have start : Visited c l message observer (launch c l message observer) := ⟨hdepth, .refl _⟩
  obtain ⟨last, x, hlast, -, hdone, hexecute⟩ := execute_eq l observer hdepth
  obtain ⟨hphase, hbelow, hresult, -⟩ := step_done hdone
  -- the first frame is barred at once, so the last machine is the prepared one
  have ends : last = (launch c l message observer).prepare c := by
    refine (eq_of_bar rfl hbar hlast.steps).resolve_left fun hfirst => ?_
    rw [hfirst] at hphase
    cases hphase
  have drawn : x.result =
      .failure e
        (if e.consumesAllGas then (launch c l message observer).top.message.gasLimit else 0) := by
    rw [hresult, ends]
    exact (start.finalize_of_bar rfl hbar).1
  rw [hexecute]
  dsimp only
  rw [drawn]
  show ExecutionResult.failure e (if e.consumesAllGas then (message.resolve l).gasLimit else 0) = _
  rw [message.gasLimit_resolve l]

end Machine

/-! ### Whole executions -/

/-- The account answers as before. -/
structure LedgerState.Spares (s t : LedgerState) (a : Address) : Prop where
  balance : t.balance a = s.balance a
  nonce : t.nonce a = s.nonce a
  code : t.code a = s.code a
  present : t.present a = s.present a
  storage (key : Word) : t.storage ⟨a, key⟩ = s.storage ⟨a, key⟩

/-- A failure spares every account but that of a creator. -/
theorem LedgerState.spares_afterFailure (s : LedgerState) (m : Message) {a : Address}
    (hother : a ≠ m.sender) : s.Spares (s.afterFailure m) a := by
  unfold afterFailure
  split
  · exact ⟨rfl, Function.update_of_ne hother .., rfl, Function.update_of_ne hother .., fun _ => rfl⟩
  · exact ⟨rfl, rfl, rfl, rfl, fun _ => rfl⟩

open Machine in
/-- What becomes of the frames that cannot be prepared in the execution of a message. -/
structure BarredFrames (c : Context) (l : L) (message : Message) (observer : Observer) : Prop where
  /-- A frame ends before it runs exactly if it is barred, and with what bars it.  That spares its
      gas or costs all of it. -/
  barred {m : Machine L} : Visited c l message observer m → m.top.phase = .created →
    ((m.prepare c).top.phase = .finalizing ↔ m.top.message.bar c m.ledger ≠ none) ∧
      ∀ e, m.top.message.bar c m.ledger = some e →
        (m.prepare c).top.error = some e ∧
          (m.top.message.Spared e ∨ m.top.message.Forfeited e)
  /-- None of its code runs: its end comes next. -/
  idle {m x : Machine L} {e : VmError} : Visited c l message observer m →
    m.top.phase = .created → m.top.message.bar c m.ledger = some e →
    Steps c m.below.length m x → x = m ∨ x = m.prepare c
  /-- If its gas is spared, it has used none and its parent gets all back. -/
  spared {m : Machine L} {e : VmError} : Visited c l message observer m →
    m.top.phase = .created → m.top.message.bar c m.ledger = some e → m.top.message.Spared e →
    (m.prepare c).topResult c = .failure e 0 ∧
      ∀ {parent : Frame} {below : List Frame}, m.below = parent :: below →
        (m.prepare c).step c = .running ((m.prepare c).handedTo c parent below) ∧
          ((m.prepare c).handedTo c parent below).top.gas.remaining =
            parent.gas.remaining + m.top.message.gasLimit
  /-- Otherwise it has used all and its parent gets nothing back. -/
  forfeited {m : Machine L} {e : VmError} : Visited c l message observer m →
    m.top.phase = .created → m.top.message.bar c m.ledger = some e → m.top.message.Forfeited e →
    (m.prepare c).topResult c = .failure e m.top.message.gasLimit ∧
      ∀ {parent : Frame} {below : List Frame}, m.below = parent :: below →
        (m.prepare c).step c = .running ((m.prepare c).handedTo c parent below) ∧
          ((m.prepare c).handedTo c parent below).top.gas.remaining = parent.gas.remaining
  /-- So it is with the result of a message whose first frame is barred. -/
  result {e : VmError} : message.depth ≤ c.config.maxCallDepth →
    (launch c l message observer).top.message.bar c (launch c l message observer).ledger = some e →
    (execute c l message observer).result =
      .failure e (if e.consumesAllGas then message.gasLimit else 0)
  /-- A barred frame leaves the accounts as they were, but for the nonce of a creator. -/
  kept {m : Machine L} {e : VmError} : Visited c l message observer m →
    m.top.phase = .created → m.top.message.bar c m.ledger = some e →
    Ledger.state ((m.prepare c).toLocal.finalize c m.isRoot).2.ledger =
      (Ledger.state m.ledger).afterFailure m.top.message
  /-- A target that is in use stays as it is, with its storage. -/
  target {m : Machine L} {a : Address} : Visited c l message observer m →
    m.top.phase = .created → m.top.message.bar c m.ledger = some (.addressCollision a) →
    a ≠ m.top.message.sender →
    (Ledger.state m.ledger).Spares
      (Ledger.state ((m.prepare c).toLocal.finalize c m.isRoot).2.ledger) a

open Machine in
/-- All of it together, over every lawful ledger. -/
theorem barredFrames_of_lawful [LawfulLedger L] (c : Context) (l : L) (message : Message)
    (observer : Observer) : BarredFrames c l message observer where
  barred {m} _ _ := by
    -- the phase tells a barred frame from a prepared one, in both directions
    refine ⟨?_, fun e hbar => ⟨(prepare_of_bar hbar).2, Message.bar_cases hbar⟩⟩
    rcases m.prepare_bar c with ⟨hphase, -, hbar⟩ | ⟨hphase, hbar⟩
    · exact ⟨fun _ => hbar, fun _ => hphase⟩
    · rw [hphase, hbar]
      exact ⟨nofun, fun h => absurd rfl h⟩
  idle _ hphase hbar hsteps := eq_of_bar hphase hbar hsteps
  spared {m e} hm hphase hbar hspared := by
    have keeps : ¬ e.consumesAllGas = true := by simp [hspared.consumesAllGas]
    refine ⟨?_, fun {parent below} hbelow => ⟨?_, ?_⟩⟩
    · rw [(hm.finalize_of_bar hphase hbar).1, if_neg keeps]
    · exact step_of_finalizing (prepare_of_bar hbar).1 hbelow
    · rw [hm.handedTo_of_bar hphase hbar hbelow, if_neg keeps]
  forfeited {m e} hm hphase hbar hforfeited := by
    have loses := hforfeited.consumesAllGas
    refine ⟨?_, fun {parent below} hbelow => ⟨?_, ?_⟩⟩
    · rw [(hm.finalize_of_bar hphase hbar).1, if_pos loses]
    · exact step_of_finalizing (prepare_of_bar hbar).1 hbelow
    · rw [hm.handedTo_of_bar hphase hbar hbelow, if_pos loses]
      rfl
  result hdepth hbar := execute_of_bar hdepth hbar
  kept hm hphase hbar := hm.state_of_bar hphase hbar
  target hm hphase hbar hother := by
    rw [hm.state_of_bar hphase hbar]
    exact LedgerState.spares_afterFailure _ _ hother

/-- On both ledgers, frames that cannot be prepared end before they run, with all their gas or with
    none. -/
theorem barred_frames (c : Context) (message : Message) (observer : Observer) :
    (∀ (S : Type) [WorldSource S] (l : JournaledLedger S), BarredFrames c l message observer) ∧
      ∀ l : SnapshotLedger, BarredFrames c l message observer :=
  ⟨fun _ _ l => barredFrames_of_lawful c l message observer,
    fun l => barredFrames_of_lawful c l message observer⟩

/-- A sender without balance that sends a value has all its gas back.  A contract that pays one that
    cannot hold more loses what it has set aside for the call. -/
theorem barred_frames_short_and_full :
    let c : Context := { config := { fork := .istanbul }, precompiles := .none }
    let l := SnapshotLedger.ofWorld (World.setBalance (World.setBalance (World.setCode {} 7
      #[0x60, 0, 0x60, 0, 0x60, 0, 0x60, 0, 0x60, 1, 0x60, 8, 0x61, 0xff, 0xff, 0xf1]) 7 5)
      8 (BitVec.allOnes 256))
    let start := Machine.launch c l (.call 1 7 0 #[] 100000) .off
    let m := start.after c 10
    (execute c l (.call 1 7 5 #[] 100000)).result = .failure (.insufficientBalance 5 0) 0 ∧
      m.top.message.bar c m.ledger = some (.state (.balanceOverflow 8)) ∧
      m.top.message.gasLimit = 0xffff + Gas.callStipend ∧
      ∃ parent, m.below = [parent] ∧
        ((m.prepare c).handedTo c parent []).top.gas.remaining = parent.gas.remaining := by
  intro c l start m
  have short : (Machine.launch c l (.call 1 7 5 #[] 100000) .off).top.message.bar c
      (Machine.launch c l (.call 1 7 5 #[] 100000) .off).ledger =
        some (.insufficientBalance 5 0) := by decide +kernel
  have visited : Machine.Visited c l (.call 1 7 0 #[] 100000) .off m :=
    Machine.Visited.iff_after.2 ⟨Nat.zero_le _, 10, rfl⟩
  have phase : m.top.phase = .created := by decide +kernel
  have overflows : m.top.message.bar c m.ledger = some (.state (.balanceOverflow 8)) := by
    decide +kernel
  have named : m.top.message.recipient = 8 := by decide +kernel
  have forfeited : m.top.message.Forfeited (.state (.balanceOverflow 8)) := by
    rw [← named]
    exact .full (by decide +kernel)
  have height : m.below.length = 1 := by decide +kernel
  -- the child whose transfer overflows, below the one frame that called it
  obtain ⟨parent, hbelow⟩ := List.length_eq_one_iff.1 height
  have lost := ((barred_frames c (.call 1 7 0 #[] 100000) .off).2 l).forfeited visited phase
    overflows forfeited
  exact ⟨((barred_frames c (.call 1 7 5 #[] 100000) .off).2 l).result (Nat.zero_le _) short,
    overflows, by decide +kernel, parent, hbelow, (lost.2 hbelow).2⟩

/-- So a barred frame does not always have its gas back, even if its target is not in use: a sender
    pays with all its gas for a recipient that cannot hold the sum. -/
theorem barred_frames_not_always_spared :
    ¬ ∀ (c : Context) (l : SnapshotLedger) (message : Message) (e : VmError),
      (execute c l message).result.error = some e → e.IsBar → (∀ a, e ≠ .addressCollision a) →
        (execute c l message).result.gasUsed = 0 := by
  intro spared
  have free := spared { precompiles := .none }
    (SnapshotLedger.ofWorld (World.setBalance (World.setBalance {} 1 1) 7 (BitVec.allOnes 256)))
    (.call 1 7 1 #[] 100000) (.state (.balanceOverflow 7)) (by decide +kernel) trivial
    (fun _ => nofun)
  exact absurd free (by decide +kernel)

end Evm
