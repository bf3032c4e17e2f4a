import Evm.Proofs.Machine.Results
import Evm.Proofs.Machine.Static
import Evm.Proofs.Machine.Surface

namespace Evm

/-!
# Static messages

Instructions that change state are refused in static frames.  Entering a frame is not an
instruction: the value of the first message moves and a contract is made room for whether the
message is static or not.  So a static execution changes what its entry changes, with the code of
the contract that it creates, and nothing else.

* `LedgerState.pay`, `LedgerState.afterEntry` — the accounts once a frame has been entered.
* `Local.state_attempt_prepare_of_none` — preparing a frame does that, if it does not fail.
* `Machine.Visited.static` — static executions are static throughout.
* `Machine.execute_unchanged_iff` — when a static execution leaves the accounts alone.
* `StaticExecution` — what it leaves.
* `static_executions` — on both ledgers it leaves that.
-/

/-! ### Entering a frame -/

namespace LedgerState

/-- Value moves from one account to another. -/
def pay (s : LedgerState) (sender recipient : Address) (value : Word) : LedgerState :=
  if value = 0 ∨ sender = recipient then s
  else
    (s.setBalance sender (s.balance sender - value)).setBalance recipient
      (s.balance recipient + value)

/-- What entering a frame makes of the accounts.  A creation has used up a nonce and has room for
    the contract; then the value has moved. -/
def afterEntry (s : LedgerState) (fork : Fork) (m : Message) : LedgerState :=
  let entered := s.afterFailure m
  let cleared :=
    if m.isCreate then entered.reset m.recipient (Effect.initialNonce fork) else entered
  if m.kind.transfersValue then cleared.pay m.sender m.recipient m.value else cleared

/-- A harmless message enters a frame without a change. -/
theorem afterEntry_of_harmless (s : LedgerState) (fork : Fork) {m : Message} (h : m.IsHarmless) :
    s.afterEntry fork m = s := by
  unfold afterEntry
  dsimp only
  rw [if_neg (Bool.eq_false_iff.1 h.isCreate), afterFailure_of_call s h.isCreate]
  split
  · rename_i hkind
    exact if_pos (h.value hkind)
  · rfl

/-- A failure leaves the accounts alone if it uses up no nonce. -/
theorem afterFailure_eq_iff {s : LedgerState} {m : Message} :
    s.afterFailure m = s ↔ (m.isCreate = true → Counter.limit ≤ s.nonce m.sender) := by
  unfold afterFailure
  split
  · rename_i hraises
    constructor
    -- the nonce is raised, so the state is another one
    · intro hsame
      have raised := congrFun (congrArg LedgerState.nonce hsame) m.sender
      change Function.update s.nonce m.sender _ m.sender = s.nonce m.sender at raised
      rw [Function.update_self] at raised
      exact absurd raised (Nat.succ_ne_self _)
    · intro hspent
      exact absurd hraises.2 (Nat.not_lt.2 (hspent hraises.1))
  · rename_i hkeeps
    exact ⟨fun _ hcreate => Nat.not_lt.1 fun hnonce => hkeeps ⟨hcreate, hnonce⟩, fun _ => rfl⟩

/-- Payments leave nonces alone. -/
theorem nonce_pay (s : LedgerState) (sender recipient : Address) (value : Word) :
    (s.pay sender recipient value).nonce = s.nonce := by
  unfold pay
  split <;> rfl

/-- A payer that pays something to another account has another balance afterwards. -/
theorem pay_ne {s : LedgerState} {sender recipient : Address} {value : Word}
    (hvalue : value ≠ 0) (hother : sender ≠ recipient) : s.pay sender recipient value ≠ s := by
  intro same
  have paid : (s.pay sender recipient value).balance sender = s.balance sender - value := by
    rw [pay, if_neg (not_or.2 ⟨hvalue, hother⟩)]
    show Function.update (Function.update s.balance sender _) recipient _ sender = _
    rw [Function.update_of_ne hother, Function.update_self]
  rw [same] at paid
  exact hvalue (by bv_omega)

/-- A call that enters a frame without a change is harmless. -/
theorem isHarmless_of_afterEntry {s : LedgerState} {fork : Fork} {m : Message}
    (hcall : m.isCreate = false) (h : s.afterEntry fork m = s) : m.IsHarmless := by
  refine ⟨hcall, fun hkind => ?_⟩
  unfold afterEntry at h
  dsimp only at h
  rw [if_neg (Bool.eq_false_iff.1 hcall), afterFailure_of_call s hcall, if_pos hkind] at h
  by_contra hmoves
  obtain ⟨hvalue, hother⟩ := not_or.1 hmoves
  exact pay_ne hvalue hother h

/-- A creator that has entered the frame has used up a nonce. -/
theorem nonce_afterEntry {s : LedgerState} (fork : Fork) {m : Message}
    (hcreate : m.isCreate = true) (hnonce : s.nonce m.sender < Counter.limit)
    (hother : m.sender ≠ m.recipient) :
    (s.afterEntry fork m).nonce m.sender = s.nonce m.sender + 1 := by
  unfold afterEntry afterFailure
  dsimp only
  rw [if_pos hcreate, if_pos (Message.transfersValue_of_isCreate hcreate), nonce_pay,
    if_pos ⟨hcreate, hnonce⟩]
  show Function.update (Function.update s.nonce m.sender _) m.recipient _ m.sender = _
  rw [Function.update_of_ne hother, Function.update_self]

end LedgerState

variable {L : Type} [Ledger L]

section Entry

variable [LawfulLedger L]

/-- A transfer that goes through does to the accounts what it says. -/
theorem Ledger.state_transfer {l l' : L} {sender recipient : Address} {value : Word}
    (h : transfer l sender recipient value = .ok l') :
    state l' = (state l).pay sender recipient value := by
  unfold LedgerState.pay
  by_cases still : value = 0 ∨ sender = recipient
  · rw [if_pos still, transfer_still still h]
  · have different := not_or.1 still
    rw [if_neg still]
    rw [transfer_eq, if_neg different.1] at h
    split at h
    · cases h
    · rw [if_neg different.2] at h
      split at h
      · rename_i credited hsum
        -- a sum that is there is that of the words
        have sum : balance l recipient + value = credited := by
          unfold Word.checkedAdd at hsum
          split at hsum
          · cases hsum
          · exact Option.some.inj hsum
        cases h
        rw [LawfulLedger.state_setBalance, LawfulLedger.state_setBalance]
        show _ = (LedgerState.setBalance _ sender _).setBalance recipient
          (balance l recipient + value)
        rw [sum]
        rfl
      · cases h

namespace Local

/-- What is answered once the value has moved. -/
theorem state_moved {s t : Local L} (h : s.moved = .ok t) :
    Ledger.state t.ledger =
      if s.frame.message.kind.transfersValue then
        (Ledger.state s.ledger).pay s.frame.message.sender s.frame.message.recipient
          s.frame.message.value
      else Ledger.state s.ledger := by
  unfold moved at h
  dsimp only at h
  by_cases hkind : s.frame.message.kind.transfersValue
  · rw [if_pos hkind] at h ⊢
    cases ht : Ledger.transfer s.ledger s.frame.message.sender s.frame.message.recipient
      s.frame.message.value with
    | error e =>
      rw [ht] at h
      cases h
    | ok l =>
      rw [ht] at h
      cases h
      exact Ledger.state_transfer ht
  · rw [if_neg hkind] at h ⊢
    cases h
    rfl

/-- Preparing a frame does to the accounts what entering it is to do, if it does not fail. -/
theorem state_attempt_prepare_of_none {c : Context} {s : Local L}
    (h : (s.attempt (Effect.prepare c)).1 = none) :
    Ledger.state (s.attempt (Effect.prepare c)).2.ledger =
      (Ledger.state s.ledger).afterEntry c.fork s.frame.message := by
  unfold LedgerState.afterEntry
  dsimp only
  unfold attempt at h ⊢
  rw [Effect.run_prepare] at h ⊢
  -- the nonce, an occupied target and the transfer can stop a creation, the transfer alone a call
  by_cases hkind : s.frame.message.isCreate
  · rw [if_pos hkind, Effect.run_prepareCreate c hkind] at h ⊢
    dsimp only at h ⊢
    by_cases hnonce : Ledger.nonce s.ledger s.frame.message.sender < Counter.limit
    · rw [if_pos hnonce] at h ⊢
      by_cases hocc : Ledger.isOccupied (s.opened (s.frame.message.entered c s.ledger)).ledger
        s.frame.message.recipient
      · rw [if_pos hocc] at h
        cases h
      · rw [if_neg hocc] at h ⊢
        cases hmoved : (Local.cleared c (s.opened (s.frame.message.entered c s.ledger))).moved with
        | error e =>
          rw [hmoved] at h
          cases h
        | ok moved =>
          show Ledger.state moved.ledger = _
          rw [state_moved hmoved, state_cleared, if_pos hkind]
          rfl
    · rw [if_neg hnonce] at h
      cases h
  · have call : s.frame.message.isCreate = false := Bool.not_eq_true _ ▸ hkind
    rw [if_neg hkind, Effect.run_prepareCall] at h ⊢
    dsimp only at h ⊢
    cases hmoved : (s.opened s.ledger).moved with
    | error e =>
      rw [hmoved] at h
      cases h
    | ok moved =>
      show Ledger.state (moved.loaded c).ledger = _
      rw [ledger_loaded, state_moved hmoved, state_opened, if_neg hkind,
        LedgerState.afterFailure_of_call _ call]
      rfl

/-- A creator that was prepared for had a nonce left, and there was room for the contract. -/
theorem room_of_prepared {c : Context} {s : Local L}
    (h : (s.attempt (Effect.prepare c)).1 = none) (hcreate : s.frame.message.isCreate = true) :
    Ledger.nonce s.ledger s.frame.message.sender < Counter.limit ∧
      s.frame.message.sender ≠ s.frame.message.recipient := by
  unfold attempt at h
  rw [Effect.run_prepare, if_pos hcreate, Effect.run_prepareCreate c hcreate] at h
  dsimp only at h
  by_cases hnonce : Ledger.nonce s.ledger s.frame.message.sender < Counter.limit
  · rw [if_pos hnonce] at h
    refine ⟨hnonce, fun own => ?_⟩
    -- the nonce of the creator has just been raised, so there is no room in its own place
    have raised : Ledger.nonce (s.opened (s.frame.message.entered c s.ledger)).ledger
        s.frame.message.recipient ≠ 0 := by
      rw [← Ledger.state_nonce, state_opened, s.frame.message.state_entered,
        LedgerState.afterFailure, if_pos ⟨hcreate, hnonce⟩, ← own]
      show Function.update _ s.frame.message.sender _ s.frame.message.sender ≠ 0
      rw [Function.update_self]
      exact Nat.succ_ne_zero _
    have occupied : Ledger.isOccupied (s.opened (s.frame.message.entered c s.ledger)).ledger
        s.frame.message.recipient = true := by
      rw [StandardLedger.isOccupied_eq, decide_eq_true raised, Bool.true_or, Bool.true_or]
    rw [if_pos occupied] at h
    cases h
  · rw [if_neg hnonce] at h
    cases h

end Local

end Entry

/-! ### Static throughout -/

/-- Resolving a message leaves it static. -/
theorem Message.isStatic_resolve (m : Message) (l : L) : (m.resolve l).isStatic = m.isStatic := by
  rcases m.resolve_cases l with h | ⟨a, h⟩
  · rw [h]
  · rw [h]
    rfl

/-- Resolving a message leaves its sender. -/
theorem Message.sender_resolve (m : Message) (l : L) : (m.resolve l).sender = m.sender := by
  rcases m.resolve_cases l with h | ⟨a, h⟩
  · rw [h]
  · rw [h]
    rfl

/-- A harmless message creates nothing, so there is no address to be found for it. -/
theorem Message.resolve_of_call {m : Message} (h : m.isCreate = false) (l : L) :
    m.resolve l = m := by
  unfold resolve
  cases hk : m.kind <;> simp_all [isCreate, CallKind.isCreate]

namespace Machine

variable {c : Context} {l : L} {message : Message} {observer : Observer} {m x last : Machine L}

/-- All frames of a static execution are static. -/
theorem Visited.static (h : Visited c l message observer m) (static : message.isStatic = true) :
    ∀ msg ∈ m.messages, msg.isStatic = true := by
  -- a child inherits the flag from the frame that sends it
  refine h.invariant (I := fun m : Machine L => ∀ msg ∈ m.messages, msg.isStatic = true) ?_ ?_
  · intro msg hmem
    have same : msg = message.resolve l := List.mem_singleton.1 hmem
    rw [same, message.isStatic_resolve l]
    exact static
  · intro m m' hm hstep msg hmem
    -- the messages stay, grow by a child's at the top, or lose the top
    rcases hstep.messages with hsame | ⟨child, hchild, hmore⟩ | hless
    · exact hm msg (hsame ▸ hmem)
    · rcases List.mem_cons.1 (hmore ▸ hmem) with rfl | hold
      · exact hchild.isStatic (hm _ List.mem_cons_self)
      · exact hm msg hold
    · exact hm msg (List.mem_of_mem_tail (hless ▸ hmem))

/-- Only the first frame of all has none below it before it is prepared. -/
theorem Steps.below_ne_nil {floor : Nat} (h : Steps c floor m x) (hm : m.top.phase ≠ .created)
    (hphase : x.top.phase = .created) : x.below ≠ [] := by
  cases h with
  | refl => exact absurd hphase hm
  | tail _ hstep _ =>
    have hheight := ((step_cases hstep).isFresh hphase).2
    exact List.ne_nil_of_length_pos (by omega)

/-- A frame that is prepared is no longer created. -/
theorem prepare_phase (c : Context) (m : Machine L) : (m.prepare c).top.phase ≠ .created := by
  unfold prepare
  dsimp only
  split <;> nofun

/-- Once the first frame of a static execution has been prepared, nothing that runs changes an
    account. -/
theorem Visited.still (h : Visited c l message observer x) (static : message.isStatic = true)
    (hlater : x.top.phase = .created → x.below ≠ []) : x.IsStill := by
  have top : x.top.message.isStatic = true := h.static static _ List.mem_cons_self
  exact ⟨top, fun hphase => (h.inert (h.isFresh hphase) (hlater hphase) top).harmless⟩

/-- The first frame of a static execution is silent at its end. -/
theorem Visited.silent (h : Visited c l message observer last) (static : message.isStatic = true)
    (hbelow : last.below = []) : last.top.IsSilent := by
  refine (lasting_silent c).course (h.course hbelow) ⟨?_, rfl, rfl⟩
  show (message.resolve l).isStatic = true
  rw [message.isStatic_resolve l]
  exact static

variable [LawfulLedger L]

/-- At the end of a static execution that succeeds the accounts are as when its first frame had been
    entered. -/
theorem Visited.state_of_static (h : Visited c l message observer last)
    (static : message.isStatic = true) (hbelow : last.below = [])
    (hphase : last.top.phase = .finalizing) (hsuccess : (last.topResult c).isSuccess = true) :
    Ledger.state last.ledger = (Ledger.state l).afterEntry c.fork (message.resolve l) := by
  obtain ⟨hprepared, hcourse⟩ :=
    (h.course hbelow).prepared isFresh_launch hphase hsuccess
  -- the steps after the first one change nothing
  have hafter : Ledger.state last.ledger =
      Ledger.state ((launch c l message observer).prepare c).ledger := by
    refine hcourse.tracks (tracks_still c) fun x hx => ?_
    have hvisited : Visited c l message observer x :=
      ⟨h.depth, hx.head (m := launch c l message observer) rfl (Nat.zero_le _)⟩
    exact hvisited.still static (hx.below_ne_nil (prepare_phase c _))
  have hentry := Local.state_attempt_prepare_of_none hprepared
  have hstart : Ledger.state (launch c l message observer).ledger = Ledger.state l :=
    Ledger.state_prewarm l _
  rw [hafter, ← hstart]
  exact hentry

end Machine

/-! ### Executions -/

namespace Machine

variable {c : Context} {l : L} {message : Message} {observer : Observer}

/-- A static execution leaves no record and destroys nothing. -/
theorem execute_silent (static : message.isStatic = true) :
    (execute c l message observer).result.logs = #[] ∧
      (execute c l message observer).result.selfDestructs = #[] := by
  by_cases hsuccess : (execute c l message observer).result.isSuccess
  · obtain ⟨last, x, hvisited, -, -, hbelow, -, hlogs, hdestructs, -⟩ := execute_succeeded hsuccess
    have silent := hvisited.silent static hbelow
    exact ⟨hlogs.trans silent.logs, hdestructs.trans silent.selfDestructs⟩
  · exact execute_records_of_failed hsuccess

variable [LawfulLedger L]

/-- A static execution that succeeds leaves its entry, and the code of a creation. -/
theorem execute_settled (static : message.isStatic = true)
    (hsuccess : (execute c l message observer).result.isSuccess = true) :
    Ledger.state (execute c l message observer).ledger =
        (Ledger.state l).afterEntry c.fork (message.resolve l) ∨
      message.isCreate = true ∧ ∃ code, Ledger.state (execute c l message observer).ledger =
        ((Ledger.state l).afterEntry c.fork (message.resolve l)).setCode
          (message.resolve l).recipient code := by
  obtain ⟨last, x, hvisited, -, hphase, hbelow, htop, -, -, hledger⟩ := execute_succeeded hsuccess
  have hcourse := hvisited.course hbelow
  have hmessage : last.top.message = message.resolve l := hcourse.message
  have hentered := hvisited.state_of_static static hbelow hphase htop
  -- nothing is registered to be destroyed, so only the deposit of code is left
  rw [hledger, (finalize_succeeded isFresh_launch hcourse hphase htop).2,
    last.toLocal.swept_deposited_ledger c (hvisited.silent static hbelow).selfDestructs]
  rcases last.toLocal.deposited_ledger c with hsame | ⟨code, hcoded⟩
  · rw [hsame]
    exact .inl hentered
  · cases hcreate : message.isCreate with
    | false =>
      have call : last.toLocal.frame.message.isCreate = false := by
        show last.top.message.isCreate = false
        rw [hmessage, message.isCreate_resolve l]
        exact hcreate
      rw [Local.deposited_of_call c call]
      exact .inl hentered
    | true =>
      refine .inr ⟨rfl, code, ?_⟩
      rw [hcoded, LawfulLedger.state_setCode]
      show (Ledger.state last.ledger).setCode last.top.message.recipient code = _
      rw [hentered, hmessage]

/-- A creation that succeeds has used up a nonce of its sender. -/
theorem execute_raises (static : message.isStatic = true) (hcreate : message.isCreate = true)
    (hsuccess : (execute c l message observer).result.isSuccess = true) :
    (Ledger.state (execute c l message observer).ledger).nonce message.sender =
      (Ledger.state l).nonce message.sender + 1 := by
  obtain ⟨last, x, hvisited, -, hphase, hbelow, htop, -, -, -⟩ := execute_succeeded hsuccess
  have hprepared := ((hvisited.course hbelow).prepared isFresh_launch hphase htop).1
  have hcreates : (message.resolve l).isCreate = true :=
    (message.isCreate_resolve l).trans hcreate
  have hsender : (message.resolve l).sender = message.sender := message.sender_resolve l
  have hstart : Ledger.state (launch c l message observer).ledger = Ledger.state l :=
    Ledger.state_prewarm l _
  obtain ⟨hnonce, hother⟩ := Local.room_of_prepared hprepared hcreates
  have raised : ((Ledger.state l).afterEntry c.fork (message.resolve l)).nonce message.sender =
      (Ledger.state l).nonce message.sender + 1 := by
    rw [← hsender]
    refine LedgerState.nonce_afterEntry c.fork hcreates ?_ hother
    rw [← hstart]
    exact hnonce
  -- code that is deposited leaves the nonces alone
  rcases execute_settled static hsuccess with hentered | ⟨-, code, hentered⟩
  · rw [hentered]
    exact raised
  · rw [hentered]
    exact raised

/-- When a static execution leaves the accounts alone. -/
theorem execute_unchanged_iff (static : message.isStatic = true) :
    Ledger.state (execute c l message observer).ledger = Ledger.state l ↔
      message.IsHarmless ∨ (execute c l message observer).result.isSuccess = false ∧
        (message.isCreate = true → c.config.maxCallDepth < message.depth ∨
          Counter.limit ≤ Ledger.nonce l message.sender) := by
  cases hsuccess : (execute c l message observer).result.isSuccess with
  | false =>
    -- what a failure leaves is known, whether the message is static or not
    have hfailed := ExecutionResult.status_ne_success (Bool.eq_false_iff.1 hsuccess)
    rw [failureAtomic_of_lawful.state_execute c l message observer hfailed]
    by_cases hdepth : c.config.maxCallDepth < message.depth
    · rw [if_pos hdepth]
      exact ⟨fun _ => .inr ⟨rfl, fun _ => .inl hdepth⟩, fun _ => rfl⟩
    · rw [if_neg hdepth, LedgerState.afterFailure_eq_iff, Ledger.state_nonce]
      constructor
      · intro hspent
        exact .inr ⟨rfl, fun hcreate => .inr (hspent hcreate)⟩
      · rintro (harmless | ⟨-, hspent⟩) hcreate
        · exact absurd (hcreate.symm.trans harmless.isCreate) nofun
        · exact (hspent hcreate).resolve_left hdepth
  | true =>
    have hsettled := execute_settled static hsuccess
    constructor
    · intro hsame
      cases hcreate : message.isCreate with
      | false =>
        have hentered : (Ledger.state l).afterEntry c.fork message = Ledger.state l := by
          rcases hsettled with hentered | ⟨hcreates, -⟩
          · rw [message.resolve_of_call hcreate l] at hentered
            exact hentered.symm.trans hsame
          · exact absurd (hcreate.symm.trans hcreates) nofun
        exact .inl (LedgerState.isHarmless_of_afterEntry hcreate hentered)
      | true =>
        have raised := execute_raises static hcreate hsuccess
        rw [hsame] at raised
        exact absurd raised.symm (Nat.succ_ne_self _)
    · rintro (harmless | ⟨hfailed, -⟩)
      · rcases hsettled with hentered | ⟨hcreates, -⟩
        · rw [hentered, message.resolve_of_call harmless.isCreate l]
          exact LedgerState.afterEntry_of_harmless _ _ harmless
        · exact absurd (hcreates.symm.trans harmless.isCreate) nofun
      · cases hfailed

end Machine

/-! ### Everywhere -/

/-- The execution of a static message leaves what its entry leaves, and the code of the contract
    that it creates. -/
structure StaticExecution (c : Context) (l : L) (message : Message) (observer : Observer) :
    Prop where
  /-- It leaves no records, however it ends. -/
  silent : (execute c l message observer).result.logs = #[] ∧
    (execute c l message observer).result.selfDestructs = #[]
  /-- If it succeeds, the first frame has been entered, and code deposited if it was to create a
      contract. -/
  settled : (execute c l message observer).result.isSuccess = true →
    let target := message.resolve l
    let entered := (Ledger.state l).afterEntry c.fork target
    Ledger.state (execute c l message observer).ledger = entered ∨
      message.isCreate = true ∧ ∃ code,
        Ledger.state (execute c l message observer).ledger = entered.setCode target.recipient code
  /-- The accounts are as before exactly if the message creates nothing and moves no value, or fails
      without a nonce that is used up for a creation. -/
  unchanged_iff : Ledger.state (execute c l message observer).ledger = Ledger.state l ↔
    message.IsHarmless ∨ (execute c l message observer).result.isSuccess = false ∧
      (message.isCreate = true → c.config.maxCallDepth < message.depth ∨
        Counter.limit ≤ Ledger.nonce l message.sender)

/-- Static executions are like that on every lawful ledger. -/
theorem staticExecution_of_lawful [LawfulLedger L] (c : Context) (l : L) {message : Message}
    (static : message.isStatic = true) (observer : Observer) :
    StaticExecution c l message observer where
  silent := Machine.execute_silent static
  settled := Machine.execute_settled static
  unchanged_iff := Machine.execute_unchanged_iff static

/-- On both ledgers, whatever world lies below, a static execution changes what its entry changes.
    -/
theorem static_executions (c : Context) {message : Message} (static : message.isStatic = true)
    (observer : Observer) :
    (∀ (S : Type) [WorldSource S] (l : JournaledLedger S), StaticExecution c l message observer) ∧
      ∀ l : SnapshotLedger, StaticExecution c l message observer :=
  ⟨fun _ _ l => staticExecution_of_lawful c l static observer,
    fun l => staticExecution_of_lawful c l static observer⟩

/-- A contract that returns at once is paid by a static message: its balance is another one then.  A
    contract that writes a slot is called without value: it fails, and nothing has changed. -/
theorem static_executions_on_payment :
    let c : Context := { precompiles := .none }
    let l := SnapshotLedger.ofWorld (World.setBalance (World.setCode (World.setCode {}
      7 #[0x60, 0, 0x60, 0, 0xf3]) 8 #[0x60, 1, 0x60, 0, 0x55]) 1 5)
    let paid := { Message.call 1 7 5 #[] 100000 with isStatic := true }
    let called := { Message.call 1 8 0 #[] 100000 with isStatic := true }
    paid.isStatic = true ∧ (execute c l paid).result.isSuccess = true ∧
      (execute c l paid).result.logs = #[] ∧
      Ledger.state (execute c l paid).ledger = (Ledger.state l).pay 1 7 5 ∧
      called.isStatic = true ∧ called.IsHarmless ∧ (execute c l called).result.status = .failed ∧
      Ledger.state (execute c l called).ledger = Ledger.state l := by
  intro c l paid called
  have succeeded : (execute c l paid).result.isSuccess = true := by decide +kernel
  have harmless : called.IsHarmless := ⟨rfl, fun _ => .inl rfl⟩
  have payment := (static_executions c (rfl : paid.isStatic = true) .off).2 l
  have call := (static_executions c (rfl : called.isStatic = true) .off).2 l
  have moved : Ledger.state (execute c l paid).ledger = (Ledger.state l).pay 1 7 5 :=
    (payment.settled succeeded).resolve_right fun created => absurd created.1 nofun
  exact ⟨rfl, succeeded, payment.silent.1, moved, rfl, harmless, by decide +kernel,
    call.unchanged_iff.2 (.inl harmless)⟩

/-- So static executions do not leave all balances alone: a static message may bring value along. -/
theorem static_executions_not_inert :
    ¬ ∀ (c : Context) (l : JournaledLedger World) (message : Message) (observer : Observer),
      message.isStatic = true →
        Ledger.balance (execute c l message observer).ledger = Ledger.balance l := by
  intro inert
  have same := congrFun
    (inert { precompiles := .none } (.ofSource (World.setBalance {} 1 5))
      { Message.call 1 7 5 #[] 100000 with isStatic := true } .off rfl) 7
  exact absurd same (by decide +kernel)

end Evm
