import Evm.Machine.Run
import Evm.Proofs.Instruction.Conduct
import Evm.Proofs.Ledger.Session

namespace Evm

/-!
# The stages of a frame, in closed form

Preparing a frame and depositing code are written as effects.  Here each of them is said again as
one expression, from which everything else is read off.

* `Message.entered` — the ledger when the snapshot of a frame is taken.
* `Local.Admitted` — all that preparing can come to, on any ledger.
* `Effect.run_prepareCall`, `Effect.run_prepareCreate` — preparing a frame on a ledger with no ways
  of its own.
* `Effect.run_depositCode` — depositing the code of a creation.
* `Local.Prepared` — all that preparing can have made of the ledger.
-/

variable {L : Type} [Ledger L]

/-! ### Parts of preparing -/

/-- The ledger when the snapshot of a frame is taken.  A creation has raised the nonce of the
    creator by then and, on forks with access lists, has accessed its target. -/
def Message.entered (c : Context) (m : Message) (l : L) : L :=
  if m.isCreate ∧ Ledger.nonce l m.sender < Counter.limit then
    let raised := Ledger.setNonce l m.sender (Ledger.nonce l m.sender + 1)
    if c.fork.accessLists then (Ledger.accessAccount raised m.recipient).2 else raised
  else l

/-- A call takes its snapshot at once. -/
theorem Message.entered_of_call (c : Context) {m : Message} (h : m.isCreate = false) (l : L) :
    m.entered c l = l := by
  simp [entered, h]

/-- A creation that can be counted has raised the nonce before. -/
theorem Message.entered_of_create (c : Context) {m : Message} {l : L}
    (h : m.isCreate ∧ Ledger.nonce l m.sender < Counter.limit) :
    m.entered c l =
      let raised := Ledger.setNonce l m.sender (Ledger.nonce l m.sender + 1)
      if c.fork.accessLists then (Ledger.accessAccount raised m.recipient).2 else raised :=
  if_pos h

/-- Nothing but the target of a message is resolved. -/
theorem Message.resolve_cases (m : Message) (l : L) :
    m.resolve l = m ∨ ∃ a, m.resolve l = m.withTarget a := by
  unfold resolve
  split
  · exact .inr ⟨_, rfl⟩
  · exact .inr ⟨_, rfl⟩
  · exact .inl rfl

/-- Creations move their value. -/
theorem Message.transfersValue_of_isCreate {m : Message} (h : m.isCreate = true) :
    m.kind.transfersValue = true := by
  cases hk : m.kind <;> simp_all [isCreate, CallKind.isCreate, CallKind.transfersValue]

namespace Local

/-- The place of a frame once its snapshot of a ledger is taken. -/
def opened (s : Local L) (l : L) : Local L where
  frame := { s.frame with snapshot := some (Ledger.snapshot l).1 }
  ledger := (Ledger.snapshot l).2

/-- The place of a frame once its value has moved, if its kind moves value. -/
def moved (s : Local L) : Except StateError (Local L) :=
  let m := s.frame.message
  if m.kind.transfersValue then
    (Ledger.transfer s.ledger m.sender m.recipient m.value).map fun ledger => { s with ledger }
  else .ok s

/-- Either no value moves, or it is moved by a transfer. -/
theorem moved_cases {s s' : Local L} (h : s.moved = .ok s') :
    s' = s ∨ s.frame.message.kind.transfersValue = true ∧ ∃ l,
      Ledger.transfer s.ledger s.frame.message.sender s.frame.message.recipient
        s.frame.message.value = .ok l ∧ s' = { s with ledger := l } := by
  unfold moved at h
  dsimp only at h
  split at h
  · rename_i hkind
    cases ht : Ledger.transfer s.ledger s.frame.message.sender s.frame.message.recipient
      s.frame.message.value with
    | error e =>
      rw [ht] at h
      cases h
    | ok l =>
      rw [ht] at h
      exact .inr ⟨hkind, l, rfl, (Except.ok.inj h).symm⟩
  · exact .inl (Except.ok.inj h).symm

/-- The frame is as before its value has moved. -/
theorem frame_of_moved {s s' : Local L} (h : s.moved = .ok s') : s'.frame = s.frame := by
  rcases moved_cases h with rfl | ⟨-, l, -, rfl⟩
  · rfl
  · rfl

/-- The place of a called frame once its code is loaded.  A precompiled contract has none. -/
def loaded (c : Context) (s : Local L) : Local L :=
  let m := s.frame.message
  if c.precompiles.contains c.fork m.codeAddress then s
  else { s with frame := s.frame.loadCode (Ledger.code s.ledger m.codeAddress) }

/-- Loading code only reads the ledger. -/
theorem ledger_loaded (c : Context) (s : Local L) : (s.loaded c).ledger = s.ledger := by
  unfold loaded
  dsimp only
  split <;> rfl

/-- The place of a creating frame once there is room for the contract. -/
def cleared (c : Context) (s : Local L) : Local L :=
  let a := s.frame.message.recipient
  { s with
    ledger := Ledger.setNonce (Ledger.clearStorage s.ledger a) a (Effect.initialNonce c.fork) }

end Local

namespace Effect

variable {α β : Type}

/-- What comes after the snapshot runs under it. -/
theorem run_takeSnapshot_bind (k : Unit → Effect L α) (s : Local L) :
    (takeSnapshot >>= k).run s = (k ()).run (s.opened s.ledger) := rfl

/-- Where a first access is free, an access is only recorded. -/
theorem run_accessAccount_free (fork : Fork) (a : Address) (s : Local L) :
    (accessAccount fork a 0).run s =
      .ok () { s with
        ledger := if fork.accessLists then (Ledger.accessAccount s.ledger a).2 else s.ledger } := by
  unfold accessAccount
  cases fork.accessLists with
  | false => rfl
  | true =>
    rw [if_pos rfl, if_pos rfl, run_bind]
    change EStateM.run (if (Ledger.accessAccount s.ledger a).1.isCold = true then _ else _) _ = _
    split
    · rw [run_charge]
      rfl
    · rfl

/-- Code is loaded unless the call goes to a precompiled contract. -/
theorem run_loadCalled (c : Context) {m : Message} {s : Local L} (hm : s.frame.message = m) :
    EStateM.run
      (if (!c.precompiles.contains c.fork m.codeAddress) = true then do
        let l ← ledger
        modifyFrame (·.loadCode (Ledger.code l m.codeAddress))
      else pure () : Effect L Unit) s = .ok () (s.loaded c) := by
  subst hm
  unfold Local.loaded
  dsimp only
  cases c.precompiles.contains c.fork s.frame.message.codeAddress with
  | true => rfl
  | false => rfl

/-- Calls and creations are prepared in two ways. -/
theorem run_prepare (c : Context) (s : Local L) :
    (prepare c).run s =
      if s.frame.message.isCreate then (prepareCreate c).run s else (prepareCall c).run s := by
  rw [prepare, run_frame_bind]
  split
  · rfl
  · rfl

end Effect

/-! ### What preparing comes to -/

/-- What keeps a frame from being prepared. -/
def VmError.IsBar : VmError → Prop
  | nonceOverflow _ | addressCollision _ | insufficientBalance _ _ | state _ => True
  | _ => False

/-- A refused transfer is a bar. -/
theorem VmError.isBar_transferError (cause : StateError) :
    (Effect.transferError cause).IsBar := by
  cases cause <;> trivial

/-- The frames are the same but for the name of the snapshot. -/
def Local.IsReopened (s t : Local L) : Prop := ∃ snapshot, t.frame = { s.frame with snapshot }

/-- What comes before the code is loaded leaves the frame alone, and fails for a bar.  The ledger
    may be left in any way. -/
@[reducible] def Effect.Conduct.barring (L : Type) : Effect.Conduct L where
  goes s t := s.IsReopened t
  fails e s t := e.IsBar ∧ s.IsReopened t
  refl s := ⟨s.frame.snapshot, rfl⟩
  trans := by
    rintro s t u ⟨_, ht⟩ ⟨token, hu⟩
    exact ⟨token, by rw [hu, ht]⟩
  late := by
    rintro s t u x ⟨_, ht⟩ ⟨hx, token, hu⟩
    exact ⟨hx, token, by rw [hu, ht]⟩

namespace Effect

omit [Ledger L] in
/-- A step on the ledger leaves the frame alone. -/
theorem barring_tryLedger {α : Type} (step : LedgerStep L α) {cause : StateError → VmError}
    (hcause : ∀ e, (cause e).IsBar) : Follows (Conduct.barring L) (tryLedger step cause) := by
  intro s
  rw [run_tryLedger]
  cases step s.ledger with
  | ok a l => exact ⟨s.frame.snapshot, rfl⟩
  | error e l => exact ⟨hcause e, s.frame.snapshot, rfl⟩

/-- The value may be too much for the sender, or for the recipient. -/
theorem barring_moveValue : Follows (Conduct.barring L) moveValue :=
  .frame_bind fun _ => barring_tryLedger _ VmError.isBar_transferError

/-- There may be no further nonce. -/
theorem barring_bumpNonce (a : Address) : Follows (Conduct.barring L) (bumpNonce a) :=
  .bind (barring_tryLedger _ fun _ => trivial) fun _ => .pure ()

/-- A snapshot can always be taken. -/
theorem barring_takeSnapshot : Follows (Conduct.barring L) takeSnapshot :=
  fun s => ⟨some (Ledger.snapshot s.ledger).1, rfl⟩

omit [Ledger L] in
/-- A change of the ledger bars nothing. -/
theorem barring_modifyLedger (f : L → L) : Follows (Conduct.barring L) (modifyLedger f) :=
  fun s => ⟨s.frame.snapshot, rfl⟩

end Effect

namespace Local

/-- All that preparing a frame can come to, on any ledger: a bar, or a frame that differs in its
    snapshot and has its code loaded. -/
inductive Admitted (c : Context) (s : Local L) : EStateM.Result VmError (Local L) Unit → Prop where
  | barred {e : VmError} {t : Local L} : e.IsBar → s.IsReopened t → Admitted c s (.error e t)
  | called {t : Local L} : s.frame.message.isCreate = false → s.IsReopened t →
      Admitted c s (.ok () (t.loaded c))
  | created {t : Local L} : s.frame.message.isCreate = true → s.IsReopened t →
      Admitted c s (.ok () { t with frame := t.frame.loadCode s.frame.message.input })

omit [Ledger L] in
/-- The message is the same under a new snapshot. -/
theorem IsReopened.message {s t : Local L} (h : s.IsReopened t) :
    t.frame.message = s.frame.message := by
  obtain ⟨_, heq⟩ := h
  rw [heq]

/-- What is prepared after some steps has been prepared all the same. -/
theorem Admitted.of_reopened {c : Context} {s t : Local L}
    {r : EStateM.Result VmError (Local L) Unit} (h : Admitted c t r) (ht : s.IsReopened t) :
    Admitted c s r := by
  cases h with
  | barred he hu => exact .barred he ((Effect.Conduct.barring L).trans ht hu)
  | called hcall hu =>
    exact .called (ht.message ▸ hcall) ((Effect.Conduct.barring L).trans ht hu)
  | created hcreate hu =>
    rw [ht.message] at hcreate ⊢
    exact .created hcreate ((Effect.Conduct.barring L).trans ht hu)

/-- A step that leaves the frame alone, and preparing after it. -/
theorem Admitted.bind {α : Type} {c : Context} {s : Local L} {e : Effect L α}
    {k : α → Effect L Unit} (he : Effect.Follows (.barring L) e)
    (hk : ∀ a t, s.IsReopened t → Admitted c t ((k a).run t)) :
    Admitted c s ((e >>= k).run s) := by
  rw [Effect.run_bind]
  cases hrun : e.run s with
  | error x t =>
    obtain ⟨hx, ht⟩ := he.fails hrun
    exact .barred hx ht
  | ok a t => exact (hk a t (he.goes hrun)).of_reopened (he.goes hrun)

/-- What preparing a call leads to. -/
theorem admitted_prepareCall (c : Context) {s : Local L} (hcall : s.frame.message.isCreate = false) :
    Admitted c s ((Effect.prepareCall c).run s) := by
  -- from the snapshot on, a call whose value has moved loads its code and is admitted
  have load (t : Local L) (ht : s.IsReopened t) : Admitted c t (.ok () (t.loaded c)) :=
    .called (ht.message ▸ hcall) ((Effect.Conduct.barring L).refl t)
  rw [Effect.prepareCall]
  refine .bind Effect.barring_takeSnapshot fun _ t ht => ?_
  rw [Effect.run_frame_bind]
  dsimp only
  split
  · refine .bind Effect.barring_moveValue fun _ u hu => ?_
    rw [Effect.run_loadCalled c hu.message]
    exact load u ((Effect.Conduct.barring L).trans ht hu)
  · rw [Effect.run_loadCalled c rfl]
    exact load t ht

/-- What preparing a creation leads to. -/
theorem admitted_prepareCreate (c : Context) {s : Local L}
    (hcreate : s.frame.message.isCreate = true) :
    Admitted c s ((Effect.prepareCreate c).run s) := by
  rw [Effect.prepareCreate, Effect.run_frame_bind]
  dsimp only
  refine .bind (Effect.barring_bumpNonce _) fun _ t ht => ?_
  have accessed : Effect.Follows (.barring L)
      (Effect.accessAccount c.fork s.frame.message.recipient 0) := by
    intro t
    rw [Effect.run_accessAccount_free]
    exact ⟨t.frame.snapshot, rfl⟩
  refine .bind accessed fun _ u hu => ?_
  refine .bind Effect.barring_takeSnapshot fun _ v hv => ?_
  rw [Effect.run_ledger_bind]
  split
  · -- there is a contract already
    exact .barred trivial ((Effect.Conduct.barring L).refl v)
  · refine .bind (Effect.barring_modifyLedger _) fun _ w hw => ?_
    refine .bind (Effect.barring_modifyLedger _) fun _ x hx => ?_
    refine .bind Effect.barring_moveValue fun _ y hy => ?_
    have message : y.frame.message = s.frame.message := by
      -- every step keeps the message, so it is still a creation
      rw [hy.message, hx.message, hw.message, hv.message, hu.message, ht.message]
    rw [← message]
    exact .created (message ▸ hcreate) ((Effect.Conduct.barring L).refl y)

/-- What preparing any message leads to. -/
theorem admitted_prepare (c : Context) (s : Local L) :
    Admitted c s ((Effect.prepare c).run s) := by
  rw [Effect.run_prepare]
  by_cases hcreate : s.frame.message.isCreate
  · rw [if_pos hcreate]
    exact admitted_prepareCreate c hcreate
  · rw [if_neg hcreate]
    exact admitted_prepareCall c (Bool.not_eq_true _ ▸ hcreate)

/-- Code is loaded at the start of the program; the rest of the frame stays. -/
theorem loaded_frame (c : Context) (s : Local L) :
    ∃ program, (s.loaded c).frame = { s.frame with program } := by
  unfold loaded
  dsimp only
  split
  · exact ⟨s.frame.program, rfl⟩
  · exact ⟨_, rfl⟩

/-- Preparing a frame takes a snapshot and loads code; the rest of the frame stays. -/
theorem attempt_prepare_eq (c : Context) (s : Local L) :
    ∃ program snapshot,
      (s.attempt (Effect.prepare c)).2.frame = { s.frame with program, snapshot } := by
  have admitted := s.admitted_prepare c
  unfold attempt
  revert admitted
  generalize (Effect.prepare c).run s = r
  rintro (⟨-, token, heq⟩ | @⟨t, -, token, heq⟩ | ⟨-, token, heq⟩)
  · exact ⟨s.frame.program, token, heq⟩
  · obtain ⟨program, hloaded⟩ := t.loaded_frame c
    exact ⟨program, token, by rw [hloaded, heq]⟩
  · exact ⟨_, token, by rw [Frame.loadCode, heq]⟩

/-- Preparing a frame neither spends its gas nor changes its message. -/
theorem attempt_prepare_frame (c : Context) (s : Local L) :
    (s.attempt (Effect.prepare c)).2.frame.gas = s.frame.gas ∧
      (s.attempt (Effect.prepare c)).2.frame.message = s.frame.message := by
  obtain ⟨program, snapshot, heq⟩ := s.attempt_prepare_eq c
  rw [heq]
  exact ⟨rfl, rfl⟩

/-- A frame that cannot be prepared is barred. -/
theorem attempt_prepare_error {c : Context} {s : Local L} {e : VmError}
    (h : (s.attempt (Effect.prepare c)).1 = some e) : e.IsBar := by
  have admitted := s.admitted_prepare c
  unfold attempt at h
  revert admitted h
  generalize (Effect.prepare c).run s = r
  rintro h (⟨hbar, -⟩ | - | -)
  · cases h
    exact hbar
  · cases h
  · cases h

/-- All that preparing a frame can have made of the ledger, also where it fails. -/
inductive Prepared (c : Context) (m : Message) (l : L) : L → Prop where
  /-- The creator has no nonce left. -/
  | refused : m.entered c l = l → Prepared c m l l
  | opened : Prepared c m l (Ledger.snapshot (m.entered c l)).2
  /-- There is room for a contract. -/
  | cleared {l' : L} : Prepared c m l l' → Ledger.isOccupied l' m.recipient = false →
      Prepared c m l
        (Ledger.setNonce (Ledger.clearStorage l' m.recipient) m.recipient
          (Effect.initialNonce c.fork))
  | moved {l' l'' : L} : Prepared c m l l' → m.kind.transfersValue = true →
      Ledger.transfer l' m.sender m.recipient m.value = .ok l'' → Prepared c m l l''

/-- Value that has moved has moved. -/
theorem Prepared.of_moved {c : Context} {m : Message} {s t : Local L} {l : L}
    (h : Prepared c m l s.ledger) (hm : s.frame.message = m) (hmoved : s.moved = .ok t) :
    Prepared c m l t.ledger := by
  subst hm
  rcases moved_cases hmoved with rfl | ⟨hkind, l', ht, rfl⟩
  · exact h
  · exact h.moved hkind ht

end Local

/-! ### Preparing on a ledger with no ways of its own -/

section Standard

variable [StandardLedger L]

namespace Effect

/-- Value moves, or the frame fails with the reason of the ledger. -/
theorem run_moveValue (s : Local L) (h : s.frame.message.kind.transfersValue = true) :
    moveValue.run s =
      match s.moved with
      | .ok s => .ok () s
      | .error e => .error (transferError e) s := by
  rw [moveValue, run_frame_bind]
  dsimp only
  rw [run_tryLedger, Local.moved, if_pos h, Ledger.tryTransfer_eq]
  cases Ledger.transfer s.ledger s.frame.message.sender s.frame.message.recipient
    s.frame.message.value <;> rfl

/-- A nonce is raised as long as it can be counted. -/
theorem run_bumpNonce (a : Address) (s : Local L) :
    (bumpNonce a).run s =
      if Ledger.nonce s.ledger a < Counter.limit then
        .ok () { s with ledger := Ledger.setNonce s.ledger a (Ledger.nonce s.ledger a + 1) }
      else .error (.nonceOverflow a) s := by
  rw [bumpNonce, run_bind, run_tryLedger, StandardLedger.tryIncNonce_eq]
  by_cases h : Ledger.nonce s.ledger a < Counter.limit
  · rw [if_pos h, if_pos h]
    rfl
  · rw [if_neg h, if_neg h]

/-- A call is prepared under its snapshot: value first, then code. -/
theorem run_prepareCall (c : Context) (s : Local L) :
    (prepareCall c).run s =
      let opened := s.opened s.ledger
      match opened.moved with
      | .ok moved => .ok () (moved.loaded c)
      | .error e => .error (transferError e) opened := by
  rw [prepareCall, run_takeSnapshot_bind, run_frame_bind]
  dsimp only
  change EStateM.run (if s.frame.message.kind.transfersValue = true then _ else _) _ = _
  by_cases hk : s.frame.message.kind.transfersValue
  · -- the kind moves value, which may be refused
    rw [if_pos hk, run_bind, run_moveValue (s.opened s.ledger) hk]
    cases hmoved : (s.opened s.ledger).moved with
    | error e => rfl
    | ok moved =>
      refine run_loadCalled c ?_
      rw [Local.frame_of_moved hmoved]
  -- nothing moves, and what is loaded is loaded from the snapshot on
  · have still : (s.opened s.ledger).moved = .ok (s.opened s.ledger) := if_neg hk
    rw [if_neg hk, still]
    exact run_loadCalled c rfl

/-- A creation is prepared in this order: the nonce, the access, the snapshot, the collision, the
    room for the contract, the value. -/
theorem run_prepareCreate (c : Context) {s : Local L} (h : s.frame.message.isCreate = true) :
    (prepareCreate c).run s =
      let m := s.frame.message
      let opened := s.opened (m.entered c s.ledger)
      if Ledger.nonce s.ledger m.sender < Counter.limit then
        if Ledger.isOccupied opened.ledger m.recipient then
          .error (.addressCollision m.recipient) opened
        else
          match (opened.cleared c).moved with
          | .ok moved => .ok () { moved with frame := moved.frame.loadCode m.input }
          | .error e => .error (transferError e) (opened.cleared c)
      else .error (.nonceOverflow m.sender) s := by
  rw [prepareCreate, run_frame_bind]
  dsimp only
  rw [run_bind, run_bumpNonce]
  by_cases hnonce : Ledger.nonce s.ledger s.frame.message.sender < Counter.limit
  · rw [if_pos hnonce, if_pos hnonce]
    dsimp only
    rw [run_bind, run_accessAccount_free]
    dsimp only
    -- all that comes before the snapshot makes up the ledger of entry
    rw [run_takeSnapshot_bind, run_ledger_bind,
      ← Message.entered_of_create c ⟨h, hnonce⟩]
    change EStateM.run (if Ledger.isOccupied (s.opened _).ledger _ = true then _ else _)
      (s.opened _) = _
    by_cases hocc : Ledger.isOccupied (s.opened (s.frame.message.entered c s.ledger)).ledger
      s.frame.message.recipient
    · rw [if_pos hocc, if_pos hocc]
      rfl
    · rw [if_neg hocc, if_neg hocc]
      change EStateM.run (moveValue >>= _) ((s.opened _).cleared c) = _
      rw [run_bind, run_moveValue ((s.opened (s.frame.message.entered c s.ledger)).cleared c)
        (Message.transfersValue_of_isCreate h)]
      cases (Local.cleared c (s.opened (s.frame.message.entered c s.ledger))).moved <;> rfl
  · rw [if_neg hnonce, if_neg hnonce]

end Effect

namespace Local

/-- Whether it goes through or not, preparing leaves a ledger of its stages. -/
theorem attempt_prepare_ledger (c : Context) (s : Local L) :
    Prepared c s.frame.message s.ledger (s.attempt (Effect.prepare c)).2.ledger := by
  unfold attempt
  rw [Effect.run_prepare]
  by_cases hkind : s.frame.message.isCreate
  · rw [if_pos hkind, Effect.run_prepareCreate c hkind]
    dsimp only
    by_cases hnonce : Ledger.nonce s.ledger s.frame.message.sender < Counter.limit
    · rw [if_pos hnonce]
      by_cases hocc : Ledger.isOccupied (s.opened (s.frame.message.entered c s.ledger)).ledger
        s.frame.message.recipient
      · rw [if_pos hocc]
        exact .opened
      · rw [if_neg hocc]
        have room : Prepared c s.frame.message s.ledger
            (Local.cleared c (s.opened (s.frame.message.entered c s.ledger))).ledger :=
          Prepared.opened.cleared (Bool.not_eq_true _ ▸ hocc)
        cases hmoved : (Local.cleared c (s.opened (s.frame.message.entered c s.ledger))).moved with
        | error e => exact room
        -- the payment is the last thing that can be refused
        | ok moved =>
          show Prepared c _ _ moved.ledger
          exact room.of_moved rfl hmoved
    · rw [if_neg hnonce]
      exact .refused (if_neg fun h => hnonce h.2)
  -- a call enters its ledger as it is
  · have called : Prepared c s.frame.message s.ledger (s.opened s.ledger).ledger := by
      have start : Prepared c s.frame.message s.ledger _ := .opened
      rwa [s.frame.message.entered_of_call c (Bool.not_eq_true _ ▸ hkind)] at start
    rw [if_neg hkind, Effect.run_prepareCall]
    dsimp only
    cases hmoved : (s.opened s.ledger).moved with
    | error e => exact called
    | ok moved =>
      show Prepared c _ _ (moved.loaded c).ledger
      rw [ledger_loaded]
      exact called.of_moved rfl hmoved

end Local

end Standard

/-! ### Depositing code -/

namespace Effect

/-- The checks of new code come before its price. -/
theorem run_depositCode (c : Context) (s : Local L) :
    (depositCode c).run s =
      let code := s.frame.output
      let taken : Local L := { s with frame := { s.frame with output := #[] } }
      if .london ≤ c.fork ∧ code[0]? = some 0xef then .error .reservedCode taken
      else if .spuriousDragon ≤ c.fork ∧ c.config.maxCodeSize < code.size then
        .error (.codeSizeExceeded code.size c.config.maxCodeSize) taken
      else
        match s.frame.gas.consume (Gas.codeDeposit code.size) with
        | .ok gas =>
          .ok ()
            { frame := { taken.frame with gas }
              ledger := Ledger.setCode s.ledger s.frame.address code }
        | .error e => if .homestead ≤ c.fork then .error e taken else .ok () taken := by
  rw [depositCode, run_frame_bind]
  dsimp only
  change EStateM.run (requireUnreserved c s.frame.output >>= _) _ = _
  by_cases hreserved : .london ≤ c.fork ∧ s.frame.output[0]? = some 0xef
  · rw [if_pos hreserved, run_bind, requireUnreserved, if_pos hreserved]
    rfl
  · rw [if_neg hreserved, run_bind, requireUnreserved, if_neg hreserved]
    change EStateM.run (requireCodeSize c s.frame.output.size >>= _) _ = _
    by_cases hsize : .spuriousDragon ≤ c.fork ∧ c.config.maxCodeSize < s.frame.output.size
    · rw [if_pos hsize, run_bind, requireCodeSize, if_pos hsize]
      rfl
    · rw [if_neg hsize, run_bind, requireCodeSize, if_neg hsize]
      cases s.frame.gas.consume (Gas.codeDeposit s.frame.output.size) with
      | ok gas => rfl
      | error e =>
        change EStateM.run (if .homestead ≤ c.fork then _ else _) _ = ite _ _ _
        split <;> rfl

end Effect

/-! ### Precompiled contracts -/

/-- The frame once a precompiled contract has answered for it, and why that failed, if it did. -/
def Frame.answered (p : Precompile) (f : Frame) : Option VmError × Frame :=
  match p.run f.message.input f.gas.remaining with
  | .error e => (some (.precompileFailure e), f)
  | .ok out =>
    match f.gas.consume out.gasUsed with
    | .error _ => (some (.precompileFailure .outOfGas), f)
    | .ok gas => (none, { f with gas, output := out.output })

/-- A precompiled contract fails in one way only. -/
theorem Frame.answered_error {p : Precompile} {f : Frame} {e : VmError}
    (h : (f.answered p).1 = some e) : ∃ cause, e = .precompileFailure cause := by
  unfold answered at h
  split at h
  · cases h
    exact ⟨_, rfl⟩
  · split at h <;> cases h
    exact ⟨_, rfl⟩

/-- A precompiled contract spends gas and leaves an output; the rest stays. -/
theorem Frame.answered_eq (p : Precompile) (f : Frame) :
    ∃ gas output, gas.remaining ≤ f.gas.remaining ∧ (f.answered p).2 = { f with gas, output } := by
  unfold answered
  split
  · exact ⟨f.gas, f.output, Nat.le_refl _, rfl⟩
  · split
    · exact ⟨f.gas, f.output, Nat.le_refl _, rfl⟩
    · rename_i out _ _ gas hgas
      have spent := (Meter.consume_eq_ok_iff.1 hgas).2.1
      exact ⟨gas, out.output, by omega, rfl⟩

/-- The name of the snapshot plays no part in the answer. -/
theorem Frame.answered_withSnapshot (p : Precompile) (f : Frame) (token : Option Nat) :
    (f.withSnapshot token).answered p =
      ((f.answered p).1, (f.answered p).2.withSnapshot token) := by
  unfold answered
  rw [withSnapshot_message, withSnapshot_gas]
  split
  · rfl
  · split <;> rfl

omit [Ledger L] in
/-- A precompiled contract works on the frame alone. -/
theorem Local.attempt_runPrecompile (p : Precompile) (s : Local L) :
    s.attempt (Effect.runPrecompile p) =
      ((s.frame.answered p).1, { s with frame := (s.frame.answered p).2 }) := by
  unfold attempt Effect.runPrecompile Frame.answered
  rw [Effect.run_frame_bind]
  cases p.run s.frame.message.input s.frame.gas.remaining with
  | error e => rfl
  | ok out =>
    dsimp only
    cases s.frame.gas.consume out.gasUsed <;> rfl

/-! ### Frames across the stages -/

namespace Local

/-- What a deposit leaves of the frame when it pays for nothing. -/
def withoutOutput (s : Local L) : Local L :=
  { s with frame := { s.frame with output := #[] } }

/-- How depositing the output of a frame as code can go: the error, if it is refused, and the place
    after it.  The output is taken in any case. -/
inductive DepositAttempt (c : Context) (s : Local L) : Option VmError × Local L → Prop where
  | reserved : .london ≤ c.fork ∧ s.frame.output[0]? = some 0xef →
      DepositAttempt c s (some .reservedCode, s.withoutOutput)
  | tooLong : .spuriousDragon ≤ c.fork ∧ c.config.maxCodeSize < s.frame.output.size →
      DepositAttempt c s
        (some (.codeSizeExceeded s.frame.output.size c.config.maxCodeSize), s.withoutOutput)
  | unpaid : .homestead ≤ c.fork → s.frame.gas.remaining < Gas.codeDeposit s.frame.output.size →
      DepositAttempt c s (some .outOfGas, s.withoutOutput)
  /-- Before Homestead code that is not paid for is dropped. -/
  | dropped : ¬ (.london ≤ c.fork ∧ s.frame.output[0]? = some 0xef) →
      ¬ (.spuriousDragon ≤ c.fork ∧ c.config.maxCodeSize < s.frame.output.size) →
      ¬ .homestead ≤ c.fork → s.frame.gas.remaining < Gas.codeDeposit s.frame.output.size →
      DepositAttempt c s (none, s.withoutOutput)
  | paid {gas : Meter} : ¬ (.london ≤ c.fork ∧ s.frame.output[0]? = some 0xef) →
      ¬ (.spuriousDragon ≤ c.fork ∧ c.config.maxCodeSize < s.frame.output.size) →
      s.frame.gas.consume (Gas.codeDeposit s.frame.output.size) = .ok gas →
      DepositAttempt c s (none,
        { frame := { s.frame with output := #[], gas }
          ledger := Ledger.setCode s.ledger s.frame.address s.frame.output })

/-- A deposit goes in one of these ways. -/
theorem depositAttempt (c : Context) (s : Local L) :
    DepositAttempt c s (s.attempt (Effect.depositCode c)) := by
  unfold attempt
  rw [Effect.run_depositCode]
  dsimp only
  -- the checks in the order of the deposit, each with its own refusal
  by_cases hreserved : .london ≤ c.fork ∧ s.frame.output[0]? = some 0xef
  · rw [if_pos hreserved]
    exact .reserved hreserved
  · rw [if_neg hreserved]
    by_cases hlong : .spuriousDragon ≤ c.fork ∧ c.config.maxCodeSize < s.frame.output.size
    · rw [if_pos hlong]
      exact .tooLong hlong
    · rw [if_neg hlong]
      cases hgas : s.frame.gas.consume (Gas.codeDeposit s.frame.output.size) with
      | ok gas => exact .paid hreserved hlong hgas
      | error e =>
        obtain ⟨rfl, hshort⟩ := Meter.consume_eq_error_iff.1 hgas
        by_cases hfork : .homestead ≤ c.fork
        · dsimp only
          rw [if_pos hfork]
          exact .unpaid hfork hshort
        · dsimp only
          rw [if_neg hfork]
          exact .dropped hreserved hlong hfork hshort

/-- Depositing code spends gas and takes the output; the rest of the frame stays. -/
theorem attempt_depositCode_frame (c : Context) (s : Local L) :
    ∃ gas output, (gas.remaining ≤ s.frame.gas.remaining ∧ gas.refund = s.frame.gas.refund) ∧
      (s.attempt (Effect.depositCode c)).2.frame = { s.frame with gas, output } := by
  have attempted := s.depositAttempt c
  generalize s.attempt (Effect.depositCode c) = r at attempted ⊢
  cases attempted with
  | reserved | tooLong | unpaid | dropped =>
    exact ⟨s.frame.gas, #[], ⟨Nat.le_refl _, rfl⟩, rfl⟩
  | @paid gas _ _ hpaid =>
    obtain ⟨-, hspent, hrefund⟩ := Meter.consume_eq_ok_iff.1 hpaid
    exact ⟨gas, #[], ⟨Nat.le.intro hspent, hrefund⟩, rfl⟩

omit [Ledger L] in
/-- The result may cost the frame its gas, and nothing else. -/
theorem conclude_frame (s : Local L) (error : Option VmError) :
    ∃ gas, (gas.remaining ≤ s.frame.gas.remaining ∧ gas.refund = s.frame.gas.refund) ∧
      (s.conclude error).2 = { s with frame := { s.frame with gas } } := by
  unfold conclude
  split
  · exact ⟨s.frame.gas, ⟨Nat.le_refl _, rfl⟩, rfl⟩
  · exact ⟨s.frame.gas, ⟨Nat.le_refl _, rfl⟩, rfl⟩
  · dsimp only
    split
    · exact ⟨s.frame.gas.consumeAll, ⟨Nat.zero_le _, rfl⟩, rfl⟩
    · exact ⟨s.frame.gas, ⟨Nat.le_refl _, rfl⟩, rfl⟩

omit [Ledger L] in
/-- The result is a success if there is no error. -/
theorem conclude_isSuccess (s : Local L) (error : Option VmError) :
    (s.conclude error).1.isSuccess = error.isNone := by
  cases error with
  | none => rfl
  | some e => cases e <;> rfl

/-- Settling a snapshot concerns the ledger. -/
theorem settle_frame (s : Local L) (error : Option VmError) :
    (s.settle error).2.frame = s.frame := by
  unfold settle
  split
  · rfl
  · dsimp only
    split <;> rfl

/-- A frame that has not failed keeps its changes. -/
theorem settle_none [LawfulLedger L] {s : Local L} {b : L}
    (hsnapshot : s.frame.snapshot = some (Ledger.snapshot b).1)
    (h : Ledger.History (Ledger.snapshot b).2 s.ledger) :
    ∃ l, Ledger.commit s.ledger (Ledger.snapshot b).1 = .ok l ∧
      s.settle none = (none, { s with ledger := l }) ∧ Ledger.state l = Ledger.state s.ledger := by
  obtain ⟨l, hl, hstate, -⟩ := LawfulLedger.commit_history h
  refine ⟨l, hl, ?_, hstate⟩
  unfold settle
  rw [hsnapshot]
  dsimp only
  rw [if_pos Option.isNone_none, Ledger.tryCommit_eq, hl]

/-- A frame that has failed leaves what was there when its snapshot was taken. -/
theorem settle_some [LawfulLedger L] {s : Local L} {b : L} (error : VmError)
    (hsnapshot : s.frame.snapshot = some (Ledger.snapshot b).1)
    (h : Ledger.History (Ledger.snapshot b).2 s.ledger) :
    ∃ l, Ledger.rollback s.ledger (Ledger.snapshot b).1 = .ok l ∧
      s.settle (some error) = (some error, { s with ledger := l }) ∧
      Ledger.state l = Ledger.state b ∧ Ledger.warmth l = Ledger.warmth b := by
  obtain ⟨l, hl, hstate, hwarmth⟩ := LawfulLedger.rollback_history h
  refine ⟨l, hl, ?_, hstate, hwarmth⟩
  unfold settle
  rw [hsnapshot]
  dsimp only
  rw [if_neg (by simp), Ledger.tryRollback_eq, hl]

/-- The place of a frame at its end once the code of a creation is deposited. -/
def deposited (c : Context) (s : Local L) : Option VmError × Local L :=
  match s.frame.error with
  | some e => (some e, s)
  | none => if s.frame.message.isCreate then s.attempt (Effect.depositCode c) else (none, s)

/-- The place of a frame at its end once the registered accounts are destroyed, if they are. -/
def swept (isRoot : Bool) (s : Local L) (error : Option VmError) : Local L :=
  if isRoot && error.isNone then s.destroyRegistered else s

/-- The end of a frame in its four parts. -/
theorem finalize_eq (c : Context) (isRoot : Bool) (s : Local L) :
    s.finalize c isRoot =
      let (error, s) := s.deposited c
      let (error, s) := (s.swept isRoot error).settle error
      let (result, s) := s.conclude error
      (result, { s with
        frame := { s.frame with phase := .done, snapshot := none, error := none } }) := rfl

/-- Depositing code, if there is any, spends gas and takes the output. -/
theorem deposited_frame (c : Context) (s : Local L) :
    ∃ gas output, (gas.remaining ≤ s.frame.gas.remaining ∧ gas.refund = s.frame.gas.refund) ∧
      (s.deposited c).2.frame = { s.frame with gas, output } := by
  unfold deposited
  split
  · exact ⟨s.frame.gas, s.frame.output, ⟨Nat.le_refl _, rfl⟩, rfl⟩
  · split
    · exact attempt_depositCode_frame c s
    · exact ⟨s.frame.gas, s.frame.output, ⟨Nat.le_refl _, rfl⟩, rfl⟩

/-- Depositing code writes the code of the new account, or nothing. -/
theorem deposited_ledger (c : Context) (s : Local L) :
    (s.deposited c).2.ledger = s.ledger ∨
      ∃ code, (s.deposited c).2.ledger = Ledger.setCode s.ledger s.frame.address code := by
  unfold deposited
  split
  · exact .inl rfl
  · split
    · have attempted := s.depositAttempt c
      generalize s.attempt (Effect.depositCode c) = r at attempted ⊢
      cases attempted with
      | reserved | tooLong | unpaid | dropped => exact .inl rfl
      | paid => exact .inr ⟨_, rfl⟩
    · exact .inl rfl

/-- Destroying accounts concerns the ledger. -/
theorem swept_frame (isRoot : Bool) (s : Local L) (error : Option VmError) :
    (s.swept isRoot error).frame = s.frame := by
  unfold swept
  split <;> rfl

/-- The end of a frame knows its snapshot until it is settled. -/
theorem swept_snapshot (c : Context) (isRoot : Bool) (s : Local L) (error : Option VmError) :
    ((s.deposited c).2.swept isRoot error).frame.snapshot = s.frame.snapshot := by
  obtain ⟨gas, output, -, heq⟩ := s.deposited_frame c
  rw [swept_frame, heq]

/-- What the end of a frame leaves to its parent. -/
theorem finalize_meter (c : Context) (isRoot : Bool) (s : Local L) :
    (s.finalize c isRoot).2.frame.gas.remaining ≤ s.frame.gas.remaining ∧
      (s.finalize c isRoot).2.frame.gas.refund = s.frame.gas.refund := by
  obtain ⟨gas, output, ⟨hgas, hrefund⟩, heq⟩ := s.deposited_frame c
  rw [finalize_eq]
  dsimp only
  obtain ⟨left, ⟨hleft, hkept⟩, hconclude⟩ := conclude_frame
    (((s.deposited c).2.swept isRoot (s.deposited c).1).settle (s.deposited c).1).2
    (((s.deposited c).2.swept isRoot (s.deposited c).1).settle (s.deposited c).1).1
  rw [settle_frame, swept_frame, heq] at hleft hkept
  rw [hconclude]
  exact ⟨Nat.le_trans hleft hgas, hkept.trans hrefund⟩

/-- The end of a frame creates no gas. -/
theorem finalize_gas (c : Context) (isRoot : Bool) (s : Local L) :
    (s.finalize c isRoot).2.frame.gas.remaining ≤ s.frame.gas.remaining :=
  (s.finalize_meter c isRoot).1

end Local

/-! ### Taking in a child -/

namespace Frame

/-- Addresses, with one more noted once. -/
def noted (addresses : Array Address) (a : Address) : Array Address :=
  if addresses.contains a then addresses else addresses.push a

/-- Registering an account is noting it. -/
theorem registerSelfDestruct_eq (f : Frame) (a : Address) :
    f.registerSelfDestruct a = { f with selfDestructs := noted f.selfDestructs a } := by
  unfold registerSelfDestruct noted hasSelfDestructed
  split <;> rfl

/-- The effects of a child come after those of its parent. -/
theorem absorb_eq (f : Frame) (logs : Array Log) (selfDestructs : Array Address) :
    f.absorb logs selfDestructs =
      { f with
        logs := f.logs ++ logs
        selfDestructs := selfDestructs.foldl noted f.selfDestructs } := by
  have fold (g : Frame) (addresses : List Address) :
      addresses.foldl registerSelfDestruct g =
        { g with selfDestructs := addresses.foldl noted g.selfDestructs } := by
    induction addresses generalizing g with
    | nil => rfl
    | cons a rest ih => rw [List.foldl_cons, List.foldl_cons, ih, registerSelfDestruct_eq]
  rw [absorb, ← Array.foldl_toList, ← Array.foldl_toList, fold]

/-- A parent takes over from a child that succeeds, and from any child its gas. -/
theorem mergeChild_eq (f : Frame) (childGas : Meter) (result : ExecutionResult) :
    f.mergeChild childGas result =
      let gas := f.gas.giveBack childGas.remaining
      if result.isSuccess then
        { f with
          gas := gas.setRefund childGas.refund
          logs := f.logs ++ result.logs
          selfDestructs := result.selfDestructs.foldl noted f.selfDestructs }
      else { f with gas } := by
  unfold mergeChild
  split
  · exact absorb_eq ..
  · rfl

/-- The parent once the result of a call is delivered. -/
def afterCall (f : Frame) (result : ExecutionResult) (retOffset retLen : Nat) : Frame :=
  let f := { f with continuation := none }
  let data := result.output.extract 0 (min retLen result.output.size)
  match f.memory.write retOffset data with
  | .error e => f.finish (some e)
  | .ok memory =>
    let f := { f with memory, returnData := result.output }
    match f.stack.push (.ofBool result.isSuccess) with
    | .error e => f.finish (some e)
    | .ok stack => { f with stack, phase := .resuming }

/-- The parent once the result of a creation is delivered. -/
def afterCreate (f : Frame) (result : ExecutionResult) : Frame :=
  let returnData := if result.isSuccess then #[] else result.output
  let f := { f with continuation := none, returnData }
  let word : Word :=
    if result.isSuccess then result.createdAddress.elim 0 Address.toWord else 0
  match f.stack.push word with
  | .error e => f.finish (some e)
  | .ok stack => { f with stack, phase := .resuming }

/-- A parent goes on as it has asked for. -/
theorem resume_eq (f : Frame) (childGas : Meter) (result : ExecutionResult) :
    f.resume childGas result =
      let merged := f.mergeChild childGas result
      match merged.continuation with
      | some (.call retOffset retLen) => merged.afterCall result retOffset retLen
      | some .create => merged.afterCreate result
      | none => { merged with phase := .resuming } := by
  unfold resume
  dsimp only
  generalize f.mergeChild childGas result = merged
  -- what is delivered depends on what the parent waits for
  rw [deliver]
  cases hk : merged.continuation with
  | none =>
    change { merged with phase := .resuming } = _
    rw [hk]
  | some k =>
    cases k with
    | call retOffset retLen =>
      dsimp only
      unfold deliverCall afterCall
      dsimp only
      generalize hw : merged.memory.write retOffset
        (result.output.extract 0 (min retLen result.output.size)) = written
      cases written with
      | error e => rfl
      | ok memory =>
        dsimp only
        generalize hp : merged.stack.push (.ofBool result.isSuccess) = pushed
        cases pushed with
        | error e => rfl
        | ok stack => rfl
    | create =>
      dsimp only
      unfold deliverCreate afterCreate
      dsimp only
      generalize hp : merged.stack.push _ = pushed
      cases pushed with
      | error e => rfl
      | ok stack => rfl

/-- Whatever is delivered, only the parts of the parent change that do not outlive it. -/
theorem resume_merged (f : Frame) (childGas : Meter) (result : ExecutionResult) :
    ∃ stack memory returnData phase continuation error, f.resume childGas result =
      { f.mergeChild childGas result with
        stack, memory, returnData, phase, continuation, error } := by
  rw [resume_eq]
  dsimp only
  split
  -- where the result goes depends on what the frame waits for
  · unfold afterCall
    dsimp only
    split
    · exact ⟨_, _, _, _, _, _, rfl⟩
    · split <;> exact ⟨_, _, _, _, _, _, rfl⟩
  · unfold afterCreate
    dsimp only
    split <;> exact ⟨_, _, _, _, _, _, rfl⟩
  · exact ⟨_, _, _, _, _, _, rfl⟩

/-- What taking in a child leaves alone in its parent, and what it can come to. -/
structure Resumed (f g : Frame) (childGas : Meter) : Prop where
  message : g.message = f.message
  program : g.program = f.program
  snapshot : g.snapshot = f.snapshot
  phase : g.phase = .resuming ∧ g.error = f.error ∨ g.phase = .finalizing ∧ g.error ≠ none
  gas : g.gas.remaining ≤ f.gas.remaining + childGas.remaining

/-- A parent that has taken in a child has its message and its code, and not more gas than both had.
    -/
theorem resumed_resume (f : Frame) (childGas : Meter) (result : ExecutionResult) :
    Resumed f (f.resume childGas result) childGas := by
  have merged : ∃ gas logs selfDestructs, gas.remaining ≤ f.gas.remaining + childGas.remaining ∧
      f.mergeChild childGas result = { f with gas, logs, selfDestructs } := by
    rw [mergeChild_eq]
    dsimp only
    split
    · exact ⟨_, _, _, Nat.min_le_left _ _, rfl⟩
    · exact ⟨_, _, _, Nat.min_le_left _ _, rfl⟩
  obtain ⟨gas, logs, selfDestructs, hgas, heq⟩ := merged
  -- whatever is delivered, the parent goes on or has run into an error of its own
  rw [resume_eq, heq]
  dsimp only
  split
  · unfold afterCall
    dsimp only
    split
    · exact ⟨rfl, rfl, rfl, .inr ⟨rfl, by simp [finish]⟩, hgas⟩
    · split
      · exact ⟨rfl, rfl, rfl, .inr ⟨rfl, by simp [finish]⟩, hgas⟩
      · exact ⟨rfl, rfl, rfl, .inl ⟨rfl, rfl⟩, hgas⟩
  · unfold afterCreate
    dsimp only
    split
    · exact ⟨rfl, rfl, rfl, .inr ⟨rfl, by simp [finish]⟩, hgas⟩
    · exact ⟨rfl, rfl, rfl, .inl ⟨rfl, rfl⟩, hgas⟩
  · exact ⟨rfl, rfl, rfl, .inl ⟨rfl, rfl⟩, hgas⟩

/-- The name of the snapshot plays no part. -/
theorem resume_withSnapshot (f : Frame) (token : Option Nat) (childGas : Meter)
    (result : ExecutionResult) :
    (f.withSnapshot token).resume childGas result =
      (f.resume childGas result).withSnapshot token := by
  -- the token is no part of what the merge reads
  have merged : (f.withSnapshot token).mergeChild childGas result =
      (f.mergeChild childGas result).withSnapshot token := by
    rw [mergeChild_eq, mergeChild_eq]
    dsimp only
    split <;> rfl
  rw [resume_eq, resume_eq, merged]
  generalize f.mergeChild childGas result = g
  dsimp only
  have same : (g.withSnapshot token).continuation = g.continuation := rfl
  rw [same]
  split
  · unfold afterCall
    dsimp only
    rw [withSnapshot_memory, withSnapshot_stack]
    split
    · rfl
    · split <;> rfl
  · unfold afterCreate
    dsimp only
    rw [withSnapshot_stack]
    split <;> rfl
  · rfl

end Frame

end Evm
