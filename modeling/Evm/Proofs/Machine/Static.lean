import Evm.Proofs.Machine.Induction

namespace Evm

/-!
# Static frames change nothing

A frame that may not change state asks for children that may not either, and entering them moves
no value from one account to another.  So nothing that runs on top of such a frame leaves a trace in
the accounts, and there are no records of it.

* `Machine.Stepped.messages` — a frame is put on the stack by one that may ask for it.
* `Frame.IsSilent`, `Frame.IsInert` — a frame that has nothing to show for itself, and stays like
  that.
* `Machine.lasting_silent`, `Machine.lasting_inert` — so is all that it puts on top of itself.
* `Machine.tracks_still` — none of that changes an account.
* `static_frames_inert` — every static frame but the first one is like that.
-/

variable {L : Type} [Ledger L]

/-! ### Where messages come from -/

namespace Machine

variable {c : Context} {l : L} {message : Message} {observer : Observer} {m m' x : Machine L}

/-- A step keeps the messages of all frames, adds one that the top frame may ask for, or drops that
    of the top frame. -/
theorem Stepped.messages (h : Stepped c m m') :
    m'.messages = m.messages ∨
      (∃ child : Message, child.IsChildOf m.top.message ∧ m'.messages = child :: m.messages) ∨
      m'.messages = m.messages.tail := by
  cases h with
  | prepares hphase => exact .inl (messages_prepare c m)
  | enters hphase => exact .inl (messages_enter c m)
  | continues hrun hturn | ends hrun hturn hends =>
    -- the frame keeps its message over a turn
    refine .inl ?_
    show _ :: m.below.map Frame.message = m.top.message :: _
    exact congrArg (· :: _) (turn_message hturn)
  | @spawns child k s t hrun hturn =>
    refine .inr (.inl ⟨child, (turn_onward hturn).2, ?_⟩)
    show child :: s.frame.message :: m.below.map Frame.message = child :: m.top.message :: _
    rw [turn_message hturn]
  | @pops parent below hphase hbelow =>
    refine .inr (.inr ?_)
    show (m.handedTo c parent below).top.message :: below.map Frame.message = m.below.map _
    rw [hbelow, List.map_cons]
    exact congrArg (· :: _) (parent.resume_records _ _).1

/-- Static messages that a frame has asked for move no value between accounts. -/
theorem Visited.harmless (h : Visited c l message observer m) :
    ∀ msg ∈ m.messages.dropLast, msg.isStatic = true → msg.IsHarmless := by
  refine h.invariant (I := fun m : Machine L =>
    ∀ msg ∈ m.messages.dropLast, msg.isStatic = true → msg.IsHarmless) nofun ?_
  intro m m' hm hstep msg hmem static
  -- the messages stay, grow by a child's at the top, or lose the top
  rcases hstep.messages with hsame | ⟨child, hchild, hmore⟩ | hless
  · exact hm msg (hsame ▸ hmem) static
  · -- only the first message of all has not been asked for by a frame
    have hnonempty : m.messages ≠ [] := List.cons_ne_nil _ _
    rw [hmore, List.dropLast_cons_of_ne_nil hnonempty] at hmem
    rcases List.mem_cons.1 hmem with rfl | hold
    · exact hchild.harmless static
    · exact hm msg hold static
  · refine hm msg ?_ static
    rw [hless, ← List.tail_dropLast] at hmem
    exact List.mem_of_mem_tail hmem

end Machine

/-! ### Inert frames -/

/-- A frame that may not change state, and has no records. -/
structure Frame.IsSilent (f : Frame) : Prop where
  isStatic : f.message.isStatic = true
  logs : f.logs = #[]
  selfDestructs : f.selfDestructs = #[]

/-- Silence reads the message, the logs and the registrations. -/
theorem Frame.IsSilent.congr {f g : Frame} (h : f.IsSilent) (hmessage : g.message = f.message)
    (hlogs : g.logs = f.logs) (hdestructs : g.selfDestructs = f.selfDestructs) : g.IsSilent where
  isStatic := hmessage ▸ h.isStatic
  logs := hlogs.trans h.logs
  selfDestructs := hdestructs.trans h.selfDestructs

/-- A frame that may not change state, was entered without changing any, and has no records. -/
structure Frame.IsInert (f : Frame) : Prop where
  isStatic : f.message.isStatic = true
  harmless : f.message.IsHarmless
  logs : f.logs = #[]
  selfDestructs : f.selfDestructs = #[]

/-- An inert frame is silent. -/
theorem Frame.IsInert.silent {f : Frame} (h : f.IsInert) : f.IsSilent :=
  ⟨h.isStatic, h.logs, h.selfDestructs⟩

/-- A silent frame with a harmless message is inert. -/
theorem Frame.IsSilent.inert {f : Frame} (h : f.IsSilent) (harmless : f.message.IsHarmless) :
    f.IsInert :=
  ⟨h.isStatic, harmless, h.logs, h.selfDestructs⟩

namespace Machine

variable {c : Context} {m m' last x : Machine L}

/-- A static frame writes nothing: all that it could write is refused. -/
theorem turn_quiet_of_static {o : Outcome} {s : Local L} {t : Trace} (h : m.turn c = (o, s, t))
    (static : m.top.message.isStatic = true) : m.running.Quiet s := by
  have notWritable : m.running.frame.isStatic ≠ false := Bool.eq_false_iff.not_left.2 static
  rcases turn_did h with rfl | ⟨i, -, hdid⟩
  · exact .refl _
  · cases hdid with
    | quiet hquiet => exact hquiet
    | logged _ writable => exact absurd writable notWritable
    | stored _ _ writable => exact absurd writable notWritable
    | destroyed writable => exact absurd writable notWritable

/-- Silent frames stay silent, and what they put on top of them is silent as well. -/
theorem lasting_silent (c : Context) : Lasting L c Frame.IsSilent where
  prepare {m} _ h := by
    obtain ⟨hmessage, hlogs, hdestructs⟩ := m.prepare_records c
    exact h.congr hmessage hlogs hdestructs
  enter {m} h := by
    obtain ⟨hmessage, hlogs, hdestructs, -⟩ := m.enter_records c
    exact h.congr hmessage hlogs hdestructs
  turn hturn h := by
    have hquiet := turn_quiet_of_static hturn h.isStatic
    exact h.congr hquiet.message hquiet.logs hquiet.selfDestructs
  finish _ h := h.congr rfl rfl rfl
  suspend _ h := h.congr rfl rfl rfl
  child {m child _ _ _} hturn h _ := by
    have hchild : child.IsChildOf m.top.message := (turn_onward hturn).2
    exact ⟨hchild.isStatic h.isStatic, rfl, rfl⟩
  resume {m parent below} h hparent := by
    -- a silent child has no records to hand on
    obtain ⟨hmessage, hlogs, hdestructs⟩ := m.handedTo_records c parent below
    refine hparent.congr hmessage (hlogs.trans ?_) (hdestructs.trans ?_)
    · rw [h.logs, Array.append_empty, ite_self]
    · rw [h.selfDestructs]
      exact ite_self _

/-- Inert frames stay inert, and what they put on top of them is inert as well: a static frame asks
    for harmless children only. -/
theorem lasting_inert (c : Context) : Lasting L c Frame.IsInert where
  prepare {m} hphase h :=
    ((lasting_silent c).prepare hphase h.silent).inert ((m.prepare_records c).1 ▸ h.harmless)
  enter {m} h := ((lasting_silent c).enter h.silent).inert ((m.enter_records c).1 ▸ h.harmless)
  -- an instruction keeps the frame silent, and its message
  turn hturn h := ((lasting_silent c).turn hturn h.silent).inert (turn_message hturn ▸ h.harmless)
  finish error h := ((lasting_silent (L := L) c).finish error h.silent).inert h.harmless
  suspend k h := ((lasting_silent (L := L) c).suspend k h.silent).inert h.harmless
  child {m child _ _ _} hturn h refund := by
    have hchild : child.IsChildOf m.top.message := (turn_onward hturn).2
    have hsilent := (lasting_silent c).child hturn h.silent refund
    exact hsilent.inert (hchild.harmless hsilent.isStatic)
  resume {m parent below} h hparent :=
    ((lasting_silent c).resume h.silent hparent.silent).inert
      ((m.handedTo_records c parent below).1 ▸ hparent.harmless)

end Machine

/-! ### The accounts -/

/-- Value that stays where it is, or is none, moves nothing. -/
theorem Ledger.transfer_still [StandardLedger L] {l l' : L} {sender recipient : Address} {value : Word}
    (h : value = 0 ∨ sender = recipient) (ht : transfer l sender recipient value = .ok l') :
    l' = l := by
  rcases h with rfl | rfl
  · rw [transfer_eq, if_pos rfl] at ht
    exact (Except.ok.inj ht).symm
  · rcases transfer_cases ht with hsame | ⟨hne, -⟩
    · exact hsame
    · exact absurd rfl hne

/-- A harmless message moves nothing either. -/
theorem Local.moved_still [StandardLedger L] {s s' : Local L} (h : s.frame.message.IsHarmless)
    (hmoved : s.moved = .ok s') : s' = s := by
  rcases moved_cases hmoved with hsame | ⟨hkind, l, ht, rfl⟩
  · exact hsame
  · rw [Ledger.transfer_still (h.value hkind) ht]

variable [LawfulLedger L]

/-- The preparation of a harmless message changes no state. -/
theorem Local.state_attempt_prepare (c : Context) {s : Local L}
    (h : s.frame.message.IsHarmless) :
    Ledger.state (s.attempt (Effect.prepare c)).2.ledger = Ledger.state s.ledger := by
  have opened : Ledger.state (s.opened s.ledger).ledger = Ledger.state s.ledger :=
    LawfulLedger.state_snapshot s.ledger
  have call : ¬ s.frame.message.isCreate = true := Bool.eq_false_iff.1 h.isCreate
  unfold attempt
  rw [Effect.run_prepare, if_neg call, Effect.run_prepareCall]
  dsimp only
  -- a harmless message moves nothing, so what is loaded is loaded from the snapshot on
  cases hmoved : (s.opened s.ledger).moved with
  | error e => exact opened
  | ok moved =>
    show Ledger.state (moved.loaded c).ledger = _
    rw [ledger_loaded, moved_still (s := s.opened s.ledger) h hmoved]
    exact opened

omit [LawfulLedger L] in
/-- There is no code to deposit for a frame that was not to create anything. -/
theorem Local.deposited_of_call (c : Context) {s : Local L} (h : s.frame.message.isCreate = false) :
    (s.deposited c).2 = s := by
  unfold deposited
  split
  · rfl
  · rw [if_neg (Bool.eq_false_iff.1 h)]

omit [LawfulLedger L] in
/-- A failure leaves nothing of a frame that was not to create anything. -/
theorem LedgerState.afterFailure_of_call (s : LedgerState) {message : Message}
    (h : message.isCreate = false) : s.afterFailure message = s := by
  unfold afterFailure
  rw [if_neg fun hcreate => Bool.eq_false_iff.1 h hcreate.1]

namespace Machine

variable {c : Context} {m m' last : Machine L}

/-- The top frame may not change state, and if it is yet to be entered, that will not either. -/
structure IsStill (m : Machine L) : Prop where
  isStatic : m.top.message.isStatic = true
  harmless : m.top.phase = .created → m.top.message.IsHarmless

/-- A step of a static frame that is still to be entered without a change leaves the accounts as
    they are, unless it pops the frame. -/
theorem state_of_still (hstill : m.IsStill) (hstep : Stepped c m m')
    (hstays : m.below.length ≤ m'.below.length) :
    Ledger.state m'.ledger = Ledger.state m.ledger := by
  obtain ⟨hphase, hledger⟩ | hsame | ⟨o, s, t, hturn, hledger⟩ := hstep.ledger_cases hstays
  · rw [hledger]
    exact m.toLocal.state_attempt_prepare c (hstill.harmless hphase)
  · rw [hsame]
  · rw [hledger]
    exact (turn_quiet_of_static hturn hstill.isStatic).ledger.state

/-- The end of a frame that was not to create anything leaves the accounts as they are, if the frame
    has done so: there is no code to deposit. -/
theorem Popped.state_of_call (h : Popped c m last m') (call : m.top.message.isCreate = false)
    (hcourse : Ledger.state last.ledger = Ledger.state m.ledger) :
    Ledger.state m'.ledger = Ledger.state m.ledger := by
  by_cases hsuccess : (last.topResult c).isSuccess
  · have same : last.toLocal.frame.message.isCreate = false :=
      (congrArg Message.isCreate h.course.message).trans call
    rw [h.succeeded hsuccess, Local.deposited_of_call c same, ← hcourse]
    rfl
  · have hfailed := ExecutionResult.status_ne_success hsuccess
    rw [(h.failed hfailed).1, LedgerState.afterFailure_of_call _ call]

/-- All that such frames do leaves the accounts as they are.  So does their end, whether they
    succeed or not. -/
theorem tracks_still (c : Context) : Tracks c (IsStill (L := L))
    fun m m' => Ledger.state m'.ledger = Ledger.state m.ledger where
  refl _ := rfl
  trans h k := k.trans h
  step hstill hstep hstays := state_of_still hstill hstep hstays
  popped hstill hpopped hlife :=
    hpopped.state_of_call (hstill.harmless hpopped.fresh.phase).isCreate hlife

/-- Over the course of an inert frame the accounts stay as they are. -/
theorem Course.state_of_inert (h : Course c m m') (hinert : m.top.IsInert) :
    Ledger.state m'.ledger = Ledger.state m.ledger :=
  h.tracks (tracks_still c) fun _ hx =>
    have inert := hx.lasts (lasting_inert c) hinert
    ⟨inert.isStatic, fun _ => inert.harmless⟩

end Machine

/-! ### Executions -/

open Machine in
/-- Ledgers on which static frames change nothing. -/
structure StaticFramesInert (L : Type) [Ledger L] : Prop where
  /-- A frame that was asked for comes to an end. -/
  ends {c : Context} {l : L} {message : Message} {observer : Observer} {m : Machine L} :
    Visited c l message observer m → m.top.phase = .created → m.below ≠ [] →
      ∃ last m', Popped c m last m'
  /-- If it may not change state, the accounts are then as they were when it was put on the
      stack. -/
  state {c : Context} {l : L} {message : Message} {observer : Observer} {m last m' : Machine L} :
    Visited c l message observer m → m.top.message.isStatic = true → Popped c m last m' →
      Ledger.state m'.ledger = Ledger.state m.ledger
  /-- Until then no frame on top of it may change state, creates anything or has any records. -/
  subtree {c : Context} {l : L} {message : Message} {observer : Observer} {m x : Machine L} :
    Visited c l message observer m → m.top.message.isStatic = true → m.top.phase = .created →
      m.below ≠ [] → Steps c m.below.length m x →
      x.top.message.isStatic = true ∧ x.top.message.isCreate = false ∧ x.top.logs = #[] ∧
        x.top.selfDestructs = #[]

namespace Machine

variable {c : Context} {l : L} {message : Message} {observer : Observer} {m last m' : Machine L}

omit [LawfulLedger L] in
/-- A frame that has been asked for is inert when it is put on the stack, if it is static. -/
theorem Visited.inert (h : Visited c l message observer m) (hfresh : m.IsFresh c)
    (hbelow : m.below ≠ []) (static : m.top.message.isStatic = true) : m.top.IsInert := by
  -- a frame above another was asked for, so its message is not the first
  have asked : m.top.message ∈ m.messages.dropLast := by
    have waiting : m.below.map Frame.message ≠ [] := fun h => hbelow (List.map_eq_nil_iff.1 h)
    show m.top.message ∈ (m.top.message :: m.below.map Frame.message).dropLast
    rw [List.dropLast_cons_of_ne_nil waiting]
    exact List.mem_cons_self
  obtain ⟨_, _, htop⟩ := hfresh
  refine ⟨static, h.harmless _ asked static, ?_, ?_⟩
  · rw [htop]
    rfl
  · rw [htop]
    rfl

omit [LawfulLedger L] in
/-- What is popped has something below it. -/
theorem Popped.below_ne_nil (h : Popped c m last m') : m.below ≠ [] := by
  intro hnone
  have hlower := h.popped
  rw [hnone] at hlower
  exact absurd hlower (Nat.not_lt_zero _)

end Machine

/-- All of it together, over every lawful ledger. -/
theorem staticFramesInert_of_lawful : StaticFramesInert L where
  ends hm hphase hbelow := hm.exists_popped (hm.isFresh hphase) hbelow
  state {c l message observer m last m'} hm static hpopped := by
    have inert := hm.inert hpopped.fresh hpopped.below_ne_nil static
    exact hpopped.state_of_call inert.harmless.isCreate (hpopped.course.state_of_inert inert)
  subtree hm static hphase hbelow hsteps := by
    have fresh := hm.inert (hm.isFresh hphase) hbelow static
    have inert := hsteps.lasts (Machine.lasting_inert _) fresh
    exact ⟨inert.isStatic, inert.harmless.isCreate, inert.logs, inert.selfDestructs⟩

/-- On both ledgers, whatever world lies below, no static frame but the first one changes
    anything. -/
theorem static_frames_inert :
    (∀ (S : Type) [WorldSource S], StaticFramesInert (JournaledLedger S)) ∧
      StaticFramesInert SnapshotLedger :=
  ⟨fun _ _ => staticFramesInert_of_lawful, staticFramesInert_of_lawful⟩

/-- A contract asks another one, which may not change state, to write a slot.  The child is put on
    the stack after nine steps; it fails, and nothing has changed when it is popped. -/
theorem static_frames_inert_on_write :
    let c : Context := { precompiles := .none }
    let l := SnapshotLedger.ofWorld (World.setCode (World.setCode {} 8 #[0x60, 1, 0x60, 0, 0x55]) 7
      #[0x60, 0, 0x60, 0, 0x60, 0, 0x60, 0, 0x60, 8, 0x61, 0xff, 0xff, 0xfa])
    let m := (Machine.launch c l (.call 1 7 0 #[] 200000) .off).after c 9
    m.top.message.isStatic = true ∧ m.top.address = 8 ∧
      ∃ last m', Machine.Popped c m last m' ∧ last.top.logs = #[] ∧
        Ledger.state m'.ledger = Ledger.state m.ledger := by
  intro c l m
  have visited : Machine.Visited c l (.call 1 7 0 #[] 200000) .off m :=
    Machine.Visited.iff_after.2 ⟨Nat.zero_le _, 9, rfl⟩
  have static : m.top.message.isStatic = true := by decide +kernel
  have created : m.top.phase = .created := by decide +kernel
  have height : m.below ≠ [] := List.ne_nil_of_length_pos (by decide +kernel)
  obtain ⟨last, m', popped⟩ := static_frames_inert.2.ends visited created height
  exact ⟨static, by decide +kernel, last, m', popped,
    (static_frames_inert.2.subtree visited static created height popped.steps).2.2.1,
    static_frames_inert.2.state visited static popped⟩

end Evm
