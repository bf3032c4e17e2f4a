import Evm.Proofs.Machine.Coupling

namespace Evm.EngineCoupling

/-!
# Two machines in step

Machines that stand at the same place on coupled ledgers take the same step and stand at the same
place again, so what starts alike ends alike.

* `prepare_alike`, `runTop_alike`, `finalize_alike` — the stages of a frame.
* `step_alike` — one step of the machine.
* `runFor_alike`, `execute_alike` — a whole run, and a message.
* `Submission`, `executeAll_alike` — messages one after another.
-/

variable {L₁ L₂ : Type} [Ledger L₁] [Ledger L₂] {C : EngineCoupling L₁ L₂} {c : Context}
  {low₁ low₂ : List Frame} {e : L₁} {e' : L₂}

/-! ### Preparing -/

/-- Twin ledgers are twins still when a message is let in and its snapshot is taken. -/
theorem entered_alike [LawfulLedger L₁] [StandardLedger L₂] {l : L₁} {k : L₂} (h : C.twin l k)
    (m : Message) :
    C.twin (m.entered c l) (m.entered c k) ∧ C.Since l k (m.entered c l) (m.entered c k) := by
  unfold Message.entered
  rw [(C.answers h).nonce]
  split
  · have raised := C.setNonce h m.sender (Ledger.nonce k m.sender + 1)
    have since : C.Since l k _ _ := .setNonce l k m.sender (Ledger.nonce k m.sender + 1)
    dsimp only
    split
    · exact ⟨C.accessAccount raised m.recipient, since.trans (.accessAccount _ _ m.recipient)⟩
    · exact ⟨raised, since⟩
  · exact ⟨h, .refl l k⟩

/-- The frame that an attempt to prepare one leaves. -/
def readied (error : Option VmError) (f : Frame) : Frame :=
  match error with
  | none => { f with phase := .prepared }
  | some e => f.finish (some e)

/-- The same value moves on both sides, or is refused for the same reason. -/
theorem moved_alike [LawfulLedger L₁] [StandardLedger L₂] {s : Local L₁} {t : Local L₂}
    (hmessage : t.frame.message = s.frame.message) (h : C.twin s.ledger t.ledger) :
    (∃ e, s.moved = .error e ∧ t.moved = .error e) ∨
      ∃ l k, s.moved = .ok { s with ledger := l } ∧ t.moved = .ok { t with ledger := k } ∧
        C.twin l k ∧ C.Since s.ledger t.ledger l k := by
  unfold Local.moved
  rw [hmessage]
  dsimp only
  split
  · obtain ⟨e, hl, hk⟩ | ⟨l, k, hl, hk, hnow, hsince⟩ := C.transfer h s.frame.message.sender
      s.frame.message.recipient s.frame.message.value
    · exact .inl ⟨e, by rw [hl]; rfl, by rw [hk]; rfl⟩
    · exact .inr ⟨l, k, by rw [hl]; rfl, by rw [hk]; rfl, hnow, hsince⟩
  · exact .inr ⟨_, _, rfl, rfl, h, .refl _ _⟩

/-- Two places that an attempt to prepare a frame leads to. -/
structure Readied (C : EngineCoupling L₁ L₂) (c : Context) (e : L₁) (e' : L₂)
    (r : Option VmError × Local L₁) (r' : Option VmError × Local L₂) : Prop where
  error : r.1 = r'.1
  message : r.2.frame.message = r'.2.frame.message
  alive : C.Alive c (readied r.1 r.2.frame) (readied r'.1 r'.2.frame) e e' r.2.ledger r'.2.ledger

/-- A call is prepared on both sides, or fails on both. -/
theorem prepareCall_alike [LawfulLedger L₁] [StandardLedger L₂] {f : Frame} (hentry : C.twin e e')
    (hbytes : f.program.code.bytes = #[])
    (hcall : f.message.isCreate = false) (hentitled : C.Entitled e f.message) :
    C.Readied c e e' (Local.attempt ⟨f, e⟩ (Effect.prepare c))
      (Local.attempt ⟨f, e'⟩ (Effect.prepare c)) := by
  have hopened := C.snapshot hentry
  have same : f.message.entered c e = e := f.message.entered_of_call c hcall e
  have same' : f.message.entered c e' = e' := f.message.entered_of_call c hcall e'
  -- what holds of the opened frame whatever comes next
  have stage {f' : Frame} {l : L₁} {k : L₂} (hphase : f'.phase ≠ .created)
      (hmessage : f'.message = f.message) (hsnapshot : f'.snapshot = some (Ledger.snapshot e).1)
      (hsince : C.Since (Ledger.snapshot e).2 (Ledger.snapshot e').2 l k)
      (hwritable : f'.program.code.bytes ≠ #[] → C.Writable l f.address) :
      C.Stage c f' (some (Ledger.snapshot e').1) e e' l k := by
    have hnever (hcreate : f.message.isCreate) :
        C.rooted l f.address ∨ f'.phase = .finalizing ∧ f'.error.isSome := by
      rw [hcall] at hcreate
      cases hcreate
    have hopened : C.Stage c f' (some (Ledger.snapshot (f.message.entered c e')).1) e e' l k :=
      .opened_of_message hmessage hphase (by rw [same, hsnapshot])
        (by rw [same, same']; exact hsince) hnever hwritable
    rwa [same'] at hopened
  unfold Local.attempt
  rw [Effect.run_prepare, Effect.run_prepare, if_neg (by simp [hcall]), if_neg (by simp [hcall]),
    Effect.run_prepareCall, Effect.run_prepareCall]
  dsimp only
  obtain ⟨err, hl, hk⟩ | ⟨l, k, hl, hk, hnow, hsince⟩ := C.moved_alike
    (s := Local.opened ⟨f, e⟩ e) (t := Local.opened ⟨f, e'⟩ e') rfl hopened
  · rw [hl, hk]
    refine ⟨rfl, rfl, rfl, hentry, hopened, stage nofun rfl rfl (.refl _ _) fun h => ?_⟩
    exact absurd hbytes h
  · rw [hl, hk]
    dsimp only
    unfold Local.loaded
    dsimp only
    rw [← (C.answers hnow).code]
    cases hp : c.precompiles.contains c.fork f.message.codeAddress with
    | true =>
      simp only [Local.opened, hp, if_true]
      refine ⟨rfl, rfl, rfl, hentry, hnow, stage nofun rfl rfl hsince fun h => ?_⟩
      exact absurd hbytes h
    | false =>
      simp only [Local.opened, hp, Bool.false_eq_true, if_false]
      refine ⟨rfl, rfl, rfl, hentry, hnow, stage nofun rfl rfl hsince fun h => ?_⟩
      obtain hcreate | hown | hw := hentitled
      · rw [hcall] at hcreate
        cases hcreate
      · -- the code that runs is that of the account that the frame acts on
        exact .inr (hown ▸ h)
      · exact hsince.writable hw.snapshot

/-- A creation is prepared on both sides, or fails on both. -/
theorem prepareCreate_alike [LawfulLedger L₁] [StandardLedger L₂] {f : Frame} (hentry : C.twin e e')
    (hsnapshot : f.snapshot = none) (hbytes : f.program.code.bytes = #[])
    (hcreate : f.message.isCreate = true) :
    C.Readied c e e' (Local.attempt ⟨f, e⟩ (Effect.prepare c))
      (Local.attempt ⟨f, e'⟩ (Effect.prepare c)) := by
  unfold Local.attempt
  rw [Effect.run_prepare, Effect.run_prepare, if_pos hcreate, if_pos hcreate,
    Effect.run_prepareCreate c hcreate, Effect.run_prepareCreate c hcreate]
  dsimp only
  rw [(C.answers hentry).nonce]
  by_cases hnonce : Ledger.nonce e' f.message.sender < Counter.limit
  · obtain ⟨hb, -⟩ := C.entered_alike (c := c) hentry f.message
    have hopened := C.snapshot hb
    rw [if_pos hnonce, if_pos hnonce]
    have hoccupied := C.isOccupied hopened f.message.recipient
    change Ledger.isOccupied (Local.opened ⟨f, e⟩ _).ledger _ =
      Ledger.isOccupied (Local.opened ⟨f, e'⟩ _).ledger _ at hoccupied
    rw [← hoccupied]
    -- what holds of the opened frame whatever comes next
    have stage {f' : Frame} {l : L₁} {k : L₂} (hphase : f'.phase ≠ .created)
        (hmessage : f'.message = f.message)
        (hsnap : f'.snapshot = some (Ledger.snapshot (f.message.entered c e)).1)
        (hsince : C.Since (Ledger.snapshot (f.message.entered c e)).2
          (Ledger.snapshot (f.message.entered c e')).2 l k)
        (hrooted : C.rooted l f.address ∨
          f'.phase = .finalizing ∧ f'.error.isSome ∧ f'.program.code.bytes = #[]) :
        C.Stage c f' (some (Ledger.snapshot (f.message.entered c e')).1) e e' l k := by
      refine .opened_of_message hmessage hphase hsnap hsince
        (fun _ => hrooted.imp id fun h => ⟨h.1, h.2.1⟩) fun h => ?_
      obtain hr | hended := hrooted
      · exact .inl hr
      · exact absurd hended.2.2 h
    cases hocc : Ledger.isOccupied (Local.opened ⟨f, e⟩ (f.message.entered c e)).ledger
      f.message.recipient with
    | true =>
      rw [if_pos rfl, if_pos rfl]
      exact ⟨rfl, rfl, rfl, hentry, hopened, stage nofun rfl rfl (.refl _ _)
        (.inr ⟨rfl, rfl, hbytes⟩)⟩
    | false =>
      rw [if_neg nofun, if_neg nofun]
      -- room is made for the contract, which roots the account
      have hcleared := C.reset hopened f.message.recipient (Effect.initialNonce c.fork) hocc
      have hrooted := C.rooted_reset (Ledger.snapshot (f.message.entered c e)).2 f.message.recipient
        (Effect.initialNonce c.fork)
      have since : C.Since (Ledger.snapshot (f.message.entered c e)).2
        (Ledger.snapshot (f.message.entered c e')).2 _ _ :=
        .reset _ _ f.message.recipient (Effect.initialNonce c.fork)
      obtain ⟨err, hl, hk⟩ | ⟨l, k, hl, hk, hnow, hsince⟩ := C.moved_alike
        (s := (Local.opened ⟨f, e⟩ (f.message.entered c e)).cleared c)
        (t := (Local.opened ⟨f, e'⟩ (f.message.entered c e')).cleared c) rfl hcleared
      · rw [hl, hk]
        exact ⟨rfl, rfl, rfl, hentry, hcleared, stage nofun rfl rfl since (.inl hrooted)⟩
      · rw [hl, hk]
        exact ⟨rfl, rfl, rfl, hentry, hnow, stage nofun rfl rfl (since.trans hsince)
          (.inl (C.rooted_history hsince.left hrooted))⟩
  · rw [if_neg hnonce, if_neg hnonce]
    -- refused before anything has happened
    have same : f.message.entered c e = e := by
      refine if_neg fun h => hnonce ?_
      rw [← (C.answers hentry).nonce]
      exact h.2
    refine ⟨rfl, rfl, rfl, hentry, hentry, ?_⟩
    have stage : C.Stage c (f.finish (some (.nonceOverflow f.message.sender))) none e e' e e' :=
      .refused rfl hsnapshot rfl same
    rwa [← hsnapshot] at stage

/-- So is any frame that has been put on the stack. -/
theorem prepare_alike [LawfulLedger L₁] [StandardLedger L₂] {f g : Frame} {l : L₁} {k : L₂}
    (h : C.Alive c f g e e' l k) (hphase : f.phase = .created) :
    C.Readied c e e' (Local.attempt ⟨f, l⟩ (Effect.prepare c))
      (Local.attempt ⟨g, k⟩ (Effect.prepare c)) := by
  obtain ⟨hframe, hentry, hnow, hstage⟩ := h
  generalize g.snapshot = token at hframe hstage
  cases hstage with
  | refused hended => rw [hphase] at hended; cases hended
  | opened hopen => exact absurd hphase hopen
  | created _ hsnapshot hbytes hentitled =>
    -- neither frame has a snapshot yet
    have same : g = f := by
      rw [hframe, Frame.withSnapshot, ← hsnapshot]
    rw [same]
    cases hkind : f.message.isCreate with
    | false => exact prepareCall_alike hentry hbytes hkind hentitled
    | true => exact prepareCreate_alike hentry hsnapshot hbytes hkind

/-! ### Running -/

/-- Both sides start the code, or both let the same precompiled contract answer. -/
theorem enter_alike {m : Machine L₁} {n : Machine L₂} (h : C.Related c low₁ low₂ e e' m n)
    (hphase : m.top.phase = .prepared) :
    C.Related c low₁ low₂ e e' (m.enter c) (n.enter c) := by
  obtain ⟨htrace, l, k, hbelow, halive⟩ := h
  have hlive : m.top.phase ≠ .created ∧ m.top.phase ≠ .finalizing := by
    rw [hphase]
    exact ⟨nofun, nofun⟩
  -- the two sides look the same address up
  have called : n.calledPrecompile c = m.calledPrecompile c := by
    unfold Machine.calledPrecompile
    rw [halive.frame]
    rfl
  unfold Machine.enter
  rw [called]
  cases m.calledPrecompile c with
  | none =>
    refine ⟨htrace, l, k, hbelow, halive.onward hlive halive.now (.refl _ _) ?_ rfl rfl rfl nofun⟩
    exact congrArg (fun f : Frame => { f with phase := .running }) halive.frame
  | some p =>
    obtain ⟨gas, output, -, heq⟩ := m.top.answered_eq p
    dsimp only
    rw [Local.attempt_runPrecompile, Local.attempt_runPrecompile]
    have hanswer : n.top.answered p =
        ((m.top.answered p).1, (m.top.answered p).2.withSnapshot n.top.snapshot) := by
      rw [← Frame.answered_withSnapshot, ← halive.frame]
    dsimp only [Machine.toLocal]
    rw [hanswer, heq]
    exact ⟨htrace, l, k, hbelow,
      halive.onward hlive halive.now (.refl _ _) rfl rfl rfl rfl nofun⟩

/-- A frame without code ends at once. -/
theorem turn_of_no_code {L : Type} [Ledger L] (ancestors : List Frame) {s : Local L}
    (h : s.frame.program.code.bytes = #[]) (trace : Trace) :
    s.turn c ancestors trace = (.halted, s, trace) := by
  have hnone : s.frame.program.current = none := by simp [Program.current, h]
  rw [Local.turn, hnone]

/-- A turn comes to the same on both sides. -/
theorem turn_alike [LawfulLedger L₁] [StandardLedger L₂] {f g : Frame} {l : L₁} {k : L₂}
    (hframe : g = f.withSnapshot g.snapshot) (hnow : C.twin l k)
    (hwritable : f.program.code.bytes ≠ #[] → C.Writable l f.address)
    {ancestors₁ ancestors₂ : List Frame} (hanc : TwinFrames ancestors₁ ancestors₂)
    (trace : Trace) :
    Local.SameTurn f g.snapshot (fun l' k' => C.twin l' k' ∧ C.Since l k l' k')
      (Local.turn c ancestors₁ ⟨f, l⟩ trace) (Local.turn c ancestors₂ ⟨g, k⟩ trace) := by
  have aligned : Effect.Aligned f g.snapshot (fun l' k' => C.twin l' k' ∧ C.Since l k l' k') 0
      ⟨f, l⟩ ⟨g, k⟩ := ⟨hframe, ⟨rfl, Nat.le_refl _⟩, hnow, .refl l k⟩
  by_cases hbytes : f.program.code.bytes = #[]
  · have hbytes' : g.program.code.bytes = #[] := by
      rw [hframe]
      exact hbytes
    rw [turn_of_no_code ancestors₁ hbytes, turn_of_no_code ancestors₂ hbytes']
    exact .mk trivial aligned
  · exact Local.turn_sameTurn (C.instructionCoupling (hwritable hbytes)) c hanc.any aligned trace

/-- So does the step in which the turn is taken. -/
theorem runTop_alike [LawfulLedger L₁] [StandardLedger L₂] (hlow : TwinFrames low₁ low₂)
    {m : Machine L₁} {n : Machine L₂} (h : C.Related c low₁ low₂ e e' m n)
    (hphase : m.top.phase = .running ∨ m.top.phase = .resuming) :
    C.Related c low₁ low₂ e e' (m.runTop c) (n.runTop c) := by
  obtain ⟨htrace, l, k, hbelow, halive⟩ := h
  have hlive : m.top.phase ≠ .created ∧ m.top.phase ≠ .finalizing := by
    obtain h | h := hphase <;> rw [h] <;> exact ⟨nofun, nofun⟩
  have hwritable := halive.writable hlive
  -- the frame as it runs
  have hrunning : C.Alive c { m.top with phase := .running } { n.top with phase := .running } l k
      m.ledger n.ledger :=
    halive.onward hlive halive.now (.refl _ _)
      (congrArg (fun f : Frame => { f with phase := .running }) halive.frame) rfl rfl rfl nofun
  have same := turn_alike (c := c) hrunning.frame halive.now hwritable (hbelow.twinFrames hlow)
    n.trace
  have halted (h : m.top.program.code.bytes = #[]) := congrArg Prod.fst <|
    turn_of_no_code (c := c) m.below (s := ⟨{ m.top with phase := .running }, m.ledger⟩) h n.trace
  unfold Machine.runTop
  dsimp only
  rw [htrace]
  generalize Local.turn c m.below ⟨{ m.top with phase := .running }, m.ledger⟩ n.trace = r
    at same halted
  generalize Local.turn c n.below ⟨{ n.top with phase := .running }, n.ledger⟩ n.trace = r' at same
  cases same with
  | @mk o s t trace hfrom haligned =>
    obtain ⟨hframe, ⟨hkept, -⟩, hnow, hsince⟩ := haligned
    have hmessage : s.frame.message = m.top.message := congrArg Frame.Activation.message hkept
    have hcode : s.frame.program.code = m.top.program.code := congrArg Frame.Activation.code hkept
    have hsnapshot : s.frame.snapshot = m.top.snapshot := congrArg Frame.Activation.snapshot hkept
    have hrun : s.frame.phase = .running := congrArg Frame.Activation.phase hkept
    -- the frame once the turn is over
    have after (g : Frame → Frame) (hg : ∀ f, (g f).message = f.message ∧
          (g f).program = f.program ∧ (g f).snapshot = f.snapshot)
        (hcomm : g (s.frame.withSnapshot n.top.snapshot) =
          (g s.frame).withSnapshot n.top.snapshot)
        (hphase : (g s.frame).phase ≠ .created) :
        C.Alive c (g s.frame) (g t.frame) l k s.ledger t.ledger := by
      refine halive.onward hlive hnow hsince ?_ ?_ ?_ ?_ hphase
      · rw [hframe]
        exact hcomm
      · rw [(hg _).1, hmessage]
      · rw [(hg _).2.1, hcode]
      · rw [(hg _).2.2, hsnapshot]
    cases o with
    | continues =>
      refine ⟨rfl, l, k, hbelow, after id (fun _ => ⟨rfl, rfl, rfl⟩) rfl ?_⟩
      rw [id, hrun]
      nofun
    | halted =>
      exact ⟨rfl, l, k, hbelow, after (·.finish none) (fun _ => ⟨rfl, rfl, rfl⟩) rfl nofun⟩
    | failed e =>
      exact ⟨rfl, l, k, hbelow, after (·.finish (some e)) (fun _ => ⟨rfl, rfl, rfl⟩) rfl nofun⟩
    | waits message j =>
      -- the frame waits below its child, which begins with the ledgers as they are now
      have hparent := after (fun f => { f with continuation := some j, phase := .suspended })
        (fun _ => ⟨rfl, rfl, rfl⟩) rfl nofun
      have hbytes : m.top.program.code.bytes ≠ #[] := fun h => by cases halted h
      -- a child on the account of its parent may write there because the parent may
      have hentitled : C.Entitled s.ledger message := by
        refine hfrom.account.imp id (Or.imp id fun hown => ?_)
        rw [hown]
        exact hsince.writable (hwritable hbytes)
      refine ⟨rfl, _, _, .frame hbelow hparent rfl, ?_, hnow, hnow, .created rfl rfl rfl hentitled⟩
      simp only [Machine.spawn, hframe]
      rfl

/-! ### Ending -/

/-- Two places of a frame at its end. -/
structure Ending (C : EngineCoupling L₁ L₂) (l : L₁) (k : L₂) (token : Option Nat)
    (r : Option VmError × Local L₁) (r' : Option VmError × Local L₂) : Prop where
  error : r'.1 = r.1
  frame : r'.2.frame = r.2.frame.withSnapshot token
  now : C.twin r.2.ledger r'.2.ledger
  since : C.Since l k r.2.ledger r'.2.ledger

/-- The same code is deposited on both sides, or refused for the same reason. -/
theorem depositCode_alike [LawfulLedger L₁] [StandardLedger L₂] {f : Frame} {token : Option Nat}
    {l : L₁} {k : L₂}
    (hnow : C.twin l k) (hrooted : C.rooted l f.address) :
    C.Ending l k token (Local.attempt ⟨f, l⟩ (Effect.depositCode c))
      (Local.attempt ⟨f.withSnapshot token, k⟩ (Effect.depositCode c)) := by
  unfold Local.attempt
  rw [Effect.run_depositCode, Effect.run_depositCode]
  dsimp only
  rw [Frame.withSnapshot_output, Frame.withSnapshot_gas, Frame.withSnapshot_address]
  -- both make the same checks on the same output and the same gas
  by_cases hreserved : .london ≤ c.fork ∧ f.output[0]? = some 0xef
  · rw [if_pos hreserved, if_pos hreserved]
    exact ⟨rfl, rfl, hnow, .refl l k⟩
  · rw [if_neg hreserved, if_neg hreserved]
    by_cases hsize : .spuriousDragon ≤ c.fork ∧ c.config.maxCodeSize < f.output.size
    · rw [if_pos hsize, if_pos hsize]
      exact ⟨rfl, rfl, hnow, .refl l k⟩
    · rw [if_neg hsize, if_neg hsize]
      cases f.gas.consume (Gas.codeDeposit f.output.size) with
      | ok gas =>
        exact ⟨rfl, rfl, C.setCode hnow f.address f.output hrooted,
          .setCode l k f.output hrooted⟩
      | error e =>
        by_cases hfork : .homestead ≤ c.fork
        · dsimp only
          rw [if_pos hfork, if_pos hfork]
          exact ⟨rfl, rfl, hnow, .refl l k⟩
        · dsimp only
          rw [if_neg hfork, if_neg hfork]
          exact ⟨rfl, rfl, hnow, .refl l k⟩

/-- So a frame is at the same end, whether it is a creation or not. -/
theorem deposited_alike [LawfulLedger L₁] [StandardLedger L₂] {f : Frame} {token : Option Nat}
    {l : L₁} {k : L₂} (hnow : C.twin l k)
    (hrooted : f.message.isCreate → C.rooted l f.address ∨ f.error.isSome) :
    C.Ending l k token (Local.deposited c ⟨f, l⟩)
      (Local.deposited c ⟨f.withSnapshot token, k⟩) := by
  unfold Local.deposited
  rw [Frame.withSnapshot_error, Frame.withSnapshot_message]
  -- a frame with an error deposits nothing
  cases herror : f.error with
  | some err => exact ⟨rfl, rfl, hnow, .refl l k⟩
  | none =>
    dsimp only
    cases hkind : f.message.isCreate with
    | false => exact ⟨rfl, rfl, hnow, .refl l k⟩
    | true =>
      obtain hr | herr := hrooted hkind
      · exact depositCode_alike hnow hr
      · rw [herror] at herr
        cases herr

/-- Twins stay so when the same accounts are destroyed. -/
theorem destroyed_alike [LawfulLedger L₁] [StandardLedger L₂] {l : L₁} {k : L₂} (h : C.twin l k)
    (addresses : List Address) :
    C.twin (addresses.foldl Ledger.destroyAccount l) (addresses.foldl Ledger.destroyAccount k) ∧
      C.Since l k (addresses.foldl Ledger.destroyAccount l)
        (addresses.foldl Ledger.destroyAccount k) := by
  induction addresses generalizing l k with
  | nil => exact ⟨h, .refl l k⟩
  | cons a rest ih =>
    obtain ⟨hnow, hsince⟩ := ih (C.destroyAccount h a)
    exact ⟨hnow, (Since.destroyAccount l k a).trans hsince⟩

/-- The registered accounts are the same on both sides. -/
theorem Ending.swept [LawfulLedger L₁] [StandardLedger L₂] {token : Option Nat} {l : L₁} {k : L₂}
    {r : Option VmError × Local L₁} {r' : Option VmError × Local L₂}
    (h : C.Ending l k token r r') (isRoot : Bool) :
    C.Ending l k token (r.1, r.2.swept isRoot r.1) (r'.1, r'.2.swept isRoot r'.1) := by
  obtain ⟨_, s⟩ := r
  obtain ⟨error, t⟩ := r'
  obtain ⟨herror, hframe, hnow, hsince⟩ := h
  -- the two errors are one, so both sweep or neither does
  dsimp only at herror hframe hnow hsince
  subst herror
  unfold Local.swept
  split
  · have hsame : t.frame.selfDestructs = s.frame.selfDestructs := by
      rw [hframe]
      rfl
    unfold Local.destroyRegistered
    rw [hsame, ← Array.foldl_toList, ← Array.foldl_toList]
    obtain ⟨hnow', hsince'⟩ := destroyed_alike hnow s.frame.selfDestructs.toList
    exact ⟨rfl, hframe, hnow', hsince.trans hsince'⟩
  · exact ⟨rfl, hframe, hnow, hsince⟩

/-- Settling the snapshot leads on from where the frame was put on the stack. -/
theorem Ending.settle [LawfulLedger L₁] [LawfulLedger L₂] {f : Frame} {token : Option Nat} {l : L₁}
    {k : L₂} {r : Option VmError × Local L₁} {r' : Option VmError × Local L₂}
    (h : C.Ending l k token r r') (hentry : C.twin e e') (hstage : C.Stage c f token e e' l k)
    (hphase : f.phase ≠ .created) (hsnapshot : r.2.frame.snapshot = f.snapshot) :
    C.Ending e e' token (r.2.settle r.1) (r'.2.settle r'.1) := by
  obtain ⟨_, s⟩ := r
  obtain ⟨error, t⟩ := r'
  obtain ⟨herror, hframe, hnow, hsince⟩ := h
  dsimp only at herror hframe hnow hsince hsnapshot
  subst herror
  have htoken : t.frame.snapshot = token := by
    rw [hframe]
    rfl
  cases hstage with
  | created hcreated => exact absurd hcreated hphase
  | refused _ hnone =>
    unfold Local.settle
    dsimp only
    rw [hsnapshot, hnone, htoken]
    exact ⟨rfl, hframe, hnow, hsince⟩
  | opened _ hsome hbefore =>
    -- the whole session since the snapshot, which either side can keep or undo
    obtain ⟨hb, hentered⟩ := C.entered_alike (c := c) hentry f.message
    have hwhole := hbefore.trans hsince
    dsimp only
    cases error with
    | none =>
      obtain ⟨l', hl', heq, hstate⟩ := Local.settle_none (hsnapshot.trans hsome) hwhole.left
      obtain ⟨k', hk', heq', -⟩ := Local.settle_none htoken hwhole.right
      rw [heq, heq']
      have since : C.Since (f.message.entered c e) (f.message.entered c e') l' k' := by
        refine ⟨hwhole.left.kept hl', hwhole.right.kept hk', fun {a} hw => ?_⟩
        refine (hwhole.writable hw.snapshot).imp (C.rooted_commit hl') fun hcode => ?_
        have hsame : Ledger.code l' a = Ledger.code s.ledger a :=
          congrArg (LedgerState.code · a) hstate
        rwa [hsame]
      exact ⟨rfl, hframe, C.commit hb hnow hwhole.left hwhole.right hl' hk', hentered.trans since⟩
    | some err =>
      obtain ⟨l', hl', heq, hstate, -⟩ := Local.settle_some err (hsnapshot.trans hsome) hwhole.left
      obtain ⟨k', hk', heq', -⟩ := Local.settle_some err htoken hwhole.right
      rw [heq, heq']
      have since : C.Since (f.message.entered c e) (f.message.entered c e') l' k' :=
        .of_code (hwhole.left.undone hl') (hwhole.right.undone hk') fun a =>
          congrArg (LedgerState.code · a) hstate
      exact ⟨rfl, hframe, C.rollback hb hnow hwhole.left hwhole.right hl' hk',
        hentered.trans since⟩

/-- What the ends of two frames leave. -/
structure Closed (C : EngineCoupling L₁ L₂) (e : L₁) (e' : L₂) (r : ExecutionResult × Local L₁)
    (r' : ExecutionResult × Local L₂) : Prop where
  result : r'.1 = r.1
  gas : r'.2.frame.gas = r.2.frame.gas
  now : C.twin r.2.ledger r'.2.ledger
  since : C.Since e e' r.2.ledger r'.2.ledger

/-- The results are the same. -/
theorem Ending.conclude {token : Option Nat} {r : Option VmError × Local L₁}
    {r' : Option VmError × Local L₂} (h : C.Ending e e' token r r') :
    C.Closed e e' (r.2.conclude r.1) (r'.2.conclude r'.1) := by
  obtain ⟨_, f, l⟩ := r
  obtain ⟨error, g, k⟩ := r'
  obtain ⟨herror, hframe, hnow, hsince⟩ := h
  dsimp only at herror hframe hnow hsince
  subst herror hframe
  dsimp only
  unfold Local.conclude
  cases error with
  | none => exact ⟨rfl, rfl, hnow, hsince⟩
  | some err => cases err <;> exact ⟨rfl, rfl, hnow, hsince⟩

/-- So a frame ends with the same result on both sides. -/
theorem finalize_alike [LawfulLedger L₁] [LawfulLedger L₂] {f g : Frame} {l : L₁} {k : L₂}
    (h : C.Alive c f g e e' l k) (hphase : f.phase = .finalizing) (isRoot : Bool) :
    C.Closed e e' (Local.finalize c isRoot ⟨f, l⟩) (Local.finalize c isRoot ⟨g, k⟩) := by
  obtain ⟨hframe, hentry, hnow, hstage⟩ := h
  generalize g.snapshot = token at hframe hstage
  subst hframe
  have hopen : f.phase ≠ .created := by
    rw [hphase]
    nofun
  -- a creation that was opened has an account of its own, or it has failed
  have hrooted (hcreate : f.message.isCreate) : C.rooted l f.address ∨ f.error.isSome := by
    cases hstage with
    | created hcreated => exact absurd hcreated hopen
    | refused _ _ herror => exact .inr herror
    | opened _ _ _ hrooted => exact (hrooted hcreate).imp id And.right
  have hdeposited : C.Ending l k token _ _ := deposited_alike (c := c) hnow hrooted
  have hkept := Local.swept_snapshot c isRoot ⟨f, l⟩ (Local.deposited c ⟨f, l⟩).1
  have hclosed := ((hdeposited.swept isRoot).settle hentry hstage hopen hkept).conclude
  exact ⟨hclosed.result, hclosed.gas, hclosed.now, hclosed.since⟩

/-! ### Steps -/

/-- Two executions that have come to the same. -/
structure SameExecution (C : EngineCoupling L₁ L₂) (x : Execution L₁) (y : Execution L₂) :
    Prop where
  result : x.result = y.result
  trace : x.trace = y.trace
  ledger : C.twin x.ledger y.ledger

/-- Two steps that lead to the same, unless they leave the lowest frames of concern. -/
inductive SameProgress (C : EngineCoupling L₁ L₂) (c : Context) (low₁ low₂ : List Frame) (e : L₁)
    (e' : L₂) : Progress L₁ → Progress L₂ → Prop where
  | running {m : Machine L₁} {n : Machine L₂} :
      (low₁.length ≤ m.below.length → C.Related c low₁ low₂ e e' m n) →
      SameProgress C c low₁ low₂ e e' (.running m) (.running n)
  | done {x : Execution L₁} {y : Execution L₂} : C.SameExecution x y →
      SameProgress C c low₁ low₂ e e' (.done x) (.done y)
  | stuck : SameProgress C c low₁ low₂ e e' .stuck .stuck

/-- The step that prepares a frame keeps both sides together. -/
theorem prepareTop_alike [LawfulLedger L₁] [StandardLedger L₂] {m : Machine L₁} {n : Machine L₂}
    (h : C.Related c low₁ low₂ e e' m n) (hphase : m.top.phase = .created) :
    C.Related c low₁ low₂ e e' (m.prepare c) (n.prepare c) := by
  obtain ⟨htrace, l, k, hbelow, halive⟩ := h
  have hready := prepare_alike halive hphase
  have hdepth : n.top.depth = m.top.depth := congrArg Message.depth halive.message
  refine ⟨?_, l, k, hbelow, hready.alive⟩
  unfold Machine.prepare
  dsimp only [Machine.toLocal]
  rw [htrace, hdepth, hready.message]

/-- The result of the top frame goes to its parent, which the ledgers have come along with. -/
theorem finalizeTop_alike [LawfulLedger L₁] [LawfulLedger L₂] (hlow : TwinFrames low₁ low₂)
    {m : Machine L₁} {n : Machine L₂} (h : C.Related c low₁ low₂ e e' m n)
    (hphase : m.top.phase = .finalizing) :
    C.SameProgress c low₁ low₂ e e' (m.finalizeTop c) (n.finalizeTop c) := by
  obtain ⟨htrace, l, k, hbelow, halive⟩ := h
  have hroot : n.isRoot = m.isRoot := by
    have htwins := hbelow.twinFrames hlow
    unfold Machine.isRoot
    generalize m.below = fs at htwins
    generalize n.below = gs at htwins
    cases htwins <;> rfl
  have hclosed := finalize_alike halive hphase m.isRoot
  unfold Machine.finalizeTop
  rw [hroot]
  dsimp only [Machine.toLocal]
  generalize Local.finalize c m.isRoot ⟨m.top, m.ledger⟩ = r at hclosed
  generalize Local.finalize c m.isRoot ⟨n.top, n.ledger⟩ = r' at hclosed
  obtain ⟨hresult, hgas, hnow, hsince⟩ := hclosed
  rw [hresult, hgas, htrace]
  generalize m.below = fs at hbelow
  generalize n.below = gs at hbelow
  cases hbelow with
  | base =>
    -- the frame of concern is popped: the run is over, or it leaves the frames of concern
    cases hlow with
    | nil => exact .done ⟨rfl, rfl, hnow⟩
    | cons _ _ => exact .running fun h => absurd h (Nat.not_succ_le_self _)
  | @frame f g fs gs l₁ _ k₁ _ hbelow hparent hwaits =>
    -- the parent takes in the result; for it, the life of its child is one history
    have resumed := f.resumed_resume r.2.frame.gas r.1
    have hlive : f.phase ≠ .created ∧ f.phase ≠ .finalizing := by
      rw [hwaits]
      exact ⟨nofun, nofun⟩
    have hnext : (f.resume r.2.frame.gas r.1).phase ≠ .created := by
      obtain ⟨hp, -⟩ | ⟨hp, -⟩ := resumed.phase <;> rw [hp] <;> nofun
    refine .running fun _ => ⟨rfl, l₁, k₁, hbelow, hparent.onward hlive hnow hsince ?_
      resumed.message (congrArg Program.code resumed.program) resumed.snapshot hnext⟩
    rw [← Frame.resume_withSnapshot, ← hparent.frame]

/-- Machines that stand at the same place take the same step. -/
theorem step_alike [LawfulLedger L₁] [LawfulLedger L₂] (hlow : TwinFrames low₁ low₂)
    {m : Machine L₁} {n : Machine L₂} (h : C.Related c low₁ low₂ e e' m n) :
    C.SameProgress c low₁ low₂ e e' (m.step c) (n.step c) := by
  have hphase : n.top.phase = m.top.phase := by
    obtain ⟨-, l, k, -, halive⟩ := h
    rw [halive.frame]
    rfl
  -- the phases agree, so both machines take the same kind of step
  unfold Machine.step
  rw [hphase]
  cases hp : m.top.phase with
  | created => exact .running fun _ => prepareTop_alike h hp
  | prepared => exact .running fun _ => enter_alike h hp
  | running => exact .running fun _ => runTop_alike hlow h (.inl hp)
  | resuming => exact .running fun _ => runTop_alike hlow h (.inr hp)
  | finalizing => exact finalizeTop_alike hlow h hp
  | suspended => exact .stuck
  | done => exact .stuck

/-! ### Runs -/

/-- Machines that are cut off have come to the same. -/
theorem cutOff_alike {m : Machine L₁} {n : Machine L₂} (h : C.Related c [] [] e e' m n) :
    C.SameExecution m.cutOff n.cutOff := by
  obtain ⟨htrace, l, k, hbelow, halive⟩ := h
  have hmessage := (hbelow.twinFrames .nil).message_getLastD halive.message
  refine ⟨?_, htrace, halive.now⟩
  unfold Machine.cutOff
  dsimp only
  rw [hmessage]

/-- Both sides come to the same in any number of steps. -/
theorem runFor_alike [LawfulLedger L₁] [LawfulLedger L₂] (fuel : Nat) {m : Machine L₁}
    {n : Machine L₂} (h : C.Related c [] [] e e' m n) :
    C.SameExecution (Machine.runFor c fuel m) (Machine.runFor c fuel n) := by
  induction fuel generalizing m n with
  | zero => exact cutOff_alike h
  | succ fuel ih =>
    have hstep := step_alike .nil h
    unfold Machine.runFor
    generalize m.step c = p at hstep
    generalize n.step c = q at hstep
    cases hstep with
    | running hnext => exact ih (hnext (Nat.zero_le _))
    | done hsame => exact hsame
    | stuck => exact cutOff_alike h

/-- Both sides start together. -/
theorem start_alike {l : L₁} {k : L₂} (h : C.twin l k) {message : Message}
    (hentitled : C.Entitled l message) (t : Trace) :
    C.Related c [] [] l k (Machine.start c l t message) (Machine.start c k t message) :=
  ⟨rfl, l, k, .base, rfl, h, h, .created rfl rfl rfl hentitled⟩

/-- The same accounts count as accessed from the start. -/
theorem prewarmed_alike {l : L₁} {k : L₂} (h : C.twin l k) (addresses : List Address) :
    C.twin (addresses.foldl (fun l a => (Ledger.accessAccount l a).2) l)
      (addresses.foldl (fun l a => (Ledger.accessAccount l a).2) k) := by
  induction addresses generalizing l k with
  | nil => exact h
  | cons a rest ih => exact ih (C.accessAccount h a)

/-- A message comes to the same on twin ledgers. -/
theorem execute_alike [LawfulLedger L₁] [LawfulLedger L₂] (c : Context) {l : L₁} {k : L₂}
    (h : C.twin l k) {message : Message} (hentitled : ∀ l, C.Entitled l message)
    (observer : Observer) :
    C.SameExecution (execute c l message observer) (execute c k message observer) := by
  -- the target of a creation comes from the nonce of its sender, on which both agree
  have same : message.resolve k = message.resolve l := by
    unfold Message.resolve
    rw [(C.answers h).nonce]
  have resolved (l' : L₁) : C.Entitled l' (message.resolve l) := by
    unfold Message.resolve
    split
    · exact .inr (.inl rfl)
    · exact .inr (.inl rfl)
    · exact hentitled l'
  unfold execute
  dsimp only
  split
  · exact ⟨rfl, rfl, h⟩
  · rw [same]
    have hrun := runFor_alike (Machine.fuel (message.resolve l)) (start_alike (c := c)
      (prewarmed_alike h (prewarmed c (message.resolve l))) (resolved _) { toObserver := observer })
    have hresult := congrArg (fun r : ExecutionResult =>
      r.withGrantedRefund c.fork (message.resolve l).gasLimit) hrun.result
    exact ⟨hresult, hrun.trace, hrun.ledger⟩

end Evm.EngineCoupling

namespace Evm

/-! ### One transaction after another -/

/-- A message with what it runs under and how much of it is traced. -/
structure Submission where
  context : Context
  message : Message
  observer : Observer := {}

variable {L₁ L₂ : Type} [Ledger L₁] [Ledger L₂]

/-- Runs a message on a ledger. -/
def Submission.execute (s : Submission) (l : L₁) : Execution L₁ :=
  Evm.execute s.context l s.message s.observer

/-- Messages one after another on one ledger, each as a transaction of its own. -/
def executeAll (begin : L₁ → L₁) : L₁ → List Submission → List (Execution L₁)
  | _, [] => []
  | l, s :: rest =>
    let x := s.execute (begin l)
    x :: executeAll begin x.ledger rest

/-- Messages one after another come to the same on twin ledgers. -/
theorem EngineCoupling.executeAll_alike [LawfulLedger L₁] [LawfulLedger L₂]
    (C : EngineCoupling L₁ L₂) {begin₁ : L₁ → L₁} {begin₂ : L₂ → L₂}
    (hbegin : ∀ {l k}, C.twin l k → C.twin (begin₁ l) (begin₂ k)) {submissions : List Submission}
    (hentitled : ∀ s ∈ submissions, ∀ l, C.Entitled l s.message) {l : L₁} {k : L₂}
    (h : C.twin l k) :
    List.Forall₂ C.SameExecution (executeAll begin₁ l submissions)
      (executeAll begin₂ k submissions) := by
  induction submissions generalizing l k with
  | nil => exact .nil
  | cons s rest ih =>
    have hsame := execute_alike s.context (hbegin h) (hentitled s List.mem_cons_self) s.observer
    have hrest := ih (fun t ht => hentitled t (List.mem_cons_of_mem s ht)) hsame.ledger
    exact .cons hsame hrest

end Evm
