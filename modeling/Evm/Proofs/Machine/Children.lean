import Evm.Proofs.Machine.Aborts
import Evm.Proofs.Machine.Origins

namespace Evm

/-!
# Children that are asked for

An instruction asks for a child only if it is not too deep and its sender holds the value.  The
child is prepared later, when its parent waits.  Nothing happens in between, so what was looked up
still holds: a child never fails for its depth or for want of a balance, and a contract is created
where the nonce that is used up leads.

* `Message.IsAffordable` — what is looked up before a child is asked for.
* `Effect.Affords`, `Local.turn_affords` — a child that is asked for can be afforded.
* `Message.BarsChild` — what can keep a child from being prepared all the same.
* `Machine.Visited.topResult_of_child` — what a child ends with in general.
* `SafeChildren` — what this means for the frames of an execution.
* `safe_children` — the frames of all executions are like that.
-/

variable {L : Type} [Ledger L]

/-- The message is not too deep, and its sender holds what it is to pay. -/
structure Message.IsAffordable (c : Context) (m : Message) (l : L) : Prop where
  depth : m.depth ≤ c.config.maxCallDepth
  value : m.kind.transfersValue = true → m.value ≤ Ledger.balance l m.sender

/-! ### Requests -/

/-- A child that is asked for can be afforded. -/
def Flow.IsAffordable (c : Context) (l : L) : Flow → Prop
  | .spawn message _ => message.IsAffordable c l
  | _ => True

namespace Effect

/-- Wherever the effect asks for a child, it can be afforded there. -/
def Affords (c : Context) (e : Effect L Flow) : Prop :=
  ∀ s, Ensures e (fun flow t => flow.IsAffordable c t.ledger) (fun _ => True) s

namespace Affords

variable {α : Type} {c : Context}

/-- An effect on the way, of which nothing is asked. -/
theorem after {e : Effect L α} {k : α → Effect L Flow} (hk : ∀ a, Affords c (k a)) :
    Affords c (e >>= k) := by
  intro s
  have anything : Ensures e (fun _ _ => True) (fun _ => True) s :=
    .of_final (P := fun _ => True) trivial
  exact .bind (anything.mono fun a t _ => hk a t)

/-- Both branches ask only for what can be afforded. -/
theorem ite {p : Prop} [Decidable p] {e e' : Effect L Flow} (he : Affords c e)
    (he' : Affords c e') : Affords c (if p then e else e') :=
  fun s => .ite (fun _ => he s) fun _ => he' s

/-- An effect that only runs in some cases, and what follows it. -/
theorem ite_after {p : Prop} [Decidable p] {e : Effect L Unit} {k : Unit → Effect L Flow}
    (hk : ∀ u, Affords c (k u)) : Affords c (if p then e >>= k else k ()) :=
  ite (after hk) (hk ())

/-- No child is asked for. -/
theorem skipSpawn (reserved : Nat) : Affords c (Effect.skipSpawn reserved : Effect L Flow) :=
  after fun _ => after fun _ _ => .pure trivial

/-- A child is only asked for where it can be had. -/
theorem decided {value : Word} {ask skip : Effect L Flow} {s : Local L}
    (hask : s.frame.message.childDepth ≤ c.config.maxCallDepth →
      value ≤ Ledger.balance s.ledger s.frame.address →
      Ensures ask (fun flow t => flow.IsAffordable c t.ledger) (fun _ => True) s)
    (hskip : Affords c skip) :
    Ensures (do if ← canSpawn c value then ask else skip)
      (fun flow t => flow.IsAffordable c t.ledger) (fun _ => True) s := by
  refine .bind (.frame_bind (.ledger_bind (.pure (.ite (fun hcan => ?_) fun _ => hskip s))))
  rw [Bool.and_eq_true, Bool.or_eq_true, decide_eq_true_iff, decide_eq_true_iff,
    decide_eq_true_iff] at hcan
  obtain ⟨hdepth, hzero | hcovered⟩ := hcan
  · refine hask hdepth ?_
    rw [hzero]
    exact BitVec.le_def.2 (Nat.zero_le _)
  · exact hask hdepth hcovered

/-- A call asks for a child that can be afforded. -/
theorem call (c : Context) (form : CallForm) : Affords c (Effect.call c form : Effect L Flow) := by
  refine after fun (requested, target) => ?_
  refine ite (after fun value => ?_) (after fun value => ?_)
  all_goals
    refine after fun (inOffset, inLen, outOffset, outLen) => ?_
    refine ite_after fun _ => after fun _ => after fun _ => after fun _ => ite_after fun _ => ?_
    refine after fun _ => ite_after fun _ => after fun gasLimit => fun s => ?_
    refine decided (fun hdepth hcovered => ?_) (skipSpawn gasLimit)
    refine .readMemory_bind (.frame_bind (.pure ?_))
    -- one form passes on the value of its parent without paying it, and one has none
    cases form with
    | call | callCode => exact ⟨hdepth, fun _ => hcovered⟩
    | delegateCall => exact ⟨hdepth, nofun⟩
    | staticCall => exact ⟨hdepth, fun _ => BitVec.le_def.2 (Nat.zero_le _)⟩

/-- So does a creation. -/
theorem create (c : Context) (salted : Bool) :
    Affords c (Effect.create c salted : Effect L Flow) := by
  refine after fun _ => after fun (value, offset, size) => ?_
  refine ite (after fun kind => ?_) (after fun kind => ?_)
  all_goals
    refine after fun _ => after fun _ => after fun _ => ite_after fun _ => after fun initCode => ?_
    intro s
    refine .frame_bind (.ledger_bind (.frame_bind (.bind (.charge (fun gas _ => ?_) trivial))))
    -- the creator that is named is the one whose balance is looked up
    exact decided (fun hdepth hcovered => .frame_bind (.pure ⟨hdepth, fun _ => hcovered⟩))
      (skipSpawn _)

/-- So does every instruction. -/
theorem ofInstruction (c : Context) (ancestors : List Frame) (i : Instruction) :
    Affords c (Effect.ofInstruction c ancestors i : Effect L Flow) := by
  -- only the calls and the creations ask for a child
  cases hasks : i.asksForChild with
  | false =>
    intro s
    refine (Gives.own c ancestors hasks s).mono fun flow t hown => ?_
    cases flow with
    | spawn message k => cases hown
    | next | jumped | halt => trivial
  | true =>
    cases i with
    | create | create2 => exact create c _
    | call | callCode | delegateCall | staticCall => exact call c _
    | _ => cases hasks

end Affords

end Effect

/-- A child that a turn waits for can be afforded. -/
theorem Local.turn_affords {c : Context} {ancestors : List Frame} {s t : Local L}
    {trace trace' : Trace} {message : Message} {k : Continuation}
    (h : s.turn c ancestors trace = (.waits message k, t, trace')) :
    message.IsAffordable c t.ledger := by
  cases hnext : s.frame.nextInstruction c.fork with
  | none =>
    -- past the end of the code nothing is asked for
    obtain ⟨-, hends | ⟨e, hends⟩⟩ := turn_ends h hnext
    · cases hends
    · cases hends
  | some i =>
    have paid : Effect.Affords c (paidEffect c ancestors i : Effect L Flow) :=
      .after fun _ => .ofInstruction c ancestors i
    rcases turn_ensures h hnext (paid s) with ⟨flow, u, hflow, hfollow⟩ | ⟨⟨e, hfailed⟩, -⟩
    · cases flow with
      | spawn message' k' =>
        cases hfollow
        exact hflow
      | next | jumped | halt => cases hfollow
    · cases hfailed

/-! ### Preparing a child -/

namespace Message

/-- What can keep a child from being prepared: its creator has no nonce left, its target is in use,
    or its recipient could not hold the sum. -/
inductive BarsChild (m : Message) : VmError → Prop where
  | unnumbered : m.isCreate = true → BarsChild m (.nonceOverflow m.sender)
  | occupied : m.isCreate = true → BarsChild m (.addressCollision m.recipient)
  | full : m.kind.transfersValue = true → m.value ≠ 0 →
      BarsChild m (.state (.balanceOverflow m.recipient))

variable {m : Message} {e : VmError}

/-- Whatever bars a message that can be afforded is of that kind. -/
theorem IsAffordable.barsChild {c : Context} {l : L} (h : m.IsAffordable c l)
    (hbar : m.bar c l = some e) : m.BarsChild e := by
  -- what the frame could not pay for, it has not asked for
  have paid (hpay : m.paymentBar (Ledger.balance l) = some e) : m.BarsChild e := by
    unfold paymentBar at hpay
    split at hpay
    · cases hpay
    · rename_i hmoves
      obtain ⟨hkind, hvalue⟩ := not_or.1 hmoves
      have transfers : m.kind.transfersValue = true := Bool.not_eq_false _ ▸ hkind
      split at hpay
      · rename_i hshort
        exact absurd hshort (BitVec.not_lt.2 (h.value transfers))
      · split at hpay
        · cases hpay
        · split at hpay
          · cases hpay
            exact .full transfers hvalue
          · cases hpay
  unfold bar at hbar
  split at hbar
  · rename_i hcreate
    split at hbar
    · cases hbar
      exact .unnumbered hcreate
    · split at hbar
      · cases hbar
        exact .occupied hcreate
      · exact paid hbar
  · exact paid hbar

end Message

/-- Preparing a creation uses up one nonce of the creator, whatever else comes of it. -/
theorem Local.Prepared.nonce [LawfulLedger L] {c : Context} {m : Message} {l l' : L}
    (h : Prepared c m l l') (hcreate : m.isCreate = true)
    (hroom : Ledger.nonce l m.sender < Counter.limit) :
    Ledger.nonce l' m.sender = Ledger.nonce l m.sender + 1 := by
  have entered : Ledger.nonce (m.entered c l) m.sender = Ledger.nonce l m.sender + 1 := by
    rw [← Ledger.state_nonce, m.state_entered, LedgerState.afterFailure, if_pos ⟨hcreate, hroom⟩]
    exact Function.update_self ..
  induction h with
  | refused hsame =>
    rw [hsame] at entered
    omega
  | opened =>
    rw [← Ledger.state_nonce, LawfulLedger.state_snapshot]
    exact entered
  | @cleared l' _ hfree ih =>
    -- the creator has a nonce by now, so it is not where there is room
    have hother : m.sender ≠ m.recipient := by
      intro hsame
      rw [hsame] at ih
      simp [StandardLedger.isOccupied_eq, ih] at hfree
    rw [← Ledger.state_nonce, LawfulLedger.state_reset]
    exact (Function.update_of_ne hother ..).trans ih
  | moved _ _ ht ih =>
    rcases Ledger.transfer_cases ht with rfl | ⟨-, -, credited, -, rfl⟩
    · exact ih
    · rw [← Ledger.state_nonce, LawfulLedger.state_setBalance, LawfulLedger.state_setBalance]
      exact ih

/-- The failures that looking a child up first is to rule out. -/
def VmError.IsUnaffordable : VmError → Prop
  | insufficientBalance _ _ | callDepthExceeded _ _ => True
  | _ => False

/-- What bars a child is not what was looked up. -/
theorem Message.BarsChild.isAffordable {m : Message} {e : VmError} (h : m.BarsChild e) :
    ¬ e.IsUnaffordable := by
  cases h <;> exact id

/-! ### Machines -/

namespace Machine

variable {c : Context} {l : L} {message : Message} {observer : Observer} {m : Machine L}

/-- A child that is yet to be prepared can be afforded: nothing has happened since it was asked
    for. -/
theorem Visited.isAffordable (h : Visited c l message observer m) (hphase : m.top.phase = .created)
    (hbelow : m.below ≠ []) : m.top.message.IsAffordable c m.ledger := by
  rcases h.first_or_asked hphase with rfl | ⟨w, child, k, s, t, -, -, hturn, rfl⟩
  · exact absurd rfl hbelow
  · exact Local.turn_affords hturn

variable [LawfulLedger L]

/-- A child fails to be prepared for such reasons only. -/
theorem Visited.barsChild (h : Visited c l message observer m) (hphase : m.top.phase = .created)
    (hbelow : m.below ≠ []) {e : VmError} (hfails : (m.prepare c).top.phase = .finalizing)
    (herror : (m.prepare c).top.error = some e) : m.top.message.BarsChild e := by
  rcases m.prepare_bar c with ⟨-, hbar, -⟩ | ⟨hprepared, -⟩
  · exact (h.isAffordable hphase hbelow).barsChild (hbar.symm.trans herror)
  · exact absurd (hprepared.symm.trans hfails) nofun

/-- A child that has come to its end has not failed for what was looked up. -/
theorem Visited.error_of_child (h : Visited c l message observer m)
    (hphase : m.top.phase = .finalizing) (hbelow : m.below ≠ []) {e : VmError}
    (herror : m.top.error = some e) : ¬ e.IsUnaffordable := by
  cases h.steps with
  | refl => cases hphase
  | @tail w _ hsteps hstep _ =>
    have hvisited : Visited c l message observer w := ⟨h.depth, hsteps⟩
    cases step_cases hstep with
    | prepares hcreated =>
      exact (hvisited.barsChild hcreated hbelow hphase herror).isAffordable
    | enters _ =>
      obtain ⟨cause, rfl⟩ := enter_error hphase herror
      exact id
    | continues _ hturn => exact absurd ((turn_phase hturn).symm.trans hphase) nofun
    | @ends o error s t hrun hturn hends =>
      cases hends with
      | halted => cases herror
      | failed cause =>
        obtain rfl : cause = e := Option.some.inj herror
        intro hlooked
        -- no instruction fails like that
        rcases Local.turn_fails hturn with hfault | ⟨rfl, -⟩ | ⟨-, offset, size, rfl, -⟩
        · cases cause <;> first | exact hfault | exact hlooked
        · exact hlooked
        · exact hlooked
    | spawns _ _ => cases hphase
    | pops _ hpop =>
      have hresumes := hvisited.stacked.resumes hpop
      exact absurd (hresumes.symm.trans hphase) nofun

/-- Nor does it fail like that in the end. -/
theorem Visited.topResult_of_child (h : Visited c l message observer m)
    (hphase : m.top.phase = .finalizing) (hbelow : m.below ≠ []) {e : VmError}
    (herror : (m.topResult c).error = some e) : ¬ e.IsUnaffordable := by
  have hfinal : m.toLocal.finalError c m.isRoot = some e :=
    (m.toLocal.finalize_isSound c m.isRoot).2.symm.trans herror
  intro hlooked
  have hother : ¬ e.IsRefusal := by
    intro hrefusal
    cases e <;> first | exact hrefusal | exact hlooked
  exact h.error_of_child hphase hbelow (Local.error_of_finalError hfinal hother) hlooked

end Machine

/-! ### Everywhere -/

open Machine in
/-- The frames on top of others in the execution of a message. -/
structure SafeChildren (c : Context) (l : L) (message : Message) (observer : Observer) : Prop where
  /-- A child that is yet to be prepared is not too deep, and its sender holds the value. -/
  affordable {m : Machine L} : Visited c l message observer m → m.top.phase = .created →
    m.below ≠ [] → m.top.message.IsAffordable c m.ledger
  /-- It is prepared, or it ends with one of three failures. -/
  prepared {m : Machine L} : Visited c l message observer m → m.top.phase = .created →
    m.below ≠ [] → (m.prepare c).top.phase = .prepared ∨
      (m.prepare c).top.phase = .finalizing ∧
        ∃ e, (m.prepare c).top.error = some e ∧ m.top.message.BarsChild e
  /-- No child ever ends with a failure of the other kinds. -/
  ended {m : Machine L} {e : VmError} : Visited c l message observer m →
    m.top.phase = .finalizing → m.below ≠ [] → (m.topResult c).error = some e →
    ¬ e.IsUnaffordable
  /-- A creation without salt goes where the nonce of its creator leads. -/
  address {m : Machine L} : Visited c l message observer m → m.top.phase = .created →
    m.below ≠ [] → m.top.message.kind = .create →
    m.top.address =
      .ofCreate m.top.message.sender (Ledger.nonce m.ledger m.top.message.sender)
  /-- Preparing it uses that nonce up, if there is one left. -/
  raised {m : Machine L} : Visited c l message observer m → m.top.phase = .created →
    m.below ≠ [] → m.top.message.isCreate = true →
    Ledger.nonce m.ledger m.top.message.sender < Counter.limit →
    Ledger.nonce (m.prepare c).ledger m.top.message.sender =
      Ledger.nonce m.ledger m.top.message.sender + 1

open Machine in
/-- Children are safe on every lawful ledger. -/
theorem safeChildren_of_lawful [LawfulLedger L] (c : Context) (l : L) (message : Message)
    (observer : Observer) : SafeChildren c l message observer where
  affordable hm hphase hbelow := hm.isAffordable hphase hbelow
  prepared {m} hm hphase hbelow := by
    rcases m.prepare_bar c with ⟨hfails, herror, hbar⟩ | ⟨hprepared, -⟩
    · obtain ⟨e, he⟩ := Option.ne_none_iff_exists'.1 hbar
      exact .inr ⟨hfails, e, herror.trans he, hm.barsChild hphase hbelow hfails (herror.trans he)⟩
    · exact .inl hprepared
  ended hm hphase hbelow herror := hm.topResult_of_child hphase hbelow herror
  address {m} hm hphase _ hkind := by
    have hcreate : m.top.message.isCreate = true := by rw [Message.isCreate, hkind]; rfl
    rw [(hm.address_eq hphase hcreate).1, Message.origin_of_create hkind]
    rfl
  raised {m} _ _ _ hcreate hroom := (Local.attempt_prepare_ledger c m.toLocal).nonce hcreate hroom

/-- On both ledgers, children are safe in every execution. -/
theorem safe_children (c : Context) (message : Message) (observer : Observer) :
    (∀ (S : Type) [WorldSource S] (l : JournaledLedger S), SafeChildren c l message observer) ∧
      ∀ l : SnapshotLedger, SafeChildren c l message observer :=
  ⟨fun _ _ l => safeChildren_of_lawful c l message observer,
    fun l => safeChildren_of_lawful c l message observer⟩

/-- A contract creates another one and gives it all that it has.  It has used no nonce so far, so
    the new contract is where the first one leads, and the nonce is used up when the frame is
    prepared. -/
theorem safe_children_on_creation :
    let c : Context := { config := { fork := .istanbul }, precompiles := .none }
    let l := SnapshotLedger.ofWorld
      (World.setBalance (World.setCode {} 7 #[0x60, 0, 0x60, 0, 0x60, 5, 0xf0]) 7 5)
    let m := (Machine.launch c l (.call 1 7 0 #[] 100000) .off).after c 6
    Machine.Visited c l (.call 1 7 0 #[] 100000) .off m ∧ m.top.phase = .created ∧ m.below ≠ [] ∧
      m.top.message.IsAffordable c m.ledger ∧ m.top.address = .ofCreate 7 0 ∧
      Ledger.nonce (m.prepare c).ledger 7 = 1 := by
  intro c l m
  have visited : Machine.Visited c l (.call 1 7 0 #[] 100000) .off m :=
    Machine.Visited.iff_after.2 ⟨Nat.zero_le _, 6, rfl⟩
  have phase : m.top.phase = .created := by decide +kernel
  have height : m.below.length = 1 := by decide +kernel
  have nested : m.below ≠ [] := List.ne_nil_of_length_pos (height ▸ Nat.one_pos)
  have plain : m.top.message.kind = .create := by decide +kernel
  have creator : m.top.message.sender = 7 := by decide +kernel
  have unused : Ledger.nonce m.ledger 7 = 0 := by decide +kernel
  have safe := (safe_children c (.call 1 7 0 #[] 100000) .off).2 l
  -- the first account has created nothing yet
  have address := safe.address visited phase nested plain
  have raised := safe.raised visited phase nested (by rw [Message.isCreate, plain]; rfl)
  rw [creator, unused] at address raised
  exact ⟨visited, phase, nested, safe.affordable visited phase nested, address,
    raised (by decide)⟩

end Evm
