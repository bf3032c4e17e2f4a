import Evm.Proofs.Instruction.Access
import Evm.Proofs.Ledger.NetEffect
import Evm.Proofs.Machine.Roots

namespace Evm

/-!
# No account comes into being for nothing

From Spurious Dragon on an account that is not there should be there after an execution only if it
has a nonce, a balance or code.  A balance is paid where there is something to pay, a nonce that is
written is not zero, and an account that pays all it has is rooted.  What remains are two ways in
which an empty account does come into being: a contract without a balance that names the account as
its heir, and a message that has the code of another account run on behalf of it.

* `LedgerState.IsTidy` — an account is not there, or it is not empty.
* `Effect.selfDestruct_hands` — what a destruction does to the accounts.
* `Machine.Conjures` — a destruction that leaves nothing to an account that is not there.
* `Machine.tracks_tidy` — all else keeps an account tidy.
* `ExistenceRule` — what this means for an execution.
* `existence_rule` — executions from every ledger are like that.
-/

open Ledger

/-! ### Accounts that are not there, or not empty -/

namespace LedgerState

/-- If the account is there, it has a balance, a nonce or code. -/
def IsTidy (s : LedgerState) (a : Address) : Prop :=
  s.present a = true → s.balance a ≠ 0 ∨ s.IsRooted a

namespace IsTidy

variable {s : LedgerState} {a : Address}

/-- An account with code, nonce or balance is tidy. -/
theorem of_rooted (h : s.IsRooted a) : s.IsTidy a := fun _ => .inr h

/-- So is one that is not there. -/
theorem of_absent (h : s.present a = false) : s.IsTidy a :=
  fun hpresent => absurd (h.symm.trans hpresent) nofun

/-- A write that leaves the account alone. -/
theorem congr {t : LedgerState} (h : s.IsTidy a) (hpresent : t.present a = s.present a)
    (hbalance : t.balance a = s.balance a) (hnonce : t.nonce a = s.nonce a)
    (hcode : t.code a = s.code a) : t.IsTidy a := by
  unfold IsTidy IsRooted
  rw [hpresent, hbalance, hnonce, hcode]
  exact h

/-- A balance that is written is not zero, or the account is rooted. -/
theorem setBalance (h : s.IsTidy a) {b : Address} {balance : Word}
    (hb : b = a → balance ≠ 0 ∨ s.IsRooted a) : (s.setBalance b balance).IsTidy a := by
  by_cases hab : a = b
  · intro _
    rcases hb hab.symm with hbalance | hroot
    · refine .inl ?_
      show Function.update s.balance b balance a ≠ 0
      rw [hab, Function.update_self]
      exact hbalance
    · exact .inr hroot
  · exact h.congr (Function.update_of_ne hab ..) (Function.update_of_ne hab ..) rfl rfl

/-- A nonce that is written is not zero. -/
theorem setNonce (h : s.IsTidy a) (b : Address) {nonce : Nat} (hnonce : nonce ≠ 0) :
    (s.setNonce b nonce).IsTidy a := by
  by_cases hab : a = b
  · refine of_rooted (.inl ?_)
    show Function.update s.nonce b nonce a ≠ 0
    rw [hab, Function.update_self]
    exact hnonce
  · exact h.congr (Function.update_of_ne hab ..) rfl (Function.update_of_ne hab ..) rfl

/-- Code is written where there is a nonce. -/
theorem setCode (h : s.IsTidy a) {b : Address} (code : Bytes) (hb : b = a → s.nonce a ≠ 0) :
    (s.setCode b code).IsTidy a := by
  by_cases hab : a = b
  · exact of_rooted (.inl (hb hab.symm))
  · exact h.congr (Function.update_of_ne hab ..) rfl rfl (Function.update_of_ne hab ..)

/-- Storage plays no part. -/
theorem setStorage (h : s.IsTidy a) (slot : Slot) (value : Word) :
    (s.setStorage slot value).IsTidy a := h

/-- A new contract has a nonce. -/
theorem reset (h : s.IsTidy a) (b : Address) {nonce : Nat} (hnonce : nonce ≠ 0) :
    (s.reset b nonce).IsTidy a :=
  have cleared : (s.clearStorage b).IsTidy a := h
  cleared.setNonce b hnonce

/-- An account that is destroyed is not there. -/
theorem destroyAccount (h : s.IsTidy a) (b : Address) : (s.destroyAccount b).IsTidy a := by
  by_cases hab : a = b
  · refine of_absent ?_
    show Function.update s.present b false a = false
    rw [hab, Function.update_self]
  · exact h.congr (Function.update_of_ne hab ..) (Function.update_of_ne hab ..)
      (Function.update_of_ne hab ..) (Function.update_of_ne hab ..)

/-- A failure leaves a nonce that was raised. -/
theorem afterFailure (h : s.IsTidy a) (m : Message) : (s.afterFailure m).IsTidy a := by
  unfold LedgerState.afterFailure
  split
  · exact h.setNonce m.sender (Nat.succ_ne_zero _)
  · exact h

end IsTidy

/-- A creation leaves its creator rooted, also where that has no nonce left. -/
theorem isRooted_afterFailure (s : LedgerState) {m : Message} (h : m.isCreate = true) :
    (s.afterFailure m).IsRooted m.sender := by
  refine .inl ?_
  unfold LedgerState.afterFailure
  split
  · show Function.update s.nonce m.sender _ m.sender ≠ 0
    rw [Function.update_self]
    exact Nat.succ_ne_zero _
  · rename_i hraised
    have hlimit : Counter.limit ≤ s.nonce m.sender := Nat.not_lt.1 fun hless => hraised ⟨h, hless⟩
    exact Nat.ne_of_gt (Nat.lt_of_lt_of_le (by decide) hlimit)

end LedgerState

variable {L : Type} [Ledger L]

section Lawful

variable [LawfulLedger L] {a : Address}

/-! ### Entering a frame -/

/-- An account that pays is rooted, or has nothing to pay with. -/
def LedgerState.IsGoodFor (s : LedgerState) (a : Address) : Prop := s.IsRooted a ∨ s.balance a = 0

/-- Room for a contract changes nothing about that. -/
theorem LedgerState.IsGoodFor.reset {s : LedgerState} (h : s.IsGoodFor a) (b : Address)
    {nonce : Nat} (hnonce : nonce ≠ 0) : (s.reset b nonce).IsGoodFor a := by
  by_cases hab : a = b
  · refine .inl (.inl ?_)
    show Function.update s.nonce b nonce a ≠ 0
    rw [hab, Function.update_self]
    exact hnonce
  · have same : (s.reset b nonce).nonce a = s.nonce a := Function.update_of_ne hab ..
    rcases h with hroot | hpoor
    · unfold IsGoodFor IsRooted
      rw [same]
      exact .inl hroot
    · exact .inr hpoor

/-- Value that moves leaves the account tidy.  If the account pays, it is good for that, and so it
    stays. -/
theorem LedgerState.IsTidy.transfer {l l' : L} {sender recipient : Address} {value : Word}
    (h : (state l).IsTidy a) (hsender : sender = a → (state l).IsGoodFor a)
    (ht : Ledger.transfer l sender recipient value = .ok l') :
    (state l').IsTidy a ∧ (sender = a → (state l').IsGoodFor a) := by
  by_cases still : value = 0 ∨ sender = recipient
  · rw [transfer_still still ht]
    exact ⟨h, hsender⟩
  · obtain ⟨hvalue, hother⟩ := not_or.1 still
    rcases transfer_cases ht with rfl | ⟨-, hcovered, credited, hsum, rfl⟩
    · exact ⟨h, hsender⟩
    · -- there is something to pay, so an account that is good for it is rooted
      have hroot (hpays : sender = a) : (state l).IsRooted a := by
        refine (hsender hpays).resolve_right fun hpoor => hvalue ?_
        rw [state_balance, ← hpays] at hpoor
        rw [hpoor] at hcovered
        exact BitVec.le_zero_iff.1 hcovered
      -- the sum is no less than what was added, which is something
      have hcredited : credited ≠ 0 := by
        intro hzero
        have hexact := Word.checkedAdd_eq_some_iff.1 hsum
        have zero : (0 : Word).toNat = 0 := rfl
        rw [hzero] at hexact
        exact hvalue (BitVec.eq_of_toNat_eq (by omega))
      rw [LawfulLedger.state_setBalance, LawfulLedger.state_setBalance]
      exact ⟨(h.setBalance fun hpays => .inr (hroot hpays)).setBalance fun _ => .inl hcredited,
        fun hpays => .inl (hroot hpays)⟩

/-- Preparing a frame leaves the account tidy, also where it fails. -/
theorem Local.Prepared.tidy {c : Context} (hfork : .spuriousDragon ≤ c.fork) {m : Message}
    {l l' : L} (hprepared : Prepared c m l l') (h : (state l).IsTidy a)
    (hsender : m.sender = a → m.kind.transfersValue = true → (state l).IsGoodFor a) :
    (state l').IsTidy a := by
  have hfirst : Effect.initialNonce c.fork ≠ 0 := by
    rw [Effect.initialNonce, if_pos hfork]
    exact Nat.one_ne_zero
  have hentered : (state (m.entered c l)).IsTidy a ∧ (m.sender = a →
      m.kind.transfersValue = true → (state (m.entered c l)).IsGoodFor a) := by
    rw [m.state_entered]
    refine ⟨h.afterFailure m, fun hpays hkind => ?_⟩
    cases hcreate : m.isCreate with
    | true => exact .inl (hpays ▸ (state l).isRooted_afterFailure hcreate)
    | false =>
      rw [LedgerState.afterFailure_of_call _ hcreate]
      exact hsender hpays hkind
  -- what is to be known of the account as a sender is kept on the way
  have kept : (state l').IsTidy a ∧ (m.sender = a →
      m.kind.transfersValue = true → (state l').IsGoodFor a) := by
    induction hprepared with
    | refused => exact ⟨h, hsender⟩
    | opened =>
      rw [LawfulLedger.state_snapshot]
      exact hentered
    | cleared _ _ ih =>
      rw [LawfulLedger.state_reset]
      exact ⟨ih.1.reset _ hfirst, fun hpays hkind => (ih.2 hpays hkind).reset _ hfirst⟩
    | moved _ hkind ht ih =>
      obtain ⟨htidy, hgood⟩ := ih.1.transfer (fun hpays => ih.2 hpays hkind) ht
      exact ⟨htidy, fun hpays _ => hgood hpays⟩
  exact kept.1

/-! ### Destructions -/

/-- What the destruction of an account makes of the accounts. -/
inductive LedgerState.Surrenders (s : LedgerState) (own heir : Address) : LedgerState → Prop where
  | burned : heir = own → Surrenders s own heir (s.setBalance own 0)
  | handed {sum : Word} : heir ≠ own → (s.balance heir).checkedAdd (s.balance own) = some sum →
      Surrenders s own heir ((s.setBalance heir sum).setBalance own 0)

omit [Ledger L] [LawfulLedger L] in
/-- Such a destruction leaves the account tidy if the heir of a contract without a balance is
    there. -/
theorem LedgerState.Surrenders.tidy {s t : LedgerState} {own heir : Address}
    (h : s.Surrenders own heir t) (htidy : s.IsTidy a) (hown : own = a → s.IsRooted a)
    (hheir : heir = a → heir ≠ own → s.balance own = 0 → s.present a = true) : t.IsTidy a := by
  cases h with
  | burned _ => exact htidy.setBalance fun howns => .inr (hown howns)
  | @handed sum hother hsum =>
    have hexact := Word.checkedAdd_eq_some_iff.1 hsum
    have zero : (0 : Word).toNat = 0 := rfl
    have hpaid : (s.setBalance heir sum).IsTidy a := by
      refine htidy.setBalance fun hinherits => ?_
      by_cases hpoor : s.balance own = 0
      -- the heir is there with a balance, or gets one
      · -- nothing is added, so the account is as tidy as it was
        have same : sum = s.balance heir := by
          refine BitVec.eq_of_toNat_eq ?_
          rw [hexact, hpoor, zero, Nat.add_zero]
        rw [same, hinherits]
        exact htidy (hheir hinherits hother hpoor)
      · refine .inl fun hzero => hpoor (BitVec.eq_of_toNat_eq ?_)
        rw [hzero] at hexact
        omega
    exact hpaid.setBalance fun howns => .inr (hown howns)

namespace Effect

/-- The balance is handed over. -/
theorem surrender_hands (own heir : Address) {balance : Word} (s : Local L)
    (hbalance : balance = Ledger.balance s.ledger own) :
    Ensures (do
      if heir ≠ own then
        tryLedger (Ledger.tryAddBalance heir balance) .state
      modifyLedger (Ledger.setBalance · own 0))
      (fun _ t => (state s.ledger).Surrenders own heir (state t.ledger))
      (fun t => state t.ledger = state s.ledger) s := by
  have refused (e : StateError) (l : L) (hl : Ledger.tryAddBalance heir balance s.ledger = .error e l) :
      state l = state s.ledger := by rw [Ledger.isAtomic_tryAddBalance _ _ hl]
  refine .ite (fun hother => .bind (.tryLedger (fun _ l hadd => .modifyLedger ?_) refused))
    fun hown => .modifyLedger ?_
  · obtain ⟨sum, hsum, rfl⟩ := Ledger.addBalance_cases (LedgerStep.after_eq_ok_iff.2 hadd)
    rw [LawfulLedger.state_setBalance, LawfulLedger.state_setBalance]
    rw [hbalance] at hsum
    exact .handed hother hsum
  · rw [LawfulLedger.state_setBalance]
    exact .burned (not_not.1 hown)

/-- A destruction hands the balance over to the account that it names. -/
theorem selfDestruct_hands (c : Context) (ancestors : List Frame) (s : Local L) :
    Ensures (selfDestruct c ancestors)
      (fun _ t => (state s.ledger).Surrenders s.frame.address (s.frame.operand 0).toAddress
        (state t.ledger))
      (fun t => state t.ledger = state s.ledger) s := by
  refine .bind (.requireNonStatic (fun _ => ?_) rfl)
  refine .bind (.bind (.onStack (fun w stack hpop => .pure (.frame_bind ?_)) rfl))
  have hfirst : s.frame.operand 0 = w := by
    rw [Frame.operand, Stack.eq_of_pop hpop]
    rfl
  rw [hfirst]
  refine .bind (.of_isQuiet (.accessAccount _ _ _) (fun _ t ht => ?_) fun t ht => ht.ledger.state)
  -- up to here the accounts are as they were
  have same : state t.ledger = state s.ledger := ht.ledger.state
  rw [← same]
  refine .ledger_bind (.ite (fun _ => .bind (.charge (fun gas _ => ?_) rfl)) fun _ => ?_)
  all_goals
    obtain ⟨gas', hrefund⟩ := run_refundDestruction c.fork ancestors _
    exact .bind (.of_run hrefund (.bind (.modifyFrame (surrender_hands _ _ _ rfl))))

end Effect

/-! ### Machines -/

namespace Machine

variable {c : Context} {m m' last x : Machine L}

/-- The top frame is to leave what it has, which is nothing, to the account, which is another one
    and not there. -/
structure Conjures (c : Context) (a : Address) (m : Machine L) : Prop where
  executes : m.Executes c .selfDestruct
  heir : (m.top.operand 0).toAddress = a
  other : a ≠ m.top.address
  balance : Ledger.balance m.ledger m.top.address = 0
  absent : accountExists m.ledger a = false

/-- Code runs on behalf of the account only where that is rooted, and the account pays for a new
    frame only where it is good for that. -/
structure IsSolid (a : Address) (m : Machine L) : Prop where
  own : m.top.address = a → m.top.program.code.bytes ≠ #[] → (state m.ledger).IsRooted a
  payer : m.top.phase = .created → m.top.message.sender = a →
    m.top.message.kind.transfersValue = true → (state m.ledger).IsGoodFor a

/-- A destruction that is next ends the frame and hands the balance over, or it fails and does
    nothing. -/
theorem turn_surrenders {o : Outcome} {s : Local L} {t : Trace} (hturn : m.turn c = (o, s, t))
    (hnext : m.top.nextInstruction c.fork = some .selfDestruct) :
    o = .halted ∧ (state m.ledger).Surrenders m.top.address (m.top.operand 0).toAddress
        (state s.ledger) ∨
      (∃ e, o = .failed e) ∧ state s.ledger = state m.ledger := by
  have hands : Effect.Ensures (Local.paidEffect c m.below .selfDestruct)
      (fun flow u => flow = .halt ∧ (state m.ledger).Surrenders m.top.address
        (m.top.operand 0).toAddress (state u.ledger))
      (fun u => state u.ledger = state m.ledger) m.running := by
    refine .bind (.charge (fun gas _ => ?_) rfl)
    exact .bind ((Effect.selfDestruct_hands c m.below _).mono fun _ _ hu => .pure ⟨rfl, hu⟩)
  rcases Local.turn_ensures hturn hnext hands with ⟨flow, u, ⟨rfl, hu⟩, hfollow⟩ | hfailed
  · cases hfollow
    exact .inl ⟨rfl, hu⟩
  · exact .inr hfailed

/-- A turn leaves the account tidy, unless it conjures it. -/
theorem turn_tidy {o : Outcome} {s : Local L} {t : Trace} (hrun : m.IsRunning)
    (hturn : m.turn c = (o, s, t)) (hsolid : m.IsSolid a) (hidle : ¬ m.Conjures c a)
    (h : (state m.ledger).IsTidy a) : (state s.ledger).IsTidy a := by
  cases hnext : m.top.nextInstruction c.fork with
  | none =>
    rw [(Local.turn_ends hturn hnext).1]
    exact h
  | some i =>
    -- of all instructions only a destruction writes a balance
    by_cases hdestroy : i = .selfDestruct
    · subst hdestroy
      rcases turn_surrenders hturn hnext with ⟨-, hsurrenders⟩ | ⟨-, hsame⟩
      · refine hsurrenders.tidy h (fun howns => hsolid.own howns (Frame.hasCode_of_next hnext)) ?_
        intro hheir hother hpoor
        by_contra habsent
        exact hidle ⟨⟨hrun, hnext⟩, hheir, hheir ▸ hother, hpoor, Bool.not_eq_true _ ▸ habsent⟩
      · rw [hsame]
        exact h
    · rcases turn_did hturn with rfl | ⟨j, hj, hdid⟩
      · exact h
      · obtain rfl : j = i := Option.some.inj (hj.symm.trans hnext)
        cases hdid with
        | quiet hquiet | logged _ _ hquiet _ =>
          rw [hquiet.ledger.state]
          exact h
        | stored key value _ hquiet =>
          rw [LawfulLedger.state_setStorage, hquiet.ledger.state]
          exact h.setStorage _ value
        | destroyed => exact absurd rfl hdestroy

/-- Code is deposited where a creation has left a nonce, so that leaves the account tidy. -/
theorem Course.tidy_deposited (hfork : .spuriousDragon ≤ c.fork) (h : Course c m last)
    (hfresh : m.IsFresh c) (hphase : last.top.phase = .finalizing)
    (hsuccess : (last.topResult c).isSuccess = true) (htidy : (state last.ledger).IsTidy a) :
    (state (last.toLocal.deposited c).2.ledger).IsTidy a := by
  rcases last.toLocal.deposited_ledger c with hsame | ⟨code, hcoded⟩
  · rw [hsame]
    exact htidy
  · cases hcreate : last.toLocal.frame.message.isCreate with
    | false =>
      rw [Local.deposited_of_call c hcreate]
      exact htidy
    | true =>
      rw [hcoded, LawfulLedger.state_setCode]
      refine htidy.setCode code fun howns => ?_
      -- the nonce that the contract started with has only grown since
      obtain ⟨hprepared, hafter⟩ := h.prepared hfresh hphase hsuccess
      have hcreates : m.toLocal.frame.message.isCreate = true :=
        (congrArg Message.isCreate h.message).symm.trans hcreate
      have hfirst := Local.nonce_of_prepared hfork hprepared hcreates
      have hmatures := (hafter.steps.matures m.top.address).nonce
      have hown : m.top.address = a := (congrArg Message.recipient h.message).symm.trans howns
      change (state (m.prepare c).ledger).nonce m.top.address = 1 at hfirst
      rw [hfirst, hown] at hmatures
      exact Nat.ne_of_gt hmatures

/-- All that does not conjure the account leaves it tidy. -/
theorem tracks_tidy (hfork : .spuriousDragon ≤ c.fork) (a : Address) :
    TracksKept c (IsSolid (L := L) a) (Conjures c a)
      fun m m' => (state m.ledger).IsTidy a → (state m'.ledger).IsTidy a where
  refl _ := id
  trans h k htidy := k (h htidy)
  step {m m'} hsolid hidle hstep hstays htidy := by
    -- by the step: only the preparation and the instructions touch the accounts
    cases hstep with
    | prepares hphase =>
      exact (m.toLocal.attempt_prepare_ledger c).tidy hfork htidy (hsolid.payer hphase)
    | enters _ =>
      rw [(m.enter_records c).2.2.2]
      exact htidy
    | continues hrun hturn | ends hrun hturn _ | spawns hrun hturn =>
      exact turn_tidy hrun hturn hsolid hidle htidy
    | pops _ hbelow =>
      rw [hbelow] at hstays
      exact absurd hstays (Nat.not_succ_le_self _)
  kept _ hpopped hsuccess hlife htidy := by
    rw [hpopped.succeeded hsuccess]
    exact hpopped.course.tidy_deposited hfork hpopped.fresh hpopped.handedTo.1 hsuccess
      (hlife htidy)
  undone _ hpopped hfailed htidy := by
    rw [(hpopped.failed (ExecutionResult.status_ne_success hfailed)).1]
    exact htidy.afterFailure _

/-! ### Executions -/

variable {l : L} {message : Message} {observer : Observer}

/-- Once the first frame has been prepared, all machines of the execution are solid, unless code
    runs on behalf of the account that is not its own. -/
theorem Visited.isSolid_of_later (hfork : .spuriousDragon ≤ c.fork)
    (h : Visited c l message observer x) (hlater : x.top.phase = .created → x.below ≠ [])
    (hattached : ¬ (message.IsDetached ∧ message.recipient = a)) : x.IsSolid a where
  own howns hcode := by
    rcases h.rooted hfork hcode with hroot | ⟨hdetached, hfirst⟩
    · exact howns ▸ hroot
    · exact absurd ⟨hdetached, hfirst.symm.trans howns⟩ hattached
  payer hphase hpays hkind := by
    rcases h.payer_rooted hfork hphase hkind with rfl | hroot | ⟨hdetached, hfirst⟩
    · exact absurd rfl (hlater hphase)
    · exact .inl (hpays ▸ hroot)
    · exact absurd ⟨hdetached, hfirst.symm.trans hpays⟩ hattached

/-- If the account holds nothing at the start, also the first machine is. -/
theorem Visited.isSolid (hfork : .spuriousDragon ≤ c.fork) (h : Visited c l message observer x)
    (hpoor : Ledger.balance l a = 0) (hattached : ¬ (message.IsDetached ∧ message.recipient = a)) :
    x.IsSolid a := by
  by_cases hfirst : x = launch c l message observer
  · subst hfirst
    have hstart : state (launch c l message observer).ledger = state l := state_prewarm l _
    refine ⟨fun _ hcode => absurd rfl hcode, fun _ _ _ => .inr ?_⟩
    rw [hstart]
    exact hpoor
  · refine h.isSolid_of_later hfork (fun hphase hbottom => hfirst ?_) hattached
    -- no other frame is put on the stack with none below it
    rcases h.first_or_asked hphase with hsame | ⟨w, child, k, s, t, -, -, -, rfl⟩
    · exact hsame
    · cases hbottom

/-- The destructions at the end leave the account tidy. -/
theorem tidy_swept {s : Local L} (h : (state s.ledger).IsTidy a) (isRoot : Bool)
    (error : Option VmError) : (state (s.swept isRoot error).ledger).IsTidy a := by
  unfold Local.swept
  split
  · show (state (s.frame.selfDestructs.foldl destroyAccount s.ledger)).IsTidy a
    rw [← Array.foldl_toList, state_foldl_destroyAccount]
    refine LedgerState.foldl_destroyAccount_induction (Q := fun s t => s.IsTidy a → t.IsTidy a)
      (fun _ => id) (fun h k htidy => k (h htidy)) (fun b _ s hs => hs.destroyAccount b) _ h
  · exact h

/-- An account that was not there is there after an execution only if it is not empty, unless it is
    conjured up. -/
theorem execute_tidy (hfork : .spuriousDragon ≤ c.fork) (habsent : accountExists l a = false)
    (hpoor : Ledger.balance l a = 0) (hattached : ¬ (message.IsDetached ∧ message.recipient = a))
    (hidle : ∀ x, Visited c l message observer x → x.Conjures c a → ¬ x.Survives c) :
    (state (execute c l message observer).ledger).IsTidy a := by
  have hbefore : (state l).IsTidy a := .of_absent habsent
  by_cases hsuccess : (execute c l message observer).result.isSuccess
  · obtain ⟨last, x, hvisited, -, hphase, hbelow, htop, -, -, hledger⟩ := execute_succeeded hsuccess
    have hcourse := hvisited.course hbelow
    have hheight : last.below.length = 0 := by rw [hbelow]; rfl
    have visited {x : Machine L} (hx : Steps c 0 (launch c l message observer) x) :
        Visited c l message observer x := ⟨hvisited.depth, hx⟩
    -- the first frame is not what undoes anything, so it is a frame further up
    have undone (x : Machine L) (hx : Steps c 0 (launch c l message observer) x)
        (hconjures : x.Conjures c a) : x.IsUndone c 1 :=
      (isUndone_of_not_survives (hidle x (visited hx) hconjures)).above hx hvisited.steps hheight
        hphase htop
    have hstart : state (launch c l message observer).ledger = state l := state_prewarm l _
    have hlast : (state last.ledger).IsTidy a :=
      hcourse.tracks_kept (tracks_tidy hfork a)
        (fun x hx => (visited hx).isSolid hfork hpoor hattached) undone (hstart ▸ hbefore)
    rw [hledger, (finalize_succeeded isFresh_launch hcourse hphase htop).2]
    exact tidy_swept (hcourse.tidy_deposited hfork isFresh_launch hphase htop hlast) _ _
  · rw [failureAtomic_of_lawful.state_execute c l message observer
      (ExecutionResult.status_ne_success hsuccess)]
    split
    · exact hbefore
    · exact hbefore.afterFailure message

end Machine

end Lawful

/-! ### Accounts that are not there hold nothing -/

namespace JournaledLedger

variable {S : Type} [WorldSource S] {source : S} {l : JournaledLedger S} {a : Address}

/-- What a client can have made of a ledger on a world: it calls the ledger as it likes, starts
    transactions and has messages executed. -/
inductive Used (source : S) : JournaledLedger S → Prop where
  | fresh : Used source (.ofSource source)
  | called {l : JournaledLedger S} (call : LedgerCall) : Used source l → Used source (call.apply l)
  | begun {l : JournaledLedger S} : Used source l → Used source l.beginTransaction
  | executed {l : JournaledLedger S} (c : Context) (message : Message) (observer : Observer) :
      Used source l → Used source (execute c l message observer).ledger

/-- A client may call the ledger several times. -/
theorem Used.afterCalls (h : Used source l) (calls : List LedgerCall) :
    Used source (Ledger.afterCalls l calls) := by
  induction calls generalizing l with
  | nil => exact h
  | cons call rest ih => exact ih (h.called call)

/-- If the account is not there, its overlay holds nothing. -/
def HoldsIfPresent (_ : Address) (o : Overlay) : Prop := o.present = false → o.balance = 0

/-- An overlay that is not there holds nothing, whatever is written. -/
theorem keeps_holdsIfPresent (source : S) : Keeps source HoldsIfPresent where
  untouched a hgone := by
    rw [load, ofSource, Std.ExtTreeMap.getElem?_empty] at hgone ⊢
    have hnone : WorldSource.account source a = none :=
      Option.isNone_iff_eq_none.1 (by simpa using hgone)
    exact congrArg (·.elim 0 Account.balance) hnone
  setBalance _ _ _ := nofun
  setNonce _ _ _ := nofun
  setCode _ _ _ := nofun

/-- All that a client does leaves it like that. -/
theorem Used.everywhere (h : Used source l) : Everywhere source HoldsIfPresent l := by
  have hkeeps := keeps_holdsIfPresent source
  induction h with
  | fresh => exact .ofSource source _
  | called call _ ih => exact ih.call hkeeps call (fun _ _ => nofun) fun _ _ _ => rfl
  | begun _ ih => exact ⟨ih.source, ih.present, fun hpast => absurd hpast (Array.not_mem_empty _)⟩
  | executed c message observer _ ih =>
    exact ih.history hkeeps (fun _ _ _ => nofun) (fun _ _ => rfl)
      (Machine.history_execute c _ message observer)

/-- So an account that is not there has no balance. -/
theorem Used.balance_of_absent (h : Used source l) (habsent : accountExists l a = false) :
    Ledger.balance l a = 0 :=
  h.everywhere.load (keeps_holdsIfPresent source) a habsent

end JournaledLedger

/-- Nor has it one on the copying ledger. -/
theorem SnapshotLedger.balance_of_absent {l : SnapshotLedger} {a : Address}
    (habsent : accountExists l a = false) : Ledger.balance l a = 0 := by
  have hnone : l.world.accounts[a]? = none := by
    rw [← Option.isNone_iff_eq_none, ← Option.not_isSome, Bool.not_eq_true',
      ← Std.ExtTreeMap.contains_eq_isSome_getElem?]
    exact habsent
  exact congrArg (·.elim 0 Account.balance) hnone

/-! ### Everywhere -/

/-- An account is tidy if it is not there or not empty. -/
theorem tidy_iff [StandardLedger L] {l : L} {a : Address} :
    (state l).IsTidy a ↔ accountExists l a = false ∨ isEmpty l a = false := by
  have hempty : isEmpty l a = false ↔
      (state l).balance a ≠ 0 ∨ (state l).IsRooted a := by
    unfold LedgerState.IsRooted
    rw [StandardLedger.isEmpty_eq, state_balance, state_nonce, state_code, Bool.and_eq_false_iff,
      Bool.and_eq_false_iff, decide_eq_false_iff_not, decide_eq_false_iff_not,
      Array.isEmpty_eq_false_iff]
    tauto
  rw [hempty, LedgerState.IsTidy, state_present]
  cases accountExists l a with
  | false => exact ⟨fun _ => .inl rfl, fun _ => nofun⟩
  | true => exact ⟨fun h => .inr (h rfl), fun h _ => h.resolve_left nofun⟩

open Machine in
/-- Executions from the ledger, from Spurious Dragon on, bring no empty account into being but in
    two ways: an account that was not there is not there afterwards either, or it is not empty, or
    it is the heir of a contract without a balance whose destruction survives, or the message has
    the code of another account run on behalf of it. -/
def ExistenceRule (l : L) : Prop :=
  ∀ (c : Context) (message : Message) (observer : Observer) (a : Address),
    .spuriousDragon ≤ c.fork → accountExists l a = false →
      let after := (execute c l message observer).ledger
      accountExists after a = false ∨ isEmpty after a = false ∨
        (∃ x, Visited c l message observer x ∧ x.Conjures c a ∧ x.Survives c) ∨
        message.IsDetached ∧ message.recipient = a

/-- The rule holds on every lawful ledger on which absent accounts have no balance. -/
theorem existenceRule_of_lawful [LawfulLedger L] {l : L}
    (hpoor : ∀ a, accountExists l a = false → Ledger.balance l a = 0) : ExistenceRule l := by
  intro c message observer a hfork habsent
  by_cases hconjured : ∃ x, Machine.Visited c l message observer x ∧ x.Conjures c a ∧ x.Survives c
  · exact .inr (.inr (.inl hconjured))
  · by_cases hdetached : message.IsDetached ∧ message.recipient = a
    · exact .inr (.inr (.inr hdetached))
    · have htidy : (state (execute c l message observer).ledger).IsTidy a :=
        Machine.execute_tidy hfork habsent (hpoor a habsent) hdetached
          fun x hx hconjures hsurvives => hconjured ⟨x, hx, hconjures, hsurvives⟩
      rcases tidy_iff.1 htidy with hgone | hnonempty
      · exact .inl hgone
      · exact .inr (.inl hnonempty)

/-- Whatever a client has made of a ledger, and whatever world lies below, executions from it are
    like that. -/
theorem existence_rule :
    (∀ (S : Type) [WorldSource S] (source : S) (l : JournaledLedger S), l.Used source →
        ExistenceRule l) ∧
      ∀ l : SnapshotLedger, ExistenceRule l :=
  ⟨fun _ _ _ _ hused => existenceRule_of_lawful fun _ => hused.balance_of_absent,
    fun _ => existenceRule_of_lawful fun _ => SnapshotLedger.balance_of_absent⟩

/-- A contract with a balance leaves it to an account that is not there.  No destruction of this
    execution leaves nothing, so the heir that it brings into being is not empty. -/
theorem existence_rule_for_heir :
    let c : Context := { precompiles := .none }
    let world := World.setBalance (World.setCode {} 7 #[0x60, 9, 0xff]) 7 5
    let l := JournaledLedger.ofSource world
    let message := Message.call 1 7 0 #[] 100000
    let after := (execute c l message .off).ledger
    l.Used world ∧ .spuriousDragon ≤ c.fork ∧ accountExists l 9 = false ∧
      accountExists after 9 = true ∧ isEmpty after 9 = false := by
  intro c world l message after
  have used : l.Used world := .fresh
  have absent : accountExists l 9 = false := by decide +kernel
  have present : accountExists after 9 = true := by decide +kernel
  have idle (x : Machine (JournaledLedger World)) (hx : Machine.Visited c l message .off x) :
      ¬ x.Conjures c 9 := by
    -- the execution ends after four steps
    have ended : ((Machine.launch c l message .off).after c 4).top.phase = .finalizing := by
      decide +kernel
    have lowest : ((Machine.launch c l message .off).after c 4).below.length = 0 := by
      decide +kernel
    have rich : ∀ n ≤ 4, Ledger.balance ((Machine.launch c l message .off).after c n).ledger
        ((Machine.launch c l message .off).after c n).top.address = 5 ∨
          ((Machine.launch c l message .off).after c n).top.phase = .finalizing := by
      decide +kernel
    obtain ⟨n, hn, rfl⟩ := hx.exists_le fun m' hstep =>
      Machine.phase_ne_finalizing hstep (Nat.le_trans (Nat.le_of_eq lowest) (Nat.zero_le _)) ended
    intro hconjures
    rcases rich n hn with hbalance | hphase
    · exact absurd (hbalance.symm.trans hconjures.balance) (by decide)
    · rcases hconjures.executes.1 with hrunning | hresuming
      · cases hphase.symm.trans hrunning
      · cases hphase.symm.trans hresuming
  refine ⟨used, by decide, absent, present, ?_⟩
  rcases existence_rule.1 World world l used c message .off 9 (by decide) absent with
    hgone | hfilled | ⟨x, hx, hconjures, -⟩ | ⟨hdetached, -⟩
  · exact absurd (hgone.symm.trans present) nofun
  · exact hfilled
  · exact absurd hconjures (idle x hx)
  · exact absurd rfl hdetached.codeAddress

/-- The two ways are there.  A contract without a balance names an heir that is not there, and an
    account that is not there is paid, but the code that runs on behalf of it passes all of that on:
    both accounts are there afterwards, and empty. -/
theorem existence_rule_not_unconditional :
    let c : Context := { precompiles := .none }
    let bequest := JournaledLedger.ofSource (World.setCode {} 7 #[0x60, 9, 0xff])
    let bequeathed := (execute c bequest (.call 1 7 0 #[] 100000) .off).ledger
    let payment := JournaledLedger.ofSource (World.setBalance (World.setCode {} 8
      #[0x60, 0, 0x60, 0, 0x60, 0, 0x60, 0, 0x60, 5, 0x60, 10, 0x61, 0xff, 0xff, 0xf1]) 1 5)
    let message := { Message.call 1 9 5 #[] 100000 with codeAddress := 8 }
    let paid := (execute c payment message .off).ledger
    (.spuriousDragon ≤ c.fork ∧ accountExists bequest 9 = false ∧
      accountExists bequeathed 9 = true ∧ isEmpty bequeathed 9 = true) ∧
      accountExists payment 9 = false ∧ accountExists paid 9 = true ∧ isEmpty paid 9 = true := by
  decide +kernel

end Evm
