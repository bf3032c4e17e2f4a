import Evm.Proofs.Machine.Aborts
import Evm.Proofs.Machine.Existence

namespace Evm

/-!
# What the price of a new account buys

A call and a destruction pay for an account that is not there, and from Spurious Dragon on for one
that is empty.  If the call brings value and its child succeeds, or the destruction goes through,
the account is there at once.  It stays as long as no frame is rolled back that was under way then,
and from Spurious Dragon on it does not become empty either, since an account that pays is rooted.
So it is not paid for as a new one again.

* `Machine.PaysFor` — the next instruction has to pay for the account as a new one.
* `Machine.Buys` — it does, and what it has paid for comes about.
* `Machine.Endures` — of the frames under way none is rolled back.
* `LedgerState.IsBought` — the account is there, and not empty where that matters.
* `Machine.Endures.keeps` — what frames keep lasts as long as none of those under way is rolled
  back.
* `NewAccountRule` — accounts that are bought are there, and are not bought again.
* `new_account_rule` — executions from every ledger are like that.
-/

open Ledger

/-! ### Accounts that come and stay -/

namespace LedgerState

/-- The account is there, and if that is asked for it is not empty. -/
structure IsBought (strict : Prop) (s : LedgerState) (a : Address) : Prop where
  present : s.present a = true
  tidy : strict → s.IsTidy a

/-- No account goes, and what is not there holds what it held. -/
structure Grows (s t : LedgerState) : Prop where
  present (a : Address) : s.present a = true → t.present a = true
  absent (a : Address) : t.present a = false → t.balance a = s.balance a

namespace Grows

variable {s t u : LedgerState}

/-- Nothing is lost where nothing is done. -/
theorem refl (s : LedgerState) : Grows s s := ⟨fun _ => id, fun _ _ => rfl⟩

/-- What grows twice grows. -/
theorem trans (h : Grows s t) (k : Grows t u) : Grows s u where
  present a ha := k.present a (h.present a ha)
  absent a ha := by
    have gone : t.present a = false := by
      rw [Bool.eq_false_iff]
      intro hthere
      exact absurd (ha.symm.trans (k.present a hthere)) nofun
    exact (k.absent a ha).trans (h.absent a gone)

/-- An account is written, and is there afterwards. -/
theorem of_update (b : Address) (hpresent : t.present = Function.update s.present b true)
    (hbalance : ∀ a, a ≠ b → t.balance a = s.balance a) : Grows s t where
  present a ha := by
    rw [hpresent, Function.update_apply]
    split
    · rfl
    · exact ha
  absent a ha := by
    refine hbalance a fun hab => ?_
    rw [hpresent, hab, Function.update_self] at ha
    cases ha

/-- Code brings an account into being. -/
theorem setCode (s : LedgerState) (b : Address) (code : Bytes) : Grows s (s.setCode b code) :=
  .of_update b rfl fun _ _ => rfl

/-- All that frames do to accounts is like that. -/
theorem closed (own : Address) : ClosedUnderFrame own Grows where
  refl := refl
  trans := trans
  setBalance _ b _ := .of_update b rfl fun _ hab => Function.update_of_ne hab ..
  raiseNonce _ b := .of_update b rfl fun _ _ => rfl
  setStorage _ _ _ := ⟨fun _ => id, fun _ _ => rfl⟩
  reset _ _ _ := .of_update own rfl fun _ _ => rfl

end Grows

/-- Who is paid something is there then, and not empty. -/
theorem isBought_pay {s : LedgerState} {strict : Prop} {sender recipient : Address} {value : Word}
    (hpoor : s.balance recipient = 0) (hvalue : value ≠ 0) (hother : sender ≠ recipient) :
    (s.pay sender recipient value).IsBought strict recipient := by
  rw [pay, if_neg (not_or.2 ⟨hvalue, hother⟩)]
  refine ⟨Function.update_self .., fun _ _ => .inl ?_⟩
  show Function.update (Function.update s.balance sender _) recipient _ recipient ≠ 0
  rw [Function.update_self, hpoor]
  simpa using hvalue

/-- The heir of a contract is there then, and not empty if there was something to leave to it. -/
theorem Surrenders.isBought {s t : LedgerState} {strict : Prop} {own heir : Address}
    (h : s.Surrenders own heir t) (hrich : strict → heir ≠ own ∧ s.balance own ≠ 0) :
    t.IsBought strict heir := by
  cases h with
  | burned hown =>
    refine ⟨?_, fun hstrict => absurd hown (hrich hstrict).1⟩
    rw [hown]
    exact Function.update_self ..
  | @handed sum hother hsum =>
    refine ⟨?_, fun hstrict _ => .inl fun hzero => (hrich hstrict).2 ?_⟩
    · show Function.update (Function.update s.present heir true) own true heir = true
      rw [Function.update_of_ne hother, Function.update_self]
    · -- the sum is no less than what was added
      change Function.update (Function.update s.balance heir sum) own 0 heir = 0 at hzero
      rw [Function.update_of_ne hother, Function.update_self] at hzero
      have hexact := Word.checkedAdd_eq_some_iff.1 hsum
      have zero : (0 : Word).toNat = 0 := rfl
      rw [hzero] at hexact
      exact BitVec.eq_of_toNat_eq (by omega)

end LedgerState

variable {L : Type} [Ledger L]

/-! ### The price -/

/-- An account that is there and not empty is not dead. -/
theorem Ledger.isDead_of_bought [StandardLedger L] {l : L} {a : Address}
    (h : (state l).IsBought True a) : isDead l a = false := by
  have hthere : accountExists l a = true := h.present
  have hfilled : isEmpty l a = false := by
    refine (tidy_iff.1 (h.tidy trivial)).resolve_left fun hgone => ?_
    exact absurd (hgone.symm.trans hthere) nofun
  rw [StandardLedger.isDead_eq, hthere, hfilled]
  rfl

/-- If accounts that are not there hold nothing, no dead account holds anything. -/
theorem Ledger.balance_of_isDead [StandardLedger L] {l : L} {a : Address}
    (hpoor : accountExists l a = false → balance l a = 0) (h : isDead l a = true) :
    balance l a = 0 := by
  rw [StandardLedger.isDead_eq, StandardLedger.isEmpty_eq] at h
  rcases Bool.or_eq_true_iff.1 h with hgone | hempty
  · exact hpoor (Bool.not_eq_true' _ ▸ hgone)
  · simp only [Bool.and_eq_true, decide_eq_true_eq] at hempty
    exact hempty.1.2

namespace Effect

variable [StandardLedger L] {fork : Fork} {l : L} {a : Address}

/-- What is there, and not empty from Spurious Dragon on, is no new account to a call. -/
theorem targetIsNew_of_bought (h : (state l).IsBought (.spuriousDragon ≤ fork) a) (value : Word) :
    targetIsNew fork l a value = false := by
  unfold targetIsNew
  split
  · rename_i hfork
    rw [Ledger.isDead_of_bought ⟨h.present, fun _ => h.tidy hfork⟩, Bool.and_false]
  · rw [show accountExists l a = true from h.present]
    rfl

/-- Nor is it to a destruction. -/
theorem beneficiaryIsNew_of_bought (h : (state l).IsBought (.spuriousDragon ≤ fork) a)
    (balance : Word) : beneficiaryIsNew fork l a balance = false := by
  unfold beneficiaryIsNew
  split
  · rename_i hfork
    rw [Ledger.isDead_of_bought ⟨h.present, fun _ => h.tidy hfork⟩, Bool.false_and]
  · split
    · rw [show accountExists l a = true from h.present]
      rfl
    · rfl

/-- A new account holds nothing yet. -/
theorem balance_of_targetIsNew (hpoor : accountExists l a = false → Ledger.balance l a = 0)
    {value : Word} (h : targetIsNew fork l a value = true) : Ledger.balance l a = 0 := by
  unfold targetIsNew at h
  split at h
  · exact Ledger.balance_of_isDead hpoor (Bool.and_eq_true_iff.1 h).2
  · exact hpoor (Bool.not_eq_true' _ ▸ h)

/-- From Spurious Dragon on, a contract pays for its heir only if there is something to leave to
    it, and the heir is another account. -/
theorem rich_of_beneficiaryIsNew (hpoor : accountExists l a = false → Ledger.balance l a = 0)
    {own : Address} (h : beneficiaryIsNew fork l a (Ledger.balance l own) = true)
    (hfork : .spuriousDragon ≤ fork) : a ≠ own ∧ Ledger.balance l own ≠ 0 := by
  rw [beneficiaryIsNew, if_pos hfork] at h
  obtain ⟨hdead, hrich⟩ := Bool.and_eq_true_iff.1 h
  have hleft : Ledger.balance l own ≠ 0 := of_decide_eq_true hrich
  exact ⟨fun hown => hleft (hown ▸ Ledger.balance_of_isDead hpoor hdead), hleft⟩

end Effect

/-! ### Requests -/

/-- A call that is asked for is the one that the operands name. -/
def Flow.IsCallOf (form : Effect.CallForm) (parent : Message) (target : Address) (value : Word) :
    Flow → Prop
  | .spawn message _ => ∃ input gasLimit, message = form.message parent target value input gasLimit
  | _ => True

namespace Effect

/-- A call with its operands at hand asks for a child of its form. -/
theorem placeCall_asks (c : Context) (form : CallForm) (requested : Word) (target : Address)
    (value : Word) (s : Local L) :
    Ensures (placeCall c form requested target value)
      (fun flow t => s.Quiet t ∧ flow.IsCallOf form s.frame.message target value) (fun _ => True)
      s := by
  have fails (u : Local L) (_ : s.Quiet u) : True := trivial
  refine .quiet_bind (.onStack Stack.pop4) (.refl s) fails fun _ t ht => ?_
  -- the preparation of the operands changes no state, up to the check that decides
  refine .quiet_ite_bind .requireNonStatic ht fails fun _ t ht => ?_
  refine .quiet_bind (.accessAccount _ _ _) ht fails fun _ t ht => ?_
  refine .quiet_bind (.extendMemory _ _) ht fails fun _ t ht => ?_
  refine .quiet_bind (.extendMemory _ _) ht fails fun _ t ht => ?_
  refine .quiet_ite_bind (.charge _) ht fails fun _ t ht => .ledger_bind ?_
  refine .quiet_ite_bind (.charge _) ht fails fun _ t ht => ?_
  refine .quiet_bind (.reserveCallGas c requested value) ht fails fun gasLimit t ht => ?_
  refine .quiet_bind (.canSpawn c value) ht fails fun _ t ht => .ite (fun _ => ?_) fun _ => ?_
  -- the message is built from the frame's own message, which none of this has touched
  · have same (input : Bytes) : form.message t.frame.message target value input gasLimit =
        form.message s.frame.message target value input gasLimit := by rw [ht.message]
    exact .readMemory_bind (.frame_bind (.pure ⟨ht, _, gasLimit, same _⟩))
  · refine .quiet_bind (.modifyFrame fun _ => ⟨rfl, rfl, rfl, rfl⟩) ht fails fun _ t ht => ?_
    exact .quiet_bind (.push 0) ht fails fun _ t ht => .pure ⟨ht, trivial⟩

/-- A call asks for a child with the target and the value of its operands. -/
theorem call_asks (c : Context) (form : CallForm) (s : Local L) :
    Ensures (call c form)
      (fun flow t => Ledger.Accessed s.ledger t.ledger ∧ flow.IsCallOf form s.frame.message
        (s.frame.operand 1).toAddress (s.calledValue form)) (fun _ => True) s := by
  refine .bind (.onStack (fun (requested, target) stack hpop => ?_) trivial)
  have htarget : s.frame.operand 1 = target := by
    rw [Frame.operand, Stack.eq_of_pop2 hpop]
    rfl
  rw [htarget]
  -- only the forms that send a value take it off the stack
  refine .ite (fun htakes => .bind (.onStack (fun value stack' hpop' => ?_) trivial))
    fun hnone => .bind (.pure ?_)
  · have hvalue : s.calledValue form = value := by
      have hrest : stack = { stack' with items := value :: stack'.items } := Stack.eq_of_pop hpop'
      rw [Local.calledValue, if_pos htakes, Frame.operand, Stack.eq_of_pop2 hpop, hrest]
      rfl
    rw [hvalue]
    exact (placeCall_asks c form requested target.toAddress value _).mono
      fun _ u hu => ⟨hu.1.ledger, hu.2⟩
  · rw [show s.calledValue form = 0 from if_neg hnone]
    exact (placeCall_asks c form requested target.toAddress 0 _).mono
      fun _ u hu => ⟨hu.1.ledger, hu.2⟩

end Effect

/-- The deposit of code. -/
theorem Local.grows_deposited [LawfulLedger L] (c : Context) (s : Local L) :
    (state s.ledger).Grows (state (s.deposited c).2.ledger) := by
  obtain hsame | ⟨code, hset⟩ := s.deposited_ledger c
  · rw [hsame]
    exact .refl _
  · rw [hset, LawfulLedger.state_setCode]
    exact .setCode _ _ code

namespace Machine

variable {c : Context} {l : L} {message : Message} {observer : Observer} {a : Address}
  {m m' last x y : Machine L}

/-- What a call asks for, and that this leaves the accounts alone. -/
theorem turn_asks [LawfulLedger L] {child : Message} {k : Continuation} {s : Local L} {t : Trace}
    (hnext : m.top.nextInstruction c.fork = some .call)
    (hturn : m.turn c = (.waits child k, s, t)) :
    state s.ledger = state m.ledger ∧ ∃ input gasLimit,
      child = Effect.CallForm.call.message m.top.message (m.top.operand 1).toAddress
        (m.toLocal.calledValue .call) input gasLimit := by
  have asks : Effect.Ensures (Local.paidEffect c m.below .call)
      (fun flow u => Ledger.Accessed m.ledger u.ledger ∧ flow.IsCallOf .call m.top.message
        (m.top.operand 1).toAddress (m.toLocal.calledValue .call)) (fun _ => True) m.running :=
    .bind (.charge (fun gas _ => Effect.call_asks c .call _) trivial)
  rcases Local.turn_ensures hturn hnext asks with ⟨flow, u, hflow, hfollow⟩ | ⟨⟨e, hfailed⟩, -⟩
  · cases flow with
    | spawn child' k' =>
      cases hfollow
      exact ⟨hflow.1.state, hflow.2⟩
    | next | jumped | halt => cases hfollow
  · cases hfailed

/-! ### Purchases -/

/-- The next instruction has to pay for the account as a new one, if it comes to that. -/
inductive PaysFor (c : Context) (a : Address) (m : Machine L) : Prop where
  | target : m.Executes c .call → (m.top.operand 1).toAddress = a →
      Effect.targetIsNew c.fork m.ledger a (m.toLocal.calledValue .call) = true → PaysFor c a m
  | heir : m.Executes c .selfDestruct → (m.top.operand 0).toAddress = a →
      Effect.beneficiaryIsNew c.fork m.ledger a (balance m.ledger m.top.address) = true →
        PaysFor c a m

/-- The next instruction pays for the account as a new one, and what it has paid for has come about
    in the second machine. -/
inductive Buys (c : Context) (a : Address) (m x : Machine L) : Prop where
  /-- A call brings value and asks for a child, and that succeeds. -/
  | called {child : Message} {k : Continuation} {s : Local L} {t : Trace} {last : Machine L} :
      m.PaysFor c a → m.Executes c .call → m.toLocal.calledValue .call ≠ 0 →
      m.turn c = (.waits child k, s, t) → Popped c ((m.landed s t).spawn c child k) last x →
      (last.topResult c).isSuccess = true → Buys c a m x
  /-- A destruction ends the frame. -/
  | bequeathed : m.PaysFor c a → m.Executes c .selfDestruct → (m.turn c).1 = .halted →
      m.step c = .running x → Buys c a m x

/-- Steps lead from the first machine to the second, and no frame of the first is rolled back. -/
structure Endures (c : Context) (x y : Machine L) : Prop where
  steps : Steps c 0 x y
  succeeds {last m' : Machine L} : Steps c last.below.length x last →
    last.below.length ≤ x.below.length → last.top.phase = .finalizing →
    last.step c = .running m' → Steps c 0 m' y → (last.topResult c).isSuccess = true

/-! ### What lasts -/

/-- Once the frames above have gone, the others still are not rolled back. -/
theorem Endures.pop (h : x.Endures c y) (hsteps : Steps c x.below.length x last)
    (hstep : last.step c = .running m') (hlower : m'.below.length < x.below.length)
    (hrest : Steps c 0 m' y) : m'.Endures c y where
  steps := hrest
  succeeds {last' m''} hsteps' hlow hphase hstep' hrest' := by
    have hhigh := hsteps'.floor_le hlow
    have hafter := hsteps'.head hstep hlow
    exact h.succeeds ((hsteps.weaken (by omega)).trans hafter) (by omega) hphase hstep' hrest'

/-- What frames keep, and what is kept when a frame succeeds, lasts as long as no frame is rolled
    back. -/
theorem Endures.keeps {I P : Machine L → Prop} (hP : Tracks c I fun m m' => P m → P m')
    (hkept : ∀ {m last m' : Machine L}, Popped c m last m' →
      (last.topResult c).isSuccess = true → P last → P m')
    (h : x.Endures c y) (hvisited : Visited c l message observer x)
    (hI : ∀ z, Steps c 0 x z → I z) (hx : P x) : P y := by
  -- by induction on the height: either the top frame is there all the time, or it ends first
  induction hheight : x.below.length using Nat.strong_induction_on generalizing x with
  | _ height ih =>
  rcases h.steps.stays_or_leaves with hstays | ⟨last, m', hsteps, hstep, hlower, hrest⟩
  · exact hstays.tracks hP (fun z hz => hI z (hz.weaken (Nat.zero_le _))) hx
  · have hlast := hsteps.tracks hP (fun z hz => hI z (hz.weaken (Nat.zero_le _))) hx
    have toEnd : Steps c 0 x last := hsteps.weaken (Nat.zero_le _)
    have toNext : Steps c 0 x m' := .tail toEnd hstep (Nat.zero_le _)
    have hlength : last.below.length = x.below.length := by
      have hhigh := hsteps.floor_le (Nat.le_refl _)
      have hone := (step_length hstep).2
      omega
    -- the frame that ends has begun before
    have visited : Visited c l message observer last := ⟨hvisited.depth, hvisited.steps.trans toEnd⟩
    obtain ⟨m, -, hfresh, hcourse⟩ := visited.exists_course
    have hpopped : Popped c m last m' :=
      hcourse.popped hfresh hstep (by rw [← hcourse.length]; omega)
    have hsuccess := h.succeeds (hlength ▸ hsteps) (Nat.le_of_eq hlength) hpopped.handedTo.1 hstep
      hrest
    exact ih m'.below.length (by omega) (h.pop hsteps hstep hlower hrest)
      ⟨hvisited.depth, hvisited.steps.trans toNext⟩ (fun z hz => hI z (toNext.trans hz))
      (hkept hpopped hsuccess hlast) rfl

variable [LawfulLedger L]

/-- Accounts come and stay, unless a frame is rolled back. -/
theorem evolves_grows (c : Context) :
    Evolves c (fun _ : Machine L => True) LedgerState.Grows where
  toClosedUnderPayments := (LedgerState.Grows.closed 0).toClosedUnderPayments
  frame {m} _ := LedgerState.Grows.closed m.top.address
  deposit {_ last} _ _ _ _ hlife := hlife.trans (last.toLocal.grows_deposited c)

/-- If accounts that are not there hold nothing at the start, they hold nothing at any time. -/
theorem Visited.balance_of_absent (h : Visited c l message observer x)
    (hpoor : accountExists l a = false → balance l a = 0) (habsent : accountExists x.ledger a = false) :
    balance x.ledger a = 0 := by
  have grown : (state l).Grows (state x.ledger) :=
    (evolves_grows c).visited h fun _ _ => trivial
  have before : accountExists l a = false := by
    rw [Bool.eq_false_iff]
    intro hthere
    exact absurd (habsent.symm.trans (grown.present a hthere)) nofun
  exact (grown.absent a habsent).trans (hpoor before)

variable {strict : Prop}

/-- A frame that succeeds leaves the account as it has come to be. -/
theorem Popped.isBought (hstrict : strict → .spuriousDragon ≤ c.fork) (h : Popped c m last m')
    (hsuccess : (last.topResult c).isSuccess = true)
    (hlast : (state last.ledger).IsBought strict a) : (state m'.ledger).IsBought strict a := by
  rw [h.succeeded hsuccess]
  exact ⟨(last.toLocal.grows_deposited c).present a hlast.present, fun hs =>
    h.course.tidy_deposited (hstrict hs) h.fresh h.handedTo.1 hsuccess (hlast.tidy hs)⟩

/-- Frames keep what is bought. -/
theorem tracks_isBought (hstrict : strict → .spuriousDragon ≤ c.fork) (a : Address) :
    Tracks c (fun m : Machine L => strict → m.IsSolid a)
      fun m m' => (state m.ledger).IsBought strict a → (state m'.ledger).IsBought strict a where
  refl _ := id
  trans h k hm := k (h hm)
  step hsolid hstep hstays hm :=
    have grown := (evolves_grows c).tracks.step trivial hstep hstays
    ⟨grown.present a hm.present, fun hs => (tracks_tidy (hstrict hs) a).step (hsolid hs)
      -- what is there stays there, so nothing conjures it up again
      (fun hconjures => absurd (hm.present.symm.trans hconjures.absent) nofun) hstep hstays
      (hm.tidy hs)⟩
  popped {m last _} hsolid hpopped hlife hm := by
    by_cases hsuccess : (last.topResult c).isSuccess
    · exact hpopped.isBought hstrict hsuccess (hlife hm)
    -- a frame that fails undoes everything but the nonce of its sender
    · have hfailed := (hpopped.failed (ExecutionResult.status_ne_success hsuccess)).1
      have grown := (LedgerState.Grows.closed 0).afterFailure (state m.ledger) m.top.message
      rw [hfailed]
      exact ⟨grown.present a hm.present, fun hs => (hm.tidy hs).afterFailure _⟩

/-! ### What is bought -/

omit [LawfulLedger L] in
/-- A turn that asks for a child puts it on the stack. -/
theorem step_of_waits {child : Message} {k : Continuation} {s : Local L} {t : Trace}
    (hrun : m.IsRunning) (hturn : m.turn c = (.waits child k, s, t)) :
    m.step c = .running ((m.landed s t).spawn c child k) := by
  rw [step_of_isRunning hrun, runTop_eq, hturn]

omit [LawfulLedger L] in
/-- A turn that halts ends the frame. -/
theorem step_of_halted (hrun : m.IsRunning) (hturn : (m.turn c).1 = .halted) :
    m.step c = .running ((m.landed (m.turn c).2.1 (m.turn c).2.2).withTop
      ((m.turn c).2.1.frame.finish none)) := by
  rw [step_of_isRunning hrun, runTop_eq]
  dsimp only
  rw [hturn]
  rfl

omit [LawfulLedger L] in
/-- A purchase is part of the execution. -/
theorem Buys.steps (h : m.Buys c a x) : Steps c 0 m x := by
  cases h with
  | called _ hexecutes _ hturn hpopped _ =>
    have spawned := step_of_waits hexecutes.1 hturn
    have lived := (hpopped.steps.weaken (Nat.zero_le _)).head spawned (Nat.zero_le _)
    exact .tail lived hpopped.step (Nat.zero_le _)
  | bequeathed _ _ _ hstep => exact .tail (.refl m) hstep (Nat.zero_le _)

omit [LawfulLedger L] in
/-- What a call pays for is its target. -/
theorem PaysFor.target_eq (h : m.PaysFor c a) (hexecutes : m.Executes c .call) :
    (m.top.operand 1).toAddress = a ∧
      Effect.targetIsNew c.fork m.ledger a (m.toLocal.calledValue .call) = true := by
  cases h with
  | target _ htarget hnew => exact ⟨htarget, hnew⟩
  | heir hdestroys _ _ => cases hexecutes.2.symm.trans hdestroys.2

omit [LawfulLedger L] in
/-- What a destruction pays for is the heir. -/
theorem PaysFor.heir_eq (h : m.PaysFor c a) (hexecutes : m.Executes c .selfDestruct) :
    (m.top.operand 0).toAddress = a ∧
      Effect.beneficiaryIsNew c.fork m.ledger a (balance m.ledger m.top.address) = true := by
  cases h with
  | target hcalls _ _ => cases hexecutes.2.symm.trans hcalls.2
  | heir _ hheir hnew => exact ⟨hheir, hnew⟩

/-- Where a call has been made with value, its target has been paid once its frame is prepared. -/
theorem isBought_prepare (hpoor : balance m.ledger a = 0) {input : Bytes} {gasLimit : Nat}
    {parent : Message} {value : Word} (hvalue : value ≠ 0)
    (hmessage : m.top.message = Effect.CallForm.call.message parent a value input gasLimit)
    (hprepared : (m.toLocal.attempt (Effect.prepare c)).1 = none) :
    (state (m.prepare c).ledger).IsBought strict a := by
  have hbar := m.toLocal.attempt_prepare_bar c
  have hentry := Local.state_attempt_prepare_of_none hprepared
  rw [hprepared] at hbar
  change none = m.top.message.bar c m.ledger at hbar
  change state (m.prepare c).ledger = (state m.ledger).afterEntry c.fork m.top.message at hentry
  rw [hmessage] at hbar hentry
  have hpaid : state (m.prepare c).ledger = (state m.ledger).pay parent.recipient a value := hentry
  have hfree : Message.paymentBar (Effect.CallForm.call.message parent a value input gasLimit)
      (balance m.ledger) = none := hbar.symm
  rw [hpaid]
  refine LedgerState.isBought_pay hpoor hvalue fun hown => ?_
  -- who has nothing cannot pay itself
  have covered : value ≤ balance m.ledger parent.recipient := Message.le_of_paymentBar hfree rfl
  rw [hown, hpoor] at covered
  exact hvalue (BitVec.le_zero_iff.1 covered)

/-- An account that is paid for is there afterwards, or nobody has paid for it. -/
theorem Buys.isBought (hstrict : strict → .spuriousDragon ≤ c.fork)
    (hpoor : ∀ b, accountExists m.ledger b = false → balance m.ledger b = 0)
    (hsolid : ∀ z, Steps c 0 m z → strict → z.IsSolid a) (h : m.Buys c a x) :
    (state x.ledger).IsBought strict a := by
  cases h with
  -- the message that the call sends is for the account, which nobody had
  | @called child k s t last hpays hexecutes hvalue hturn hpopped hsuccess =>
    obtain ⟨htarget, hnew⟩ := hpays.target_eq hexecutes
    obtain ⟨hsame, input, gasLimit, hchild⟩ := turn_asks hexecutes.2 hturn
    rw [htarget] at hchild
    have spawned := step_of_waits hexecutes.1 hturn
    obtain ⟨hprepared, hafter⟩ :=
      hpopped.course.prepared hpopped.fresh hpopped.handedTo.1 hsuccess
    have first : ((m.landed s t).spawn c child k).step c =
        .running (((m.landed s t).spawn c child k).prepare c) := step_of_created rfl
    have poor : balance ((m.landed s t).spawn c child k).ledger a = 0 :=
      (congrFun (congrArg LedgerState.balance hsame) a).trans
        (Effect.balance_of_targetIsNew (hpoor a) hnew)
    -- the preparation moves the value there, and the child's life keeps it bought
    have begun : (state (((m.landed s t).spawn c child k).prepare c).ledger).IsBought strict a :=
      isBought_prepare poor hvalue hchild hprepared
    refine hpopped.isBought hstrict hsuccess ?_
    refine hafter.tracks (tracks_isBought hstrict a) (fun z hz => hsolid z ?_) begun
    exact ((hz.weaken (Nat.zero_le _)).head first (Nat.zero_le _)).head spawned (Nat.zero_le _)
  -- the account inherits in the same step, so there is no life to follow
  | bequeathed hpays hexecutes hhalted hstep =>
    obtain ⟨hheir, hnew⟩ := hpays.heir_eq hexecutes
    obtain rfl : _ = x :=
      Progress.running.inj ((step_of_halted hexecutes.1 hhalted).symm.trans hstep)
    generalize hturn : m.turn c = r at hhalted
    obtain ⟨o, s, t⟩ := r
    rcases turn_surrenders hturn hexecutes.2 with ⟨-, hsurrenders⟩ | ⟨⟨e, hfailed⟩, -⟩
    · rw [hheir] at hsurrenders
      exact hsurrenders.isBought fun hs =>
        Effect.rich_of_beneficiaryIsNew (hpoor a) hnew (hstrict hs)
    · cases hfailed.symm.trans hhalted

/-- From a machine that runs on, all machines are solid, unless code runs on behalf of the account
    that is not its own. -/
theorem Visited.isSolid_of_running (hfork : .spuriousDragon ≤ c.fork)
    (h : Visited c l message observer m) (hrun : m.IsRunning)
    (hattached : ¬ (message.IsDetached ∧ message.recipient = a)) (hz : Steps c 0 m x) :
    x.IsSolid a := by
  have visited : Visited c l message observer x := ⟨h.depth, h.steps.trans hz⟩
  refine visited.isSolid_of_later hfork (hz.below_ne_nil ?_) hattached
  rcases hrun with hrunning | hresuming
  · rw [hrunning]
    nofun
  · rw [hresuming]
    nofun

omit [LawfulLedger L] in
/-- It is a running frame that pays. -/
theorem Buys.isRunning (h : m.Buys c a x) : m.IsRunning := by
  cases h with
  | called _ hexecutes _ _ _ _ => exact hexecutes.1
  | bequeathed _ hexecutes _ _ => exact hexecutes.1

/-- What is bought is not paid for. -/
theorem not_paysFor_of_isBought (h : (state y.ledger).IsBought (.spuriousDragon ≤ c.fork) a) :
    ¬ y.PaysFor c a := by
  rintro (⟨-, -, hnew⟩ | ⟨-, -, hnew⟩)
  · rw [Effect.targetIsNew_of_bought h] at hnew
    cases hnew
  · rw [Effect.beneficiaryIsNew_of_bought h] at hnew
    cases hnew

/-! ### So many steps -/

omit [LawfulLedger L] in
/-- The life of a child that is put on the stack by the next step, stays there for so many more, and
    is popped then. -/
theorem exists_popped_after (n : Nat) (m : Machine L)
    (hrises : (m.after c 1).below.length = m.below.length + 1)
    (hstays : ∀ k ≤ n, m.below.length < ((m.after c 1).after c k).below.length)
    (hpops : (m.after c (n + 2)).below.length = m.below.length) :
    ∃ child k s t, m.turn c = (.waits child k, s, t) ∧
      Popped c ((m.landed s t).spawn c child k) (m.after c (n + 1)) (m.after c (n + 2)) := by
  -- where the height changes, the machine has moved
  have moves (i : Nat) (hother : (m.after c (i + 1)).below.length ≠ (m.after c i).below.length) :
      (m.after c i).step c = .running (m.after c (i + 1)) :=
    (after_succ_cases c m i).resolve_left fun hsame =>
      hother (congrArg (fun m => m.below.length) hsame)
  have spawns : m.step c = .running (m.after c 1) :=
    moves 0 (hrises ▸ Nat.succ_ne_self m.below.length)
  obtain ⟨child, k, s, t, -, hturn, hspawned⟩ := (step_cases spawns).exists_request hrises
  have later (j : Nat) : m.after c (j + 1) = (m.after c 1).after c j := by
    rw [Nat.add_comm, after_add]
  have above : m.below.length < (m.after c (n + 1)).below.length := by
    rw [later]
    exact hstays n (Nat.le_refl n)
  have pops : (m.after c (n + 1)).step c = .running (m.after c (n + 2)) :=
    moves (n + 1) fun hsame => Nat.ne_of_lt above (hpops.symm.trans hsame)
  -- in between the stack is higher than the caller, so the child lives
  have lives : Steps c (m.after c 1).below.length (m.after c 1) (m.after c (n + 1)) := by
    rw [later n, hrises]
    exact steps_after n _ hstays
  refine ⟨child, k, s, t, hturn, ?_⟩
  rw [← hspawned]
  exact ⟨hspawned ▸ ⟨_, _, rfl⟩, lives, pops, by omega⟩

omit [LawfulLedger L] in
/-- If all frames succeed up to the end of an execution after so many steps, no frame is rolled
    back. -/
theorem Visited.endures {k : Nat} (h : Visited c l message observer x) (n : Nat)
    (hend : ((launch c l message observer).after c k).top.phase = .finalizing ∧
      ((launch c l message observer).after c k).below.length = 0)
    (hsucceeds : ∀ i ≤ k, ((launch c l message observer).after c i).top.phase = .finalizing →
      (((launch c l message observer).after c i).topResult c).isSuccess = true) :
    x.Endures c (x.after c n) := by
  refine ⟨steps_after n x fun _ _ => Nat.zero_le _, fun {last m'} hsteps _ hphase _ _ => ?_⟩
  have visited : Visited c l message observer last :=
    ⟨h.depth, h.steps.trans (hsteps.weaken (Nat.zero_le _))⟩
  obtain ⟨i, hi, rfl⟩ := visited.exists_le fun m' hstep =>
    phase_ne_finalizing hstep (Nat.le_trans (Nat.le_of_eq hend.2) (Nat.zero_le _)) hend.1
  exact hsucceeds i hi hphase

end Machine

/-! ### Everywhere -/

open Machine in
/-- Executions from the ledger get the accounts that they pay for, and do not pay for them again. -/
structure NewAccountRule (l : L) : Prop where
  /-- An account that is bought is there right afterwards. -/
  bought {c : Context} {message : Message} {observer : Observer} {a : Address} {m x : Machine L} :
    Visited c l message observer m → m.Buys c a x → accountExists x.ledger a = true
  /-- As long as no frame is rolled back that was under way then, nothing has to pay for it as a new
      account.  From Spurious Dragon on this does not hold for the account on behalf of which the
      message has the code of another one run. -/
  once {c : Context} {message : Message} {observer : Observer} {a : Address} {m x y : Machine L} :
    Visited c l message observer m → m.Buys c a x → x.Endures c y →
      ¬ (.spuriousDragon ≤ c.fork ∧ message.IsDetached ∧ message.recipient = a) → ¬ y.PaysFor c a

/-- The rule holds on every lawful ledger on which absent accounts have no balance. -/
theorem newAccountRule_of_lawful [LawfulLedger L] {l : L}
    (hpoor : ∀ a, accountExists l a = false → Ledger.balance l a = 0) : NewAccountRule l where
  bought {_ _ _ a _ x} hm hbuys := by
    have poor (b : Address) := hm.balance_of_absent (hpoor b)
    -- nothing is asked of the machines on the way
    have there : (state x.ledger).IsBought False a := hbuys.isBought nofun poor fun _ _ => nofun
    exact there.present
  once {c message observer a m x y} hm hbuys hendures hattached := by
    have poor (b : Address) := hm.balance_of_absent (hpoor b)
    have solid (z : Machine L) (hz : Machine.Steps c 0 m z) (hfork : .spuriousDragon ≤ c.fork) :
        z.IsSolid a :=
      hm.isSolid_of_running hfork hbuys.isRunning (fun h => hattached ⟨hfork, h⟩) hz
    have there := hbuys.isBought id poor solid
    have visited : Machine.Visited c l message observer x := ⟨hm.depth, hm.steps.trans hbuys.steps⟩
    refine Machine.not_paysFor_of_isBought ?_
    exact hendures.keeps (Machine.tracks_isBought id a) (Machine.Popped.isBought id) visited
      (fun z hz => solid z (hbuys.steps.trans hz)) there

/-- Whatever a client has made of a ledger, and whatever world lies below, executions from it are
    like that. -/
theorem new_account_rule :
    (∀ (S : Type) [WorldSource S] (source : S) (l : JournaledLedger S), l.Used source →
        NewAccountRule l) ∧
      ∀ l : SnapshotLedger, NewAccountRule l :=
  ⟨fun _ _ _ _ hused => newAccountRule_of_lawful fun _ => hused.balance_of_absent,
    fun _ => newAccountRule_of_lawful fun _ => SnapshotLedger.balance_of_absent⟩

/-- A contract calls another one, which buys the account at 9.  When the first one calls that
    account later on, it does not pay for it. -/
theorem new_account_rule_across_frames :
    let c : Context := { precompiles := .none }
    let world := World.setBalance (World.setCode (World.setBalance (World.setCode {}
      8 #[0x60, 0, 0x60, 0, 0x60, 0, 0x60, 0, 0x60, 1, 0x60, 9, 0x5a, 0xf1]) 8 1)
      7 #[0x60, 0, 0x60, 0, 0x60, 0, 0x60, 0, 0x60, 0, 0x60, 8, 0x5a, 0xf1,
        0x60, 0, 0x60, 0, 0x60, 0, 0x60, 0, 0x60, 1, 0x60, 9, 0x5a, 0xf1]) 7 1
    let l := JournaledLedger.ofSource world
    let message := Message.call 1 7 0 #[] 300000
    let m := (Machine.launch c l message .off).after c 19
    let x := m.after c 5
    let y := x.after c 9
    l.Used world ∧ Machine.Visited c l message .off m ∧ m.Buys c 9 x ∧ x.Endures c y ∧
      ¬ message.IsDetached ∧ accountExists x.ledger 9 = true ∧
      y.Executes c .call ∧ (y.top.operand 1).toAddress = 9 ∧ ¬ y.PaysFor c 9 := by
  intro c world l message m x y
  have used : l.Used world := .fresh
  have attached : ¬ message.IsDetached := fun hdetached => hdetached.codeAddress rfl
  have visited : Machine.Visited c l message .off m :=
    Machine.Visited.iff_after.2 ⟨Nat.zero_le _, 19, rfl⟩
  -- the other contract runs the call, whose child ends after three steps
  have executes : m.Executes c .call := ⟨.inl (by decide +kernel), by decide +kernel⟩
  have pays : m.PaysFor c 9 := .target executes (by decide +kernel) (by decide +kernel)
  have value : m.toLocal.calledValue .call ≠ 0 := by decide +kernel
  obtain ⟨child, k, s, t, hturn, popped⟩ := Machine.exists_popped_after (c := c) 3 m
    (by decide +kernel) (by decide +kernel) (by decide +kernel)
  have success : ((m.after c 4).topResult c).isSuccess = true := by decide +kernel
  have buys : m.Buys c 9 x := .called pays executes value hturn popped success
  have endures : x.Endures c y :=
    Machine.Visited.endures (k := 39) ⟨visited.depth, visited.steps.trans buys.steps⟩ 9
      (by decide +kernel) (by decide +kernel)
  have calls : y.Executes c .call := ⟨.inl (by decide +kernel), by decide +kernel⟩
  have target : (y.top.operand 1).toAddress = 9 := by decide +kernel
  have rule := new_account_rule.1 World world l used
  exact ⟨used, visited, buys, endures, attached, rule.bought visited buys, calls, target,
    rule.once visited buys endures fun hdetached => attached hdetached.2.1⟩

open Machine in
/-- Before Spurious Dragon a call without value pays for its target, which is not there afterwards
    even if the child succeeds.  A call whose child cannot be paid for is skipped after the payment,
    and the next one pays again.  And where the code of another account is run on behalf of an
    account, that may pass on what it has been paid, and is paid for again. -/
theorem new_account_rule_not_unconditional :
    (¬ ∀ (c : Context) (l : JournaledLedger World) (message : Message) (observer : Observer)
        (a : Address) (m last x : Machine (JournaledLedger World)) (child : Message)
        (k : Continuation) (s : Local (JournaledLedger World)) (t : Trace),
        Visited c l message observer m → m.PaysFor c a → m.Executes c .call →
          m.turn c = (.waits child k, s, t) →
            Popped c ((m.landed s t).spawn c child k) last x →
              (last.topResult c).isSuccess = true → accountExists x.ledger a = true) ∧
      (¬ ∀ (c : Context) (l : JournaledLedger World) (message : Message) (observer : Observer)
        (a : Address) (m x y : Machine (JournaledLedger World)),
        Visited c l message observer m → m.PaysFor c a → (∀ e, (m.turn c).1 ≠ .failed e) →
          m.step c = .running x → x.Endures c y → ¬ y.PaysFor c a) ∧
      ¬ ∀ (c : Context) (l : JournaledLedger World) (message : Message) (observer : Observer)
        (a : Address) (m x y : Machine (JournaledLedger World)),
        Visited c l message observer m → m.Buys c a x → x.Endures c y → ¬ y.PaysFor c a := by
  refine ⟨fun always => ?_, fun always => ?_, fun always => ?_⟩
  -- on Frontier a call without a value to a new account leaves nothing there
  · let c : Context := { config := { fork := .frontier }, precompiles := .none }
    let l := JournaledLedger.ofSource (World.setCode {}
      7 #[0x60, 0, 0x60, 0, 0x60, 0, 0x60, 0, 0x60, 0, 0x60, 9, 0x60, 0, 0xf1])
    let m := (launch c l (.call 1 7 0 #[] 100000) .off).after c 9
    have visited : Visited c l (.call 1 7 0 #[] 100000) .off m :=
      Visited.iff_after.2 ⟨Nat.zero_le _, 9, rfl⟩
    have executes : m.Executes c .call := ⟨.inl (by decide +kernel), by decide +kernel⟩
    have pays : m.PaysFor c 9 := .target executes (by decide +kernel) (by decide +kernel)
    obtain ⟨child, k, s, t, hturn, popped⟩ := exists_popped_after (c := c) 3 m
      (by decide +kernel) (by decide +kernel) (by decide +kernel)
    have there := always c l _ .off 9 m _ _ child k s t visited pays executes hturn popped
      (by decide +kernel)
    have gone : accountExists (m.after c 5).ledger 9 = false := by decide +kernel
    exact absurd (gone.symm.trans there) nofun
  -- a call that the caller cannot pay for is charged, sends nothing and is charged again
  · let c : Context := { precompiles := .none }
    let l := JournaledLedger.ofSource (World.setCode {}
      7 #[0x60, 0, 0x60, 0, 0x60, 0, 0x60, 0, 0x60, 1, 0x60, 9, 0x5a, 0xf1,
        0x60, 0, 0x60, 0, 0x60, 0, 0x60, 0, 0x60, 1, 0x60, 9, 0x5a, 0xf1])
    let m := (launch c l (.call 1 7 0 #[] 100000) .off).after c 9
    let x := m.runTop c
    have visited : Visited c l (.call 1 7 0 #[] 100000) .off m :=
      Visited.iff_after.2 ⟨Nat.zero_le _, 9, rfl⟩
    have executes : m.Executes c .call := ⟨.inl (by decide +kernel), by decide +kernel⟩
    have pays : m.PaysFor c 9 := .target executes (by decide +kernel) (by decide +kernel)
    have skipped : (m.turn c).1 = .continues := by decide +kernel
    have moves : m.step c = .running x := step_of_isRunning executes.1
    have endures : x.Endures c (x.after c 7) :=
      Visited.endures (k := 19) ⟨visited.depth, .tail visited.steps moves (Nat.zero_le _)⟩ 7
        (by decide +kernel) (by decide +kernel)
    have again : (x.after c 7).PaysFor c 9 :=
      .target ⟨.inl (by decide +kernel), by decide +kernel⟩ (by decide +kernel) (by decide +kernel)
    exact always c l _ .off 9 m x _ visited pays (fun e hfailed => by
      rw [skipped] at hfailed
      cases hfailed) moves endures again
  -- the root message pays a recipient whose code it does not run: the account is bought inside it
  -- by another frame, self-destructed by none, and charged for twice
  · let c : Context := { precompiles := .none }
    let call (target : UInt8) : Array UInt8 :=
      #[0x60, 0, 0x60, 0, 0x60, 0, 0x60, 0, 0x60, 1, 0x60, target, 0x5a, 0xf1]
    let l := JournaledLedger.ofSource (World.setBalance (World.setCode (World.setCode {}
      8 (call 10 ++ call 10)) 10 (call 9)) 1 1)
    let message := { Message.call 1 9 1 #[] 300000 with codeAddress := 8 }
    let m := (launch c l message .off).after c 19
    have visited : Visited c l message .off m := Visited.iff_after.2 ⟨Nat.zero_le _, 19, rfl⟩
    have executes : m.Executes c .call := ⟨.inl (by decide +kernel), by decide +kernel⟩
    have pays : m.PaysFor c 9 := .target executes (by decide +kernel) (by decide +kernel)
    obtain ⟨child, k, s, t, hturn, popped⟩ := exists_popped_after (c := c) 3 m
      (by decide +kernel) (by decide +kernel) (by decide +kernel)
    have buys : m.Buys c 9 (m.after c 5) :=
      .called pays executes (by decide +kernel) hturn popped (by decide +kernel)
    have endures : (m.after c 5).Endures c ((m.after c 5).after c 19) :=
      Visited.endures (k := 51) ⟨visited.depth, visited.steps.trans buys.steps⟩ 19
        (by decide +kernel) (by decide +kernel)
    have again : ((m.after c 5).after c 19).PaysFor c 9 :=
      .target ⟨.inl (by decide +kernel), by decide +kernel⟩ (by decide +kernel) (by decide +kernel)
    exact always c l message .off 9 m _ _ visited buys endures again

end Evm
