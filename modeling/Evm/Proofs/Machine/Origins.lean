import Evm.Proofs.ContractAddress
import Evm.Proofs.Machine.Delivery
import Evm.Proofs.Machine.Roots

namespace Evm

/-!
# Where contracts come from

The address of a new contract is derived from its creator and a nonce that the creator uses up, or
from its creator, a salt and the init code.  While a creation runs, another one on top of it can
only go to the same address if two different origins share it.

* `Message.origin` — what the address of a contract is derived from.
* `Effect.create_targets`, `Machine.Visited.address_eq` — the target of a creation is where its
  origin leads.
* `Machine.Clashes` — another origin leads to the address of a creation that is under way.
* `Machine.Course.codeless` — before Constantinople the account of a creation has no code before its
  end, unless there is such a clash.
-/

variable {L : Type} [Ledger L]

/-- The origin of the contract that a message is to create, by the nonce of the creator. -/
def Message.origin (m : Message) (l : L) : Origin :=
  match m.kind with
  | .create2 salt => .salted m.sender salt m.input
  | _ => .numbered m.sender (Ledger.nonce l m.sender)

/-- A creation goes to the address of its origin. -/
theorem Message.address_origin (m : Message) (l : L) :
    (m.origin l).address = Effect.creationTarget m.kind l m.sender m.input := by
  unfold origin Effect.creationTarget
  cases m.kind <;> rfl

/-- A creation by nonce is numbered with the sender's. -/
theorem Message.origin_of_create {m : Message} (h : m.kind = .create) (l : L) :
    m.origin l = .numbered m.sender (Ledger.nonce l m.sender) := by
  rw [origin, h]

/-- A creation is salted or numbered. -/
theorem Message.origin_cases (m : Message) (l : L) :
    (∃ salt, m.origin l = .salted m.sender salt m.input) ∨
      m.origin l = .numbered m.sender (Ledger.nonce l m.sender) := by
  unfold origin
  cases m.kind with
  | create2 salt => exact .inl ⟨salt, rfl⟩
  | _ => exact .inr rfl

/-- The origin only depends on the nonce. -/
theorem Message.origin_congr (m : Message) {l l' : L}
    (h : Ledger.nonce l m.sender = Ledger.nonce l' m.sender) : m.origin l = m.origin l' := by
  unfold origin
  rw [h]

/-! ### Requests -/

/-- A creation that is asked for goes where its origin leads.  Only CREATE2 salts it. -/
def Flow.IsPlaced (salted : Bool) (l : L) : Flow → Prop
  | .spawn message _ =>
    message.recipient = (message.origin l).address ∧ (salted = false → message.kind = .create)
  | _ => True

namespace Effect

/-- What a creation does once it has its value, its init code and perhaps its salt. -/
def placeCreation (c : Context) (salted : Bool) (kind : CallKind) (value : Word)
    (offset size : Nat) : Effect L Flow := do
  extendMemory offset size
  requireInitCodeSize c size
  charge (Gas.initCode c.fork size)
  if salted then charge (Gas.keccakWords size)
  let initCode ← readMemory offset size
  let creator := (← frame).address
  let target := creationTarget kind (← ledger) creator initCode
  let gasLimit := Gas.forCreate c.fork (← frame).gas.remaining
  charge gasLimit
  if ← canSpawn c value then
    let message : Message :=
      { kind
        sender := creator
        recipient := target
        codeAddress := target
        input := initCode
        value
        gasLimit
        depth := (← frame).message.childDepth }
    return .spawn message .create
  else skipSpawn gasLimit

variable [LawfulLedger L]

/-- What the placement hands on is placed. -/
theorem placeCreation_targets (c : Context) {salted : Bool} {kind : CallKind}
    (hkind : salted = false → kind = .create) (value : Word) (offset size : Nat) (s : Local L) :
    Ensures (placeCreation c salted kind value offset size)
      (fun flow t => s.Quiet t ∧ flow.IsPlaced salted s.ledger) (fun _ => True) s := by
  have fails (u : Local L) (_ : s.Quiet u) : True := trivial
  refine .quiet_bind (.extendMemory _ _) (.refl s) fails fun _ t ht => ?_
  refine .quiet_bind (Follows.requireInitCodeSize Conduct.letsWork_quiet.toLetsPay c size) ht fails
    fun _ t ht => ?_
  refine .quiet_bind (.charge _) ht fails fun _ t ht => ?_
  refine .quiet_ite_bind (.charge _) ht fails fun _ t ht => ?_
  refine .readMemory_bind (.frame_bind (.ledger_bind (.frame_bind ?_)))
  refine .quiet_bind (.charge _) ht fails fun _ u hu => ?_
  -- up to here nothing but the gas and the memory has changed
  refine .quiet_bind (.canSpawn c value) hu fails fun _ u hu => ?_
  refine .ite (fun _ => .frame_bind (.pure ⟨hu, ?_, hkind⟩)) fun _ => ?_
  · -- the nonce is what it was at the start
    have same := congrArg LedgerState.nonce ht.ledger.state
    refine Eq.trans ?_ (congrArg Origin.address (Message.origin_congr _ (congrFun same _)))
    rw [Message.address_origin]
  · refine .quiet_bind (.modifyFrame fun _ => ⟨rfl, rfl, rfl, rfl⟩) hu fails fun _ u hu => ?_
    exact .quiet_bind (.push 0) hu fails fun _ u hu => .pure ⟨hu, trivial⟩

/-- And what the instruction hands on. -/
theorem create_targets (c : Context) (salted : Bool) (s : Local L) :
    Ensures (create c salted) (fun flow t => s.Quiet t ∧ flow.IsPlaced salted s.ledger)
      (fun _ => True) s := by
  refine .bind (.requireNonStatic (fun _ => ?_) trivial)
  refine .bind (.onStack (fun (value, offset, size) stack _ => ?_) trivial)
  refine .ite (fun hsalted => ?_) fun _ => .bind (.pure ?_)
  · refine .bind (.bind (.onStack (fun salt stack _ => .pure ?_) trivial))
    refine (placeCreation_targets c (fun hplain => ?_) value _ _ _).mono fun _ u hu => ?_
    · exact absurd (hplain.symm.trans hsalted) nofun
    · exact ⟨⟨hu.1.message, hu.1.logs, hu.1.selfDestructs, hu.1.refund, hu.1.ledger⟩, hu.2⟩
  · refine (placeCreation_targets c (fun _ => rfl) value _ _ _).mono fun _ u hu => ?_
    exact ⟨⟨hu.1.message, hu.1.logs, hu.1.selfDestructs, hu.1.refund, hu.1.ledger⟩, hu.2⟩

end Effect

/-- An instruction that is next is one of the fork. -/
theorem Frame.introduced_of_next {fork : Fork} {f : Frame} {i : Instruction}
    (h : f.nextInstruction fork = some i) : i.introduced ≤ fork := by
  obtain ⟨b, -, hdecode⟩ := Option.bind_eq_some_iff.1 h
  exact of_decide_eq_true (Option.filter_eq_some_iff.1 hdecode).2

/-- A creation that a turn waits for goes where its origin leads.  Before Constantinople it is not
    salted. -/
theorem Local.turn_targets [LawfulLedger L] {c : Context} {ancestors : List Frame} {s t : Local L}
    {trace trace' : Trace} {message : Message} {k : Continuation}
    (h : s.turn c ancestors trace = (.waits message k, t, trace'))
    (hcreate : message.isCreate = true) :
    message.recipient = (message.origin t.ledger).address ∧
      (c.fork < .constantinople → message.kind = .create) := by
  cases hnext : s.frame.nextInstruction c.fork with
  | none =>
    rcases (turn_ends h hnext).2 with hhalted | ⟨e, hfailed⟩
    · cases hhalted
    · cases hfailed
  | some i =>
    have asked {P : Flow → Local L → Prop} (he : Effect.Ensures (paidEffect c ancestors i)
        (fun flow u => P flow u) (fun _ => True) s) : ∃ u, P (.spawn message k) u ∧
          t.ledger = u.ledger := by
      rcases turn_ensures h hnext he with ⟨flow, u, hflow, hfollow⟩ | ⟨⟨e, hfailed⟩, -⟩
      · cases flow with
        | spawn message' k' =>
          cases hfollow
          exact ⟨u, hflow, rfl⟩
        | next | jumped | halt => cases hfollow
      · cases hfailed
    have placed (salted : Bool)
        (hi : (Effect.ofInstruction c ancestors i : Effect L Flow) = Effect.create c salted) :
        message.recipient = (message.origin t.ledger).address ∧
          (salted = false → message.kind = .create) := by
      have he : Effect.Ensures (paidEffect c ancestors i)
          (fun flow u => Ledger.Accessed s.ledger u.ledger ∧ flow.IsPlaced salted s.ledger)
          (fun _ => True) s := by
        rw [paidEffect, hi]
        exact .bind (.charge (fun gas _ => (Effect.create_targets c salted _).mono
          fun _ u hu => ⟨hu.1.ledger, hu.2⟩) trivial)
      obtain ⟨u, ⟨haccessed, htarget, hkind⟩, hledger⟩ := asked he
      -- asking for a child leaves the nonce alone
      have same : Ledger.nonce s.ledger message.sender = Ledger.nonce t.ledger message.sender := by
        rw [hledger]
        exact (congrFun (congrArg LedgerState.nonce haccessed.state) _).symm
      exact ⟨htarget.trans (congrArg Origin.address (message.origin_congr same)), hkind⟩
    by_cases hplain : i = .create
    · subst hplain
      obtain ⟨htarget, hkind⟩ := placed false rfl
      exact ⟨htarget, fun _ => hkind rfl⟩
    · by_cases hsalted : i = .create2
      · subst hsalted
        refine ⟨(placed true rfl).1, fun hearly => ?_⟩
        exact absurd (Frame.introduced_of_next hnext) (Nat.not_le.2 hearly)
      · have endowed : ∃ u : Local L, Flow.AsksEndowed (.spawn message k) ∧ t.ledger = u.ledger :=
          asked (Effect.Gives.after (fun _ => .ofInstruction c ancestors hplain hsalted) s)
        obtain ⟨-, hasked, -⟩ := endowed
        cases hcreate.symm.trans hasked.isCreate

/-- The first frame that creates a contract goes where its origin leads. -/
theorem Message.resolve_address {m : Message} (h : m.isCreate = true) (l : L) :
    (m.resolve l).recipient = ((m.resolve l).origin l).address := by
  unfold resolve
  cases hk : m.kind with
  | create => simp only [withTarget, origin, hk, Origin.address]
  | create2 salt => simp only [withTarget, origin, hk, Origin.address]
  | call | callCode | delegateCall | staticCall =>
    rw [isCreate, hk] at h
    cases h

/-! ### Creations under way -/

/-- Entering a frame writes no code. -/
theorem LedgerState.code_afterEntry (s : LedgerState) (fork : Fork) (m : Message) :
    (s.afterEntry fork m).code = s.code := by
  -- neither the nonce nor the payment touches the code
  have entered : (s.afterFailure m).code = s.code := by
    unfold afterFailure
    split <;> rfl
  have paid (t : LedgerState) (sender recipient : Address) (value : Word) :
      (t.pay sender recipient value).code = t.code := by
    unfold pay
    split <;> rfl
  rw [← entered]
  unfold afterEntry
  dsimp only
  split
  · rw [paid]
    split <;> rfl
  · split <;> rfl

namespace Machine

variable {c : Context} {l : L} {message : Message} {observer : Observer} {m last x : Machine L}

/-- A new frame that is to create a contract does so where its origin leads.  Before Constantinople
    only the first frame can have a salt. -/
theorem Visited.address_eq [LawfulLedger L] (h : Visited c l message observer x)
    (hphase : x.top.phase = .created) (hcreate : x.top.message.isCreate = true) :
    x.top.address = (x.top.message.origin x.ledger).address ∧
      (x.below ≠ [] → c.fork < .constantinople → x.top.message.kind = .create) := by
  rcases h.first_or_asked hphase with rfl | ⟨w, child, k, s, t, hw, hspawn, hturn, rfl⟩
  · refine ⟨?_, fun hbelow => absurd rfl hbelow⟩
    have creates : message.isCreate = true := (message.isCreate_resolve l).symm.trans hcreate
    -- the accesses before the first frame leave the nonce alone
    have same := congrFun (congrArg LedgerState.nonce
      (Ledger.state_prewarm l (prewarmed c (message.resolve l)))) (message.resolve l).sender
    exact (message.resolve_address creates l).trans
      (congrArg Origin.address ((message.resolve l).origin_congr same.symm))
  · obtain ⟨htarget, hkind⟩ := Local.turn_targets hturn hcreate
    exact ⟨htarget, fun _ => hkind⟩

/-- While a creation runs, another one begins on top of it that has another origin and goes to the
    same address. -/
structure Clashes (c : Context) (m x : Machine L) : Prop where
  steps : Steps c m.below.length m x
  begins : x.top.phase = .created ∧ m.below.length < x.below.length
  creates : x.top.message.isCreate = true
  origins : x.top.message.origin x.ledger ≠ m.top.message.origin m.ledger
  address : (x.top.message.origin x.ledger).address = (m.top.message.origin m.ledger).address

/-- A new frame is on top of another one if it has not been there before. -/
theorem Steps.higher (h : Steps c m.below.length m x) (hm : m.top.phase ≠ .created)
    (hx : x.top.phase = .created) : m.below.length < x.below.length := by
  cases h with
  | refl => exact absurd hx hm
  | tail hsteps hstep _ =>
    have hheight := ((step_cases hstep).isFresh hx).2
    have hlow := hsteps.floor_le (Nat.le_refl _)
    omega

variable [LawfulLedger L]

/-- A creation on top of another one, before Constantinople, has another origin. -/
theorem Visited.clashes (hm : Visited c l message observer m) (hfork : c.fork < .constantinople)
    (hfresh : m.top.phase = .created) (hcreate : m.top.message.isCreate = true)
    (hprepared : (m.toLocal.attempt (Effect.prepare c)).1 = none)
    (hx : Steps c m.below.length (m.prepare c) x) (hphase : x.top.phase = .created)
    (hcreates : x.top.message.isCreate = true) (haddress : x.top.address = m.top.address) :
    Clashes c m x := by
  have hfirst : m.step c = .running (m.prepare c) := by
    rw [step, hfresh]
  have hsteps : Steps c m.below.length m x := hx.head hfirst (Nat.le_refl _)
  -- the creation below is still open, so it has a frame under the new one
  have hhigher : m.below.length < x.below.length := Steps.higher (m := m.prepare c) hx
    (prepare_phase c m) hphase
  have visited : Visited c l message observer x :=
    ⟨hm.depth, hm.steps.trans (hsteps.weaken (Nat.zero_le _))⟩
  obtain ⟨hown, hkind⟩ := visited.address_eq hphase hcreates
  have plain : x.top.message.kind = .create :=
    hkind (List.ne_nil_of_length_pos (Nat.lt_of_le_of_lt (Nat.zero_le _) hhigher)) hfork
  refine ⟨hsteps, ⟨hphase, hhigher⟩, hcreates, fun hsame => ?_, ?_⟩
  · -- the creator has used up the nonce of the lower creation, and nonces do not fall
    obtain ⟨hroom, hother⟩ := Local.room_of_prepared hprepared hcreate
    have raised : Ledger.nonce (m.prepare c).ledger m.top.message.sender =
        Ledger.nonce m.ledger m.top.message.sender + 1 := by
      have hstate := Local.state_attempt_prepare_of_none hprepared
      change Ledger.state (m.prepare c).ledger = _ at hstate
      rw [← Ledger.state_nonce, hstate]
      exact LedgerState.nonce_afterEntry c.fork hcreate hroom hother
    have grown := (Steps.matures (m := m.prepare c) hx m.top.message.sender).nonce
    rw [Ledger.state_nonce, Ledger.state_nonce, raised] at grown
    rw [Message.origin_of_create plain] at hsame
    rcases m.top.message.origin_cases m.ledger with ⟨salt, hsalted⟩ | hnumbered
    · cases hsame.trans hsalted
    · obtain ⟨hsender, hnonce⟩ := Origin.numbered.inj (hsame.trans hnumbered)
      rw [hsender] at hnonce
      omega
  · rw [← hown, haddress]
    exact (hm.address_eq hfresh hcreate).1

/-- What keeps an account without code, in a frame that does not create a contract there. -/
theorem evolves_codeless (c : Context) (a : Address) :
    Evolves c (fun m : Machine L => ¬ (m.top.phase = .created ∧ m.top.message.isCreate = true ∧
      m.top.address = a)) (fun s t => s.code a = #[] → t.code a = #[]) where
  refl _ := id
  trans h k hcode := k (h hcode)
  setBalance _ _ _ := id
  raiseNonce _ _ := id
  frame {m} _ := {
    refl := fun _ => id
    trans := fun h k hcode => k (h hcode)
    setBalance := fun _ _ _ => id
    raiseNonce := fun _ _ => id
    setStorage := fun _ _ _ => id
    reset := fun _ _ _ => id }
  deposit {m last} hother hfresh hcourse _ hlife := by
    -- a deposit writes to the account of the frame, which is another one
    cases hcreate : last.toLocal.frame.message.isCreate with
    | false =>
      rw [Local.deposited_of_call c hcreate]
      exact hlife
    | true =>
      rcases last.toLocal.deposited_ledger c with hsame | ⟨code, hcoded⟩
      · rw [hsame]
        exact hlife
      · rw [hcoded, LawfulLedger.state_setCode]
        intro hcode
        have elsewhere : a ≠ last.toLocal.frame.address := fun hown => by
          refine hother ⟨hfresh.phase, ?_, ?_⟩
          · exact (congrArg Message.isCreate hcourse.message).symm.trans hcreate
          · exact (congrArg Message.recipient hcourse.message).symm.trans hown.symm
        exact (Function.update_of_ne elsewhere ..).trans (hlife hcode)

/-- Before Constantinople the account of a creation has no code up to its end, unless there is such
    a clash. -/
theorem Course.codeless (hcourse : Course c m last) (hm : Visited c l message observer m)
    (hfork : c.fork < .constantinople) (hfresh : m.IsFresh c)
    (hcreate : m.top.message.isCreate = true) (hphase : last.top.phase = .finalizing)
    (herror : ¬ last.HasFailed) :
    Ledger.code last.ledger m.top.address = #[] ∨ ∃ x, Clashes c m x := by
  obtain ⟨hprepared, hafter⟩ := hcourse.prepared_of_not_hasFailed hfresh hphase herror
  by_cases hidle : ∀ x, Steps c m.below.length (m.prepare c) x →
      ¬ (x.top.phase = .created ∧ x.top.message.isCreate = true ∧ x.top.address = m.top.address)
  · refine .inl (hafter.tracks (evolves_codeless c m.top.address).tracks hidle ?_)
    -- there was room for the contract
    have vacant : Ledger.code m.ledger m.top.address = #[] := by
      by_contra hcode
      obtain ⟨e, hrefused⟩ := m.toLocal.refused_of_code c hcreate hcode
      exact absurd (hrefused.symm.trans hprepared) nofun
    have hstate := Local.state_attempt_prepare_of_none hprepared
    change Ledger.state (m.prepare c).ledger = _ at hstate
    rw [hstate, LedgerState.code_afterEntry]
    exact vacant
  · push Not at hidle
    obtain ⟨x, hx, hnew, hcreates, haddress⟩ := hidle
    exact .inr ⟨x, hm.clashes hfork hfresh.phase hcreate hprepared hx hnew hcreates haddress⟩

end Machine

end Evm
