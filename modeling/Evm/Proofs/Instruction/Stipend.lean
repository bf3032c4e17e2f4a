import Evm.Proofs.Instruction.Refund

namespace Evm

/-!
# What a stipend buys

The gas that comes for free with value does not pay for a storage write, a creation, a destruction
or a transfer of value.  For writes each fork has a reason of its own: they cost more than that
where they are not metered by what they change, and are refused with so little gas where they are.

* `Gas.stipend_lt_storageWrite` — the price of a write without net metering.
* `Effect.Gives` — what an effect can only succeed with.
* `Message.IsEndowed` — a call, with which value moves only if the stipend comes on top.
* `Local.Faint` — no more than accesses and records.
* `Local.turn_of_stipend` — all that a turn does with the gas of a stipend.
-/

/-! ### Prices -/

/-- Without net metering a write costs more than a stipend. -/
theorem Gas.stipend_lt_storageWrite {fork : Fork} (h : fork.netMetering = false)
    (start current new : Word) : callStipend < (storageWrite fork start current new).charge := by
  rw [storageWrite, if_neg (Bool.eq_false_iff.1 h), grossWrite]
  dsimp only
  split <;> decide

/-- Before Istanbul only Constantinople has net metering. -/
theorem Fork.netMetering_eq_false {fork : Fork} (hfork : fork ≠ .constantinople)
    (hearly : ¬ .istanbul ≤ fork) : fork.netMetering = false := by
  simp [netMetering, hfork, hearly]

/-- So do creations and, from Tangerine Whistle on, destructions. -/
theorem Instruction.stipend_lt_staticGas {fork : Fork} (hfork : .tangerineWhistle ≤ fork)
    {i : Instruction} (h : i = .create ∨ i = .create2 ∨ i = .selfDestruct) :
    Gas.callStipend < i.staticGas fork := by
  rcases h with rfl | rfl | rfl
  · exact (by decide : Gas.callStipend < Gas.create)
  · exact (by decide : Gas.callStipend < Gas.create)
  · show _ < Gas.selfDestruct fork
    rw [Gas.selfDestruct, if_pos hfork]
    decide

variable {L : Type}

namespace Effect

variable {α β : Type}

/-! ### What effects give -/

/-- Wherever the effect succeeds, what it gives has the property. -/
def Gives (e : Effect L α) (P : α → Prop) : Prop :=
  ∀ s, Ensures e (fun a _ => P a) (fun _ => True) s

namespace Gives

variable {P : α → Prop} {Q : β → Prop}

/-- A value of the kind is given. -/
theorem pure {a : α} (h : P a) : Gives (Pure.pure a : Effect L α) P := fun _ => .pure h

/-- A failure gives nothing. -/
theorem throw (e : VmError) : Gives (MonadExcept.throw e : Effect L α) P := fun _ => .throw trivial

/-- Less may be said of what is given. -/
theorem mono {P' : α → Prop} {e : Effect L α} (he : Gives e P) (h : ∀ a, P a → P' a) :
    Gives e P' :=
  fun s => (he s).mono fun a _ ha => h a ha

/-- What comes second gives it, whatever the first part gives. -/
theorem bind {e : Effect L α} {k : α → Effect L β} (he : Gives e P)
    (hk : ∀ a, P a → Gives (k a) Q) : Gives (e >>= k) Q :=
  fun s => .bind ((he s).mono fun a t ha => hk a ha t)

/-- An effect on the way, of which nothing is asked. -/
theorem after {e : Effect L α} {k : α → Effect L β} (hk : ∀ a, Gives (k a) Q) :
    Gives (e >>= k) Q := by
  have anything : Gives e fun _ => True := fun s => .of_final (P := fun _ => True) trivial
  exact bind anything fun a _ => hk a

/-- Both branches give it. -/
theorem ite {p : Prop} [Decidable p] {e e' : Effect L α} (he : Gives e P) (he' : Gives e' P) :
    Gives (if p then e else e') P :=
  fun s => .ite (fun _ => he s) fun _ => he' s

/-- An effect that only runs in some cases, and what follows it. -/
theorem ite_after {p : Prop} [Decidable p] {e : Effect L Unit} {k : Unit → Effect L β}
    (hk : ∀ u, Gives (k u) Q) : Gives (if p then e >>= k else k ()) Q :=
  ite (after hk) (hk ())

/-- A part of an instruction and where control goes after it. -/
theorem next {e : Effect L Unit} {flow : Flow} {P : Flow → Prop} (h : P flow) :
    Gives (do e; return flow) P :=
  after fun _ => pure h

end Gives

end Effect

/-! ### Requests -/

/-- A call, with which value moves only if the stipend comes on top of its gas. -/
structure Message.IsEndowed (message : Message) : Prop where
  isCreate : message.isCreate = false
  stipend : message.kind.transfersValue = true → message.value ≠ 0 →
    Gas.callStipend ≤ message.gasLimit

/-- The instruction may ask for a child. -/
def Instruction.asksForChild : Instruction → Bool
  | .call | .callCode | .delegateCall | .staticCall | .create | .create2 => true
  | _ => false

/-- No child is asked for. -/
def Flow.IsOwn : Flow → Prop
  | .spawn _ _ => False
  | _ => True

/-- If a child is asked for, it is a call like that. -/
def Flow.AsksEndowed : Flow → Prop
  | .spawn message _ => message.IsEndowed
  | _ => True

namespace Effect.Gives

variable [Ledger L]

/-- A call asks for a child that has the stipend if it is given value. -/
theorem call (c : Context) (form : CallForm) :
    Gives (Effect.call c form : Effect L Flow) Flow.AsksEndowed := by
  -- a value is sent along with the stipend, on top of what was asked for
  have reserved (requested value : Word) : Gives (reserveCallGas c requested value : Effect L Nat)
      fun gas => value ≠ 0 → Gas.callStipend ≤ gas := by
    refine after fun f => ?_
    cases Gas.forCall c.fork f.gas.remaining requested with
    | error e => exact throw e
    | ok gas =>
      refine after fun _ => pure fun hvalue => ?_
      rw [if_neg hvalue]
      exact Nat.le_add_left _ _
  refine after fun (requested, target) => ?_
  refine ite (after fun value => ?_) (after fun value => ?_)
  all_goals
    refine after fun (inOffset, inLen, outOffset, outLen) => ?_
    refine ite_after fun _ => after fun _ => after fun _ => after fun _ => ite_after fun _ => ?_
    refine after fun _ => ite_after fun _ => bind (reserved requested value) fun gasLimit hgas => ?_
    refine after fun _ => ite (after fun input => after fun f => pure ?_) (after fun _ => ?_)
    · show (form.message f.message target.toAddress value input gasLimit).IsEndowed
      cases form with
      | call | callCode => exact ⟨rfl, fun _ => hgas⟩
      | delegateCall | staticCall => exact ⟨rfl, nofun⟩
    · exact after fun _ => pure trivial

/-- Instructions that are neither calls nor creations ask for no child. -/
theorem own (c : Context) (ancestors : List Frame) {i : Instruction}
    (h : i.asksForChild = false) :
    Gives (Effect.ofInstruction c ancestors i : Effect L Flow) Flow.IsOwn := by
  -- where a jump lands, or that it does not, is the frame's own affair
  have jump (target : Word) : Gives (jumpTo target : Effect L Flow) Flow.IsOwn := by
    refine after fun f => ?_
    cases f.program.jump (min target.toNat Counter.limit) with
    | ok program => exact after fun _ => pure trivial
    | error e => exact throw e
  cases i with
  | create | create2 | call | callCode | delegateCall | staticCall => cases h
  | jump => exact after fun target => jump target
  | jumpi => exact after fun _ => ite (pure trivial) (jump _)
  | stop | jumpDest => exact pure trivial
  | invalid => exact throw _
  | revert => exact after fun _ => throw _
  | _ => exact next trivial

/-- All instructions but creations ask at most for a call like that. -/
theorem ofInstruction (c : Context) (ancestors : List Frame) {i : Instruction}
    (hcreate : i ≠ .create) (hcreate2 : i ≠ .create2) :
    Gives (Effect.ofInstruction c ancestors i : Effect L Flow) Flow.AsksEndowed := by
  cases hasks : i.asksForChild with
  | false =>
    refine (own c ancestors hasks).mono fun flow hown => ?_
    cases flow with
    | spawn message k => cases hown
    | next | jumped | halt => trivial
  | true =>
    cases i with
    | create => exact absurd rfl hcreate
    | create2 => exact absurd rfl hcreate2
    | call | callCode | delegateCall | staticCall => exact call c _
    | _ => cases hasks

end Effect.Gives

/-! ### Turns on a stipend -/

variable [Ledger L]

/-- Nothing but accesses and records. -/
structure Local.Faint (s t : Local L) : Prop where
  selfDestructs : t.frame.selfDestructs = s.frame.selfDestructs
  ledger : Ledger.Accessed s.ledger t.ledger

/-- What is quiet is faint. -/
theorem Local.Quiet.faint {s t : Local L} (h : s.Quiet t) : s.Faint t := ⟨h.selfDestructs, h.ledger⟩

/-- Instructions that write only leave more if they are the storage write or the destruction. -/
theorem Local.Did.faint {s t : Local L} {i : Instruction} (h : s.Did i t) (hstore : i ≠ .sstore)
    (hdestroy : i ≠ .selfDestruct) : s.Faint t := by
  cases h with
  | quiet hquiet => exact hquiet.faint
  | logged entry _ hquiet _ => exact ⟨hquiet.selfDestructs, hquiet.ledger⟩
  | stored => exact absurd rfl hstore
  | destroyed => exact absurd rfl hdestroy

namespace Effect

omit [Ledger L] in
/-- A charge that cannot be paid fails. -/
theorem Ensures.charge_of_lt {amount : Nat} {s : Local L} {Q : Unit → Local L → Prop}
    {E : Local L → Prop} (h : s.frame.gas.remaining < amount) (hE : E s) :
    Ensures (Effect.charge amount) Q E s := by
  refine Ensures.charge (fun gas hgas => ?_) hE
  have paid := (Meter.consume_eq_ok_iff.1 hgas).2.1
  omega

/-- A storage write does not go through on a stipend. -/
theorem sstore_of_stipend {c : Context} (hfork : c.fork ≠ .constantinople) {s : Local L}
    (hgas : s.frame.gas.remaining ≤ Gas.callStipend) :
    Ensures (sstore c) (fun _ _ => False) (fun t => s.Quiet t) s := by
  refine .bind (.requireNonStatic (fun _ => ?_) (.refl s))
  refine .bind (.frame_bind (.ite (fun _ => .throw (.refl s)) fun hsentry => .pure ?_))
  have gross : c.fork.netMetering = false :=
    Fork.netMetering_eq_false hfork fun hnet => hsentry ⟨hnet, hgas⟩
  refine .bind (.onStack (fun (key, value) stack _ => ?_) (.refl s))
  have popped : s.Quiet { s with frame := { s.frame with stack } } := ⟨rfl, rfl, rfl, rfl, .refl _⟩
  refine .frame_bind (.bind (.accessSlot (fun gas l hremaining hrefund hl => ?_) fun t ht =>
    popped.trans ht))
  refine .ledger_bind (.bind (.charge_of_lt ?_ ?_))
  · exact Nat.lt_of_le_of_lt (Nat.le_trans hremaining hgas) (Gas.stipend_lt_storageWrite gross _ _ _)
  · exact ⟨rfl, rfl, rfl, hrefund, hl⟩

/-- With the gas of a stipend an instruction leaves accesses and records at most, and the child that
    it asks for is a call like that. -/
theorem paidEffect_of_stipend {c : Context} (hfork : .tangerineWhistle ≤ c.fork)
    (hother : c.fork ≠ .constantinople) (ancestors : List Frame) (i : Instruction) {s : Local L}
    (hgas : s.frame.gas.remaining ≤ Gas.callStipend) :
    Ensures (Local.paidEffect c ancestors i) (fun flow t => s.Faint t ∧ flow.AsksEndowed)
      (fun t => s.Faint t) s := by
  have still : s.Faint s := ⟨rfl, .refl _⟩
  -- what is dear fails at its charge; a write to storage fails at its own guard
  by_cases hdear : i = .create ∨ i = .create2 ∨ i = .selfDestruct
  · exact .bind (.charge_of_lt (Nat.lt_of_le_of_lt hgas (i.stipend_lt_staticGas hfork hdear)) still)
  · push Not at hdear
    obtain ⟨hcreate, hcreate2, hdestroy⟩ := hdear
    refine .bind (.charge (fun gas hpaid => ?_) still)
    have less : gas.remaining ≤ Gas.callStipend := by
      have := (Meter.consume_eq_ok_iff.1 hpaid).2.1
      omega
    by_cases hstore : i = .sstore
    · subst hstore
      refine .bind ((sstore_of_stipend hother less).imp (fun _ _ => False.elim) fun t ht => ?_)
      exact ⟨ht.selfDestructs, ht.ledger⟩
    -- the rest may go on, and changes nothing
    · have did := ofInstruction_did c ancestors i { s with frame := { s.frame with gas } }
      have gives := Gives.ofInstruction c ancestors hcreate hcreate2
        { s with frame := { s.frame with gas } }
      have faint : s.Faint (final (ofInstruction c ancestors i)
          { s with frame := { s.frame with gas } }) := by
        obtain ⟨hdestructs, hledger⟩ := did.faint hstore hdestroy
        exact ⟨hdestructs, hledger⟩
      unfold Ensures at gives ⊢
      unfold final at faint
      split at gives
      · rename_i hrun
        rw [hrun] at faint ⊢
        exact ⟨faint, gives⟩
      · rename_i hrun
        rw [hrun] at faint ⊢
        exact faint

end Effect

/-- With the gas of a stipend a turn leaves accesses and records at most, and asks at most for a
    call that moves no value. -/
theorem Local.turn_of_stipend {c : Context} (hfork : .tangerineWhistle ≤ c.fork)
    (hother : c.fork ≠ .constantinople) {ancestors : List Frame} {s t : Local L}
    {trace trace' : Trace} {o : Outcome} (hgas : s.frame.gas.remaining ≤ Gas.callStipend)
    (h : s.turn c ancestors trace = (o, t, trace')) :
    s.Faint t ∧ ∀ message k, o = .waits message k → message.IsEndowed := by
  cases hnext : s.frame.nextInstruction c.fork with
  | none =>
    obtain ⟨rfl, rfl | ⟨e, rfl⟩⟩ := turn_ends h hnext
    · exact ⟨⟨rfl, .refl _⟩, nofun⟩
    · exact ⟨⟨rfl, .refl _⟩, nofun⟩
  | some i =>
    have paid := Effect.paidEffect_of_stipend hfork hother ancestors i hgas
    rcases turn_ensures h hnext paid with ⟨flow, u, ⟨hfaint, hasks⟩, hfollow⟩ | ⟨⟨e, rfl⟩, hfaint⟩
    · -- where the program goes on does not matter
      cases flow with
      | next | jumped | halt =>
        cases hfollow
        exact ⟨⟨hfaint.selfDestructs, hfaint.ledger⟩, nofun⟩
      | spawn message k =>
        cases hfollow
        refine ⟨⟨hfaint.selfDestructs, hfaint.ledger⟩, ?_⟩
        rintro _ _ ⟨⟩
        exact hasks
    · exact ⟨hfaint, nofun⟩

end Evm
