import Mathlib.Control.Lawful
import Evm.Proofs.Instruction.Coupling
import Evm.Proofs.Instruction.Footprint

namespace Evm

/-!
# Requests for children

A call or a creation first prices its child and sets gas aside for it.  Only then does it look
whether the child can run, and if not it takes everything back.  The two parts are told apart here.

* `Effect.Quote` — what the first part comes to, and `Effect.Quote.decide` — the second part.
* `Effect.quoteCall`, `Effect.quoteCreate` — the first part of calls and of creations.
* `Effect.call_eq`, `Effect.create_eq` — an instruction is its two parts.
* `Effect.onward_of_quote` — the frame has paid for all that the child gets, the stipend included.
-/

namespace Effect

variable {L : Type}

/-! ### Effects in two parts -/

section Parts

variable {α β γ : Type} {f : β → Effect L γ}

/-- An effect and what follows it, the last part of which is the same for all. -/
theorem bind_factor {e : Effect L α} {k : α → Effect L γ} {k' : α → Effect L β}
    (h : ∀ a, k a = k' a >>= f) : e >>= k = (e >>= k') >>= f := by
  rw [bind_assoc]
  exact bind_congr h

/-- A common last part comes out of a branch. -/
theorem ite_factor {p : Prop} [Decidable p] {x y : Effect L γ} {x' y' : Effect L β}
    (hx : x = x' >>= f) (hy : y = y' >>= f) :
    (if p then x else y) = (if p then x' else y') >>= f := by
  split
  · exact hx
  · exact hy

/-- An effect that only runs in some cases, and what follows it. -/
theorem ite_bind_factor {p : Prop} [Decidable p] {e : Effect L Unit} {k : Unit → Effect L γ}
    {k' : Unit → Effect L β} (h : ∀ u, k u = k' u >>= f) :
    (if p then e >>= k else k ()) = (if p then e >>= k' else k' ()) >>= f :=
  ite_factor (bind_factor h) (h ())

/-- A value that is found in one way or another, and what follows. -/
theorem either_factor {p : Prop} [Decidable p] {e e' : Effect L α} {k : α → Effect L γ}
    {k' : α → Effect L β} (h : ∀ a, k a = k' a >>= f) :
    (if p then e >>= k else e' >>= k) = (if p then e >>= k' else e' >>= k') >>= f :=
  ite_factor (bind_factor h) (bind_factor h)

end Parts

/-! ### Quotes -/

/-- What a request has come to before it is known whether the child can run. -/
structure Quote (L : Type) where
  /-- The value that the child gets. -/
  value : Word
  /-- Gas that the frame has spent on the child. -/
  setAside : Nat
  /-- Gas that the child gets on top. -/
  stipend : Nat
  /-- Asks for the child. -/
  ask : Effect L Flow

/-- The gas of the child. -/
def Quote.gasLimit (q : Quote L) : Nat := q.setAside + q.stipend

variable [Ledger L]

/-- Asks for the child, or skips it. -/
def Quote.decide (c : Context) (q : Quote L) : Effect L Flow := do
  if ← canSpawn c q.value then q.ask else skipSpawn q.gasLimit

/-- Prices a call and sets gas aside for the child. -/
def quoteCall (c : Context) (form : CallForm) : Effect L (Quote L) := do
  let (requested, target) ← pop2
  let target := target.toAddress
  let value ← if form.takesValue then pop else pure 0
  let (inOffset, inLen, outOffset, outLen) ← pop4
  if form = .call ∧ value ≠ 0 then requireNonStatic
  accessAccount c.fork target Gas.coldAccountSurcharge
  let inOffset := inOffset.clampOffset
  let inLen := inLen.clampOffset
  let outOffset := outOffset.clampOffset
  let outLen := outLen.clampOffset
  extendMemory inOffset inLen
  extendMemory outOffset outLen
  if value ≠ 0 then charge Gas.callValue
  if form = .call ∧ targetIsNew c.fork (← ledger) target value then charge Gas.newAccount
  match Gas.forCall c.fork (← frame).gas.remaining requested with
  | .ok setAside =>
    charge setAside
    let stipend := Agree.stipend value
    return {
      value
      setAside
      stipend
      ask := do
        let input ← readMemory inOffset inLen
        let message := form.message (← frame).message target value input (setAside + stipend)
        return .spawn message (.call outOffset outLen) }
  | .error e => throw e

/-- Prices a creation and sets gas aside for the child. -/
def quoteCreate (c : Context) (salted : Bool) : Effect L (Quote L) := do
  requireNonStatic
  let (value, offset, size) ← pop3
  let kind ← if salted then CallKind.create2 <$> pop else pure CallKind.create
  let offset := offset.clampOffset
  let size := size.clampOffset
  extendMemory offset size
  requireInitCodeSize c size
  charge (Gas.initCode c.fork size)
  if salted then charge (Gas.keccakWords size)
  let initCode ← readMemory offset size
  let creator := (← frame).address
  let target := creationTarget kind (← ledger) creator initCode
  let setAside := Gas.forCreate c.fork (← frame).gas.remaining
  charge setAside
  return {
    value
    setAside
    stipend := 0
    ask := do
      let message : Message :=
        { kind
          sender := creator
          recipient := target
          codeAddress := target
          input := initCode
          value
          gasLimit := setAside
          depth := (← frame).message.childDepth }
      return .spawn message .create }

/-- A call is a quote and a decision. -/
theorem call_eq (c : Context) (form : CallForm) :
    (call c form : Effect L Flow) = quoteCall c form >>= Quote.decide c := by
  refine bind_factor fun (requested, target) => ?_
  refine either_factor fun value => ?_
  refine bind_factor fun (inOffset, inLen, outOffset, outLen) => ?_
  refine ite_bind_factor fun _ => ?_
  refine bind_factor fun _ => ?_
  refine bind_factor fun _ => ?_
  refine bind_factor fun _ => ?_
  refine ite_bind_factor fun _ => ?_
  refine bind_factor fun l => ?_
  refine ite_bind_factor fun _ => ?_
  rw [reserveCallGas, bind_assoc]
  refine bind_factor fun f => ?_
  cases Gas.forCall c.fork f.gas.remaining requested with
  | error e => rfl
  | ok setAside =>
    -- what the child gets is written as a sum in one place and by cases in the other
    have sum : (if value = 0 then setAside else setAside + Gas.callStipend) =
        setAside + Agree.stipend value := by
      unfold Agree.stipend
      split <;> rfl
    dsimp only
    rw [bind_assoc]
    refine bind_factor fun _ => ?_
    rw [pure_bind, pure_bind, sum]
    rfl

/-- So is a creation. -/
theorem create_eq (c : Context) (salted : Bool) :
    (create c salted : Effect L Flow) = quoteCreate c salted >>= Quote.decide c := by
  -- both sides run the same parts up to the decision
  refine bind_factor fun _ => ?_
  refine bind_factor fun (value, offset, size) => ?_
  refine either_factor fun kind => ?_
  refine bind_factor fun _ => ?_
  refine bind_factor fun _ => ?_
  refine bind_factor fun _ => ?_
  refine ite_bind_factor fun _ => ?_
  refine bind_factor fun initCode => ?_
  refine bind_factor fun f => ?_
  refine bind_factor fun l => ?_
  refine bind_factor fun g => ?_
  refine bind_factor fun _ => ?_
  rw [pure_bind]
  rfl

/-! ### What a quote has cost -/

section Cost

variable {f₀ : Frame} {token : Option Nat}

/-- Value that moves costs more than the stipend that comes with it. -/
theorem stipend_le (value : Word) (spent : Nat) :
    spent + Agree.stipend value ≤ if value ≠ 0 then spent + Gas.callValue else spent := by
  have covered : Gas.callStipend ≤ Gas.callValue := by decide
  unfold Agree.stipend
  by_cases hv : value = 0
  · rw [if_pos hv, if_neg (not_not.2 hv)]
    exact Nat.le_refl _
  · rw [if_neg hv, if_pos hv]
    exact Nat.add_le_add_left covered _

/-- So the frame has paid for the whole child. -/
theorem Leads.quoteCall (c : Context) (form : CallForm) (spent : Nat) :
    Leads f₀ token (Eq : L → L → Prop) spent (quoteCall c form) (quoteCall c form)
      -- a quote run beside itself, with what each part costs written down
      fun q => Aligned f₀ token Eq (spent + q.gasLimit) := by
  have h := InstructionCoupling.refl (L := L) f₀.message
  refine Leads.after (Agree.onStack Stack.pop2) fun (requested, target) => ?_
  refine Leads.either_after Agree.pop (Agree.pure 0) fun value => ?_
  refine Leads.after (Agree.onStack Stack.pop4) fun (inOffset, inLen, outOffset, outLen) => ?_
  refine Leads.ite_after Iff.rfl Agree.requireNonStatic fun _ => ?_
  refine Leads.after (Agree.accessAccount h c.fork _ Gas.coldAccountSurcharge) fun _ => ?_
  refine Leads.after (Agree.extendMemory inOffset.clampOffset inLen.clampOffset) fun _ => ?_
  refine Leads.after (Agree.extendMemory outOffset.clampOffset outLen.clampOffset) fun _ => ?_
  refine Leads.ite_charge_bind fun _ => ?_
  refine Leads.ledger_bind fun l k hq => ?_
  subst hq
  refine Leads.ite_after Iff.rfl (Agree.charge Gas.newAccount) fun _ => ?_
  refine Leads.frame_bind fun f _ => ?_
  rw [Frame.withSnapshot_gas]
  cases Gas.forCall c.fork f.gas.remaining requested with
  | error e => exact Leads.throw e
  | ok setAside =>
    refine Leads.charge_bind fun _ => Leads.pure fun s t hst => hst.weaken ?_
    have paid := stipend_le value spent
    show spent + (setAside + Agree.stipend value) ≤ _
    omega

/-- The quote for a creation, led side by side with itself. -/
theorem Leads.quoteCreate (c : Context) (salted : Bool) (spent : Nat) :
    Leads f₀ token (Eq : L → L → Prop) spent (quoteCreate c salted) (quoteCreate c salted)
      fun q => Aligned f₀ token Eq (spent + q.gasLimit) := by
  refine Leads.requireNonStatic_bind fun _ => ?_
  refine Leads.after (Agree.onStack Stack.pop3) fun (value, offset, size) => ?_
  refine Leads.either_after (Agree.bind Agree.pop fun salt => Agree.pure (CallKind.create2 salt))
    (Agree.pure CallKind.create) fun kind => ?_
  refine Leads.after (Agree.extendMemory offset.clampOffset size.clampOffset) fun _ => ?_
  refine Leads.after (Agree.requireInitCodeSize c size.clampOffset) fun _ => ?_
  refine Leads.after (Agree.charge (Gas.initCode c.fork size.clampOffset)) fun _ => ?_
  refine Leads.ite_after Iff.rfl (Agree.charge (Gas.keccakWords size.clampOffset)) fun _ => ?_
  refine Leads.after (Agree.readMemory offset.clampOffset size.clampOffset) fun initCode => ?_
  refine Leads.frame_bind fun f _ => Leads.ledger_bind fun l k hq => Leads.frame_bind fun g _ => ?_
  subst hq
  exact Leads.charge_bind fun _ => Leads.pure fun _ _ hst => hst

end Cost

omit [Ledger L] in
/-- What an effect that succeeds has cost its frame at least. -/
theorem Leads.onward {α : Type} {e : Effect L α} {s t : Local L} {a : α} {cost : α → Nat}
    (he : Leads s.frame s.frame.snapshot (Eq : L → L → Prop) 0 e e
      fun a => Aligned s.frame s.frame.snapshot Eq (cost a))
    (h : e.run s = .ok a t) : s.frame.Onward (cost a) t.frame := by
  have same := he s s ⟨rfl, ⟨rfl, Nat.le_refl _⟩, rfl⟩
  rw [h] at same
  cases same with
  | ok aligned => exact aligned.onward

/-- The quotes of the instructions that ask for children. -/
def quote? (c : Context) : Instruction → Option (Effect L (Quote L))
  | .call => some (quoteCall c .call)
  | .callCode => some (quoteCall c .callCode)
  | .delegateCall => some (quoteCall c .delegateCall)
  | .staticCall => some (quoteCall c .staticCall)
  | .create => some (quoteCreate c false)
  | .create2 => some (quoteCreate c true)
  | _ => none

/-- An instruction with a quote decides by it. -/
theorem ofInstruction_eq_quote {c : Context} {ancestors : List Frame} {i : Instruction}
    {quote : Effect L (Quote L)} (h : quote? c i = some quote) :
    ofInstruction c ancestors i = quote >>= Quote.decide c := by
  cases i with
  | call | callCode | delegateCall | staticCall =>
    rw [← Option.some.inj h]
    exact call_eq c _
  | create | create2 =>
    rw [← Option.some.inj h]
    exact create_eq c _
  | _ => cases h

/-- A frame has paid for its child once it has been quoted. -/
theorem onward_of_quote {c : Context} {i : Instruction} {quote : Effect L (Quote L)}
    -- the quote of each instruction that has one, led by its own lemma
    (h : quote? c i = some quote) {s t : Local L} {q : Quote L}
    (hrun : EStateM.run (do charge (i.staticGas c.fork); quote) s = .ok q t) :
    s.frame.Onward q.gasLimit t.frame := by
  have led : Leads s.frame s.frame.snapshot (Eq : L → L → Prop) 0
      (do charge (i.staticGas c.fork); quote) (do charge (i.staticGas c.fork); quote)
      fun q => Aligned s.frame s.frame.snapshot Eq (0 + i.staticGas c.fork + q.gasLimit) := by
    refine Leads.charge_bind fun _ => ?_
    cases i with
    | call | callCode | delegateCall | staticCall =>
      rw [← Option.some.inj h]
      exact Leads.quoteCall c _ _
    | create | create2 =>
      rw [← Option.some.inj h]
      exact Leads.quoteCreate c _ _
    | _ => cases h
  exact (led.onward hrun).weaken (Nat.le_add_left _ _)

/-! ### Children that are skipped -/

omit [Ledger L] in
/-- A frame that goes on without its child takes the gas back, even if the zero finds no room. -/
theorem final_skipSpawn_gas (reserved : Nat) (s : Local L) :
    (final (skipSpawn reserved) s).frame.gas = s.frame.gas.giveBack reserved := by
  -- whether there is room for the zero on the stack does not matter to the gas
  rw [skipSpawn, final_bind_of_ok (show (modifyFrame _).run s = .ok () _ from rfl), final_next,
    push, updateStack, final, run_onStack]
  dsimp only
  split
  · rename_i h
    split at h
    · cases h
      rfl
    · cases h
  · rename_i h
    split at h
    · cases h
    · cases h
      rfl

/-- Where the turn of a frame whose child is skipped leads. -/
theorem final_paidEffect_of_skip {c : Context} {ancestors : List Frame} {i : Instruction}
    {quote : Effect L (Quote L)} (h : quote? c i = some quote) {s t : Local L} {q : Quote L}
    (hrun : EStateM.run (do charge (i.staticGas c.fork); quote) s = .ok q t)
    (hskip : (canSpawn c q.value).run t = .ok false t) :
    final (Local.paidEffect c ancestors i) s = final (skipSpawn q.gasLimit) t := by
  have parts : (Local.paidEffect c ancestors i : Effect L Flow) =
      (do charge (i.staticGas c.fork); quote) >>= Quote.decide c := by
    rw [Local.paidEffect, ofInstruction_eq_quote h, bind_assoc]
  rw [parts, final_bind_of_ok hrun, Quote.decide, final_bind_of_ok hskip]
  rfl

end Effect

/-- A frame whose child is skipped has exactly the gas back that it had set aside, and the
    stipend. -/
theorem Local.turn_skipped {L : Type} [Ledger L] {c : Context} (ancestors : List Frame)
    (trace : Trace) {s t : Local L} {i : Instruction} {quote : Effect L (Effect.Quote L)}
    {q : Effect.Quote L} (hnext : s.frame.nextInstruction c.fork = some i)
    (h : Effect.quote? c i = some quote)
    (hrun : EStateM.run (do Effect.charge (i.staticGas c.fork); quote) s = .ok q t)
    (hskip : (Effect.canSpawn c q.value).run t = .ok false t) :
    (s.turn c ancestors trace).2.1.frame.gas.remaining =
      t.frame.gas.remaining + q.setAside + q.stipend := by
  have paid := Effect.onward_of_quote h hrun
  have hlimit : t.frame.gas.limit = s.frame.gas.limit :=
    congrArg Frame.Activation.gasLimit paid.activation
  -- the gas that is given back was the frame's own, so it fits under the limit
  have room : t.frame.gas.remaining + q.gasLimit ≤ t.frame.gas.limit := by
    have := paid.gas
    have := s.frame.gas.remaining_le
    omega
  have turned : (s.turn c ancestors trace).2.1.frame.gas =
      (Effect.final (paidEffect c ancestors i) s).frame.gas := by
    rw [turn_eq_runInstruction ancestors trace hnext]
    obtain ⟨program, heq⟩ := s.runInstruction_final c ancestors trace i
    rw [heq]
  rw [turned, Effect.final_paidEffect_of_skip h hrun hskip, Effect.final_skipSpawn_gas]
  show min (t.frame.gas.remaining + q.gasLimit) t.frame.gas.limit = _
  rw [Nat.min_eq_left room, Effect.Quote.gasLimit, Nat.add_assoc]

end Evm
