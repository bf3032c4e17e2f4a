import Evm.Instruction.Run
import Evm.Proofs.Ledger.Standard
import Evm.Proofs.Ledger.State
import Evm.Proofs.Memory

namespace Evm

/-!
# Agreement of effects

The same effect, run on two ledgers between which an instruction cannot tell, comes to the same
value or the same failure, and leaves ledgers between which one cannot tell again.

* `Frame.activation` — what instructions leave alone in their frame.
* `InstructionCoupling` — a relation between ledgers that shows the same answers on both sides
  and lasts under the writes of a frame.
* `Effect.Aligned`, `Effect.Agree` — frames that differ in the name of their snapshot, and effects
  that keep them so.
* `Effect.Agree.bind` and its kin — how agreement follows the structure of an effect.
-/

/-! ### Frames -/

namespace Frame

/-- The frame with another name for its snapshot. -/
def withSnapshot (f : Frame) (token : Option Nat) : Frame := { f with snapshot := token }

@[simp] theorem withSnapshot_message (f : Frame) (token : Option Nat) :
    (f.withSnapshot token).message = f.message := rfl

@[simp] theorem withSnapshot_stack (f : Frame) (token : Option Nat) :
    (f.withSnapshot token).stack = f.stack := rfl

@[simp] theorem withSnapshot_memory (f : Frame) (token : Option Nat) :
    (f.withSnapshot token).memory = f.memory := rfl

@[simp] theorem withSnapshot_gas (f : Frame) (token : Option Nat) :
    (f.withSnapshot token).gas = f.gas := rfl

@[simp] theorem withSnapshot_program (f : Frame) (token : Option Nat) :
    (f.withSnapshot token).program = f.program := rfl

@[simp] theorem withSnapshot_output (f : Frame) (token : Option Nat) :
    (f.withSnapshot token).output = f.output := rfl

@[simp] theorem withSnapshot_error (f : Frame) (token : Option Nat) :
    (f.withSnapshot token).error = f.error := rfl

@[simp] theorem withSnapshot_address (f : Frame) (token : Option Nat) :
    (f.withSnapshot token).address = f.address := rfl

@[simp] theorem withSnapshot_depth (f : Frame) (token : Option Nat) :
    (f.withSnapshot token).depth = f.depth := rfl

/-- What a frame has registered does not depend on the name of its snapshot. -/
@[simp] theorem withSnapshot_hasSelfDestructed (f : Frame) (token : Option Nat) (a : Address) :
    (f.withSnapshot token).hasSelfDestructed a = f.hasSelfDestructed a := rfl

/-- What stays the same in a frame while its instructions run. -/
structure Activation where
  message : Message
  gasLimit : Nat
  code : Code
  phase : Phase
  snapshot : Option Nat
  continuation : Option Continuation
  error : Option VmError
  /-- The effects of a frame that may have none. -/
  sealedEffects : Option (Array Log × Array Address)

/-- What instructions leave alone in the frame. -/
def activation (f : Frame) : Activation where
  message := f.message
  gasLimit := f.gas.limit
  code := f.program.code
  phase := f.phase
  snapshot := f.snapshot
  continuation := f.continuation
  error := f.error
  sealedEffects := if f.isStatic then some (f.logs, f.selfDestructs) else none

/-- Spending gas leaves alone what instructions leave alone. -/
theorem activation_withGas {f : Frame} {gas : Meter} (h : gas.limit = f.gas.limit) :
    ({ f with gas } : Frame).activation = f.activation := by
  simp only [activation, h]
  rfl

/-- Instructions leave the message alone. -/
theorem message_eq_of_activation {f g : Frame} (h : f.activation = g.activation) :
    f.message = g.message :=
  congrArg Activation.message h

/-- So a static frame stays static. -/
theorem isStatic_eq_of_activation {f g : Frame} (h : f.activation = g.activation) :
    f.isStatic = g.isStatic :=
  congrArg Message.isStatic (message_eq_of_activation h)

/-- A frame that may have effects is free to collect them. -/
theorem activation_withEffects {f : Frame} (h : f.isStatic = false) (logs : Array Log)
    (selfDestructs : Array Address) :
    ({ f with logs, selfDestructs } : Frame).activation = f.activation := by
  have h' : ({ f with logs, selfDestructs } : Frame).isStatic = false := h
  simp only [activation, h, h', Bool.false_eq_true, if_false]

/-- Registering an account is an effect that only a frame that is not static has. -/
theorem activation_registerSelfDestruct {f : Frame} (h : f.isStatic = false) (a : Address) :
    (f.registerSelfDestruct a).activation = f.activation := by
  unfold registerSelfDestruct
  split
  · rfl
  · exact activation_withEffects h f.logs (f.selfDestructs.push a)

/-- A frame on its way: what instructions leave alone is as it was, and at least so much gas has
    been spent. -/
structure Onward (f₀ : Frame) (spent : Nat) (f : Frame) : Prop where
  activation : f.activation = f₀.activation
  gas : f.gas.remaining + spent ≤ f₀.gas.remaining

namespace Onward

variable {f₀ f : Frame} {spent : Nat}

/-- Less has been spent where more has been. -/
theorem weaken (h : f₀.Onward spent f) {less : Nat} (hle : less ≤ spent) : f₀.Onward less f :=
  ⟨h.activation, by have := h.gas; omega⟩

/-- A charge on the way. -/
theorem consume (h : f₀.Onward spent f) {amount : Nat} {gas : Meter}
    (hgas : f.gas.consume amount = .ok gas) : f₀.Onward (spent + amount) { f with gas } := by
  obtain ⟨hlimit, hremaining, -⟩ := Meter.consume_eq_ok_iff.1 hgas
  refine ⟨(activation_withGas hlimit).trans h.activation, ?_⟩
  have := h.gas
  change gas.remaining + (spent + amount) ≤ f₀.gas.remaining
  omega

end Onward

end Frame

/-! ### Ledgers -/

section Ledgers

variable {L₁ L₂ : Type} [Ledger L₁] [Ledger L₂]

/-- Two ledgers that answer every question of an instruction alike. -/
structure Ledger.SameAnswers (l : L₁) (k : L₂) : Prop where
  state : Ledger.state l = Ledger.state k
  codeHash (a : Address) : Ledger.codeHash l a = Ledger.codeHash k a
  committedStorage (s : Slot) : Ledger.committedStorage l s = Ledger.committedStorage k s
  warmth : Ledger.warmth l = Ledger.warmth k

namespace Ledger.SameAnswers

variable {l : L₁} {k : L₂} (h : SameAnswers l k)

include h

/-- Balances are among the answers. -/
theorem balance (a : Address) : Ledger.balance l a = Ledger.balance k a :=
  congrArg (LedgerState.balance · a) h.state

/-- So are nonces. -/
theorem nonce (a : Address) : Ledger.nonce l a = Ledger.nonce k a :=
  congrArg (LedgerState.nonce · a) h.state

/-- So is code. -/
theorem code (a : Address) : Ledger.code l a = Ledger.code k a :=
  congrArg (LedgerState.code · a) h.state

/-- So is whether an account is there. -/
theorem accountExists (a : Address) : Ledger.accountExists l a = Ledger.accountExists k a :=
  congrArg (LedgerState.present · a) h.state

/-- So is storage. -/
theorem storage (s : Slot) : Ledger.storage l s = Ledger.storage k s :=
  congrArg (LedgerState.storage · s) h.state

/-- An access to an account is cold on one side if it is on the other. -/
theorem accessAccount (a : Address) :
    (Ledger.accessAccount l a).1 = (Ledger.accessAccount k a).1 :=
  congrArg (Warmth.account · a) h.warmth

/-- An access to a slot is cold on one side if it is on the other. -/
theorem accessSlot (s : Slot) : (Ledger.accessSlot l s).1 = (Ledger.accessSlot k s).1 :=
  congrArg (Warmth.slot · s) h.warmth

/-- What is drawn from balance, nonce and code is the same as well. -/
theorem isDead [StandardLedger L₁] [StandardLedger L₂] (a : Address) :
    Ledger.isDead l a = Ledger.isDead k a := by
  simp only [StandardLedger.isDead_eq, StandardLedger.isEmpty_eq]
  rw [h.accountExists, h.nonce, h.balance, h.code]

end Ledger.SameAnswers

/-- Two attempts that are both refused for the same reason, or both give the same value.  Either way
    the ledgers that they leave are related. -/
inductive Ledger.SameAttempt {L₁ L₂ α : Type} (Q : L₁ → L₂ → Prop) :
    EStateM.Result StateError L₁ α → EStateM.Result StateError L₂ α → Prop where
  | ok {a : α} {l : L₁} {k : L₂} : Q l k → SameAttempt Q (.ok a l) (.ok a k)
  | error (e : StateError) {l : L₁} {k : L₂} : Q l k → SameAttempt Q (.error e l) (.error e k)

/-- An attempt is like itself. -/
theorem Ledger.SameAttempt.refl {L α : Type} (r : EStateM.Result StateError L α) :
    SameAttempt Eq r r := by
  cases r with
  | ok a l => exact .ok rfl
  | error e l => exact .error e rfl

/-- A relation between ledgers that answer alike and that lasts under every write that an
    instruction of a frame with this message can make. -/
structure InstructionCoupling (m : Message) (Q : L₁ → L₂ → Prop) : Prop where
  answers {l : L₁} {k : L₂} : Q l k → Ledger.SameAnswers l k
  isDead {l : L₁} {k : L₂} : Q l k → ∀ a, Ledger.isDead l a = Ledger.isDead k a
  accessAccount {l : L₁} {k : L₂} : Q l k → ∀ a,
    Q (Ledger.accessAccount l a).2 (Ledger.accessAccount k a).2
  accessSlot {l : L₁} {k : L₂} : Q l k → ∀ s,
    Q (Ledger.accessSlot l s).2 (Ledger.accessSlot k s).2
  setStorage {l : L₁} {k : L₂} : Q l k → m.isStatic = false → ∀ key value,
    Q (Ledger.setStorage l ⟨m.recipient, key⟩ value) (Ledger.setStorage k ⟨m.recipient, key⟩ value)
  setBalance {l : L₁} {k : L₂} : Q l k → m.isStatic = false → ∀ a balance,
    Q (Ledger.setBalance l a balance) (Ledger.setBalance k a balance)
  addBalance {l : L₁} {k : L₂} : Q l k → m.isStatic = false → ∀ a amount,
    Ledger.SameAttempt Q (Ledger.tryAddBalance a amount l) (Ledger.tryAddBalance a amount k)

/-- Where balances are the same, and are set alike, adding to one comes to the same. -/
theorem Ledger.SameAnswers.tryAddBalance [StandardLedger L₁] [StandardLedger L₂]
    {Q : L₁ → L₂ → Prop} {l : L₁} {k : L₂} (h : Ledger.SameAnswers l k) (hq : Q l k) {a : Address}
    (hset : ∀ balance, Q (Ledger.setBalance l a balance) (Ledger.setBalance k a balance))
    (amount : Word) :
    Ledger.SameAttempt Q (Ledger.tryAddBalance a amount l) (Ledger.tryAddBalance a amount k) := by
  rw [StandardLedger.tryAddBalance_eq, StandardLedger.tryAddBalance_eq, h.balance]
  cases (Ledger.balance k a).checkedAdd amount with
  | some sum => exact .ok (hset sum)
  | none => exact .error _ hq

end Ledgers

/-! ### Effects -/

namespace Effect

variable {L₁ L₂ : Type} {α β : Type}

/-- Two runs of a frame stand at the same place, and at least so much gas has been spent on the
    way there. -/
structure Aligned (f₀ : Frame) (token : Option Nat) (Q : L₁ → L₂ → Prop) (spent : Nat)
    (s : Local L₁) (t : Local L₂) : Prop where
  frame : t.frame = s.frame.withSnapshot token
  onward : f₀.Onward spent s.frame
  ledgers : Q s.ledger t.ledger

/-- Two outcomes with the same value or the same failure, at related places. -/
inductive SameOutcome (R : α → Local L₁ → Local L₂ → Prop) (E : Local L₁ → Local L₂ → Prop) :
    EStateM.Result VmError (Local L₁) α → EStateM.Result VmError (Local L₂) α → Prop where
  | ok {a : α} {s : Local L₁} {t : Local L₂} : R a s t → SameOutcome R E (.ok a s) (.ok a t)
  | error {e : VmError} {s : Local L₁} {t : Local L₂} :
      E s t → SameOutcome R E (.error e s) (.error e t)

/-- More may be said of what two effects come to if they succeed. -/
theorem SameOutcome.mono {R R' : α → Local L₁ → Local L₂ → Prop} {E : Local L₁ → Local L₂ → Prop}
    (h : ∀ a s t, R a s t → R' a s t) {r₁ : EStateM.Result VmError (Local L₁) α}
    {r₂ : EStateM.Result VmError (Local L₂) α} (hr : SameOutcome R E r₁ r₂) :
    SameOutcome R' E r₁ r₂ := by
  cases hr with
  | ok h' => exact .ok (h _ _ _ h')
  | error h' => exact .error h'

/-- Two effects that come to the same outcome from any place at which two runs of a frame can
    stand. -/
def Leads (f₀ : Frame) (token : Option Nat) (Q : L₁ → L₂ → Prop) (spent : Nat)
    (e₁ : Effect L₁ α) (e₂ : Effect L₂ α) (R : α → Local L₁ → Local L₂ → Prop) : Prop :=
  ∀ s t, Aligned f₀ token Q spent s t →
    SameOutcome R (Aligned f₀ token Q 0) (e₁.run s) (e₂.run t)

/-- Two effects that come to the same outcome, whatever gas was spent before. -/
def Agree (f₀ : Frame) (token : Option Nat) (Q : L₁ → L₂ → Prop) (e₁ : Effect L₁ α)
    (e₂ : Effect L₂ α) : Prop :=
  ∀ spent, Leads f₀ token Q spent e₁ e₂ fun _ => Aligned f₀ token Q spent

variable {f₀ : Frame} {token : Option Nat} {Q : L₁ → L₂ → Prop}

/-- Two runs stand together as well if less gas is asked to have been spent. -/
theorem Aligned.weaken {spent less : Nat} {s : Local L₁} {t : Local L₂}
    (h : Aligned f₀ token Q spent s t) (hle : less ≤ spent) : Aligned f₀ token Q less s t :=
  ⟨h.frame, h.onward.weaken hle, h.ledgers⟩

/-! ### Runs -/

section Runs

variable {L : Type}

/-- What comes second runs where the first has succeeded, and a failure stays one. -/
theorem run_bind {β : Type} (e : Effect L α) (k : α → Effect L β) (s : Local L) :
    (e >>= k).run s =
      match e.run s with
      | .ok a s => (k a).run s
      | .error e s => .error e s := by
  change EStateM.bind e k s = _
  unfold EStateM.bind EStateM.run
  cases e s <;> rfl

/-- What comes after a step that goes through. -/
theorem run_bind_of_ok {β : Type} {e : Effect L α} {k : α → Effect L β} {s t : Local L} {a : α}
    (h : e.run s = .ok a t) : (e >>= k).run s = (k a).run t := by
  rw [run_bind, h]

/-- Reading the frame changes nothing. -/
theorem run_frame_bind (k : Frame → Effect L α) (s : Local L) :
    (frame >>= k).run s = (k s.frame).run s := rfl

/-- Reading the ledger changes nothing. -/
theorem run_ledger_bind (k : L → Effect L α) (s : Local L) :
    (ledger >>= k).run s = (k s.ledger).run s := rfl

/-- A step of the ledger that may be refused fails with its cause, on the ledger that it leaves. -/
theorem run_tryLedger (step : LedgerStep L α) (cause : StateError → VmError) (s : Local L) :
    (tryLedger step cause).run s =
      match step s.ledger with
      | .ok a ledger => .ok a { s with ledger }
      | .error e ledger => .error (cause e) { s with ledger } := by
  change tryLedger step cause s = _
  rw [tryLedger]
  cases step s.ledger <;> rfl

/-- A charge spends gas, or runs out of it. -/
theorem run_charge (amount : Nat) (s : Local L) :
    (charge amount).run s =
      match s.frame.gas.consume amount with
      | .ok gas => .ok () { s with frame := { s.frame with gas } }
      | .error e => .error e s := by
  rw [charge, run_frame_bind]
  cases s.frame.gas.consume amount <;> rfl

/-- A charge for gas that is there goes through. -/
theorem run_charge_of_le {amount : Nat} {s : Local L} (h : amount ≤ s.frame.gas.remaining) :
    (charge amount).run s =
      .ok () { s with frame := { s.frame with gas := s.frame.gas.spend amount } } := by
  rw [run_charge, Meter.consume_of_le h]

/-- What a stack operation gives, with the stack that it leaves. -/
theorem run_onStack (f : Stack → Except VmError (α × Stack)) (s : Local L) :
    (onStack f).run s =
      match f s.frame.stack with
      | .ok (a, stack) => .ok a { s with frame := { s.frame with stack } }
      | .error e => .error e s := by
  rw [onStack, run_frame_bind]
  cases f s.frame.stack <;> rfl

/-- The stack after an operation that gives nothing. -/
theorem run_updateStack (f : Stack → Except VmError Stack) (s : Local L) :
    (updateStack f).run s =
      match f s.frame.stack with
      | .ok stack => .ok () { s with frame := { s.frame with stack } }
      | .error e => .error e s := by
  rw [updateStack, run_onStack]
  cases f s.frame.stack <;> rfl

/-- Memory that grows is paid for at once. -/
theorem run_extendMemory (offset len : Nat) (s : Local L) :
    (extendMemory offset len).run s =
      match s.frame.memory.extend offset len s.frame.gas with
      | .ok (memory, gas) => .ok () { s with frame := { s.frame with memory, gas } }
      | .error e => .error e s := by
  rw [extendMemory, run_frame_bind]
  cases s.frame.memory.extend offset len s.frame.gas <;> rfl

/-- Only a frame that is not static goes on. -/
theorem run_requireNonStatic_bind (k : Unit → Effect L α) (s : Local L) :
    (requireNonStatic >>= k).run s =
      if s.frame.isStatic then .error .staticStateChange s else (k ()).run s := by
  change EStateM.bind (if s.frame.isStatic then _ else _) k s = _
  cases s.frame.isStatic <;> rfl

end Runs

/-! ### Effects with a purpose -/

namespace Leads

variable {spent : Nat} {R : α → Local L₁ → Local L₂ → Prop}

/-- A value leads where the two runs stand. -/
theorem pure {a : α} (h : ∀ s t, Aligned f₀ token Q spent s t → R a s t) :
    Leads f₀ token Q spent (Pure.pure a) (Pure.pure a) R :=
  fun s t hst => .ok (h s t hst)

/-- Two failures of one cause are the same outcome. -/
theorem throw (e : VmError) :
    Leads f₀ token Q spent (MonadExcept.throw e) (MonadExcept.throw e) R :=
  fun _ _ h => .error (h.weaken (Nat.zero_le _))

/-- What holds where less has been spent holds where more has. -/
theorem strengthen {e₁ : Effect L₁ α} {e₂ : Effect L₂ α} {less : Nat}
    (he : Leads f₀ token Q less e₁ e₂ R) (hle : less ≤ spent) : Leads f₀ token Q spent e₁ e₂ R :=
  fun s t h => he s t (h.weaken hle)

/-- What leads on after a first part, leads on with it. -/
theorem bind {P : α → Local L₁ → Local L₂ → Prop} {R : β → Local L₁ → Local L₂ → Prop}
    {e₁ : Effect L₁ α} {e₂ : Effect L₂ α} {k₁ : α → Effect L₁ β} {k₂ : α → Effect L₂ β}
    (he : Leads f₀ token Q spent e₁ e₂ P)
    (hk : ∀ a s t, P a s t → SameOutcome R (Aligned f₀ token Q 0) ((k₁ a).run s) ((k₂ a).run t)) :
    Leads f₀ token Q spent (e₁ >>= k₁) (e₂ >>= k₂) R := by
  intro s t h
  have first := he s t h
  change SameOutcome _ _ (EStateM.bind e₁ k₁ s) (EStateM.bind e₂ k₂ t)
  unfold EStateM.bind
  generalize hr₁ : e₁ s = r₁
  generalize hr₂ : e₂ t = r₂
  rw [show e₁.run s = r₁ from hr₁, show e₂.run t = r₂ from hr₂] at first
  -- a failure of the first part is the failure of the whole, on both sides
  cases first with
  | ok h' => exact hk _ _ _ h'
  | error h' => exact .error h'

/-- An effect on the way to a purpose. -/
theorem after {R : β → Local L₁ → Local L₂ → Prop} {e₁ : Effect L₁ α} {e₂ : Effect L₂ α}
    {k₁ : α → Effect L₁ β} {k₂ : α → Effect L₂ β} (he : Agree f₀ token Q e₁ e₂)
    (hk : ∀ a, Leads f₀ token Q spent (k₁ a) (k₂ a) R) :
    Leads f₀ token Q spent (e₁ >>= k₁) (e₂ >>= k₂) R :=
  bind (he spent) fun a s t h => hk a s t h

/-- A branch on the same condition. -/
theorem ite {p₁ p₂ : Prop} [Decidable p₁] [Decidable p₂] {e₁ e₁' : Effect L₁ α}
    {e₂ e₂' : Effect L₂ α} (hp : p₁ ↔ p₂) (he : p₁ → Leads f₀ token Q spent e₁ e₂ R)
    (he' : ¬p₁ → Leads f₀ token Q spent e₁' e₂' R) :
    Leads f₀ token Q spent (if p₁ then e₁ else e₁') (if p₂ then e₂ else e₂') R := by
  by_cases h : p₁
  · rw [if_pos h, if_pos (hp.1 h)]
    exact he h
  · rw [if_neg h, if_neg (fun h₂ => h (hp.2 h₂))]
    exact he' h

/-- A branch on the same condition, after which both ways go on alike. -/
theorem ite_after {p₁ p₂ : Prop} [Decidable p₁] [Decidable p₂] {e₁ : Effect L₁ Unit}
    {e₂ : Effect L₂ Unit} {k₁ : Unit → Effect L₁ α} {k₂ : Unit → Effect L₂ α} (hp : p₁ ↔ p₂)
    (he : Agree f₀ token Q e₁ e₂) (hk : ∀ u, Leads f₀ token Q spent (k₁ u) (k₂ u) R) :
    Leads f₀ token Q spent (if p₁ then e₁ >>= k₁ else k₁ ()) (if p₂ then e₂ >>= k₂ else k₂ ()) R :=
  ite hp (fun _ => after he hk) fun _ => hk ()

/-- A value that is found in one way or another, and what is done with it. -/
theorem either_after {p : Prop} [Decidable p] {R : β → Local L₁ → Local L₂ → Prop}
    {e₁ e₁' : Effect L₁ α} {e₂ e₂' : Effect L₂ α} {k₁ : α → Effect L₁ β} {k₂ : α → Effect L₂ β}
    (he : Agree f₀ token Q e₁ e₂) (he' : Agree f₀ token Q e₁' e₂')
    (hk : ∀ a, Leads f₀ token Q spent (k₁ a) (k₂ a) R) :
    Leads f₀ token Q spent (if p then e₁ >>= k₁ else e₁' >>= k₁)
      (if p then e₂ >>= k₂ else e₂' >>= k₂) R :=
  ite Iff.rfl (fun _ => after he hk) fun _ => after he' hk

/-- What is done with a frame that was read. -/
theorem frame_bind {k₁ : Frame → Effect L₁ α} {k₂ : Frame → Effect L₂ α}
    (hk : ∀ f : Frame, f.activation = f₀.activation →
      Leads f₀ token Q spent (k₁ f) (k₂ (f.withSnapshot token)) R) :
    Leads f₀ token Q spent (frame >>= k₁) (frame >>= k₂) R := by
  intro s t h
  change SameOutcome _ _ ((k₁ s.frame).run s) ((k₂ t.frame).run t)
  rw [h.frame]
  exact hk s.frame h.onward.activation s t h

/-- What is done with a ledger that was read. -/
theorem ledger_bind {k₁ : L₁ → Effect L₁ α} {k₂ : L₂ → Effect L₂ α}
    (hk : ∀ l k, Q l k → Leads f₀ token Q spent (k₁ l) (k₂ k) R) :
    Leads f₀ token Q spent (ledger >>= k₁) (ledger >>= k₂) R :=
  fun s t h => hk s.ledger t.ledger h.ledgers s t h

/-- Only a frame that may change state goes on. -/
theorem requireNonStatic_bind {k₁ : Unit → Effect L₁ α} {k₂ : Unit → Effect L₂ α}
    (hk : f₀.isStatic = false → Leads f₀ token Q spent (k₁ ()) (k₂ ()) R) :
    Leads f₀ token Q spent (requireNonStatic >>= k₁) (requireNonStatic >>= k₂) R := by
  intro s t h
  have hs : s.frame.isStatic = f₀.isStatic := Frame.isStatic_eq_of_activation h.onward.activation
  have ht : t.frame.isStatic = f₀.isStatic := by
    rw [h.frame]
    exact hs
  rw [run_requireNonStatic_bind, run_requireNonStatic_bind, hs, ht]
  cases hf : f₀.isStatic with
  | true => exact .error (h.weaken (Nat.zero_le _))
  | false => exact hk hf s t h

/-- In some cases only a frame that may change state goes on. -/
theorem requireNonStatic_if {p : Prop} [Decidable p] {k₁ : Unit → Effect L₁ α}
    {k₂ : Unit → Effect L₂ α}
    (hk : (p → f₀.isStatic = false) → Leads f₀ token Q spent (k₁ ()) (k₂ ()) R) :
    Leads f₀ token Q spent (if p then requireNonStatic >>= k₁ else k₁ ())
      (if p then requireNonStatic >>= k₂ else k₂ ()) R := by
  by_cases hp : p
  · rw [if_pos hp, if_pos hp]
    exact requireNonStatic_bind fun writable => hk fun _ => writable
  · rw [if_neg hp, if_neg hp]
    exact hk fun h => absurd h hp

/-- A charge that goes through adds to what has been spent. -/
theorem charge (amount : Nat) :
    Leads f₀ token Q spent (charge amount) (charge amount)
      fun _ => Aligned f₀ token Q (spent + amount) := by
  intro s t h
  rw [run_charge, run_charge, h.frame, Frame.withSnapshot_gas]
  cases hgas : s.frame.gas.consume amount with
  | ok gas => exact .ok ⟨rfl, h.onward.consume hgas, h.ledgers⟩
  | error e => exact .error (h.weaken (Nat.zero_le _))

/-- A charge on the way to a purpose. -/
theorem charge_bind {amount : Nat} {k₁ : Unit → Effect L₁ α} {k₂ : Unit → Effect L₂ α}
    (hk : ∀ u, Leads f₀ token Q (spent + amount) (k₁ u) (k₂ u) R) :
    Leads f₀ token Q spent (Effect.charge amount >>= k₁) (Effect.charge amount >>= k₂) R :=
  bind (charge amount) fun u s t h => hk u s t h

/-- A charge that is made in some cases, on the way to a purpose. -/
theorem ite_charge_bind {p : Prop} [Decidable p] {amount : Nat} {k₁ : Unit → Effect L₁ α}
    {k₂ : Unit → Effect L₂ α}
    (hk : ∀ u, Leads f₀ token Q (if p then spent + amount else spent) (k₁ u) (k₂ u) R) :
    Leads f₀ token Q spent (if p then Effect.charge amount >>= k₁ else k₁ ())
      (if p then Effect.charge amount >>= k₂ else k₂ ()) R := by
  refine ite Iff.rfl (fun h => charge_bind fun u => ?_) fun h => ?_
  · have := hk u
    rwa [if_pos h] at this
  · have := hk ()
    rwa [if_neg h] at this

end Leads

/-! ### Effects on the way -/

namespace Agree

/-- The same value agrees. -/
theorem pure (a : α) : Agree f₀ token Q (Pure.pure a) (Pure.pure a) :=
  fun _ => Leads.pure fun _ _ h => h

/-- The same failure agrees. -/
theorem throw (e : VmError) :
    Agree f₀ token Q (MonadExcept.throw e : Effect L₁ α) (MonadExcept.throw e) :=
  fun _ => Leads.throw e

/-- Parts that agree one after another agree together. -/
theorem bind {e₁ : Effect L₁ α} {e₂ : Effect L₂ α} {k₁ : α → Effect L₁ β} {k₂ : α → Effect L₂ β}
    (he : Agree f₀ token Q e₁ e₂) (hk : ∀ a, Agree f₀ token Q (k₁ a) (k₂ a)) :
    Agree f₀ token Q (e₁ >>= k₁) (e₂ >>= k₂) :=
  fun spent => Leads.after he fun a => hk a spent

/-- A branch on the same condition. -/
theorem ite {p₁ p₂ : Prop} [Decidable p₁] [Decidable p₂] {e₁ e₁' : Effect L₁ α}
    {e₂ e₂' : Effect L₂ α} (hp : p₁ ↔ p₂) (he : p₁ → Agree f₀ token Q e₁ e₂)
    (he' : ¬p₁ → Agree f₀ token Q e₁' e₂') :
    Agree f₀ token Q (if p₁ then e₁ else e₁') (if p₂ then e₂ else e₂') :=
  fun spent => Leads.ite hp (fun h => he h spent) fun h => he' h spent

/-- A branch on the same condition, after which both ways go on alike. -/
theorem ite_bind {p₁ p₂ : Prop} [Decidable p₁] [Decidable p₂] {e₁ : Effect L₁ Unit}
    {e₂ : Effect L₂ Unit} {k₁ : Unit → Effect L₁ α} {k₂ : Unit → Effect L₂ α} (hp : p₁ ↔ p₂)
    (he : Agree f₀ token Q e₁ e₂) (hk : ∀ u, Agree f₀ token Q (k₁ u) (k₂ u)) :
    Agree f₀ token Q (if p₁ then e₁ >>= k₁ else k₁ ()) (if p₂ then e₂ >>= k₂ else k₂ ()) :=
  ite hp (fun _ => bind he hk) fun _ => hk ()

/-- What is done with a frame that was read. -/
theorem frame_bind {k₁ : Frame → Effect L₁ α} {k₂ : Frame → Effect L₂ α}
    (hk : ∀ f : Frame, f.activation = f₀.activation →
      Agree f₀ token Q (k₁ f) (k₂ (f.withSnapshot token))) :
    Agree f₀ token Q (frame >>= k₁) (frame >>= k₂) :=
  fun spent => Leads.frame_bind fun f hf => hk f hf spent

/-- What is done with a ledger that was read. -/
theorem ledger_bind {k₁ : L₁ → Effect L₁ α} {k₂ : L₂ → Effect L₂ α}
    (hk : ∀ l k, Q l k → Agree f₀ token Q (k₁ l) (k₂ k)) :
    Agree f₀ token Q (ledger >>= k₁) (ledger >>= k₂) :=
  fun spent => Leads.ledger_bind fun l k hq => hk l k hq spent

/-- Only a frame that may change state goes on. -/
theorem requireNonStatic_bind {k₁ : Unit → Effect L₁ α} {k₂ : Unit → Effect L₂ α}
    (hk : f₀.isStatic = false → Agree f₀ token Q (k₁ ()) (k₂ ())) :
    Agree f₀ token Q (requireNonStatic >>= k₁) (requireNonStatic >>= k₂) :=
  fun spent => Leads.requireNonStatic_bind fun writable => hk writable spent

/-- Both frames are static or none is. -/
theorem requireNonStatic : Agree f₀ token Q (requireNonStatic : Effect L₁ Unit) requireNonStatic :=
  frame_bind fun _ _ => ite Iff.rfl (fun _ => throw .staticStateChange) fun _ => pure ()

/-! ### Frames -/

/-- A change of the frame that leaves alone what instructions do, and gains no gas. -/
theorem modifyFrame {g₁ g₂ : Frame → Frame}
    (hg : ∀ f, g₂ (f.withSnapshot token) = (g₁ f).withSnapshot token)
    (ha : ∀ f : Frame, f.activation = f₀.activation → (g₁ f).activation = f₀.activation)
    (hgas : ∀ f, (g₁ f).gas.remaining = f.gas.remaining) :
    Agree f₀ token Q (Effect.modifyFrame g₁) (Effect.modifyFrame g₂) := by
  intro spent s t h
  refine .ok ⟨?_, ⟨ha _ h.onward.activation, ?_⟩, h.ledgers⟩
  · change g₂ t.frame = (g₁ s.frame).withSnapshot token
    rw [h.frame, hg]
  · change (g₁ s.frame).gas.remaining + spent ≤ f₀.gas.remaining
    rw [hgas]
    exact h.onward.gas

/-! ### Gas, stack and memory -/

/-- Both frames can pay or none can. -/
theorem charge (amount : Nat) :
    Agree f₀ token Q (charge amount : Effect L₁ Unit) (charge amount) :=
  fun spent s t h => (Leads.charge amount s t h).mono fun _ _ _ h' => h'.weaken (by omega)

/-- Both stacks are the same. -/
theorem onStack (f : Stack → Except VmError (α × Stack)) :
    Agree f₀ token Q (onStack f : Effect L₁ α) (onStack f) := by
  intro spent s t h
  rw [run_onStack, run_onStack, h.frame, Frame.withSnapshot_stack]
  cases f s.frame.stack with
  | ok r => exact .ok ⟨rfl, ⟨h.onward.activation, h.onward.gas⟩, h.ledgers⟩
  | error e => exact .error (h.weaken (Nat.zero_le _))

/-- An operation that only changes the stack changes both in the same way. -/
theorem updateStack (f : Stack → Except VmError Stack) :
    Agree f₀ token Q (updateStack f : Effect L₁ Unit) (updateStack f) :=
  onStack fun s => return ((), ← f s)

/-- Both stacks have room or none has. -/
theorem push (w : Word) : Agree f₀ token Q (push w : Effect L₁ Unit) (push w) :=
  updateStack (·.push w)

/-- Both take the same word. -/
theorem pop : Agree f₀ token Q (pop : Effect L₁ Word) pop := onStack _

/-- Both take the same address. -/
theorem popAddress : Agree f₀ token Q (popAddress : Effect L₁ Address) popAddress :=
  bind pop fun w => pure w.toAddress

/-- Both memories grow, at the same price. -/
theorem extendMemory (offset len : Nat) :
    Agree f₀ token Q (extendMemory offset len : Effect L₁ Unit) (extendMemory offset len) := by
  intro spent s t h
  rw [run_extendMemory, run_extendMemory, h.frame, Frame.withSnapshot_memory,
    Frame.withSnapshot_gas]
  cases hm : s.frame.memory.extend offset len s.frame.gas with
  | ok r =>
    obtain ⟨memory, gas⟩ := r
    -- growth may cost nothing, so that only the gas from before can be relied on
    obtain ⟨amount, hgas⟩ := Memory.consume_of_extend hm
    have paid := (h.onward.consume hgas).weaken (Nat.le_add_right _ _)
    exact .ok ⟨rfl, ⟨paid.activation, paid.gas⟩, h.ledgers⟩
  | error e => exact .error (h.weaken (Nat.zero_le _))

/-- Both read the same bytes. -/
theorem readMemory (offset len : Nat) :
    Agree f₀ token Q (readMemory offset len : Effect L₁ Bytes) (readMemory offset len) :=
  frame_bind fun f _ => pure (f.memory.read offset len)

/-- Both write where both can. -/
theorem writeMemory (offset : Nat) (b : Bytes) :
    Agree f₀ token Q (writeMemory offset b : Effect L₁ Unit) (writeMemory offset b) := by
  refine frame_bind fun f _ => ?_
  rw [Frame.withSnapshot_memory]
  cases f.memory.write offset b with
  | ok r => exact modifyFrame (fun _ => rfl) (fun _ h => h) fun _ => rfl
  | error e => exact throw e

/-! ### Ledgers -/

/-- Changes that keep the relation of the ledgers agree. -/
theorem modifyLedger {g₁ : L₁ → L₁} {g₂ : L₂ → L₂} (hg : ∀ l k, Q l k → Q (g₁ l) (g₂ k)) :
    Agree f₀ token Q (Effect.modifyLedger g₁) (Effect.modifyLedger g₂) :=
  fun _ _ _ h => .ok ⟨h.frame, h.onward, hg _ _ h.ledgers⟩

/-- Operations that give the same and keep the relation of the ledgers agree. -/
theorem onLedger {g₁ : L₁ → α × L₁} {g₂ : L₂ → α × L₂}
    (hvalue : ∀ l k, Q l k → (g₁ l).1 = (g₂ k).1) (hg : ∀ l k, Q l k → Q (g₁ l).2 (g₂ k).2) :
    Agree f₀ token Q (Effect.onLedger g₁) (Effect.onLedger g₂) := by
  intro spent s t h
  have same := hvalue _ _ h.ledgers
  change SameOutcome _ _ (.ok (g₁ s.ledger).1 { s with ledger := (g₁ s.ledger).2 })
    (.ok (g₂ t.ledger).1 { t with ledger := (g₂ t.ledger).2 })
  rw [same]
  exact .ok ⟨h.frame, h.onward, hg _ _ h.ledgers⟩

/-- A step that the ledger may refuse. -/
theorem tryLedger {g₁ : LedgerStep L₁ α} {g₂ : LedgerStep L₂ α} {cause : StateError → VmError}
    (hg : ∀ l k, Q l k → Ledger.SameAttempt Q (g₁ l) (g₂ k)) :
    Agree f₀ token Q (Effect.tryLedger g₁ cause) (Effect.tryLedger g₂ cause) := by
  intro spent s t h
  rw [run_tryLedger, run_tryLedger]
  have same := hg _ _ h.ledgers
  generalize g₁ s.ledger = r₁ at same
  generalize g₂ t.ledger = r₂ at same
  cases same with
  | ok hq => exact .ok ⟨h.frame, h.onward, hq⟩
  | error e hq => exact .error ⟨h.frame, h.onward.weaken (Nat.zero_le _), hq⟩

variable [Ledger L₁] [Ledger L₂] {m : Message} (h : InstructionCoupling m Q)

include h

/-- An access to an account has the same price on both sides. -/
theorem accessAccount (fork : Fork) (a : Address) (surcharge : Nat) :
    Agree f₀ token Q (accessAccount fork a surcharge : Effect L₁ Unit)
      (accessAccount fork a surcharge) := by
  refine ite Iff.rfl (fun _ => ?_) fun _ => pure ()
  -- both sides find the account equally warm, so both pay or neither does
  refine bind (onLedger (fun l k hq => (h.answers hq).accessAccount a)
    fun l k hq => h.accessAccount hq a) fun status => ?_
  exact ite Iff.rfl (fun _ => charge surcharge) fun _ => pure ()

/-- An access to a slot has the same price on both sides. -/
theorem accessSlot (fork : Fork) (s : Slot) (surcharge : Nat) :
    Agree f₀ token Q (accessSlot fork s surcharge : Effect L₁ Unit)
      (accessSlot fork s surcharge) := by
  refine ite Iff.rfl (fun _ => ?_) fun _ => pure ()
  refine bind (onLedger (fun l k hq => (h.answers hq).accessSlot s)
    fun l k hq => h.accessSlot hq s) fun status => ?_
  exact ite Iff.rfl (fun _ => charge surcharge) fun _ => pure ()

end Agree

end Effect

end Evm
