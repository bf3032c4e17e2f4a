import Evm.Proofs.Instruction.Footprint
import Evm.Proofs.Instruction.Words

namespace Evm

/-!
# What comes of an effect

An effect that is run from one place succeeds with a value at another place, or fails there.  What
is said about both follows the structure of the effect.

* `Effect.Ensures` — a property of success and one of failure, and the rules for them.
* `Local.turn_ensures` — what an instruction ensures, its turn ensures.
-/

namespace Effect

variable {L : Type} {α β : Type}

/-- An effect that gives a value comes to some place with it. -/
theorem exists_run_of_run' {e : Effect L α} {s : Local L} {a : α} (h : e.run' s = some a) :
    ∃ t, e.run s = .ok a t := by
  delta EStateM.run' at h
  cases hrun : e.run s with
  | ok b t =>
    rw [hrun] at h
    cases h
    exact ⟨t, rfl⟩
  | error err t =>
    rw [hrun] at h
    cases h

/-- From here the effect succeeds with the one property or fails with the other. -/
def Ensures (e : Effect L α) (Q : α → Local L → Prop) (E : Local L → Prop) (s : Local L) : Prop :=
  match e.run s with
  | .ok a t => Q a t
  | .error _ t => E t

namespace Ensures

variable {Q Q' : α → Local L → Prop} {E : Local L → Prop} {s : Local L}

/-- An effect that is known to succeed. -/
theorem of_run {e : Effect L α} {t : Local L} {a : α} (hrun : e.run s = .ok a t) (h : Q a t) :
    Ensures e Q E s := by
  unfold Ensures
  rwa [hrun]

/-- What is ensured holds of the outcome. -/
theorem elim {e : Effect L α} (h : Ensures e Q E s) {t : Local L} {a : α}
    (hrun : e.run s = .ok a t) : Q a t := by
  unfold Ensures at h
  rwa [hrun] at h

/-- Less may be ensured. -/
theorem imp {E' : Local L → Prop} {e : Effect L α} (h : Ensures e Q E s)
    (hQ : ∀ a t, Q a t → Q' a t) (hE : ∀ t, E t → E' t) : Ensures e Q' E' s := by
  unfold Ensures at h ⊢
  cases hrun : e.run s with
  | ok a t => exact hQ a t (by rwa [hrun] at h)
  | error err t => exact hE t (by rwa [hrun] at h)

/-- Less may be ensured of a success. -/
theorem mono {e : Effect L α} (h : Ensures e Q E s) (hQ : ∀ a t, Q a t → Q' a t) :
    Ensures e Q' E s :=
  h.imp hQ fun _ => id

/-- Nothing need be ensured. -/
theorem always {e : Effect L α} : Ensures e (fun _ _ => True) (fun _ => True) s := by
  unfold Ensures
  split <;> trivial

/-- An effect ensures two things if it ensures each of them. -/
theorem and {E' : Local L → Prop} {e : Effect L α} (h : Ensures e Q E s) (h' : Ensures e Q' E' s) :
    Ensures e (fun a t => Q a t ∧ Q' a t) (fun t => E t ∧ E' t) s := by
  unfold Ensures at h h' ⊢
  cases hrun : e.run s with
  | ok a t =>
    rw [hrun] at h h'
    exact ⟨h, h'⟩
  | error err t =>
    rw [hrun] at h h'
    exact ⟨h, h'⟩

/-- A property of where the effect leads, whether it succeeds or not. -/
theorem of_final {e : Effect L α} {P : Local L → Prop} (h : P (final e s)) :
    Ensures e (fun _ => P) P s := by
  unfold Ensures
  cases hrun : e.run s with
  | ok a t => exact final_of_ok hrun ▸ h
  | error err t => exact final_of_error hrun ▸ h

/-- A value ensures what holds already. -/
theorem pure {a : α} (h : Q a s) : Ensures (Pure.pure a) Q E s := h

/-- A failure ensures what holds already. -/
theorem throw {e : VmError} (h : E s) : Ensures (MonadExcept.throw e) Q E s := h

/-- An effect in two parts fails if its first part does, and goes on with the second else. -/
theorem bind {e : Effect L α} {k : α → Effect L β} {R : β → Local L → Prop}
    (h : Ensures e (fun a => Ensures (k a) R E) E s) : Ensures (e >>= k) R E s := by
  unfold Ensures at h ⊢
  show match EStateM.bind e k s with | .ok b t => R b t | .error _ t => E t
  rw [EStateM.bind]
  cases hrun : e s with
  | ok a t => rwa [show e.run s = .ok a t from hrun] at h
  | error err t => rwa [show e.run s = .error err t from hrun] at h

/-- A part of an instruction and where control goes after it. -/
theorem next {e : Effect L Unit} {flow : Flow} {Q : Flow → Local L → Prop}
    (h : Ensures e (fun _ => Q flow) E s) : Ensures (do e; return flow) Q E s :=
  .bind (h.mono fun _ _ hQ => .pure hQ)

/-- What is ensured for the frame at hand. -/
theorem frame_bind {k : Frame → Effect L α} (h : Ensures (k s.frame) Q E s) :
    Ensures (frame >>= k) Q E s := h

/-- What is ensured for the ledger at hand. -/
theorem ledger_bind {k : L → Effect L α} (h : Ensures (k s.ledger) Q E s) :
    Ensures (ledger >>= k) Q E s := h

/-- What is ensured for the bytes that are read. -/
theorem readMemory_bind {offset len : Nat} {k : Bytes → Effect L α}
    (h : Ensures (k (s.frame.memory.read offset len)) Q E s) :
    Ensures (readMemory offset len >>= k) Q E s := h

/-- A change of the frame ensures what holds after it. -/
theorem modifyFrame {f : Frame → Frame} {Q : Unit → Local L → Prop}
    (h : Q () { s with frame := f s.frame }) : Ensures (modifyFrame f) Q E s := h

/-- A change of the ledger ensures what holds after it. -/
theorem modifyLedger {f : L → L} {Q : Unit → Local L → Prop}
    (h : Q () { s with ledger := f s.ledger }) : Ensures (modifyLedger f) Q E s := h

/-- Both branches ensure it. -/
theorem ite {p : Prop} [Decidable p] {e e' : Effect L α} (he : p → Ensures e Q E s)
    (he' : ¬ p → Ensures e' Q E s) : Ensures (if p then e else e') Q E s := by
  split
  · rename_i h
    exact he h
  · rename_i h
    exact he' h

/-- A charge ensures what holds once it is paid; if it cannot be, nothing is done. -/
theorem charge {amount : Nat} {Q : Unit → Local L → Prop}
    (h : ∀ gas, s.frame.gas.consume amount = .ok gas → Q () { s with frame := { s.frame with gas } })
    (hE : E s) : Ensures (charge amount) Q E s := by
  unfold Ensures
  rw [run_charge]
  cases hgas : s.frame.gas.consume amount with
  | ok gas => exact h gas hgas
  | error e => exact hE

/-- A stack operation ensures what holds of the stack that it leaves. -/
theorem onStack {f : Stack → Except VmError (α × Stack)}
    (h : ∀ a stack, f s.frame.stack = .ok (a, stack) →
      Q a { s with frame := { s.frame with stack } })
    (hE : E s) : Ensures (onStack f) Q E s := by
  unfold Ensures
  rw [run_onStack]
  cases hf : f s.frame.stack with
  | ok r => exact h r.1 r.2 hf
  | error e => exact hE

/-- So does one that gives nothing. -/
theorem updateStack {f : Stack → Except VmError Stack} {Q : Unit → Local L → Prop}
    (h : ∀ stack, f s.frame.stack = .ok stack → Q () { s with frame := { s.frame with stack } })
    (hE : E s) : Ensures (updateStack f) Q E s := by
  refine onStack (fun _ stack hf => ?_) hE
  cases hs : f s.frame.stack with
  | error e =>
    rw [hs] at hf
    cases hf
  | ok stack =>
    rw [hs] at hf
    cases hf
    exact h _ hs

/-- A push ensures what holds with one more word, if there is room. -/
theorem push {w : Word} {Q : Unit → Local L → Prop}
    (h : s.frame.stack.size < s.frame.stack.limit → Q () { s with
      frame := { s.frame with stack := { s.frame.stack with items := w :: s.frame.stack.items } } })
    (hE : E s) : Ensures (push w) Q E s := by
  refine updateStack (fun stack hpush => ?_) hE
  obtain ⟨hroom, rfl⟩ := Stack.push_eq_ok_iff.1 hpush
  exact h hroom

/-- Memory that grows ensures what holds once it is paid for. -/
theorem extendMemory {offset len : Nat} {Q : Unit → Local L → Prop}
    (h : ∀ memory gas, s.frame.memory.extend offset len s.frame.gas = .ok (memory, gas) →
      Q () { s with frame := { s.frame with memory, gas } })
    (hE : E s) : Ensures (extendMemory offset len) Q E s := by
  unfold Ensures
  rw [run_extendMemory]
  cases hm : s.frame.memory.extend offset len s.frame.gas with
  | ok r => exact h r.1 r.2 hm
  | error e => exact hE

/-- A step of the ledger ensures what holds after it, refused or not. -/
theorem tryLedger {step : LedgerStep L α} {cause : StateError → VmError}
    (h : ∀ a ledger, step s.ledger = .ok a ledger → Q a { s with ledger })
    (hE : ∀ e ledger, step s.ledger = .error e ledger → E { s with ledger }) :
    Ensures (tryLedger step cause) Q E s := by
  unfold Ensures
  rw [run_tryLedger]
  cases hstep : step s.ledger with
  | ok a ledger => exact h a ledger hstep
  | error e ledger => exact hE e ledger hstep

/-- A frame that goes on is not static. -/
theorem requireNonStatic {Q : Unit → Local L → Prop} (h : s.frame.isStatic = false → Q () s)
    (hE : E s) : Ensures requireNonStatic Q E s := by
  refine frame_bind (ite (fun _ => throw hE) fun hstatic => ?_)
  exact h (Bool.not_eq_true _ ▸ hstatic)

/-- Of a quiet effect it is enough to know that it is quiet. -/
theorem of_isQuiet [Ledger L] {e : Effect L α} (he : IsQuiet e)
    (hQ : ∀ a t, s.Quiet t → Q a t) (hE : ∀ t, s.Quiet t → E t) : Ensures e Q E s :=
  (of_final (he.final s)).imp hQ hE

/-- A quiet effect on the way. -/
theorem quiet_bind [Ledger L] {t : Local L} {e : Effect L α} {k : α → Effect L β}
    {R : β → Local L → Prop} (he : IsQuiet e) (ht : s.Quiet t) (hE : ∀ u, s.Quiet u → E u)
    (hk : ∀ a u, s.Quiet u → Ensures (k a) R E u) : Ensures (e >>= k) R E t :=
  .bind (of_isQuiet he (fun a u hu => hk a u (ht.trans hu)) fun u hu => hE u (ht.trans hu))

/-- A quiet effect on the way, in some cases. -/
theorem quiet_ite_bind [Ledger L] {t : Local L} {p : Prop} [Decidable p] {e : Effect L Unit}
    {k : Unit → Effect L β} {R : β → Local L → Prop} (he : IsQuiet e) (ht : s.Quiet t)
    (hE : ∀ u, s.Quiet u → E u) (hk : ∀ a u, s.Quiet u → Ensures (k a) R E u) :
    Ensures (if p then e >>= k else k ()) R E t :=
  .ite (fun _ => .quiet_bind he ht hE hk) fun _ => hk () t ht

end Ensures

end Effect

/-! ### Turns -/

/-- If an instruction is next, the turn follows it where it goes through, and ends the frame where
    it fails. -/
theorem Local.turn_ensures {L : Type} [Ledger L] {c : Context} {ancestors : List Frame}
    {s t : Local L} {trace trace' : Trace} {o : Outcome} {i : Instruction}
    {Q : Flow → Local L → Prop} {E : Local L → Prop}
    (h : s.turn c ancestors trace = (o, t, trace'))
    (hnext : s.frame.nextInstruction c.fork = some i)
    (he : Effect.Ensures (paidEffect c ancestors i) Q E s) :
    (∃ flow u, Q flow u ∧ (o, t) = u.follow i flow) ∨ (∃ e, o = .failed e) ∧ E t := by
  rw [turn_eq_runInstruction ancestors trace hnext, runInstruction] at h
  unfold Effect.Ensures at he
  dsimp only at h
  -- the effect has ended with a flow, with a revert or with another error
  split at h
  · rename_i flow u hrun
    rw [hrun] at he
    cases h
    exact .inl ⟨flow, u, he, rfl⟩
  · rename_i hrun
    rw [hrun] at he
    cases h
    exact .inr ⟨⟨_, rfl⟩, he⟩
  · rename_i hrun
    rw [hrun] at he
    cases h
    exact .inr ⟨⟨_, rfl⟩, he⟩

/-- If none is, the turn ends the frame and does nothing else. -/
theorem Local.turn_ends {L : Type} [Ledger L] {c : Context} {ancestors : List Frame}
    {s t : Local L} {trace trace' : Trace} {o : Outcome}
    (h : s.turn c ancestors trace = (o, t, trace'))
    (hnext : s.frame.nextInstruction c.fork = none) :
    t = s ∧ (o = .halted ∨ ∃ e, o = .failed e) := by
  unfold Frame.nextInstruction at hnext
  unfold turn at h
  -- the code is at its end, or its byte is no instruction
  cases hb : s.frame.program.current with
  | none =>
    rw [hb] at h
    cases h
    exact ⟨rfl, .inl rfl⟩
  | some b =>
    rw [hb] at h hnext
    dsimp only at h
    rw [show Instruction.decode c.fork b = none from hnext] at h
    cases h
    exact ⟨rfl, .inr ⟨_, rfl⟩⟩

end Evm
