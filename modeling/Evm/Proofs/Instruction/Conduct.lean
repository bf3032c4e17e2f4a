import Evm.Proofs.Instruction.Agreement

namespace Evm.Effect

/-!
# How effects conduct themselves

Many properties of an effect say how the place where it ends is related to the place where it
starts, one way for success and one for failure.  If the relation for success is reflexive and
transitive and goes before a failure, the property follows the structure of the effect, whatever it
says.

* `Effect.final` — where an effect leads, whether it succeeds or not.
* `Conduct`, `Effect.Follows` — the two relations, and an effect that keeps to them.
* `Effect.Follows.bind`, `Effect.Follows.ite_bind` and their kin — how that follows the structure of
  an effect.
* `Conduct.always` — the same relation for both.
-/

variable {L : Type} {α β : Type}

/-! ### Where effects lead -/

/-- Where an effect leads, whether it succeeds or not. -/
def final (e : Effect L α) (s : Local L) : Local L :=
  match e.run s with
  | .ok _ t => t
  | .error _ t => t

/-- The place after a success. -/
theorem final_of_ok {e : Effect L α} {s t : Local L} {a : α} (h : e.run s = .ok a t) :
    final e s = t := by
  rw [final, h]

/-- The place after a failure. -/
theorem final_of_error {e : Effect L α} {s t : Local L} {err : VmError}
    (h : e.run s = .error err t) : final e s = t := by
  rw [final, h]

/-- What comes second goes on from the place after the first. -/
theorem final_bind_of_ok {e : Effect L α} {k : α → Effect L β} {s t : Local L} {a : α}
    (h : e.run s = .ok a t) : final (e >>= k) s = final (k a) t := by
  rw [final, run_bind, h]
  rfl

/-- After a failure nothing comes second. -/
theorem final_bind_of_error {e : Effect L α} {k : α → Effect L β} {s t : Local L} {err : VmError}
    (h : e.run s = .error err t) : final (e >>= k) s = t := by
  rw [final, run_bind, h]

/-- An effect in two parts leads to where its first part fails, or to where the second leads. -/
theorem final_bind (e : Effect L α) (k : α → Effect L β) (s : Local L) :
    (∃ a, final (e >>= k) s = final (k a) (final e s)) ∨ final (e >>= k) s = final e s := by
  cases he : e.run s with
  | ok a t => exact .inl ⟨a, by rw [final_bind_of_ok he, final_of_ok he]⟩
  | error err t => exact .inr (by rw [final_bind_of_error he, final_of_error he])

/-! ### Conducts -/

/-- Where an effect may lead when it succeeds, and how it may fail. -/
structure Conduct (L : Type) where
  /-- Where a success may lead. -/
  goes : Local L → Local L → Prop
  /-- With what error a failure may come, and where it may lead. -/
  fails : VmError → Local L → Local L → Prop
  refl (s : Local L) : goes s s
  trans {s t u : Local L} : goes s t → goes t u → goes s u
  /-- A failure may come late. -/
  late {s t u : Local L} {x : VmError} : goes s t → fails x t u → fails x s u

/-- Success and failure may lead to the same places. -/
@[reducible] def Conduct.always (R : Local L → Local L → Prop) (refl : ∀ s, R s s)
    (trans : ∀ s t u, R s t → R t u → R s u) : Conduct L where
  goes := R
  fails _ := R
  refl := refl
  trans := trans _ _ _
  late := trans _ _ _

/-- The effect keeps to the conduct, from wherever it starts. -/
def Follows (C : Conduct L) (e : Effect L α) : Prop :=
  ∀ s : Local L, match e.run s with
    | .ok _ t => C.goes s t
    | .error x t => C.fails x s t

namespace Follows

variable {C : Conduct L}

/-- A value does nothing. -/
theorem pure (a : α) : Follows C (Pure.pure a : Effect L α) := C.refl

/-- An effect that fails at once. -/
theorem throw {x : VmError} (h : ∀ s, C.fails x s s) :
    Follows C (MonadExcept.throw x : Effect L α) := h

/-- Parts that follow a conduct one after another follow it together. -/
theorem bind {e : Effect L α} {k : α → Effect L β} (he : Follows C e) (hk : ∀ a, Follows C (k a)) :
    Follows C (e >>= k) := by
  intro s
  have first := he s
  rw [run_bind]
  cases hrun : e.run s with
  | error x t =>
    rw [hrun] at first
    exact first
  | ok a t =>
    rw [hrun] at first
    have second := hk a t
    -- what the second part comes to, seen from where the first part has started
    dsimp only
    cases hrun' : (k a).run t with
    | error x u =>
      rw [hrun'] at second
      exact C.late first second
    | ok b u =>
      rw [hrun'] at second
      exact C.trans first second

/-- Reading the frame is no part of any conduct. -/
theorem frame_bind {k : Frame → Effect L α} (hk : ∀ f, Follows C (k f)) :
    Follows C (frame >>= k) :=
  fun s => hk s.frame s

/-- Nor is reading the ledger. -/
theorem ledger_bind {k : L → Effect L α} (hk : ∀ l, Follows C (k l)) : Follows C (ledger >>= k) :=
  fun s => hk s.ledger s

/-- Both branches follow the conduct. -/
theorem ite {p : Prop} [Decidable p] {e e' : Effect L α} (he : Follows C e) (he' : Follows C e') :
    Follows C (if p then e else e') := by
  split
  · exact he
  · exact he'

/-- An effect that only runs in some cases, and what follows it. -/
theorem ite_bind {p : Prop} [Decidable p] {e : Effect L Unit} {k : Unit → Effect L α}
    (he : Follows C e) (hk : ∀ u, Follows C (k u)) : Follows C (if p then e >>= k else k ()) :=
  ite (bind he hk) (hk ())

/-- A part of an instruction and where control goes after it. -/
theorem next {e : Effect L Unit} (he : Follows C e) (flow : Flow) :
    Follows C (do e; return flow) :=
  bind he fun _ => pure flow

/-- What an effect reads of memory goes nowhere. -/
theorem readMemory (offset len : Nat) : Follows C (readMemory offset len : Effect L Bytes) :=
  frame_bind fun _ => pure _

/-- What follows may rely on the length of what is read. -/
theorem readMemory_bind {offset len : Nat} {k : Bytes → Effect L α}
    (hk : ∀ b : Bytes, b.size = len → Follows C (k b)) :
    Follows C (Effect.readMemory offset len >>= k) :=
  fun s => hk _ (s.frame.memory.size_read offset len) s

/-- A refusal to change state is a failure at once. -/
theorem requireNonStatic (h : ∀ s, C.fails .staticStateChange s s) :
    Follows C (requireNonStatic : Effect L Unit) :=
  frame_bind fun _ => ite (throw h) (pure ())

/-- The effect keeps to any conduct that allows as much. -/
theorem imp {D : Conduct L} {e : Effect L α} (he : Follows C e)
    (hgoes : ∀ {s t}, C.goes s t → D.goes s t)
    (hfails : ∀ {x s t}, C.fails x s t → D.fails x s t) : Follows D e := by
  intro s
  have h := he s
  cases hrun : e.run s with
  | ok a t =>
    rw [hrun] at h
    exact hgoes h
  | error x t =>
    rw [hrun] at h
    exact hfails h

/-- Where a success has led. -/
theorem goes {e : Effect L α} (he : Follows C e) {s t : Local L} {a : α}
    (hrun : e.run s = .ok a t) : C.goes s t := by
  have h := he s
  rwa [hrun] at h

/-- Where a failure has led, and what it was. -/
theorem fails {e : Effect L α} (he : Follows C e) {s t : Local L} {x : VmError}
    (hrun : e.run s = .error x t) : C.fails x s t := by
  have h := he s
  rwa [hrun] at h

/-- Where success and failure may lead to the same places, that is where the effect leads. -/
theorem final {R : Local L → Local L → Prop} {refl : ∀ s, R s s}
    {trans : ∀ s t u, R s t → R t u → R s u} {e : Effect L α}
    (he : Follows (.always R refl trans) e) (s : Local L) : R s (final e s) := by
  have h := he s
  unfold Effect.final
  cases hrun : e.run s with
  | ok a t =>
    rw [hrun] at h
    exact h
  | error x t =>
    rw [hrun] at h
    exact h

end Follows

end Evm.Effect
