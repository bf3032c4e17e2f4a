import Mathlib.Data.List.Forall2
import Evm.Proofs.Ledger.Session
import Evm.Proofs.Machine.Progress

namespace Evm

/-!
# The machine on coupled ledgers

Two machines that start alike on coupled ledgers go on alike, step by step.  For this it must be
known what each frame on the stack can go back to: every open frame keeps the ledgers of the time
when it was put on the stack, and how the present ones have come from them.

* `EngineCoupling` — ledgers of two kinds that the machine cannot tell apart.
* `EngineCoupling.instructionCoupling` — nor can the instructions of a frame.
* `EngineCoupling.Alive`, `EngineCoupling.Below` — where a frame and the frames below it stand.
* `EngineCoupling.Related` — two machines that stand at the same place.
-/

/-! ### Coupled ledgers -/

/-- Ledgers of two kinds, when the machine cannot tell them apart.  Some accounts are rooted: all
    that the ledger on the left knows about their storage is its own.  Storage may be written where
    an account is rooted or has code, and code may be deposited where an account is rooted. -/
structure EngineCoupling (L₁ L₂ : Type) [Ledger L₁] [Ledger L₂] where
  twin : L₁ → L₂ → Prop
  rooted : L₁ → Address → Prop
  answers {l : L₁} {k : L₂} : twin l k → Ledger.SameAnswers l k
  isOccupied {l : L₁} {k : L₂} : twin l k → ∀ a, Ledger.isOccupied l a = Ledger.isOccupied k a
  setBalance {l : L₁} {k : L₂} : twin l k → ∀ a balance,
    twin (Ledger.setBalance l a balance) (Ledger.setBalance k a balance)
  setNonce {l : L₁} {k : L₂} : twin l k → ∀ a nonce,
    twin (Ledger.setNonce l a nonce) (Ledger.setNonce k a nonce)
  setCode {l : L₁} {k : L₂} : twin l k → ∀ a code, rooted l a →
    twin (Ledger.setCode l a code) (Ledger.setCode k a code)
  setStorage {l : L₁} {k : L₂} : twin l k → ∀ s value,
    rooted l s.owner ∨ Ledger.code l s.owner ≠ #[] →
    twin (Ledger.setStorage l s value) (Ledger.setStorage k s value)
  reset {l : L₁} {k : L₂} : twin l k → ∀ a nonce, Ledger.isOccupied l a = false →
    twin (Ledger.setNonce (Ledger.clearStorage l a) a nonce)
      (Ledger.setNonce (Ledger.clearStorage k a) a nonce)
  destroyAccount {l : L₁} {k : L₂} : twin l k → ∀ a,
    twin (Ledger.destroyAccount l a) (Ledger.destroyAccount k a)
  accessAccount {l : L₁} {k : L₂} : twin l k → ∀ a,
    twin (Ledger.accessAccount l a).2 (Ledger.accessAccount k a).2
  accessSlot {l : L₁} {k : L₂} : twin l k → ∀ s,
    twin (Ledger.accessSlot l s).2 (Ledger.accessSlot k s).2
  snapshot {l : L₁} {k : L₂} : twin l k → twin (Ledger.snapshot l).2 (Ledger.snapshot k).2
  commit {b l l' : L₁} {d k k' : L₂} : twin b d → twin l k →
    Ledger.History (Ledger.snapshot b).2 l → Ledger.History (Ledger.snapshot d).2 k →
    Ledger.commit l (Ledger.snapshot b).1 = .ok l' →
    Ledger.commit k (Ledger.snapshot d).1 = .ok k' → twin l' k'
  rollback {b l l' : L₁} {d k k' : L₂} : twin b d → twin l k →
    Ledger.History (Ledger.snapshot b).2 l → Ledger.History (Ledger.snapshot d).2 k →
    Ledger.rollback l (Ledger.snapshot b).1 = .ok l' →
    Ledger.rollback k (Ledger.snapshot d).1 = .ok k' → twin l' k'
  rooted_history {l l' : L₁} {a : Address} : Ledger.History l l' → rooted l a → rooted l' a
  rooted_commit {l l' : L₁} {token : Nat} {a : Address} :
    Ledger.commit l token = .ok l' → rooted l a → rooted l' a
  rooted_snapshot {l : L₁} {a : Address} : rooted l a → rooted (Ledger.snapshot l).2 a
  rooted_reset (l : L₁) (a : Address) (nonce : Nat) :
    rooted (Ledger.setNonce (Ledger.clearStorage l a) a nonce) a
  rooted_destroyAccount (l : L₁) (a : Address) : rooted (Ledger.destroyAccount l a) a

namespace EngineCoupling

variable {L₁ L₂ : Type} [Ledger L₁] [Ledger L₂]

/-- Storage of the account may be written. -/
def Writable (C : EngineCoupling L₁ L₂) (l : L₁) (a : Address) : Prop :=
  C.rooted l a ∨ Ledger.code l a ≠ #[]

/-- How two ledgers have come along: by some session each, and all that could be written still
    can. -/
structure Since (C : EngineCoupling L₁ L₂) (b : L₁) (d : L₂) (l : L₁) (k : L₂) : Prop where
  left : Ledger.History b l
  right : Ledger.History d k
  writable {a : Address} : C.Writable b a → C.Writable l a

variable {C : EngineCoupling L₁ L₂}

namespace Since

/-- Nothing has happened yet. -/
theorem refl (l : L₁) (k : L₂) : C.Since l k l k := ⟨.refl l, .refl k, id⟩

/-- What has happened since happens step by step. -/
theorem trans {b l l' : L₁} {d k k' : L₂} (h : C.Since b d l k) (h' : C.Since l k l' k') :
    C.Since b d l' k' :=
  ⟨h.left.trans h'.left, h.right.trans h'.right, fun hw => h'.writable (h.writable hw)⟩

/-- Sessions that leave all code as it is. -/
theorem of_code {b l : L₁} {d k : L₂} (left : Ledger.History b l) (right : Ledger.History d k)
    (hcode : ∀ a, Ledger.code l a = Ledger.code b a) : C.Since b d l k :=
  ⟨left, right, fun hw => hw.imp (C.rooted_history left) fun h => by rwa [hcode]⟩

variable [LawfulLedger L₁]

/-- A balance is set on both sides. -/
theorem setBalance (l : L₁) (k : L₂) (a : Address) (balance : Word) :
    C.Since l k (Ledger.setBalance l a balance) (Ledger.setBalance k a balance) :=
  of_code (.op l (.setBalance a balance)) (.op k (.setBalance a balance)) fun b =>
    congrArg (LedgerState.code · b) (LawfulLedger.state_setBalance l a balance)

/-- A nonce is set on both sides. -/
theorem setNonce (l : L₁) (k : L₂) (a : Address) (nonce : Nat) :
    C.Since l k (Ledger.setNonce l a nonce) (Ledger.setNonce k a nonce) :=
  of_code (.op l (.setNonce a nonce)) (.op k (.setNonce a nonce)) fun b =>
    congrArg (LedgerState.code · b) (LawfulLedger.state_setNonce l a nonce)

/-- A slot is written on both sides. -/
theorem setStorage (l : L₁) (k : L₂) (s : Slot) (value : Word) :
    C.Since l k (Ledger.setStorage l s value) (Ledger.setStorage k s value) :=
  of_code (.op l (.setStorage s value)) (.op k (.setStorage s value)) fun b =>
    congrArg (LedgerState.code · b) (LawfulLedger.state_setStorage l s value)

/-- An account is accessed on both sides. -/
theorem accessAccount (l : L₁) (k : L₂) (a : Address) :
    C.Since l k (Ledger.accessAccount l a).2 (Ledger.accessAccount k a).2 :=
  of_code (.op l (.accessAccount a)) (.op k (.accessAccount a)) fun b =>
    congrArg (LedgerState.code · b) (LawfulLedger.state_accessAccount l a)

/-- A slot is accessed on both sides. -/
theorem accessSlot (l : L₁) (k : L₂) (s : Slot) :
    C.Since l k (Ledger.accessSlot l s).2 (Ledger.accessSlot k s).2 :=
  of_code (.op l (.accessSlot s)) (.op k (.accessSlot s)) fun b =>
    congrArg (LedgerState.code · b) (LawfulLedger.state_accessSlot l s)

/-- Room is made for a contract on both sides. -/
theorem reset (l : L₁) (k : L₂) (a : Address) (nonce : Nat) :
    C.Since l k (Ledger.setNonce (Ledger.clearStorage l a) a nonce)
      (Ledger.setNonce (Ledger.clearStorage k a) a nonce) :=
  of_code ((Ledger.History.op l (.clearStorage a)).trans (.op _ (.setNonce a nonce)))
    ((Ledger.History.op k (.clearStorage a)).trans (.op _ (.setNonce a nonce))) fun b =>
    congrArg (LedgerState.code · b) (LawfulLedger.state_reset l a nonce)

/-- Code may be deposited where an account is rooted. -/
theorem setCode (l : L₁) (k : L₂) {a : Address} (code : Bytes) (ha : C.rooted l a) :
    C.Since l k (Ledger.setCode l a code) (Ledger.setCode k a code) := by
  have left : Ledger.History l (Ledger.setCode l a code) := .op l (.setCode a code)
  refine ⟨left, .op k (.setCode a code), fun {b} hw => ?_⟩
  obtain hw | hw := hw
  · exact .inl (C.rooted_history left hw)
  · by_cases hb : b = a
    · -- the new code may be empty, but then the account can still be written as a rooted one
      subst hb
      exact .inl (C.rooted_history left ha)
    · have hcode := congrArg (LedgerState.code · b) (LawfulLedger.state_setCode l a code)
      simp only [LedgerState.setCode, Function.update_of_ne hb, Ledger.state_code] at hcode
      exact .inr (by rwa [hcode])

/-- A destroyed account has no code left, but it is rooted. -/
theorem destroyAccount (l : L₁) (k : L₂) (a : Address) :
    C.Since l k (Ledger.destroyAccount l a) (Ledger.destroyAccount k a) := by
  have left : Ledger.History l (Ledger.destroyAccount l a) := .op l (.destroyAccount a)
  refine ⟨left, .op k (.destroyAccount a), fun {b} hw => ?_⟩
  obtain hw | hw := hw
  · exact .inl (C.rooted_history left hw)
  · by_cases hb : b = a
    · subst hb
      exact .inl (C.rooted_destroyAccount l b)
    · have hcode := congrArg (LedgerState.code · b) (LawfulLedger.state_destroyAccount l a)
      simp only [LedgerState.destroyAccount, LedgerState.clearStorage, Function.update_of_ne hb,
        Ledger.state_code] at hcode
      exact .inr (by rwa [hcode])

end Since

/-! ### Writes of an instruction -/

/-- The machine cannot tell the ledgers apart within the instructions of a frame either, as long as
    the frame may write its own storage. -/
theorem instructionCoupling [LawfulLedger L₁] [StandardLedger L₂] {m : Message} {b : L₁} {d : L₂}
    (hown : C.Writable b m.recipient) :
    InstructionCoupling m fun l k => C.twin l k ∧ C.Since b d l k where
  answers h := C.answers h.1
  isDead h := (C.answers h.1).isDead
  accessAccount h a := ⟨C.accessAccount h.1 a, h.2.trans (.accessAccount _ _ a)⟩
  accessSlot h s := ⟨C.accessSlot h.1 s, h.2.trans (.accessSlot _ _ s)⟩
  setStorage h _ key value :=
    ⟨C.setStorage h.1 ⟨m.recipient, key⟩ value (h.2.writable hown),
      h.2.trans (.setStorage _ _ ⟨m.recipient, key⟩ value)⟩
  setBalance h _ a balance :=
    ⟨C.setBalance h.1 a balance, h.2.trans (.setBalance _ _ a balance)⟩
  addBalance h _ a amount := (C.answers h.1).tryAddBalance h
    (fun balance => ⟨C.setBalance h.1 a balance, h.2.trans (.setBalance _ _ a balance)⟩) amount

/-- A transfer is refused on both sides for one reason, or goes through on both. -/
theorem transfer [LawfulLedger L₁] [StandardLedger L₂] {l : L₁} {k : L₂} (h : C.twin l k)
    (sender recipient : Address) (value : Word) :
    (∃ e, Ledger.transfer l sender recipient value = .error e ∧
        Ledger.transfer k sender recipient value = .error e) ∨
      ∃ l' k', Ledger.transfer l sender recipient value = .ok l' ∧
        Ledger.transfer k sender recipient value = .ok k' ∧ C.twin l' k' ∧ C.Since l k l' k' := by
  -- both sides check the same balances
  rw [Ledger.transfer_eq, Ledger.transfer_eq, (C.answers h).balance, (C.answers h).balance]
  by_cases hzero : value = 0
  · rw [if_pos hzero, if_pos hzero]
    exact .inr ⟨l, k, rfl, rfl, h, .refl l k⟩
  · rw [if_neg hzero, if_neg hzero]
    by_cases hshort : Ledger.balance k sender < value
    · rw [if_pos hshort, if_pos hshort]
      exact .inl ⟨_, rfl, rfl⟩
    · rw [if_neg hshort, if_neg hshort]
      by_cases hself : sender = recipient
      · rw [if_pos hself, if_pos hself]
        exact .inr ⟨l, k, rfl, rfl, h, .refl l k⟩
      · rw [if_neg hself, if_neg hself]
        cases (Ledger.balance k recipient).checkedAdd value with
        | none => exact .inl ⟨_, rfl, rfl⟩
        | some credited =>
          exact .inr ⟨_, _, rfl, rfl, C.setBalance (C.setBalance h _ _) _ _,
            (Since.setBalance ..).trans (.setBalance ..)⟩

/-! ### Frames -/

/-- A frame that answers the message may act on its account: it creates it, or it runs the code of
    that account, or it may write its storage. -/
def Entitled (C : EngineCoupling L₁ L₂) (l : L₁) (m : Message) : Prop :=
  m.isCreate = true ∨ m.recipient = m.codeAddress ∨ C.Writable l m.recipient

/-- Where a frame on the left stands that was put on the stack with the ledgers `e` and `e'`, now
    that they are `l` and `k`. -/
inductive Stage (C : EngineCoupling L₁ L₂) (c : Context) (f : Frame) :
    Option Nat → L₁ → L₂ → L₁ → L₂ → Prop where
  /-- Nothing has happened yet. -/
  | created {e : L₁} {e' : L₂} : f.phase = .created → f.snapshot = none →
      f.program.code.bytes = #[] → C.Entitled e f.message → Stage C c f none e e' e e'
  /-- The sender of a creation had no nonce left, so that no snapshot was taken. -/
  | refused {e : L₁} {e' : L₂} : f.phase = .finalizing → f.snapshot = none → f.error.isSome →
      f.message.entered c e = e → Stage C c f none e e' e e'
  /-- A snapshot was taken. -/
  | opened {e l : L₁} {e' k : L₂} : f.phase ≠ .created →
      f.snapshot = some (Ledger.snapshot (f.message.entered c e)).1 →
      C.Since (Ledger.snapshot (f.message.entered c e)).2
        (Ledger.snapshot (f.message.entered c e')).2 l k →
      (f.message.isCreate → C.rooted l f.address ∨ f.phase = .finalizing ∧ f.error.isSome) →
      (f.program.code.bytes ≠ #[] → C.Writable l f.address) →
      Stage C c f (some (Ledger.snapshot (f.message.entered c e')).1) e e' l k

/-- A frame with an open snapshot, described by another frame with the same message. -/
theorem Stage.opened_of_message {C : EngineCoupling L₁ L₂} {c : Context} {f f' : Frame}
    {e l : L₁} {e' k : L₂} (hmessage : f'.message = f.message) (hphase : f'.phase ≠ .created)
    (hsnapshot : f'.snapshot = some (Ledger.snapshot (f.message.entered c e)).1)
    (hsince : C.Since (Ledger.snapshot (f.message.entered c e)).2
      (Ledger.snapshot (f.message.entered c e')).2 l k)
    (hrooted : f.message.isCreate →
      C.rooted l f.address ∨ f'.phase = .finalizing ∧ f'.error.isSome)
    (hwritable : f'.program.code.bytes ≠ #[] → C.Writable l f.address) :
    C.Stage c f' (some (Ledger.snapshot (f.message.entered c e')).1) e e' l k := by
  have haddress : f'.address = f.address := congrArg Message.recipient hmessage
  rw [← hmessage] at hsnapshot hsince hrooted ⊢
  rw [← haddress] at hrooted hwritable
  exact .opened hphase hsnapshot hsince hrooted hwritable

/-- Two frames that stand at the same place, put on their stacks with twin ledgers. -/
structure Alive (C : EngineCoupling L₁ L₂) (c : Context) (f g : Frame) (e : L₁) (e' : L₂) (l : L₁)
    (k : L₂) : Prop where
  frame : g = f.withSnapshot g.snapshot
  entry : C.twin e e'
  now : C.twin l k
  stage : C.Stage c f g.snapshot e e' l k

/-- Frames that are alive side by side have the same message. -/
theorem Alive.message {f g : Frame} {e l : L₁} {e' k : L₂} {c : Context}
    (h : C.Alive c f g e e' l k) : g.message = f.message := by
  rw [h.frame]
  rfl

/-- The frames below the top ones, down to some that are of no concern, when the top frames were
    put on the stacks with the last two ledgers. -/
inductive Below (C : EngineCoupling L₁ L₂) (c : Context) (low₁ low₂ : List Frame) (e : L₁)
    (e' : L₂) : List Frame → List Frame → L₁ → L₂ → Prop where
  | base : Below C c low₁ low₂ e e' low₁ low₂ e e'
  | frame {f g : Frame} {fs gs : List Frame} {l₁ l : L₁} {k₁ k : L₂} :
      Below C c low₁ low₂ e e' fs gs l₁ k₁ → C.Alive c f g l₁ k₁ l k → f.phase = .suspended →
      Below C c low₁ low₂ e e' (f :: fs) (g :: gs) l k

/-- Two machines that stand at the same place. -/
structure Related (C : EngineCoupling L₁ L₂) (c : Context) (low₁ low₂ : List Frame) (e : L₁)
    (e' : L₂) (m : Machine L₁) (n : Machine L₂) : Prop where
  trace : m.trace = n.trace
  frames : ∃ l k, C.Below c low₁ low₂ e e' m.below n.below l k ∧
    C.Alive c m.top n.top l k m.ledger n.ledger

/-- Frames of no concern: those of one stack differ from those of the other in the names of their
    snapshots alone. -/
def TwinFrames (fs gs : List Frame) : Prop :=
  List.Forall₂ (fun f g => g = f.withSnapshot g.snapshot) fs gs

/-- Twin frames have registered the same accounts. -/
theorem TwinFrames.any {fs gs : List Frame} (h : TwinFrames fs gs) (a : Address) :
    fs.any (·.hasSelfDestructed a) = gs.any (·.hasSelfDestructed a) := by
  induction h with
  | nil => rfl
  | cons hfg _ ih =>
    rw [List.any_cons, List.any_cons, ih, hfg]
    rfl

/-- The lowest of twin frames have the same message. -/
theorem TwinFrames.message_getLastD {fs gs : List Frame} (h : TwinFrames fs gs) {f g : Frame}
    (hfg : g.message = f.message) : (gs.getLastD g).message = (fs.getLastD f).message := by
  -- the last frame is the first one only if there are no others
  induction h generalizing f g with
  | nil => exact hfg
  | cons hnext _ ih =>
    rw [List.getLastD_cons, List.getLastD_cons]
    refine ih ?_
    rw [hnext]
    rfl

variable {c : Context} {low₁ low₂ : List Frame} {e : L₁} {e' : L₂}

/-- The frames below are twins. -/
theorem Below.twinFrames (hlow : TwinFrames low₁ low₂) {fs gs : List Frame} {l : L₁} {k : L₂}
    (h : C.Below c low₁ low₂ e e' fs gs l k) : TwinFrames fs gs := by
  induction h with
  | base => exact hlow
  | frame _ halive _ ih => exact .cons halive.frame ih

/-- The frames that are left alone are among those below. -/
theorem Below.le_length {fs gs : List Frame} {l : L₁} {k : L₂}
    (h : C.Below c low₁ low₂ e e' fs gs l k) : low₁.length ≤ fs.length := by
  induction h with
  | base => exact Nat.le_refl _
  | frame _ _ _ ih => exact Nat.le_succ_of_le ih

/-- Where there are no further frames, the ledgers are those that the top frames began with. -/
theorem Below.eq_of_length {fs gs : List Frame} {l : L₁} {k : L₂}
    (h : C.Below c low₁ low₂ e e' fs gs l k) (hlength : fs.length = low₁.length) :
    l = e ∧ k = e' := by
  cases h with
  | base => exact ⟨rfl, rfl⟩
  | frame hbelow => exact absurd (hlength ▸ hbelow.le_length) (Nat.not_succ_le_self _)

/-! ### Frames that go on -/

/-- Where an account may be written it may be after a snapshot. -/
theorem Writable.snapshot [LawfulLedger L₁] {l : L₁} {a : Address} (h : C.Writable l a) :
    C.Writable (Ledger.snapshot l).2 a := by
  have hcode : Ledger.code (Ledger.snapshot l).2 a = Ledger.code l a :=
    congrArg (LedgerState.code · a) (LawfulLedger.state_snapshot l)
  exact h.imp C.rooted_snapshot fun h => by rwa [hcode]

/-- A frame that is neither new nor at its end, when it has gone on with the same message, code and
    snapshot. -/
theorem Alive.onward {f g f' g' : Frame} {l l' : L₁} {k k' : L₂}
    (h : C.Alive c f g e e' l k) (hlive : f.phase ≠ .created ∧ f.phase ≠ .finalizing)
    (hnow : C.twin l' k') (hsince : C.Since l k l' k') (hframe : g' = f'.withSnapshot g.snapshot)
    (hmessage : f'.message = f.message) (hcode : f'.program.code = f.program.code)
    (hsnapshot : f'.snapshot = f.snapshot) (hphase : f'.phase ≠ .created) :
    C.Alive c f' g' e e' l' k' := by
  have htoken : g'.snapshot = g.snapshot := by
    rw [hframe]
    rfl
  refine ⟨by rw [htoken, hframe], h.entry, hnow, ?_⟩
  rw [htoken]
  have hstage := h.stage
  generalize g.snapshot = token at hstage
  cases hstage with
  | created hcreated => exact absurd hcreated hlive.1
  | refused hended => exact absurd hended hlive.2
  | opened _ hsnap hbefore hrooted hwritable =>
    -- the snapshot stays the same, and the new history comes after the old one
    refine .opened_of_message hmessage hphase (hsnapshot.trans hsnap) (hbefore.trans hsince) ?_ ?_
    · intro hcreate
      obtain hr | hended := hrooted hcreate
      · exact .inl (C.rooted_history hsince.left hr)
      · exact absurd hended.1 hlive.2
    · intro hbytes
      rw [hcode] at hbytes
      exact hsince.writable (hwritable hbytes)

/-- A frame that runs code may write its own storage. -/
theorem Alive.writable {f g : Frame} {l : L₁} {k : L₂} (h : C.Alive c f g e e' l k)
    (hlive : f.phase ≠ .created ∧ f.phase ≠ .finalizing) (hbytes : f.program.code.bytes ≠ #[]) :
    C.Writable l f.address := by
  have hstage := h.stage
  generalize g.snapshot = token at hstage
  cases hstage with
  | created hcreated => exact absurd hcreated hlive.1
  | refused hended => exact absurd hended hlive.2
  | opened _ _ _ _ hwritable => exact hwritable hbytes

end EngineCoupling

end Evm
