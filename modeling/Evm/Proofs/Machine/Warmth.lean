import Evm.Proofs.Instruction.Access
import Evm.Proofs.Machine.Snapshots
import Evm.Proofs.Machine.Surface

namespace Evm

/-!
# What is warm

What an execution accesses is warm from then on, as long as no frame is rolled back that the access
was made for: the one that runs the instruction or one below it.  The target of a creation is
accessed for the creator, before the snapshot of the new frame.  So what is cold, and has to be paid
for, can be told from the steps of an execution, without its ledger.

* `Machine.Warms` — what a step accesses, and for how many frames.
* `Machine.IsRolledBack` — one of so many frames has been rolled back since.
* `Machine.Known` — what counts as accessed, as the protocol has it.
* `Machine.Opens` — when the frame on top was put there.
* `Machine.known_succ`, `Machine.Opens.known_failed` — what a step adds to this, or takes away.
* `Machine.warm_iff_known` — this is what is warm.
* `ColdAccessCharged` — what this means for an execution.
* `cold_access_charged` — every execution is like that.
-/

open Ledger

variable {L : Type} [Ledger L]

/-! ### What counts as accessed -/

namespace Machine

/-- The next step accesses something for so many frames, counted from below. -/
inductive Warms (c : Context) (m : Machine L) : Touch → Nat → Prop where
  /-- An instruction accesses it for its frame and those below. -/
  | accesses {i : Instruction} {t : Touch} : m.Executes c i → m.top.touched i = some t →
      Warms c m t (m.below.length + 1)
  /-- A creation accesses its target for the creator and those below, if it has a nonce left. -/
  | creates : m.top.phase = .created → m.top.message.isCreate = true →
      nonce m.ledger m.top.message.sender < Counter.limit →
      Warms c m (.account m.top.message.recipient) m.below.length

/-- The top frame has come to its end and is rolled back. -/
def Fails (c : Context) (m : Machine L) : Prop :=
  m.top.phase = .finalizing ∧ (m.topResult c).isSuccess = false

/-- One of the lowest `height` frames after the `i`-th step has been rolled back before the `n`-th.
    -/
def IsRolledBack (c : Context) (start : Machine L) (i n height : Nat) : Prop :=
  ∃ k, i ≤ k ∧ k < n ∧ (start.after c k).Fails c ∧ (start.after c k).below.length < height ∧
    ∀ j, i ≤ j → j ≤ k → (start.after c k).below.length ≤ (start.after c j).below.length

/-- What counts as accessed from the start of a message. -/
inductive KnownAtStart (c : Context) (message : Message) : Touch → Prop where
  | sender : KnownAtStart c message (.account message.sender)
  | recipient : KnownAtStart c message (.account message.recipient)
  | precompile {a : Address} : a ∈ c.precompiles.addresses c.fork →
      KnownAtStart c message (.account a)
  | coinbase : .shanghai ≤ c.fork → KnownAtStart c message (.account c.env.block.coinbase)

/-- What counts as accessed when `n` steps have been made from the start. -/
inductive Known (c : Context) (start : Machine L) (n : Nat) (t : Touch) : Prop where
  | atStart : KnownAtStart c start.top.message t → Known c start n t
  /-- It was accessed before, for frames that have not been rolled back. -/
  | warmed {i height : Nat} : i < n → (start.after c i).Warms c t height →
      ¬ IsRolledBack c start i n height → Known c start n t

/-! ### Lives of frames, counted -/

/-- The machine takes so many steps. -/
def Takes (c : Context) (start : Machine L) (n : Nat) : Prop :=
  ∀ k < n, (start.after c k).step c = .running (start.after c (k + 1))

/-- The frame that is on top after `n` steps is there since the `s`-th one, which put it there. -/
structure Opens (c : Context) (start : Machine L) (s n : Nat) : Prop where
  le : s ≤ n
  fresh : (start.after c s).IsFresh c
  height : (start.after c s).below.length = (start.after c n).below.length
  floor (j : Nat) : s ≤ j → j ≤ n → (start.after c s).below.length ≤ (start.after c j).below.length

variable {c : Context} {start m m' : Machine L} {t : Touch} {i k n s height : Nat}

/-- Fewer steps are taken as well. -/
theorem Takes.le (h : start.Takes c n) (hle : k ≤ n) : start.Takes c k :=
  fun j hj => h j (Nat.lt_of_lt_of_le hj hle)

/-- A machine that can still take a step has taken all those before. -/
theorem takes_of_step (h : (start.after c n).step c = .running m') : start.Takes c n := by
  intro k hk
  by_cases hstep : ∃ m₁, (start.after c k).step c = .running m₁
  · obtain ⟨m₁, hstep⟩ := hstep
    rw [hstep, after_step k start hstep]
  · -- a machine that takes no step stays where it is
    obtain ⟨j, rfl⟩ := Nat.exists_eq_add_of_le (Nat.le_of_lt hk)
    rw [after_add, after_of_not_running j fun m₁ h₁ => hstep ⟨m₁, h₁⟩] at h
    exact absurd ⟨m', h⟩ hstep

/-- A new frame is one higher than the machine was a step before. -/
theorem Takes.height_of_created (h : start.Takes c (k + 1))
    (hphase : (start.after c (k + 1)).top.phase = .created) :
    (start.after c (k + 1)).below.length = (start.after c k).below.length + 1 :=
  ((step_cases (h k (Nat.lt_succ_self k))).isFresh hphase).2

/-- A frame stays on top for a step. -/
theorem Opens.own (h : Opens c start s n)
    (hsame : (start.after c (n + 1)).below.length = (start.after c n).below.length) :
    Opens c start s (n + 1) where
  le := Nat.le_succ_of_le h.le
  fresh := h.fresh
  height := h.height.trans hsame.symm
  floor j hsj hjn := by
    obtain hj | rfl := Nat.le_add_one_iff.1 hjn
    · exact h.floor j hsj hj
    · exact Nat.le_of_eq (h.height.trans hsame.symm)

/-- A frame is popped, and on top is the one again that had put it there. -/
theorem Opens.pop {r : Nat} (h : Opens c start (s + 1) n) (hparent : Opens c start r s)
    (hput : (start.after c (s + 1)).below.length = (start.after c s).below.length + 1)
    (hpop : (start.after c n).below.length = (start.after c (n + 1)).below.length + 1) :
    Opens c start r (n + 1) := by
  have hchild := h.height
  have hheight := hparent.height
  refine ⟨?_, hparent.fresh, by omega, fun j hrj hjn => ?_⟩
  · exact Nat.le_succ_of_le (Nat.le_trans hparent.le (Nat.le_of_succ_le h.le))
  · obtain hj | hj := Nat.lt_or_ge s j
    · obtain hj' | rfl := Nat.le_add_one_iff.1 hjn
      · have := h.floor j hj hj'
        omega
      · omega
    · exact hparent.floor j hrj hj

/-- Every frame has been put where it is. -/
theorem Takes.exists_opens (hstart : start.IsFresh c) (hlow : start.below = [])
    (h : start.Takes c n) : ∃ s, Opens c start s n := by
  induction n using Nat.strong_induction_on with
  | h n ih =>
    cases n with
    | zero =>
      refine ⟨0, Nat.le_refl 0, hstart, rfl, fun j _ hj => ?_⟩
      rw [Nat.le_zero.1 hj]
    | succ n =>
      have before (k : Nat) (hk : k ≤ n) : ∃ s, Opens c start s k :=
        ih k (Nat.lt_succ_of_le hk) (h.le (Nat.le_succ_of_le hk))
      obtain ⟨s, hs⟩ := before n (Nat.le_refl n)
      rcases step_below (h n (Nat.lt_succ_self n)) with hsame | ⟨hfresh, -⟩ | ⟨-, parent, hpop⟩
      · exact ⟨s, hs.own (congrArg List.length hsame)⟩
      · refine ⟨n + 1, Nat.le_refl _, hfresh, rfl, fun j hnj hjn => ?_⟩
        rw [Nat.le_antisymm hjn hnj]
      · have hlower : (start.after c n).below.length =
            (start.after c (n + 1)).below.length + 1 := by rw [hpop, List.length_cons]
        cases s with
        | zero =>
          -- the first frame has none below it
          have hzero : (start.after c 0).below.length = 0 := congrArg List.length hlow
          have hheight := hs.height
          omega
        | succ s =>
          obtain ⟨r, hr⟩ := before s (Nat.le_of_succ_le hs.le)
          have hput := (h.le (Nat.le_succ_of_le hs.le)).height_of_created hs.fresh.phase
          exact ⟨r, hs.pop hr hput hlower⟩

/-- The whole life of a frame, if the next step pops it. -/
theorem Opens.popped (h : Opens c start s n) (hstep : (start.after c n).step c = .running m')
    (hlower : m'.below.length < (start.after c n).below.length) :
    Popped c (start.after c s) (start.after c n) m' := by
  obtain ⟨j, rfl⟩ := Nat.exists_eq_add_of_le h.le
  refine ⟨h.fresh, ?_, hstep, h.height ▸ hlower⟩
  rw [after_add]
  refine steps_after j _ fun k hk => ?_
  rw [← after_add]
  exact h.floor (s + k) (Nat.le_add_right s k) (Nat.add_le_add_left hk s)

/-! ### Accesses -/

/-- Only a new frame or a running one accesses anything. -/
theorem not_warms {p : Phase} (hphase : m.top.phase = p)
    (hp : p ≠ .created ∧ p ≠ .running ∧ p ≠ .resuming) : ¬ ∃ height, m.Warms c t height := by
  subst hphase
  rintro ⟨_, hwarms⟩
  cases hwarms with
  | accesses hexecutes _ => exact hexecutes.1.elim hp.2.1 hp.2.2
  | creates hcreated _ _ => exact hp.1 hcreated

/-- A new frame accesses the target of its creation, for the frames below it. -/
theorem Warms.of_created (h : m.Warms c t height) (hphase : m.top.phase = .created) :
    height = m.below.length ∧ t = .account m.top.message.recipient ∧
      m.top.message.isCreate = true ∧ nonce m.ledger m.top.message.sender < Counter.limit := by
  cases h with
  | accesses hexecutes _ => exact absurd hexecutes.1 (by rw [IsRunning, hphase]; decide)
  | creates _ hcreate hnonce => exact ⟨rfl, rfl, hcreate, hnonce⟩

/-- A running frame accesses what the operands of its instruction say. -/
theorem warms_running (hrun : m.IsRunning) :
    (∃ height, m.Warms c t height) ↔ m.top.touches c.fork = some t := by
  constructor
  · rintro ⟨_, hwarms⟩
    cases hwarms with
    | accesses hexecutes htouched =>
      rw [Frame.touches, hexecutes.2]
      exact htouched
    | creates hphase _ _ => exact absurd hrun (by rw [IsRunning, hphase]; decide)
  · intro h
    obtain ⟨i, hnext, htouched⟩ := Option.bind_eq_some_iff.1 h
    exact ⟨_, .accesses ⟨hrun, hnext⟩ htouched⟩

/-! ### Rollbacks -/

/-- What is rolled back stays so. -/
theorem IsRolledBack.mono (h : IsRolledBack c start i n height) (hle : n ≤ k) :
    IsRolledBack c start i k height := by
  obtain ⟨j, hij, hjn, hrest⟩ := h
  exact ⟨j, hij, Nat.lt_of_lt_of_le hjn hle, hrest⟩

/-- A step that rolls nothing back makes known what it accesses. -/
theorem known_succ (h : ¬ (start.after c n).Fails c) :
    Known c start (n + 1) t ↔
      Known c start n t ∨ ∃ height, (start.after c n).Warms c t height := by
  -- a failure at another time is none at this one
  have kept {i height : Nat} (hback : IsRolledBack c start i (n + 1) height) :
      IsRolledBack c start i n height := by
    obtain ⟨k, hik, hkn, hfails, hrest⟩ := hback
    obtain hlt | rfl := Nat.lt_succ_iff_lt_or_eq.1 hkn
    · exact ⟨k, hik, hlt, hfails, hrest⟩
    · exact absurd hfails h
  -- the last step either warms the target itself or was preceded by what did
  constructor
  · rintro (hstart | ⟨hi, hwarms, hkept⟩)
    · exact .inl (.atStart hstart)
    · obtain hlt | rfl := Nat.lt_succ_iff_lt_or_eq.1 hi
      · exact .inl (.warmed hlt hwarms fun hback => hkept (hback.mono (Nat.le_succ n)))
      · exact .inr ⟨_, hwarms⟩
  · rintro ((hstart | ⟨hi, hwarms, hkept⟩) | ⟨height, hwarms⟩)
    · exact .atStart hstart
    · exact .warmed (Nat.lt_succ_of_lt hi) hwarms fun hback => hkept (kept hback)
    · refine .warmed (Nat.lt_succ_self n) hwarms fun hback => ?_
      obtain ⟨k, hnk, hkn, -⟩ := kept hback
      omega

/-- When a frame is rolled back, that is known which was known when it was put on the stack, and the
    target of its creation. -/
theorem Opens.known_failed (h : Opens c start s n) (htakes : start.Takes c n)
    (hfails : (start.after c n).Fails c) :
    Known c start (n + 1) t ↔
      Known c start s t ∨ ∃ height, (start.after c s).Warms c t height := by
  constructor
  · rintro (hstart | @⟨i, height, hi, hwarms, hkept⟩)
    · exact .inl (.atStart hstart)
    · rcases Nat.lt_trichotomy i s with his | rfl | hsi
      · -- what is rolled back up to then is rolled back up to now
        have hle : s ≤ n + 1 := Nat.le_succ_of_le h.le
        exact .inl (.warmed his hwarms fun hback => hkept (hback.mono hle))
      · exact .inr ⟨height, hwarms⟩
      · -- it was accessed for the frame that is rolled back
        refine absurd ⟨n, Nat.le_of_lt_succ hi, Nat.lt_succ_self n, hfails, ?_, fun j hij hjn => ?_⟩
          hkept
        · have hheight := h.height
          cases hwarms with
          | accesses _ _ =>
            have := h.floor i (Nat.le_of_lt hsi) (Nat.le_of_lt_succ hi)
            omega
          | creates hphase _ _ =>
            obtain ⟨i, rfl⟩ := Nat.exists_eq_add_one_of_ne_zero (Nat.ne_zero_of_lt hsi)
            have := (htakes.le (Nat.le_of_lt_succ hi)).height_of_created hphase
            have := h.floor i (Nat.le_of_lt_succ hsi) (by omega)
            omega
        · exact h.height ▸ h.floor j (by omega) hjn
  · rintro ((hstart | ⟨hi, hwarms, hkept⟩) | ⟨height, hwarms⟩)
    · exact .atStart hstart
    · refine .warmed (Nat.lt_of_lt_of_le hi (Nat.le_succ_of_le h.le)) hwarms ?_
      rintro ⟨k, hik, hkn, hfailed, hlow, hfloor⟩
      obtain hks | hsk := Nat.lt_or_ge k s
      · exact hkept ⟨k, hik, hks, hfailed, hlow, hfloor⟩
      · -- a frame that ends from here on lies above the one that was on top before
        obtain ⟨s, rfl⟩ := Nat.exists_eq_add_one_of_ne_zero (Nat.ne_zero_of_lt hi)
        have := (htakes.le h.le).height_of_created h.fresh.phase
        have := h.floor k hsk (Nat.le_of_lt_succ hkn)
        have := hfloor s (Nat.le_of_lt_succ hi) (Nat.le_of_succ_le hsk)
        omega
    · refine .warmed (Nat.lt_succ_of_le h.le) hwarms ?_
      rintro ⟨k, hsk, hkn, -, hlow, -⟩
      have := h.floor k hsk (Nat.le_of_lt_succ hkn)
      have hheight := (hwarms.of_created h.fresh.phase).1
      omega

end Machine

/-! ### What steps make warm -/

/-- What is warm after an access was so before, or is what was accessed. -/
theorem Warmth.of_touch_eq_warm {w : Warmth} {t t' : Touch} :
    (w.touch t).of t' = .warm ↔ w.of t' = .warm ∨ t' = t := by
  rw [of_touch]
  split
  · rename_i h
    exact iff_of_true rfl (.inr h)
  · rename_i h
    exact (or_iff_left h).symm

section Lawful

variable [LawfulLedger L]

/-- A transfer accesses nothing. -/
theorem Ledger.warmth_transfer {l l' : L} {sender recipient : Address} {value : Word}
    (h : transfer l sender recipient value = .ok l') : warmth l' = warmth l := by
  obtain rfl | ⟨-, -, credited, -, rfl⟩ := transfer_cases h
  · rfl
  · rw [LawfulLedger.warmth_setBalance, LawfulLedger.warmth_setBalance]

/-- Preparing a frame accesses nothing after its snapshot. -/
theorem Local.Prepared.warmth {c : Context} {m : Message} {l l' : L} (h : Prepared c m l l') :
    Ledger.warmth l' = Ledger.warmth (m.entered c l) := by
  induction h with
  | refused hsame => rw [hsame]
  | opened => exact LawfulLedger.warmth_snapshot _
  | cleared _ _ ih => rw [LawfulLedger.warmth_setNonce, LawfulLedger.warmth_clearStorage, ih]
  | moved _ _ ht ih => rw [Ledger.warmth_transfer ht, ih]

/-- Depositing code accesses nothing. -/
theorem Local.warmth_deposited (c : Context) (s : Local L) :
    Ledger.warmth (s.deposited c).2.ledger = Ledger.warmth s.ledger := by
  obtain hsame | ⟨code, hset⟩ := s.deposited_ledger c
  · rw [hsame]
  · rw [hset, LawfulLedger.warmth_setCode]

namespace Machine

variable {c : Context} {start m m' last : Machine L} {t : Touch} {n s : Nat}

omit [LawfulLedger L] in
/-- What is left warm of a new frame, however it ends, is what was warm before and its target. -/
theorem warm_afterFailure (hfork : c.fork.accessLists = true) (hphase : m.top.phase = .created) :
    ((warmth m.ledger).afterFailure (state m.ledger) c.fork m.top.message).of t = .warm ↔
      (warmth m.ledger).of t = .warm ∨ ∃ height, m.Warms c t height := by
  unfold Warmth.afterFailure
  split
  · rename_i hraised
    refine (Warmth.of_touch_eq_warm (t := .account m.top.message.recipient)).trans
      (or_congr_right ?_)
    -- a creation that fails keeps its address warm, and nothing else that its frame has touched
    constructor
    · rintro rfl
      exact ⟨_, .creates hphase hraised.1.1 hraised.1.2⟩
    · rintro ⟨_, hwarms⟩
      exact (hwarms.of_created hphase).2.1
  · rename_i hnot
    refine (or_iff_left ?_).symm
    rintro ⟨_, hwarms⟩
    exact hnot ⟨(hwarms.of_created hphase).2.2, hfork⟩

/-- A turn that does not fail makes warm what it accesses. -/
theorem warm_turn [StartValues L] (hfork : c.fork.accessLists = true) {o : Outcome} {s : Local L}
    {trace : Trace} (hrun : m.IsRunning) (h : m.turn c = (o, s, trace)) (hgood : ∀ e, o ≠ .failed e) :
    (warmth s.ledger).of t = .warm ↔
      (warmth m.ledger).of t = .warm ∨ ∃ height, m.Warms c t height := by
  rw [warms_running hrun]
  cases htouches : m.top.touches c.fork with
  | none =>
    rw [Local.turn_untouched h htouches]
    exact (or_iff_left nofun).symm
  | some t' =>
    obtain ⟨i, hnext, htouched⟩ := Option.bind_eq_some_iff.1 htouches
    rw [(Local.turn_billed hfork h hnext htouched hgood).warmth, Warmth.of_touch_eq_warm,
      Option.some_inj, eq_comm (a := t)]
    rfl

/-- A step that pops no frame makes warm what it accesses, or the frame has come to a bad end. -/
theorem Stepped.warm [StartValues L] (hfork : c.fork.accessLists = true) (h : Stepped c m m')
    (hphase : m.top.phase ≠ .finalizing) :
    m'.HasFailed ∨ ∀ t, (warmth m'.ledger).of t = .warm ↔
      (warmth m.ledger).of t = .warm ∨ ∃ height, m.Warms c t height := by
  cases h with
  | prepares hcreated =>
    refine .inr fun t => ?_
    have hprepared := (m.toLocal.attempt_prepare_ledger c).warmth
    rw [Message.warmth_entered] at hprepared
    rw [← warm_afterFailure hfork hcreated]
    exact iff_of_eq (congrArg (fun w => w.of t = .warm) hprepared)
  | enters hprepared =>
    refine .inr fun t => ?_
    rw [(m.enter_records c).2.2.2]
    exact (or_iff_left (not_warms hprepared (by decide))).symm
  | continues hrun hturn => exact .inr fun t => warm_turn hfork hrun hturn (by simp)
  | spawns hrun hturn => exact .inr fun t => warm_turn hfork hrun hturn (by simp)
  | ends hrun hturn hends =>
    cases hends with
    | halted => exact .inr fun t => warm_turn hfork hrun hturn (by simp)
    | failed e =>
      -- how far the instruction has come does not matter, since the frame is rolled back
      exact .inl ⟨rfl, rfl⟩
  | pops hend _ => exact absurd hend hphase

/-- A frame that succeeds leaves what is warm to its parent. -/
theorem Popped.warmth_succeeded (h : Popped c m last m')
    (hsuccess : (last.topResult c).isSuccess = true) : warmth m'.ledger = warmth last.ledger := by
  rw [h.ledger_eq]
  cases h.settled with
  | refused _ _ _ _ _ _ hfailed => exact absurd (hsuccess.symm.trans hfailed) nofun
  | undone _ _ _ _ _ _ _ hfailed => exact absurd (hsuccess.symm.trans hfailed) nofun
  | kept _ hhistory _ hcommit _ _ =>
    obtain ⟨l, hl, -, hwarmth⟩ := LawfulLedger.commit_history hhistory
    rw [hcommit] at hl
    rw [Except.ok.inj hl, hwarmth]
    exact last.toLocal.warmth_deposited c

/-! ### What is warm -/

omit [Ledger L] [LawfulLedger L] in
/-- What is warm after several accesses was so before, or is one of them. -/
theorem of_foldl_touchAccount {w : Warmth} {addresses : List Address} :
    (addresses.foldl .touchAccount w).of t = .warm ↔
      w.of t = .warm ∨ ∃ a ∈ addresses, t = .account a := by
  induction addresses generalizing w with
  | nil => simp
  | cons a rest ih =>
    rw [List.foldl_cons, ih, show w.touchAccount a = w.touch (.account a) from rfl,
      Warmth.of_touch_eq_warm, or_assoc]
    simp

/-- What counts as accessed from the start is what the execution accesses before its first frame. -/
theorem knownAtStart_iff {message : Message} (hfork : c.fork.accessLists = true) :
    KnownAtStart c message t ↔ ∃ a ∈ prewarmed c message, t = .account a := by
  have hlist : prewarmed c message = [message.sender, message.recipient] ++
      c.precompiles.addresses c.fork ++
        (if .shanghai ≤ c.fork then [c.env.block.coinbase] else []) := if_pos hfork
  rw [hlist]
  -- the list, part by part
  constructor
  · intro h
    cases h with
    | sender => exact ⟨_, by simp, rfl⟩
    | recipient => exact ⟨_, by simp, rfl⟩
    | precompile ha => exact ⟨_, by simp [ha], rfl⟩
    | coinbase hshanghai => exact ⟨_, by simp [hshanghai], rfl⟩
  · rintro ⟨a, ha, rfl⟩
    rw [List.mem_append, List.mem_append] at ha
    rcases ha with (ha | ha) | ha
    · obtain rfl | ha := List.mem_cons.1 ha
      · exact .sender
      · exact List.mem_singleton.1 ha ▸ .recipient
    · exact .precompile ha
    · split at ha
      · rename_i hshanghai
        exact List.mem_singleton.1 ha ▸ .coinbase hshanghai
      · cases ha

/-- What is warm after `n` steps is what counts as accessed, unless the top frame has come to a bad
end, in which case it is rolled back next. -/
def WarmIffKnown (c : Context) (start : Machine L) (n : Nat) : Prop :=
  (start.after c n).HasFailed ∨
    ∀ t, (warmth (start.after c n).ledger).of t = .warm ↔ Known c start n t

/-- At the start just what is known then is warm. -/
theorem warmIffKnown_zero (hfork : c.fork.accessLists = true) {l : L} {message : Message}
    {observer : Observer} (hcold : ∀ t, (warmth l).of t = .cold) :
    WarmIffKnown c (launch c l message observer) 0 := by
  refine .inr fun t => ?_
  show (warmth ((prewarmed c (message.resolve l)).foldl (fun l a => (accessAccount l a).2) l)).of t =
    .warm ↔ _
  rw [warmth_prewarm, of_foldl_touchAccount, hcold t, or_iff_right nofun, ← knownAtStart_iff hfork]
  refine ⟨fun hstart => .atStart hstart, fun h => ?_⟩
  cases h with
  | atStart hstart => exact hstart
  | warmed hi _ _ => exact absurd hi (Nat.not_lt_zero _)

/-- A step that pops no frame. -/
theorem WarmIffKnown.succ [StartValues L] (h : WarmIffKnown c start n)
    (hfork : c.fork.accessLists = true)
    (hstep : (start.after c n).step c = .running (start.after c (n + 1)))
    (hphase : (start.after c n).top.phase ≠ .finalizing) : WarmIffKnown c start (n + 1) := by
  refine ((step_cases hstep).warm hfork hphase).imp_right fun hwarm t => ?_
  have hbefore := h.resolve_left fun hfailed => hphase hfailed.1
  rw [hwarm t, hbefore t, known_succ fun hfails => hphase hfails.1]

/-- A step that pops a frame which succeeds. -/
theorem WarmIffKnown.kept (h : WarmIffKnown c start n)
    (hpopped : Popped c m (start.after c n) (start.after c (n + 1)))
    (hsuccess : ((start.after c n).topResult c).isSuccess = true) :
    WarmIffKnown c start (n + 1) := by
  have hphase := hpopped.handedTo.1
  have hbefore := h.resolve_left (not_hasFailed hpopped.fresh hpopped.course hphase hsuccess)
  have hnot : ¬ (start.after c n).Fails c := fun hfails => absurd (hsuccess.symm.trans hfails.2) nofun
  have hnone (t : Touch) : ¬ ∃ height, (start.after c n).Warms c t height :=
    not_warms hphase (by decide)
  refine .inr fun t => ?_
  rw [hpopped.warmth_succeeded hsuccess, known_succ hnot, hbefore t, or_iff_left (hnone t)]

/-- A step that pops a frame which fails. -/
theorem WarmIffKnown.undone (h : WarmIffKnown c start s) (hfork : c.fork.accessLists = true)
    (hopens : Opens c start s n) (htakes : start.Takes c n)
    (hpopped : Popped c (start.after c s) (start.after c n) (start.after c (n + 1)))
    (hfailed : ¬ ((start.after c n).topResult c).isSuccess = true) :
    WarmIffKnown c start (n + 1) := by
  have hcreated := hopens.fresh.phase
  have hbefore := h.resolve_left fun hend => absurd (hcreated.symm.trans hend.1) nofun
  refine .inr fun t => ?_
  rw [(hpopped.failed (ExecutionResult.status_ne_success hfailed)).2, warm_afterFailure hfork hcreated,
    hbefore t, hopens.known_failed htakes ⟨hpopped.handedTo.1, Bool.not_eq_true _ ▸ hfailed⟩]

/-- After any number of steps just what is known then is warm. -/
theorem warm_iff_known [StartValues L] (hfork : c.fork.accessLists = true) {l : L} {message : Message}
    {observer : Observer} (hcold : ∀ t, (warmth l).of t = .cold)
    (htakes : (launch c l message observer).Takes c n) :
    WarmIffKnown c (launch c l message observer) n := by
  -- by strong induction: a frame that is rolled back leads to what was warm when it was put there
  induction n using Nat.strong_induction_on with
  | h n ih =>
    cases n with
    | zero => exact warmIffKnown_zero hfork hcold
    | succ n =>
      have hstep := htakes n (Nat.lt_succ_self n)
      have hbefore := htakes.le (Nat.le_succ n)
      by_cases hphase : ((launch c l message observer).after c n).top.phase = .finalizing
      · obtain ⟨s, hopens⟩ := hbefore.exists_opens isFresh_launch rfl
        have hlower := Nat.lt_of_not_le fun hstays => phase_ne_finalizing hstep hstays hphase
        have hpopped := hopens.popped hstep hlower
        by_cases hsuccess : (((launch c l message observer).after c n).topResult c).isSuccess = true
        · exact (ih n (Nat.lt_succ_self n) hbefore).kept hpopped hsuccess
        · have hopened := ih s (Nat.lt_succ_of_le hopens.le) (hbefore.le hopens.le)
          exact hopened.undone hfork hopens hbefore hpopped hsuccess
      · exact (ih n (Nat.lt_succ_self n) hbefore).succ hfork hstep hphase

end Machine

end Lawful

/-! ### Executions -/

open Machine in
open Classical in
/-- A ledger from which every execution is charged for cold accesses as the protocol has it, which
tells from the steps what is cold.  The machines after so many steps are those that the execution
passes through, by `Machine.Visited.iff_after`. -/
structure ColdAccessCharged (l : L) : Prop where
  /-- What an instruction accesses is cold if and only if it does not count as accessed. -/
  cold {c : Context} {message : Message} {observer : Observer} {n : Nat} {m : Machine L}
    {i : Instruction} {t : Touch} : .berlin ≤ c.fork → m = (launch c l message observer).after c n →
      m.Executes c i → m.top.touched i = some t →
        ((warmth m.ledger).of t = .cold ↔ ¬ Known c (launch c l message observer) n t)
  /-- An instruction that goes through pays its dues, and the surcharge if and only if what it
  accesses does not count as accessed. -/
  pays {c : Context} {message : Message} {observer : Observer} {n : Nat} {m : Machine L}
    {i : Instruction} {t : Touch} {o : Outcome} {s : Local L} {trace : Trace} :
      .berlin ≤ c.fork → m = (launch c l message observer).after c n → m.Executes c i →
        m.top.touched i = some t → m.turn c = (o, s, trace) → (∀ e, o ≠ .failed e) →
          m.top.funds = s.frame.funds + o.childGas + (i.staticGas c.fork + m.running.dues c i) +
            if Known c (launch c l message observer) n t then 0 else i.surcharge

/-- Cold accesses are charged on every ledger on which nothing is accessed yet. -/
theorem coldAccessCharged_of_cold [LawfulLedger L] [StartValues L] {l : L}
    (hcold : ∀ t, (warmth l).of t = .cold) : ColdAccessCharged l := by
  -- a machine that runs an instruction has taken all steps before, and its top frame has not failed
  have cold {c : Context} {message : Message} {observer : Observer} {n : Nat} {m : Machine L}
      {i : Instruction} {t : Touch} (hfork : .berlin ≤ c.fork)
      (hm : m = (Machine.launch c l message observer).after c n) (hexecutes : m.Executes c i) :
      (warmth m.ledger).of t = .cold ↔ ¬ Machine.Known c (Machine.launch c l message observer) n t := by
    obtain ⟨m', hstep⟩ : ∃ m', m.step c = .running m' := by
      unfold Machine.step
      rcases hexecutes.1 with hphase | hphase
      · rw [hphase]
        exact ⟨_, rfl⟩
      · rw [hphase]
        exact ⟨_, rfl⟩
    have haccess : c.fork.accessLists = true := decide_eq_true hfork
    subst hm
    have hwarm := (Machine.warm_iff_known haccess hcold (Machine.takes_of_step hstep)).resolve_left
      fun hfailed => hexecutes.1.elim (by rw [hfailed.1]; nofun) (by rw [hfailed.1]; nofun)
    rw [← hwarm t]
    cases (warmth ((Machine.launch c l message observer).after c n).ledger).of t with
    | cold => exact iff_of_true rfl nofun
    | warm => exact iff_of_false nofun fun h => h rfl
  constructor
  · intro c message observer n m i t hfork hm hexecutes _
    exact cold hfork hm hexecutes
  · intro c message observer n m i t o s trace hfork hm hexecutes htouched hturn hgood
    have hbilled := Local.turn_billed (decide_eq_true hfork) hturn hexecutes.2 htouched hgood
    refine hbilled.funds.trans (congrArg _ ?_)
    by_cases hknown : Machine.Known c (Machine.launch c l message observer) n t
    · rw [if_pos hknown]
      exact if_neg fun hcold => (cold hfork hm hexecutes).1 hcold hknown
    · rw [if_neg hknown]
      exact if_pos ((cold hfork hm hexecutes).2 hknown)

/-- An empty access list finds everything cold. -/
theorem AccessList.warmth_empty (t : Touch) : ({} : AccessList).warmth.of t = .cold := by
  cases t with
  | account a => exact (warmth_account _ a).trans (if_neg (by simp [isAccountWarm]))
  | slot s => exact (warmth_slot _ s).trans (if_neg (by simp [isSlotWarm]))

/-- On both ledgers, every execution that comes first in its transaction is charged like that. -/
theorem cold_access_charged :
    (∀ (S : Type) [WorldSource S] (l : JournaledLedger S), ColdAccessCharged l.beginTransaction) ∧
      ∀ l : SnapshotLedger, ColdAccessCharged l.beginTransaction := by
  refine ⟨fun S _ l => coldAccessCharged_of_cold fun t => ?_,
    fun l => coldAccessCharged_of_cold fun t => ?_⟩
  · rw [JournaledLedger.warmth_eq]
    exact AccessList.warmth_empty t
  · rw [SnapshotLedger.warmth_eq]
    exact AccessList.warmth_empty t

/-- A contract calls another one, which looks at the account 9 and asks for a rollback.  Then 9 is
cold again, and the first contract pays for looking at it.  The account that it has called is warm.
-/
theorem cold_access_charged_past_rollback :
    let c : Context := { precompiles := .none }
    let l := SnapshotLedger.ofWorld (World.setCode (World.setCode {}
      8 #[0x60, 9, 0x31, 0x60, 0, 0x60, 0, 0xfd])
      7 #[0x60, 0, 0x60, 0, 0x60, 0, 0x60, 0, 0x60, 0, 0x60, 8, 0x61, 0xff, 0xff, 0xf1, 0x60, 9, 0x31,
        0x60, 8, 0x31])
    let start := Machine.launch c l.beginTransaction (.call 1 7 0 #[] 300000) .off
    let first := start.after c 19
    let second := start.after c 21
    (start.after c 13).Warms c (.account 9) 2 ∧ Machine.IsRolledBack c start 13 19 2 ∧
      (first.Executes c .balance ∧ first.top.touched .balance = some (.account 9) ∧
        ¬ Machine.Known c start 19 (.account 9) ∧
        first.top.funds = (first.turn c).2.1.frame.funds + 2600) ∧
      second.Executes c .balance ∧ second.top.touched .balance = some (.account 8) ∧
        Machine.Known c start 21 (.account 8) ∧
        second.top.funds = (second.turn c).2.1.frame.funds + 100 := by
  intro c l start first second
  have berlin : .berlin ≤ c.fork := by decide
  have inner : (start.after c 13).Warms c (.account 9) 2 := by
    have runs : (start.after c 13).Executes c .balance :=
      ⟨.inl (by decide +kernel), by decide +kernel⟩
    have height : (start.after c 13).below.length + 1 = 2 := by decide +kernel
    rw [← height]
    -- the account is warmed inside the child, whose failure cools it again
    exact .accesses runs (by decide +kernel)
  have back : Machine.IsRolledBack c start 13 19 2 :=
    ⟨17, by decide, by decide, ⟨by decide +kernel, by decide +kernel⟩, by decide +kernel,
      by decide +kernel⟩
  have firstRuns : first.Executes c .balance := ⟨.inl (by decide +kernel), by decide +kernel⟩
  have secondRuns : second.Executes c .balance := ⟨.inl (by decide +kernel), by decide +kernel⟩
  have firstTouches : first.top.touched .balance = some (.account 9) := by decide +kernel
  have secondTouches : second.top.touched .balance = some (.account 8) := by decide +kernel
  have unknown : ¬ Machine.Known c start 19 (.account 9) :=
    ((cold_access_charged.2 l).cold berlin rfl firstRuns firstTouches).1 (by decide +kernel)
  have known : Machine.Known c start 21 (.account 8) := by
    have warm : ¬ (warmth second.ledger).of (.account 8) = .cold := by decide +kernel
    have charged := (cold_access_charged.2 l).cold berlin rfl secondRuns secondTouches
    -- the target of the call is outside the child, and stays warm
    exact Classical.not_not.1 fun hunknown => warm (charged.2 hunknown)
  have turned {r : Outcome × Local SnapshotLedger × Trace} (h : r.1 = .continues) :
      r = (.continues, r.2.1, r.2.2) := Prod.ext h rfl
  have firstTurn := turned (r := first.turn c) (by decide +kernel)
  have secondTurn := turned (r := second.turn c) (by decide +kernel)
  have firstPays := (cold_access_charged.2 l).pays berlin rfl firstRuns firstTouches firstTurn nofun
  have secondPays := (cold_access_charged.2 l).pays berlin rfl secondRuns secondTouches secondTurn nofun
  -- the price of the instruction without the surcharge
  have price (m : Machine SnapshotLedger) :
      Instruction.balance.staticGas c.fork + m.running.dues c .balance = 100 := rfl
  have childless : Outcome.continues.childGas = 0 := rfl
  have surcharge : 100 + Instruction.balance.surcharge = 2600 := rfl
  rw [childless, Nat.add_zero, price, if_neg unknown, Nat.add_assoc, surcharge] at firstPays
  rw [childless, Nat.add_zero, price, if_pos known, Nat.add_zero] at secondPays
  exact ⟨inner, back, ⟨firstRuns, firstTouches, unknown, firstPays⟩, secondRuns, secondTouches, known,
    secondPays⟩

end Evm
