import Evm.Proofs.Instruction.Outcome
import Evm.Proofs.Machine.Ether

namespace Evm

/-!
# Records and destructions

A frame collects records and the addresses of accounts that are to be destroyed.  Those that it
leaves itself are told by its operands before the instruction runs, and each address is noted once.

* `Frame.record` — the record that the operands of a frame describe.
* `Frame.Collects` — what one frame has more than another.
* `Local.turn_collects` — a turn that does not fail leaves what its instruction is to leave.
* `Machine.Trail` — steps, with the machines that they are taken from.
* `Machine.Stepped.collects` — a step leaves what it is to leave.
-/

variable {L : Type} [Ledger L]

/-! ### Noting addresses once -/

section Noting

variable {noticed : Array Address} {a b : Address}

/-- What is noted now was noted before, or is new. -/
theorem Frame.mem_noted : b ∈ noted noticed a ↔ b ∈ noticed ∨ b = a := by
  unfold noted
  split
  · rename_i h
    rw [Array.contains_iff_mem] at h
    exact ⟨.inl, fun hb => hb.elim id fun hb => hb ▸ h⟩
  · exact Array.mem_push

/-- Several addresses are noted one after another. -/
theorem Frame.mem_foldl_noted (addresses : List Address) :
    b ∈ addresses.foldl noted noticed ↔ b ∈ noticed ∨ b ∈ addresses := by
  induction addresses generalizing noticed with
  | nil => simp
  | cons a rest ih => rw [List.foldl_cons, ih, mem_noted, List.mem_cons, or_assoc]

/-- What has been noted already is not noted again. -/
theorem Frame.noted_of_mem (h : a ∈ noticed) : noted noticed a = noticed :=
  if_pos (Array.contains_iff_mem.2 h)

/-- A new address comes last. -/
theorem Frame.noted_of_not_mem (h : a ∉ noticed) : noted noticed a = noticed.push a :=
  if_neg fun hmem => h (Array.contains_iff_mem.1 hmem)

/-- To take over what another frame has noted is to note it oneself. -/
theorem Frame.foldl_noted_foldl (start : Array Address) (addresses : List Address) :
    (addresses.foldl noted noticed).foldl noted start =
      addresses.foldl noted (noticed.foldl noted start) := by
  induction addresses generalizing noticed with
  | nil => rfl
  | cons a rest ih =>
    rw [List.foldl_cons, List.foldl_cons, ih]
    congr 1
    by_cases h : a ∈ noticed
    · have known : a ∈ noticed.foldl noted start := by
        rw [← Array.foldl_toList, mem_foldl_noted]
        exact .inr (Array.mem_toList_iff.2 h)
      rw [noted_of_mem h, noted_of_mem known]
    · rw [noted_of_not_mem h, Array.foldl_push]

/-- Addresses that are noted one after another are each noted when they come first. -/
theorem Frame.toList_foldl_noted (addresses : List Address) :
    (addresses.foldl noted #[]).toList = addresses.eraseDups := by
  -- by induction from the end: what was noted last is noted unless it was there before
  induction addresses using List.reverseRecOn with
  | nil => rfl
  | append_singleton earlier a ih =>
    rw [List.foldl_append, List.eraseDups_append, ← ih]
    have known : a ∈ earlier.foldl noted #[] ↔ a ∈ earlier := by
      rw [mem_foldl_noted]
      simp
    by_cases h : a ∈ earlier
    · show (noted _ a).toList = _
      rw [noted_of_mem (known.2 h)]
      simp [List.removeAll, h]
    · show (noted _ a).toList = _
      rw [noted_of_not_mem (mt known.1 h)]
      simp [List.removeAll, h, List.eraseDups_cons]

/-- No address is noted twice. -/
theorem Frame.nodup_foldl_noted (addresses : List Address) (h : noticed.toList.Nodup) :
    (addresses.foldl noted noticed).toList.Nodup := by
  induction addresses generalizing noticed with
  | nil => exact h
  | cons a rest ih =>
    refine ih ?_
    by_cases hmem : a ∈ noticed
    · rwa [noted_of_mem hmem]
    · rw [noted_of_not_mem hmem, Array.toList_push]
      refine h.append (List.nodup_singleton a) fun b hb hba => hmem ?_
      exact List.mem_singleton.1 hba ▸ Array.mem_toList_iff.1 hb

end Noting

/-! ### What an instruction leaves -/

namespace Frame

/-- The record that a frame is to leave with so many topics.  Its operands are the offset and the
    size of the data, and then the topics. -/
def record (f : Frame) (topicCount : Nat) : Log where
  address := f.address
  topics := (f.stack.items.drop 2).take topicCount
  data := f.memory.read (f.stack.items.getD 0 0).clampOffset (f.stack.items.getD 1 0).clampOffset

/-- The record that an instruction of the frame is to leave, if it is to leave one. -/
def recordOf (f : Frame) : Instruction → Option Log
  | .log n => some (f.record n)
  | _ => none

/-- The account that an instruction of the frame is to destroy, if it is to destroy one. -/
def destructionOf (f : Frame) (i : Instruction) : Option Address :=
  if i = .selfDestruct then some f.address else none

/-- The record that the next instruction of the frame is to leave. -/
def nextRecord (fork : Fork) (f : Frame) : Option Log := (f.nextInstruction fork).bind f.recordOf

/-- The account that the next instruction of the frame is to destroy. -/
def nextDestruction (fork : Fork) (f : Frame) : Option Address :=
  (f.nextInstruction fork).bind f.destructionOf

/-- The second frame has left these records and registered these addresses since the first. -/
structure Collects (f g : Frame) (logs : List Log) (destroyed : List Address) : Prop where
  logs : g.logs.toList = f.logs.toList ++ logs
  selfDestructs : g.selfDestructs = destroyed.foldl noted f.selfDestructs

namespace Collects

variable {f g h : Frame}

/-- Nothing is collected where nothing is done. -/
theorem refl (f : Frame) : f.Collects f [] [] := ⟨(List.append_nil _).symm, rfl⟩

/-- What is collected later comes after. -/
theorem trans {logs logs' : List Log} {destroyed destroyed' : List Address}
    (hg : f.Collects g logs destroyed) (hh : g.Collects h logs' destroyed') :
    f.Collects h (logs ++ logs') (destroyed ++ destroyed') :=
  ⟨by rw [hh.logs, hg.logs, List.append_assoc],
    by rw [hh.selfDestructs, hg.selfDestructs, List.foldl_append]⟩

/-- A frame that is as before in this. -/
theorem of_eq (hlogs : g.logs = f.logs) (hdestructs : g.selfDestructs = f.selfDestructs) :
    f.Collects g [] [] := ⟨by rw [hlogs, List.append_nil], hdestructs⟩

end Collects

end Frame

/-- Only records and destructions are collected. -/
theorem Local.Did.collects_nothing {s t : Local L} {i : Instruction} (h : s.Did i t)
    (hlog : ∀ n, i ≠ .log n) (hdestroy : i ≠ .selfDestruct) : s.frame.Collects t.frame [] [] := by
  cases h with
  | quiet hquiet => exact .of_eq hquiet.logs hquiet.selfDestructs
  | logged => exact absurd rfl (hlog _)
  | stored _ _ _ hquiet => exact .of_eq hquiet.logs hquiet.selfDestructs
  | destroyed => exact absurd rfl hdestroy

namespace Effect

omit [Ledger L] in
/-- Topics are taken from the top of the stack. -/
theorem popTopics_ensures (n : Nat) (s : Local L) :
    Ensures (popTopics n) (fun topics t => topics = s.frame.stack.items.take n ∧
      ∃ stack, t = { s with frame := { s.frame with stack } }) (fun _ => True) s := by
  induction n generalizing s with
  | zero => exact ⟨rfl, s.frame.stack, rfl⟩
  | succ n ih =>
    refine .bind (.onStack (fun topic stack hpop => ?_) trivial)
    refine .bind ((ih _).mono fun rest t ⟨hrest, below, ht⟩ => ?_)
    refine ⟨?_, below, ht⟩
    rw [Stack.eq_of_pop hpop, hrest]
    rfl

omit [Ledger L] in
/-- A record that is left is the one that the operands of the frame describe. -/
theorem log_ensures (n : Nat) (s : Local L) :
    Ensures (log n) (fun _ t => s.frame.Collects t.frame [s.frame.record n] []) (fun _ => True) s := by
  refine .bind (.requireNonStatic (fun _ => ?_) trivial)
  refine .bind (.onStack (fun (offset, size) stack hpop => ?_) trivial)
  refine .bind ((popTopics_ensures n _).mono fun topics t ⟨htopics, below, ht⟩ => ?_)
  subst ht htopics
  refine .bind (.extendMemory (fun memory gas hmemory => ?_) trivial)
  refine .bind (.charge (fun gas' hgas => ?_) trivial)
  refine .readMemory_bind (.modifyFrame ⟨?_, rfl⟩)
  -- the data are what a reader saw before memory grew
  have hrecord : s.frame.record n =
      { address := s.frame.address
        topics := stack.items.take n
        data := s.frame.memory.read offset.clampOffset size.clampOffset } := by
    rw [Frame.record, Stack.eq_of_pop2 hpop]
    rfl
  rw [hrecord, ← Memory.read_of_extend (Memory.inRange_operands offset size) hmemory]
  exact Array.toList_push

/-- The last part of a destruction registers the account of the frame. -/
theorem surrender_ensures (fork : Fork) (ancestors : List Frame) (beneficiary a : Address)
    (balance : Word) (s : Local L) :
    Ensures (do
      refundDestruction fork ancestors
      modifyFrame (·.registerSelfDestruct a)
      if beneficiary ≠ a then
        tryLedger (Ledger.tryAddBalance beneficiary balance) .state
      modifyLedger (Ledger.setBalance · a 0))
      (fun _ t => s.frame.Collects t.frame [] [a]) (fun _ => True) s := by
  have registered (gas : Meter) :
      s.frame.Collects (({ s.frame with gas } : Frame).registerSelfDestruct a) [] [a] := by
    rw [Frame.registerSelfDestruct_eq]
    exact ⟨(List.append_nil _).symm, rfl⟩
  obtain ⟨gas, hrefund⟩ := run_refundDestruction fork ancestors s
  refine .bind (.of_run hrefund ?_)
  refine .bind (.modifyFrame (.ite (fun _ => ?_) fun _ => ?_))
  · exact .bind (.tryLedger (fun _ _ _ => .modifyLedger (registered gas)) fun _ _ _ => trivial)
  · exact .modifyLedger (registered gas)

/-- A destruction that goes through has registered the account of its frame. -/
theorem selfDestruct_ensures (c : Context) (ancestors : List Frame) (s : Local L) :
    Ensures (selfDestruct c ancestors)
      (fun _ t => s.frame.Collects t.frame [] [s.frame.address]) (fun _ => True) s := by
  refine .bind (.requireNonStatic (fun _ => ?_) trivial)
  refine .bind (.of_isQuiet .popAddress (fun beneficiary t ht => ?_) fun _ _ => trivial)
  refine .frame_bind
    (.bind (.of_isQuiet (.accessAccount _ _ _) (fun _ u hu => ?_) fun _ _ => trivial))
  -- what comes before the registration is quiet
  have address : t.frame.address = s.frame.address := congrArg Message.recipient ht.message
  have last {v : Local L} (hv : s.Quiet v) (w : Local L)
      (h : v.frame.Collects w.frame [] [t.frame.address]) :
      s.frame.Collects w.frame [] [s.frame.address] := by
    rw [← address]
    exact (Frame.Collects.of_eq hv.logs hv.selfDestructs).trans h
  have hquiet := ht.trans hu
  refine .ledger_bind (.ite (fun _ => .bind (.of_isQuiet (.charge _) (fun _ v hv => ?_)
    fun _ _ => trivial)) fun _ => ?_)
  · exact (surrender_ensures c.fork ancestors _ _ _ v).mono fun _ w h => last (hquiet.trans hv) w h
  · exact (surrender_ensures c.fork ancestors _ _ _ u).mono fun _ w h => last hquiet w h

/-- An instruction that goes through has left what it is to leave, and nothing else. -/
theorem ofInstruction_ensures (c : Context) (ancestors : List Frame) (i : Instruction)
    (s : Local L) :
    Ensures (ofInstruction c ancestors i) (fun _ t => s.frame.Collects t.frame
      (s.frame.recordOf i).toList (s.frame.destructionOf i).toList) (fun _ => True) s := by
  by_cases hlog : ∃ n, i = .log n
  · obtain ⟨n, rfl⟩ := hlog
    exact .bind ((log_ensures n s).mono fun _ _ h => .pure h)
  · by_cases hdestroy : i = .selfDestruct
    · subst hdestroy
      exact .bind ((selfDestruct_ensures c ancestors s).mono fun _ _ h => .pure h)
    · -- the other instructions have no part in this
      have hrecord : s.frame.recordOf i = none := by
        cases i with
        | log n => exact absurd ⟨n, rfl⟩ hlog
        | _ => rfl
      have hdestruction : s.frame.destructionOf i = none := if_neg hdestroy
      rw [hrecord, hdestruction]
      refine (Ensures.of_final (ofInstruction_did c ancestors i s)).imp (fun _ t hdid => ?_)
        fun _ _ => trivial
      exact hdid.collects_nothing (fun n h => hlog ⟨n, h⟩) hdestroy

end Effect

/-- A turn that does not fail has left what its instruction is to leave, and nothing else. -/
theorem Local.turn_collects {c : Context} {ancestors : List Frame} {s t : Local L}
    {trace trace' : Trace} {o : Outcome} (h : s.turn c ancestors trace = (o, t, trace')) :
    (∃ e, o = .failed e) ∨ s.frame.Collects t.frame (s.frame.nextRecord c.fork).toList
      (s.frame.nextDestruction c.fork).toList := by
  cases hnext : s.frame.nextInstruction c.fork with
  | none =>
    rw [(turn_ends h hnext).1, Frame.nextRecord, Frame.nextDestruction, hnext]
    exact .inr (.refl s.frame)
  | some i =>
    rw [Frame.nextRecord, Frame.nextDestruction, hnext]
    -- the charge before the instruction collects nothing
    have paid : Effect.Ensures (paidEffect c ancestors i) (fun _ t => s.frame.Collects t.frame
        (s.frame.recordOf i).toList (s.frame.destructionOf i).toList) (fun _ => True) s := by
      refine .bind (.charge (fun gas _ => ?_) trivial)
      refine (Effect.ofInstruction_ensures c ancestors i _).mono fun _ u hu => ?_
      have charged : s.frame.Collects { s.frame with gas } [] [] := .of_eq rfl rfl
      have same : ({ s.frame with gas } : Frame).recordOf i = s.frame.recordOf i := by
        cases i <;> rfl
      rw [← same]
      exact charged.trans hu
    -- a failure may have collected something, but its frame is at its end
    obtain ⟨flow, u, hcollected, hfollow⟩ | ⟨hfailed, -⟩ := turn_ensures h hnext paid
    · -- where the program goes on does not matter
      have moved : t.frame.logs = u.frame.logs ∧ t.frame.selfDestructs = u.frame.selfDestructs := by
        cases flow <;> cases hfollow <;> exact ⟨rfl, rfl⟩
      exact .inr ⟨moved.1 ▸ hcollected.logs, moved.2 ▸ hcollected.selfDestructs⟩
    · exact .inl hfailed

/-! ### Trails -/

namespace Machine

variable {c : Context} {m m' m'' last x : Machine L} {floor low : Nat} {ms ms' : List (Machine L)}

/-- Steps, with the machines that they are taken from. -/
inductive Trail (c : Context) (floor : Nat) : Machine L → List (Machine L) → Machine L → Prop where
  | refl (m : Machine L) : Trail c floor m [] m
  | tail {m m' m'' : Machine L} {ms : List (Machine L)} : Trail c floor m ms m' →
      m'.step c = .running m'' → floor ≤ m''.below.length → Trail c floor m (ms ++ [m']) m''

namespace Trail

/-- A trail leads over steps. -/
theorem steps (h : Trail c floor m ms m') : Steps c floor m m' := by
  induction h with
  | refl => exact .refl _
  | tail _ hstep hfloor ih => exact .tail ih hstep hfloor

/-- One trail goes on in another. -/
theorem trans (h : Trail c floor m ms m') (k : Trail c floor m' ms' m'') :
    Trail c floor m (ms ++ ms') m'' := by
  induction k with
  | refl => rwa [List.append_nil]
  | tail _ hstep hfloor ih =>
    rw [← List.append_assoc]
    exact .tail ih hstep hfloor

/-- Frames that stay above a higher floor stay above a lower one. -/
theorem weaken (h : Trail c floor m ms m') (hlow : low ≤ floor) : Trail c low m ms m' := by
  induction h with
  | refl => exact .refl _
  | tail _ hstep hfloor ih => exact .tail ih hstep (Nat.le_trans hlow hfloor)

/-- Each machine of a trail is reached, and leads on. -/
theorem steps_of_mem (h : Trail c floor m ms m') (hx : x ∈ ms) :
    Steps c floor m x ∧ Steps c floor x m' := by
  induction h with
  | refl => cases hx
  | tail htrail hstep hfloor ih =>
    rcases List.mem_append.1 hx with hx | hx
    · exact ⟨(ih hx).1, .tail (ih hx).2 hstep hfloor⟩
    · rw [List.mem_singleton.1 hx]
      exact ⟨htrail.steps, .tail (.refl _) hstep hfloor⟩

end Trail

/-! ### What a step leaves -/

/-- Whether a frame runs can be read off its phase. -/
instance (m : Machine L) : Decidable m.IsRunning := inferInstanceAs (Decidable (_ ∨ _))

/-- The record that the next step of the machine is to leave. -/
def nextRecord (c : Context) (m : Machine L) : Option Log :=
  if m.IsRunning then m.top.nextRecord c.fork else none

/-- The account that the next step of the machine is to destroy. -/
def nextDestruction (c : Context) (m : Machine L) : Option Address :=
  if m.IsRunning then m.top.nextDestruction c.fork else none

/-- A turn fails, or collects what its instruction leaves. -/
theorem turn_collects (hrun : m.IsRunning) {o : Outcome} {s : Local L} {t : Trace}
    (h : m.turn c = (o, s, t)) :
    (∃ e, o = .failed e) ∨
      m.top.Collects s.frame (m.nextRecord c).toList (m.nextDestruction c).toList := by
  rw [nextRecord, if_pos hrun, nextDestruction, if_pos hrun]
  exact (Local.turn_collects h).imp id fun h => ⟨h.logs, h.selfDestructs⟩

/-- The top frame has come to its end by an error. -/
def HasFailed (m : Machine L) : Prop := m.top.phase = .finalizing ∧ m.top.error.isSome = true

/-- A step of the top frame on its own. -/
theorem Stepped.collects (h : Stepped c m m') (hbelow : m'.below.length = m.below.length) :
    m'.HasFailed ∨
      m.top.Collects m'.top (m.nextRecord c).toList (m.nextDestruction c).toList := by
  -- a frame that is not running has no next instruction
  have idle (hrun : ¬ m.IsRunning) : m.nextRecord c = none ∧ m.nextDestruction c = none :=
    ⟨if_neg hrun, if_neg hrun⟩
  cases h with
  | prepares hphase =>
    obtain ⟨hrecord, hdestruction⟩ := idle (by rw [IsRunning, hphase]; decide)
    rw [hrecord, hdestruction]
    exact .inr (.of_eq (m.prepare_records c).2.1 (m.prepare_records c).2.2)
  | enters hphase =>
    obtain ⟨hrecord, hdestruction⟩ := idle (by rw [IsRunning, hphase]; decide)
    rw [hrecord, hdestruction]
    exact .inr (.of_eq (m.enter_records c).2.1 (m.enter_records c).2.2.1)
  | continues hrun hturn =>
    obtain ⟨_, hfailed⟩ | hcollects := turn_collects hrun hturn
    · cases hfailed
    · exact .inr hcollects
  | ends hrun hturn hends =>
    obtain ⟨e, rfl⟩ | hcollects := turn_collects hrun hturn
    · cases hends
      exact .inl ⟨rfl, rfl⟩
    · exact .inr ⟨hcollects.logs, hcollects.selfDestructs⟩
  -- the height is the same, so it neither spawns nor pops
  | spawns => exact absurd hbelow (Nat.succ_ne_self _)
  | pops _ hpop =>
    rw [hpop] at hbelow
    exact absurd hbelow.symm (Nat.succ_ne_self _)

/-- A step that puts a child on top of the frame. -/
theorem Stepped.collects_waiting (h : Stepped c m m')
    (hbelow : m'.below.length = m.below.length + 1) :
    m'.top.logs = #[] ∧ m'.top.selfDestructs = #[] ∧ ∃ waiting, m'.below = waiting :: m.below ∧
      m.top.Collects waiting (m.nextRecord c).toList (m.nextDestruction c).toList := by
  obtain ⟨message, k, s, t, hrun, hturn, rfl⟩ := h.exists_request hbelow
  obtain ⟨_, hfailed⟩ | hcollects := turn_collects hrun hturn
  · cases hfailed
  · exact ⟨rfl, rfl, _, rfl, hcollects.logs, hcollects.selfDestructs⟩

end Machine

end Evm
