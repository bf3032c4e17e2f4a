import Evm.Proofs.Machine.Results
import Evm.Proofs.Machine.Snapshots

namespace Evm

/-!
# Results are delivered

A frame that waits for a child takes its result in without fail, whatever the child has done since.
Of what the frame works with, only the memory that it has set aside for the output changes, the top
of its stack, and its return data.  Nor does any other write to memory fail.

* `Continuation.isCreate` — a frame waits for what it has asked for: a call, or a creation.
* `Frame.TakesIn` — a parent before and after it has taken in a result.
* `Machine.Visited.asked` — what the frame below the top one waits for.
* `Machine.Visited.oversteps` — where a range out of bounds comes from.
* `results_delivered` — both, over the course of an execution.
-/

/-! ### Requests -/

/-- The result is that of a creation. -/
def Continuation.isCreate : Continuation → Bool
  | .call _ _ => false
  | .create => true

/-- A child that is asked for creates a contract if its result is taken as that of a creation, and
    only then. -/
def Flow.IsMatched : Flow → Prop
  | .spawn message k => k.isCreate = message.isCreate
  | _ => True

variable {L : Type}

section Requests

variable [Ledger L]

namespace Effect.Gives

/-- A call waits as a call. -/
theorem matched_call (c : Context) (form : CallForm) :
    Gives (Effect.call c form : Effect L Flow) Flow.IsMatched := by
  refine after fun (requested, target) => ?_
  refine ite (after fun value => ?_) (after fun value => ?_)
  all_goals
    refine after fun (inOffset, inLen, outOffset, outLen) => ?_
    refine ite_after fun _ => after fun _ => after fun _ => after fun _ => ite_after fun _ => ?_
    refine after fun _ => ite_after fun _ => after fun gasLimit => after fun _ => ?_
    refine ite (after fun input => after fun f => pure ?_) (after fun _ => after fun _ => pure trivial)
    cases form <;> rfl

/-- A creation waits as a creation. -/
theorem matched_create (c : Context) (salted : Bool) :
    Gives (Effect.create c salted : Effect L Flow) Flow.IsMatched := by
  let Creates (kind : CallKind) : Prop := kind.isCreate = true
  refine after fun _ => after fun (value, offset, size) => ?_
  refine ite (bind (P := Creates) (after fun salt => pure rfl) fun kind hkind => ?_)
    (bind (P := Creates) (pure rfl) fun kind hkind => ?_)
  all_goals
    refine after fun _ => after fun _ => after fun _ => ite_after fun _ => after fun initCode => ?_
    refine after fun f => after fun l => after fun f' => after fun _ => after fun _ => ?_
    refine ite (after fun f'' => pure ?_) (after fun _ => after fun _ => pure trivial)
    exact hkind.symm

/-- What is asked for is what is waited for. -/
theorem matched (c : Context) (ancestors : List Frame) (i : Instruction) :
    Gives (Effect.ofInstruction c ancestors i : Effect L Flow) Flow.IsMatched := by
  cases hasks : i.asksForChild with
  | false =>
    refine (own c ancestors hasks).mono fun flow hown => ?_
    cases flow with
    | spawn message k => cases hown
    | next | jumped | halt => trivial
  | true =>
    cases i with
    | create | create2 => exact matched_create c _
    | call | callCode | delegateCall | staticCall => exact matched_call c _
    | _ => cases hasks

end Effect.Gives

/-- What a frame waits with matches the message that it sent. -/
theorem Local.turn_matched {c : Context} {ancestors : List Frame} {s t : Local L}
    {trace trace' : Trace} {message : Message} {k : Continuation}
    (h : s.turn c ancestors trace = (.waits message k, t, trace')) :
    k.isCreate = message.isCreate := by
  cases hnext : s.frame.nextInstruction c.fork with
  | none =>
    obtain ⟨-, hends | ⟨e, hends⟩⟩ := turn_ends h hnext
    · cases hends
    -- a frame that has come to its end does not wait
    · cases hends
  | some i =>
    have paid : Effect.Gives (paidEffect c ancestors i : Effect L Flow) Flow.IsMatched :=
      .after fun _ => .matched c ancestors i
    rcases turn_ensures h hnext (paid s) with ⟨flow, u, hflow, hfollow⟩ | ⟨⟨e, hfailed⟩, -⟩
    · cases flow with
      | spawn message' k' =>
        cases hfollow
        exact hflow
      | next | jumped | halt => cases hfollow
    · cases hfailed

end Requests

/-! ### Parents -/

/-- A frame that has waited for a child, and the frame that has taken its result in. -/
structure Frame.TakesIn (parent : Frame) (k : Continuation) (childGas : Meter)
    (r : ExecutionResult) (f : Frame) : Prop where
  /-- The result is delivered without a failure. -/
  delivered : ∃ g, ((parent.mergeChild childGas r).deliver r).run (parent.mergeChild childGas r) =
    .ok () g ∧ f = { g with phase := .resuming }
  /-- Besides, gas is given back, and the effects of a child that has succeeded are taken over. -/
  others : f = { parent.mergeChild childGas r with
    continuation := none, phase := .resuming
    memory := f.memory, stack := f.stack, returnData := f.returnData }
  memorySize : f.memory.size = parent.memory.size
  /-- Output of a call lies where it was asked for, as far as there is room and no further. -/
  memory (i : Nat) : f.memory.data[i]? =
    match k with
    | .call offset len =>
      if offset ≤ i ∧ i < offset + min len r.output.size then r.output[i - offset]?
      else parent.memory.data[i]?
    | .create => parent.memory.data[i]?
  stack : f.stack.limit = parent.stack.limit ∧ f.stack.items =
    (if k.isCreate then if r.isSuccess then r.createdAddress.elim 0 Address.toWord else 0
      else .ofBool r.isSuccess) :: parent.stack.items
  returnData : f.returnData = if k.isCreate && r.isSuccess then #[] else r.output

namespace Frame

variable {parent : Frame} {childGas : Meter} {r : ExecutionResult} {limit : Nat}

/-- A parent that goes on has taken the result in without a failure. -/
theorem delivered_of_resuming (h : (parent.resume childGas r).phase = .resuming) :
    ∃ g, ((parent.mergeChild childGas r).deliver r).run (parent.mergeChild childGas r) =
      .ok () g ∧ parent.resume childGas r = { g with phase := .resuming } := by
  unfold resume at h ⊢
  dsimp only at h ⊢
  cases hrun : ((parent.mergeChild childGas r).deliver r).run (parent.mergeChild childGas r) with
  | ok u g => exact ⟨g, rfl, rfl⟩
  | error e g =>
    rw [hrun] at h
    cases h

/-- A frame with room for a word and for the output takes in any result. -/
theorem takesIn_resume {k : Continuation} (hk : parent.continuation = some k)
    (hroom : parent.stack.size < parent.stack.limit) (hreach : k.reach ≤ parent.memory.size)
    (childGas : Meter) (r : ExecutionResult) :
    parent.TakesIn k childGas r (parent.resume childGas r) := by
  obtain ⟨hmemory, hstack, hsame⟩ := parent.mergeChild_workspace childGas r
  have hresume := parent.resume_eq childGas r
  dsimp only at hresume
  rw [hsame, hk] at hresume
  rw [← hstack] at hroom
  cases k with
  | call offset len =>
    dsimp only at hresume
    rw [← hmemory] at hreach
    obtain ⟨memory, hwrite, heq⟩ := afterCall_eq hroom hreach r
    have hsize : (r.output.extract 0 (min len r.output.size)).size = min len r.output.size := by
      rw [Array.size_extract]
      omega
    have hwritten := Memory.getElem?_of_write hwrite
    rw [hsize, hmemory] at hwritten
    rw [heq] at hresume
    have hdelivered := delivered_of_resuming (congrArg Frame.phase hresume)
    rw [hresume] at hdelivered ⊢
    -- what the window keeps below the resumed frame, and the word that it pushes
    refine ⟨hdelivered, rfl, ?_, fun i => ?_, ⟨?_, ?_⟩, rfl⟩
    · exact hmemory ▸ Memory.size_of_write hwrite
    · -- the output is longer, but what is copied is a part of it
      show memory.data[i]? = _
      rw [hwritten i]
      dsimp only
      split
      · rw [Array.getElem?_extract, if_pos (by omega), Nat.zero_add]
      · rfl
    · show (parent.mergeChild childGas r).stack.limit = _
      rw [hstack]
    · exact congrArg (fun stack => _ :: stack.items) hstack
  | create =>
    dsimp only at hresume
    rw [afterCreate_eq hroom r] at hresume
    have hdelivered := delivered_of_resuming (congrArg Frame.phase hresume)
    rw [hresume] at hdelivered ⊢
    refine ⟨hdelivered, rfl, ?_, fun i => ?_, ⟨?_, ?_⟩, ?_⟩
    · exact congrArg Memory.size hmemory
    · exact congrArg (fun m : Memory => m.data[i]?) hmemory
    · show (parent.mergeChild childGas r).stack.limit = _
      rw [hstack]
    · exact congrArg (fun stack => _ :: stack.items) hstack
    · rfl

/-- A frame that waits takes in any result. -/
theorem IsWaiting.takesIn (h : parent.IsWaiting limit) (childGas : Meter) (r : ExecutionResult) :
    ∃ k, parent.continuation = some k ∧ parent.TakesIn k childGas r (parent.resume childGas r) := by
  obtain ⟨k, hk, hfits⟩ := h.fits
  exact ⟨k, hk, takesIn_resume hk hfits.room hfits.reached childGas r⟩

end Frame

/-! ### What comes to a parent -/

section Results

variable [Ledger L]

/-- The output that a result carries: what RETURN in a call or REVERT has left in the frame, and
    nothing after a failure or a creation that succeeds. -/
theorem Local.finalize_output (c : Context) (isRoot : Bool) (s : Local L) :
    (s.finalize c isRoot).1.output =
      if (s.finalize c isRoot).1.status = .reverted ∨
          (s.finalize c isRoot).1.status = .success ∧ s.frame.message.isCreate = false
        then s.frame.output else #[] := by
  obtain ⟨t, hresult, hframe⟩ := s.finalize_result c isRoot
  obtain ⟨hsound, herror⟩ := s.finalize_isSound c isRoot
  cases hfinal : s.finalError c isRoot with
  | none =>
    obtain ⟨hnone, hdeposited⟩ := deposited_of_finalError hfinal
    rw [hresult, hfinal]
    show t.frame.output = _
    cases hcreate : s.frame.message.isCreate with
    | true =>
      rw [if_neg (by simp [conclude]), hframe]
      exact deposited_output hcreate hdeposited
    | false =>
      rw [if_pos (.inr ⟨rfl, rfl⟩), hframe, deposited, hnone]
      dsimp only
      rw [if_neg (Bool.eq_false_iff.1 hcreate)]
  | some e =>
    by_cases hrevert : e = .revert
    · -- the data that the code has asked to give back
      subst hrevert
      rw [hresult, hfinal]
      show t.frame.output = _
      rw [if_pos (.inl rfl), hframe, deposited, error_of_finalError hfinal id]
    · rw [hfinal] at herror
      -- an error other than a revert discards the output, whatever the code wrote
      have hsuccess : (s.finalize c isRoot).1.status ≠ .success := by
        rw [ne_eq, hsound.success, herror]
        exact Option.some_ne_none e
      have hreverted : (s.finalize c isRoot).1.status ≠ .reverted := by
        rw [ne_eq, hsound.reverted, herror, Option.some.injEq]
        exact hrevert
      rw [if_neg fun h => h.elim hreverted fun h => hsuccess h.1]
      refine hsound.silent (.inl ?_)
      cases hstatus : (s.finalize c isRoot).1.status with
      | success => exact absurd hstatus hsuccess
      | reverted => exact absurd hstatus hreverted
      | failed => rfl

/-- What is created is the account of the frame. -/
theorem Local.finalize_createdAddress (c : Context) (isRoot : Bool) (s : Local L)
    (hsuccess : (s.finalize c isRoot).1.isSuccess = true)
    (hcreate : s.frame.message.isCreate = true) :
    (s.finalize c isRoot).1.createdAddress = some s.frame.address := by
  obtain ⟨t, hresult, hframe⟩ := s.finalize_result c isRoot
  obtain ⟨gas, output, -, heq⟩ := s.deposited_frame c
  rw [hresult] at hsuccess ⊢
  rw [t.conclude_isSuccess, Option.isNone_iff_eq_none] at hsuccess
  rw [hsuccess]
  show (if t.frame.message.isCreate then some t.frame.address else none) = _
  rw [hframe, heq, if_pos hcreate]
  rfl

namespace Machine

variable {c : Context} {l : L} {message : Message} {observer : Observer} {m : Machine L}

/-- The frame below the top one has asked for it in its turn, and since then only the top one and
    its children have run. -/
theorem Visited.exists_request (h : Visited c l message observer m) {parent : Frame}
    {below : List Frame} (hbelow : m.below = parent :: below) :
    ∃ w child k s t, Visited c l message observer w ∧ w.turn c = (.waits child k, s, t) ∧
      parent = { s.frame with continuation := some k, phase := .suspended } ∧ below = w.below ∧
      Course c ((w.landed s t).spawn c child k) m := by
  obtain ⟨m₀, hvisited, hfresh, hcourse⟩ := h.exists_course
  have hsame := hcourse.below_eq
  rw [hbelow] at hsame
  rcases hvisited.first_or_asked hfresh.phase with rfl | ⟨w, child, k, s, t, hw, -, hturn, rfl⟩
  · cases hsame
  · obtain ⟨hparent, hrest⟩ := List.cons.inj hsame
    exact ⟨w, child, k, s, t, hw, hturn, hparent, hrest, hcourse⟩

/-- It waits for what it has asked for. -/
theorem Visited.asked (h : Visited c l message observer m) {parent : Frame} {below : List Frame}
    (hbelow : m.below = parent :: below) :
    ∃ k, parent.continuation = some k ∧ k.isCreate = m.top.message.isCreate := by
  obtain ⟨w, child, k, s, t, -, hturn, hparent, -, hcourse⟩ := h.exists_request hbelow
  refine ⟨k, by rw [hparent], ?_⟩
  rw [hcourse.message]
  exact Local.turn_matched hturn

/-- How the parent of the top frame takes in what that has come to. -/
structure Delivers (c : Context) (m : Machine L) (parent : Frame) (k : Continuation) (f : Frame) :
    Prop extends
    parent.TakesIn k (m.toLocal.finalize c m.isRoot).2.frame.gas (m.topResult c) f where
  asked : parent.continuation = some k ∧ k.isCreate = m.top.message.isCreate
  /-- What RETURN in a call or REVERT has given back, and nothing in all other cases. -/
  output : (m.topResult c).output =
    if (m.topResult c).status = .reverted ∨
        (m.topResult c).status = .success ∧ m.top.message.isCreate = false
      then m.top.output else #[]
  created : (m.topResult c).isSuccess = true → m.top.message.isCreate = true →
    (m.topResult c).createdAddress = some m.top.address

/-- Whatever the top frame has come to, its parent takes it in. -/
theorem Visited.delivers (h : Visited c l message observer m) {parent : Frame} {below : List Frame}
    (hbelow : m.below = parent :: below) :
    ∃ k, m.Delivers c parent k (m.handedTo c parent below).top := by
  obtain ⟨k, hk, hkind⟩ := h.asked hbelow
  have hwaits := (List.forall_mem_cons.1 (hbelow ▸ h.stacked.below)).1
  obtain ⟨k', hk', htakes⟩ := hwaits.takesIn (m.toLocal.finalize c m.isRoot).2.frame.gas
    (m.topResult c)
  obtain rfl : k' = k := Option.some.inj (hk'.symm.trans hk)
  exact ⟨k', {
    toTakesIn := htakes
    asked := ⟨hk, hkind⟩
    output := m.toLocal.finalize_output c m.isRoot
    created := m.toLocal.finalize_createdAddress c m.isRoot }⟩

/-! ### Ranges out of bounds -/

/-- A frame that ends before it runs has been barred. -/
theorem prepare_error (hphase : (m.prepare c).top.phase = .finalizing) :
    ∃ e, (m.prepare c).top.error = some e ∧ e.IsBar := by
  unfold prepare at hphase ⊢
  dsimp only at hphase ⊢
  cases hfailed : (m.toLocal.attempt (Effect.prepare c)).1 with
  | none =>
    rw [hfailed] at hphase
    cases hphase
  | some e => exact ⟨e, rfl, Local.attempt_prepare_error hfailed⟩

omit [Ledger L] in
/-- A frame that a precompiled contract answers for fails only with that. -/
theorem enter_error (hphase : (m.enter c).top.phase = .finalizing) {e : VmError}
    (herror : (m.enter c).top.error = some e) : ∃ cause, e = .precompileFailure cause := by
  unfold enter at hphase herror
  split at hphase
  · cases hphase
  · rename_i p hp
    rw [hp] at herror
    dsimp only at herror
    rw [Local.attempt_runPrecompile] at herror
    exact Frame.answered_error herror

/-- A range is out of bounds only where the top frame asks for more return data than there is. -/
theorem Visited.oversteps (h : Visited c l message observer m) (hphase : m.top.phase = .finalizing)
    {offset size : Nat} (herror : m.top.error = some (.outOfBounds offset size)) :
    ∃ w, Visited c l message observer w ∧ w.Executes c .returnDataCopy ∧
      w.top.Oversteps offset size ∧ w.step c = .running m := by
  cases h.steps with
  | refl => cases hphase
  | @tail w _ hsteps hstep _ =>
    have hvisited : Visited c l message observer w := ⟨h.depth, hsteps⟩
    cases step_cases hstep with
    | prepares _ =>
      obtain ⟨e, he, hbar⟩ := prepare_error hphase
      -- no bar and no precompile raises this cause
      rw [herror] at he
      cases he
      exact False.elim hbar
    | enters _ =>
      obtain ⟨cause, hcause⟩ := enter_error hphase herror
      cases hcause
    | continues _ hturn => exact absurd ((turn_phase hturn).symm.trans hphase) nofun
    | @ends o error s t hrun hturn hends =>
      cases hends with
      | halted => cases herror
      | failed e =>
        cases herror
        -- among the instructions it is the copy of the return data alone
        obtain hfault | ⟨hrevert, -⟩ | ⟨hnext, offset', size', he, hover⟩ := Local.turn_fails hturn
        · exact False.elim hfault
        · cases hrevert
        · cases he
          exact ⟨w, hvisited, ⟨hrun, hnext⟩, hover, hstep⟩
    | spawns _ _ => cases hphase
    -- a frame that is popped resumes its parent, which then does not finalize
    | pops _ hbelow =>
      have hresumes := hvisited.stacked.resumes hbelow
      exact absurd (hresumes.symm.trans hphase) nofun

end Machine

open Machine in
/-- Whenever a frame has come to its end in an execution, its parent, if it has one, takes in what
    comes of it.  If a range out of bounds has ended it, its last instruction has asked for more
    return data than there is. -/
theorem results_delivered {c : Context} {l : L} {message : Message} {observer : Observer}
    {m : Machine L} (h : Visited c l message observer m) (hphase : m.top.phase = .finalizing) :
    (∀ parent below, m.below = parent :: below →
      m.step c = .running (m.handedTo c parent below) ∧
        ∃ k, m.Delivers c parent k (m.handedTo c parent below).top) ∧
      ∀ offset size, (m.topResult c).error = some (.outOfBounds offset size) →
        ∃ w, Visited c l message observer w ∧ w.Executes c .returnDataCopy ∧
          w.top.Oversteps offset size ∧ w.step c = .running m := by
  constructor
  · intro parent below hbelow
    exact ⟨step_of_finalizing hphase hbelow, h.delivers hbelow⟩
  · intro offset size herror
    -- at its end a frame may be refused for other reasons, but not for this one
    have hfinal := (m.toLocal.finalize_isSound c m.isRoot).2.symm.trans herror
    exact h.oversteps hphase (Local.error_of_finalError hfinal id)

end Results

/-- A contract sets two bytes of memory aside and calls another one, which gives back 32: two of
    them come to lie there, and all of them are return data. -/
theorem results_delivered_across_call :
    let c : Context := { precompiles := .none }
    let l := SnapshotLedger.ofWorld (World.setCode (World.setCode {} 8
      #[0x60, 0xab, 0x60, 0, 0x53, 0x60, 32, 0x60, 0, 0xf3])
        7 #[0x60, 2, 0x60, 5, 0x60, 0, 0x60, 0, 0x60, 8, 0x61, 0xff, 0xff, 0xfa])
    let message := Message.call 1 7 0 #[] 200000
    let m := (Machine.launch c l message .off).after c 17
    let parent := m.below.headD m.top
    let f := (m.handedTo c parent []).top
    Machine.Visited c l message .off m ∧ m.top.phase = .finalizing ∧ m.below = [parent] ∧
      (∃ k, m.Delivers c parent k f) ∧ f.stack.items = [1] ∧
      f.memory.data.extract 4 8 = #[0, 0xab, 0, 0] ∧ f.returnData.size = 32 := by
  intro c l message m parent f
  have visited : Machine.Visited c l message .off m :=
    Machine.Visited.iff_after.2 ⟨Nat.zero_le _, 17, rfl⟩
  have ended : m.top.phase = .finalizing := by decide +kernel
  have alone : m.below = [parent] := by
    obtain ⟨waiting, hwaiting⟩ := List.length_eq_one_iff.1 (by decide +kernel : m.below.length = 1)
    show m.below = [m.below.headD m.top]
    rw [hwaiting]
    rfl
  have delivered := (results_delivered visited ended).1 parent [] alone
  exact ⟨visited, ended, alone, delivered.2, by decide +kernel, by decide +kernel,
    by decide +kernel⟩

end Evm
