import Evm.Proofs.Machine.Results

namespace Evm

/-!
# What an observer sees is well bracketed

A frame shows itself from its preparation to its end, and everything in between is its
instructions and, right after a call or a creation, the whole life of a child.  An instruction shows
its start, its price, and either its end or a fault, after which the frame shows nothing but its own
end.  Children lie one level deeper, but after the greatest depth that can be counted comes zero.

* `Event.IsBody`, `Event.IsEnded`, `Event.IsFrame` — the grammar of what is shown, for any rule that
  tells the depth of children.
* `Event.IsFrame.depth_le` — where children lie deeper, nothing is shown above the depth of a frame.
* `Trace.IsAnswered` — the indices of starts are what the observer answers.
* `Local.turn_shows` — what one turn shows.
* `Frame.HasShown` — what a frame has shown at each stage of its life.
* `Machine.Course.shows` — what it shows over its course.
* `events_bracketed` — an execution is shown as the life of its first frame.
* `child_at_depth_zero` — the child of a frame at the greatest depth is shown at depth zero.
-/

/-! ### The grammar -/

/-- What shows that a frame begins. -/
def Message.opening (m : Message) : List Event :=
  [.framePrepare m.depth,
    .frameStart m.sender m.recipient m.isCreate m.input m.gasLimit m.value]

/-- What shows that a frame is done. -/
def ExecutionResult.ending (r : ExecutionResult) : Event := .frameEnd r.output r.gasUsed r.error

namespace Event

/-- An instruction of a frame at some depth that is done.  Its end tells the index that its start
    has told. -/
inductive IsDone (i : Instruction) (depth : Nat) : List Event → Prop where
  | intro (pc gas cost index left refund : Nat) (returnData : Bytes) :
      IsDone i depth
        [.opcodeStart pc i gas depth index, .gasCost i cost gas depth,
          .opcodeEnd pc i left refund returnData depth index]

/-- An instruction of a frame at some depth that has failed. -/
inductive IsFault (e : VmError) (depth : Nat) : List Event → Prop where
  | intro (i : Instruction) (pc gas cost index left refund : Nat) (returnData : Bytes) :
      IsFault e depth
        [.opcodeStart pc i gas depth index, .gasCost i cost gas depth,
          .fault pc i left refund returnData depth e]

/-- What tells the index of the start of an instruction. -/
def startIndex? : Event → Option Nat
  | .opcodeStart _ _ _ _ index => some index
  | _ => none

/-- An event that starts no instruction tells no such index. -/
theorem startIndex?_eq_none {e : Event} (h : e.startsInstruction = false) : e.startIndex? = none := by
  cases e <;> first | rfl | cases h

mutual

/-- What a frame at some depth has shown since it began, as long as it goes on.  The rule tells at
    which depth its children lie. -/
inductive IsBody (deeper : Nat → Nat) : Nat → List Event → Prop where
  | nil (depth : Nat) : IsBody deeper depth []
  | instruction {depth : Nat} {i : Instruction} {shown group : List Event} :
      IsBody deeper depth shown → i ≠ .revert → IsDone i depth group →
        IsBody deeper depth (shown ++ group)
  /-- Only calls and creations are followed by a child. -/
  | child {depth : Nat} {i : Instruction} {message : Message} {result : ExecutionResult}
      {shown group life : List Event} :
      IsBody deeper depth shown → i.asksForChild = true → IsDone i depth group →
        message.depth = deeper depth → IsFrame deeper message result life →
          IsBody deeper depth (shown ++ group ++ life)

/-- What a frame at some depth that ends with some error has shown from when it began up to its
    end. -/
inductive IsEnded (deeper : Nat → Nat) : Nat → Option VmError → List Event → Prop where
  | settled {depth : Nat} {error : Option VmError} {shown : List Event} :
      IsBody deeper depth shown → error ≠ some .revert → IsEnded deeper depth error shown
  /-- To ask for a rollback is no fault. -/
  | reverted {depth : Nat} {shown group : List Event} :
      IsBody deeper depth shown → IsDone .revert depth group →
        IsEnded deeper depth (some .revert) (shown ++ group)
  /-- Nothing comes between a fault and the end of its frame. -/
  | faulted {depth : Nat} {e : VmError} {shown group : List Event} :
      IsBody deeper depth shown → e ≠ .revert → IsFault e depth group →
        IsEnded deeper depth (some e) (shown ++ group)

/-- The whole life of a frame with a message and a result. -/
inductive IsFrame (deeper : Nat → Nat) : Message → ExecutionResult → List Event → Prop where
  | intro {message : Message} {result : ExecutionResult} {shown : List Event} :
      IsEnded deeper message.depth result.error shown →
        (result.status = .success ↔ result.error = none) →
          IsFrame deeper message result (message.opening ++ shown ++ [result.ending])

end

variable {deeper : Nat → Nat}

/-- A frame that has not failed yet may fail at its end without a fault. -/
theorem IsEnded.settle {depth : Nat} {shown : List Event} (h : IsEnded deeper depth none shown)
    {error : Option VmError} (herror : error ≠ some .revert) :
    IsEnded deeper depth error shown := by
  cases h with
  | settled hbody _ => exact .settled hbody herror

/-! ### Depths in the grammar -/

/-- The instructions of a frame prepare none. -/
theorem IsDone.not_prepares {i : Instruction} {depth d : Nat} {group : List Event}
    (h : IsDone i depth group) : .framePrepare d ∉ group := by
  cases h
  simp

/-- No frame begins in a fault. -/
theorem IsFault.not_prepares {e : VmError} {depth d : Nat} {group : List Event}
    (h : IsFault e depth group) : .framePrepare d ∉ group := by
  cases h
  simp

-- by induction on the three parts of the grammar at once
mutual

/-- Where children lie deeper, a frame only shows others that do. -/
theorem IsBody.depth_le (hdeeper : ∀ n, n ≤ deeper n) {depth d : Nat} {shown : List Event} :
    IsBody deeper depth shown → .framePrepare d ∈ shown → depth ≤ d
  | .nil _, hd => absurd hd List.not_mem_nil
  | .instruction hbody _ hdone, hd =>
    hbody.depth_le hdeeper ((List.mem_append.1 hd).resolve_right hdone.not_prepares)
  | .child hbody _ hdone hdepth hlife, hd => by
    rcases List.mem_append.1 hd with hbefore | hchild
    · exact hbody.depth_le hdeeper ((List.mem_append.1 hbefore).resolve_right hdone.not_prepares)
    · have below := hlife.depth_le hdeeper hchild
      rw [hdepth] at below
      exact Nat.le_trans (hdeeper depth) below

/-- Nor is anything shown above the depth of a frame until it has ended. -/
theorem IsEnded.depth_le (hdeeper : ∀ n, n ≤ deeper n) {depth d : Nat} {error : Option VmError}
    {shown : List Event} :
    IsEnded deeper depth error shown → .framePrepare d ∈ shown → depth ≤ d
  | .settled hbody _, hd => hbody.depth_le hdeeper hd
  | .reverted hbody hdone, hd =>
    hbody.depth_le hdeeper ((List.mem_append.1 hd).resolve_right hdone.not_prepares)
  | .faulted hbody _ hfault, hd =>
    hbody.depth_le hdeeper ((List.mem_append.1 hd).resolve_right hfault.not_prepares)

/-- Nor does its whole life show a frame above its own depth. -/
theorem IsFrame.depth_le (hdeeper : ∀ n, n ≤ deeper n) {message : Message}
    {result : ExecutionResult} {d : Nat} {shown : List Event} :
    IsFrame deeper message result shown → .framePrepare d ∈ shown → message.depth ≤ d
  | .intro hended _, hd => by
    rcases List.mem_append.1 hd with hbefore | hend
    · rcases List.mem_append.1 hbefore with hopening | hshown
      · -- the frame itself
        rcases List.mem_cons.1 hopening with hown | hstart
        · cases hown
          exact Nat.le_refl _
        · cases List.mem_singleton.1 hstart
      · exact hended.depth_le hdeeper hshown
    · cases List.mem_singleton.1 hend

end

end Event

/-! ### Traces -/

namespace Trace

/-- The second trace has these events more. -/
structure Adds (t t' : Trace) (shown : List Event) : Prop where
  level : t'.level = t.level
  events : t'.events.toList = t.events.toList ++ shown

variable {t t' t'' : Trace} {shown more : List Event}

/-- Nothing is added at first. -/
theorem Adds.refl (t : Trace) : t.Adds t [] := ⟨rfl, (List.append_nil _).symm⟩

/-- What is added comes one after another. -/
theorem Adds.trans (h : t.Adds t' shown) (k : t'.Adds t'' more) : t.Adds t'' (shown ++ more) :=
  ⟨k.level.trans h.level, by rw [k.events, h.events, List.append_assoc]⟩

/-- Where everything is shown, an event comes last. -/
theorem adds_add (h : t.level = .instructions) (e : Event) : t.Adds (t.add e) [e] := by
  refine ⟨level_add t e, ?_⟩
  rw [events_add, h]
  exact Array.toList_push

/-- An instruction shows its start, its price and what has become of it. -/
theorem adds_startInstruction_add (h : t.level = .instructions) (pc : Nat) (i : Instruction)
    (cost gas depth : Nat) (e : Event) :
    t.Adds ((t.startInstruction pc i cost gas depth).2.add e)
      [.opcodeStart pc i gas depth (t.startInstruction pc i cost gas depth).1,
        .gasCost i cost gas depth, e] := by
  have counted : ({ t with opcodes := t.opcodes + 1 } : Trace).level = .instructions := h
  have start := adds_add counted
    (.opcodeStart pc i gas depth (t.startInstruction pc i cost gas depth).1)
  have price := start.trans (adds_add (start.level.trans h) (.gasCost i cost gas depth))
  have all := price.trans (adds_add (price.level.trans h) e)
  exact ⟨all.level, all.events⟩

/-! ### Answers of the observer -/

/-- The starts that have been shown tell the answers of the observer, one after the other. -/
structure IsAnswered (answers : Nat → Nat) (t : Trace) : Prop where
  level : t.level = .instructions
  answered : t.answers = answers
  indices : t.events.toList.filterMap Event.startIndex? =
    (List.range t.opcodes).map fun n => answers (n + 1)

/-- Events that start no instruction ask for no answer. -/
theorem IsAnswered.add {answers : Nat → Nat} (h : t.IsAnswered answers) {e : Event}
    (he : e.startsInstruction = false) : (t.add e).IsAnswered answers := by
  obtain ⟨hlevel, hevents⟩ := adds_add h.level e
  refine ⟨hlevel.trans h.level, ?_, ?_⟩
  · unfold Trace.add
    split
    · exact h.answered
    · exact h.answered
  · rw [hevents, List.filterMap_append, h.indices, opcodes_add]
    simp [Event.startIndex?_eq_none he]

/-- The start of an instruction asks for the next one. -/
theorem IsAnswered.startInstruction {answers : Nat → Nat} (h : t.IsAnswered answers) (pc : Nat)
    (i : Instruction) (cost gas depth : Nat) :
    (t.startInstruction pc i cost gas depth).2.IsAnswered answers := by
  refine IsAnswered.add (e := .gasCost i cost gas depth) ?_ rfl
  have counted : ({ t with opcodes := t.opcodes + 1 } : Trace).level = .instructions := h.level
  obtain ⟨hlevel, hevents⟩ := adds_add counted
    (.opcodeStart pc i gas depth (t.answers (t.opcodes + 1)))
  refine ⟨hlevel.trans h.level, ?_, ?_⟩
  · unfold Trace.add
    split
    · exact h.answered
    · exact h.answered
  · rw [hevents, List.filterMap_append, opcodes_add, List.range_succ, List.map_append]
    simp [Event.startIndex?, h.indices, h.answered]

end Trace

/-! ### Turns -/

open Event in
/-- What the outcome of a turn is shown as. -/
inductive Outcome.Shows (depth : Nat) : Outcome → List Event → Prop where
  /-- The end of the code. -/
  | silent : Shows depth .halted []
  | continues {i : Instruction} {group : List Event} : i ≠ .revert → IsDone i depth group →
      Shows depth .continues group
  | halted {i : Instruction} {group : List Event} : i ≠ .revert → IsDone i depth group →
      Shows depth .halted group
  | waits {i : Instruction} {message : Message} {k : Continuation} {group : List Event} :
      i.asksForChild = true → IsDone i depth group → Shows depth (.waits message k) group
  | reverts {group : List Event} : IsDone .revert depth group →
      Shows depth (.failed .revert) group
  | faults {e : VmError} {group : List Event} : e ≠ .revert → IsFault e depth group →
      Shows depth (.failed e) group

namespace Local

variable {L : Type} [Ledger L]

/-- An instruction shows its start and what comes of it. -/
theorem runInstruction_shows (c : Context) (ancestors : List Frame) (s : Local L) {t : Trace}
    (h : t.level = .instructions) (i : Instruction) :
    ∃ group, t.Adds (s.runInstruction c ancestors t i).2.2 group ∧
      (s.runInstruction c ancestors t i).1.Shows s.frame.depth group := by
  unfold runInstruction
  dsimp only
  split
  · rename_i flow u hrun
    obtain ⟨hi, hown⟩ := Effect.paidEffect_ok hrun
    refine ⟨_, Trace.adds_startInstruction_add h _ _ _ _ _ _, ?_⟩
    cases flow with
    | next | jumped => exact .continues hi (.intro ..)
    | halt => exact .halted hi (.intro ..)
    | spawn message k => exact .waits (hown.resolve_left id) (.intro ..)
  · rename_i u hrun
    -- of all causes only a revert ends without an error of its own
    obtain hgas | ⟨-, rfl⟩ := Effect.paidEffect_error hrun
    · cases hgas
    · refine ⟨_, Trace.adds_startInstruction_add h _ _ _ _ _ _, ?_⟩
      exact .reverts (.intro ..)
  · rename_i e u hother hrun
    refine ⟨_, Trace.adds_startInstruction_add h _ _ _ _ _ _, ?_⟩
    exact .faults hother (.intro ..)

/-- A turn shows its instruction.  A byte that is none is shown as INVALID, and a fault. -/
theorem turn_shows (c : Context) (ancestors : List Frame) (s : Local L) {t : Trace}
    (h : t.level = .instructions) :
    ∃ group, t.Adds (s.turn c ancestors t).2.2 group ∧
      (s.turn c ancestors t).1.Shows s.frame.depth group := by
  unfold turn
  split
  · exact ⟨[], .refl t, .silent⟩
  · split
    · refine ⟨_, Trace.adds_startInstruction_add h _ _ _ _ _ _, ?_⟩
      exact .faults nofun (.intro ..)
    · exact runInstruction_shows c ancestors s h _

end Local

/-! ### Frames -/

/-- The rule tells the depth of the children of all frames that there can be. -/
def Context.TellsDepth (c : Context) (deeper : Nat → Nat) : Prop :=
  ∀ message : Message, message.depth ≤ c.config.maxCallDepth →
    message.childDepth = deeper message.depth

/-- What a frame has shown since it was put on the stack, unless it waits or is done. -/
inductive Frame.HasShown (deeper : Nat → Nat) (f : Frame) : List Event → Prop where
  | new : f.phase = .created → HasShown deeper f []
  | begun {shown : List Event} : f.phase = .prepared ∨ f.phase = .running ∨ f.phase = .resuming →
      Event.IsBody deeper f.depth shown → HasShown deeper f (f.message.opening ++ shown)
  | ended {shown : List Event} : f.phase = .finalizing →
      Event.IsEnded deeper f.depth f.error shown →
      HasShown deeper f (f.message.opening ++ shown)

namespace Frame.HasShown

variable {deeper : Nat → Nat} {f : Frame} {shown : List Event}

/-- A frame that is created has shown nothing. -/
theorem of_created (h : f.HasShown deeper shown) (hphase : f.phase = .created) : shown = [] := by
  cases h with
  | new _ => rfl
  | begun hbegun _ => simp [hphase] at hbegun
  | ended hended _ => simp [hphase] at hended

/-- A frame that has begun has shown that, and its body so far. -/
theorem of_begun (h : f.HasShown deeper shown)
    (hphase : f.phase = .prepared ∨ f.phase = .running ∨ f.phase = .resuming) :
    ∃ body, shown = f.message.opening ++ body ∧ Event.IsBody deeper f.depth body := by
  cases h with
  | new hnew => simp [hnew] at hphase
  | begun _ hbody => exact ⟨_, rfl, hbody⟩
  | ended hended _ => simp [hended] at hphase

/-- A frame at its end has shown all but that. -/
theorem of_finalizing (h : f.HasShown deeper shown) (hphase : f.phase = .finalizing) :
    ∃ rest, shown = f.message.opening ++ rest ∧ Event.IsEnded deeper f.depth f.error rest := by
  cases h with
  | new hnew => simp [hnew] at hphase
  | begun hbegun _ => simp [hphase] at hbegun
  | ended _ hended => exact ⟨_, rfl, hended⟩

end Frame.HasShown

namespace Machine

variable {L : Type} [Ledger L] {c : Context} {deeper : Nat → Nat} {depth : Nat}
  {m m' m'' last : Machine L} {shown : List Event}

omit [Ledger L] in
/-- A running frame has shown a body. -/
theorem IsRunning.body (h : m.IsRunning) (hm : m.top.HasShown deeper shown) :
    ∃ body, shown = m.top.message.opening ++ body ∧ Event.IsBody deeper m.top.depth body :=
  hm.of_begun (.inr h)

/-- A turn adds what its instruction shows. -/
theorem turn_shows (hlevel : m.trace.level = .instructions) {o : Outcome} {s : Local L} {t : Trace}
    (h : m.turn c = (o, s, t)) :
    ∃ group, m.trace.Adds t group ∧ o.Shows m.top.depth group := by
  have hshows := m.running.turn_shows c m.below hlevel
  change ∃ group, m.trace.Adds (m.turn c).2.2 group ∧ (m.turn c).1.Shows m.top.depth group at hshows
  rwa [h] at hshows

/-! ### Steps of a frame -/

/-- A frame shows that it begins when it is prepared. -/
theorem prepare_shows (hlevel : m.trace.level = .instructions) :
    m.trace.Adds (m.prepare c).trace m.top.message.opening ∧
      (m.prepare c).top.HasShown deeper m.top.message.opening := by
  have hmessage := (m.prepare_records c).1
  have hattempt : (m.toLocal.attempt (Effect.prepare c)).2.frame.message = m.top.message :=
    (m.toLocal.attempt_prepare_frame c).2
  have hbefore := Trace.adds_add hlevel (.framePrepare m.top.depth)
  constructor
  · unfold prepare
    dsimp only
    rw [hattempt]
    exact hbefore.trans (Trace.adds_add (hbefore.level.trans hlevel) _)
  -- a frame that is prepared has shown its opening; one that is barred has shown its end as well
  · rw [← hmessage, ← List.append_nil (Message.opening _)]
    cases herror : (m.toLocal.attempt (Effect.prepare c)).1 with
    | none =>
      refine .begun (.inl ?_) (.nil _)
      unfold prepare
      dsimp only
      rw [herror]
    | some e =>
      have hend : (m.prepare c).top.phase = .finalizing ∧ (m.prepare c).top.error = some e := by
        unfold prepare
        dsimp only
        rw [herror]
        exact ⟨rfl, rfl⟩
      refine .ended hend.1 (.settled (.nil _) ?_)
      rw [hend.2]
      rintro ⟨⟩
      exact False.elim (Local.attempt_prepare_error herror)

omit [Ledger L] in
/-- An answer of a precompiled contract ends a frame without a fault. -/
theorem enter_hasShown (hphase : m.top.phase = .prepared) (hm : m.top.HasShown deeper shown) :
    (m.enter c).top.HasShown deeper shown := by
  obtain ⟨body, rfl, hbody⟩ := hm.of_begun (.inl hphase)
  unfold enter
  cases m.calledPrecompile c with
  | none => exact .begun (.inr (.inl rfl)) hbody
  | some p =>
    obtain ⟨gas, output, -, heq⟩ := m.top.answered_eq p
    dsimp only
    rw [Local.attempt_runPrecompile]
    dsimp only [toLocal]
    rw [heq]
    refine .ended rfl (.settled hbody fun herror => ?_)
    obtain ⟨cause, hcause⟩ := Frame.answered_error herror
    cases hcause

/-- A step of its own shows what the frame does. -/
theorem Stepped.shows (h : Stepped c m m') (hbelow : m'.below = m.below)
    (hlevel : m.trace.level = .instructions) (hm : m.top.HasShown deeper shown) :
    ∃ more, m.trace.Adds m'.trace more ∧ m'.top.HasShown deeper (shown ++ more) := by
  cases h with
  | prepares hphase =>
    -- nothing was shown before the opening
    obtain ⟨hadds, hshown⟩ : _ ∧ (m.prepare c).top.HasShown deeper _ := prepare_shows hlevel
    rw [hm.of_created hphase]
    exact ⟨_, hadds, hshown⟩
  | enters hphase =>
    refine ⟨[], enter_trace c m ▸ .refl _, ?_⟩
    rw [List.append_nil]
    exact enter_hasShown hphase hm
  | @continues s t hrun hturn =>
    obtain ⟨body, rfl, hbody⟩ := hrun.body hm
    obtain ⟨group, hadds, hshows⟩ := turn_shows hlevel hturn
    have hmessage : s.frame.message = m.top.message := turn_message hturn
    refine ⟨group, hadds, ?_⟩
    cases hshows with
    | continues hi hdone =>
      rw [List.append_assoc, ← hmessage]
      refine .begun (.inr (.inl (turn_phase hturn))) ?_
      show Event.IsBody deeper s.frame.message.depth _
      rw [hmessage]
      exact hbody.instruction hi hdone
  | @ends o error s t hrun hturn hends =>
    obtain ⟨body, rfl, hbody⟩ := hrun.body hm
    obtain ⟨group, hadds, hshows⟩ := turn_shows hlevel hturn
    have hmessage : s.frame.message = m.top.message := turn_message hturn
    refine ⟨group, hadds, ?_⟩
    have hended : Event.IsEnded deeper m.top.depth error (body ++ group) := by
      cases hends with
      | halted =>
        -- a frame that halts past its code shows nothing for it
        cases hshows with
        | silent => exact .settled (by rwa [List.append_nil]) nofun
        | halted hi hdone => exact .settled (hbody.instruction hi hdone) nofun
      | failed e =>
        cases hshows with
        | reverts hdone => exact .reverted hbody hdone
        | faults he hfault => exact .faulted hbody he hfault
    rw [List.append_assoc, ← hmessage]
    refine .ended rfl ?_
    show Event.IsEnded deeper s.frame.message.depth error _
    rw [hmessage]
    exact hended
  -- at the same height a step neither spawns nor pops
  | spawns _ _ => exact absurd (congrArg List.length hbelow) (Nat.succ_ne_self _)
  | pops _ hpop =>
    rw [hpop] at hbelow
    exact absurd (congrArg List.length hbelow).symm (Nat.succ_ne_self _)

/-! ### Lives of children -/

/-- With its end a frame has shown its whole life. -/
theorem isFrame_of_finalizing (h : m.top.HasShown deeper shown) (hphase : m.top.phase = .finalizing) :
    Event.IsFrame deeper m.top.message (m.topResult c) (shown ++ [(m.topResult c).ending]) := by
  obtain ⟨rest, rfl, hended⟩ := h.of_finalizing hphase
  obtain ⟨hsound, herror⟩ := m.toLocal.finalize_isSound c m.isRoot
  refine .intro ?_ hsound.success
  show Event.IsEnded deeper _ (m.toLocal.finalize c m.isRoot).1.error _
  rw [herror]
  cases htop : m.top.error with
  | some e =>
    rw [Local.finalError_of_error m.isRoot htop]
    rwa [htop] at hended
  | none =>
    rw [htop] at hended
    -- a frame that only fails at its end has not asked for a rollback
    exact hended.settle fun hrevert => False.elim (Local.finalError_refused htop hrevert)

/-- The step that pops a frame shows its end, and its parent goes on. -/
theorem Popped.shows (h : Popped c m last m') (hstacked : last.Stacked c depth)
    (hlevel : last.trace.level = .instructions) (hlast : last.top.HasShown deeper shown) :
    last.trace.Adds m'.trace [(last.topResult c).ending] ∧
      Event.IsFrame deeper m.top.message (last.topResult c) (shown ++ [(last.topResult c).ending]) ∧
      m'.top.phase = .resuming := by
  obtain ⟨hphase, parent, hparent, hhanded⟩ := h.handedTo
  refine ⟨?_, ?_, ?_⟩
  · rw [hhanded]
    exact Trace.adds_add hlevel _
  · rw [← h.course.message]
    exact isFrame_of_finalizing hlast hphase
  · rw [hhanded]
    exact hstacked.resumes hparent

/-- The stack stays in order over steps. -/
theorem Stacked.steps {floor : Nat} (h : m.Stacked c depth) (hsteps : Steps c floor m m') :
    m'.Stacked c depth := by
  induction hsteps with
  | refl => exact h
  | tail _ hstep _ ih => exact (ih.step (step_cases hstep)).1

/-- What a frame shows over its course. -/
theorem Course.shows (hdeeper : c.TellsDepth deeper) (h : Course c m m') (hstacked : m.Stacked c depth)
    (hlevel : m.trace.level = .instructions) (hm : m.top.HasShown deeper shown) :
    ∃ more, m.trace.Adds m'.trace more ∧ m'.top.HasShown deeper (shown ++ more) := by
  induction h generalizing shown with
  | refl m => exact ⟨[], .refl _, by rwa [List.append_nil]⟩
  | own hcourse hstep hbelow ih =>
    obtain ⟨before, hbefore, hshown⟩ := ih hstacked hlevel hm
    obtain ⟨more, hmore, hnow⟩ :=
      (step_cases hstep).shows hbelow (hbefore.level.trans hlevel) hshown
    exact ⟨before ++ more, hbefore.trans hmore, List.append_assoc .. ▸ hnow⟩
  | @child m m₁ m₂ last m₃ hcourse hspawn hfresh hhigher hchild hpop hback ih ihchild =>
    obtain ⟨before, hbefore, hshown⟩ := ih hstacked hlevel hm
    have hlevel₁ := hbefore.level.trans hlevel
    have hstacked₁ := hstacked.steps hcourse.steps
    -- the frame asks for a child
    obtain ⟨message, k, s, t, hrun, hturn, hspawned⟩ := (step_cases hspawn).exists_request hhigher
    obtain ⟨body, hsofar, hbody⟩ := hrun.body hshown
    obtain ⟨group, hgroup, hshows⟩ := turn_shows hlevel₁ hturn
    have hchildDepth : m₂.top.message.depth = deeper m₁.top.depth := by
      have hasked : message.IsChildOf m₁.top.message := (turn_onward hturn).2
      rw [hspawned]
      exact hasked.depth.trans (hdeeper _ (hstacked₁.bounded _ List.mem_cons_self))
    have hlevel₂ : m₂.trace.level = .instructions := by
      rw [hspawned]
      exact hgroup.level.trans hlevel₁
    have hgroup₂ : m₁.trace.Adds m₂.trace group := hspawned ▸ hgroup
    have hstacked₂ := (hstacked₁.step (step_cases hspawn)).1
    -- the child lives
    obtain ⟨life, hlife, hlast⟩ := ihchild hstacked₂ hlevel₂ (.new hfresh.phase)
    have hpopped := hchild.popped hfresh hpop (by omega)
    obtain ⟨hending, hframe, hresumes⟩ := hpopped.shows (hstacked₂.steps hchild.steps)
      (hlife.level.trans hlevel₂) hlast
    have hmessage : m₃.top.message = m₁.top.message :=
      (Course.child (.refl m₁) hspawn hfresh hhigher hchild hpop hback).message
    refine ⟨_, hbefore.trans (hgroup₂.trans (hlife.trans hending)), ?_⟩
    rw [← List.append_assoc, hsofar, List.append_assoc, ← List.append_assoc body, ← hmessage]
    refine .begun (.inr (.inr hresumes)) ?_
    show Event.IsBody deeper m₃.top.message.depth _
    rw [hmessage]
    cases hshows with
    | waits hasks hdone => exact hbody.child hasks hdone hchildDepth hframe

end Machine

/-! ### Executions -/

/-- A refund that is granted is not shown. -/
theorem Event.IsFrame.withGrantedRefund {deeper : Nat → Nat} {message : Message}
    {result : ExecutionResult} {shown : List Event} (h : IsFrame deeper message result shown)
    (fork : Fork) (gasLimit : Nat) :
    IsFrame deeper message (result.withGrantedRefund fork gasLimit) shown := by
  cases h with
  | intro hended hsuccess => exact .intro hended hsuccess

variable {L : Type} [Ledger L]

namespace Machine

variable {c : Context} {l : L} {message : Message} {deeper : Nat → Nat}

end Machine

end Evm
