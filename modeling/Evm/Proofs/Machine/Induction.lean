import Evm.Proofs.Machine.Success

namespace Evm

/-!
# Induction along a course

What holds of a frame often holds of all that it puts on top of itself, and what a frame does is
what its own steps and the lives of its children do.  So it is enough to look at single steps and at
the ends of children.

* `Machine.Lasting` — a property of frames that they keep and hand on to their children.
* `Machine.Steps.lasts`, `Machine.Visited.lasts_everywhere` — all that runs on top of such a frame
  has the property.
* `Machine.Tracks` — a relation between machines that holds across single steps and ends of
  children.
* `Machine.Steps.tracks` — it holds across all that runs on top of a frame.
-/

namespace Machine

variable {L : Type} [Ledger L] {c : Context} {m m' last x : Machine L}

/-! ### Properties of frames -/

/-- A property that frames keep and hand on to their children. -/
structure Lasting (L : Type) [Ledger L] (c : Context) (P : Frame → Prop) : Prop where
  prepare {m : Machine L} : m.top.phase = .created → P m.top → P (m.prepare c).top
  enter {m : Machine L} : P m.top → P (m.enter c).top
  turn {m : Machine L} {o : Outcome} {s : Local L} {t : Trace} :
    m.turn c = (o, s, t) → P m.top → P s.frame
  finish {f : Frame} (error : Option VmError) : P f → P (f.finish error)
  suspend {f : Frame} (k : Continuation) :
    P f → P { f with continuation := some k, phase := .suspended }
  child {m : Machine L} {message : Message} {k : Continuation} {s : Local L} {t : Trace} :
    m.turn c = (.waits message k, s, t) → P m.top →
      ∀ refund, P (.ofMessage message refund c.config.stackLimit)
  resume {m : Machine L} {parent : Frame} {below : List Frame} :
    P m.top → P parent → P (m.handedTo c parent below).top

namespace Lasting

variable {P : Frame → Prop}

/-- The top frame takes a step of its own. -/
theorem own (hP : Lasting L c P) (h : Stepped c m m') (hbelow : m'.below = m.below)
    (hm : P m.top) : P m'.top := by
  cases h with
  | prepares hphase => exact hP.prepare hphase hm
  | enters _ => exact hP.enter hm
  | continues _ hturn => exact hP.turn hturn hm
  | ends _ hturn _ => exact hP.finish _ (hP.turn hturn hm)
  | spawns _ _ => exact absurd (congrArg List.length hbelow) (Nat.succ_ne_self _)
  | pops _ hpop =>
    rw [hpop] at hbelow
    exact absurd (congrArg List.length hbelow).symm (Nat.succ_ne_self _)

/-- The top frame puts a child on top of itself. -/
theorem spawn (hP : Lasting L c P) (h : Stepped c m m')
    (hhigher : m'.below.length = m.below.length + 1) (hm : P m.top) :
    P m'.top ∧ ∃ waiting, m'.below = waiting :: m.below ∧ P waiting := by
  obtain ⟨message, k, s, t, -, hturn, rfl⟩ := h.exists_request hhigher
  exact ⟨hP.child hturn hm _, _, rfl, hP.suspend _ (hP.turn hturn hm)⟩

/-- Over the course of a frame that has the property, it keeps it. -/
theorem course (hP : Lasting L c P) (h : Course c m m') (hm : P m.top) : P m'.top := by
  induction h with
  | refl => exact hm
  | own _ hstep hbelow ih => exact hP.own (step_cases hstep) hbelow (ih hm)
  | child hcourse hspawn hfresh hhigher hchild hpop hback ih ihchild =>
    obtain ⟨hnew, waiting, hwaiting, hkept⟩ := hP.spawn (step_cases hspawn) hhigher (ih hm)
    -- the frame that the child is popped from is the one that waits for it
    obtain ⟨-, parent, hparent, hhanded⟩ := (hchild.popped hfresh hpop (by omega)).handedTo
    rw [hchild.below_eq, hwaiting] at hparent
    rw [hhanded, ← (List.cons.inj hparent).1]
    exact hP.resume (ihchild hnew) hkept

end Lasting

/-- As long as a frame that has the property stays on the stack, so does all that runs on top of
    it. -/
theorem Steps.lasts {P : Frame → Prop} (hP : Lasting L c P) (h : Steps c m.below.length m x)
    (hm : P m.top) : P x.top := by
  have hnested := h.nested
  clear h
  induction hnested with
  | here hcourse => exact hP.course hcourse hm
  | under hcourse hspawn _ hhigher _ ih =>
    exact ih (hP.spawn (step_cases hspawn) hhigher (hP.course hcourse hm)).1

/-- If the first frame has the property, all frames of an execution have it. -/
theorem Visited.lasts_everywhere {P : Frame → Prop} {l : L} {message : Message}
    {observer : Observer} (hP : Lasting L c P) (h : Visited c l message observer m)
    (hlaunch : P (launch c l message observer).top) : ∀ f ∈ m.top :: m.below, P f := by
  refine h.invariant (I := fun m => ∀ f ∈ m.top :: m.below, P f) ?_ fun m m' hm hstep => ?_
  · exact List.forall_mem_singleton.2 hlaunch
  · obtain ⟨htop, hbelow⟩ := List.forall_mem_cons.1 hm
    refine List.forall_mem_cons.2 ?_
    -- every step changes the top, and the frames below only where one comes or goes
    cases hstep with
    | prepares hphase => exact ⟨hP.prepare hphase htop, hbelow⟩
    | enters _ =>
      rw [enter_below]
      exact ⟨hP.enter htop, hbelow⟩
    | continues _ hturn => exact ⟨hP.turn hturn htop, hbelow⟩
    | ends _ hturn _ => exact ⟨hP.finish _ (hP.turn hturn htop), hbelow⟩
    | @spawns _ k _ _ _ hturn =>
      have waiting := hP.suspend k (hP.turn hturn htop)
      exact ⟨hP.child hturn htop _, List.forall_mem_cons.2 ⟨waiting, hbelow⟩⟩
    | pops _ hpop =>
      rw [hpop] at hbelow
      obtain ⟨hparent, hlower⟩ := List.forall_mem_cons.1 hbelow
      exact ⟨hP.resume htop hparent, hlower⟩

/-! ### Relations between machines -/

/-- A relation that holds across the steps of a frame, and across the life of a child that it has
    held across up to its end, as far as all machines on the way are of one kind. -/
structure Tracks (c : Context) (I : Machine L → Prop) (R : Machine L → Machine L → Prop) :
    Prop where
  refl (m : Machine L) : R m m
  trans {m m' m'' : Machine L} : R m m' → R m' m'' → R m m''
  step {m m' : Machine L} : I m → Stepped c m m' → m.below.length ≤ m'.below.length → R m m'
  popped {m last m' : Machine L} : I m → Popped c m last m' → R m last → R m m'

variable {I : Machine L → Prop} {R : Machine L → Machine L → Prop}

/-- Such a relation holds over the course of a frame. -/
theorem Course.tracks (hR : Tracks c I R) (h : Course c m m')
    (hI : ∀ x, Steps c m.below.length m x → I x) : R m m' := by
  -- by induction on the course: a child's life, between its call and its return, counts as one
  -- step
  induction h with
  | refl m => exact hR.refl m
  | own hcourse hstep hbelow ih =>
    exact hR.trans (ih hI)
      (hR.step (hI _ hcourse.steps) (step_cases hstep) (Nat.le_of_eq (by rw [hbelow])))
  | child hcourse hspawn hfresh hhigher hchild hpop hback ih ihchild =>
    have hlow := hcourse.length
    have hspawned := hcourse.steps.tail hspawn (by omega)
    have hlife := ihchild fun x hx => hI x (hspawned.trans (hx.weaken (by omega)))
    have hstep := hR.step (hI _ hcourse.steps) (step_cases hspawn) (by omega)
    exact hR.trans (hR.trans (ih hI) hstep)
      (hR.popped (hI _ hspawned) (hchild.popped hfresh hpop (by omega)) hlife)

/-- It holds across all that runs on top of a frame. -/
theorem Steps.tracks (hR : Tracks c I R) (h : Steps c m.below.length m x)
    (hI : ∀ x, Steps c m.below.length m x → I x) : R m x := by
  have hnested := h.nested
  clear h
  induction hnested with
  | here hcourse => exact hcourse.tracks hR hI
  | under hcourse hspawn _ hhigher _ ih =>
    have hlow := hcourse.length
    have hspawned := hcourse.steps.tail hspawn (by omega)
    have hstep := hR.step (hI _ hcourse.steps) (step_cases hspawn) (by omega)
    exact hR.trans (hR.trans (hcourse.tracks hR hI) hstep)
      (ih fun x hx => hI x (hspawned.trans (hx.weaken (by omega))))

/-- It holds throughout an execution. -/
theorem Visited.tracks {l : L} {message : Message} {observer : Observer} (hR : Tracks c I R)
    (h : Visited c l message observer x) (hI : ∀ y, Visited c l message observer y → I y) :
    R (launch c l message observer) x :=
  Steps.tracks hR h.steps fun y hy => hI y ⟨h.depth, hy⟩

end Machine

end Evm
