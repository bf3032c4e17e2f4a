import Evm.Proofs.Machine.Execution
import Evm.Proofs.Machine.Failure

namespace Evm

/-!
# The course of a frame

Between two machines with the same frames below the top one, the top frame has taken steps of its
own, and children have come and gone.  Facts about what a frame and all of its children have done
follow by induction on that.

* `Machine.Course` — steps of the top frame, and whole lives of children.
* `Machine.Steps.course` — steps that come back to the same height are such a course.
* `Machine.Popped.course` — the life of a frame is one.
-/

namespace Machine

variable {L : Type} [Ledger L] {c : Context} {m m' m'' : Machine L}

/-- What the top frame has done from one machine to another: steps of its own, and children that
    have run from the step that put them there to the step that popped them. -/
inductive Course (c : Context) : Machine L → Machine L → Prop where
  | refl (m : Machine L) : Course c m m
  | own {m m₁ m₂ : Machine L} : Course c m m₁ → m₁.step c = .running m₂ →
      m₂.below = m₁.below → Course c m m₂
  | child {m m₁ m₂ last m₃ : Machine L} : Course c m m₁ → m₁.step c = .running m₂ →
      m₂.IsFresh c → m₂.below.length = m₁.below.length + 1 → Course c m₂ last →
      last.step c = .running m₃ → m₃.below.length = m₁.below.length → Course c m m₃

namespace Course

/-- A course leaves the frames below alone. -/
theorem below_eq (h : Course c m m') : m'.below = m.below := by
  induction h with
  | refl => rfl
  | own _ _ hbelow ih => exact hbelow.trans ih
  | @child m m₁ m₂ last m₃ _ hspawn _ hhigher hchild hpop hback ih ihchild =>
    have spawned : ∃ waiting, m₂.below = waiting :: m₁.below := by
      rcases step_below hspawn with hsame | ⟨-, hspawned⟩ | ⟨-, _, hpopped⟩
      · exact absurd hhigher (by rw [hsame]; omega)
      · exact hspawned
      · exact absurd hhigher (by rw [hpopped, List.length_cons]; omega)
    have popped : ∃ parent, last.below = parent :: m₃.below := by
      have hlength := congrArg List.length ihchild
      rcases step_below hpop with hsame | ⟨-, _, hspawned⟩ | ⟨-, hpopped⟩
      · rw [← hsame] at hlength
        omega
      · rw [hspawned, List.length_cons] at hback
        omega
      · exact hpopped
    -- what is left under the child is what it was put on
    obtain ⟨waiting, hwaiting⟩ := spawned
    obtain ⟨parent, hparent⟩ := popped
    rw [hwaiting, hparent] at ihchild
    exact (List.cons.inj ihchild).2.trans ih

/-- The stack is as high at the end of a course as it was at its start. -/
theorem length (h : Course c m m') : m'.below.length = m.below.length := by rw [h.below_eq]

/-- A course is made of steps that stay as high. -/
theorem steps (h : Course c m m') : Steps c m.below.length m m' := by
  induction h with
  | refl m => exact .refl m
  | @own m m₁ m₂ hcourse hstep hbelow ih =>
    exact .tail ih hstep (Nat.le_of_eq (by rw [hbelow, hcourse.length]))
  | @child m m₁ m₂ last m₃ hcourse hspawn _ hhigher _ hpop hback ih ihchild =>
    have hlow : m.below.length = m₁.below.length := hcourse.length.symm
    have hchild : Steps c m.below.length m₂ last := ihchild.weaken (by omega)
    exact ih.trans (.tail (hchild.head hspawn (by omega)) hpop (by omega))

end Course

/-- A course from where a frame was put on the stack to where it is popped is its life. -/
theorem Course.popped (h : Course c m m') (hfresh : m.IsFresh c) (hpop : m'.step c = .running m'')
    (hlower : m''.below.length < m.below.length) : Popped c m m' m'' :=
  ⟨hfresh, h.steps, hpop, hlower⟩

/-! ### Courses from steps -/

/-- Courses of frames that lie on top of each other, each put there by the one below it. -/
inductive Nested (c : Context) : Machine L → Machine L → Prop where
  | here {m m' : Machine L} : Course c m m' → Nested c m m'
  | under {m m₁ m₂ m' : Machine L} : Course c m m₁ → m₁.step c = .running m₂ →
      m₂.IsFresh c → m₂.below.length = m₁.below.length + 1 → Nested c m₂ m' → Nested c m m'

namespace Nested

/-- The stack is never lower within a frame. -/
theorem length_le (h : Nested c m m') : m.below.length ≤ m'.below.length := by
  induction h with
  | here hcourse => exact Nat.le_of_eq hcourse.length.symm
  | under hcourse _ _ hhigher _ ih =>
    have := hcourse.length
    omega

/-- A step of the frame itself stays within it. -/
theorem own (h : Nested c m m') (hstep : m'.step c = .running m'')
    (hbelow : m''.below = m'.below) : Nested c m m'' := by
  induction h with
  | here hcourse => exact .here (.own hcourse hstep hbelow)
  | under hcourse hspawn hfresh hhigher _ ih =>
    exact .under hcourse hspawn hfresh hhigher (ih hstep hbelow)

/-- A child of the frame is within it. -/
theorem spawn (h : Nested c m m') (hstep : m'.step c = .running m'') (hfresh : m''.IsFresh c)
    (hhigher : m''.below.length = m'.below.length + 1) : Nested c m m'' := by
  induction h with
  | here hcourse => exact .under hcourse hstep hfresh hhigher (.here (.refl _))
  | under hcourse hspawn hfresh' hhigher' _ ih =>
    exact .under hcourse hspawn hfresh' hhigher' (ih hstep hhigher)

/-- Courses on top of each other are made of steps that stay as high. -/
theorem steps (h : Nested c m m') : Steps c m.below.length m m' := by
  induction h with
  | here hcourse => exact hcourse.steps
  | under hcourse hspawn _ hhigher _ ih =>
    have hlow := hcourse.length
    exact hcourse.steps.trans ((ih.weaken (by omega)).head hspawn (by omega))

/-- The uppermost frame ends, and its whole life is part of the course of the one below. -/
theorem pop (h : Nested c m m') (hstep : m'.step c = .running m'')
    (hlower : m''.below.length + 1 = m'.below.length)
    (hfloor : m.below.length ≤ m''.below.length) : Nested c m m'' := by
  -- by induction on the children that are open: the innermost frame is the one that ends
  induction h with
  | here hcourse =>
    have := hcourse.length
    omega
  | @under m m₁ m₂ m' hcourse hspawn hfresh hhigher hnested ih =>
    by_cases hinner : m₂.below.length ≤ m''.below.length
    · exact .under hcourse hspawn hfresh hhigher (ih hstep hlower hinner)
    · -- the frame that ends is the child itself
      have hheight := hnested.length_le
      cases hnested with
      | here hchild =>
        have := hchild.length
        exact .here (.child hcourse hspawn hfresh hhigher hchild hstep (by omega))
      | under hchild hspawn' _ hhigher' hnested' =>
        have := hchild.length
        have := hnested'.length_le
        omega

end Nested

/-- A machine is within the frame when no step on the way was below it. -/
theorem Steps.nested (h : Steps c m.below.length m m') : Nested c m m' := by
  induction h with
  | refl => exact .here (.refl m)
  | tail _ hstep hlow hnested =>
    obtain hbelow | ⟨hfresh, waiting, hbelow⟩ | ⟨-, parent, hbelow⟩ := step_below hstep
    · exact hnested.own hstep hbelow
    · exact hnested.spawn hstep hfresh (by rw [hbelow, List.length_cons])
    · exact hnested.pop hstep (by rw [hbelow, List.length_cons]) hlow

/-- Steps that stay at least as high and come back to the same height are the course of a frame. -/
theorem Steps.course (h : Steps c m.below.length m m')
    (hlength : m'.below.length = m.below.length) : Course c m m' := by
  cases h.nested with
  | here hcourse => exact hcourse
  | under hcourse _ _ hhigher hnested =>
    have := hcourse.length
    have := hnested.length_le
    omega

/-- An execution is the course of its first frame. -/
theorem Visited.course {l : L} {message : Message} {observer : Observer}
    (h : Visited c l message observer m) (hbelow : m.below = []) :
    Course c (launch c l message observer) m :=
  Steps.course h.steps (by rw [hbelow]; rfl)

/-- A frame that is popped has come to its end where it was put. -/
theorem Popped.length (h : Popped c m m' m'') :
    m'.below.length = m.below.length ∧ m''.below.length + 1 = m.below.length := by
  have hheight := h.steps.floor_le (Nat.le_refl _)
  have hstep := (step_length h.step).2
  have hpopped := h.popped
  omega

/-- The life of a frame is a course. -/
theorem Popped.course (h : Popped c m m' m'') : Course c m m' := h.steps.course h.length.1

/-- Steps stay as high as they start, or there is a first one that leads lower. -/
theorem Steps.stays_or_leaves {low : Nat} (h : Steps c low m m') :
    Steps c m.below.length m m' ∨
      ∃ last m₁, Steps c m.below.length m last ∧ last.step c = .running m₁ ∧
        m₁.below.length < m.below.length ∧ Steps c low m₁ m' := by
  induction h with
  | refl => exact .inl (.refl _)
  | @tail m₁ m₂ _ hstep hlow ih =>
    rcases ih with hstays | ⟨last, m₀, hsteps, hleaves, hlower, hrest⟩
    · rcases Nat.lt_or_ge m₂.below.length m.below.length with hlower | hhigh
      · exact .inr ⟨m₁, m₂, hstays, hstep, hlower, .refl _⟩
      · exact .inl (.tail hstays hstep hhigh)
    · exact .inr ⟨last, m₀, hsteps, hleaves, hlower, .tail hrest hstep hlow⟩

/-- A frame that has been asked for comes to an end before the execution does. -/
theorem Visited.exists_popped {l : L} {message : Message} {observer : Observer}
    (h : Visited c l message observer m) (hfresh : m.IsFresh c) (hbelow : m.below ≠ []) :
    ∃ last m', Popped c m last m' := by
  obtain ⟨bottom, x, hend, -, hdone, -⟩ := execute_eq l observer h.depth
  have hbottom : bottom.below = [] := (step_done hdone).2.1
  have hheight : 0 < m.below.length := List.length_pos_iff.2 hbelow
  rcases (h.steps_to_end hend hdone).stays_or_leaves with
    hstays | ⟨last, m', hsteps, hstep, hlower, -⟩
  · have hlow := hstays.floor_le (Nat.le_refl _)
    rw [hbottom] at hlow
    exact absurd hlow (Nat.not_le.2 hheight)
  · exact ⟨last, m', hfresh, hsteps, hstep, hlower⟩

/-- The step that pops a frame is the one that hands its result to its parent. -/
theorem Popped.handedTo (h : Popped c m m' m'') :
    m'.top.phase = .finalizing ∧ ∃ parent, m'.below = parent :: m''.below ∧
      m'' = m'.handedTo c parent m''.below := by
  have hlower := h.length
  -- only this step lowers the stack
  cases step_cases h.step with
  | pops hphase hbelow =>
    rename_i parent below
    exact ⟨hphase, parent, hbelow, rfl⟩
  | prepares hphase => exact absurd hlower.2 (by rw [prepare_below, hlower.1]; omega)
  | enters hphase => exact absurd hlower.2 (by rw [enter_below, hlower.1]; omega)
  | continues hrun hturn => exact absurd hlower.2 (by rw [landed_below, hlower.1]; omega)
  | ends hrun hturn hends =>
    exact absurd hlower.2 (by rw [withTop_below, landed_below, hlower.1]; omega)
  | spawns hrun hturn =>
    refine absurd hlower.2 ?_
    show m'.below.length + 1 + 1 ≠ _
    omega

/-- What is left then is what its end leaves. -/
theorem Popped.ledger_eq (h : Popped c m m' m'') :
    m''.ledger = (m'.toLocal.finalize c m'.isRoot).2.ledger := by
  obtain ⟨-, parent, -, hhanded⟩ := h.handedTo
  rw [hhanded]
  rfl

/-- A frame that is popped is not the first one. -/
theorem Popped.isRoot_eq (h : Popped c m m' m'') : m'.isRoot = false := by
  obtain ⟨-, parent, hbelow, -⟩ := h.handedTo
  rw [isRoot, hbelow]
  rfl

end Machine

end Evm
