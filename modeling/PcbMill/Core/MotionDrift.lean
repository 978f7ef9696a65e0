import PcbMill.Core.Motion

/-!
# Positions against pulses

A run of the motion interface keeps, beside the state, what an observer of the pins counts:
for each axis the signed rising edges of its STEP pin and the change of `cur_pos` made by
`stepper_interrupt`, and whether an edge came while no step remained.  The handler returns
before the interpolation that moves `cur_pos`, so it keeps the two in step exactly as long as
it puts out no edge at all.
-/

namespace PcbMill

open FixedWidth Run

inductive AxisName where
  | x | y | z | e
  deriving DecidableEq, Repr

def MotionState.axis (m : MotionState) : AxisName → Axis
  | .x => m.x
  | .y => m.y
  | .z => m.z
  | .e => m.e

def axisPins : AxisName → AxisPins
  | .x => xPins
  | .y => yPins
  | .z => zPins
  | .e => ePins

/-- A rising edge on the STEP pin of an axis between two states. -/
def risingEdge (s s' : Stepper) (a : AxisName) : Bool :=
  !s.gpio (axisPins a).step && s'.gpio (axisPins a).step

/-- A rising edge counts by the sign of the axis' direction. -/
def signedEdge (s s' : Stepper) (a : AxisName) : ℤ :=
  if risingEdge s s' a then
    (if 0 < (s.motion.axis a).dir then 1 else if (s.motion.axis a).dir < 0 then -1 else 0)
  else 0

/-- A stepper with the counts of the run so far. -/
structure DriftRun where
  stepper : Stepper
  /-- Rising edges with positive direction minus those with negative direction. -/
  edges : AxisName → ℤ
  /-- The change of `cur_pos` made by `stepper_interrupt`. -/
  moved : AxisName → ℤ
  /-- A rising edge came while `steps_remaining` was 0. -/
  stray : Bool

def DriftRun.start (s : Stepper) : DriftRun :=
  { stepper := s, edges := fun _ => 0, moved := fun _ => 0, stray := false }

def anyEdge (s s' : Stepper) : Bool :=
  risingEdge s s' .x || risingEdge s s' .y || risingEdge s s' .z || risingEdge s s' .e

def DriftRun.step (r : DriftRun) (ev : MotionEvent) : DriftRun :=
  let s := r.stepper
  let s' := s.apply ev
  { stepper := s'
    edges := fun a => r.edges a + signedEdge s s' a
    moved := fun a => match ev with
      | .tick => r.moved a + ((s'.motion.axis a).curPos - (s.motion.axis a).curPos)
      | _ => r.moved a
    stray := r.stray || (anyEdge s s' && decide (s.motion.stepsRemaining = 0)) }

/-- The position change equals the signed edges on every axis, and no edge was stray. -/
def DriftRun.Faithful (r : DriftRun) : Prop :=
  (∀ a, r.moved a = r.edges a) ∧ r.stray = false

/-- The next `stepper_interrupt` is the one in ten that drives the STEP pins. -/
def Stepper.pulseDue (s : Stepper) : Prop :=
  s.motion.x.hal.isSome ∧ Int.tmod (int32 (s.motion.tickCounter + 1)) 10 = 0

instance (s : Stepper) : Decidable s.pulseDue := inferInstanceAs (Decidable (_ ∧ _))

/-- The event does not drive the STEP pins. -/
def DriftRun.Quiet (r : DriftRun) (ev : MotionEvent) : Prop :=
  ev = .tick → ¬ r.stepper.pulseDue

instance (r : DriftRun) (ev : MotionEvent) : Decidable (r.Quiet ev) :=
  inferInstanceAs (Decidable (_ → _))

/-! ### What one call does -/

theorem stepperInterrupt_quiet (s : Stepper) (h : ¬ s.pulseDue) :
    (stepperInterrupt s).gpio = s.gpio ∧
      ∃ t, (stepperInterrupt s).motion = { s.motion with tickCounter := t } := by
  by_cases hx : s.motion.x.hal.isNone
  · rw [stepperInterrupt, if_pos hx]
    exact ⟨rfl, s.motion.tickCounter, rfl⟩
  · have hdue : Int.tmod (int32 (s.motion.tickCounter + 1)) 10 ≠ 0 := fun h0 =>
      h ⟨by simpa [Option.isSome_iff_ne_none] using hx, h0⟩
    rw [stepperInterrupt, if_neg hx]
    simp only [if_pos hdue]
    exact ⟨trivial, _, rfl⟩

/-- The motion interface drives DIR pins, never STEP pins, outside the interrupt. -/
theorem setDir_step (p : AxisPins) (dir : ℤ) (g : Levels) (q : Pin) (h : p.dir ≠ q) :
    setDir p dir g q = g q := by
  simp only [setDir]
  split
  · exact Function.update_of_ne h.symm _ _
  · exact Function.update_of_ne h.symm _ _

/-- What holds as long as no pulse was put out: the pins are low, the flags clear, the counts
zero, and a move in progress has a direction on its x axis. -/
structure DriftRun.Still (r : DriftRun) : Prop where
  hal : ∀ a, (r.stepper.motion.axis a).hal = some (axisPins a)
  idle : ∀ a, (r.stepper.motion.axis a).stepActive = false
  low : ∀ a, r.stepper.gpio (axisPins a).step = false
  edges : ∀ a, r.edges a = 0
  moved : ∀ a, r.moved a = 0
  stray : r.stray = false
  dir : r.stepper.motion.stepsRemaining ≠ 0 → r.stepper.motion.x.dir = 1 ∨
    r.stepper.motion.x.dir = -1

theorem DriftRun.Still.faithful {r : DriftRun} (h : r.Still) : r.Faithful :=
  ⟨fun a => (h.moved a).trans (h.edges a).symm, h.stray⟩

theorem risingEdge_low {s s' : Stepper} {a : AxisName}
    (h : s'.gpio (axisPins a).step = false) : risingEdge s s' a = false := by
  simp [risingEdge, h]

/-- An event that leaves the STEP pins low counts no edge. -/
theorem DriftRun.step_low {r : DriftRun} {ev : MotionEvent}
    (h : ∀ a, (r.stepper.apply ev).gpio (axisPins a).step = false) :
    (r.step ev).edges = r.edges ∧ (r.step ev).stray = r.stray := by
  constructor
  · funext a
    simp [DriftRun.step, signedEdge, risingEdge_low (h a)]
  · simp [DriftRun.step, anyEdge, risingEdge_low (h _)]

theorem startMotion_gpio (s : Stepper) (x y z a : ℤ)
    (hal : ∀ a, (s.motion.axis a).hal = some (axisPins a)) (b : AxisName) :
    (startMotion x y z a s).gpio (axisPins b).step = s.gpio (axisPins b).step := by
  have hx : s.motion.x.hal = some xPins := hal .x
  have hy : s.motion.y.hal = some yPins := hal .y
  have hz : s.motion.z.hal = some zPins := hal .z
  have he : s.motion.e.hal = some ePins := hal .e
  simp only [startMotion, hx, hy, hz, he, Option.map_some, Option.getD_some]
  rw [setDir_step, setDir_step, setDir_step, setDir_step] <;> cases b <;> decide

/-- `init_motion` and `start_motion` leave the function pointers and the pin flags. -/
theorem apply_axis {ev : MotionEvent} (s : Stepper) (h : ev ≠ .tick) (a : AxisName) :
    ((s.apply ev).motion.axis a).hal = (s.motion.axis a).hal ∧
      ((s.apply ev).motion.axis a).stepActive = (s.motion.axis a).stepActive := by
  cases ev with
  | init x y z a' => cases a <;> exact ⟨rfl, rfl⟩
  | start x y z a' => cases a <;> exact ⟨rfl, rfl⟩
  | tick => exact absurd rfl h

theorem DriftRun.Still.step {r : DriftRun} {ev : MotionEvent} (h : r.Still)
    (hq : r.Quiet ev) : (r.step ev).Still := by
  cases ev with
  | init x y z a =>
    have haxis := @apply_axis (.init x y z a) r.stepper (by simp)
    have hlow : ∀ b, (r.stepper.apply (.init x y z a)).gpio (axisPins b).step = false := h.low
    obtain ⟨he, hs⟩ := DriftRun.step_low hlow
    exact
      { hal := fun b => (haxis b).1.trans (h.hal b)
        idle := fun b => (haxis b).2.trans (h.idle b)
        low := hlow
        edges := fun b => he ▸ h.edges b
        moved := h.moved
        stray := hs.trans h.stray
        dir := h.dir }
  | start x y z a =>
    have haxis := @apply_axis (.start x y z a) r.stepper (by simp)
    have hlow : ∀ b, (r.stepper.apply (.start x y z a)).gpio (axisPins b).step = false :=
      fun b => (startMotion_gpio _ x y z a h.hal b).trans (h.low b)
    obtain ⟨he, hs⟩ := DriftRun.step_low hlow
    refine
      { hal := fun b => (haxis b).1.trans (h.hal b)
        idle := fun b => (haxis b).2.trans (h.idle b)
        low := hlow
        edges := fun b => he ▸ h.edges b
        moved := h.moved
        stray := hs.trans h.stray
        dir := fun _ => ?_ }
    show (if _ then (1 : ℤ) else -1) = 1 ∨ (if _ then (1 : ℤ) else -1) = -1
    split <;> simp
  | tick =>
    obtain ⟨hgpio, t, hmotion⟩ := stepperInterrupt_quiet r.stepper (hq rfl)
    have haxis : ∀ b, (stepperInterrupt r.stepper).motion.axis b = r.stepper.motion.axis b := by
      intro b
      rw [hmotion]
      cases b <;> rfl
    have hlow : ∀ b, (r.stepper.apply .tick).gpio (axisPins b).step = false :=
      fun b => (congrFun hgpio _).trans (h.low b)
    obtain ⟨he, hs⟩ := DriftRun.step_low hlow
    refine
      { hal := fun b => (congrArg Axis.hal (haxis b)).trans (h.hal b)
        idle := fun b => (congrArg Axis.stepActive (haxis b)).trans (h.idle b)
        low := hlow
        edges := fun b => he ▸ h.edges b
        moved := fun b => ?_
        stray := hs.trans h.stray
        dir := ?_ }
    · show r.moved b + (((stepperInterrupt r.stepper).motion.axis b).curPos - _) = 0
      rw [haxis, h.moved]
      omega
    · show (stepperInterrupt r.stepper).motion.stepsRemaining ≠ 0 → _
      rw [show (r.step .tick).stepper.motion = _ from hmotion, hmotion]
      exact h.dir

/-- The one call in ten raises every STEP pin and moves no position. -/
theorem stepperInterrupt_pulse {r : DriftRun} (h : r.Still) (hdue : r.stepper.pulseDue) :
    (∀ a, (stepperInterrupt r.stepper).gpio (axisPins a).step = true) ∧
      ∀ a, ((stepperInterrupt r.stepper).motion.axis a).curPos =
        (r.stepper.motion.axis a).curPos := by
  have hx : r.stepper.motion.x.hal = some xPins := h.hal .x
  have hy : r.stepper.motion.y.hal = some yPins := h.hal .y
  have hz : r.stepper.motion.z.hal = some zPins := h.hal .z
  have he : r.stepper.motion.e.hal = some ePins := h.hal .e
  have ix : r.stepper.motion.x.stepActive = false := h.idle .x
  have iy : r.stepper.motion.y.stepActive = false := h.idle .y
  have iz : r.stepper.motion.z.stepActive = false := h.idle .z
  have ie : r.stepper.motion.e.stepActive = false := h.idle .e
  have htick := hdue.2
  simp only [stepperInterrupt, hx, hy, hz, he, ix, iy, iz, ie, axisToggle, axisStepHigh,
    Option.isNone_some, htick, ne_eq, not_true_eq_false, if_false, Option.map_some,
    Option.getD_some, Bool.false_eq_true]
  constructor
  · intro a
    simp only [stepHigh, pinSet, Function.update_apply]
    cases a <;> rfl
  · intro a
    cases a <;> rfl

theorem DriftRun.Still.not_faithful_of_pulse {r : DriftRun} {ev : MotionEvent} (h : r.Still)
    (hq : ¬ r.Quiet ev) : ¬ (r.step ev).Faithful := by
  obtain ⟨rfl, hdue⟩ : ev = .tick ∧ r.stepper.pulseDue := by
    simpa [DriftRun.Quiet] using hq
  obtain ⟨hhigh, hpos⟩ := stepperInterrupt_pulse h hdue
  have hedge : risingEdge r.stepper (stepperInterrupt r.stepper) .x = true := by
    simp only [risingEdge, h.low .x, hhigh .x]
    rfl
  rintro ⟨hmoved, hstray⟩
  by_cases hsteps : r.stepper.motion.stepsRemaining = 0
  · -- with no step remaining the edge itself is the fault
    have : (r.step .tick).stray = true := by
      show (r.stray || (anyEdge r.stepper (stepperInterrupt r.stepper) && _)) = true
      simp [anyEdge, hedge, hsteps]
    simp [this] at hstray
  · -- with a direction set the edge counts and the position stays
    have hm := hmoved .x
    have hmx : (r.step .tick).moved .x = 0 := by
      show r.moved .x + (((stepperInterrupt r.stepper).motion.axis .x).curPos - _) = 0
      rw [hpos .x, h.moved]
      omega
    have hex : (r.step .tick).edges .x = r.stepper.motion.x.dir := by
      show r.edges .x + signedEdge r.stepper (stepperInterrupt r.stepper) .x = _
      rw [h.edges, signedEdge, if_pos hedge]
      show 0 + (if 0 < r.stepper.motion.x.dir then (1 : ℤ)
        else if r.stepper.motion.x.dir < 0 then -1 else 0) = _
      rcases h.dir hsteps with hd | hd <;> simp [hd]
    rcases h.dir hsteps with hd | hd <;> omega

/-- The counts before any event, on the motion system as `stepper_init_hal` leaves it. -/
def driftStart : DriftRun := .start (stepperInitHal stepperZero)

theorem driftStart_still : driftStart.Still where
  hal := fun a => by cases a <;> rfl
  idle := fun a => by cases a <;> rfl
  low := fun a => by cases a <;> decide
  edges := fun _ => rfl
  moved := fun _ => rfl
  stray := rfl
  dir := fun h => absurd rfl h

/-- **Positions follow the pulses exactly in the runs that put out none.**  In every state of
a run the position changes equal the signed STEP edges, with no edge while no step remains,
if and only if no `stepper_interrupt` of the run reaches its tenth tick. -/
theorem position_follows_edges_iff (evs : List MotionEvent) :
    Always DriftRun.step DriftRun.Faithful driftStart evs ↔
      Guarded DriftRun.step DriftRun.Quiet driftStart evs :=
  always_iff_guarded (fun _ h => h.faithful) (fun _ _ h hq => h.step hq)
    (fun _ _ h hq => h.not_faithful_of_pulse hq) driftStart_still

/-- Ten ticks after `init_motion`, with nothing to move, every STEP pin has risen. -/
theorem free_running_pulse :
    ¬ (runFrom DriftRun.step driftStart
      (.init 0 0 0 0 :: List.replicate 10 .tick)).Faithful :=
  fun h => absurd h.2 (by decide)

end PcbMill
