import PcbMill.Core.MotionDrift
import PcbMill.Lib.ShrinkingThreshold

/-!
# The interpolation block of `stepper_interrupt`

The block stands behind an unconditional `return` and is modelled by itself.  Its arithmetic is
that of `int32_t`: a sum that does not fit is undefined, and so is the execution.  An execution
adds each axis' delta to its error and steps the axis when the error reaches the number of steps
that remain, which shrinks by one with every execution.
-/

namespace PcbMill

open FixedWidth

/-- One axis' part of an execution. -/
def axisInterpolate (stepsRemaining : ℤ) (axis : Axis) (g : Levels) : Option (Axis × Levels) :=
  if axis.delta ≠ 0 then do
    let error ← signed32 (axis.error + axis.delta)
    if stepsRemaining ≤ error then
      let rest ← signed32 (error - stepsRemaining)
      let (axis, g) := axisStepHigh { axis with error := rest } g
      let curPos ← signed32 (axis.curPos + axis.dir)
      some ({ axis with curPos := curPos }, g)
    else some ({ axis with error := error }, g)
  else some (axis, g)

/-- The acceleration control, on the phase already advanced. -/
def rateInterpolate (m : MotionState) (stepPhase : ℤ) : Option ℤ :=
  if stepPhase < m.accelTicks then signed32 (m.stepRateTicks - 1)
  else if m.decelStart ≤ stepPhase then signed32 (m.stepRateTicks + 1)
  else some m.stepRateTicks

/-- One execution: the body of the test of `step_rate_ticks`. -/
def interpolate (s : Stepper) : Option Stepper := do
  let m := { s.motion with tickCounter := 0 }
  let (x, g) ← axisInterpolate m.stepsRemaining m.x s.gpio
  let (y, g) ← axisInterpolate m.stepsRemaining m.y g
  let (z, g) ← axisInterpolate m.stepsRemaining m.z g
  let (e, g) ← axisInterpolate m.stepsRemaining m.e g
  let stepPhase ← signed32 (m.stepPhase + 1)
  let stepsRemaining ← signed32 (m.stepsRemaining - 1)
  let stepRateTicks ← rateInterpolate m stepPhase
  some { motion := { m with
           x := x, y := y, z := z, e := e, stepPhase := stepPhase
           stepsRemaining := stepsRemaining, stepRateTicks := stepRateTicks }
         gpio := g }

/-- The block, run once for each tick. -/
def interpolationTick (s : Stepper) : Option Stepper :=
  if s.motion.stepsRemaining = 0 then some s
  else do
    let tickCounter ← signed32 (s.motion.tickCounter + 1)
    let s := { s with motion := { s.motion with tickCounter := tickCounter } }
    if s.motion.stepRateTicks ≤ tickCounter then interpolate s else some s

/-- The first `n` executions. -/
def interpolations : ℕ → Stepper → Option Stepper
  | 0, s => some s
  | n + 1, s => (interpolations n s).bind interpolate

/-! ### What an execution does -/

/-- What an execution does to an axis that it leaves defined. -/
structure AxisStep (stepsRemaining : ℤ) (axis axis' : Axis) : Prop where
  dir : axis'.dir = axis.dir
  delta : axis'.delta = axis.delta
  tgtPos : axis'.tgtPos = axis.tgtPos
  still : axis.delta = 0 → axis'.error = axis.error ∧ axis'.curPos = axis.curPos
  sum : axis.delta ≠ 0 → Fits32 (axis.error + axis.delta)
  moved : axis.delta ≠ 0 → stepsRemaining ≤ axis.error + axis.delta →
    axis'.error = axis.error + axis.delta - stepsRemaining ∧ axis'.curPos = axis.curPos + axis.dir
  waited : axis.delta ≠ 0 → axis.error + axis.delta < stepsRemaining →
    axis'.error = axis.error + axis.delta ∧ axis'.curPos = axis.curPos

variable {stepsRemaining : ℤ} {axis axis' : Axis} {g g' : Levels} {s s' : Stepper}

theorem axisInterpolate_step (h : axisInterpolate stepsRemaining axis g = some (axis', g')) :
    AxisStep stepsRemaining axis axis' := by
  simp only [axisInterpolate] at h
  by_cases hdelta : axis.delta = 0
  · rw [if_neg (not_not.mpr hdelta)] at h
    cases h
    exact ⟨rfl, rfl, rfl, fun _ => ⟨rfl, rfl⟩, fun h => absurd hdelta h,
      fun h => absurd hdelta h, fun h => absurd hdelta h⟩
  · rw [if_pos hdelta] at h
    obtain ⟨error, herror, h⟩ := Option.bind_eq_some_iff.mp h
    obtain ⟨hsum, rfl⟩ := signed32_eq_some.mp herror
    by_cases hfires : stepsRemaining ≤ axis.error + axis.delta
    · rw [if_pos hfires] at h
      obtain ⟨rest, hrest, h⟩ := Option.bind_eq_some_iff.mp h
      obtain ⟨curPos, hcurPos, h⟩ := Option.bind_eq_some_iff.mp h
      obtain ⟨_, rfl⟩ := signed32_eq_some.mp hrest
      obtain ⟨_, rfl⟩ := signed32_eq_some.mp hcurPos
      cases h
      exact ⟨rfl, rfl, rfl, fun h => absurd h hdelta, fun _ => hsum, fun _ _ => ⟨rfl, rfl⟩,
        fun _ h => absurd hfires (not_le.mpr h)⟩
    · rw [if_neg hfires] at h
      cases h
      exact ⟨rfl, rfl, rfl, fun h => absurd h hdelta, fun _ => hsum,
        fun _ h => absurd h hfires, fun _ _ => ⟨rfl, rfl⟩⟩

/-- An axis' part is defined when its sums fit. -/
theorem axisInterpolate_defined (hsum : axis.delta ≠ 0 → Fits32 (axis.error + axis.delta))
    (hmoved : axis.delta ≠ 0 → stepsRemaining ≤ axis.error + axis.delta →
      Fits32 (axis.error + axis.delta - stepsRemaining) ∧ Fits32 (axis.curPos + axis.dir))
    (g : Levels) : ∃ axis' g', axisInterpolate stepsRemaining axis g = some (axis', g') := by
  simp only [axisInterpolate]
  by_cases hdelta : axis.delta = 0
  · rw [if_neg (not_not.mpr hdelta)]
    exact ⟨_, _, rfl⟩
  · rw [if_pos hdelta, signed32_of_fits (hsum hdelta)]
    by_cases hfires : stepsRemaining ≤ axis.error + axis.delta
    · obtain ⟨hrest, hcurPos⟩ := hmoved hdelta hfires
      simp only [Option.bind_eq_bind, Option.bind_some, if_pos hfires, signed32_of_fits hrest,
        axisStepHigh, signed32_of_fits hcurPos]
      exact ⟨_, _, rfl⟩
    · simp only [Option.bind_eq_bind, Option.bind_some, if_neg hfires]
      exact ⟨_, _, rfl⟩

/-- What an execution does to the rest of the motion state. -/
structure MotionStep (m m' : MotionState) : Prop where
  axis : ∀ a, AxisStep m.stepsRemaining (m.axis a) (m'.axis a)
  stepPhase : m'.stepPhase = m.stepPhase + 1
  stepsRemaining : m'.stepsRemaining = m.stepsRemaining - 1
  accelTicks : m'.accelTicks = m.accelTicks
  decelStart : m'.decelStart = m.decelStart
  rate : rateInterpolate m (m.stepPhase + 1) = some m'.stepRateTicks

theorem interpolate_step (h : interpolate s = some s') : MotionStep s.motion s'.motion := by
  simp only [interpolate] at h
  obtain ⟨⟨x, gx⟩, hx, h⟩ := Option.bind_eq_some_iff.mp h
  obtain ⟨⟨y, gy⟩, hy, h⟩ := Option.bind_eq_some_iff.mp h
  obtain ⟨⟨z, gz⟩, hz, h⟩ := Option.bind_eq_some_iff.mp h
  obtain ⟨⟨e, ge⟩, he, h⟩ := Option.bind_eq_some_iff.mp h
  obtain ⟨stepPhase, hphase, h⟩ := Option.bind_eq_some_iff.mp h
  obtain ⟨stepsRemaining, hsteps, h⟩ := Option.bind_eq_some_iff.mp h
  obtain ⟨stepRateTicks, hrate, h⟩ := Option.bind_eq_some_iff.mp h
  obtain ⟨_, rfl⟩ := signed32_eq_some.mp hphase
  obtain ⟨_, rfl⟩ := signed32_eq_some.mp hsteps
  cases h
  refine ⟨fun a => ?_, rfl, rfl, rfl, rfl, hrate⟩
  cases a with
  | x => exact axisInterpolate_step hx
  | y => exact axisInterpolate_step hy
  | z => exact axisInterpolate_step hz
  | e => exact axisInterpolate_step he

/-- An execution is defined when every axis' part is and the counters fit. -/
theorem interpolate_defined
    (haxis : ∀ a g, ∃ axis' g',
      axisInterpolate s.motion.stepsRemaining (s.motion.axis a) g = some (axis', g'))
    (hphase : Fits32 (s.motion.stepPhase + 1)) (hsteps : Fits32 (s.motion.stepsRemaining - 1))
    (hdown : Fits32 (s.motion.stepRateTicks - 1)) (hup : Fits32 (s.motion.stepRateTicks + 1)) :
    ∃ s', interpolate s = some s' := by
  obtain ⟨x, gx, hx⟩ := haxis .x s.gpio
  obtain ⟨y, gy, hy⟩ := haxis .y gx
  obtain ⟨z, gz, hz⟩ := haxis .z gy
  obtain ⟨e, ge, he⟩ := haxis .e gz
  simp only [MotionState.axis] at hx hy hz he
  have hrate : ∃ rate, rateInterpolate { s.motion with tickCounter := 0 } (s.motion.stepPhase + 1) =
      some rate := by
    simp only [rateInterpolate]
    split_ifs
    · exact ⟨_, signed32_of_fits hdown⟩
    · exact ⟨_, signed32_of_fits hup⟩
    · exact ⟨_, rfl⟩
  obtain ⟨rate, hrate⟩ := hrate
  simp only [interpolate, hx, hy, hz, he, signed32_of_fits hphase, signed32_of_fits hsteps, hrate,
    Option.bind_eq_bind, Option.bind_some]
  exact ⟨_, rfl⟩

/-- A tick leaves a move that is over, or only counts, or is an execution. -/
theorem interpolationTick_cases (h : interpolationTick s = some s') :
    s' = s ∨ s' = { s with motion := { s.motion with tickCounter := s.motion.tickCounter + 1 } } ∨
      interpolate s = some s' := by
  simp only [interpolationTick] at h
  by_cases hover : s.motion.stepsRemaining = 0
  · rw [if_pos hover] at h
    cases h
    exact .inl rfl
  · rw [if_neg hover] at h
    obtain ⟨tickCounter, hcounter, h⟩ := Option.bind_eq_some_iff.mp h
    obtain ⟨_, rfl⟩ := signed32_eq_some.mp hcounter
    by_cases hdue : s.motion.stepRateTicks ≤ s.motion.tickCounter + 1
    · rw [if_pos hdue] at h
      -- the body sets the tick counter whatever it was
      exact .inr (.inr h)
    · rw [if_neg hdue] at h
      cases h
      exact .inr (.inl rfl)

/-- A sequence of executions is the one there is. -/
theorem interpolations_of_trajectory {traj : ℕ → Stepper} {n : ℕ}
    (h : ∀ k, k < n → interpolate (traj k) = some (traj (k + 1))) :
    interpolations n (traj 0) = some (traj n) := by
  induction n with
  | zero => rfl
  | succ n ih =>
    rw [interpolations, ih fun k hk => h k (Nat.lt_succ_of_lt hk), Option.bind_some]
    exact h n (Nat.lt_succ_self n)

end PcbMill
