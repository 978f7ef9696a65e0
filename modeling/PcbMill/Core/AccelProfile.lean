import PcbMill.Core.InterpolatedMove

/-!
# The acceleration profile of a move

The phase is advanced before it is compared, so a move of `n` steps with `a = n / 4` speeds up in
`a - 1` executions and slows down in `a + 1`: the rate ends above the value it started with.
-/

namespace PcbMill

open FixedWidth

variable {m : PlannedMove} {n k : ℕ} {s s' : Stepper}

/-- As long as steps remain the next execution is defined and leaves the rate between 8 and the
value it started with, and it is back there when none remains. -/
def RateBounded (m : PlannedMove) : Prop :=
  ∀ n, (∀ k, k < n → ∃ s, interpolations k m.started = some s ∧ s.motion.stepsRemaining ≠ 0) →
    ∃ s, interpolations n m.started = some s ∧ 8 ≤ s.motion.stepRateTicks ∧
      s.motion.stepRateTicks ≤ m.started.motion.stepRateTicks ∧
      (s.motion.stepsRemaining = 0 → s.motion.stepRateTicks = m.started.motion.stepRateTicks)

/-- The profile of a move of `n` steps after `k` executions. -/
structure Profiled (n k : ℕ) (motion : MotionState) : Prop where
  steps : motion.stepsRemaining = (n - k : ℕ)
  phase : motion.stepPhase = k
  accel : motion.accelTicks = (n / 4 : ℕ)
  decel : motion.decelStart = (n - n / 4 : ℕ)
  rate : motion.stepRateTicks = 100 - (min k (n / 4 - 1) : ℕ) + (k + 1 - (n - n / 4) : ℕ)

theorem profiled_started (hpos : 0 < n) (h : m.started.motion.stepsRemaining = n) :
    Profiled n 0 m.started.motion := by
  have hlt : n < 2 ^ 31 := by
    have := executions_lt m
    rw [PlannedMove.executions, h, Int.toNat_natCast] at this
    exact this
  have haccel : m.started.motion.accelTicks = (n / 4 : ℕ) := by
    have hplan : m.started.motion.accelTicks = Int.tdiv m.started.motion.stepsRemaining 4 := rfl
    rw [hplan, h, Int.tdiv_eq_ediv_of_nonneg (Int.natCast_nonneg n)]
    rfl
  have hdecel : m.started.motion.decelStart = (n - n / 4 : ℕ) := by
    have hplan : m.started.motion.decelStart =
        int32 (m.started.motion.stepsRemaining - m.started.motion.accelTicks) := rfl
    rw [hplan, h, haccel, int32_of_fits ⟨by omega, by omega⟩]
    omega
  refine ⟨h, rfl, haccel, hdecel, ?_⟩
  have hrate : m.started.motion.stepRateTicks = 100 := rfl
  rw [hrate]
  omega

/-- What one execution keeps. -/
theorem Profiled.step (h : Profiled n k s.motion) (hk : k < n)
    (hstep : MotionStep s.motion s'.motion) : Profiled n (k + 1) s'.motion := by
  refine ⟨?_, ?_, hstep.accelTicks.trans h.accel, hstep.decelStart.trans h.decel, ?_⟩
  · rw [hstep.stepsRemaining, h.steps]
    omega
  · rw [hstep.stepPhase, h.phase]
    rfl
  · have hrate := hstep.rate
    rw [rateInterpolate, h.phase, h.accel, h.decel, h.rate] at hrate
    split_ifs at hrate with hup hdown
    · -- still speeding up, which the slowing down is far from
      obtain ⟨-, hrate⟩ := signed32_eq_some.mp hrate
      omega
    · obtain ⟨-, hrate⟩ := signed32_eq_some.mp hrate
      omega
    · have hrate := Option.some.inj hrate
      omega

/-- The rate that a move of `n` steps ends with. -/
theorem Profiled.final_rate (h : Profiled n n s.motion) :
    s.motion.stepRateTicks = if n < 4 then 101 else 102 := by
  rw [h.rate]
  split_ifs with hshort
  · omega
  · omega

/-- A move of 376 steps or more goes below the minimum of 8 ticks. -/
theorem Profiled.below_minimum (h : Profiled n (n / 4) s.motion) (hlong : 376 ≤ n) :
    s.motion.stepRateTicks < 8 := by
  rw [h.rate]
  omega

/-- The run of a move whose rate is bounded. -/
theorem profiled_of_rateBounded (hbounded : RateBounded m) (hpos : 0 < n)
    (h : m.started.motion.stepsRemaining = n) : ∀ k, k ≤ n →
      ∃ s, interpolations k m.started = some s ∧ Profiled n k s.motion := by
  intro k
  induction k using Nat.strong_induction_on with
  | _ k ih =>
    intro hk
    cases k with
    | zero => exact ⟨m.started, rfl, profiled_started hpos h⟩
    | succ k =>
      have hbefore : ∀ j, j < k + 1 → ∃ s, interpolations j m.started = some s ∧
          s.motion.stepsRemaining ≠ 0 := by
        intro j hj
        obtain ⟨s, hs, hprofile⟩ := ih j hj (by omega)
        exact ⟨s, hs, by rw [hprofile.steps]; omega⟩
      obtain ⟨s', hs', -⟩ := hbounded (k + 1) hbefore
      obtain ⟨s, hs, hprofile⟩ := ih k (Nat.lt_succ_self k) (by omega)
      have hnext : interpolate s = some s' := by
        rwa [interpolations, hs, Option.bind_some] at hs'
      exact ⟨s', hs', hprofile.step hk (interpolate_step hnext)⟩

/-- A length that is negative, as four distances of 2^31 leave it: the first execution slows
down. -/
theorem rate_of_negative (h : m.started.motion.stepsRemaining < 0)
    (hs : interpolate m.started = some s) : s.motion.stepRateTicks = 101 := by
  have hrate := (interpolate_step hs).rate
  have hphase : m.started.motion.stepPhase = 0 := rfl
  have hticks : m.started.motion.stepRateTicks = 100 := rfl
  have haccel : m.started.motion.accelTicks = Int.tdiv m.started.motion.stepsRemaining 4 := rfl
  have hdecel : m.started.motion.decelStart =
      int32 (m.started.motion.stepsRemaining - m.started.motion.accelTicks) := rfl
  have hquarter : Int.tdiv m.started.motion.stepsRemaining 4 =
      -(-m.started.motion.stepsRemaining / 4) := by
    have hpos : 0 ≤ -m.started.motion.stepsRemaining := by omega
    have hneg := Int.neg_tdiv (-m.started.motion.stepsRemaining) 4
    rwa [neg_neg, Int.tdiv_eq_ediv_of_nonneg hpos] at hneg
  have hlow : -2 ^ 31 ≤ m.started.motion.stepsRemaining := by
    have hplanned : -2 ^ 31 ≤ m.planned .e := by
      simp only [PlannedMove.planned, absDelta]
      split_ifs
      · rw [int32]; omega
      · rw [int32]; omega
    rw [started_stepsRemaining]
    exact hplanned.trans (le_max_right _ _)
  rw [haccel, hquarter, int32_of_fits ⟨by omega, by omega⟩] at hdecel
  rw [rateInterpolate, hphase, hticks, haccel, hquarter, hdecel, if_neg (by omega),
    if_pos (by omega)] at hrate
  obtain ⟨-, hrate⟩ := signed32_eq_some.mp hrate
  omega

/-- The rate of a move is bounded exactly when the move has no steps. -/
theorem rateBounded_iff (m : PlannedMove) :
    RateBounded m ↔ m.started.motion.stepsRemaining = 0 := by
  constructor
  · intro hbounded
    by_contra hne
    rcases lt_or_gt_of_ne hne with hneg | hpos
    · obtain ⟨s, hs, -, hle, -⟩ := hbounded 1 fun k hk =>
        ⟨m.started, by rw [Nat.lt_one_iff.mp hk]; rfl, hne⟩
      have hrate := rate_of_negative hneg hs
      have hticks : m.started.motion.stepRateTicks = 100 := rfl
      omega
    · obtain ⟨n, hn⟩ := Int.eq_ofNat_of_zero_le hpos.le
      have hrun := profiled_of_rateBounded hbounded (by omega) hn
      obtain ⟨s, hs, -, hle, hback⟩ := hbounded n fun k hk => by
        obtain ⟨s, hs, hprofile⟩ := hrun k hk.le
        exact ⟨s, hs, by rw [hprofile.steps]; omega⟩
      obtain ⟨s', hs', hprofile⟩ := hrun n le_rfl
      obtain rfl := Option.some.inj (hs'.symm.trans hs)
      have hrate := hprofile.final_rate
      have hticks : m.started.motion.stepRateTicks = 100 := rfl
      have hend := hback (by rw [hprofile.steps, Nat.sub_self]; rfl)
      split_ifs at hrate <;> omega
  · intro hzero n hn
    cases n with
    | zero =>
      have hticks : m.started.motion.stepRateTicks = 100 := rfl
      exact ⟨m.started, rfl, by omega, le_rfl, fun _ => rfl⟩
    | succ n =>
      obtain ⟨s, hs, hsteps⟩ := hn 0 (Nat.succ_pos n)
      obtain rfl := Option.some.inj hs
      exact absurd hzero hsteps

/-- One step along x: the only execution slows down. -/
def oneStepMove : PlannedMove where
  stepper := stepperInitHal stepperZero
  target a := if a = .x then 1 else 0
  position_fits := stepperInitHal_position_fits
  target_fits a := by cases a <;> decide
  error_fits := stepperInitHal_error_fits
  difference_fits a := by cases a <;> decide

theorem one_step_ends_slow : ¬ ∀ m : PlannedMove, RateBounded m := by
  intro h
  obtain ⟨s, hs, -, hle, -⟩ := h oneStepMove 1 fun k hk =>
    ⟨oneStepMove.started, by rw [Nat.lt_one_iff.mp hk]; rfl, by decide⟩
  have hrate : (interpolations 1 oneStepMove.started).map (fun s => s.motion.stepRateTicks) =
      some 101 := by decide
  rw [hs] at hrate
  have hfast : s.motion.stepRateTicks ≤ 100 := hle
  have hslow : s.motion.stepRateTicks = 101 := Option.some.inj hrate
  omega

end PcbMill
