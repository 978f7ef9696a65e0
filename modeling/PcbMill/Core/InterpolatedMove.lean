import PcbMill.Core.Interpolation

/-!
# Moves by interpolation

A move is planned by `start_motion` and made by as many executions of the interpolation block as
it has steps.  The threshold of the executions shrinks with the steps that remain, so an axis
shorter than the longest by more than one step is stepped too often, and the sums of a long axis
grow with the square of its length.
-/

namespace PcbMill

open FixedWidth ShrinkingThreshold

/-- A call of `start_motion`: its values are those of `int32_t`, and so are the differences. -/
structure PlannedMove where
  stepper : Stepper
  target : AxisName → ℤ
  position_fits : ∀ a, Fits32 (stepper.motion.axis a).curPos
  target_fits : ∀ a, Fits32 (target a)
  error_fits : Fits32 stepper.motion.e.error
  difference_fits : ∀ a, Fits32 (target a - (stepper.motion.axis a).curPos)

namespace PlannedMove

variable (m : PlannedMove)

def position (a : AxisName) : ℤ := (m.stepper.motion.axis a).curPos

def started : Stepper :=
  startMotion (m.target .x) (m.target .y) (m.target .z) (m.target .e) m.stepper

/-- How many executions the move gets. -/
def executions : ℕ := m.started.motion.stepsRemaining.toNat

def distance (a : AxisName) : ℕ := (m.target a - m.position a).natAbs

/-- The longest distance. -/
def length : ℕ := max (max (m.distance .x) (m.distance .y)) (max (m.distance .z) (m.distance .e))

/-- The error an axis starts with: the e axis keeps that of the move before. -/
def seed : AxisName → ℤ
  | .e => m.stepper.motion.e.error
  | _ => 0

/-- The target an axis' direction is taken from: the e axis is given that of z. -/
def dirTarget : AxisName → ℤ
  | .x => m.target .x
  | .y => m.target .y
  | .z => m.target .z
  | .e => m.target .z

def plannedDir (a : AxisName) : ℤ := if m.position a ≤ m.dirTarget a then 1 else -1

end PlannedMove

/-- Positions after each of `n` executions that go from `start` to `target`: one step at most in
each, always towards the target, and as many as the distance. -/
structure AxisArrives (start target : ℤ) (n : ℕ) (p : ℕ → ℤ) : Prop where
  oneStep : ∀ k, k < n → p (k + 1) = p k ∨ p (k + 1) = p k + (target - start).sign
  count : ((Finset.range n).filter fun k => p (k + 1) ≠ p k).card = (target - start).natAbs
  arrives : p n = target

/-- The executions of the move are defined, and bring every axis to its target. -/
def MoveCorrect (m : PlannedMove) : Prop :=
  ∃ traj : ℕ → Stepper, traj 0 = m.started ∧
    (∀ k, k < m.executions → interpolate (traj k) = some (traj (k + 1))) ∧
    (∀ a, AxisArrives (m.position a) (m.target a) m.executions
      fun k => ((traj k).motion.axis a).curPos) ∧
    (∀ a, ((traj m.executions).motion.axis a).curPos =
      ((traj m.executions).motion.axis a).tgtPos) ∧
    (traj m.executions).motion.stepsRemaining = 0

/-- The condition on an axis of distance `d` in a move of length `n`, whose error starts at `e`:
it does not move; or its error, grown by `d` in each of the first `n - d` executions, is then not
negative and no more than `d`, and the last sum fits. -/
def AxisExact (d n : ℕ) (e : ℤ) : Prop :=
  d = 0 ∨ Exact d n e ∧ onArrival d n e + d.choose 2 + 1 < 2 ^ 31

/-- An axis whose error starts at zero comes out exact when it is at most one step shorter than
the move. -/
theorem exact_of_zero {d n : ℕ} (hd : 0 < d) : Exact d n 0 ↔ n ≤ d + 1 := by
  have harrive : onArrival d n 0 = ((n - d) * d : ℕ) := by
    rw [onArrival, zero_add, Nat.cast_mul]
  constructor
  · intro h
    by_contra hlong
    have hsilent := h.silent (by omega)
    rw [harrive, Nat.cast_le] at hsilent
    have hgrow : 2 * d ≤ (n - d) * d := Nat.mul_le_mul_right d (by omega)
    omega
  · intro hshort
    refine ⟨harrive ▸ Int.natCast_nonneg _, fun _ => ?_⟩
    rw [harrive, Nat.cast_le]
    exact (Nat.mul_le_mul_right d (by omega : n - d ≤ 1)).trans (Nat.one_mul d).le

/-! ### What `start_motion` plans -/

variable {m : PlannedMove}

theorem absDelta_lt (target curPos : ℤ) : absDelta target curPos < 2 ^ 31 := by
  have hint : ∀ v : ℤ, int32 v < 2 ^ 31 := fun v => by
    rw [int32]
    omega
  simp only [absDelta]
  split_ifs
  · exact hint _
  · exact hint _

theorem absDelta_of_fits {target curPos : ℤ} (h : Fits32 (target - curPos))
    (hsmall : (target - curPos).natAbs < 2 ^ 31) :
    absDelta target curPos = (target - curPos).natAbs := by
  simp only [absDelta, int32_of_fits h]
  split_ifs with hneg
  · rw [int32_of_fits ⟨by omega, by omega⟩]
    omega
  · omega

theorem started_axis (m : PlannedMove) (a : AxisName) :
    (m.started.motion.axis a).curPos = m.position a ∧
      (m.started.motion.axis a).tgtPos = m.target a ∧
      (m.started.motion.axis a).delta = absDelta (m.target a) (m.position a) ∧
      (m.started.motion.axis a).error = m.seed a ∧
      (m.started.motion.axis a).dir = m.plannedDir a := by
  cases a with
  | x => exact ⟨rfl, rfl, rfl, rfl, rfl⟩
  | y => exact ⟨rfl, rfl, rfl, rfl, rfl⟩
  | z => exact ⟨rfl, rfl, rfl, rfl, rfl⟩
  | e => exact ⟨rfl, rfl, rfl, rfl, rfl⟩

/-- The planned distance of an axis. -/
def PlannedMove.planned (m : PlannedMove) (a : AxisName) : ℤ := absDelta (m.target a) (m.position a)

theorem started_stepsRemaining (m : PlannedMove) : m.started.motion.stepsRemaining =
    max (max (max (m.planned .x) (m.planned .y)) (m.planned .z)) (m.planned .e) := by
  simp only [max_def_lt]
  rfl

theorem executions_lt (m : PlannedMove) : m.executions < 2 ^ 31 := by
  have hsteps : m.started.motion.stepsRemaining < 2 ^ 31 := by
    rw [started_stepsRemaining]
    exact max_lt (max_lt (max_lt (absDelta_lt _ _) (absDelta_lt _ _)) (absDelta_lt _ _))
      (absDelta_lt _ _)
  rw [PlannedMove.executions]
  omega

theorem distance_le_length (m : PlannedMove) (a : AxisName) : m.distance a ≤ m.length := by
  cases a with
  | x => exact (le_max_left _ _).trans (le_max_left _ _)
  | y => exact (le_max_right _ _).trans (le_max_left _ _)
  | z => exact (le_max_left _ _).trans (le_max_right _ _)
  | e => exact (le_max_right _ _).trans (le_max_right _ _)

theorem exists_distance_eq_length (m : PlannedMove) : ∃ a, m.distance a = m.length := by
  rw [PlannedMove.length]
  rcases max_choice (max (m.distance .x) (m.distance .y)) (max (m.distance .z) (m.distance .e))
    with h | h
  · rw [h]
    rcases max_choice (m.distance .x) (m.distance .y) with h | h
    · exact ⟨.x, h.symm⟩
    · exact ⟨.y, h.symm⟩
  · rw [h]
    rcases max_choice (m.distance .z) (m.distance .e) with h | h
    · exact ⟨.z, h.symm⟩
    · exact ⟨.e, h.symm⟩

theorem planned_eq (h : ∀ a, m.distance a < 2 ^ 31) (a : AxisName) :
    m.planned a = m.distance a :=
  absDelta_of_fits (m.difference_fits a) (h a)

/-- The length is planned as it is when no distance is 2^31. -/
theorem started_length (h : ∀ a, m.distance a < 2 ^ 31) :
    m.started.motion.stepsRemaining = m.length := by
  rw [started_stepsRemaining, planned_eq h, planned_eq h, planned_eq h, planned_eq h,
    PlannedMove.length]
  push_cast
  rw [max_assoc (max (m.distance .x : ℤ) (m.distance .y))]

theorem executions_eq (h : ∀ a, m.distance a < 2 ^ 31) : m.executions = m.length := by
  rw [PlannedMove.executions, started_length h, Int.toNat_natCast]

/-! ### What the executions do -/

namespace PlannedMove

/-- How many steps an axis has made after `k` executions. -/
def made (m : PlannedMove) (a : AxisName) (k : ℕ) : ℕ :=
  if m.distance a = 0 then 0 else fired (m.distance a) m.length (m.seed a) k

end PlannedMove

/-- The state after `k` executions. -/
structure Underway (m : PlannedMove) (k : ℕ) (s : Stepper) : Prop where
  steps : s.motion.stepsRemaining = (m.length - k : ℕ)
  phase : s.motion.stepPhase = k
  delta : ∀ a, (s.motion.axis a).delta = m.distance a
  dir : ∀ a, (s.motion.axis a).dir = m.plannedDir a
  tgtPos : ∀ a, (s.motion.axis a).tgtPos = m.target a
  error : ∀ a, m.distance a ≠ 0 →
    (s.motion.axis a).error = acc (m.distance a) m.length (m.seed a) k
  curPos : ∀ a, (s.motion.axis a).curPos = m.position a + m.plannedDir a * m.made a k

variable {k : ℕ} {s s' : Stepper} {a : AxisName}

theorem underway_started (h : ∀ a, m.distance a < 2 ^ 31) : Underway m 0 m.started where
  steps := started_length h
  phase := rfl
  delta a := (started_axis m a).2.2.1.trans (planned_eq h a)
  dir a := (started_axis m a).2.2.2.2
  tgtPos a := (started_axis m a).2.1
  error a _ := (started_axis m a).2.2.2.1
  curPos a := by
    have hmade : m.made a 0 = 0 := by
      simp only [PlannedMove.made, fired, ite_self]
    rw [(started_axis m a).1, hmade, Nat.cast_zero, mul_zero, add_zero]

theorem Underway.delta_ne_zero (h : Underway m k s) (hne : m.distance a ≠ 0) :
    (s.motion.axis a).delta ≠ 0 := by
  rw [h.delta]
  exact_mod_cast hne

/-- An execution steps an axis in the rounds that fire. -/
theorem Underway.reached_iff (h : Underway m k s) (hne : m.distance a ≠ 0) :
    s.motion.stepsRemaining ≤ (s.motion.axis a).error + (s.motion.axis a).delta ↔
      Fires (m.distance a) m.length (m.seed a) k := by
  rw [h.steps, h.error a hne, h.delta]
  exact Iff.rfl

theorem Underway.error_step (h : Underway m k s) (hstep : MotionStep s.motion s'.motion)
    (hne : m.distance a ≠ 0) :
    (s'.motion.axis a).error = acc (m.distance a) m.length (m.seed a) (k + 1) := by
  have hdelta := h.delta_ne_zero hne
  by_cases hf : Fires (m.distance a) m.length (m.seed a) k
  · have hreached := (h.reached_iff hne).mpr hf
    rw [((hstep.axis a).moved hdelta hreached).1, acc_succ_of_fires hf, h.error a hne, h.delta,
      h.steps]
  · have hshort := not_le.mp (mt (h.reached_iff hne).mp hf)
    rw [((hstep.axis a).waited hdelta hshort).1, acc_succ_of_not_fires hf, h.error a hne, h.delta]

theorem Underway.curPos_step (h : Underway m k s) (hstep : MotionStep s.motion s'.motion)
    (a : AxisName) :
    (s'.motion.axis a).curPos = m.position a + m.plannedDir a * m.made a (k + 1) := by
  have hcur := h.curPos a
  by_cases hne : m.distance a = 0
  · have hdelta : (s.motion.axis a).delta = 0 := by
      rw [h.delta, hne]
      rfl
    simp only [PlannedMove.made, if_pos hne] at hcur ⊢
    rw [((hstep.axis a).still hdelta).2, hcur]
  · have hdelta := h.delta_ne_zero hne
    simp only [PlannedMove.made, if_neg hne] at hcur ⊢
    by_cases hf : Fires (m.distance a) m.length (m.seed a) k
    · have hreached := (h.reached_iff hne).mpr hf
      rw [((hstep.axis a).moved hdelta hreached).2, fired_succ_of_fires hf, hcur, h.dir]
      push_cast
      ring
    · have hshort := not_le.mp (mt (h.reached_iff hne).mp hf)
      rw [((hstep.axis a).waited hdelta hshort).2, fired_succ_of_not_fires hf, hcur]

/-- What one execution keeps. -/
theorem Underway.step (h : Underway m k s) (hk : k < m.length)
    (hstep : MotionStep s.motion s'.motion) : Underway m (k + 1) s' where
  steps := by
    rw [hstep.stepsRemaining, h.steps]
    omega
  phase := by
    rw [hstep.stepPhase, h.phase]
    rfl
  delta a := (hstep.axis a).delta.trans (h.delta a)
  dir a := (hstep.axis a).dir.trans (h.dir a)
  tgtPos a := (hstep.axis a).tgtPos.trans (h.tgtPos a)
  error _ hne := h.error_step hstep hne
  curPos a := h.curPos_step hstep a

/-- The run of the executions. -/
theorem underway_trajectory {traj : ℕ → Stepper} {n : ℕ} (h : ∀ a, m.distance a < 2 ^ 31)
    (hstart : traj 0 = m.started) (hn : n ≤ m.length)
    (htraj : ∀ k, k < n → interpolate (traj k) = some (traj (k + 1))) :
    ∀ k, k ≤ n → Underway m k (traj k) := by
  intro k
  induction k with
  | zero => exact fun _ => hstart ▸ underway_started h
  | succ k ih =>
    intro hk
    exact (ih (by omega)).step (by omega) (interpolate_step (htraj k (by omega)))

/-! ### A correct move meets the condition -/

/-- The condition on a move: each axis comes out exact, and the e axis, if it moves, lies on the
same side of the target of z as of its own. -/
structure MoveOk (m : PlannedMove) : Prop where
  axes : ∀ a, AxisExact (m.distance a) m.length (m.seed a)
  eDir : m.distance .e ≠ 0 → (m.position .e ≤ m.target .z ↔ m.position .e ≤ m.target .e)

theorem natAbs_plannedDir (m : PlannedMove) (a : AxisName) : (m.plannedDir a).natAbs = 1 := by
  rw [PlannedMove.plannedDir]
  split_ifs <;> rfl

/-- The direction towards the target. -/
theorem sign_eq (h : m.distance a ≠ 0) :
    (m.target a - m.position a).sign = if m.position a ≤ m.target a then 1 else -1 := by
  rw [PlannedMove.distance] at h
  split_ifs with hle
  · exact Int.sign_eq_one_of_pos (by omega)
  · exact Int.sign_eq_neg_one_of_neg (by omega)

/-- Three axes are given the direction of their target, the e axis if z's target agrees. -/
theorem plannedDir_eq_sign (h : m.distance a ≠ 0)
    (he : a = .e → (m.position .e ≤ m.target .z ↔ m.position .e ≤ m.target .e)) :
    m.plannedDir a = (m.target a - m.position a).sign := by
  rw [sign_eq h, PlannedMove.plannedDir]
  cases a with
  | x => rfl
  | y => rfl
  | z => rfl
  | e => simp only [PlannedMove.dirTarget, he rfl]

/-- An axis that the executions bring to its target has made as many steps as its distance, in
the right direction. -/
theorem fired_of_arrives (h : Underway m m.length s) (hne : m.distance a ≠ 0)
    (harrives : (s.motion.axis a).curPos = m.target a) :
    fired (m.distance a) m.length (m.seed a) m.length = m.distance a ∧
      m.plannedDir a = (m.target a - m.position a).sign := by
  have hcur := h.curPos a
  rw [harrives, PlannedMove.made, if_neg hne] at hcur
  have hdiff : m.target a - m.position a =
      m.plannedDir a * fired (m.distance a) m.length (m.seed a) m.length := by omega
  have hfired : fired (m.distance a) m.length (m.seed a) m.length = m.distance a := by
    have habs : m.distance a =
        (m.plannedDir a * fired (m.distance a) m.length (m.seed a) m.length).natAbs := by
      rw [← hdiff, PlannedMove.distance]
    rw [Int.natAbs_mul, natAbs_plannedDir, one_mul, Int.natAbs_natCast] at habs
    exact habs.symm
  refine ⟨hfired, ?_⟩
  rw [hdiff, hfired, Int.sign_mul, Int.sign_eq_one_of_pos (by omega : (0 : ℤ) < m.distance a),
    mul_one, PlannedMove.plannedDir]
  split_ifs <;> rfl

theorem moveOk_of_moveCorrect (h : MoveCorrect m) : MoveOk m := by
  obtain ⟨traj, hstart, htraj, haxes, -, -⟩ := h
  -- an axis makes at most one step in an execution, so no distance is 2^31
  have hdist : ∀ a, m.distance a < 2 ^ 31 := by
    intro a
    have hcount := (haxes a).count
    have hle := Finset.card_filter_le (Finset.range m.executions)
      fun k => ((traj (k + 1)).motion.axis a).curPos ≠ ((traj k).motion.axis a).curPos
    rw [hcount, Finset.card_range] at hle
    exact lt_of_le_of_lt hle (executions_lt m)
  have hexec := executions_eq hdist
  rw [hexec] at htraj haxes
  have hunder := underway_trajectory hdist hstart le_rfl htraj
  have hend : ∀ a, m.distance a ≠ 0 →
      fired (m.distance a) m.length (m.seed a) m.length = m.distance a ∧
        m.plannedDir a = (m.target a - m.position a).sign := fun a hne =>
    fired_of_arrives (hunder m.length le_rfl) hne (haxes a).arrives
  constructor
  · intro a
    by_cases hne : m.distance a = 0
    · exact .inl hne
    · have hpos := Nat.pos_of_ne_zero hne
      have hexact := (fired_eq_iff hpos (distance_le_length m a)).mp (hend a hne).1
      have hsums : ∀ k, k < m.length →
          acc (m.distance a) m.length (m.seed a) k + m.distance a ≤ 2 ^ 31 - 1 := by
        intro k hk
        have hstep := (interpolate_step (htraj k hk)).axis a
        have hstate := hunder k hk.le
        have hfits := hstep.sum (by rw [hstate.delta]; exact_mod_cast hne)
        rw [hstate.error a hne, hstate.delta] at hfits
        have := hfits.2
        omega
      have hlast := (sums_le_iff hpos (distance_le_length m a) hexact _).mp hsums
      exact .inr ⟨hexact, by omega⟩
  · intro hne
    have hdir := (hend .e hne).2
    rw [sign_eq hne, PlannedMove.plannedDir, PlannedMove.dirTarget] at hdir
    constructor
    · intro hz
      by_contra he
      rw [if_pos hz, if_neg he] at hdir
      exact absurd hdir (by decide)
    · intro he
      by_contra hz
      rw [if_neg hz, if_pos he] at hdir
      exact absurd hdir (by decide)

/-! ### A move that meets the condition is correct -/

/-- No axis of such a move has more than 65536 steps. -/
theorem MoveOk.distance_le (h : MoveOk m) (a : AxisName) : m.distance a ≤ 65536 := by
  rcases h.axes a with hzero | ⟨hexact, hbound⟩
  · omega
  · by_contra hlong
    have hmono : Nat.choose 65537 2 ≤ (m.distance a).choose 2 :=
      Nat.choose_le_choose 2 (by omega)
    rw [Nat.choose_two_right 65537] at hmono
    have := hexact.nonneg
    omega

theorem MoveOk.length_le (h : MoveOk m) : m.length ≤ 65536 := by
  obtain ⟨a, ha⟩ := exists_distance_eq_length m
  exact ha ▸ h.distance_le a

theorem MoveOk.plannedDir (h : MoveOk m) (hne : m.distance a ≠ 0) :
    m.plannedDir a = (m.target a - m.position a).sign :=
  plannedDir_eq_sign hne fun ha => h.eDir (ha ▸ hne)

theorem made_succ (m : PlannedMove) (a : AxisName) (k : ℕ) :
    m.made a (k + 1) = m.made a k ∨ m.made a (k + 1) = m.made a k + 1 := by
  simp only [PlannedMove.made, fired]
  split_ifs
  · exact .inl rfl
  · exact .inr rfl
  · exact .inl rfl

theorem MoveOk.made_length (h : MoveOk m) (a : AxisName) : m.made a m.length = m.distance a := by
  rw [PlannedMove.made]
  split_ifs with hne
  · exact hne.symm
  · obtain ⟨hexact, -⟩ := (h.axes a).resolve_left hne
    exact (fired_eq_iff (Nat.pos_of_ne_zero hne) (distance_le_length m a)).mpr hexact

theorem MoveOk.made_le (h : MoveOk m) (a : AxisName) {k : ℕ} (hk : k ≤ m.length) :
    m.made a k ≤ m.distance a := by
  rw [← h.made_length a, PlannedMove.made, PlannedMove.made]
  split_ifs
  · exact le_rfl
  · exact fired_mono hk

/-- The positions on the way fit. -/
theorem MoveOk.position_fits (h : MoveOk m) (hne : m.distance a ≠ 0) {j : ℕ}
    (hj : j ≤ m.distance a) : Fits32 (m.position a + m.plannedDir a * j) := by
  obtain ⟨hplo, hphi⟩ : Fits32 (m.position a) := m.position_fits a
  obtain ⟨htlo, hthi⟩ := m.target_fits a
  rw [h.plannedDir hne, sign_eq hne]
  rw [PlannedMove.distance] at hj
  constructor
  · split_ifs <;> omega
  · split_ifs <;> omega

theorem seed_fits (m : PlannedMove) (a : AxisName) : Fits32 (m.seed a) := by
  have hzero : Fits32 0 := ⟨by decide, by decide⟩
  cases a with
  | x => exact hzero
  | y => exact hzero
  | z => exact hzero
  | e => exact m.error_fits

/-- The rate changes by one tick at most. -/
theorem rateInterpolate_cases {motion : MotionState} {phase rate : ℤ}
    (h : rateInterpolate motion phase = some rate) :
    motion.stepRateTicks - 1 ≤ rate ∧ rate ≤ motion.stepRateTicks + 1 := by
  simp only [rateInterpolate] at h
  split_ifs at h
  · obtain ⟨-, rfl⟩ := signed32_eq_some.mp h
    omega
  · obtain ⟨-, rfl⟩ := signed32_eq_some.mp h
    omega
  · cases h
    omega

/-- No sum is too large, as the last one is not. -/
theorem MoveOk.sum_fits (h : MoveOk m) (hne : m.distance a ≠ 0) (hk : k < m.length) :
    Fits32 (acc (m.distance a) m.length (m.seed a) k + m.distance a) := by
  obtain ⟨hexact, hbound⟩ := (h.axes a).resolve_left hne
  have hsum := (sums_le_iff (Nat.pos_of_ne_zero hne) (distance_le_length m a) hexact
    (2 ^ 31 - 1)).mpr (by omega) k hk
  have hlow := le_acc (d := m.distance a) (n := m.length) (e := m.seed a) k
  have hseed := (seed_fits m a).1
  exact ⟨by omega, by omega⟩

/-- The next execution is defined. -/
theorem MoveOk.interpolate_defined (h : MoveOk m) (hunder : Underway m k s) (hk : k < m.length)
    (hrate : 100 - k ≤ s.motion.stepRateTicks ∧ s.motion.stepRateTicks ≤ 100 + k) :
    ∃ s', interpolate s = some s' := by
  have hlength := h.length_le
  refine PcbMill.interpolate_defined (fun a g => axisInterpolate_defined (fun hdelta => ?_)
    (fun hdelta hreached => ?_) g) ?_ ?_ ?_ ?_
  · rw [hunder.delta] at hdelta
    have hne : m.distance a ≠ 0 := by exact_mod_cast hdelta
    rw [hunder.error a hne, hunder.delta]
    exact h.sum_fits hne hk
  · rw [hunder.delta] at hdelta
    have hne : m.distance a ≠ 0 := by exact_mod_cast hdelta
    obtain ⟨-, hsum⟩ := h.sum_fits hne hk
    rw [hunder.error a hne, hunder.delta, hunder.steps] at hreached ⊢
    refine ⟨⟨by omega, by omega⟩, ?_⟩
    -- the axis has not made all its steps, as it is about to make one more
    have hmade : m.made a (k + 1) = m.made a k + 1 := by
      simp only [PlannedMove.made, if_neg hne]
      exact fired_succ_of_fires hreached
    have hle := h.made_le a (Nat.succ_le_of_lt hk)
    rw [Nat.succ_eq_add_one, hmade] at hle
    have hfits := h.position_fits hne hle
    rw [hunder.curPos, hunder.dir, add_assoc]
    rwa [Nat.cast_add, Nat.cast_one, mul_add, mul_one] at hfits
  · rw [hunder.phase]
    exact ⟨by omega, by omega⟩
  · rw [hunder.steps]
    exact ⟨by omega, by omega⟩
  · exact ⟨by omega, by omega⟩
  · exact ⟨by omega, by omega⟩

/-- The run of a move that meets the condition. -/
theorem MoveOk.interpolations (h : MoveOk m) : ∀ k, k ≤ m.length →
    ∃ s, interpolations k m.started = some s ∧ Underway m k s ∧
      100 - k ≤ s.motion.stepRateTicks ∧ s.motion.stepRateTicks ≤ 100 + k := by
  intro k
  induction k with
  | zero =>
    intro _
    have hdist : ∀ a, m.distance a < 2 ^ 31 := fun a => by
      have := h.distance_le a
      omega
    have hrate : m.started.motion.stepRateTicks = 100 := rfl
    exact ⟨m.started, rfl, underway_started hdist, by rw [hrate]; decide, by rw [hrate]; decide⟩
  | succ k ih =>
    intro hk
    obtain ⟨s, hs, hunder, hrate⟩ := ih (by omega)
    obtain ⟨s', hs'⟩ := h.interpolate_defined hunder (by omega) hrate
    have hstep := interpolate_step hs'
    have hnext := rateInterpolate_cases hstep.rate
    refine ⟨s', ?_, hunder.step (by omega) hstep, ?_, ?_⟩
    · rw [PcbMill.interpolations, hs]
      exact hs'
    · push_cast
      omega
    · push_cast
      omega

/-- A count that grows by one at most grows as often as it says. -/
theorem card_filter_growth {f : ℕ → ℕ} (hzero : f 0 = 0)
    (hstep : ∀ k, f (k + 1) = f k ∨ f (k + 1) = f k + 1) (n : ℕ) :
    ((Finset.range n).filter fun k => f (k + 1) ≠ f k).card = f n := by
  induction n with
  | zero => simp [hzero]
  | succ n ih =>
    rw [Finset.range_add_one, Finset.filter_insert]
    rcases hstep n with h | h
    · rw [if_neg (not_not.mpr h), ih, h]
    · rw [if_pos (by omega), Finset.card_insert_of_notMem (by simp), ih, h]

theorem MoveOk.axisArrives (h : MoveOk m) {p : ℕ → ℤ}
    (hp : ∀ k, k ≤ m.length → p k = m.position a + m.plannedDir a * m.made a k) :
    AxisArrives (m.position a) (m.target a) m.length p := by
  have hdir : (m.plannedDir a).natAbs = 1 := natAbs_plannedDir m a
  have hdiff : m.plannedDir a * m.distance a = m.target a - m.position a := by
    by_cases hne : m.distance a = 0
    · rw [hne]
      rw [PlannedMove.distance] at hne
      omega
    · rw [h.plannedDir hne]
      exact Int.sign_mul_natAbs _
  refine ⟨fun k hk => ?_, ?_, ?_⟩
  · rw [hp k hk.le, hp (k + 1) hk]
    rcases made_succ m a k with hsame | hmore
    · exact .inl (by rw [hsame])
    · have hle := h.made_le a (Nat.succ_le_of_lt hk)
      rw [Nat.succ_eq_add_one, hmore] at hle
      have hne : m.distance a ≠ 0 := by omega
      right
      rw [hmore, ← h.plannedDir hne]
      push_cast
      ring
  · have hzero : m.made a 0 = 0 := by
      simp only [PlannedMove.made, fired, ite_self]
    have hcongr : ((Finset.range m.length).filter fun k => p (k + 1) ≠ p k) =
        (Finset.range m.length).filter fun k => m.made a (k + 1) ≠ m.made a k := by
      apply Finset.filter_congr
      intro k hk
      have hk := Finset.mem_range.mp hk
      rw [hp k hk.le, hp (k + 1) hk, not_iff_not]
      constructor
      · intro heq
        have hmul := add_left_cancel heq
        have hne : m.plannedDir a ≠ 0 := by
          intro hz
          rw [hz] at hdir
          exact absurd hdir (by decide)
        exact_mod_cast mul_left_cancel₀ hne hmul
      · intro heq
        rw [heq]
    rw [hcongr, card_filter_growth hzero (made_succ m a), h.made_length]
    rfl
  · rw [hp m.length le_rfl, h.made_length, hdiff]
    ring

theorem moveCorrect_of_moveOk (h : MoveOk m) : MoveCorrect m := by
  have hdist : ∀ a, m.distance a < 2 ^ 31 := fun a => by
    have := h.distance_le a
    omega
  have hexec := executions_eq hdist
  let traj : ℕ → Stepper := fun k => (PcbMill.interpolations k m.started).getD m.started
  have htraj : ∀ k, k ≤ m.length → PcbMill.interpolations k m.started = some (traj k) ∧
      Underway m k (traj k) := by
    intro k hk
    obtain ⟨s, hs, hunder, -⟩ := h.interpolations k hk
    have heq : traj k = s := by
      show (PcbMill.interpolations k m.started).getD m.started = s
      rw [hs]
      rfl
    rw [heq]
    exact ⟨hs, hunder⟩
  have harrives : ∀ a, AxisArrives (m.position a) (m.target a) m.length
      fun k => ((traj k).motion.axis a).curPos := fun a =>
    h.axisArrives fun k hk => (htraj k hk).2.curPos a
  rw [MoveCorrect, hexec]
  refine ⟨traj, rfl, fun k hk => ?_, harrives, fun a => ?_, ?_⟩
  · have hsucc := (htraj (k + 1) hk).1
    rwa [PcbMill.interpolations, (htraj k hk.le).1] at hsucc
  · rw [(htraj m.length le_rfl).2.tgtPos a]
    exact (harrives a).arrives
  · rw [(htraj m.length le_rfl).2.steps, Nat.sub_self]
    rfl

/-- A move is made correctly exactly when each axis comes out exact and the e axis is given the
direction of its target. -/
theorem moveCorrect_iff (m : PlannedMove) : MoveCorrect m ↔ MoveOk m :=
  ⟨moveOk_of_moveCorrect, moveCorrect_of_moveOk⟩

theorem stepperInitHal_position_fits (a : AxisName) :
    Fits32 ((stepperInitHal stepperZero).motion.axis a).curPos := by
  cases a <;> decide

theorem stepperInitHal_error_fits : Fits32 (stepperInitHal stepperZero).motion.e.error := by
  decide

/-- Three steps along x and one along y. -/
def shortMove : PlannedMove where
  stepper := stepperInitHal stepperZero
  target
    | .x => 3
    | .y => 1
    | .z => 0
    | .e => 0
  position_fits := stepperInitHal_position_fits
  target_fits a := by cases a <;> decide
  error_fits := stepperInitHal_error_fits
  difference_fits a := by cases a <;> decide

/-- The y axis of that move makes two steps. -/
theorem short_axis_oversteps : ¬ ∀ m : PlannedMove, MoveCorrect m := by
  intro h
  obtain ⟨traj, hstart, htraj, haxes, -, -⟩ := h shortMove
  have hrun := interpolations_of_trajectory htraj
  have harrives : ((traj shortMove.executions).motion.axis .y).curPos = 1 := (haxes .y).arrives
  have hpos : (interpolations shortMove.executions (traj 0)).map
      (fun s => s.motion.y.curPos) = some 2 := by
    rw [hstart]
    decide
  rw [hrun] at hpos
  have htwo : ((traj shortMove.executions).motion.axis .y).curPos = 2 := Option.some.inj hpos
  omega

end PcbMill
