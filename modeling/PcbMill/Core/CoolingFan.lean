import PcbMill.Core.Motion

/-!
# The cooling fan of the stepper drivers (`steppers_enable_hal`, `tmc2209_tick`)

`stepper_cooling_fan_run_on_start` is both the second at which the steppers were disabled and,
by being positive, the sign that the fan is still to be switched off.  Enabling the steppers
does not take the sign back, and a second that is not positive as an `int32_t` never sets it.
-/

namespace PcbMill

open FixedWidth Run

/-- `TMC2209_Initialise_State`. -/
inductive Tmc2209InitialiseState where
  | begin | x | y | z | e | done
  deriving DecidableEq, Repr

/-- `STEPPER_COOLING_RUN_ON_TIME`. -/
def stepperCoolingRunOnTime : ℕ := 10

/-- PC6. -/
def fan0 : Pin := { port := .c, pos := 6 }

/-- The globals of `tmc2209.c` with the output pins. -/
structure Cooling where
  initState : Tmc2209InitialiseState
  stepperCoolingFanRunOnStart : ℤ
  prevSecondsCount : ℕ
  gpio : Levels

/-- `set_ena_X` and its siblings: a low level enables. -/
def setEna (p : AxisPins) (enable : Bool) (g : Levels) : Levels :=
  if enable then pinReset p.ena g else pinSet p.ena g

def steppersEnableHal (c : Cooling) (enable : Bool) (elapsedSeconds : ℕ) : Cooling :=
  let g := setEna xPins enable c.gpio
  let g := setEna yPins enable g
  let g := setEna zPins enable g
  let g := setEna ePins enable g
  if enable then { c with gpio := pinSet fan0 g }
  else { c with gpio := g, stepperCoolingFanRunOnStart := int32 elapsedSeconds }

/-- `tmc2209_state_initialise`, without the datagrams of `tmc2209_device_initialise`. -/
def tmc2209StateInitialise (c : Cooling) (elapsedSec : ℕ) : Cooling :=
  match c.initState with
  | .begin =>
    { c with prevSecondsCount := elapsedSec, stepperCoolingFanRunOnStart := 0, initState := .x }
  | .x => { c with initState := .y }
  | .y => { c with initState := .z }
  | .z => { c with initState := .e }
  | .e => { c with initState := .done }
  | .done => c

/-- The test of `tmc2209_tick`: a run-on is marked, and its time has passed. -/
def Cooling.Expired (c : Cooling) (elapsedSec : ℕ) : Prop :=
  0 < c.stepperCoolingFanRunOnStart ∧
    stepperCoolingRunOnTime ≤ sub32 elapsedSec c.stepperCoolingFanRunOnStart.toNat

instance (c : Cooling) (elapsedSec : ℕ) : Decidable (c.Expired elapsedSec) :=
  inferInstanceAs (Decidable (_ ∧ _))

def tmc2209Tick (c : Cooling) (elapsedSec : ℕ) : Cooling :=
  let c := if c.initState ≠ .done then tmc2209StateInitialise c elapsedSec else c
  if c.Expired elapsedSec then
    { c with stepperCoolingFanRunOnStart := 0, gpio := pinReset fan0 c.gpio }
  else c

def Cooling.fan (c : Cooling) : Bool := c.gpio fan0

/-- Some driver is powered. -/
def Cooling.enabled (c : Cooling) : Bool :=
  !c.gpio xPins.ena || !c.gpio yPins.ena || !c.gpio zPins.ena || !c.gpio ePins.ena

/-! ### Runs -/

inductive CoolingEvent where
  | enable (on : Bool) (elapsedSeconds : BitVec 32)
  | tick (elapsedSec : BitVec 32)

def CoolingEvent.seconds : CoolingEvent → ℕ
  | .enable _ t => t.toNat
  | .tick t => t.toNat

structure CoolingRun where
  cooling : Cooling
  /-- The second of the last event. -/
  now : ℕ
  /-- The second of the last disable, with the fan as it was then, unless the steppers were
  enabled after it. -/
  lastDisable : Option (ℕ × Bool)
  /-- The last event was a tick. -/
  ticked : Bool

def coolingStep (r : CoolingRun) (e : CoolingEvent) : CoolingRun :=
  { now := e.seconds
    cooling := match e with
      | .enable on t => steppersEnableHal r.cooling on t.toNat
      | .tick t => tmc2209Tick r.cooling t.toNat
    lastDisable := match e with
      | .enable true _ => none
      | .enable false t => some (t.toNat, r.cooling.fan)
      | .tick _ => r.lastDisable
    ticked := match e with
      | .tick _ => true
      | _ => false }

/-- The globals as they are initialised, the pins as `stepper_init_hal` leaves them. -/
def coolingStart : CoolingRun :=
  { cooling := { initState := .x, stepperCoolingFanRunOnStart := 0, prevSecondsCount := 0
                 gpio := (stepperInitHal stepperZero).gpio }
    now := 0, lastDisable := none, ticked := false }

/-- The elapsed seconds do not decrease. -/
def InOrder (r : CoolingRun) (e : CoolingEvent) : Prop := r.now ≤ e.seconds

instance (r : CoolingRun) (e : CoolingEvent) : Decidable (InOrder r e) :=
  inferInstanceAs (Decidable (_ ≤ _))

/-- The fan runs while a driver is powered and, if it ran when they were disabled, for the run-on
time after it; a tick after that time leaves it off. -/
structure CoolingRun.Cooled (r : CoolingRun) : Prop where
  powered : r.cooling.enabled = true → r.cooling.fan = true
  runOn : ∀ d, r.lastDisable = some (d, true) → r.now < d + stepperCoolingRunOnTime →
    r.cooling.fan = true
  off : ∀ d on, r.lastDisable = some (d, on) → r.ticked = true →
    d + stepperCoolingRunOnTime ≤ r.now → r.cooling.fan = false

/-- The condition on a tick, in the state before it: no run-on expires while the steppers are
enabled, and a fan that has to be switched off was left on in a second from 1 to 2^31 - 1. -/
def CoolingOk (r : CoolingRun) : CoolingEvent → Prop
  | .enable _ _ => True
  | .tick t => (r.cooling.enabled = true → ¬ r.cooling.Expired t.toNat) ∧
      ∀ d on, r.lastDisable = some (d, on) → d + stepperCoolingRunOnTime ≤ t.toNat →
        r.cooling.fan = true → 0 < d ∧ d < 2 ^ 31

/-! ### What the calls do -/

variable {c : Cooling} {r : CoolingRun}

theorem steppersEnableHal_true (c : Cooling) (t : ℕ) :
    (steppersEnableHal c true t).fan = true ∧
      (steppersEnableHal c true t).initState = c.initState := by
  constructor
  · simp [steppersEnableHal, Cooling.fan, pinSet]
  · simp [steppersEnableHal]

theorem steppersEnableHal_false (c : Cooling) (t : ℕ) :
    (steppersEnableHal c false t).fan = c.fan ∧ (steppersEnableHal c false t).enabled = false ∧
      (steppersEnableHal c false t).stepperCoolingFanRunOnStart = int32 t ∧
      (steppersEnableHal c false t).initState = c.initState := by
  refine ⟨?_, ?_, by simp [steppersEnableHal], by simp [steppersEnableHal]⟩
  · simp [steppersEnableHal, Cooling.fan, setEna, pinSet, fan0, xPins, yPins, zPins, ePins]
  · simp [steppersEnableHal, Cooling.enabled, setEna, pinSet, xPins, yPins, zPins, ePins]

/-- The drivers are initialised by states that leave the run-on alone, once the first is past. -/
theorem tmc2209StateInitialise_same (h : c.initState ≠ .begin) (t : ℕ) :
    (tmc2209StateInitialise c t).initState ≠ .begin ∧
      (tmc2209StateInitialise c t).stepperCoolingFanRunOnStart = c.stepperCoolingFanRunOnStart ∧
      (tmc2209StateInitialise c t).gpio = c.gpio := by
  rcases c with ⟨initState, start, seconds, gpio⟩
  cases initState with
  | begin => exact absurd rfl h
  | x => exact ⟨Tmc2209InitialiseState.noConfusion, rfl, rfl⟩
  | y => exact ⟨Tmc2209InitialiseState.noConfusion, rfl, rfl⟩
  | z => exact ⟨Tmc2209InitialiseState.noConfusion, rfl, rfl⟩
  | e => exact ⟨Tmc2209InitialiseState.noConfusion, rfl, rfl⟩
  | done => exact ⟨h, rfl, rfl⟩

/-- What a tick does after the initialisation of the drivers. -/
def Cooling.expire (c : Cooling) (elapsedSec : ℕ) : Cooling :=
  if c.Expired elapsedSec then
    { c with stepperCoolingFanRunOnStart := 0, gpio := pinReset fan0 c.gpio }
  else c

theorem tmc2209Tick_eq (c : Cooling) (t : ℕ) : tmc2209Tick c t =
    (if c.initState ≠ .done then tmc2209StateInitialise c t else c).expire t := rfl

theorem Cooling.expire_initState (c : Cooling) (t : ℕ) : (c.expire t).initState = c.initState := by
  rw [expire]
  split_ifs <;> rfl

theorem Cooling.expire_enabled (c : Cooling) (t : ℕ) : (c.expire t).enabled = c.enabled := by
  rw [expire]
  split_ifs
  · simp [enabled, pinReset, fan0, xPins, yPins, zPins, ePins]
  · rfl

/-- The fan goes off and the mark is taken back when the run-on has expired, and else both stay. -/
theorem Cooling.expire_cases (c : Cooling) (t : ℕ) :
    c.Expired t ∧ (c.expire t).fan = false ∧ (c.expire t).stepperCoolingFanRunOnStart = 0 ∨
      ¬ c.Expired t ∧ (c.expire t).fan = c.fan ∧
        (c.expire t).stepperCoolingFanRunOnStart = c.stepperCoolingFanRunOnStart := by
  rw [expire]
  split_ifs with hexpired
  · exact .inl ⟨hexpired, by simp [fan, pinReset], rfl⟩
  · exact .inr ⟨hexpired, rfl, rfl⟩

/-- The initialisation before it changes nothing of this. -/
theorem tmc2209Tick_expire (h : c.initState ≠ .begin) (t : ℕ) :
    ∃ c' : Cooling, tmc2209Tick c t = c'.expire t ∧ c'.initState ≠ .begin ∧
      c'.stepperCoolingFanRunOnStart = c.stepperCoolingFanRunOnStart ∧ c'.gpio = c.gpio := by
  rw [tmc2209Tick_eq]
  by_cases hdone : c.initState = .done
  · rw [if_neg (not_not.mpr hdone)]
    exact ⟨c, rfl, h, rfl, rfl⟩
  · rw [if_pos hdone]
    exact ⟨_, rfl, tmc2209StateInitialise_same h t⟩

/-- A tick switches the fan off and takes the mark back when the run-on has expired; else it
leaves both, and always the drivers. -/
theorem tmc2209Tick_cases (h : c.initState ≠ .begin) (t : ℕ) :
    (tmc2209Tick c t).initState ≠ .begin ∧ (tmc2209Tick c t).enabled = c.enabled ∧
      (c.Expired t ∧ (tmc2209Tick c t).fan = false ∧
          (tmc2209Tick c t).stepperCoolingFanRunOnStart = 0 ∨
        ¬ c.Expired t ∧ (tmc2209Tick c t).fan = c.fan ∧
          (tmc2209Tick c t).stepperCoolingFanRunOnStart = c.stepperCoolingFanRunOnStart) := by
  obtain ⟨c', htick, hinit, hstart, hgpio⟩ := tmc2209Tick_expire h t
  have hexpired : c'.Expired t ↔ c.Expired t := by rw [Cooling.Expired, hstart, Cooling.Expired]
  have henabled : c'.enabled = c.enabled := by rw [Cooling.enabled, hgpio, Cooling.enabled]
  have hfan : c'.fan = c.fan := by rw [Cooling.fan, hgpio, Cooling.fan]
  have hcases := c'.expire_cases t
  rw [hexpired, hfan, hstart] at hcases
  rw [htick, c'.expire_initState, c'.expire_enabled]
  exact ⟨hinit, henabled, hcases⟩

/-- A second is marked as a positive `int32_t` below 2^31 only, and then as itself. -/
theorem int32_pos_iff {d : ℕ} (hd : d < 2 ^ 32) : 0 < int32 d ↔ 0 < d ∧ d < 2 ^ 31 := by
  simp only [int32]
  omega

theorem int32_toNat {d : ℕ} (hd : d < 2 ^ 32) (hpos : 0 < int32 d) : (int32 d).toNat = d := by
  simp only [int32] at *
  omega

/-! ### What a run keeps -/

/-- While the steppers are disabled, the mark is the second of the disable, or it was taken back
when the fan was switched off. -/
structure CoolingSound (r : CoolingRun) : Prop where
  started : r.cooling.initState ≠ .begin
  powered : r.cooling.enabled = true → r.cooling.fan = true
  seconds : r.now < 2 ^ 32
  disabled : ∀ d on, r.lastDisable = some (d, on) → r.cooling.enabled = false ∧ d ≤ r.now ∧
    (r.cooling.stepperCoolingFanRunOnStart = int32 d ∧ (on = true → r.cooling.fan = true) ∨
      r.cooling.stepperCoolingFanRunOnStart = 0 ∧ r.cooling.fan = false ∧
        d + stepperCoolingRunOnTime ≤ r.now)
  off : ∀ d on, r.lastDisable = some (d, on) → r.ticked = true →
    d + stepperCoolingRunOnTime ≤ r.now → r.cooling.fan = false

theorem CoolingSound.cooled (h : CoolingSound r) : r.Cooled where
  powered := h.powered
  runOn := by
    intro d hd hnow
    obtain ⟨-, -, ⟨-, hon⟩ | ⟨-, -, hpast⟩⟩ := h.disabled d true hd
    · exact hon rfl
    · omega
  off := h.off

theorem CoolingSound.enable (h : CoolingSound r) (on : Bool) (t : BitVec 32) :
    CoolingSound (coolingStep r (.enable on t)) := by
  cases on with
  | true =>
    obtain ⟨hfan, hinit⟩ := steppersEnableHal_true r.cooling t.toNat
    exact ⟨fun heq => h.started (hinit.symm.trans heq), fun _ => hfan, t.isLt,
      fun d on hd => (by cases hd), fun d on hd => (by cases hd)⟩
  | false =>
    obtain ⟨hfan, hdisabled, hstart, hinit⟩ := steppersEnableHal_false r.cooling t.toNat
    refine ⟨fun heq => h.started (hinit.symm.trans heq), fun hen => ?_, t.isLt, ?_,
      fun d on _ hticked => by cases hticked⟩
    · cases hdisabled.symm.trans hen
    · rintro d on hd
      obtain ⟨rfl, rfl⟩ := Prod.mk.inj (Option.some.inj hd)
      exact ⟨hdisabled, le_rfl, .inl ⟨hstart, fun hon => hfan.trans hon⟩⟩

/-- A tick that meets its condition. -/
theorem CoolingSound.tick (h : CoolingSound r) {t : BitVec 32} (horder : r.now ≤ t.toNat)
    (hok : CoolingOk r (.tick t)) : CoolingSound (coolingStep r (.tick t)) := by
  obtain ⟨hkeep, hmarked⟩ := hok
  obtain ⟨hinit, henabled, hcases⟩ := tmc2209Tick_cases h.started t.toNat
  have ht := t.isLt
  rcases hcases with ⟨hexpired, hfan, hstart⟩ | ⟨hnot, hfan, hstart⟩
  · -- the fan goes off, so the drivers are not powered and the mark was that of the disable
    refine ⟨hinit, fun hen => ?_, ht, ?_, fun _ _ _ _ _ => hfan⟩
    · exact absurd hexpired (hkeep (henabled ▸ hen))
    · intro d on hd
      obtain ⟨hdisabled, hle, hmark⟩ := h.disabled d on hd
      have hpast := hexpired.2
      have hpositive := hexpired.1
      rcases hmark with ⟨hmark, -⟩ | ⟨hmark, -⟩
      · have hseconds := h.seconds
        rw [hmark] at hpast hpositive
        rw [int32_toNat (by omega) hpositive, sub32_of_le (by omega) ht] at hpast
        refine ⟨henabled.trans hdisabled, hle.trans horder, .inr ⟨hstart, hfan, ?_⟩⟩
        show d + stepperCoolingRunOnTime ≤ t.toNat
        omega
      · omega
  · refine ⟨hinit, fun hen => hfan.trans (h.powered (henabled ▸ hen)), ht, ?_, ?_⟩
    · intro d on hd
      obtain ⟨hdisabled, hle, hmark⟩ := h.disabled d on hd
      refine ⟨henabled.trans hdisabled, hle.trans horder, ?_⟩
      rcases hmark with ⟨hmark, hon⟩ | ⟨hmark, hoff, hpast⟩
      · exact .inl ⟨hstart.trans hmark, fun h' => hfan.trans (hon h')⟩
      · exact .inr ⟨hstart.trans hmark, hfan.trans hoff, hpast.trans horder⟩
    · -- a fan still on would have been marked, and its time passed
      intro d on hd _ hpast
      change d + stepperCoolingRunOnTime ≤ t.toNat at hpast
      show (tmc2209Tick r.cooling t.toNat).fan = false
      rw [hfan]
      by_contra hon
      rw [Bool.not_eq_false] at hon
      obtain ⟨-, hle, ⟨hmark, -⟩ | ⟨-, hoff, -⟩⟩ := h.disabled d on hd
      · have hseconds := h.seconds
        have hpositive := (int32_pos_iff (show d < 2 ^ 32 by omega)).mpr (hmarked d on hd hpast hon)
        apply hnot
        rw [Cooling.Expired, hmark, int32_toNat (by omega) hpositive, sub32_of_le (by omega) ht]
        exact ⟨hpositive, Nat.le_sub_of_add_le (by omega)⟩
      · cases hoff.symm.trans hon

/-- A tick that misses its condition switches the fan off under power, or leaves it on. -/
theorem CoolingSound.not_cooled (h : CoolingSound r) {t : BitVec 32}
    (hok : ¬ CoolingOk r (.tick t)) : ¬ (coolingStep r (.tick t)).Cooled := by
  intro hcooled
  obtain ⟨-, henabled, hcases⟩ := tmc2209Tick_cases h.started t.toNat
  refine hok ⟨fun hen hexpired => ?_, fun d on hd hpast hon => ?_⟩
  · have hfan := hcooled.powered (henabled.trans hen)
    rcases hcases with ⟨-, hoff, -⟩ | ⟨hnot, -⟩
    · cases hoff.symm.trans hfan
    · exact hnot hexpired
  · have hoff := hcooled.off d on hd rfl hpast
    rcases hcases with ⟨hexpired, -⟩ | ⟨-, hsame, -⟩
    · obtain ⟨-, hle, ⟨hmark, -⟩ | ⟨-, hfan, -⟩⟩ := h.disabled d on hd
      · have hseconds := h.seconds
        rw [Cooling.Expired, hmark] at hexpired
        exact (int32_pos_iff (by omega)).mp hexpired.1
      · cases hfan.symm.trans hon
    · cases hon.symm.trans (hsame.symm.trans hoff)

theorem coolingSound_start : CoolingSound coolingStart where
  started := Tmc2209InitialiseState.noConfusion
  powered := fun hen => absurd hen (by decide)
  seconds := by decide
  disabled := fun d on hd => by cases hd
  off := fun d on hd => by cases hd

/-- **The run-on law** holds throughout a run exactly when its ticks meet their conditions. -/
theorem fan_cools_iff (es : List CoolingEvent) (horder : Guarded coolingStep InOrder coolingStart es) :
    Always coolingStep CoolingRun.Cooled coolingStart es ↔
      Guarded coolingStep CoolingOk coolingStart es := by
  refine always_iff_guarded_within (I := CoolingSound) (fun _ h => h.cooled) ?_ ?_
    coolingSound_start horder
  · intro r e h ha hok
    cases e with
    | enable on t => exact h.enable on t
    | tick t => exact h.tick ha hok
  · intro r e h _ hok
    cases e with
    | enable on t => exact absurd trivial hok
    | tick t => exact h.not_cooled hok

/-- Enabled, disabled and left alone for the run-on time. -/
theorem fan_cools_iff_once :
    Always coolingStep CoolingRun.Cooled coolingStart
        [.enable true 5, .tick 6, .enable false 7, .tick 16, .tick 17] ↔
      Guarded coolingStep CoolingOk coolingStart
        [.enable true 5, .tick 6, .enable false 7, .tick 16, .tick 17] :=
  fan_cools_iff _ (by decide)

/-- Enabled again two seconds into the run-on: at its end the fan goes off under power. -/
theorem fan_off_while_enabled :
    ¬ ∀ es : List CoolingEvent, Guarded coolingStep InOrder coolingStart es →
      Always coolingStep CoolingRun.Cooled coolingStart es := by
  intro h
  have hcooled := (h [.enable true 5, .enable false 7, .enable true 9, .tick 17] (by decide)).last
  exact absurd (hcooled.powered (by decide)) (by decide)

end PcbMill
