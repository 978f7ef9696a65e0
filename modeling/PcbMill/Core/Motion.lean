import PcbMill.Lib.FixedWidth
import PcbMill.Lib.Run

/-!
# Stepper motion (`motion.c`, the pin functions of `stepper_hal.c`)

The output pins are kept as levels, so that what `stepper_interrupt` does to the STEP pins can
be compared with what it does to the positions.  The interpolation block of
`stepper_interrupt` stands behind an unconditional `return`: the function as compiled ends
with the pin toggling.
-/

namespace PcbMill

open FixedWidth

inductive Port where
  | a | b | c | d
  deriving DecidableEq, Repr

/-- A GPIO output pin. -/
structure Pin where
  port : Port
  pos : ℕ
  deriving DecidableEq, Repr

/-- The output level of every pin. -/
abbrev Levels := Pin → Bool

/-- `BSRR = bit`. -/
def pinSet (p : Pin) (g : Levels) : Levels := Function.update g p true

/-- `BSRR = bit << 16`. -/
def pinReset (p : Pin) (g : Levels) : Levels := Function.update g p false

/-- The pins behind an axis' function pointers. -/
structure AxisPins where
  step : Pin
  dir : Pin
  ena : Pin
  deriving DecidableEq, Repr

def stepHigh (p : AxisPins) (g : Levels) : Levels := pinSet p.step g

def stepLow (p : AxisPins) (g : Levels) : Levels := pinReset p.step g

def setDir (p : AxisPins) (dir : ℤ) (g : Levels) : Levels :=
  if 0 < dir then pinSet p.dir g else pinReset p.dir g

/-- `step_high_X` and its siblings. -/
def xPins : AxisPins := { step := ⟨.b, 13⟩, dir := ⟨.b, 12⟩, ena := ⟨.b, 14⟩ }
def yPins : AxisPins := { step := ⟨.b, 10⟩, dir := ⟨.b, 2⟩, ena := ⟨.b, 11⟩ }
def zPins : AxisPins := { step := ⟨.b, 0⟩, dir := ⟨.c, 5⟩, ena := ⟨.b, 1⟩ }
def ePins : AxisPins := { step := ⟨.b, 3⟩, dir := ⟨.b, 4⟩, ena := ⟨.d, 1⟩ }

/-- `Axis`.  `hal` stands for the function pointers, `none` for `NULL`. -/
structure Axis where
  curPos : ℤ
  tgtPos : ℤ
  delta : ℤ
  dir : ℤ
  error : ℤ
  stepActive : Bool
  hal : Option AxisPins
  deriving DecidableEq, Repr

/-- `MotionState`. -/
structure MotionState where
  x : Axis
  y : Axis
  z : Axis
  e : Axis
  stepsRemaining : ℤ
  stepRateTicks : ℤ
  tickCounter : ℤ
  accelTicks : ℤ
  decelStart : ℤ
  stepPhase : ℤ
  deriving DecidableEq, Repr

/-- The motion state with the output pins it drives. -/
structure Stepper where
  motion : MotionState
  gpio : Levels

def axisStepHigh (axis : Axis) (g : Levels) : Axis × Levels :=
  ({ axis with stepActive := true }, (axis.hal.map stepHigh).getD id g)

def axisStepLow (axis : Axis) (g : Levels) : Axis × Levels :=
  ({ axis with stepActive := false }, (axis.hal.map stepLow).getD id g)

/-- The toggling `stepper_interrupt` does for one axis. -/
def axisToggle (axis : Axis) (g : Levels) : Axis × Levels :=
  if axis.stepActive then axisStepLow axis g else axisStepHigh axis g

def stepperInterrupt (s : Stepper) : Stepper :=
  if s.motion.x.hal.isNone then s
  else
    let m := { s.motion with tickCounter := int32 (s.motion.tickCounter + 1) }
    if Int.tmod m.tickCounter 10 ≠ 0 then { s with motion := m }
    else
      let (x, g) := axisToggle m.x s.gpio
      let (y, g) := axisToggle m.y g
      let (z, g) := axisToggle m.z g
      let (e, g) := axisToggle m.e g
      { motion := { m with x := x, y := y, z := z, e := e }, gpio := g }

def initMotion (x y z a : ℤ) (s : Stepper) : Stepper :=
  { s with motion := { s.motion with
      x := { s.motion.x with curPos := x }
      y := { s.motion.y with curPos := y }
      z := { s.motion.z with curPos := z }
      e := { s.motion.e with curPos := a } } }

/-- `ABS(target - cur_pos)` in 32 bits. -/
def absDelta (target curPos : ℤ) : ℤ :=
  let d := int32 (target - curPos)
  if d < 0 then int32 (-d) else d

def startMotion (x y z a : ℤ) (s : Stepper) : Stepper :=
  let m := s.motion
  let dx := absDelta x m.x.curPos
  let dy := absDelta y m.y.curPos
  let dz := absDelta z m.z.curPos
  let de := absDelta a m.e.curPos
  let steps := dx
  let steps := if steps < dy then dy else steps
  let steps := if steps < dz then dz else steps
  let steps := if steps < de then de else steps
  let dirX : ℤ := if m.x.curPos ≤ x then 1 else -1
  let dirY : ℤ := if m.y.curPos ≤ y then 1 else -1
  let dirZ : ℤ := if m.z.curPos ≤ z then 1 else -1
  -- the source compares `z`, not `a`, with the position of the e axis
  let dirE : ℤ := if m.e.curPos ≤ z then 1 else -1
  let g := (m.x.hal.map fun p => setDir p dirX).getD id s.gpio
  let g := (m.y.hal.map fun p => setDir p dirY).getD id g
  let g := (m.z.hal.map fun p => setDir p dirZ).getD id g
  let g := (m.e.hal.map fun p => setDir p dirE).getD id g
  let accelTicks := Int.tdiv steps 4
  { motion :=
      { x := { m.x with delta := dx, tgtPos := x, error := 0, dir := dirX }
        y := { m.y with delta := dy, tgtPos := y, error := 0, dir := dirY }
        z := { m.z with delta := dz, tgtPos := z, error := 0, dir := dirZ }
        e := { m.e with delta := de, tgtPos := a, dir := dirE }
        stepsRemaining := steps
        accelTicks := accelTicks
        decelStart := int32 (steps - accelTicks)
        stepRateTicks := 100
        tickCounter := 0
        stepPhase := 0 }
    gpio := g }

/-- What `stepper_init_hal` does to one axis' pins: direction forward, disabled, STEP low. -/
def initPins (p : AxisPins) (g : Levels) : Levels :=
  pinReset p.step (pinSet p.ena (pinSet p.dir g))

def stepperInitHal (s : Stepper) : Stepper :=
  { motion := { s.motion with
      x := { s.motion.x with hal := some xPins }
      y := { s.motion.y with hal := some yPins }
      z := { s.motion.z with hal := some zPins }
      e := { s.motion.e with hal := some ePins } }
    gpio := initPins ePins (initPins zPins (initPins yPins (initPins xPins s.gpio))) }

/-- A zero-initialised `Axis`. -/
def axisZero : Axis :=
  { curPos := 0, tgtPos := 0, delta := 0, dir := 0, error := 0, stepActive := false, hal := none }

/-- The static `motion` before any call, with every pin low. -/
def stepperZero : Stepper :=
  { motion :=
      { x := axisZero, y := axisZero, z := axisZero, e := axisZero, stepsRemaining := 0
        stepRateTicks := 0, tickCounter := 0, accelTicks := 0, decelStart := 0, stepPhase := 0 }
    gpio := fun _ => false }

inductive MotionEvent where
  | init (x y z a : ℤ)
  | start (x y z a : ℤ)
  | tick
  deriving DecidableEq, Repr

def Stepper.apply (s : Stepper) : MotionEvent → Stepper
  | .init x y z a => initMotion x y z a s
  | .start x y z a => startMotion x y z a s
  | .tick => stepperInterrupt s

end PcbMill
