import PcbMill.GrblOriginal.Planner
import PcbMill.Lib.Binary32
import PcbMill.Lib.LineTracer

/-!
# The stepper and its segment buffer

`st_prep_buffer` cuts the blocks of the planner into segments, which a ring carries to the stepper
interrupt.  A segment says of how many ticks it is and which block it belongs to; what the
interrupt needs of the blocks is copied into `st_block_buffer`, which has a place less than the
ring.  The interrupt takes a new value of `st_block_index` for a new block.

The interrupt comes between any two steps of the main program: the test of the loop of
`st_prep_buffer`, the loading of a block, the filling of a segment, its publication and what
follows it are steps of their own.  The velocity profile is calculated with `float`s.  What comes
out of it is part of the step: `BlockNumbers` when a block is loaded, `SegmentNumbers` when a
segment is filled.  The steps that remain of a block are a `float` as well, and rounded as one.
-/

namespace PcbMill

open FixedWidth RingBuffer LineTracer

def segmentBufferSize : ℕ := 6

def maxAmassLevel : ℕ := 3

/-! ### States and flags of the system -/

def stateHoming : Byte := 0x04#8
def stateHold : Byte := 0x10#8
def stateSafetyDoor : Byte := 0x20#8
def stateMotionCancel : Byte := 0x40#8

def execCycleStop : Byte := 0x04#8

/-- `st_block_t` -/
structure StBlock where
  directionBits : Byte
  steps : AxisIndex → ℕ
  stepEventCount : ℕ
  deriving Inhabited

/-- `segment_t` -/
structure StSegment where
  nStep : ℕ
  stBlockIndex : ℕ
  cyclesPerTick : ℕ
  amassLevel : ℕ
  deriving Inhabited

/-- `stepper_t`.  The pointers are indices into the buffers. -/
structure StIsr where
  counter : AxisIndex → ℕ
  steps : AxisIndex → ℕ
  stepOutbits : Byte
  dirOutbits : Byte
  stepCount : ℕ
  execBlockIndex : ℕ
  execBlock : Option ℕ
  execSegment : Option ℕ
  deriving Inhabited

/-- The speeds `st_prep_buffer` finds when it takes up a block. -/
structure BlockNumbers (α : Type*) where
  currentSpeed : α
  exitSpeed : α

/-- Where the velocity profile is after a segment. -/
inductive SegmentEnd where
  | blockIncomplete
  | forcedTermination
  | blockComplete
  deriving DecidableEq

/-- What the velocity profile gives for a segment: the steps that remain of the block, rounded up,
the time of a step, and the state of the block behind the segment. -/
structure SegmentNumbers (α : Type*) where
  nStepsRemaining : ℕ
  cycles : ℕ
  currentSpeed : α
  millimeters : α
  outcome : SegmentEnd

/-- Where the main program is: outside of `st_prep_buffer`, or before a statement of it. -/
inductive PrepPc (α : Type*) where
  | idle
  | test
  | load
  | segment
  | publish (r : SegmentNumbers α)
  | finish (r : SegmentNumbers α)
  deriving Inhabited

/-- The variables of `stepper.c`, with those of the planner and of the system it works on.
`prepStepsRemaining` is `prep.steps_remaining` rounded up, as the segments are cut. -/
structure StepperSystem (α : Type*) where
  planner : Planner α
  stBlockBuffer : ℕ → StBlock
  segmentBuffer : ℕ → StSegment
  segmentBufferTail : ℕ
  segmentBufferHead : ℕ
  segmentNextHead : ℕ
  st : StIsr
  prepStBlockIndex : ℕ
  prepStepsRemaining : ℕ
  prepExitSpeed : α
  pc : PrepPc α
  state : Byte
  position : AxisIndex → ℤ
  homingAxisLock : Byte
  sysRtExecState : Byte
  stepPortInvertMask : Byte
  dirPortInvertMask : Byte
  deriving Inhabited

section Functions

variable {α : Type*}

/-! ### The interrupt -/

def stepMask (idx : AxisIndex) : Byte := 1#8 <<< (2 + idx.val)

/-- A new segment is loaded, and with a new block the counters begin at half its step count. -/
def loadSegment (s : StepperSystem α) : Option (StepperSystem α) :=
  let segment := s.segmentBuffer s.segmentBufferTail
  let st := { s.st with execSegment := some s.segmentBufferTail, stepCount := segment.nStep }
  let st :=
    if st.execBlockIndex ≠ segment.stBlockIndex then
      { st with
        execBlockIndex := segment.stBlockIndex
        execBlock := some segment.stBlockIndex
        counter := fun _ => (s.stBlockBuffer segment.stBlockIndex).stepEventCount >>> 1 }
    else st
  st.execBlock.map fun execBlock =>
    { s with
      st := { st with
        dirOutbits := (s.stBlockBuffer execBlock).directionBits ^^^ s.dirPortInvertMask
        steps := fun idx => (s.stBlockBuffer execBlock).steps idx >>> segment.amassLevel } }

/-- The counter of an axis after a tick, and whether the axis makes a step. -/
def axisTick (counter steps stepEventCount : ℕ) : ℕ × Bool :=
  let counter := add32 counter steps
  if stepEventCount < counter then (sub32 counter stepEventCount, true) else (counter, false)

def outbitsOf (step : AxisIndex → Bool) : Byte :=
  (List.finRange 3).foldl (fun bits idx => if step idx then bits ||| stepMask idx else bits) 0#8

/-- The step of an axis in the direction of the block. -/
def stepPosition (block : StBlock) (idx : AxisIndex) (position : ℤ) : ℤ :=
  if block.directionBits &&& getDirectionPinMask idx ≠ 0#8 then position - 1 else position + 1

/-- The Bresenham part of the interrupt, and the end of the segment. -/
def executeBlock (s : StepperSystem α) (block : StBlock) : StepperSystem α :=
  let tick := fun idx => axisTick (s.st.counter idx) (s.st.steps idx) block.stepEventCount
  let outbits := outbitsOf fun idx => (tick idx).2
  let outbits := if s.state = stateHoming then outbits &&& s.homingAxisLock else outbits
  let stepCount := sub16 s.st.stepCount 1
  { s with
    position := fun idx =>
      if (tick idx).2 then stepPosition block idx (s.position idx) else s.position idx
    segmentBufferTail :=
      if stepCount = 0 then nextIndex segmentBufferSize s.segmentBufferTail
      else s.segmentBufferTail
    st := { s.st with
      counter := fun idx => (tick idx).1
      stepOutbits := outbits ^^^ s.stepPortInvertMask
      stepCount := stepCount
      execSegment := if stepCount = 0 then none else s.st.execSegment } }

def executeStep (s : StepperSystem α) : Option (StepperSystem α) :=
  s.st.execBlock.map fun execBlock => executeBlock s (s.stBlockBuffer execBlock)

/-- `timer_1_interrupt`, which is not interrupted by itself. -/
def timer1Interrupt (s : StepperSystem α) : Option (StepperSystem α) :=
  if s.st.execSegment = none then
    if s.segmentBufferHead ≠ s.segmentBufferTail then (loadSegment s).bind executeStep
    else some { s with sysRtExecState := s.sysRtExecState ||| execCycleStop }
  else executeStep s

/-! ### The preparation of segments -/

/-- A feed hold, a motion cancel or the safety door stops the motion. -/
def StepperSystem.suspended (s : StepperSystem α) : Bool :=
  s.state &&& (stateHold ||| stateMotionCancel ||| stateSafetyDoor) ≠ 0#8

/-- `st_prep_buffer` is called. -/
def prepCall [Zero α] [DecidableEq α] (s : StepperSystem α) : StepperSystem α :=
  if s.suspended ∧ s.planner.currentSpeed = 0 then s else { s with pc := .test }

def prepTest (s : StepperSystem α) : StepperSystem α :=
  if s.segmentBufferTail ≠ s.segmentNextHead then { s with pc := .load }
  else { s with pc := .idle }

/-- The data of a new block, shifted up by the highest level of step smoothing. -/
def stBlockOf (block : PlanBlock α) : StBlock where
  directionBits := block.directionBits
  steps := fun idx => u32 (block.steps idx <<< maxAmassLevel)
  stepEventCount := u32 (block.stepEventCount <<< maxAmassLevel)

/-- The next place of `st_block_buffer` is taken for the block. -/
def copyBlock [Mul α] (s : StepperSystem α) (blockIndex : ℕ) (b : BlockNumbers α) :
    StepperSystem α :=
  let block := s.planner.blockBuffer blockIndex
  let stBlockIndex := nextIndex (segmentBufferSize - 1) s.prepStBlockIndex
  let planner :=
    if s.suspended then
      { s.planner.setBlock blockIndex
          { block with entrySpeedSqr := s.prepExitSpeed * s.prepExitSpeed } with
        currentSpeed := s.prepExitSpeed }
    else { s.planner with currentSpeed := b.currentSpeed }
  { s with
    prepStBlockIndex := stBlockIndex
    stBlockBuffer := Function.update s.stBlockBuffer stBlockIndex (stBlockOf block)
    prepStepsRemaining := Binary32.nearest block.stepEventCount
    planner := planner }

def prepLoad [Mul α] (s : StepperSystem α) (b : BlockNumbers α) : StepperSystem α :=
  match s.planner.plBlock with
  | some _ => { s with pc := .segment }
  | none =>
    match planGetCurrentBlock s.planner with
    | none => { s with pc := .idle }
    | some blockIndex =>
      let partialBlock := s.planner.flagPartialBlock
      let s := { s with
        planner := { s.planner with plBlock := some blockIndex, flagPartialBlock := false } }
      let s := if partialBlock then s else copyBlock s blockIndex b
      { s with prepExitSpeed := b.exitSpeed, pc := .segment }

/-- The level of step smoothing for a step of `cycles`. -/
def amassLevel (cycles : ℕ) : ℕ :=
  if cycles < 8000 then 0 else if cycles < 16000 then 1 else if cycles < 32000 then 2 else 3

/-- The steps of the segment: a difference of `float`s, as a `uint16_t`. -/
def prepSteps (s : StepperSystem α) (r : SegmentNumbers α) : ℕ :=
  u16 (Binary32.nearest (s.prepStepsRemaining - r.nStepsRemaining))

/-- The segment that is put together at the head of the ring. -/
def prepSegmentOf (s : StepperSystem α) (r : SegmentNumbers α) : StSegment where
  stBlockIndex := s.prepStBlockIndex
  nStep := u16 (prepSteps s r <<< amassLevel r.cycles)
  amassLevel := amassLevel r.cycles
  cyclesPerTick :=
    if r.cycles >>> amassLevel r.cycles < 2 ^ 16 then r.cycles >>> amassLevel r.cycles else 0xffff

/-- `pl_block->millimeters` is set. -/
def setMillimeters (planner : Planner α) (millimeters : α) : Planner α :=
  match planner.plBlock with
  | none => planner
  | some blockIndex =>
    planner.setBlock blockIndex
      { planner.blockBuffer blockIndex with millimeters := millimeters }

/-- A forced end of the motion: the block is left where it is, and everything is planned again from
a standstill. -/
def forcedEnd [SpeedNumber α] (s : StepperSystem α) (r : SegmentNumbers α) :
    Option (StepperSystem α) :=
  Option.map (fun planner =>
      { s with planner := planner, prepStepsRemaining := r.nStepsRemaining, pc := .idle }) <|
    planCycleReinitialize <| setMillimeters { s.planner with currentSpeed := 0 } r.millimeters

/-- A segment is filled.  At the end of a feed hold it may be left without a step. -/
def prepFill [SpeedNumber α] (s : StepperSystem α) (r : SegmentNumbers α) :
    Option (StepperSystem α) :=
  let planner := { s.planner with currentSpeed := r.currentSpeed }
  if prepSteps s r = 0 ∧ s.suspended then
    let segment := { s.segmentBuffer s.segmentBufferHead with
      stBlockIndex := s.prepStBlockIndex, nStep := 0 }
    forcedEnd { s with
      segmentBuffer := Function.update s.segmentBuffer s.segmentBufferHead segment
      planner := planner } r
  else
    some { s with
      segmentBuffer := Function.update s.segmentBuffer s.segmentBufferHead (prepSegmentOf s r)
      planner := planner
      pc := .publish r }

def prepPublish (s : StepperSystem α) (r : SegmentNumbers α) : StepperSystem α :=
  { s with
    segmentBufferHead := s.segmentNextHead
    segmentNextHead := nextIndex segmentBufferSize s.segmentNextHead
    pc := .finish r }

/-- What follows a segment. -/
def prepFinish [SpeedNumber α] (s : StepperSystem α) (r : SegmentNumbers α) :
    Option (StepperSystem α) :=
  match r.outcome with
  | .blockIncomplete =>
    some { s with
      planner := setMillimeters s.planner r.millimeters
      prepStepsRemaining := r.nStepsRemaining
      pc := .test }
  | .forcedTermination => forcedEnd s r
  | .blockComplete =>
    some { s with planner := planDiscardCurrentBlock { s.planner with plBlock := none }, pc := .test }

/-- The next statement of `st_prep_buffer`. -/
def prepStatement [SpeedNumber α] (s : StepperSystem α) (b : BlockNumbers α)
    (r : SegmentNumbers α) : Option (StepperSystem α) :=
  match s.pc with
  | .idle => some s
  | .test => some (prepTest s)
  | .load => some (prepLoad s b)
  | .segment => prepFill s r
  | .publish r => some (prepPublish s r)
  | .finish r => prepFinish s r

/-! ### The system -/

def stReset [Zero α] (s : StepperSystem α) : StepperSystem α :=
  { s with
    st := default, segmentBufferTail := 0, segmentBufferHead := 0, segmentNextHead := 1
    prepStBlockIndex := 0, prepStepsRemaining := 0, prepExitSpeed := 0, pc := .idle
    planner := { s.planner with plBlock := none, flagPartialBlock := false, currentSpeed := 0 } }

def planSyncPosition (s : StepperSystem α) : StepperSystem α :=
  { s with planner := { s.planner with position := s.position } }

/-- The initialisation by `main`, on power-up and after an abort. -/
def mainReset [Zero α] (s : StepperSystem α) : StepperSystem α :=
  let s := planSyncPosition (stReset { s with planner := planReset s.planner })
  { s with sysRtExecState := 0 }

/-- What happens: the interrupt; the main program's next statement in `st_prep_buffer`; and outside
of it a call, a line, a change of state, the notice of a change of plan, a reset. -/
inductive StepperEvent (α : Type*) where
  | interrupt
  | statement (b : BlockNumbers α) (r : SegmentNumbers α)
  | prepBuffer
  | line (m : LineMove α)
  | state (state : Byte)
  | updateParameters
  | reset

/-- The main program is not in `st_prep_buffer`. -/
def PrepPc.isIdle : PrepPc α → Bool
  | .idle => true
  | _ => false

def stepperStep [SpeedNumber α] (s : StepperSystem α) :
    StepperEvent α → Option (StepperSystem α)
  | .interrupt => timer1Interrupt s
  | .statement b r => prepStatement s b r
  | .prepBuffer => some (if s.pc.isIdle then prepCall s else s)
  | .line m =>
    if s.pc.isIdle then (planBufferLine s.planner m).map fun planner => { s with planner := planner }
    else some s
  | .state state => some (if s.pc.isIdle then { s with state := state } else s)
  | .updateParameters =>
    some (if s.pc.isIdle then { s with planner := stUpdatePlanBlockParameters s.planner } else s)
  | .reset => some (if s.pc.isIdle then mainReset s else s)

end Functions

end PcbMill
