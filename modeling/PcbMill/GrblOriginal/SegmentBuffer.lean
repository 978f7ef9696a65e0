import PcbMill.GrblOriginal.PlannerOptimality
import PcbMill.GrblOriginal.Stepper

/-!
# The interrupt and the main program share the segment buffer

For the interrupt the two buffers are a pipe: each segment comes with the data of its block, and
what the main program has sent is not changed any more.  `SegmentPipe` is the interrupt with such a
pipe, without indices and without shared memory.  In `st_block_buffer` the main program overwrites
blocks while the interrupt is at work, and there is one place less than in the ring.  Still the
pipe tells the truth: a block is loaded only with room in the ring, and as every block that was
loaded before has a segment there, the places of the last four blocks are the only ones in use.
In the proof the blocks are numbered; the place of a block is the remainder of its number.
-/

namespace PcbMill

open FixedWidth RingBuffer PartialRun

variable {α : Type*}

/-! ### The pipe -/

/-- A segment with the data of its block.  It is fresh if it is the first one of the block. -/
structure Cut where
  nStep : ℕ
  cyclesPerTick : ℕ
  amassLevel : ℕ
  block : StBlock
  fresh : Bool

/-- The interrupt with the pipe of what it is going to do.  While it is running, the first cut is
the one under way.  The main program's part is whether its next cut is a fresh one. -/
structure SegmentPipe where
  cuts : List Cut
  fresh : Bool
  running : Bool
  counter : AxisIndex → ℕ
  steps : AxisIndex → ℕ
  stepCount : ℕ
  stepOutbits : Byte
  dirOutbits : Byte
  position : AxisIndex → ℤ
  state : Byte
  homingAxisLock : Byte
  sysRtExecState : Byte
  stepPortInvertMask : Byte
  dirPortInvertMask : Byte

namespace SegmentPipe

/-- The next cut comes under way. -/
def start (p : SegmentPipe) (cut : Cut) (cuts : List Cut) : SegmentPipe :=
  { p with
    cuts := { cut with fresh := false } :: cuts
    running := true
    counter := if cut.fresh then fun _ => cut.block.stepEventCount >>> 1 else p.counter
    steps := fun idx => cut.block.steps idx >>> cut.amassLevel
    stepCount := cut.nStep
    dirOutbits := cut.block.directionBits ^^^ p.dirPortInvertMask }

/-- A tick on the block of the first cut, which is gone after its last tick. -/
def tick (p : SegmentPipe) (block : StBlock) : SegmentPipe :=
  let tick := fun idx => axisTick (p.counter idx) (p.steps idx) block.stepEventCount
  let outbits := outbitsOf fun idx => (tick idx).2
  let outbits := if p.state = stateHoming then outbits &&& p.homingAxisLock else outbits
  let stepCount := sub16 p.stepCount 1
  { p with
    cuts := if stepCount = 0 then p.cuts.tail else p.cuts
    running := decide (stepCount ≠ 0)
    counter := fun idx => (tick idx).1
    stepCount := stepCount
    stepOutbits := outbits ^^^ p.stepPortInvertMask
    position := fun idx =>
      if (tick idx).2 then stepPosition block idx (p.position idx) else p.position idx }

def interrupt (p : SegmentPipe) : SegmentPipe :=
  match p.cuts with
  | [] => { p with sysRtExecState := p.sysRtExecState ||| execCycleStop }
  | cut :: cuts => (if p.running then p else p.start cut cuts).tick cut.block

theorem interrupt_nil {p : SegmentPipe} (hcuts : p.cuts = []) :
    p.interrupt = { p with sysRtExecState := p.sysRtExecState ||| execCycleStop } := by
  obtain ⟨⟩ := p
  subst hcuts
  rfl

theorem interrupt_cons {p : SegmentPipe} {cut : Cut} {cuts : List Cut} (hcuts : p.cuts = cut :: cuts) :
    p.interrupt = (if p.running then p else p.start cut cuts).tick cut.block := by
  obtain ⟨⟩ := p
  subst hcuts
  rfl

theorem interrupt_fresh (p : SegmentPipe) : p.interrupt.fresh = p.fresh := by
  rcases hcuts : p.cuts with - | ⟨cut, cuts⟩
  · rw [interrupt_nil hcuts]
  · rw [interrupt_cons hcuts]
    simp only [tick]
    split_ifs
    · rfl
    · rfl

/-- The main program sends a segment of a block. -/
def send (p : SegmentPipe) (segment : StSegment) (block : StBlock) : SegmentPipe :=
  { p with
    cuts := p.cuts ++ [{ nStep := segment.nStep, cyclesPerTick := segment.cyclesPerTick,
                         amassLevel := segment.amassLevel, block := block, fresh := p.fresh }]
    fresh := false }

def reset (p : SegmentPipe) : SegmentPipe :=
  { p with
    cuts := [], fresh := false, running := false, counter := default, steps := default
    stepCount := 0, stepOutbits := 0#8, dirOutbits := 0#8, sysRtExecState := 0#8 }

end SegmentPipe

/-- The segment as the interrupt is going to see it behind one of the block at `e`. -/
def cutOf (blocks : ℕ → StBlock) (e : ℕ) (segment : StSegment) : Cut where
  nStep := segment.nStep
  cyclesPerTick := segment.cyclesPerTick
  amassLevel := segment.amassLevel
  block := blocks segment.stBlockIndex
  fresh := decide (segment.stBlockIndex ≠ e)

def cutsOf (blocks : ℕ → StBlock) : ℕ → List StSegment → List Cut
  | _, [] => []
  | e, segment :: segments =>
    cutOf blocks e segment :: cutsOf blocks segment.stBlockIndex segments

/-- The segments in the ring, the one under way included. -/
def StepperSystem.queue (s : StepperSystem α) : List StSegment :=
  contents s.segmentBuffer segmentBufferSize s.segmentBufferHead s.segmentBufferTail

/-- The place of the block of the last segment. -/
def StepperSystem.lastIndex (s : StepperSystem α) : ℕ :=
  (s.queue.map StSegment.stBlockIndex).getLastD s.st.execBlockIndex

/-- What the two buffers are for the interrupt. -/
def StepperSystem.pipe (s : StepperSystem α) : SegmentPipe where
  cuts := cutsOf s.stBlockBuffer s.st.execBlockIndex s.queue
  fresh := decide (s.prepStBlockIndex ≠ s.lastIndex)
  running := s.st.execSegment.isSome
  counter := s.st.counter
  steps := s.st.steps
  stepCount := s.st.stepCount
  stepOutbits := s.st.stepOutbits
  dirOutbits := s.st.dirOutbits
  position := s.position
  state := s.state
  homingAxisLock := s.homingAxisLock
  sysRtExecState := s.sysRtExecState
  stepPortInvertMask := s.stepPortInvertMask
  dirPortInvertMask := s.dirPortInvertMask

/-- The block the main program cuts, as it was copied. -/
def StepperSystem.blockInHand (s : StepperSystem α) : StBlock :=
  stBlockOf (s.planner.blockBuffer s.planner.blockBufferTail)

/-- The main program is about to take up a block it has no segment of. -/
def StepperSystem.takesUp (s : StepperSystem α) : Bool :=
  s.planner.plBlock.isNone && (planGetCurrentBlock s.planner).isSome &&
    !s.planner.flagPartialBlock

/-- What an event does to the pipe. -/
def SegmentPipe.event (p : SegmentPipe) (s : StepperSystem α) : StepperEvent α → SegmentPipe
  | .interrupt => p.interrupt
  | .statement _ _ =>
    match s.pc with
    | .publish r => p.send (prepSegmentOf s r) s.blockInHand
    | .load => if s.takesUp then { p with fresh := true } else p
    | _ => p
  | .state state => if s.pc.isIdle then { p with state := state } else p
  | .reset => if s.pc.isIdle then p.reset else p
  | _ => p

/-- A line is planned only if there is room for it. -/
def StepperEvent.Fits (s : StepperSystem α) : StepperEvent α → Prop
  | .line _ => s.pc.isIdle = true → planCheckFullBuffer s.planner = false
  | _ => True

instance (s : StepperSystem α) (e : StepperEvent α) : Decidable (e.Fits s) := by
  cases e <;> simp only [StepperEvent.Fits] <;> infer_instance

/-! ### Numbers of blocks -/

def blockPlaces : ℕ := segmentBufferSize - 1

/-- The blocks of the segments come one after another, behind number `e`. -/
def Consecutive : ℕ → List ℕ → Prop
  | _, [] => True
  | e, k :: ks => (k = e ∨ k = e + 1) ∧ Consecutive k ks

variable {e k : ℕ} {ks : List ℕ}

theorem consecutive_concat : Consecutive e (ks ++ [k]) ↔
    Consecutive e ks ∧ (k = ks.getLastD e ∨ k = ks.getLastD e + 1) := by
  induction ks generalizing e with
  | nil => simp only [List.nil_append, Consecutive, List.getLastD_nil, and_true, true_and]
  | cons k' ks ih =>
    rw [List.cons_append, Consecutive, Consecutive, ih, and_assoc, List.getLastD_cons]

theorem Consecutive.le_last (h : Consecutive e ks) :
    e ≤ ks.getLastD e ∧ ks.getLastD e ≤ e + ks.length := by
  induction ks generalizing e with
  | nil => exact ⟨le_rfl, le_rfl⟩
  | cons k ks ih =>
    have hrest := ih h.2
    have hnext := h.1
    rw [List.getLastD_cons, List.length_cons]
    omega

/-- The numbers in the ring are the last ones. -/
theorem Consecutive.mem_bounds (h : Consecutive e ks) (hk : k ∈ ks) :
    k ≤ ks.getLastD e ∧ ks.getLastD e < k + ks.length := by
  induction ks generalizing e with
  | nil => cases hk
  | cons k' ks ih =>
    rw [List.getLastD_cons, List.length_cons]
    obtain rfl | hk := List.mem_cons.mp hk
    · have hlast := h.2.le_last
      omega
    · have hrest := ih h.2 hk
      omega

/-! ### What holds of the buffers -/

/-- The blocks have numbers: that of the interrupt's block is `E`, those of the segments are `ks`,
and that of the block the main program has copied last is `K`. -/
structure StepperSystem.Numbered (s : StepperSystem α) (E K : ℕ) (ks : List ℕ) : Prop where
  exec : s.st.execBlockIndex = E % blockPlaces
  queue : s.queue.map StSegment.stBlockIndex = ks.map (· % blockPlaces)
  prep : s.prepStBlockIndex = K % blockPlaces
  consecutive : Consecutive E ks
  last : K = ks.getLastD E ∨ K = ks.getLastD E + 1
  started : s.st.execBlock = some s.st.execBlockIndex ∨
    s.st.execBlock = none ∧ E = 0 ∧ ∀ k ∈ ks, 0 < k
  running : s.st.execSegment = none ∨ s.st.execSegment = some s.segmentBufferTail ∧
    s.st.execBlock = some s.st.execBlockIndex ∧ ∃ ks', ks = E :: ks'

variable {s s' : StepperSystem α} {E K : ℕ}

theorem StepperSystem.Numbered.lastIndex (h : s.Numbered E K ks) :
    s.lastIndex = ks.getLastD E % blockPlaces := by
  rw [StepperSystem.lastIndex, h.queue, h.exec, List.getLastD_map]

theorem nextSegment_eq {i : ℕ} (hi : i < segmentBufferSize) :
    nextIndex segmentBufferSize i = next segmentBufferSize i := nextIndex_eq (by decide) hi

/-- In the ring the interrupt's next segment is at the tail. -/
theorem StepperSystem.queue_cons
    (hring : InRing segmentBufferSize s.segmentBufferHead s.segmentBufferTail)
    (hne : s.segmentBufferHead ≠ s.segmentBufferTail) :
    s.queue = s.segmentBuffer s.segmentBufferTail :: contents s.segmentBuffer segmentBufferSize
      s.segmentBufferHead (nextIndex segmentBufferSize s.segmentBufferTail) := by
  rw [nextSegment_eq hring.tail_lt]
  exact hring.contents_pop hne

/-! ### The interrupt -/

/-- The state with a segment loaded: the segment at the tail. -/
def StepperSystem.loadedWith (s : StepperSystem α) (segment : StSegment) : StepperSystem α :=
  { s with
    st := { s.st with
      execSegment := some s.segmentBufferTail
      stepCount := segment.nStep
      execBlockIndex := segment.stBlockIndex
      execBlock := some segment.stBlockIndex
      counter :=
        if segment.stBlockIndex ≠ s.st.execBlockIndex then
          fun _ => (s.stBlockBuffer segment.stBlockIndex).stepEventCount >>> 1
        else s.st.counter
      dirOutbits :=
        (s.stBlockBuffer segment.stBlockIndex).directionBits ^^^ s.dirPortInvertMask
      steps := fun idx =>
        (s.stBlockBuffer segment.stBlockIndex).steps idx >>> segment.amassLevel } }

/-- A segment of the same block needs the block pointer to be there. -/
theorem loadSegment_eq (hblock : (s.segmentBuffer s.segmentBufferTail).stBlockIndex =
      s.st.execBlockIndex → s.st.execBlock = some s.st.execBlockIndex) :
    loadSegment s = some (s.loadedWith (s.segmentBuffer s.segmentBufferTail)) := by
  simp only [loadSegment, StepperSystem.loadedWith]
  by_cases hsame : s.st.execBlockIndex = (s.segmentBuffer s.segmentBufferTail).stBlockIndex
  · rw [if_neg (not_not.mpr hsame), if_neg (not_not.mpr hsame.symm), hblock hsame.symm, hsame]
    rfl
  · rw [if_pos hsame, if_pos (Ne.symm hsame)]
    rfl

theorem StepperSystem.pipe_loadedWith {segment : StSegment} {segments : List StSegment}
    (hqueue : s.queue = segment :: segments) : (s.loadedWith segment).pipe =
      s.pipe.start (cutOf s.stBlockBuffer s.st.execBlockIndex segment)
        (cutsOf s.stBlockBuffer segment.stBlockIndex segments) := by
  have hqueue' : (s.loadedWith segment).queue = segment :: segments := hqueue
  have hlast : (s.loadedWith segment).lastIndex = s.lastIndex := by
    rw [StepperSystem.lastIndex, StepperSystem.lastIndex, hqueue', hqueue, List.map_cons,
      List.getLastD_cons, List.getLastD_cons]
  simp only [StepperSystem.pipe, SegmentPipe.start, hqueue', hlast, cutsOf]
  simp [StepperSystem.loadedWith, cutOf]

theorem StepperSystem.Numbered.next (h : s.Numbered E K ks)
    (hne : s.segmentBufferHead ≠ s.segmentBufferTail)
    (hring : InRing segmentBufferSize s.segmentBufferHead s.segmentBufferTail) :
    ∃ k ks', ks = k :: ks' ∧
      loadSegment s = some (s.loadedWith (s.segmentBuffer s.segmentBufferTail)) ∧
      (s.loadedWith (s.segmentBuffer s.segmentBufferTail)).Numbered k K ks := by
  have hqueue := h.queue
  rw [StepperSystem.queue_cons hring hne] at hqueue
  rcases ks with - | ⟨k, ks'⟩
  · cases hqueue
  rw [List.map_cons, List.map_cons] at hqueue
  obtain ⟨hplace, -⟩ := List.cons.inj hqueue
  have hnext := h.consecutive.1
  have hblock : (s.segmentBuffer s.segmentBufferTail).stBlockIndex = s.st.execBlockIndex →
      s.st.execBlock = some s.st.execBlockIndex := by
    intro hsame
    obtain hblock | ⟨-, rfl, hpos⟩ := h.started
    · exact hblock
    · -- before the first block the interrupt's index is 0, and that block's is 1
      rw [hplace, h.exec] at hsame
      have := hpos k List.mem_cons_self
      simp only [blockPlaces, segmentBufferSize] at hsame
      omega
  refine ⟨k, ks', rfl, loadSegment_eq hblock, hplace, h.queue, h.prep, ⟨.inl rfl, h.consecutive.2⟩,
    ?_, .inl rfl, .inr ⟨rfl, rfl, ks', rfl⟩⟩
  have hlast := h.last
  rw [List.getLastD_cons] at hlast
  rwa [List.getLastD_cons]

/-- The interrupt's tick in the pipe. -/
theorem StepperSystem.pipe_executeBlock (hring : InRing segmentBufferSize s.segmentBufferHead
      s.segmentBufferTail) (hne : s.segmentBufferHead ≠ s.segmentBufferTail)
    (hsame : (s.segmentBuffer s.segmentBufferTail).stBlockIndex = s.st.execBlockIndex)
    (hrunning : s.st.execSegment ≠ none) (block : StBlock) :
    (executeBlock s block).pipe = s.pipe.tick block := by
  have hqueue := StepperSystem.queue_cons hring hne
  by_cases hend : sub16 s.st.stepCount 1 = 0
  · have hqueue' : (executeBlock s block).queue = s.queue.tail := by
      rw [hqueue]
      simp only [executeBlock, StepperSystem.queue, if_pos hend, List.tail_cons]
    have hlast : (executeBlock s block).lastIndex = s.lastIndex := by
      rw [StepperSystem.lastIndex, StepperSystem.lastIndex, hqueue', hqueue, List.tail_cons,
        List.map_cons, List.getLastD_cons, hsame]
      rfl
    simp only [StepperSystem.pipe, SegmentPipe.tick, hlast, hqueue']
    simp only [hqueue, cutsOf, hsame]
    simp only [executeBlock, hend, ↓reduceIte, List.tail_cons, ne_eq, not_true, decide_false,
      Option.isSome_none]
    rfl
  · have hqueue' : (executeBlock s block).queue = s.queue := by
      simp only [executeBlock, StepperSystem.queue, hend, ↓reduceIte]
    have hlast : (executeBlock s block).lastIndex = s.lastIndex := by
      rw [StepperSystem.lastIndex, StepperSystem.lastIndex, hqueue']
      rfl
    simp only [StepperSystem.pipe, SegmentPipe.tick, hlast, hqueue']
    simp only [executeBlock, hend, ↓reduceIte, ne_eq, not_false_eq_true, decide_true,
      Option.isSome_iff_ne_none.mpr hrunning]
    rfl

@[simp] theorem executeBlock_execBlockIndex (s : StepperSystem α) (block : StBlock) :
    (executeBlock s block).st.execBlockIndex = s.st.execBlockIndex := by simp only [executeBlock]

@[simp] theorem executeBlock_execBlock (s : StepperSystem α) (block : StBlock) :
    (executeBlock s block).st.execBlock = s.st.execBlock := by simp only [executeBlock]

@[simp] theorem executeBlock_prepStBlockIndex (s : StepperSystem α) (block : StBlock) :
    (executeBlock s block).prepStBlockIndex = s.prepStBlockIndex := by simp only [executeBlock]

theorem StepperSystem.Numbered.ticked (h : s.Numbered E K (E :: ks))
    (hne : s.segmentBufferHead ≠ s.segmentBufferTail)
    (hring : InRing segmentBufferSize s.segmentBufferHead s.segmentBufferTail)
    (hblock : s.st.execBlock = some s.st.execBlockIndex)
    (hrunning : s.st.execSegment = some s.segmentBufferTail) (block : StBlock) :
    ∃ ks', (executeBlock s block).Numbered E K ks' := by
  have hlast := h.last
  rw [List.getLastD_cons] at hlast
  by_cases hend : sub16 s.st.stepCount 1 = 0
  · have hqueue := h.queue
    rw [StepperSystem.queue_cons hring hne, List.map_cons, List.map_cons] at hqueue
    obtain ⟨-, hqueue⟩ := List.cons.inj hqueue
    refine ⟨ks, by simpa using h.exec, ?_, by simpa using h.prep, h.consecutive.2, hlast,
      .inl (by simpa using hblock), .inl ?_⟩
    · rw [← hqueue]
      simp only [executeBlock, StepperSystem.queue, hend, ↓reduceIte]
    · simp only [executeBlock, hend, ↓reduceIte]
  · refine ⟨E :: ks, by simpa using h.exec, ?_, by simpa using h.prep, h.consecutive, h.last,
      .inl (by simpa using hblock), .inr ⟨?_, by simpa using hblock, ks, rfl⟩⟩
    · rw [← h.queue]
      simp only [executeBlock, StepperSystem.queue, hend, ↓reduceIte]
    · simp only [executeBlock, hend, ↓reduceIte]
      exact hrunning

/-- What the interrupt leaves as it is. -/
structure StepperSystem.SameMain (s s' : StepperSystem α) : Prop where
  planner : s'.planner = s.planner
  stBlockBuffer : s'.stBlockBuffer = s.stBlockBuffer
  segmentBuffer : s'.segmentBuffer = s.segmentBuffer
  segmentBufferHead : s'.segmentBufferHead = s.segmentBufferHead
  segmentNextHead : s'.segmentNextHead = s.segmentNextHead
  prepStBlockIndex : s'.prepStBlockIndex = s.prepStBlockIndex
  prepStepsRemaining : s'.prepStepsRemaining = s.prepStepsRemaining
  pc : s'.pc = s.pc
  inRing : InRing segmentBufferSize s.segmentBufferHead s.segmentBufferTail →
    InRing segmentBufferSize s'.segmentBufferHead s'.segmentBufferTail
  held : held segmentBufferSize s'.segmentBufferHead s'.segmentBufferTail ≤
    held segmentBufferSize s.segmentBufferHead s.segmentBufferTail

theorem sameMain_executeBlock (hne : s.segmentBufferHead ≠ s.segmentBufferTail)
    (hring : InRing segmentBufferSize s.segmentBufferHead s.segmentBufferTail) (block : StBlock) :
    s.SameMain (executeBlock s block) := by
  constructor
  case inRing =>
    intro h
    simp only [executeBlock]
    split_ifs
    · rw [nextSegment_eq h.tail_lt]
      exact h.pop
    · exact h
  case held =>
    simp only [executeBlock]
    split_ifs
    · rw [nextSegment_eq hring.tail_lt, hring.held_pop hne]
      exact Nat.le_succ _
    · exact le_rfl
  all_goals simp only [executeBlock]

/-- **The interrupt** finds what it needs, and does in the pipe what it is meant to do. -/
theorem StepperSystem.Numbered.interrupt (h : s.Numbered E K ks)
    (hring : InRing segmentBufferSize s.segmentBufferHead s.segmentBufferTail) :
    ∃ s', timer1Interrupt s = some s' ∧ s.SameMain s' ∧ s'.pipe = s.pipe.interrupt ∧
      ∃ E' ks', s'.Numbered E' K ks' := by
  by_cases hne : s.segmentBufferHead = s.segmentBufferTail
  · have hempty : s.queue = [] := hring.contents_eq_nil.mpr hne
    have hks : ks = [] := by
      have := h.queue
      rw [hempty] at this
      exact List.map_eq_nil_iff.mp this.symm
    have hidle : s.st.execSegment = none :=
      h.running.resolve_right fun hrun => by simp [hks] at hrun
    refine ⟨{ s with sysRtExecState := s.sysRtExecState ||| execCycleStop }, ?_,
      ⟨rfl, rfl, rfl, rfl, rfl, rfl, rfl, rfl, id, le_rfl⟩, ?_, E, ks,
      ⟨h.exec, h.queue, h.prep, h.consecutive, h.last, h.started, h.running⟩⟩
    · rw [timer1Interrupt, if_pos hidle, if_neg (not_not.mpr hne)]
    · have hcuts : s.pipe.cuts = [] := by
        show cutsOf _ _ s.queue = []
        rw [hempty, cutsOf]
      rw [SegmentPipe.interrupt_nil hcuts]
      rfl
  have hqueue := StepperSystem.queue_cons hring hne
  have hcuts : s.pipe.cuts = cutsOf s.stBlockBuffer s.st.execBlockIndex s.queue := rfl
  rw [hqueue, cutsOf] at hcuts
  obtain hidle | ⟨hsegment, hblock, ks', rfl⟩ := h.running
  · -- the next segment is loaded first
    obtain ⟨k, ks', rfl, hload, hnumbered⟩ := h.next hne hring
    refine ⟨executeBlock (s.loadedWith (s.segmentBuffer s.segmentBufferTail))
      (s.stBlockBuffer (s.segmentBuffer s.segmentBufferTail).stBlockIndex), ?_, ?_, ?_, k,
      hnumbered.ticked hne hring rfl rfl _⟩
    · rw [timer1Interrupt, if_pos hidle, if_pos hne, hload]
      rfl
    · have hsame := sameMain_executeBlock (s := s.loadedWith (s.segmentBuffer s.segmentBufferTail))
        hne hring (s.stBlockBuffer (s.segmentBuffer s.segmentBufferTail).stBlockIndex)
      exact ⟨hsame.planner, hsame.stBlockBuffer, hsame.segmentBuffer, hsame.segmentBufferHead,
        hsame.segmentNextHead, hsame.prepStBlockIndex, hsame.prepStepsRemaining, hsame.pc,
        hsame.inRing, hsame.held⟩
    · rw [StepperSystem.pipe_executeBlock
        (s := s.loadedWith (s.segmentBuffer s.segmentBufferTail)) hring hne rfl
        (Option.some_ne_none _), StepperSystem.pipe_loadedWith hqueue,
        SegmentPipe.interrupt_cons hcuts, if_neg (show ¬ s.pipe.running = true by
          simp only [StepperSystem.pipe, hidle, Option.isSome_none, Bool.false_eq_true,
            not_false_eq_true])]
      rfl
  · have hhead : (s.segmentBuffer s.segmentBufferTail).stBlockIndex = s.st.execBlockIndex := by
      have hplaces := h.queue
      rw [hqueue, List.map_cons, List.map_cons] at hplaces
      rw [(List.cons.inj hplaces).1, h.exec]
    have hrunning : s.st.execSegment ≠ none := by
      rw [hsegment]
      exact Option.some_ne_none _
    refine ⟨executeBlock s (s.stBlockBuffer s.st.execBlockIndex), ?_,
      sameMain_executeBlock hne hring _, ?_, E, h.ticked hne hring hblock hsegment _⟩
    · rw [timer1Interrupt, if_neg hrunning, executeStep, hblock]
      rfl
    · rw [StepperSystem.pipe_executeBlock hring hne hhead hrunning,
        SegmentPipe.interrupt_cons hcuts,
        if_pos (show s.pipe.running = true from Option.isSome_iff_ne_none.mpr hrunning), ← hhead]
      rfl

/-! ### The planner under the main program -/

/-- The planner's current block has been copied, and not all of its segments are out. -/
def Planner.loaded (s : Planner α) : Bool := s.plBlock.isSome || s.flagPartialBlock

/-- What of a block the interrupt gets to see. -/
structure Move where
  directionBits : Byte
  steps : AxisIndex → ℕ
  stepEventCount : ℕ

def PlanBlock.move (block : PlanBlock α) : Move where
  directionBits := block.directionBits
  steps := block.steps
  stepEventCount := block.stepEventCount

def Move.block (move : Move) : StBlock where
  directionBits := move.directionBits
  steps := fun idx => u32 (move.steps idx <<< maxAmassLevel)
  stepEventCount := u32 (move.stepEventCount <<< maxAmassLevel)

theorem stBlockOf_eq (block : PlanBlock α) : stBlockOf block = block.move.block := rfl

theorem stBlockOf_congr {block block' : PlanBlock α} (h : block'.move = block.move) :
    stBlockOf block' = stBlockOf block := by
  rw [stBlockOf_eq, stBlockOf_eq, h]

/-- The same lines are left to do. -/
structure Planner.SameMoves (p p' : Planner α) : Prop where
  tail : p'.blockBufferTail = p.blockBufferTail
  head : p'.blockBufferHead = p.blockBufferHead
  position : p'.position = p.position
  move : ∀ i, (p'.blockBuffer i).move = (p.blockBuffer i).move

variable {p p' p'' : Planner α}

theorem Planner.SameMoves.refl (p : Planner α) : p.SameMoves p := ⟨rfl, rfl, rfl, fun _ => rfl⟩

theorem Planner.SameMoves.trans (h : p.SameMoves p') (h' : p'.SameMoves p'') : p.SameMoves p'' :=
  ⟨h'.tail.trans h.tail, h'.head.trans h.head, h'.position.trans h.position,
    fun i => (h'.move i).trans (h.move i)⟩

theorem Planner.SameMoves.count (h : p.SameMoves p') : p'.count = p.count := by
  rw [Planner.count, Planner.count, h.head, h.tail]

theorem Planner.SameMoves.blockInHand (h : p.SameMoves p') :
    stBlockOf (p'.blockBuffer p'.blockBufferTail) = stBlockOf (p.blockBuffer p.blockBufferTail) := by
  rw [h.tail]
  exact stBlockOf_congr (h.move _)

theorem Planner.SameRoute.moves (h : p.SameRoute p') : p.SameMoves p' :=
  ⟨h.tail, h.head, h.position, fun i => by rw [h.block]; rfl⟩

theorem Planner.SameRoute.loaded (h : p.SameRoute p') : p'.loaded = p.loaded := by
  obtain ⟨hblock, hflag⟩ | ⟨hsome, hnone, hflag⟩ := h.told
  · rw [Planner.loaded, Planner.loaded, hblock, hflag]
  · rw [Planner.loaded, Planner.loaded, hflag, Option.isSome_iff_ne_none.mpr hsome, Bool.or_true,
      Bool.true_or]

/-- If the stepper is told, it finds the flag set and the pointer gone. -/
theorem Planner.SameRoute.whole (h : p.SameRoute p')
    (hwhole : p.plBlock.isSome = true → p.flagPartialBlock = false) :
    p'.plBlock.isSome = true → p'.flagPartialBlock = false := by
  obtain ⟨hblock, hflag⟩ | ⟨-, hnone, -⟩ := h.told
  · rw [hblock, hflag]
    exact hwhole
  · rw [hnone]
    exact fun hsome => nomatch hsome

theorem sameMoves_setBlock (p : Planner α) (i : ℕ) (block : PlanBlock α)
    (h : block.move = (p.blockBuffer i).move) : p.SameMoves (p.setBlock i block) := by
  refine ⟨rfl, rfl, rfl, fun j => ?_⟩
  simp only [Planner.setBlock]
  by_cases hj : j = i
  · subst hj
    rwa [Function.update_self]
  · rw [Function.update_of_ne hj]

theorem sameMoves_setMillimeters (p : Planner α) (millimeters : α) :
    p.SameMoves (setMillimeters p millimeters) := by
  rw [setMillimeters]
  split
  · exact .refl p
  · exact sameMoves_setBlock p _ _ rfl

theorem setMillimeters_eq (p : Planner α) (millimeters : α) : setMillimeters p millimeters =
    { p with blockBuffer := (setMillimeters p millimeters).blockBuffer } := by
  rw [setMillimeters]
  split <;> rfl

theorem Planner.Ring.setMillimeters (h : p.Ring) (millimeters : α) :
    (setMillimeters p millimeters).Ring := by
  rw [setMillimeters_eq]
  exact ⟨h.inRing, h.nextHead, h.taken, h.planned⟩

/-- A forced end leaves the lines as they are, and the stepper is in the middle of the first. -/
theorem Planner.Ring.reinitializes [SpeedNumber α] (h : p.Ring) (hsome : p.plBlock.isSome = true) :
    ∃ p', planCycleReinitialize p = some p' ∧ p.SameMoves p' ∧ p'.Ring ∧ p'.loaded = true ∧
      p'.plBlock = none := by
  obtain ⟨block, hblock⟩ := Option.isSome_iff_exists.mp hsome
  obtain ⟨hroute, hring, -, -⟩ := h.atRest
  have hne : 0 < p.atRest.count := hroute.count ▸ (h.taken block hblock).2
  obtain ⟨p', hp', hroute', hring'⟩ := hring.recalculates hne
  have hall := hroute.trans hroute'
  refine ⟨p', by rw [planCycleReinitialize_eq, hp'], hall.moves, hring', ?_, ?_⟩
  · rw [hall.loaded, Planner.loaded, hsome, Bool.true_or]
  · have hnone : p.atRest.plBlock = none := by
      simp only [Planner.atRest, stUpdatePlanBlockParameters, hblock]
    obtain ⟨heq, -⟩ | ⟨hne', -, -⟩ := hroute'.told
    · rw [heq, hnone]
    · exact absurd hnone hne'

/-! ### The invariant -/

namespace PrepPc

/-- There is room in the ring for a segment. -/
def isFilling : PrepPc α → Bool
  | load | segment | publish _ => true
  | _ => false

/-- The planner's block is in hand. -/
def isCutting : PrepPc α → Bool
  | segment | publish _ | finish _ => true
  | _ => false

/-- A segment has just gone out. -/
def isFinishing : PrepPc α → Bool
  | finish _ => true
  | _ => false

end PrepPc

/-- What holds of the main program's side in every state. -/
structure StepperSystem.Sound (s : StepperSystem α) : Prop where
  ring : s.planner.Ring
  inRing : InRing segmentBufferSize s.segmentBufferHead s.segmentBufferTail
  nextHead : s.segmentNextHead = next segmentBufferSize s.segmentBufferHead
  room : s.pc.isFilling = true →
    held segmentBufferSize s.segmentBufferHead s.segmentBufferTail + 1 < segmentBufferSize
  taken : s.pc.isCutting = true → s.planner.plBlock.isSome = true
  whole : s.planner.plBlock.isSome = true → s.planner.flagPartialBlock = false
  count_pos : s.planner.loaded = true → 0 < s.planner.count
  filled : ∀ r, s.pc = .publish r → s.segmentBuffer s.segmentBufferHead = prepSegmentOf s r
  copied : s.planner.loaded = true → s.stBlockBuffer s.prepStBlockIndex = s.blockInHand
  settled : s.planner.loaded = false ∨ s.pc.isFinishing = true → s.pipe.fresh = false
  numbered : ∃ E K ks, s.Numbered E K ks ∧ (s.planner.loaded = true → 0 < K)

theorem StepperSystem.Numbered.fresh (h : s.Numbered E K ks) :
    s.pipe.fresh = false ↔ K = ks.getLastD E := by
  have hlast := h.last
  simp only [StepperSystem.pipe, h.prep, h.lastIndex, blockPlaces, segmentBufferSize,
    decide_eq_false_iff_not, ne_eq, not_not]
  omega

/-- What the interrupt does keeps the invariant. -/
theorem StepperSystem.Sound.interrupt (h : s.Sound) :
    ∃ s', timer1Interrupt s = some s' ∧ s.SameMain s' ∧ s'.Sound ∧
      s'.pipe = s.pipe.interrupt := by
  obtain ⟨E, K, ks, hnumbered, hpos⟩ := h.numbered
  obtain ⟨s', hs', hsame, hpipe, E', ks', hnumbered'⟩ := hnumbered.interrupt h.inRing
  have hfresh : s'.pipe.fresh = s.pipe.fresh := by
    rw [hpipe, SegmentPipe.interrupt_fresh]
  refine ⟨s', hs', hsame, ⟨?_, hsame.inRing h.inRing, ?_, ?_, ?_, ?_, ?_, ?_, ?_, ?_, E', K, ks',
    hnumbered', ?_⟩, hpipe⟩
  · rw [hsame.planner]
    exact h.ring
  · rw [hsame.segmentNextHead, hsame.segmentBufferHead]
    exact h.nextHead
  · rw [hsame.pc]
    exact fun hpc => (Nat.succ_le_succ hsame.held).trans_lt (h.room hpc)
  · rw [hsame.pc, hsame.planner]
    exact h.taken
  · rw [hsame.planner]
    exact h.whole
  · rw [hsame.planner]
    exact h.count_pos
  · intro r hr
    rw [hsame.segmentBuffer, hsame.segmentBufferHead, h.filled r (hsame.pc ▸ hr), prepSegmentOf,
      prepSegmentOf, prepSteps, prepSteps, hsame.prepStBlockIndex, hsame.prepStepsRemaining]
  · rw [hsame.planner, hsame.stBlockBuffer, hsame.prepStBlockIndex, StepperSystem.blockInHand,
      hsame.planner]
    exact h.copied
  · rw [hsame.planner, hsame.pc, hfresh]
    exact h.settled
  · rw [hsame.planner]
    exact hpos

/-! ### The main program -/

theorem StepperSystem.Numbered.of_eq (h : s.Numbered E K ks) (hst : s'.st = s.st)
    (htail : s'.segmentBufferTail = s.segmentBufferTail) (hqueue : s'.queue = s.queue)
    (hprep : s'.prepStBlockIndex = s.prepStBlockIndex) : s'.Numbered E K ks where
  exec := hst ▸ h.exec
  queue := hqueue ▸ h.queue
  prep := hprep ▸ h.prep
  consecutive := h.consecutive
  last := h.last
  started := hst ▸ h.started
  running := by
    rw [hst, htail]
    exact h.running

/-- The main program goes on to another statement, and the planner changes in no more than the
interrupt does not see. -/
theorem StepperSystem.Sound.proceed (h : s.Sound) {pc : PrepPc α} {n : ℕ} {x : α}
    (hring : p'.Ring) (hcount : s.planner.count ≤ p'.count)
    (hhand : 0 < s.planner.count →
      stBlockOf (p'.blockBuffer p'.blockBufferTail) = s.blockInHand)
    (hloaded : p'.loaded = s.planner.loaded)
    (hwhole : p'.plBlock.isSome = true → p'.flagPartialBlock = false)
    (hroom : pc.isFilling = true →
      held segmentBufferSize s.segmentBufferHead s.segmentBufferTail + 1 <
        segmentBufferSize)
    (htaken : pc.isCutting = true → p'.plBlock.isSome = true)
    (hpublish : ∀ r, pc ≠ .publish r) (hfinish : pc.isFinishing = false) :
    ({ s with planner := p', prepStepsRemaining := n, prepExitSpeed := x, pc := pc } :
      StepperSystem α).Sound := by
  obtain ⟨E, K, ks, hnumbered, hpos⟩ := h.numbered
  exact { h with
    ring := hring
    room := hroom
    taken := htaken
    whole := hwhole
    count_pos := fun hload => (h.count_pos (hloaded ▸ hload)).trans_le hcount
    filled := fun r hr => absurd hr (hpublish r)
    copied := fun hload => by
      have hload' := hloaded ▸ hload
      exact (h.copied hload').trans (hhand (h.count_pos hload')).symm
    settled := by
      rintro (hnot | hfin)
      · exact h.settled (.inl (hloaded ▸ hnot))
      · exact absurd (hfinish.symm.trans hfin) Bool.false_ne_true
    numbered := ⟨E, K, ks, hnumbered.of_eq rfl rfl rfl rfl, fun hload => hpos (hloaded ▸ hload)⟩ }

/-- The main program leaves `st_prep_buffer`, or comes to the test of its loop. -/
theorem StepperSystem.Sound.goto (h : s.Sound) {pc : PrepPc α} (hfilling : pc.isFilling = false)
    (hcutting : pc.isCutting = false) : ({ s with pc := pc } : StepperSystem α).Sound := by
  refine h.proceed h.ring le_rfl (fun _ => rfl) rfl h.whole (fun hpc => ?_) (fun hpc => ?_)
    (fun r hr => ?_) ?_
  · exact absurd (hfilling.symm.trans hpc) Bool.false_ne_true
  · exact absurd (hcutting.symm.trans hpc) Bool.false_ne_true
  · subst hr
    cases hfilling
  · cases pc <;> first | rfl | cases hcutting

theorem StepperSystem.Sound.tests (h : s.Sound) : (prepTest s).Sound ∧
    (prepTest s).pipe = s.pipe := by
  rw [prepTest]
  split_ifs with hroom
  · refine ⟨h.proceed h.ring le_rfl (fun _ => rfl) rfl h.whole (fun _ => ?_) nofun
      (fun _ => nofun) rfl, rfl⟩
    by_contra hfull
    exact hroom (h.nextHead.trans (h.inRing.next_eq_of_full hfull)).symm
  · exact ⟨h.goto rfl rfl, rfl⟩

theorem cutsOf_congr {blocks blocks' : ℕ → StBlock} {segments : List StSegment}
    (h : ∀ segment ∈ segments, blocks' segment.stBlockIndex = blocks segment.stBlockIndex) :
    cutsOf blocks' e segments = cutsOf blocks e segments := by
  induction segments generalizing e with
  | nil => rfl
  | cons segment segments ih =>
    rw [cutsOf, cutsOf, cutOf, cutOf, h segment List.mem_cons_self,
      ih fun other hother => h other (List.mem_cons_of_mem _ hother)]

/-- With room in the ring, no segment there is of the block five numbers back. -/
theorem StepperSystem.Numbered.place_free (h : s.Numbered E K ks) (hlast : K = ks.getLastD E)
    (hroom : held segmentBufferSize s.segmentBufferHead s.segmentBufferTail + 1 <
      segmentBufferSize) :
    ∀ segment ∈ s.queue, segment.stBlockIndex ≠ (K + 1) % blockPlaces := by
  intro segment hsegment heq
  have hlength : ks.length = s.queue.length := by
    have hmap := congrArg List.length h.queue
    rw [List.length_map, List.length_map] at hmap
    exact hmap.symm
  have hplace := List.mem_map_of_mem (f := StSegment.stBlockIndex) hsegment
  rw [h.queue, List.mem_map] at hplace
  obtain ⟨k, hk, hkplace⟩ := hplace
  have hbounds := h.consecutive.mem_bounds hk
  rw [← hlast, hlength, StepperSystem.queue, contents_length] at hbounds
  rw [heq] at hkplace
  simp only [blockPlaces, segmentBufferSize] at hkplace hroom hbounds
  omega

theorem planGetCurrentBlock_eq_some {blockIndex : ℕ}
    (h : planGetCurrentBlock p = some blockIndex) :
    blockIndex = p.blockBufferTail ∧ p.blockBufferHead ≠ p.blockBufferTail := by
  rw [planGetCurrentBlock] at h
  split_ifs at h with hempty
  exact ⟨(Option.some.inj h).symm, hempty⟩

/-- The planner's block is taken in hand. -/
theorem Planner.Ring.take (h : p.Ring) (hne : p.blockBufferHead ≠ p.blockBufferTail) :
    ({ p with plBlock := some p.blockBufferTail, flagPartialBlock := false } : Planner α).Ring :=
  ⟨h.inRing, h.nextHead, fun _ hblock => ⟨(Option.some.inj hblock).symm,
    Nat.pos_of_ne_zero fun hzero => hne (h.inRing.held_eq_zero.mp hzero)⟩, h.planned⟩

/-- What `copyBlock` does to the planner. -/
theorem copyBlock_planner [Mul α] (s : StepperSystem α) (blockIndex : ℕ) (b : BlockNumbers α) :
    s.planner.SameMoves (copyBlock s blockIndex b).planner ∧
      (copyBlock s blockIndex b).planner.plBlock = s.planner.plBlock ∧
      (copyBlock s blockIndex b).planner.flagPartialBlock = s.planner.flagPartialBlock ∧
      (s.planner.Ring → (copyBlock s blockIndex b).planner.Ring) := by
  simp only [copyBlock]
  split_ifs
  · have hset := sameMoves_setBlock s.planner blockIndex
      { s.planner.blockBuffer blockIndex with
        entrySpeedSqr := s.prepExitSpeed * s.prepExitSpeed } rfl
    exact ⟨⟨rfl, rfl, rfl, hset.move⟩, rfl, rfl, fun h => ⟨h.inRing, h.nextHead, h.taken, h.planned⟩⟩
  · exact ⟨⟨rfl, rfl, rfl, fun _ => rfl⟩, rfl, rfl,
      fun h => ⟨h.inRing, h.nextHead, h.taken, h.planned⟩⟩

/-- A block the main program has no segment of is copied to the next place. -/
theorem StepperSystem.Sound.copies [Mul α] (h : s.Sound) (hroom : s.pc.isFilling = true)
    (hloaded : s.planner.loaded = false)
    (hne : s.planner.blockBufferHead ≠ s.planner.blockBufferTail) (b : BlockNumbers α)
    (hs' : s' = { copyBlock { s with
        planner := { s.planner with
          plBlock := some s.planner.blockBufferTail, flagPartialBlock := false } }
        s.planner.blockBufferTail b with prepExitSpeed := b.exitSpeed, pc := .segment }) :
    s'.Sound ∧ s'.pipe = { s.pipe with fresh := true } := by
  obtain ⟨E, K, ks, hnumbered, -⟩ := h.numbered
  have hlast : K = ks.getLastD E := hnumbered.fresh.mp (h.settled (.inl hloaded))
  obtain ⟨hmoves, hblock, hflag, hring⟩ := copyBlock_planner { s with
    planner := { s.planner with
      plBlock := some s.planner.blockBufferTail, flagPartialBlock := false } }
    s.planner.blockBufferTail b
  have hplace : nextIndex (segmentBufferSize - 1) s.prepStBlockIndex = (K + 1) % blockPlaces := by
    have hlt : K % blockPlaces < blockPlaces := Nat.mod_lt _ (by decide)
    rw [hnumbered.prep, ← Nat.mod_add_mod, ← next_eq hlt]
    exact nextIndex_eq (by decide) hlt
  have hfree := hnumbered.place_free hlast (h.room hroom)
  have hnumbered' : s'.Numbered E (K + 1) ks := by
    subst hs'
    exact ⟨hnumbered.exec, hnumbered.queue, hplace, hnumbered.consecutive, .inr (by rw [hlast]),
      hnumbered.started, hnumbered.running⟩
  have hfresh : s'.pipe.fresh = true := by
    rw [← Bool.not_eq_false, hnumbered'.fresh]
    omega
  have hcount : 0 < s.planner.count :=
    Nat.pos_of_ne_zero fun hzero => hne (h.ring.inRing.held_eq_zero.mp hzero)
  constructor
  · subst hs'
    exact { h with
      ring := hring (h.ring.take hne)
      room := fun _ => h.room hroom
      taken := fun _ => hblock ▸ rfl
      whole := fun _ => hflag
      count_pos := fun _ => hmoves.count ▸ hcount
      filled := fun _ hr => nomatch hr
      copied := fun _ => by
        refine (Function.update_self ..).trans ?_
        exact hmoves.blockInHand.symm
      settled := by
        rintro (hnot | hfin)
        · rw [Planner.loaded] at hnot
          rw [show (copyBlock _ _ b).planner.plBlock = _ from hblock] at hnot
          cases hnot
        · cases hfin
      numbered := ⟨E, K + 1, ks, hnumbered', fun _ => Nat.succ_pos K⟩ }
  · have hcuts : s'.pipe.cuts = s.pipe.cuts := by
      subst hs'
      refine cutsOf_congr fun segment hsegment => Function.update_of_ne ?_ _ _
      rw [hplace]
      exact hfree segment hsegment
    subst hs'
    simp only [StepperSystem.pipe] at hcuts hfresh ⊢
    rw [hcuts, hfresh]
    rfl

theorem StepperSystem.Sound.loads [Mul α] (h : s.Sound) (hpc : s.pc = .load)
    (b : BlockNumbers α) : (prepLoad s b).Sound ∧
      (prepLoad s b).pipe = if s.takesUp then { s.pipe with fresh := true } else s.pipe := by
  have hroom := h.room (by rw [hpc]; rfl)
  rw [prepLoad]
  split
  · rename_i block hblock
    have htakes : s.takesUp = false := by simp [StepperSystem.takesUp, hblock]
    rw [htakes]
    exact ⟨h.proceed h.ring le_rfl (fun _ => rfl) rfl h.whole (fun _ => hroom) (fun _ => hblock ▸ rfl)
      (fun _ => nofun) rfl, rfl⟩
  · rename_i hnone
    split
    · rename_i hempty
      have htakes : s.takesUp = false := by simp [StepperSystem.takesUp, hempty]
      rw [htakes]
      exact ⟨h.goto rfl rfl, rfl⟩
    · rename_i blockIndex hcurrent
      obtain ⟨rfl, hne⟩ := planGetCurrentBlock_eq_some hcurrent
      have htakes : s.takesUp = !s.planner.flagPartialBlock := by
        simp [StepperSystem.takesUp, hnone, hcurrent]
      rw [htakes]
      cases hpartial : s.planner.flagPartialBlock with
      | true =>
        exact ⟨h.proceed (h.ring.take hne) le_rfl (fun _ => rfl)
          (by rw [Planner.loaded, Planner.loaded, hpartial, Bool.or_true]; rfl) (fun _ => rfl)
          (fun _ => hroom) (fun _ => rfl) (fun _ => nofun) rfl, rfl⟩
      | false =>
        exact h.copies (by rw [hpc]; rfl) (by rw [Planner.loaded, hnone, hpartial]; rfl) hne b rfl

/-- A segment is written behind those in the ring. -/
theorem StepperSystem.Sound.store (h : s.Sound) (hcutting : s.pc.isCutting = true)
    (hfilling : s.pc.isFilling = true) (pc : PrepPc α) (hfinish : pc.isFinishing = false)
    (segment : StSegment) (hsegment : ∀ r, pc = .publish r → segment = prepSegmentOf s r) (x : α) :
    ({ s with
      segmentBuffer := Function.update s.segmentBuffer s.segmentBufferHead segment
      planner := { s.planner with currentSpeed := x }, pc := pc } : StepperSystem α).Sound ∧
    ({ s with
      segmentBuffer := Function.update s.segmentBuffer s.segmentBufferHead segment
      planner := { s.planner with currentSpeed := x }, pc := pc } : StepperSystem α).pipe =
        s.pipe := by
  obtain ⟨E, K, ks, hnumbered, hpos⟩ := h.numbered
  have hqueue : contents (Function.update s.segmentBuffer s.segmentBufferHead segment)
      segmentBufferSize s.segmentBufferHead s.segmentBufferTail = s.queue :=
    h.inRing.contents_store segment
  have hpipe : ({ s with
      segmentBuffer := Function.update s.segmentBuffer s.segmentBufferHead segment
      planner := { s.planner with currentSpeed := x }, pc := pc } : StepperSystem α).pipe =
        s.pipe := by
    simp only [StepperSystem.pipe, StepperSystem.lastIndex, StepperSystem.queue,
      h.inRing.contents_store]
    rfl
  refine ⟨{ h with
    ring := ⟨h.ring.inRing, h.ring.nextHead, h.ring.taken, h.ring.planned⟩
    room := fun _ => h.room hfilling
    taken := fun _ => h.taken hcutting
    filled := fun r hr => (Function.update_self ..).trans (hsegment r hr)
    settled := ?_
    numbered := ⟨E, K, ks, hnumbered.of_eq rfl rfl hqueue rfl, hpos⟩ }, hpipe⟩
  rw [hpipe]
  rintro (hnot | hfin)
  · exact h.settled (.inl hnot)
  · exact absurd (hfinish.symm.trans hfin) Bool.false_ne_true

/-- A forced end leaves the block in hand, with the steps that remain. -/
theorem StepperSystem.Sound.forcedEnds [SpeedNumber α] (h : s.Sound)
    (hcutting : s.pc.isCutting = true) (r : SegmentNumbers α) :
    ∃ p', forcedEnd s r =
        some { s with planner := p', prepStepsRemaining := r.nStepsRemaining, pc := .idle } ∧
      s.planner.SameMoves p' ∧ p'.loaded = true ∧
      ({ s with planner := p', prepStepsRemaining := r.nStepsRemaining, pc := .idle } :
        StepperSystem α).Sound := by
  have htaken := h.taken hcutting
  have hspeed : ({ s.planner with currentSpeed := 0 } : Planner α).Ring :=
    ⟨h.ring.inRing, h.ring.nextHead, h.ring.taken, h.ring.planned⟩
  have hmillimeters := sameMoves_setMillimeters { s.planner with currentSpeed := 0 } r.millimeters
  obtain ⟨p', hp', hmoves, hring, hloaded, hnone⟩ :=
    (hspeed.setMillimeters r.millimeters).reinitializes (by rw [setMillimeters_eq]; exact htaken)
  have hall : s.planner.SameMoves p' := by
    have hzero : s.planner.SameMoves { s.planner with currentSpeed := 0 } :=
      ⟨rfl, rfl, rfl, fun _ => rfl⟩
    exact (hzero.trans hmillimeters).trans hmoves
  refine ⟨p', by rw [forcedEnd, hp']; rfl, hall, hloaded, ?_⟩
  refine h.proceed hring hall.count.ge (fun _ => hall.blockInHand) ?_ (fun hsome => ?_) nofun nofun
    (fun _ => nofun) rfl
  · rw [hloaded, Planner.loaded, htaken, Bool.true_or]
  · rw [hnone] at hsome
    cases hsome

/-- A segment is filled, or the motion has come to its forced end. -/
theorem StepperSystem.Sound.fills [SpeedNumber α] (h : s.Sound) (hpc : s.pc = .segment)
    (r : SegmentNumbers α) : ∃ s', prepFill s r = some s' ∧ s'.Sound ∧ s'.pipe = s.pipe ∧
      s.planner.SameMoves s'.planner ∧ s'.planner.loaded = true ∧
      (s'.pc = .publish r ∧ ¬(prepSteps s r = 0 ∧ s.suspended = true) ∧
          s'.prepStepsRemaining = s.prepStepsRemaining ∨
        s'.pc = .idle ∧ prepSteps s r = 0 ∧ s'.prepStepsRemaining = r.nStepsRemaining) := by
  have hcutting : s.pc.isCutting = true := by rw [hpc]; rfl
  have hfilling : s.pc.isFilling = true := by rw [hpc]; rfl
  simp only [prepFill]
  split_ifs with hnothing
  · obtain ⟨hsound, hpipe⟩ := h.store hcutting hfilling s.pc (by rw [hpc]; rfl)
      { s.segmentBuffer s.segmentBufferHead with stBlockIndex := s.prepStBlockIndex, nStep := 0 }
      (fun r hr => by rw [hpc] at hr; cases hr) r.currentSpeed
    obtain ⟨p', hs', hmoves, hloaded, hsound'⟩ := hsound.forcedEnds hcutting r
    exact ⟨_, hs', hsound', hpipe, ⟨hmoves.tail, hmoves.head, hmoves.position, hmoves.move⟩,
      hloaded, .inr ⟨rfl, hnothing.1, rfl⟩⟩
  · obtain ⟨hsound, hpipe⟩ := h.store hcutting hfilling (.publish r) rfl
      (prepSegmentOf s r) (fun r' hr => by cases hr; rfl) r.currentSpeed
    refine ⟨_, rfl, hsound, hpipe, ⟨rfl, rfl, rfl, fun _ => rfl⟩, ?_, .inl ⟨rfl, hnothing, rfl⟩⟩
    rw [Planner.loaded, h.taken hcutting, Bool.true_or]

theorem cutsOf_concat {blocks : ℕ → StBlock} {segments : List StSegment} {segment : StSegment} :
    cutsOf blocks e (segments ++ [segment]) = cutsOf blocks e segments ++
      [cutOf blocks ((segments.map StSegment.stBlockIndex).getLastD e) segment] := by
  induction segments generalizing e with
  | nil => rfl
  | cons other segments ih =>
    rw [List.cons_append, cutsOf, cutsOf, ih, List.map_cons, List.getLastD_cons, List.cons_append]

/-- A segment goes out. -/
theorem StepperSystem.Sound.publishes (h : s.Sound) {r : SegmentNumbers α}
    (hpc : s.pc = .publish r) : (prepPublish s r).Sound ∧
      (prepPublish s r).pipe = s.pipe.send (prepSegmentOf s r) s.blockInHand := by
  obtain ⟨E, K, ks, hnumbered, hpos⟩ := h.numbered
  have hroom := h.room (by rw [hpc]; rfl)
  have htaken := h.taken (by rw [hpc]; rfl)
  have hloaded : s.planner.loaded = true := by rw [Planner.loaded, htaken, Bool.true_or]
  have hqueue : (prepPublish s r).queue = s.queue ++ [prepSegmentOf s r] := by
    rw [StepperSystem.queue, StepperSystem.queue, ← h.filled r hpc]
    simp only [prepPublish, h.nextHead]
    exact h.inRing.contents_advance hroom
  have hnumbered' : (prepPublish s r).Numbered E K (ks ++ [K]) := by
    refine ⟨hnumbered.exec, ?_, hnumbered.prep, consecutive_concat.mpr ⟨hnumbered.consecutive,
      hnumbered.last⟩, .inl List.getLastD_concat.symm, ?_, ?_⟩
    · rw [hqueue, List.map_append, List.map_append, hnumbered.queue, List.map_singleton,
        List.map_singleton, prepSegmentOf, hnumbered.prep]
    · refine hnumbered.started.imp_right fun ⟨hnone, hzero, hall⟩ => ⟨hnone, hzero, fun k hk => ?_⟩
      obtain hk | hk := List.mem_append.mp hk
      · exact hall k hk
      · rw [List.mem_singleton.mp hk]
        exact hpos hloaded
    · refine hnumbered.running.imp_right fun ⟨hsegment, hblock, ks', hks⟩ =>
        ⟨hsegment, hblock, ks' ++ [K], by rw [hks, List.cons_append]⟩
  have hfresh : (prepPublish s r).pipe.fresh = false :=
    hnumbered'.fresh.mpr List.getLastD_concat.symm
  constructor
  · exact { h with
      inRing := by
        show InRing segmentBufferSize s.segmentNextHead s.segmentBufferTail
        rw [h.nextHead]
        exact h.inRing.push
      nextHead := nextSegment_eq (by
        rw [h.nextHead]
        exact next_lt _ _)
      room := fun hr => nomatch hr
      taken := fun _ => htaken
      filled := fun _ hr => nomatch hr
      settled := fun _ => hfresh
      numbered := ⟨E, K, ks ++ [K], hnumbered', hpos⟩ }
  · have hcuts : (prepPublish s r).pipe.cuts =
        s.pipe.cuts ++ [cutOf s.stBlockBuffer s.lastIndex (prepSegmentOf s r)] := by
      show cutsOf s.stBlockBuffer s.st.execBlockIndex _ = _
      rw [hqueue, cutsOf_concat]
      rfl
    have hcopied : s.stBlockBuffer (prepSegmentOf s r).stBlockIndex = s.blockInHand :=
      h.copied hloaded
    rw [cutOf, hcopied] at hcuts
    simp only [StepperSystem.pipe, SegmentPipe.send] at hcuts hfresh ⊢
    rw [hcuts, hfresh]
    rfl

theorem StepperSystem.Sound.finishes [SpeedNumber α] (h : s.Sound) {r : SegmentNumbers α}
    (hpc : s.pc = .finish r) : ∃ s', prepFinish s r = some s' ∧ s'.Sound ∧ s'.pipe = s.pipe := by
  have hcutting : s.pc.isCutting = true := by rw [hpc]; rfl
  have htaken := h.taken hcutting
  rw [prepFinish]
  split
  · have hmoves := sameMoves_setMillimeters s.planner r.millimeters
    refine ⟨_, rfl, h.proceed (h.ring.setMillimeters _) hmoves.count.ge
      (fun _ => hmoves.blockInHand) ?_ ?_ nofun nofun
      (fun _ => nofun) rfl, rfl⟩
    · rw [setMillimeters_eq]
      rfl
    · rw [setMillimeters_eq]
      exact h.whole
  · obtain ⟨p', hs', -, -, hsound⟩ := h.forcedEnds hcutting r
    exact ⟨_, hs', hsound, rfl⟩
  · obtain ⟨E, K, ks, hnumbered, -⟩ := h.numbered
    have hnone : ({ s.planner with plBlock := none } : Planner α).Ring :=
      ⟨h.ring.inRing, h.ring.nextHead, fun _ hblock => (nomatch hblock), h.ring.planned⟩
    obtain ⟨hring, -⟩ := hnone.discard rfl (h.count_pos (by rw [Planner.loaded, htaken, Bool.true_or]))
    have hloaded : (planDiscardCurrentBlock { s.planner with plBlock := none }).loaded = false := by
      rw [planDiscardCurrentBlock_eq]
      exact h.whole htaken
    have hidle : (planDiscardCurrentBlock { s.planner with plBlock := none }).plBlock = none := by
      rw [planDiscardCurrentBlock_eq]
    refine ⟨_, rfl, { h with
      ring := hring
      room := nofun
      taken := nofun
      whole := fun hsome => ?_
      count_pos := fun hload => absurd (hloaded.symm.trans hload) Bool.false_ne_true
      filled := fun _ hr => nomatch hr
      copied := fun hload => absurd (hloaded.symm.trans hload) Bool.false_ne_true
      settled := fun _ => h.settled (.inr (by rw [hpc]; rfl))
      numbered := ⟨E, K, ks, hnumbered.of_eq rfl rfl rfl rfl,
        fun hload => absurd (hloaded.symm.trans hload) Bool.false_ne_true⟩ }, rfl⟩
    rw [show (planDiscardCurrentBlock _).plBlock = none from hidle] at hsome
    cases hsome

/-- **The next statement** of the main program keeps the invariant, and sends what it should. -/
theorem StepperSystem.Sound.statement [SpeedNumber α] (h : s.Sound) (b : BlockNumbers α)
    (r : SegmentNumbers α) : ∃ s', prepStatement s b r = some s' ∧ s'.Sound ∧
      s'.pipe = s.pipe.event s (.statement b r) := by
  rw [prepStatement, SegmentPipe.event]
  cases hpc : s.pc with
  | idle => exact ⟨s, rfl, h, rfl⟩
  | test => exact ⟨_, rfl, h.tests⟩
  | load => exact ⟨_, rfl, h.loads hpc b⟩
  | segment =>
    obtain ⟨s', hs', hsound, hpipe, -⟩ := h.fills hpc r
    exact ⟨s', hs', hsound, hpipe⟩
  | publish r => exact ⟨_, rfl, h.publishes hpc⟩
  | finish r => exact h.finishes hpc

/-! ### Lines, states and resets -/

/-- The lines that are left to do, the first one perhaps in part. -/
def Planner.moves (p : Planner α) : List Move :=
  (List.range p.count).map fun i => (p.blockBuffer (p.cell i)).move

theorem Planner.SameMoves.moves (h : p.SameMoves p') : p'.moves = p.moves := by
  rw [Planner.moves, Planner.moves, h.count]
  refine List.map_congr_left fun i _ => ?_
  rw [h.move, Planner.cell, Planner.cell, h.tail]

theorem Planner.Ring.moves_head (h : p.Ring) (hne : 0 < p.count) :
    p.moves.head? = some (p.blockBuffer p.blockBufferTail).move := by
  rw [Planner.moves, List.head?_map, List.head?_range, if_neg hne.ne', Option.map_some, h.cell_zero]

theorem Planner.length_moves (p : Planner α) : p.moves.length = p.count := by
  rw [Planner.moves, List.length_map, List.length_range]

/-- A line with a step comes behind the others.  One without is forgotten. -/
theorem Planner.Ring.line [SpeedNumber α] (h : p.Ring) (hfull : planCheckFullBuffer p = false)
    (m : LineMove α) : ∃ p', planBufferLine p m = some p' ∧ p'.Ring ∧ p'.loaded = p.loaded ∧
      ((p.plBlock.isSome = true → p.flagPartialBlock = false) →
        p'.plBlock.isSome = true → p'.flagPartialBlock = false) ∧
      (if (lineBlock p m).stepEventCount = 0 then p'.moves = p.moves ∧ p'.position = p.position
      else p'.moves = p.moves ++ [(lineBlock p m).move] ∧ p'.position = m.targetSteps) := by
  rw [planBufferLine]
  split_ifs with hzero
  · refine ⟨_, rfl, ⟨h.inRing, h.nextHead, h.taken, h.planned⟩, rfl, id, ?_, rfl⟩
    refine List.map_congr_left fun i hi => congrArg PlanBlock.move (Function.update_of_ne ?_ _ _)
    exact h.inRing.cell_ne_head (List.mem_range.mp hi)
  · obtain ⟨hring, hcount, hold⟩ := h.push hfull m
    obtain ⟨p', hp', hroute, hring'⟩ := hring.recalculates (by omega)
    refine ⟨p', hp', hring', hroute.loaded, hroute.whole, ?_, hroute.position⟩
    rw [hroute.moves.moves, Planner.moves, hcount, List.range_succ, List.map_append,
      List.map_singleton]
    congr 1
    · exact List.map_congr_left fun i hi => congrArg PlanBlock.move (hold i (List.mem_range.mp hi))
    · rw [show (pushBlock p m).cell p.count = p.blockBufferHead from h.cell_count, pushBlock]
      simp only [Planner.setBlock, Function.update_self]
      rfl

theorem Planner.Ring.stUpdate [SpeedNumber α] (h : p.Ring) :
    (stUpdatePlanBlockParameters p).Ring := by
  obtain ⟨n, hn, hplanned⟩ := h.planned
  exact (sameRoute_stUpdate p).ring h hn ((stUpdate_planned p).trans hplanned)

/-- Outside of `st_prep_buffer` the planner may change. -/
theorem StepperSystem.Sound.replan (h : s.Sound) (hidle : s.pc.isIdle = true) (hring : p'.Ring)
    (hcount : s.planner.count ≤ p'.count)
    (hhand : 0 < s.planner.count →
      stBlockOf (p'.blockBuffer p'.blockBufferTail) = s.blockInHand)
    (hloaded : p'.loaded = s.planner.loaded)
    (hwhole : p'.plBlock.isSome = true → p'.flagPartialBlock = false) :
    ({ s with planner := p' } : StepperSystem α).Sound := by
  have hpc : s.pc = .idle := by
    cases hs : s.pc <;> first | rfl | (rw [hs] at hidle; cases hidle)
  refine h.proceed hring hcount hhand hloaded hwhole ?_ ?_ ?_ ?_
  all_goals rw [hpc]
  · nofun
  · nofun
  · nofun
  · rfl

/-- The initialisation leaves a machine with nothing to do. -/
theorem sound_mainReset [SpeedNumber α] (s : StepperSystem α) :
    (mainReset s).Sound ∧ (mainReset s).pipe = s.pipe.reset := by
  have hring := (sound_planReset s.planner).ring
  have hnumbered : (mainReset s).Numbered 0 0 [] :=
    ⟨rfl, rfl, rfl, trivial, .inl rfl, .inr ⟨rfl, rfl, fun _ hk => nomatch hk⟩, .inl rfl⟩
  exact ⟨⟨⟨hring.inRing, hring.nextHead, nofun, hring.planned⟩, InRing.zero _, rfl, nofun, nofun,
    nofun, nofun, nofun, nofun, fun _ => rfl, 0, 0, [], hnumbered, nofun⟩, rfl⟩

/-- **Any event** that fits is defined, keeps the invariant, and does to the pipe what it should. -/
theorem StepperSystem.Sound.step [SpeedNumber α] (h : s.Sound) {e : StepperEvent α}
    (he : e.Fits s) :
    ∃ s', stepperStep s e = some s' ∧ s'.Sound ∧ s'.pipe = s.pipe.event s e := by
  cases e with
  | interrupt =>
    obtain ⟨s', hs', -, hsound, hpipe⟩ := h.interrupt
    exact ⟨s', hs', hsound, hpipe⟩
  | statement b r => exact h.statement b r
  | prepBuffer =>
    refine ⟨_, rfl, ?_⟩
    rw [prepCall]
    split_ifs
    · exact ⟨h, rfl⟩
    · exact ⟨h.goto rfl rfl, rfl⟩
    · exact ⟨h, rfl⟩
  | line m =>
    simp only [stepperStep, SegmentPipe.event]
    split_ifs with hidle
    · obtain ⟨p', hp', hring, hloaded, hwhole, hmoves⟩ := h.ring.line (he hidle) m
      have hmoves' : ∃ ms, p'.moves = s.planner.moves ++ ms := by
        split_ifs at hmoves
        · exact ⟨[], by rw [hmoves.1, List.append_nil]⟩
        · exact ⟨_, hmoves.1⟩
      obtain ⟨ms, hms⟩ := hmoves'
      have hcount : s.planner.count ≤ p'.count := by
        rw [← Planner.length_moves, ← Planner.length_moves, hms, List.length_append]
        omega
      refine ⟨{ s with planner := p' }, by rw [hp']; rfl,
        h.replan hidle hring hcount (fun hne => ?_) hloaded (hwhole h.whole), rfl⟩
      have hhead := hring.moves_head (hne.trans_le hcount)
      rw [hms, List.head?_append_of_ne_nil _ (by
        rw [← List.length_pos_iff, Planner.length_moves]
        exact hne), h.ring.moves_head hne] at hhead
      exact (stBlockOf_congr (Option.some.inj hhead)).symm
    · exact ⟨s, rfl, h, rfl⟩
  | state state =>
    simp only [stepperStep, SegmentPipe.event]
    obtain ⟨E, K, ks, hnumbered, hpos⟩ := h.numbered
    split_ifs
    · exact ⟨_, rfl, { h with numbered := ⟨E, K, ks, hnumbered.of_eq rfl rfl rfl rfl, hpos⟩ }, rfl⟩
    · exact ⟨s, rfl, h, rfl⟩
  | updateParameters =>
    simp only [stepperStep, SegmentPipe.event]
    split_ifs with hidle
    · have hroute := sameRoute_stUpdate s.planner
      exact ⟨_, rfl, h.replan hidle h.ring.stUpdate hroute.count.ge
        (fun _ => hroute.moves.blockInHand) hroute.loaded (hroute.whole h.whole), rfl⟩
    · exact ⟨s, rfl, h, rfl⟩
  | reset =>
    simp only [stepperStep, SegmentPipe.event]
    split_ifs
    · exact ⟨_, rfl, sound_mainReset s⟩
    · exact ⟨s, rfl, h, rfl⟩

/-- Every index is inside of its array: `segment_buffer` has `SEGMENT_BUFFER_SIZE` places,
`st_block_buffer` one less, and `block_buffer` `BLOCK_BUFFER_SIZE`. -/
structure StepperSystem.InBounds (s : StepperSystem α) : Prop where
  segmentBufferTail : s.segmentBufferTail < segmentBufferSize
  segmentBufferHead : s.segmentBufferHead < segmentBufferSize
  segmentNextHead : s.segmentNextHead < segmentBufferSize
  execSegment : ∀ i, s.st.execSegment = some i → i < segmentBufferSize
  stBlockIndex : ∀ segment ∈ s.queue, segment.stBlockIndex < segmentBufferSize - 1
  prepStBlockIndex : s.prepStBlockIndex < segmentBufferSize - 1
  execBlockIndex : s.st.execBlockIndex < segmentBufferSize - 1
  execBlock : ∀ i, s.st.execBlock = some i → i < segmentBufferSize - 1
  blockBufferTail : s.planner.blockBufferTail < blockBufferSize
  blockBufferHead : s.planner.blockBufferHead < blockBufferSize
  nextBufferHead : s.planner.nextBufferHead < blockBufferSize
  blockBufferPlanned : s.planner.blockBufferPlanned < blockBufferSize
  plBlock : ∀ i, s.planner.plBlock = some i → i < blockBufferSize

theorem StepperSystem.Sound.inBounds (h : s.Sound) : s.InBounds := by
  obtain ⟨E, K, ks, hnumbered, -⟩ := h.numbered
  obtain ⟨n, -, hplanned⟩ := h.ring.planned
  have hplace : ∀ k, k % blockPlaces < segmentBufferSize - 1 := fun k => Nat.mod_lt _ (by decide)
  have hexec : s.st.execBlockIndex < segmentBufferSize - 1 := hnumbered.exec ▸ hplace E
  refine ⟨h.inRing.tail_lt, h.inRing.head_lt, h.nextHead ▸ next_lt _ _, fun i hi => ?_,
    fun segment hsegment => ?_, hnumbered.prep ▸ hplace K, hexec, fun i hi => ?_,
    h.ring.inRing.tail_lt, h.ring.inRing.head_lt, h.ring.nextHead ▸ next_lt _ _,
    hplanned ▸ Nat.mod_lt _ (by decide), fun i hi => ?_⟩
  · obtain hidle | ⟨hrunning, -⟩ := hnumbered.running
    · cases hidle.symm.trans hi
    · cases hrunning.symm.trans hi
      exact h.inRing.tail_lt
  · have hmem := List.mem_map_of_mem (f := StSegment.stBlockIndex) hsegment
    rw [hnumbered.queue] at hmem
    obtain ⟨k, -, hk⟩ := List.mem_map.mp hmem
    rw [← hk]
    exact hplace k
  · obtain hblock | ⟨hnone, -⟩ := hnumbered.started
    · cases hblock.symm.trans hi
      exact hexec
    · cases hnone.symm.trans hi
  · rw [(h.ring.taken i hi).1]
    exact h.ring.inRing.tail_lt

/-- **The segment buffer is a pipe.**  However the interrupt and the main program take turns, every
index is inside of its array, and every event is defined and does to the pipe just what it is meant
to do. -/
theorem segment_pipe [SpeedNumber α] (s : StepperSystem α) {es : List (StepperEvent α)}
    (hes : Admitted stepperStep (fun s e => e.Fits s) (mainReset s) es) :
    Throughout stepperStep (fun s => s.InBounds ∧ ∀ e : StepperEvent α, e.Fits s →
      ∃ s', stepperStep s e = some s' ∧ s'.InBounds ∧ s'.pipe = s.pipe.event s e)
        (mainReset s) es := by
  refine (throughout_of_admitted (fun s e h he => ?_) (sound_mainReset s).1 hes).mono
    fun s h => ⟨h.inBounds, fun e he => ?_⟩
  · obtain ⟨s', hs', hsound, -⟩ := h.step he
    exact ⟨s', hs', hsound⟩
  · obtain ⟨s', hs', hsound, hpipe⟩ := h.step he
    exact ⟨s', hs', hsound.inBounds, hpipe⟩

/-- Two lines, cut into segments while the interrupt is at work. -/
def segmentEvents : List (StepperEvent ℤ) :=
  let line (x : ℤ) : StepperEvent ℤ := .line
    { targetSteps := fun _ => x, millimeters := 2, acceleration := 1, nominalSpeedSqr := 9
      junctionSpeedSqr := 4 }
  let cut (n : ℕ) (outcome : SegmentEnd) : StepperEvent ℤ := .statement
    { currentSpeed := 0, exitSpeed := 0 }
    { nStepsRemaining := n, cycles := 9000, currentSpeed := 1, millimeters := 1, outcome := outcome }
  [line 3, line 5, .prepBuffer, cut 0 .blockIncomplete, cut 0 .blockIncomplete,
    cut 1 .blockIncomplete, cut 1 .blockIncomplete, .interrupt, cut 1 .blockIncomplete,
    .interrupt, cut 0 .blockIncomplete, cut 0 .blockComplete, cut 0 .blockComplete, .interrupt,
    cut 0 .blockComplete, cut 0 .blockIncomplete, .interrupt]

theorem segment_pipe_run : Throughout stepperStep (fun s => s.InBounds ∧
    ∀ e : StepperEvent ℤ, e.Fits s → ∃ s', stepperStep s e = some s' ∧ s'.InBounds ∧
      s'.pipe = s.pipe.event s e) (mainReset default) segmentEvents :=
  segment_pipe default (by decide +kernel)

end PcbMill
