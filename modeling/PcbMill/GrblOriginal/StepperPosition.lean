import PcbMill.GrblOriginal.SegmentBuffer

/-!
# No step is lost

`plan_buffer_line` moves the planner's position to the end of the line at once, the interrupt moves
that of the machine step by step.  `Work` says what is between the two: the lines that are planned,
the block in hand with the steps that are left of it, and the pipe.  All of it together takes the
machine to the planner's position, in whatever order the main program and the interrupt go on, at
every level of step smoothing, and through a feed hold.
-/

namespace PcbMill

open FixedWidth RingBuffer PartialRun LineTracer

variable {α : Type*}

/-- The direction of an axis. -/
def directionSign (directionBits : Byte) (idx : AxisIndex) : ℤ :=
  if directionBits &&& getDirectionPinMask idx ≠ 0#8 then -1 else 1

theorem stepPosition_eq (block : StBlock) (idx : AxisIndex) (x : ℤ) :
    stepPosition block idx x = x + directionSign block.directionBits idx := by
  rw [stepPosition, directionSign]
  split_ifs
  · rfl
  · rfl

/-- Without an overflow a tick of an axis is one of its counter. -/
theorem axisTick_eq {m c a : ℕ} (hc : c ≤ m) (ha : a ≤ m) (hm : m < 2 ^ 31) :
    axisTick c a m = (counter m c a, decide (m < c + a)) := by
  simp only [axisTick, counter]
  rw [add32_of_lt (by omega)]
  split_ifs with h
  · rw [sub32_of_le (by omega) (by omega), decide_eq_true h]
  · rw [decide_eq_false h]

/-! ### The pipe -/

/-- The axes are no faster than the line, no sum of the interrupt overflows, and the steps can be
halved as often as step smoothing may ask for. -/
structure StBlock.Valid (block : StBlock) : Prop where
  one_lt : 1 < block.stepEventCount
  lt : block.stepEventCount < 2 ^ 31
  even : 2 ∣ block.stepEventCount
  steps_le : ∀ idx, block.steps idx ≤ block.stepEventCount
  smooth : ∀ idx, 2 ^ maxAmassLevel ∣ block.steps idx

structure Cut.Valid (cut : Cut) : Prop where
  pos : 0 < cut.nStep
  lt : cut.nStep < 2 ^ 16
  level : cut.amassLevel ≤ maxAmassLevel
  block : cut.block.Valid

/-- The segment as a part of the line of an axis. -/
def Cut.chunk (idx : AxisIndex) (cut : Cut) : Chunk where
  first := cut.fresh
  increments := cut.nStep * (cut.block.steps idx >>> cut.amassLevel)
  threshold := cut.block.stepEventCount
  sign := directionSign cut.block.directionBits idx

namespace SegmentPipe

/-- What is left in the pipe: of the cut under way, the ticks that are still to come. -/
def remaining (p : SegmentPipe) : List Cut :=
  match p.cuts with
  | [] => []
  | cut :: cuts => (if p.running then { cut with nStep := p.stepCount } else cut) :: cuts

structure Valid (p : SegmentPipe) : Prop where
  cuts : ∀ cut ∈ p.cuts, cut.Valid
  running : p.running = true → ∃ cut cuts, p.cuts = cut :: cuts ∧ cut.fresh = false ∧
    0 < p.stepCount ∧ p.stepCount < 2 ^ 16 ∧
    ∀ idx, p.steps idx = cut.block.steps idx >>> cut.amassLevel

/-- The counter of an axis fits the cuts that come. -/
def Fits (p : SegmentPipe) (idx : AxisIndex) (cuts : List Cut) : Prop :=
  ∃ m, Linked m (p.counter idx) (cuts.map (Cut.chunk idx))

/-- Where the cuts take an axis. -/
def goal (p : SegmentPipe) (idx : AxisIndex) (cuts : List Cut) : ℤ :=
  p.position idx + travel (p.counter idx) (cuts.map (Cut.chunk idx))

variable {p : SegmentPipe} {cut : Cut} {cuts : List Cut} {idx : AxisIndex} {rest : List Cut}

theorem remaining_nil (hcuts : p.cuts = []) : p.remaining = [] := by rw [remaining, hcuts]

theorem remaining_idle (hcuts : p.cuts = cut :: cuts) (hidle : p.running = false) :
    p.remaining = cut :: cuts := by
  rw [remaining, hcuts, hidle]
  rfl

theorem remaining_running (hcuts : p.cuts = cut :: cuts) (hrunning : p.running = true) :
    p.remaining = { cut with nStep := p.stepCount } :: cuts := by
  rw [remaining, hcuts, hrunning]
  rfl

/-- A segment comes under way. -/
theorem Valid.start (h : p.Valid) (hcuts : p.cuts = cut :: cuts) (hidle : p.running = false) :
    (p.start cut cuts).Valid ∧ (p.start cut cuts).remaining = { cut with fresh := false } :: cuts ∧
      ∀ idx rest, p.Fits idx (p.remaining ++ rest) →
        (p.start cut cuts).Fits idx ((p.start cut cuts).remaining ++ rest) ∧
        (p.start cut cuts).goal idx ((p.start cut cuts).remaining ++ rest) =
          p.goal idx (p.remaining ++ rest) := by
  have hcut := h.cuts cut (hcuts ▸ List.mem_cons_self)
  refine ⟨⟨fun other hother => ?_, fun _ => ⟨_, cuts, rfl, rfl, hcut.pos, hcut.lt, fun _ => rfl⟩⟩,
    rfl, fun idx rest ⟨m, hlinked⟩ => ?_⟩
  · obtain rfl | hother := List.mem_cons.mp hother
    · exact ⟨hcut.pos, hcut.lt, hcut.level, hcut.block⟩
    · exact h.cuts other (hcuts ▸ List.mem_cons_of_mem _ hother)
  · have hcounter : (p.start cut cuts).counter idx = (cut.chunk idx).start (p.counter idx) := by
      by_cases hfresh : cut.fresh = true
      · rw [Chunk.start, if_pos (show (cut.chunk idx).first = true from hfresh)]
        exact (congrFun (if_pos hfresh) idx).trans (Nat.shiftRight_eq_div_pow _ 1)
      · rw [Chunk.start, if_neg (show ¬ (cut.chunk idx).first = true from hfresh)]
        exact congrFun (if_neg hfresh) idx
    rw [remaining_idle hcuts hidle, List.cons_append, List.map_cons] at hlinked
    refine ⟨⟨_, hcounter ▸ hlinked.begin⟩, ?_⟩
    rw [goal, goal, hcounter, remaining_idle hcuts hidle]
    rfl

section Tick

variable {block : StBlock} {k : ℕ}

theorem tick_cuts (block : StBlock) (hcuts : p.cuts = cut :: cuts)
    (hcount : sub16 p.stepCount 1 = k) :
    (p.tick block).cuts = if k = 0 then cuts else p.cuts := by
  simp only [SegmentPipe.tick, hcount, hcuts, List.tail_cons]

theorem tick_running (block : StBlock) (hcount : sub16 p.stepCount 1 = k) :
    (p.tick block).running = decide (k ≠ 0) := by
  simp only [SegmentPipe.tick, hcount]

/-- A tick takes one off the cut under way, and the cut off the pipe with its last one. -/
theorem tick_remaining (block : StBlock) (hcuts : p.cuts = cut :: cuts)
    (hcount : sub16 p.stepCount 1 = k) :
    (p.tick block).remaining = if k = 0 then cuts else { cut with nStep := k } :: cuts := by
  have hcuts' := tick_cuts block hcuts hcount
  have hrunning := tick_running block hcount
  split_ifs with hzero
  · rw [if_pos hzero] at hcuts'
    rw [remaining, hcuts', hrunning, hzero]
    cases cuts with
    | nil => rfl
    | cons other others => rfl
  · rw [if_neg hzero, hcuts] at hcuts'
    rw [remaining_running hcuts' (hrunning.trans (decide_eq_true hzero))]
    simp only [SegmentPipe.tick, hcount]

theorem tick_counter (hc : p.counter idx ≤ block.stepEventCount)
    (ha : p.steps idx ≤ block.stepEventCount) (hblock : block.stepEventCount < 2 ^ 31) :
    (p.tick block).counter idx =
      LineTracer.counter block.stepEventCount (p.counter idx) (p.steps idx) := by
  simp only [SegmentPipe.tick, axisTick_eq hc ha hblock]

theorem tick_position (hc : p.counter idx ≤ block.stepEventCount)
    (ha : p.steps idx ≤ block.stepEventCount) (hblock : block.stepEventCount < 2 ^ 31) :
    (p.tick block).position idx = p.position idx + directionSign block.directionBits idx *
      fires block.stepEventCount (p.counter idx) (p.steps idx) := by
  simp only [SegmentPipe.tick, axisTick_eq hc ha hblock, stepPosition_eq, fires, decide_eq_true_eq]
  split_ifs
  · rw [Nat.cast_one, mul_one]
  · rw [Nat.cast_zero, mul_zero, add_zero]

/-- What one axis sees of a tick: the counter fits the cuts that are left, and they take it where
they did before. -/
theorem tick_axis (hcuts : p.cuts = cut :: cuts) (hrunning : p.running = true)
    (hcount : p.stepCount = k + 1) (hk : k < 2 ^ 16 - 1) (hfresh : cut.fresh = false)
    (hsteps : p.steps idx = cut.block.steps idx >>> cut.amassLevel)
    (ha : p.steps idx ≤ cut.block.stepEventCount) (hblock : cut.block.stepEventCount < 2 ^ 31)
    (hfits : p.Fits idx (p.remaining ++ rest)) :
    (p.tick cut.block).Fits idx ((p.tick cut.block).remaining ++ rest) ∧
      (p.tick cut.block).goal idx ((p.tick cut.block).remaining ++ rest) =
        p.goal idx (p.remaining ++ rest) := by
  obtain ⟨m, hlinked⟩ := hfits
  have hchunks : (p.remaining ++ rest).map (Cut.chunk idx) =
      ⟨false, p.steps idx + k * p.steps idx, cut.block.stepEventCount,
        directionSign cut.block.directionBits idx⟩ :: (cuts ++ rest).map (Cut.chunk idx) := by
    rw [remaining_running hcuts hrunning, List.cons_append, List.map_cons, Cut.chunk, hfresh,
      hcount, ← hsteps, Nat.succ_mul, Nat.add_comm]
  rw [hchunks] at hlinked
  obtain rfl : cut.block.stepEventCount = m := hlinked.2.1.1
  have hc := hlinked.2.1.2
  have hcounter := tick_counter hc ha hblock
  have hnext := hlinked.tick ha
  rw [← hcounter] at hnext
  have hmove : p.goal idx (p.remaining ++ rest) = (p.tick cut.block).position idx +
      travel ((p.tick cut.block).counter idx) (⟨false, k * p.steps idx,
        cut.block.stepEventCount, directionSign cut.block.directionBits idx⟩ ::
          (cuts ++ rest).map (Cut.chunk idx)) := by
    rw [goal, hchunks, travel_tick hc ha hlinked.1, tick_position hc ha hblock, hcounter, add_assoc]
  have hremaining := tick_remaining cut.block hcuts (k := k) (by
    rw [hcount, sub16_of_le (by omega) (by omega), Nat.add_sub_cancel])
  rw [hmove]
  rcases Nat.eq_zero_or_pos k with rfl | hkpos
  · rw [if_pos rfl] at hremaining
    rw [Nat.zero_mul] at hnext ⊢
    rw [hremaining, travel_done hnext.2.1.2 hnext.1]
    exact ⟨⟨_, hnext.done⟩, rfl⟩
  · rw [if_neg hkpos.ne'] at hremaining
    have hchunks' : ((p.tick cut.block).remaining ++ rest).map (Cut.chunk idx) =
        ⟨false, k * p.steps idx, cut.block.stepEventCount,
          directionSign cut.block.directionBits idx⟩ :: (cuts ++ rest).map (Cut.chunk idx) := by
      rw [hremaining, List.cons_append, List.map_cons, Cut.chunk, hfresh, ← hsteps]
    rw [goal, Fits, hchunks']
    exact ⟨⟨_, hnext⟩, rfl⟩

end Tick

/-- **A tick** takes an axis as far as it takes the counter down. -/
theorem Valid.tick (h : p.Valid) (hcuts : p.cuts = cut :: cuts) (hrunning : p.running = true) :
    (p.tick cut.block).Valid ∧
      ((p.tick cut.block).remaining = cuts ∨
        ∃ n, (p.tick cut.block).remaining = { cut with nStep := n } :: cuts) ∧
      ∀ idx rest, p.Fits idx (p.remaining ++ rest) →
        (p.tick cut.block).Fits idx ((p.tick cut.block).remaining ++ rest) ∧
        (p.tick cut.block).goal idx ((p.tick cut.block).remaining ++ rest) =
          p.goal idx (p.remaining ++ rest) := by
  obtain ⟨other, others, hother, hfresh, hpos, hlt, hsteps⟩ := h.running hrunning
  obtain ⟨rfl, rfl⟩ := List.cons.inj (hcuts.symm.trans hother)
  obtain ⟨-, hblock, -, hle, -⟩ := (h.cuts cut (hcuts ▸ List.mem_cons_self)).block
  obtain ⟨k, hk⟩ : ∃ k, p.stepCount = k + 1 := ⟨p.stepCount - 1, by omega⟩
  have hcount : sub16 p.stepCount 1 = k := by
    rw [sub16_of_le (by omega) (by omega)]
    omega
  have hcuts' := tick_cuts cut.block hcuts hcount
  have hrunning' := tick_running cut.block hcount
  refine ⟨⟨fun other hother => ?_, fun hrun => ?_⟩, ?_, fun idx rest hfits => ?_⟩
  · rw [hcuts'] at hother
    split_ifs at hother
    · exact h.cuts other (hcuts ▸ List.mem_cons_of_mem _ hother)
    · exact h.cuts other hother
  · have hne : k ≠ 0 := of_decide_eq_true (hrunning'.symm.trans hrun)
    refine ⟨cut, cuts, by rw [hcuts', if_neg hne, hcuts], hfresh, ?_, ?_, hsteps⟩
    · show 0 < sub16 p.stepCount 1
      omega
    · show sub16 p.stepCount 1 < 2 ^ 16
      omega
  · rw [tick_remaining cut.block hcuts hcount]
    split_ifs
    · exact .inl rfl
    · exact .inr ⟨k, rfl⟩
  · have ha : p.steps idx ≤ cut.block.stepEventCount := by
      rw [hsteps]
      exact (Nat.shiftRight_le _ _).trans (hle idx)
    exact tick_axis hcuts hrunning hk (by omega) hfresh (hsteps idx) ha hblock hfits

/-- **The interrupt** takes something off the front of the pipe, and leaves the goal where it is. -/
theorem Valid.interrupt (h : p.Valid) : p.interrupt.Valid ∧
    (p.interrupt.remaining = p.remaining ∨ p.interrupt.remaining = p.remaining.tail ∨
      ∃ cut n, p.remaining.head? = some cut ∧
        p.interrupt.remaining = { cut with nStep := n, fresh := false } :: p.remaining.tail) ∧
    ∀ idx rest, p.Fits idx (p.remaining ++ rest) →
      p.interrupt.Fits idx (p.interrupt.remaining ++ rest) ∧
      p.interrupt.goal idx (p.interrupt.remaining ++ rest) = p.goal idx (p.remaining ++ rest) := by
  rcases hcuts : p.cuts with - | ⟨cut, cuts⟩
  · rw [interrupt_nil hcuts]
    exact ⟨⟨h.cuts, h.running⟩, .inl rfl, fun idx rest hfits => ⟨hfits, rfl⟩⟩
  · rw [interrupt_cons hcuts]
    cases hrunning : p.running with
    | true =>
      obtain ⟨hvalid, hremaining, htick⟩ := h.tick hcuts hrunning
      refine ⟨hvalid, .inr ?_, htick⟩
      rw [remaining_running hcuts hrunning]
      obtain ⟨other, others, hother, hfresh, -⟩ := h.running hrunning
      obtain ⟨rfl, rfl⟩ := List.cons.inj (hcuts.symm.trans hother)
      refine hremaining.imp id fun ⟨n, hn⟩ => ⟨_, n, rfl, hn.trans ?_⟩
      rw [← hfresh]
      rfl
    | false =>
      obtain ⟨hvalid, hremaining, hstart⟩ := h.start hcuts hrunning
      obtain ⟨hvalid', hremaining', htick⟩ :=
        hvalid.tick rfl rfl
      refine ⟨hvalid', .inr ?_, fun idx rest hfits => ?_⟩
      · rw [remaining_idle hcuts hrunning]
        exact hremaining'.imp id fun ⟨n, hn⟩ => ⟨_, n, rfl, hn⟩
      · obtain ⟨hfits, hgoal⟩ := hstart idx rest hfits
        obtain ⟨hfits', hgoal'⟩ := htick idx rest hfits
        exact ⟨hfits', hgoal'.trans hgoal⟩

/-- A segment comes behind the others. -/
theorem Valid.remaining_send (h : p.Valid) (segment : StSegment) (block : StBlock) :
    (p.send segment block).remaining = p.remaining ++
      [{ nStep := segment.nStep, cyclesPerTick := segment.cyclesPerTick
         amassLevel := segment.amassLevel, block := block, fresh := p.fresh }] := by
  rcases hcuts : p.cuts with - | ⟨cut, cuts⟩
  · have hidle : p.running = false := by
      by_contra hrun
      obtain ⟨_, _, hcons, -⟩ := h.running (by simpa using hrun)
      rw [hcuts] at hcons
      cases hcons
    have hsend : (p.send segment block).cuts = [⟨segment.nStep, segment.cyclesPerTick,
        segment.amassLevel, block, p.fresh⟩] := by rw [SegmentPipe.send, hcuts]; rfl
    rw [remaining_idle hsend hidle, remaining_nil hcuts]
    rfl
  · have hsend : (p.send segment block).cuts = cut :: (cuts ++ [⟨segment.nStep,
        segment.cyclesPerTick, segment.amassLevel, block, p.fresh⟩]) := by
      rw [SegmentPipe.send, hcuts]
      rfl
    rw [remaining, hsend, remaining, hcuts]
    rfl

end SegmentPipe

/-! ### The work that is left -/

/-- A line with a step, of axes that are no faster than the line. -/
structure Move.Valid (m : Move) : Prop where
  pos : 0 < m.stepEventCount
  le : m.stepEventCount ≤ 2 ^ 24
  steps_le : ∀ idx, m.steps idx ≤ m.stepEventCount

def Move.distance (idx : AxisIndex) (m : Move) : ℤ :=
  directionSign m.directionBits idx * m.steps idx

theorem u32_shift {n : ℕ} (h : n < 2 ^ 28) : u32 (n <<< maxAmassLevel) = 2 ^ maxAmassLevel * n := by
  rw [Nat.shiftLeft_eq, Nat.mul_comm, u32]
  simp only [maxAmassLevel]
  omega

theorem Move.Valid.lt {m : Move} (h : m.Valid) : m.stepEventCount < 2 ^ 28 :=
  h.le.trans_lt (by decide)

theorem Move.Valid.block_steps {m : Move} (h : m.Valid) (idx : AxisIndex) :
    m.block.steps idx = 2 ^ maxAmassLevel * m.steps idx := u32_shift ((h.steps_le idx).trans_lt h.lt)

theorem Move.Valid.block_count {m : Move} (h : m.Valid) :
    m.block.stepEventCount = 2 ^ maxAmassLevel * m.stepEventCount := u32_shift h.lt

theorem Move.Valid.block {m : Move} (h : m.Valid) : m.block.Valid where
  one_lt := by
    have := h.pos
    rw [h.block_count, maxAmassLevel]
    omega
  lt := by
    have := h.lt
    rw [h.block_count, maxAmassLevel]
    omega
  even := by
    rw [h.block_count]
    exact Dvd.dvd.mul_right (by decide) _
  steps_le := fun idx => by
    rw [h.block_count, h.block_steps]
    exact Nat.mul_le_mul_left _ (h.steps_le idx)
  smooth := fun idx => ⟨m.steps idx, h.block_steps idx⟩

/-- The pipe, the block in hand with the steps that are left of it, the lines behind it, and the
position all of that leads to. -/
structure Work where
  pipe : SegmentPipe
  hand : Option (StBlock × ℕ)
  moves : List Move
  target : AxisIndex → ℤ

namespace Work

/-- The rest of the block in hand, as if it were a segment. -/
def inHand (w : Work) : List Cut :=
  match w.hand with
  | none => []
  | some (block, n) =>
    [{ nStep := n, cyclesPerTick := 0, amassLevel := 0, block := block, fresh := w.pipe.fresh }]

/-- The lines that are begun or in hand. -/
def cuts (w : Work) : List Cut := w.pipe.remaining ++ w.inHand

/-- How far an axis has still to go. -/
def ahead (w : Work) (idx : AxisIndex) : ℤ :=
  travel (w.pipe.counter idx) (w.cuts.map (Cut.chunk idx)) +
    (w.moves.map (Move.distance idx)).sum

/-- What can happen to the work. -/
inductive Step : Work → Work → Prop
  | interrupt (w : Work) : Step w { w with pipe := w.pipe.interrupt }
  | state (w : Work) (state : Byte) : Step w { w with pipe := { w.pipe with state := state } }
  /-- The next line is taken in hand. -/
  | take (w : Work) {m : Move} {ms : List Move} (hhand : w.hand = none) (hmoves : w.moves = m :: ms) :
    Step w { w with
      pipe := { w.pipe with fresh := true }, hand := some (m.block, m.stepEventCount), moves := ms }
  /-- A segment of `k` steps is sent. -/
  | cut (w : Work) {block : StBlock} {k n : ℕ} (hhand : w.hand = some (block, k + n))
    (segment : StSegment) (hlevel : segment.amassLevel ≤ maxAmassLevel)
    (hsteps : segment.nStep = k <<< segment.amassLevel) (hpos : 0 < segment.nStep)
    (hlt : segment.nStep < 2 ^ 16) :
    Step w { w with pipe := w.pipe.send segment block, hand := some (block, n) }
  /-- The line in hand has been sent. -/
  | done (w : Work) {block : StBlock} (hhand : w.hand = some (block, 0))
    (hfresh : w.pipe.fresh = false) : Step w { w with hand := none }
  | line (w : Work) (m : Move) (hvalid : m.Valid) :
    Step w { w with
      moves := w.moves ++ [m], target := fun idx => w.target idx + m.distance idx }
  | reset (w : Work) :
    Step w { pipe := w.pipe.reset, hand := none, moves := [], target := w.pipe.position }

/-- A cut that is not fresh is of the same block as the one before. -/
def SameLine (before cut : Cut) : Prop := cut.fresh = false → cut.block = before.block

/-- The work leads to its target. -/
structure Exact (w : Work) : Prop where
  pipe : w.pipe.Valid
  hand : ∀ block n, w.hand = some (block, n) → block.Valid
  moves : ∀ m ∈ w.moves, m.Valid
  lines : List.IsChain SameLine w.cuts
  fits : ∀ idx, w.pipe.Fits idx w.cuts
  target : ∀ idx, w.pipe.position idx + w.ahead idx = w.target idx

variable {w w' : Work} {a b : Cut} {as : List Cut}

theorem inHand_none (hhand : w.hand = none) : w.inHand = [] := by rw [inHand, hhand]

theorem inHand_some {block : StBlock} {n : ℕ} (hhand : w.hand = some (block, n)) : w.inHand =
    [{ nStep := n, cyclesPerTick := 0, amassLevel := 0, block := block
       fresh := w.pipe.fresh }] := by
  rw [inHand, hhand]

/-- Of the first cut, only the block counts for those behind. -/
theorem isChain_head (h : List.IsChain SameLine (a :: as)) (hblock : b.block = a.block) :
    List.IsChain SameLine (b :: as) := by
  cases as with
  | nil => exact .singleton b
  | cons a' as =>
    rw [List.isChain_cons_cons] at h ⊢
    exact ⟨fun hfresh => (h.1 hfresh).trans hblock.symm, h.2⟩

theorem Exact.interrupt (h : w.Exact) : ({ w with pipe := w.pipe.interrupt } : Work).Exact := by
  obtain ⟨hvalid, hremaining, hrest⟩ := h.pipe.interrupt
  have hhand : ({ w with pipe := w.pipe.interrupt } : Work).inHand = w.inHand := by
    rw [inHand, inHand, SegmentPipe.interrupt_fresh]
  have hcuts : ({ w with pipe := w.pipe.interrupt } : Work).cuts =
      w.pipe.interrupt.remaining ++ w.inHand := congrArg (_ ++ ·) hhand
  refine ⟨hvalid, h.hand, h.moves, ?_, fun idx => ?_, fun idx => ?_⟩
  · have hlines := h.lines
    rw [hcuts]
    rw [cuts] at hlines
    obtain hsame | htail | ⟨cut, n, hhead, hcons⟩ := hremaining
    · rwa [hsame]
    · rw [htail]
      cases hold : w.pipe.remaining with
      | nil => rwa [hold] at hlines
      | cons cut cuts =>
        rw [hold] at hlines
        exact hlines.tail
    · rw [hcons]
      cases hold : w.pipe.remaining with
      | nil => rw [hold] at hhead; cases hhead
      | cons cut cuts =>
        rw [hold] at hhead hlines
        obtain rfl := Option.some.inj hhead
        exact isChain_head hlines rfl
  · rw [hcuts]
    exact (hrest idx _ (h.fits idx)).1
  · have hgoal := (hrest idx _ (h.fits idx)).2
    have htarget := h.target idx
    rw [ahead, ← add_assoc] at htarget ⊢
    rw [hcuts]
    exact (congrArg (· + _) hgoal).trans htarget

theorem Exact.take (h : w.Exact) {m : Move} {ms : List Move} (hhand : w.hand = none)
    (hmoves : w.moves = m :: ms) : ({ w with
      pipe := { w.pipe with fresh := true }, hand := some (m.block, m.stepEventCount)
      moves := ms } : Work).Exact := by
  have hm : m.Valid := h.moves m (hmoves ▸ List.mem_cons_self)
  have hcuts : w.cuts = w.pipe.remaining := by rw [cuts, inHand_none hhand, List.append_nil]
  have hchunks : ∀ idx, (w.pipe.remaining ++ [(⟨m.stepEventCount, 0, 0, m.block, true⟩ : Cut)]).map
      (Cut.chunk idx) = w.pipe.remaining.map (Cut.chunk idx) ++
        [⟨true, m.block.stepEventCount * m.steps idx, m.block.stepEventCount,
          directionSign m.directionBits idx⟩] := by
    intro idx
    rw [List.map_append, List.map_singleton, Cut.chunk, Nat.shiftRight_zero,
      show m.stepEventCount * m.block.steps idx = m.block.stepEventCount * m.steps idx by
        rw [hm.block_steps, hm.block_count, Nat.mul_left_comm, Nat.mul_assoc]]
    rfl
  refine ⟨⟨h.pipe.cuts, h.pipe.running⟩, fun block n heq => ?_, fun other hother =>
    h.moves other (hmoves ▸ List.mem_cons_of_mem _ hother), ?_, fun idx => ?_, fun idx => ?_⟩
  · obtain ⟨rfl, rfl⟩ := Prod.mk.inj (Option.some.inj heq)
    exact hm.block
  · refine List.isChain_append.mpr ⟨hcuts ▸ h.lines, .singleton _, fun _ _ cut hcut hfresh => ?_⟩
    obtain rfl := Option.some.inj hcut
    cases hfresh
  · obtain ⟨c, hlinked⟩ := h.fits idx
    rw [hcuts] at hlinked
    exact ⟨c, (hchunks idx).symm ▸ hlinked.concat_line hm.block.one_lt⟩
  · have htarget := h.target idx
    rw [ahead, hcuts, hmoves, List.map_cons, List.sum_cons, ← add_assoc (travel _ _)] at htarget
    rw [← htarget, ahead]
    show w.pipe.position idx + (travel (w.pipe.counter idx) ((w.pipe.remaining ++
      [(⟨m.stepEventCount, 0, 0, m.block, true⟩ : Cut)]).map (Cut.chunk idx)) + _) = _
    rw [hchunks, travel_concat_line hm.block.one_lt]
    rfl

/-- A segment of `k` steps has `k` times the steps of the block, at any level of smoothing. -/
theorem shift_mul_shift {level k a : ℕ} (hlevel : level ≤ maxAmassLevel)
    (ha : 2 ^ maxAmassLevel ∣ a) : (k <<< level) * (a >>> level) = k * a := by
  obtain ⟨b, rfl⟩ := (pow_dvd_pow 2 hlevel).trans ha
  rw [Nat.shiftLeft_eq, Nat.shiftRight_eq_div_pow, Nat.mul_div_cancel_left _ (Nat.two_pow_pos _),
    Nat.mul_assoc]

theorem Exact.cut (h : w.Exact) {block : StBlock} {k n : ℕ} (hhand : w.hand = some (block, k + n))
    {segment : StSegment} (hlevel : segment.amassLevel ≤ maxAmassLevel)
    (hsteps : segment.nStep = k <<< segment.amassLevel) (hpos : 0 < segment.nStep)
    (hlt : segment.nStep < 2 ^ 16) :
    ({ w with pipe := w.pipe.send segment block, hand := some (block, n) } : Work).Exact := by
  have hblock := h.hand _ _ hhand
  have hthreshold : 0 < block.stepEventCount := Nat.lt_of_succ_lt hblock.one_lt
  have hcuts : w.cuts = w.pipe.remaining ++ [⟨k + n, 0, 0, block, w.pipe.fresh⟩] := by
    rw [cuts, inHand_some hhand]
  have hcuts' : ({ w with
      pipe := w.pipe.send segment block, hand := some (block, n) } : Work).cuts =
        w.pipe.remaining ++ [⟨segment.nStep, segment.cyclesPerTick, segment.amassLevel, block,
          w.pipe.fresh⟩] ++ [⟨n, 0, 0, block, false⟩] := by
    rw [cuts, h.pipe.remaining_send]
    rfl
  have hchunks : ∀ idx, w.cuts.map (Cut.chunk idx) = w.pipe.remaining.map (Cut.chunk idx) ++
      [⟨w.pipe.fresh, k * block.steps idx + n * block.steps idx, block.stepEventCount,
        directionSign block.directionBits idx⟩] := by
    intro idx
    rw [hcuts, List.map_append, List.map_singleton, Cut.chunk, Nat.shiftRight_zero, Nat.add_mul]
  have hchunks' : ∀ idx, ({ w with
      pipe := w.pipe.send segment block, hand := some (block, n) } : Work).cuts.map
        (Cut.chunk idx) = w.pipe.remaining.map (Cut.chunk idx) ++
          [⟨w.pipe.fresh, k * block.steps idx, block.stepEventCount,
            directionSign block.directionBits idx⟩] ++
          [⟨false, n * block.steps idx, block.stepEventCount,
            directionSign block.directionBits idx⟩] := by
    intro idx
    rw [hcuts', List.map_append, List.map_append, List.map_singleton, List.map_singleton, Cut.chunk,
      Cut.chunk, Nat.shiftRight_zero]
    simp only [hsteps]
    rw [shift_mul_shift hlevel (hblock.smooth idx)]
  refine ⟨⟨fun cut hcut => ?_, fun hrun => ?_⟩, fun other m heq => ?_, h.moves, ?_, fun idx => ?_,
    fun idx => ?_⟩
  · obtain hcut | hcut := List.mem_append.mp hcut
    · exact h.pipe.cuts cut hcut
    · obtain rfl := List.mem_singleton.mp hcut
      exact ⟨hpos, hlt, hlevel, hblock⟩
  · obtain ⟨cut, cuts, hcuts, hrest⟩ := h.pipe.running hrun
    exact ⟨cut, _, by rw [SegmentPipe.send, hcuts, List.cons_append], hrest⟩
  · obtain ⟨rfl, rfl⟩ := Prod.mk.inj (Option.some.inj heq)
    exact hblock
  · have hlines := h.lines
    rw [hcuts, List.isChain_append] at hlines
    rw [hcuts', List.append_assoc, List.isChain_append]
    refine ⟨hlines.1, List.isChain_cons_cons.mpr ⟨fun _ => rfl, .singleton _⟩,
      fun before hbefore cut hcut hfresh => ?_⟩
    obtain rfl := Option.some.inj hcut
    exact hlines.2.2 before hbefore ⟨k + n, 0, 0, block, w.pipe.fresh⟩ rfl hfresh
  · obtain ⟨c, hlinked⟩ := h.fits idx
    rw [hchunks] at hlinked
    exact ⟨c, (hchunks' idx).symm ▸ hlinked.concat_split⟩
  · have htarget := h.target idx
    rw [ahead, hchunks, travel_concat_split hthreshold] at htarget
    rw [ahead, hchunks']
    exact htarget

theorem Exact.done (h : w.Exact) {block : StBlock} (hhand : w.hand = some (block, 0))
    (hfresh : w.pipe.fresh = false) : ({ w with hand := none } : Work).Exact := by
  have hcuts : w.cuts = w.pipe.remaining ++ [⟨0, 0, 0, block, false⟩] := by
    rw [cuts, inHand_some hhand, hfresh]
  have hcuts' : ({ w with hand := none } : Work).cuts = w.pipe.remaining := by
    rw [cuts, inHand_none rfl, List.append_nil]
  have hchunks : ∀ idx, w.cuts.map (Cut.chunk idx) = w.pipe.remaining.map (Cut.chunk idx) ++
      [⟨false, 0, block.stepEventCount, directionSign block.directionBits idx⟩] := by
    intro idx
    rw [hcuts, List.map_append, List.map_singleton, Cut.chunk, Nat.zero_mul]
  refine ⟨h.pipe, fun _ _ heq => (nomatch heq), h.moves, ?_, fun idx => ?_, fun idx => ?_⟩
  · have hlines := h.lines
    rw [hcuts] at hlines
    rw [hcuts']
    exact (List.isChain_append.mp hlines).1
  · obtain ⟨c, hlinked⟩ := h.fits idx
    rw [hchunks] at hlinked
    rw [hcuts']
    exact ⟨c, hlinked.concat_done.1⟩
  · obtain ⟨c, hlinked⟩ := h.fits idx
    have htarget := h.target idx
    rw [hchunks] at hlinked
    rw [ahead, hchunks, hlinked.concat_done.2] at htarget
    rw [ahead, hcuts']
    exact htarget

theorem Exact.append (h : w.Exact) {m : Move} (hvalid : m.Valid) : ({ w with
    moves := w.moves ++ [m], target := fun idx => w.target idx + m.distance idx } : Work).Exact := by
  refine ⟨h.pipe, h.hand, fun other hother => ?_, h.lines, h.fits, fun idx => ?_⟩
  · obtain hother | hother := List.mem_append.mp hother
    · exact h.moves other hother
    · exact List.mem_singleton.mp hother ▸ hvalid
  · have htarget := h.target idx
    rw [ahead] at htarget ⊢
    rw [List.map_append, List.sum_append, List.map_singleton, List.sum_singleton, ← add_assoc,
      ← add_assoc]
    rw [← add_assoc] at htarget
    exact congrArg (· + _) htarget

theorem exact_reset (p : SegmentPipe) :
    ({ pipe := p.reset, hand := none, moves := [], target := p.position } : Work).Exact where
  pipe := ⟨fun _ hcut => (nomatch hcut), nofun⟩
  hand := fun _ _ heq => nomatch heq
  moves := fun _ hm => nomatch hm
  lines := .nil
  fits := fun _ => ⟨0, rfl⟩
  target := fun _ => add_zero _

/-- **Whatever happens**, the work leads to its target. -/
theorem Exact.step (h : w.Exact) (hstep : Step w w') : w'.Exact := by
  cases hstep with
  | interrupt => exact h.interrupt
  | state state => exact ⟨⟨h.pipe.cuts, h.pipe.running⟩, h.hand, h.moves, h.lines, h.fits, h.target⟩
  | take hhand hmoves => exact h.take hhand hmoves
  | cut hhand segment hlevel hsteps hpos hlt => exact h.cut hhand hlevel hsteps hpos hlt
  | done hhand hfresh => exact h.done hhand hfresh
  | line m hvalid => exact h.append hvalid
  | reset => exact exact_reset w.pipe

/-! ### The line that has begun -/

/-- What is left of the line that has begun. -/
def line (w : Work) : List Cut := w.cuts.takeWhile fun cut => !cut.fresh

/-- How far an axis has still to go on that line. -/
def lineAhead (w : Work) (idx : AxisIndex) : ℤ :=
  travel (w.pipe.counter idx) (w.line.map (Cut.chunk idx))

/-- The step events that are left of that line, as many of them as step smoothing makes of one at
its highest level. -/
def lineEvents (w : Work) : ℕ :=
  (w.line.map fun cut => cut.nStep <<< (maxAmassLevel - cut.amassLevel)).sum

theorem fresh_of_mem_line {cut : Cut} (hcut : cut ∈ w.line) : cut.fresh = false := by
  simpa using List.all_eq_true.mp List.all_takeWhile cut hcut

/-- The cuts that go on with a line are of its block. -/
theorem block_of_mem_takeWhile (h : List.IsChain SameLine (a :: as)) {cut : Cut}
    (hcut : cut ∈ as.takeWhile fun cut => !cut.fresh) : cut.block = a.block := by
  induction as generalizing a with
  | nil => cases hcut
  | cons b as ih =>
    rw [List.isChain_cons_cons] at h
    cases hfresh : b.fresh with
    | true => rw [List.takeWhile_cons, hfresh] at hcut; cases hcut
    | false =>
      rw [List.takeWhile_cons, hfresh] at hcut
      obtain rfl | hcut := List.mem_cons.mp hcut
      · exact h.1 hfresh
      · exact (ih h.2 hcut).trans (h.1 hfresh)

/-- The line that has begun is of one block, whose threshold the counters go by. -/
theorem Exact.line_block (h : w.Exact) {cut : Cut} (hcut : cut ∈ w.line) :
    (∀ other ∈ w.line, other.block = cut.block) ∧ ∀ idx, Linked cut.block.stepEventCount
      (w.pipe.counter idx) (w.cuts.map (Cut.chunk idx)) := by
  have hlines := h.lines
  have hfits := h.fits
  rw [line] at hcut ⊢
  cases hcuts : w.cuts with
  | nil => rw [hcuts] at hcut; cases hcut
  | cons a as =>
    rw [hcuts] at hcut hlines hfits
    cases hfresh : a.fresh with
    | true => rw [List.takeWhile_cons, hfresh] at hcut; cases hcut
    | false =>
      have hsame : ∀ other ∈ (a :: as).takeWhile fun cut => !cut.fresh, other.block = a.block := by
        intro other hother
        rw [List.takeWhile_cons, hfresh] at hother
        obtain rfl | hother := List.mem_cons.mp hother
        · rfl
        · exact block_of_mem_takeWhile hlines hother
      refine ⟨fun other hother => (hsame other hother).trans (hsame cut hcut).symm, fun idx => ?_⟩
      obtain ⟨m, hlinked⟩ := hfits idx
      have hhead := hlinked.2.1
      rw [if_neg (show ¬ (a.chunk idx).first = true by
        rw [Cut.chunk, hfresh]; exact Bool.false_ne_true)] at hhead
      rw [hsame cut hcut, show a.block.stepEventCount = m from hhead.1]
      exact hlinked

/-- The increments of a segment, in step events of the highest level. -/
theorem chunk_increments {cut : Cut} (hlevel : cut.amassLevel ≤ maxAmassLevel)
    (hblock : cut.block.Valid) (idx : AxisIndex) : (cut.chunk idx).increments =
      (cut.nStep <<< (maxAmassLevel - cut.amassLevel)) * (cut.block.steps idx >>> maxAmassLevel) := by
  obtain ⟨b, hb⟩ := hblock.smooth idx
  have hpow : 2 ^ maxAmassLevel = 2 ^ cut.amassLevel * 2 ^ (maxAmassLevel - cut.amassLevel) := by
    rw [← pow_add, Nat.add_sub_cancel' hlevel]
  simp only [Cut.chunk]
  rw [hb, Nat.shiftRight_eq_div_pow, Nat.shiftRight_eq_div_pow, Nat.shiftLeft_eq,
    Nat.mul_div_cancel_left _ (Nat.two_pow_pos _), hpow, Nat.mul_assoc,
    Nat.mul_div_cancel_left _ (Nat.two_pow_pos _), Nat.mul_assoc]

theorem Exact.valid_of_mem_cuts (h : w.Exact) {cut : Cut} (hcut : cut ∈ w.cuts) :
    cut.amassLevel ≤ maxAmassLevel ∧ cut.block.Valid := by
  obtain hcut | hcut := List.mem_append.mp hcut
  · rw [SegmentPipe.remaining] at hcut
    cases hcuts : w.pipe.cuts with
    | nil => rw [hcuts] at hcut; cases hcut
    | cons first cuts =>
      have hall := h.pipe.cuts
      rw [hcuts] at hcut hall
      obtain rfl | hcut := List.mem_cons.mp hcut
      · have hfirst := hall first List.mem_cons_self
        split_ifs
        · exact ⟨hfirst.level, hfirst.block⟩
        · exact ⟨hfirst.level, hfirst.block⟩
      · exact ⟨(hall cut (List.mem_cons_of_mem _ hcut)).level,
          (hall cut (List.mem_cons_of_mem _ hcut)).block⟩
  · rw [inHand] at hcut
    split at hcut
    · cases hcut
    · rename_i hhand
      obtain rfl := List.mem_singleton.mp hcut
      exact ⟨Nat.zero_le _, h.hand _ _ hhand⟩

/-- **The line is followed**: an axis is no more than half a step away from it. -/
theorem Exact.abs_lineAhead_sub_le (h : w.Exact) {cut : Cut} (hcut : cut ∈ w.line) (idx : AxisIndex) :
    2 * |cut.block.stepEventCount * w.lineAhead idx - directionSign cut.block.directionBits idx *
      (w.lineEvents * (cut.block.steps idx >>> maxAmassLevel) : ℕ)| ≤ cut.block.stepEventCount := by
  obtain ⟨hblock, hlinked⟩ := h.line_block hcut
  have hsplit : w.cuts = w.line ++ w.cuts.dropWhile fun cut => !cut.fresh :=
    List.takeWhile_append_dropWhile.symm
  have hle := (hlinked idx).le
  have hvalid : ∀ other ∈ w.line, other.amassLevel ≤ maxAmassLevel ∧ other.block.Valid :=
    fun other hother => h.valid_of_mem_cuts (hsplit ▸ List.mem_append_left _ hother)
  have hevents : ((w.line.map (Cut.chunk idx)).map Chunk.increments).sum =
      w.lineEvents * (cut.block.steps idx >>> maxAmassLevel) := by
    rw [lineEvents, ← List.sum_map_mul_right, List.map_map]
    congr 1
    refine List.map_congr_left fun other hother => ?_
    rw [Function.comp_apply, chunk_increments (hvalid other hother).1 (hvalid other hother).2,
      hblock other hother]
  have hline := hlinked idx
  rw [hsplit, List.map_append] at hline
  have htravel := hline.line (d := directionSign cut.block.directionBits idx) ?first ?sign ?rest
  case first =>
    intro q hq
    obtain ⟨other, hother, rfl⟩ := List.mem_map.mp hq
    exact fresh_of_mem_line hother
  case sign =>
    intro q hq
    obtain ⟨other, hother, rfl⟩ := List.mem_map.mp hq
    rw [Cut.chunk, hblock other hother]
  case rest =>
    intro q hq
    have hhead := List.head?_dropWhile_not (fun cut : Cut => !cut.fresh) w.cuts
    rw [List.head?_map] at hq
    obtain ⟨other, hother, rfl⟩ := Option.map_eq_some_iff.mp hq
    rw [hother] at hhead
    show other.fresh = true
    simpa using hhead
  rw [hevents] at htravel
  obtain ⟨k, hk⟩ := (hvalid cut hcut).2.even
  have hsign : |directionSign cut.block.directionBits idx| = 1 := by
    rw [directionSign]
    split_ifs <;> rfl
  rw [lineAhead, htravel, ← mul_sub, abs_mul, hsign, one_mul, hk, Nat.mul_div_cancel_left k two_pos]
  rw [hk] at hle
  rw [show (w.pipe.counter idx : ℤ) + (w.lineEvents * (cut.block.steps idx >>> maxAmassLevel) : ℕ) -
    k - (w.lineEvents * (cut.block.steps idx >>> maxAmassLevel) : ℕ) = w.pipe.counter idx - k by ring]
  have habs : |(w.pipe.counter idx : ℤ) - k| ≤ k := abs_le.mpr ⟨by omega, by omega⟩
  omega

end Work

/-! ### The stepper's work -/

variable {s s' : StepperSystem α}

/-- The steps of the block in hand that are not sent yet. -/
def StepperSystem.stepsLeft (s : StepperSystem α) : ℕ :=
  match s.pc with
  | .finish r => r.nStepsRemaining
  | _ => s.prepStepsRemaining

def StepperSystem.work (s : StepperSystem α) : Work where
  pipe := s.pipe
  hand := if s.planner.loaded then some (s.blockInHand, s.stepsLeft) else none
  moves := if s.planner.loaded then s.planner.moves.tail else s.planner.moves
  target := s.planner.position

/-- What the velocity profile gives fits the block: no more steps remain than before, none of them
if it is the end of the block, and the ticks of the segment can be counted.  A segment without a
step comes in a feed hold, a motion cancel or at the safety door only. -/
def SegmentNumbers.Regular (s : StepperSystem α) (r : SegmentNumbers α) : Prop :=
  r.nStepsRemaining ≤ s.prepStepsRemaining ∧
    (s.prepStepsRemaining - r.nStepsRemaining) <<< amassLevel r.cycles < 2 ^ 16 ∧
    (r.nStepsRemaining = s.prepStepsRemaining → s.suspended = true) ∧
    (r.outcome = .blockComplete → r.nStepsRemaining = 0)

instance (s : StepperSystem α) (r : SegmentNumbers α) : Decidable (r.Regular s) :=
  inferInstanceAs (Decidable (_ ∧ _ ∧ _ ∧ _))

/-- A line has room, and its steps can be counted in a `float`; and segments are regular. -/
def StepperEvent.Regular (s : StepperSystem α) : StepperEvent α → Prop
  | .line m => s.pc.isIdle = true → planCheckFullBuffer s.planner = false ∧
      ∀ idx, (m.distance s.planner idx).natAbs ≤ 2 ^ 24
  | .statement _ r =>
    match s.pc with
    | .segment => r.Regular s
    | _ => True
  | _ => True

instance (s : StepperSystem α) (e : StepperEvent α) : Decidable (e.Regular s) :=
  match e with
  | .line m => inferInstanceAs (Decidable (_ → _ ∧ ∀ idx, _))
  | .statement _ r => by
    simp only [StepperEvent.Regular]
    split <;> infer_instance
  | .interrupt | .prepBuffer | .state _ | .updateParameters | .reset => isTrue trivial

theorem StepperEvent.Regular.fits {e : StepperEvent α} (h : e.Regular s) : e.Fits s := by
  cases e with
  | line m => exact fun hidle => (h hidle).1
  | _ => trivial

/-- A segment that is under way through `st_prep_buffer` is regular, and has a step. -/
structure StepperSystem.Agreed (s : StepperSystem α) : Prop where
  publish : ∀ r, s.pc = .publish r → r.nStepsRemaining < s.prepStepsRemaining ∧
    (s.prepStepsRemaining - r.nStepsRemaining) <<< amassLevel r.cycles < 2 ^ 16 ∧
    (r.outcome = .blockComplete → r.nStepsRemaining = 0)
  finish : ∀ r, s.pc = .finish r → r.outcome = .blockComplete → r.nStepsRemaining = 0

theorem StepperSystem.work_eq (hpipe : s'.pipe = s.pipe) (hmoves : s.planner.SameMoves s'.planner)
    (hloaded : s'.planner.loaded = s.planner.loaded) (hleft : s'.stepsLeft = s.stepsLeft) :
    s'.work = s.work := by
  rw [StepperSystem.work, StepperSystem.work, hpipe, hloaded, hleft, hmoves.moves, hmoves.position,
    StepperSystem.blockInHand, StepperSystem.blockInHand, hmoves.blockInHand]

theorem StepperSystem.stepsLeft_of_not_finishing (h : s.pc.isFinishing = false) :
    s.stepsLeft = s.prepStepsRemaining := by
  rw [StepperSystem.stepsLeft]
  split
  · rename_i hpc
    rw [hpc] at h
    cases h
  · rfl

/-- A segment has been filled and not published yet. -/
def PrepPc.isPublishing : PrepPc α → Bool
  | .publish _ => true
  | _ => false

/-- Outside of publishing and finishing there is nothing to agree on. -/
theorem StepperSystem.agreed_of (h : s.pc.isPublishing = false) (h' : s.pc.isFinishing = false) :
    s.Agreed :=
  ⟨fun r hr => (by rw [hr] at h; cases h), fun r hr => (by rw [hr] at h'; cases h')⟩

/-- The block at the head of the lines is the one in hand. -/
theorem StepperSystem.Sound.moves_cons (h : s.Sound) (hne : 0 < s.planner.count) :
    s.planner.moves = (s.planner.blockBuffer s.planner.blockBufferTail).move ::
      s.planner.moves.tail := by
  have hhead := h.ring.moves_head hne
  cases hmoves : s.planner.moves with
  | nil => rw [hmoves] at hhead; cases hhead
  | cons m ms => rw [hmoves] at hhead; rw [← Option.some.inj hhead]; rfl

theorem planGetCurrentBlock_isSome {p : Planner α} (h : p.Ring) :
    (planGetCurrentBlock p).isSome = decide (0 < p.count) := by
  rw [planGetCurrentBlock]
  have hzero := h.inRing.held_eq_zero
  split_ifs with hempty
  · rw [decide_eq_false]
    · rfl
    · exact (hzero.mpr hempty).not_gt
  · rw [decide_eq_true]
    · rfl
    · exact Nat.pos_of_ne_zero fun heq => hempty (hzero.mp heq)

/-- The lines without the first. -/
theorem Planner.Ring.discard_moves {p : Planner α} (h : p.Ring) (hnone : p.plBlock = none)
    (hne : 0 < p.count) : (planDiscardCurrentBlock p).moves = p.moves.tail := by
  obtain ⟨-, hcount, hcell, -⟩ := h.discard hnone hne
  have hblocks : (planDiscardCurrentBlock p).blockBuffer = p.blockBuffer := by
    rw [planDiscardCurrentBlock_eq]
  rw [Planner.moves, Planner.moves, ← hcount, List.range_succ_eq_map, List.map_cons, List.tail_cons,
    List.map_map, hblocks]
  exact List.map_congr_left fun i _ => by rw [hcell]; rfl

/-- What the loading of a block does to the planner. -/
theorem prepLoad_planner [Mul α] (s : StepperSystem α) (b : BlockNumbers α) :
    s.planner.SameMoves (prepLoad s b).planner ∧
      (prepLoad s b).planner.loaded = (s.planner.loaded || s.takesUp) ∧
      (prepLoad s b).prepStepsRemaining = (if s.takesUp then
        Binary32.nearest (s.planner.blockBuffer s.planner.blockBufferTail).stepEventCount
        else s.prepStepsRemaining) ∧
      (prepLoad s b).pc.isFinishing = false ∧ (prepLoad s b).pc.isPublishing = false := by
  rw [prepLoad]
  split
  · rename_i hblock
    simp only [StepperSystem.takesUp, Planner.loaded, hblock]
    exact ⟨.refl _, rfl, rfl, rfl, rfl⟩
  · rename_i hnone
    split
    · rename_i hempty
      simp only [StepperSystem.takesUp, Planner.loaded, hnone, hempty]
      exact ⟨.refl _, (Bool.or_false _).symm, rfl, rfl, rfl⟩
    · rename_i hcurrent
      obtain ⟨rfl, hne⟩ := planGetCurrentBlock_eq_some hcurrent
      simp only [StepperSystem.takesUp, Planner.loaded, hnone, hcurrent]
      cases hpartial : s.planner.flagPartialBlock with
      | true => exact ⟨⟨rfl, rfl, rfl, fun _ => rfl⟩, rfl, rfl, rfl, rfl⟩
      | false =>
        obtain ⟨hmoves, hblock, hflag, -⟩ := copyBlock_planner { s with
          planner := { s.planner with
            plBlock := some s.planner.blockBufferTail, flagPartialBlock := false } }
          s.planner.blockBufferTail b
        refine ⟨⟨hmoves.tail, hmoves.head, hmoves.position, hmoves.move⟩, ?_, rfl, rfl, rfl⟩
        show (Option.isSome (copyBlock _ _ b).planner.plBlock || _) = _
        rw [hblock]
        rfl

/-- What an event does to the work. -/
def StepperSystem.WorkStep (s s' : StepperSystem α) : Prop :=
  s'.Agreed ∧ (s'.work = s.work ∨ Work.Step s.work s'.work)

theorem StepperSystem.SameMain.workStep (h : s.SameMain s') (hpipe : s'.pipe = s.pipe.interrupt)
    (hagreed : s.Agreed) : s.WorkStep s' := by
  refine ⟨⟨fun r hr => ?_, fun r hr => hagreed.finish r (h.pc ▸ hr)⟩, .inr ?_⟩
  · rw [h.prepStepsRemaining]
    exact hagreed.publish r (h.pc ▸ hr)
  · have hwork : s'.work = { s.work with pipe := s.work.pipe.interrupt } := by
      simp only [StepperSystem.work, StepperSystem.blockInHand, StepperSystem.stepsLeft, hpipe,
        h.planner, h.pc, h.prepStepsRemaining]
    rw [hwork]
    exact .interrupt _

/-- A line taken up has no more steps than a `float` can hold, so none is lost. -/
theorem StepperSystem.Sound.loads_work [SpeedNumber α] (h : s.Sound) (hpc : s.pc = .load)
    (hvalid : ∀ m ∈ s.work.moves, m.Valid) (b : BlockNumbers α) : s.WorkStep (prepLoad s b) := by
  obtain ⟨hmoves, hloaded, hremaining, hfinish, hpublish⟩ := prepLoad_planner s b
  have hpipe := (h.loads hpc b).2
  have hleft : s.stepsLeft = s.prepStepsRemaining :=
    StepperSystem.stepsLeft_of_not_finishing (by rw [hpc]; rfl)
  have hleft' := StepperSystem.stepsLeft_of_not_finishing hfinish
  refine ⟨StepperSystem.agreed_of hpublish hfinish, ?_⟩
  cases htakes : s.takesUp with
  | false =>
    rw [htakes, Bool.or_false] at hloaded
    rw [htakes] at hpipe hremaining
    exact .inl (StepperSystem.work_eq hpipe hmoves hloaded
      (hleft'.trans (hremaining.trans hleft.symm)))
  | true =>
    rw [htakes, Bool.or_true] at hloaded
    rw [htakes] at hpipe hremaining
    simp only [StepperSystem.takesUp, planGetCurrentBlock_isSome h.ring, Bool.and_eq_true,
      decide_eq_true_eq, Option.isNone_iff_eq_none, Bool.not_eq_true'] at htakes
    obtain ⟨⟨hnone, hcount⟩, hpartial⟩ := htakes
    have hidle : s.planner.loaded = false := by rw [Planner.loaded, hnone, hpartial]; rfl
    have hcons := h.moves_cons hcount
    have hline : s.work.moves = s.planner.moves := by
      rw [StepperSystem.work, hidle]
      rfl
    have hsteps : (s.planner.blockBuffer s.planner.blockBufferTail).stepEventCount ≤ 2 ^ 24 := by
      refine (hvalid (s.planner.blockBuffer s.planner.blockBufferTail).move ?_).le
      rw [hline, hcons]
      exact List.mem_cons_self
    have hwork : (prepLoad s b).work = { s.work with
        pipe := { s.work.pipe with fresh := true }
        hand := some ((s.planner.blockBuffer s.planner.blockBufferTail).move.block,
          (s.planner.blockBuffer s.planner.blockBufferTail).move.stepEventCount)
        moves := s.planner.moves.tail } := by
      rw [StepperSystem.work, hloaded, hpipe, hmoves.moves, hmoves.position, hleft', hremaining,
        if_pos rfl, Binary32.nearest_of_le hsteps, StepperSystem.blockInHand, hmoves.blockInHand]
      rfl
    rw [hwork]
    refine .inr (.take s.work ?_ ?_)
    · rw [StepperSystem.work, hidle]
      rfl
    · rw [hline]
      exact hcons

/-- The steps of a segment are those that do not remain. -/
theorem prepSteps_eq {r : SegmentNumbers α}
    (hlt : (s.prepStepsRemaining - r.nStepsRemaining) <<< amassLevel r.cycles < 2 ^ 16) :
    prepSteps s r = s.prepStepsRemaining - r.nStepsRemaining := by
  have hsteps : s.prepStepsRemaining - r.nStepsRemaining < 2 ^ 16 := by
    refine lt_of_le_of_lt ?_ hlt
    rw [Nat.shiftLeft_eq]
    exact Nat.le_mul_of_pos_right _ (Nat.two_pow_pos _)
  rw [prepSteps, Binary32.nearest_of_le (hsteps.le.trans (by decide)), u16_of_lt hsteps]

theorem StepperSystem.Sound.fills_work [SpeedNumber α] (h : s.Sound) (hpc : s.pc = .segment)
    {r : SegmentNumbers α} (hr : r.Regular s) :
    ∃ s', prepFill s r = some s' ∧ s'.Sound ∧ s.WorkStep s' := by
  obtain ⟨s', hs', hsound, hpipe, hmoves, hloaded, hcases⟩ := h.fills hpc r
  obtain ⟨hle, hlt, hsuspended, hcomplete⟩ := hr
  rw [prepSteps_eq hlt] at hcases
  have hleft : s.stepsLeft = s.prepStepsRemaining :=
    StepperSystem.stepsLeft_of_not_finishing (by rw [hpc]; rfl)
  have hloaded' : s.planner.loaded = true := by
    rw [Planner.loaded, h.taken (by rw [hpc]; rfl), Bool.true_or]
  have hsame := hloaded.trans hloaded'.symm
  refine ⟨s', hs', hsound, ?_⟩
  obtain ⟨hpc', hstep, hprep⟩ | ⟨hpc', hzero, hprep⟩ := hcases
  · have hleft' : s'.stepsLeft = s'.prepStepsRemaining :=
      StepperSystem.stepsLeft_of_not_finishing (by rw [hpc']; rfl)
    refine ⟨⟨fun r' hr' => ?_, fun r' hr' => ?_⟩,
      .inl (StepperSystem.work_eq hpipe hmoves hsame (hleft'.trans (hprep.trans hleft.symm)))⟩
    · obtain rfl : r' = r := PrepPc.publish.inj (hr'.symm.trans hpc')
      rw [hprep]
      refine ⟨lt_of_le_of_ne hle fun heq => hstep ⟨?_, hsuspended heq⟩, hlt, hcomplete⟩
      rw [heq, Nat.sub_self]
    · rw [hpc'] at hr'
      cases hr'
  · have hleft' : s'.stepsLeft = s'.prepStepsRemaining :=
      StepperSystem.stepsLeft_of_not_finishing (by rw [hpc']; rfl)
    refine ⟨StepperSystem.agreed_of (by rw [hpc']; rfl) (by rw [hpc']; rfl),
      .inl (StepperSystem.work_eq hpipe hmoves hsame ?_)⟩
    rw [hleft', hprep, hleft]
    omega

theorem amassLevel_le (cycles : ℕ) : amassLevel cycles ≤ maxAmassLevel := by
  rw [amassLevel]
  split_ifs <;> decide

theorem StepperSystem.Sound.publishes_work (h : s.Sound) (hagreed : s.Agreed)
    {r : SegmentNumbers α} (hpc : s.pc = .publish r) : s.WorkStep (prepPublish s r) := by
  obtain ⟨hlt, hticks, hcomplete⟩ := hagreed.publish r hpc
  have hpipe := (h.publishes hpc).2
  have hloaded : s.planner.loaded = true := by
    rw [Planner.loaded, h.taken (by rw [hpc]; rfl), Bool.true_or]
  have hleft : s.stepsLeft = s.prepStepsRemaining :=
    StepperSystem.stepsLeft_of_not_finishing (by rw [hpc]; rfl)
  have hnStep : (prepSegmentOf s r).nStep =
      (s.prepStepsRemaining - r.nStepsRemaining) <<< (prepSegmentOf s r).amassLevel := by
    simp only [prepSegmentOf]
    rw [prepSteps_eq hticks, u16_of_lt hticks]
  have hwork : (prepPublish s r).work = { s.work with
      pipe := s.work.pipe.send (prepSegmentOf s r) s.blockInHand
      hand := some (s.blockInHand, r.nStepsRemaining) } := by
    rw [StepperSystem.work, hpipe]
    show Work.mk _ (if s.planner.loaded = true then _ else _) _ _ = _
    rw [if_pos hloaded]
    rfl
  refine ⟨⟨fun r' hr' => ?_, fun r' hr' => ?_⟩, .inr ?_⟩
  · rw [prepPublish] at hr'
    cases hr'
  · obtain rfl : r = r' := PrepPc.finish.inj hr'
    exact hcomplete
  · rw [hwork]
    refine .cut s.work (k := s.prepStepsRemaining - r.nStepsRemaining) ?_ _ (amassLevel_le _) hnStep
      ?_ ?_
    · rw [StepperSystem.work, hloaded, hleft, Nat.sub_add_cancel hlt.le]
      rfl
    · rw [hnStep, Nat.shiftLeft_eq]
      exact Nat.mul_pos (Nat.sub_pos_of_lt hlt) (Nat.two_pow_pos _)
    · rw [hnStep]
      exact hticks

theorem StepperSystem.Sound.finishes_work [SpeedNumber α] (h : s.Sound) (hagreed : s.Agreed)
    {r : SegmentNumbers α} (hpc : s.pc = .finish r) :
    ∃ s', prepFinish s r = some s' ∧ s'.Sound ∧ s.WorkStep s' := by
  obtain ⟨s', hs', hsound, hpipe⟩ := h.finishes hpc
  have htaken := h.taken (by rw [hpc]; rfl)
  have hloaded : s.planner.loaded = true := by rw [Planner.loaded, htaken, Bool.true_or]
  have hleft : s.stepsLeft = r.nStepsRemaining := by rw [StepperSystem.stepsLeft, hpc]
  refine ⟨s', hs', hsound, ?_⟩
  rw [prepFinish] at hs'
  cases houtcome : r.outcome with
  | blockIncomplete =>
    rw [houtcome] at hs'
    obtain rfl := Option.some.inj hs'
    refine ⟨StepperSystem.agreed_of rfl rfl, .inl (StepperSystem.work_eq hpipe
      (sameMoves_setMillimeters _ _) ?_ hleft.symm)⟩
    show (setMillimeters _ _).loaded = _
    rw [setMillimeters_eq]
    rfl
  | forcedTermination =>
    rw [houtcome] at hs'
    obtain ⟨p', hforced, hmoves, hloaded', -⟩ := h.forcedEnds (by rw [hpc]; rfl) r
    obtain rfl := Option.some.inj (hforced.symm.trans hs')
    exact ⟨StepperSystem.agreed_of rfl rfl, .inl (StepperSystem.work_eq hpipe hmoves
      (hloaded'.trans hloaded.symm) hleft.symm)⟩
  | blockComplete =>
    rw [houtcome] at hs'
    obtain rfl := Option.some.inj hs'
    have hnone : ({ s.planner with plBlock := none } : Planner α).Ring :=
      ⟨h.ring.inRing, h.ring.nextHead, fun _ hblock => (by cases hblock), h.ring.planned⟩
    have hmoves := hnone.discard_moves rfl (h.count_pos hloaded)
    have hidle : (planDiscardCurrentBlock { s.planner with plBlock := none }).loaded = false := by
      rw [planDiscardCurrentBlock_eq]
      exact h.whole htaken
    have hposition : (planDiscardCurrentBlock { s.planner with plBlock := none }).position =
        s.planner.position := by rw [planDiscardCurrentBlock_eq]
    refine ⟨StepperSystem.agreed_of rfl rfl, .inr ?_⟩
    have hwork : ({ s with
        planner := planDiscardCurrentBlock { s.planner with plBlock := none }
        pc := .test } : StepperSystem α).work = { s.work with hand := none } := by
      simp only [StepperSystem.work, hidle, hloaded, hmoves, hposition, if_true]
      rw [hpipe]
      rfl
    rw [hwork]
    refine Work.Step.done s.work (?_ : _ = some (s.blockInHand, 0)) (h.settled (.inr (by rw [hpc]; rfl)))
    rw [StepperSystem.work, hloaded, hleft, hagreed.finish r hpc houtcome]
    rfl

theorem tests_work (hpc : s.pc = .test) : s.WorkStep (prepTest s) := by
  have hleft : s.stepsLeft = s.prepStepsRemaining :=
    StepperSystem.stepsLeft_of_not_finishing (by rw [hpc]; rfl)
  rw [prepTest]
  split_ifs
  · exact ⟨StepperSystem.agreed_of rfl rfl,
      .inl (StepperSystem.work_eq rfl (.refl _) rfl hleft.symm)⟩
  · exact ⟨StepperSystem.agreed_of rfl rfl,
      .inl (StepperSystem.work_eq rfl (.refl _) rfl hleft.symm)⟩

/-- **The next statement** of the main program. -/
theorem StepperSystem.Sound.statement_work [SpeedNumber α] (h : s.Sound) (hagreed : s.Agreed)
    (hvalid : ∀ m ∈ s.work.moves, m.Valid) {b : BlockNumbers α} {r : SegmentNumbers α}
    (hr : (StepperEvent.statement b r).Regular s) :
    ∃ s', prepStatement s b r = some s' ∧ s'.Sound ∧ s.WorkStep s' := by
  rw [prepStatement]
  cases hpc : s.pc with
  | idle => exact ⟨s, rfl, h, hagreed, .inl rfl⟩
  | test => exact ⟨_, rfl, h.tests.1, tests_work hpc⟩
  | load => exact ⟨_, rfl, (h.loads hpc b).1, h.loads_work hpc hvalid b⟩
  | segment =>
    simp only [StepperEvent.Regular, hpc] at hr
    exact h.fills_work hpc hr
  | publish r => exact ⟨_, rfl, (h.publishes hpc).1, h.publishes_work hagreed hpc⟩
  | finish r => exact h.finishes_work hagreed hpc

/-! ### Lines -/

/-- The direction bits of a line are the signs of its distances. -/
theorem directionSign_lineBits (f : AxisIndex → Bool) (idx : AxisIndex) :
    directionSign ((List.finRange 3).foldl
      (fun bits idx => if f idx then bits ||| getDirectionPinMask idx else bits) 0#8) idx =
        if f idx then -1 else 1 := by
  revert f idx
  decide

theorem foldl_max_finRange (f : AxisIndex → ℕ) :
    (List.finRange 3).foldl (fun n idx => max n (f idx)) 0 = max (max (f 0) (f 1)) (f 2) := by
  rw [← Nat.zero_max (f 0)]
  rfl

variable {p p' : Planner α} {m : LineMove α}

theorem lineBlock_distance (p : Planner α) (m : LineMove α) (idx : AxisIndex) :
    (lineBlock p m).move.distance idx = m.distance p idx := by
  have hsign := directionSign_lineBits (fun idx => decide (m.distance p idx < 0)) idx
  simp only [decide_eq_true_eq] at hsign
  rw [Move.distance]
  show directionSign _ idx * ((m.distance p idx).natAbs : ℤ) = _
  rw [lineBlock, PlanBlock.move, hsign]
  split_ifs with hneg
  · rw [Int.ofNat_natAbs_of_nonpos hneg.le]
    ring
  · rw [Int.natAbs_of_nonneg (not_lt.mp hneg), one_mul]

theorem lineBlock_valid (hle : ∀ idx, (m.distance p idx).natAbs ≤ 2 ^ 24)
    (hne : (lineBlock p m).stepEventCount ≠ 0) : (lineBlock p m).move.Valid := by
  have hcount : (lineBlock p m).move.stepEventCount = max (max (m.distance p 0).natAbs
      (m.distance p 1).natAbs) (m.distance p 2).natAbs :=
    foldl_max_finRange fun idx => (m.distance p idx).natAbs
  refine ⟨Nat.pos_of_ne_zero hne, ?_, fun idx => ?_⟩
  · rw [hcount]
    exact max_le (max_le (hle 0) (hle 1)) (hle 2)
  · rw [hcount]
    show (m.distance p idx).natAbs ≤ _
    fin_cases idx
    · exact (le_max_left _ _).trans (le_max_left _ _)
    · exact (le_max_right _ _).trans (le_max_left _ _)
    · exact le_max_right _ _

/-- Lines that come behind the others come behind the work. -/
theorem StepperSystem.Sound.work_append (h : s.Sound) (hring : p'.Ring)
    (hloaded : p'.loaded = s.planner.loaded) {ms : List Move}
    (hmoves : p'.moves = s.planner.moves ++ ms) :
    ({ s with planner := p' } : StepperSystem α).work =
      { s.work with moves := s.work.moves ++ ms, target := p'.position } := by
  cases hload : s.planner.loaded with
  | false =>
    simp only [StepperSystem.work, hloaded, hload, hmoves]
    rfl
  | true =>
    have hne := h.count_pos hload
    have hcount : 0 < p'.count := by
      rw [← Planner.length_moves] at hne ⊢
      rw [hmoves, List.length_append]
      omega
    have hcons := h.moves_cons hne
    have hhead := hring.moves_head hcount
    rw [hmoves, hcons, List.cons_append, List.head?_cons] at hhead
    have hhand : ({ s with planner := p' } : StepperSystem α).blockInHand = s.blockInHand :=
      stBlockOf_congr (Option.some.inj hhead).symm
    have htail : p'.moves.tail = s.planner.moves.tail ++ ms := by
      rw [hmoves, hcons, List.cons_append, List.tail_cons, List.tail_cons]
    simp only [StepperSystem.work, hloaded, hload, if_true, hhand, htail]
    rfl

theorem StepperSystem.Sound.line_work [SpeedNumber α] (h : s.Sound)
    (hfull : planCheckFullBuffer s.planner = false)
    (hle : ∀ idx, (m.distance s.planner idx).natAbs ≤ 2 ^ 24) :
    ∃ p', planBufferLine s.planner m = some p' ∧
      (({ s with planner := p' } : StepperSystem α).work = s.work ∨
        Work.Step s.work ({ s with planner := p' } : StepperSystem α).work) := by
  obtain ⟨p', hp', hring, hloaded, -, hmoves⟩ := h.ring.line hfull m
  refine ⟨p', hp', ?_⟩
  split_ifs at hmoves with hzero
  · rw [h.work_append hring hloaded (hmoves.1.trans (List.append_nil _).symm), List.append_nil,
      hmoves.2]
    exact .inl rfl
  · rw [h.work_append hring hloaded hmoves.1, hmoves.2]
    have htarget : m.targetSteps =
        fun idx => s.work.target idx + (lineBlock s.planner m).move.distance idx := by
      funext idx
      rw [lineBlock_distance, LineMove.distance]
      exact (add_sub_cancel _ _).symm
    rw [htarget]
    exact .inr (.line s.work _ (lineBlock_valid hle hzero))

/-! ### Runs -/

/-- The invariant: the buffers, the segments and the work are as they should be. -/
structure StepperSystem.Kept (s : StepperSystem α) : Prop where
  sound : s.Sound
  agreed : s.Agreed
  exact : s.work.Exact

theorem StepperSystem.WorkStep.exact (h : s.WorkStep s') (hexact : s.work.Exact) :
    s'.work.Exact := by
  obtain heq | hstep := h.2
  · rw [heq]
    exact hexact
  · exact hexact.step hstep

theorem PrepPc.eq_idle {pc : PrepPc α} (h : pc.isIdle = true) : pc = .idle := by
  cases pc with
  | idle => rfl
  | _ => cases h

/-- What the events outside of `st_prep_buffer` do to the work. -/
theorem StepperSystem.workStep_outside (hidle : s.pc.isIdle = true)
    (hpc : s'.pc = s.pc ∨ s'.pc = .test)
    (hwork : s'.work = s.work ∨ Work.Step s.work s'.work) : s.WorkStep s' := by
  rw [PrepPc.eq_idle hidle] at hpc
  refine ⟨StepperSystem.agreed_of ?_ ?_, hwork⟩
  · obtain hpc | hpc := hpc <;> rw [hpc] <;> rfl
  · obtain hpc | hpc := hpc <;> rw [hpc] <;> rfl

variable [SpeedNumber α]

theorem kept_mainReset (s : StepperSystem α) : (mainReset s).Kept where
  sound := (sound_mainReset s).1
  agreed := StepperSystem.agreed_of rfl rfl
  exact := by
    have hwork : (mainReset s).work =
        { pipe := s.pipe.reset, hand := none, moves := [], target := s.pipe.position } := by
      rw [StepperSystem.work, (sound_mainReset s).2]
      rfl
    rw [hwork]
    exact Work.exact_reset s.pipe

/-- **Any event** keeps the invariant. -/
theorem StepperSystem.Kept.step (h : s.Kept) {e : StepperEvent α} (he : e.Regular s) :
    ∃ s', stepperStep s e = some s' ∧ s'.Kept := by
  have hworks : ∃ s', stepperStep s e = some s' ∧ (s.WorkStep s' ∨ s'.Kept) := by
    cases e with
    | interrupt =>
      obtain ⟨s', hs', hsame, -, hpipe⟩ := h.sound.interrupt
      exact ⟨s', hs', .inl (hsame.workStep hpipe h.agreed)⟩
    | statement b r =>
      obtain ⟨s', hs', -, hwork⟩ := h.sound.statement_work h.agreed h.exact.moves he
      exact ⟨s', hs', .inl hwork⟩
    | prepBuffer =>
      refine ⟨_, rfl, ?_⟩
      split_ifs with hidle
      · have hleft : s.stepsLeft = s.prepStepsRemaining :=
          StepperSystem.stepsLeft_of_not_finishing (by rw [PrepPc.eq_idle hidle]; rfl)
        rw [prepCall]
        split_ifs
        · exact .inr h
        · exact .inl (StepperSystem.workStep_outside hidle (.inr rfl)
            (.inl (StepperSystem.work_eq rfl (.refl _) rfl hleft.symm)))
      · exact .inr h
    | line m =>
      simp only [stepperStep]
      split_ifs with hidle
      · obtain ⟨hfull, hle⟩ := he hidle
        obtain ⟨p', hp', hwork⟩ := h.sound.line_work hfull hle
        exact ⟨{ s with planner := p' }, by rw [hp']; rfl,
          .inl (StepperSystem.workStep_outside hidle (.inl rfl) hwork)⟩
      · exact ⟨s, rfl, .inr h⟩
    | state state =>
      refine ⟨_, rfl, ?_⟩
      split_ifs with hidle
      · exact .inl (StepperSystem.workStep_outside hidle (.inl rfl) (.inr (.state s.work state)))
      · exact .inr h
    | updateParameters =>
      refine ⟨_, rfl, ?_⟩
      split_ifs with hidle
      · have hroute := sameRoute_stUpdate s.planner
        exact .inl (StepperSystem.workStep_outside hidle (.inl rfl)
          (.inl (StepperSystem.work_eq rfl hroute.moves hroute.loaded rfl)))
      · exact .inr h
    | reset =>
      refine ⟨_, rfl, .inr ?_⟩
      split_ifs
      · exact kept_mainReset s
      · exact h
  obtain ⟨s', hs', hwork⟩ := hworks
  obtain ⟨t, ht, hsound, -⟩ := h.sound.step he.fits
  obtain rfl := Option.some.inj (ht.symm.trans hs')
  refine ⟨_, hs', ?_⟩
  obtain hwork | hkept := hwork
  · exact ⟨hsound, hwork.1, hwork.exact h.exact⟩
  · exact hkept

/-- How many steps of an axis the machine is behind the planner. -/
def StepperSystem.behind (s : StepperSystem α) (idx : AxisIndex) : ℤ := s.work.ahead idx

/-- Nothing is left to do. -/
def StepperSystem.AtEnd (s : StepperSystem α) : Prop :=
  s.planner.blockBufferHead = s.planner.blockBufferTail ∧
    s.segmentBufferHead = s.segmentBufferTail

omit [SpeedNumber α] in
theorem StepperSystem.Sound.behind_atEnd (h : s.Sound) (hend : s.AtEnd) (idx : AxisIndex) :
    s.behind idx = 0 := by
  obtain ⟨hplanner, hsegments⟩ := hend
  have hcount : s.planner.count = 0 := h.ring.inRing.held_eq_zero.mpr hplanner
  have hloaded : s.planner.loaded = false := by
    by_contra hload
    exact (h.count_pos (by simpa using hload)).ne' hcount
  have hmoves : s.planner.moves = [] := by
    rw [← List.length_eq_zero_iff, Planner.length_moves, hcount]
  have hqueue : s.queue = [] := h.inRing.contents_eq_nil.mpr hsegments
  have hcuts : s.pipe.cuts = [] := by
    show cutsOf _ _ s.queue = []
    rw [hqueue, cutsOf]
  simp only [StepperSystem.behind, Work.ahead, Work.cuts, Work.inHand, StepperSystem.work, hloaded,
    hmoves, SegmentPipe.remaining_nil hcuts]
  rfl

/-- **No step is lost**, and none is made twice, as long as lines can be counted in a `float` and
segments are regular: in every state the steps that are still to be made take the machine to the
planner's position, and when nothing is left to do it is there. -/
theorem position_kept (s : StepperSystem α) {es : List (StepperEvent α)}
    (hes : Admitted stepperStep (fun s e => e.Regular s) (mainReset s) es) :
    Throughout stepperStep (fun s =>
      (∀ idx, s.position idx + s.behind idx = s.planner.position idx) ∧
        (s.AtEnd → s.position = s.planner.position)) (mainReset s) es := by
  refine (throughout_of_admitted (fun _ _ h he => h.step he) (kept_mainReset s) hes).mono
    fun s h => ⟨h.exact.target, fun hend => funext fun idx => ?_⟩
  have htarget : s.position idx + s.behind idx = s.planner.position idx := h.exact.target idx
  rwa [h.sound.behind_atEnd hend, add_zero] at htarget

/-- Two lines in segments of different levels, with a feed hold in the second one. -/
def positionEvents : List (StepperEvent ℤ) :=
  let line (x y : ℤ) : StepperEvent ℤ := .line
    { targetSteps := ![x, y, 0], millimeters := 2, acceleration := 1, nominalSpeedSqr := 9
      junctionSpeedSqr := 4 }
  let cut (n cycles : ℕ) (outcome : SegmentEnd) : StepperEvent ℤ := .statement
    { currentSpeed := 1, exitSpeed := 0 }
    { nStepsRemaining := n, cycles := cycles, currentSpeed := 1, millimeters := 1
      outcome := outcome }
  [line 2 (-1), .prepBuffer, cut 2 0 .blockIncomplete, cut 2 0 .blockIncomplete,
    cut 1 9000 .blockIncomplete, cut 1 0 .blockIncomplete, .interrupt, cut 1 0 .blockIncomplete,
    cut 1 0 .blockIncomplete, cut 1 0 .blockIncomplete, cut 0 7000 .blockComplete, .interrupt,
    cut 0 0 .blockIncomplete, cut 0 0 .blockIncomplete, cut 0 0 .blockIncomplete,
    cut 0 0 .blockIncomplete, line 2 0, .state stateHold, .prepBuffer, .interrupt]

theorem position_kept_run : Throughout stepperStep (fun s =>
    (∀ idx, s.position idx + s.behind idx = s.planner.position idx) ∧
      (s.AtEnd → s.position = s.planner.position)) (mainReset default) positionEvents :=
  position_kept default (by decide +kernel)

/-- **The axes stay together**: in every state every axis is within half a step of the straight
line, at whatever levels of step smoothing the line has been cut. -/
theorem line_followed (s : StepperSystem α) {es : List (StepperEvent α)}
    (hes : Admitted stepperStep (fun s e => e.Regular s) (mainReset s) es) :
    Throughout stepperStep (fun s => ∀ cut ∈ s.work.line, ∀ idx,
      2 * |cut.block.stepEventCount * s.work.lineAhead idx -
        directionSign cut.block.directionBits idx *
          (s.work.lineEvents * (cut.block.steps idx >>> maxAmassLevel) : ℕ)| ≤
        cut.block.stepEventCount) (mainReset s) es :=
  (throughout_of_admitted (fun _ _ h he => h.step he) (kept_mainReset s) hes).mono
    fun _ h _ hcut idx => h.exact.abs_lineAhead_sub_le hcut idx

theorem line_followed_run : Throughout stepperStep (fun s => ∀ cut ∈ s.work.line, ∀ idx,
    2 * |cut.block.stepEventCount * s.work.lineAhead idx -
      directionSign cut.block.directionBits idx *
        (s.work.lineEvents * (cut.block.steps idx >>> maxAmassLevel) : ℕ)| ≤
      cut.block.stepEventCount) (mainReset default) positionEvents :=
  line_followed default (by decide +kernel)

end PcbMill
