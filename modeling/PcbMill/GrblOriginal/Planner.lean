import PcbMill.GrblOriginal.Serial
import PcbMill.Lib.PartialRun
import PcbMill.Lib.SpeedProfile

/-!
# The motion planner

`plan_buffer_line` puts a line into a ring of blocks and `planner_recalculate` gives every block
of the ring the highest entry speed that lets the machine stop at the end of the last one.  Blocks
up to `block_buffer_planned` are left out of the calculation, as nothing that comes behind them
can make them faster.  The stepper takes the blocks out at the tail, and may be in the middle of
one of them.

The numbers are those of the planner's `float`, of which no more is assumed than `SpeedNumber`
says.  What `plan_buffer_line` computes from the feed rate and the settings comes in with the line.
-/

namespace PcbMill

open RingBuffer SpeedProfile PartialRun

/-- Numbers that are added and multiplied with rounding: the sums are monotone, and a sum with a
number that is not negative is not smaller. -/
class SpeedNumber (α : Type*) extends LinearOrder α, Zero α, Add α, Mul α where
  two : α
  zero_add_eq : ∀ x : α, 0 + x = x
  zero_mul_zero_eq : (0 : α) * 0 = 0
  square_nonneg : ∀ x : α, 0 ≤ x * x
  add_right_monotone : ∀ c : α, Monotone fun x : α => x + c
  le_add_right_of_nonneg : ∀ x c : α, 0 ≤ c → x ≤ x + c

instance : SpeedNumber ℤ where
  two := 2
  zero_add_eq := zero_add
  zero_mul_zero_eq := mul_zero 0
  square_nonneg := mul_self_nonneg
  add_right_monotone := fun c _ _ h => add_le_add_left h c
  le_add_right_of_nonneg := fun _ _ h => le_add_of_nonneg_right h

def blockBufferSize : ℕ := 18

/-- `X_AXIS`, `Y_AXIS` and `Z_AXIS`. -/
abbrev AxisIndex := Fin 3

def getDirectionPinMask (idx : AxisIndex) : Byte := 1#8 <<< (5 + idx.val)

/-- `plan_block_t` -/
structure PlanBlock (α : Type*) where
  directionBits : Byte
  steps : AxisIndex → ℕ
  stepEventCount : ℕ
  entrySpeedSqr : α
  maxEntrySpeedSqr : α
  maxJunctionSpeedSqr : α
  nominalSpeedSqr : α
  acceleration : α
  millimeters : α
  deriving Inhabited

/-- The variables of `planner.c`, with those of `stepper.c` that
`st_update_plan_block_parameters` uses: `pl_block`, and of `prep` two fields. -/
structure Planner (α : Type*) where
  blockBuffer : ℕ → PlanBlock α
  blockBufferTail : ℕ
  blockBufferHead : ℕ
  nextBufferHead : ℕ
  blockBufferPlanned : ℕ
  position : AxisIndex → ℤ
  previousNominalSpeedSqr : α
  plBlock : Option ℕ
  flagPartialBlock : Bool
  currentSpeed : α
  deriving Inhabited

def planNextBlockIndex (blockIndex : ℕ) : ℕ := nextIndex blockBufferSize blockIndex

def planPrevBlockIndex (blockIndex : ℕ) : ℕ :=
  (if blockIndex = 0 then blockBufferSize else blockIndex) - 1

section Functions

variable {α : Type*}

def Planner.setBlock (s : Planner α) (blockIndex : ℕ) (block : PlanBlock α) : Planner α :=
  { s with blockBuffer := Function.update s.blockBuffer blockIndex block }

/-- `plan_reset`, and what `st_reset` does to the stepper's variables. -/
def planReset [Zero α] (s : Planner α) : Planner α :=
  { s with blockBufferTail := 0, blockBufferHead := 0, nextBufferHead := 1
           blockBufferPlanned := 0, position := fun _ => 0, previousNominalSpeedSqr := 0
           plBlock := none, flagPartialBlock := false, currentSpeed := 0 }

def planDiscardCurrentBlock (s : Planner α) : Planner α :=
  if s.blockBufferHead ≠ s.blockBufferTail then
    let blockIndex := planNextBlockIndex s.blockBufferTail
    { s with
      blockBufferPlanned :=
        if s.blockBufferTail = s.blockBufferPlanned then blockIndex else s.blockBufferPlanned
      blockBufferTail := blockIndex }
  else s

def planGetCurrentBlock (s : Planner α) : Option ℕ :=
  if s.blockBufferHead = s.blockBufferTail then none else some s.blockBufferTail

def planCheckFullBuffer (s : Planner α) : Bool := s.blockBufferTail = s.nextBufferHead

def planGetBlockBufferCount (s : Planner α) : ℕ :=
  if s.blockBufferTail ≤ s.blockBufferHead then s.blockBufferHead - s.blockBufferTail
  else blockBufferSize - (s.blockBufferTail - s.blockBufferHead)

variable [SpeedNumber α]

def stUpdatePlanBlockParameters (s : Planner α) : Planner α :=
  match s.plBlock with
  | none => s
  | some block =>
    { s.setBlock block
        { s.blockBuffer block with entrySpeedSqr := s.currentSpeed * s.currentSpeed } with
      flagPartialBlock := true, plBlock := none }

/-- `2*acceleration*millimeters` -/
def PlanBlock.gain (block : PlanBlock α) : α :=
  SpeedNumber.two * block.acceleration * block.millimeters

/-- The last block, from which the machine must stop. -/
def lastBlock (current : PlanBlock α) : PlanBlock α :=
  { current with
    entrySpeedSqr :=
      if current.maxEntrySpeedSqr < current.gain then current.maxEntrySpeedSqr
      else current.gain }

/-- A block of the reverse pass. -/
def reverseBlock (current next : PlanBlock α) : PlanBlock α :=
  if current.entrySpeedSqr ≠ current.maxEntrySpeedSqr then
    let entrySpeedSqr := next.entrySpeedSqr + current.gain
    { current with
      entrySpeedSqr :=
        if entrySpeedSqr < current.maxEntrySpeedSqr then entrySpeedSqr
        else current.maxEntrySpeedSqr }
  else current

/-- One round of the reverse pass.  The stepper hears of it when the tail comes next. -/
def reverseStep (s : Planner α) (next current : ℕ) : Planner α :=
  let s :=
    if planPrevBlockIndex current = s.blockBufferTail then stUpdatePlanBlockParameters s else s
  s.setBlock current (reverseBlock (s.blockBuffer current) (s.blockBuffer next))

/-- The loop of the reverse pass: `current` was done last, and `block_index` comes next. -/
def reversePass : ℕ → Planner α → ℕ → ℕ → Option (Planner α)
  | 0, _, _, _ => none
  | fuel + 1, s, current, blockIndex =>
    if blockIndex = s.blockBufferPlanned then some s
    else
      reversePass fuel (reverseStep s current blockIndex) blockIndex
        (planPrevBlockIndex blockIndex)

/-- A block of the forward pass, at `block_index`. -/
def forwardBlock (s : Planner α) (current blockIndex : ℕ) : Planner α :=
  let current := s.blockBuffer current
  let next := s.blockBuffer blockIndex
  let entrySpeedSqr := current.entrySpeedSqr + current.gain
  let s :=
    if current.entrySpeedSqr < next.entrySpeedSqr ∧ entrySpeedSqr < next.entrySpeedSqr then
      { s.setBlock blockIndex { next with entrySpeedSqr := entrySpeedSqr } with
        blockBufferPlanned := blockIndex }
    else s
  let next := s.blockBuffer blockIndex
  if next.entrySpeedSqr = next.maxEntrySpeedSqr then { s with blockBufferPlanned := blockIndex }
  else s

/-- The loop of the forward pass. -/
def forwardPass : ℕ → Planner α → ℕ → ℕ → Option (Planner α)
  | 0, _, _, _ => none
  | fuel + 1, s, next, blockIndex =>
    if blockIndex = s.blockBufferHead then some s
    else
      forwardPass fuel (forwardBlock s next blockIndex) blockIndex (planNextBlockIndex blockIndex)

/-- The last block, at `current`, gets its entry speed. -/
def planLast (s : Planner α) (current : ℕ) : Planner α :=
  s.setBlock current (lastBlock (s.blockBuffer current))

/-- The reverse pass, behind the last block.  The stepper hears of it if only the tail is left. -/
def planReverse (s : Planner α) (current : ℕ) : Option (Planner α) :=
  let blockIndex := planPrevBlockIndex current
  if blockIndex = s.blockBufferPlanned then
    some (if blockIndex = s.blockBufferTail then stUpdatePlanBlockParameters s else s)
  else reversePass blockBufferSize s current blockIndex

/-- `planner_recalculate`, with no result if a loop takes more rounds than there are blocks. -/
def plannerRecalculate (s : Planner α) : Option (Planner α) :=
  let blockIndex := planPrevBlockIndex s.blockBufferHead
  if blockIndex = s.blockBufferPlanned then some s
  else do
    let s ← planReverse (planLast s blockIndex) blockIndex
    forwardPass blockBufferSize s s.blockBufferPlanned (planNextBlockIndex s.blockBufferPlanned)

/-- A line, as `plan_buffer_line` has it in steps and in the values of its block. -/
structure LineMove (α : Type*) where
  targetSteps : AxisIndex → ℤ
  millimeters : α
  acceleration : α
  nominalSpeedSqr : α
  junctionSpeedSqr : α

/-- The steps of the line along an axis. -/
def LineMove.distance (m : LineMove α) (s : Planner α) (idx : AxisIndex) : ℤ :=
  m.targetSteps idx - s.position idx

/-- The block at the head after the loop over the axes. -/
def lineBlock (s : Planner α) (m : LineMove α) : PlanBlock α :=
  { s.blockBuffer s.blockBufferHead with
    directionBits := (List.finRange 3).foldl (fun bits idx =>
      if m.distance s idx < 0 then bits ||| getDirectionPinMask idx else bits) 0#8
    steps := fun idx => (m.distance s idx).natAbs
    stepEventCount := (List.finRange 3).foldl (fun n idx => max n (m.distance s idx).natAbs) 0
    acceleration := m.acceleration
    millimeters := m.millimeters }

/-- The rest of the block. -/
def junctionBlock (s : Planner α) (m : LineMove α) (block : PlanBlock α) : PlanBlock α :=
  let maxJunctionSpeedSqr :=
    if s.blockBufferHead = s.blockBufferTail then 0 else m.junctionSpeedSqr
  { block with
    entrySpeedSqr := if s.blockBufferHead = s.blockBufferTail then 0 else block.entrySpeedSqr
    maxJunctionSpeedSqr := maxJunctionSpeedSqr
    nominalSpeedSqr := m.nominalSpeedSqr
    maxEntrySpeedSqr := min maxJunctionSpeedSqr (min m.nominalSpeedSqr s.previousNominalSpeedSqr) }

/-- The block is in the ring, and the planner's position behind it. -/
def pushBlock (s : Planner α) (m : LineMove α) : Planner α :=
  { s.setBlock s.blockBufferHead (junctionBlock s m (lineBlock s m)) with
    previousNominalSpeedSqr := m.nominalSpeedSqr
    position := m.targetSteps
    blockBufferHead := s.nextBufferHead
    nextBufferHead := planNextBlockIndex s.nextBufferHead }

/-- `plan_buffer_line`.  A line without a step leaves only a block outside of the ring changed. -/
def planBufferLine (s : Planner α) (m : LineMove α) : Option (Planner α) :=
  if (lineBlock s m).stepEventCount = 0 then some (s.setBlock s.blockBufferHead (lineBlock s m))
  else plannerRecalculate (pushBlock s m)

def planCycleReinitialize (s : Planner α) : Option (Planner α) :=
  let s := stUpdatePlanBlockParameters s
  plannerRecalculate { s with blockBufferPlanned := s.blockBufferTail }

end Functions

/-! ### The ring -/

variable {α : Type*} {s s' : Planner α} {i j n p tail : ℕ}

/-- Where the block `i` places behind the tail is. -/
def Planner.cell (s : Planner α) (i : ℕ) : ℕ := (s.blockBufferTail + i) % blockBufferSize

/-- How many blocks there are. -/
def Planner.count (s : Planner α) : ℕ := held blockBufferSize s.blockBufferHead s.blockBufferTail

/-- The indices delimit blocks of the ring, and the stepper is in none but the first. -/
structure Planner.Ring (s : Planner α) : Prop where
  inRing : InRing blockBufferSize s.blockBufferHead s.blockBufferTail
  nextHead : s.nextBufferHead = next blockBufferSize s.blockBufferHead
  taken : ∀ block, s.plBlock = some block → block = s.blockBufferTail ∧ 0 < s.count
  planned : ∃ p, p < max 1 s.count ∧ s.blockBufferPlanned = s.cell p

theorem planNextBlockIndex_eq (hi : i < blockBufferSize) :
    planNextBlockIndex i = next blockBufferSize i := nextIndex_eq (by decide) hi

theorem planNextBlockIndex_cell (tail i : ℕ) :
    planNextBlockIndex ((tail + i) % blockBufferSize) = (tail + (i + 1)) % blockBufferSize := by
  rw [planNextBlockIndex_eq (Nat.mod_lt _ (by decide)), next_eq (Nat.mod_lt _ (by decide)),
    Nat.mod_add_mod, Nat.add_assoc]

theorem planPrevBlockIndex_cell (tail i : ℕ) :
    planPrevBlockIndex ((tail + (i + 1)) % blockBufferSize) = (tail + i) % blockBufferSize := by
  rw [planPrevBlockIndex]
  split_ifs with hzero
  · simp only [blockBufferSize] at *
    omega
  · simp only [blockBufferSize] at *
    omega

theorem cell_inj (hi : i < blockBufferSize) (hj : j < blockBufferSize) :
    (tail + i) % blockBufferSize = (tail + j) % blockBufferSize ↔ i = j := by
  simp only [blockBufferSize] at *
  omega

theorem Planner.Ring.tail_lt (h : s.Ring) : s.blockBufferTail < blockBufferSize := h.inRing.tail_lt

theorem Planner.Ring.cell_zero (h : s.Ring) : s.cell 0 = s.blockBufferTail :=
  Nat.mod_eq_of_lt h.tail_lt

theorem Planner.Ring.cell_count (h : s.Ring) : s.cell s.count = s.blockBufferHead :=
  h.inRing.head_eq (by decide)

theorem Planner.Ring.count_lt (h : s.Ring) : s.count < blockBufferSize := h.inRing.held_lt

/-- Another state of the same blocks: only their entry speeds differ, and the stepper may have
been told. -/
structure Planner.SameRoute (s s' : Planner α) : Prop where
  tail : s'.blockBufferTail = s.blockBufferTail
  head : s'.blockBufferHead = s.blockBufferHead
  nextHead : s'.nextBufferHead = s.nextBufferHead
  position : s'.position = s.position
  previous : s'.previousNominalSpeedSqr = s.previousNominalSpeedSqr
  speed : s'.currentSpeed = s.currentSpeed
  block : ∀ i, s'.blockBuffer i =
    { s.blockBuffer i with entrySpeedSqr := (s'.blockBuffer i).entrySpeedSqr }
  told : (s'.plBlock = s.plBlock ∧ s'.flagPartialBlock = s.flagPartialBlock) ∨
    (s.plBlock ≠ none ∧ s'.plBlock = none ∧ s'.flagPartialBlock = true)

theorem Planner.SameRoute.refl (s : Planner α) : s.SameRoute s :=
  ⟨rfl, rfl, rfl, rfl, rfl, rfl, fun _ => rfl, .inl ⟨rfl, rfl⟩⟩

theorem Planner.SameRoute.trans {s₁ s₂ s₃ : Planner α} (h : s₁.SameRoute s₂)
    (h' : s₂.SameRoute s₃) : s₁.SameRoute s₃ where
  tail := h'.tail.trans h.tail
  head := h'.head.trans h.head
  nextHead := h'.nextHead.trans h.nextHead
  position := h'.position.trans h.position
  previous := h'.previous.trans h.previous
  speed := h'.speed.trans h.speed
  block := fun i => by rw [h'.block i, h.block i]
  told := by
    obtain ⟨hblock, hflag⟩ | ⟨hsome, hnone, hflag⟩ := h'.told
    · rw [hblock, hflag]
      exact h.told
    · obtain ⟨hblock', -⟩ | ⟨-, hnone', -⟩ := h.told
      · exact .inr ⟨hblock' ▸ hsome, hnone, hflag⟩
      · exact absurd hnone' hsome

theorem Planner.SameRoute.count (h : s.SameRoute s') : s'.count = s.count := by
  rw [Planner.count, Planner.count, h.head, h.tail]

theorem Planner.SameRoute.cell (h : s.SameRoute s') : s'.cell = s.cell := by
  funext i
  rw [Planner.cell, Planner.cell, h.tail]

theorem Planner.SameRoute.ring (h : s.SameRoute s') (hring : s.Ring)
    (hp : p < max 1 s.count) (hplanned : s'.blockBufferPlanned = s.cell p) : s'.Ring where
  inRing := by
    rw [h.head, h.tail]
    exact hring.inRing
  nextHead := by
    rw [h.nextHead, h.head]
    exact hring.nextHead
  taken := by
    intro block hblock
    obtain ⟨heq, -⟩ | ⟨-, hnone, -⟩ := h.told
    · rw [h.tail, h.count]
      exact hring.taken block (heq ▸ hblock)
    · rw [hnone] at hblock
      cases hblock
  planned := ⟨p, h.count ▸ hp, h.cell ▸ hplanned⟩

theorem sameRoute_setBlock (s : Planner α) (i : ℕ) (block : PlanBlock α)
    (h : block = { s.blockBuffer i with entrySpeedSqr := block.entrySpeedSqr }) :
    s.SameRoute (s.setBlock i block) := by
  refine ⟨rfl, rfl, rfl, rfl, rfl, rfl, fun j => ?_, .inl ⟨rfl, rfl⟩⟩
  simp only [Planner.setBlock]
  by_cases hj : j = i
  · subst hj
    rw [Function.update_self]
    exact h
  · rw [Function.update_of_ne hj]

variable [SpeedNumber α]

theorem sameRoute_stUpdate (s : Planner α) : s.SameRoute (stUpdatePlanBlockParameters s) := by
  simp only [stUpdatePlanBlockParameters]
  split
  · exact .refl s
  · rename_i block hblock
    have h := sameRoute_setBlock s block
      { s.blockBuffer block with entrySpeedSqr := s.currentSpeed * s.currentSpeed } rfl
    exact ⟨h.tail, h.head, h.nextHead, h.position, h.previous, h.speed, h.block,
      .inr ⟨by rw [hblock]; exact Option.some_ne_none block, rfl, rfl⟩⟩

theorem reverseBlock_eq (current next : PlanBlock α) : reverseBlock current next =
    { current with entrySpeedSqr := (reverseBlock current next).entrySpeedSqr } := by
  simp only [reverseBlock]
  split_ifs <;> rfl

theorem sameRoute_reverseStep (s : Planner α) (next current : ℕ) :
    s.SameRoute (reverseStep s next current) := by
  simp only [reverseStep]
  split_ifs
  · exact (sameRoute_stUpdate s).trans (sameRoute_setBlock _ _ _ (reverseBlock_eq _ _))
  · exact sameRoute_setBlock _ _ _ (reverseBlock_eq _ _)

theorem sameRoute_planLast (s : Planner α) (current : ℕ) : s.SameRoute (planLast s current) :=
  sameRoute_setBlock s current _ rfl

/-! ### The loops -/

/-- **The reverse pass** comes down to the planned block, and keeps what its rounds keep. -/
theorem reversePass_rule {I : ℕ → Planner α → Prop} (hp : p < blockBufferSize)
    (hplanned : ∀ j s, I j s → s.blockBufferPlanned = (tail + p) % blockBufferSize)
    (hstep : ∀ j s, p < j → I (j + 1) s →
      I j (reverseStep s ((tail + (j + 1)) % blockBufferSize) ((tail + j) % blockBufferSize))) :
    ∀ fuel j s, p ≤ j → j + 1 < blockBufferSize → j - p < fuel → I (j + 1) s →
      ∃ s', reversePass fuel s ((tail + (j + 1)) % blockBufferSize)
        ((tail + j) % blockBufferSize) = some s' ∧ I (p + 1) s' := by
  intro fuel
  induction fuel with
  | zero => exact fun j s _ _ hfuel => absurd hfuel (Nat.not_lt_zero _)
  | succ fuel ih =>
    intro j s hpj hj hfuel hI
    rw [reversePass, hplanned _ _ hI]
    split_ifs with hend
    · obtain rfl : j = p := (cell_inj (by omega) hp).mp hend
      exact ⟨s, rfl, hI⟩
    · have hjp : j ≠ p := fun heq => hend (by rw [heq])
      obtain ⟨k, rfl⟩ : ∃ k, j = k + 1 := ⟨j - 1, by omega⟩
      rw [planPrevBlockIndex_cell]
      exact ih k _ (by omega) (by omega) (by omega) (hstep (k + 1) s (by omega) hI)

/-- **The forward pass** comes up to the last block. -/
theorem forwardPass_rule {I : ℕ → Planner α → Prop} (hn : n < blockBufferSize)
    (hhead : ∀ j s, I j s → s.blockBufferHead = (tail + n) % blockBufferSize)
    (hstep : ∀ j s, j + 1 < n → I j s → I (j + 1) (forwardBlock s
      ((tail + j) % blockBufferSize) ((tail + (j + 1)) % blockBufferSize))) :
    ∀ fuel j s, j < n → n - j ≤ fuel → I j s →
      ∃ s', forwardPass fuel s ((tail + j) % blockBufferSize)
        ((tail + (j + 1)) % blockBufferSize) = some s' ∧ I (n - 1) s' := by
  intro fuel
  induction fuel with
  | zero => exact fun j s hj hfuel => absurd hfuel (by omega)
  | succ fuel ih =>
    intro j s hj hfuel hI
    rw [forwardPass, hhead _ _ hI]
    split_ifs with hend
    · have hjn : j + 1 = n := (cell_inj (by omega) hn).mp hend
      obtain rfl : j = n - 1 := by omega
      exact ⟨s, rfl, hI⟩
    · have hjn : j + 1 ≠ n := fun heq => hend (by rw [heq])
      rw [planNextBlockIndex_cell]
      exact ih (j + 1) _ (by omega) (by omega) (hstep j s (by omega) hI)

/-- **A recalculation** ends.  `I j` holds when the reverse pass has done block `j`, and `J j` when
the forward pass has. -/
theorem plannerRecalculate_rule {I J : ℕ → Planner α → Prop} (hring : s.Ring)
    (hp : s.blockBufferPlanned = s.cell p) (hcount : s.count = n + 2) (hpn : p ≤ n)
    (hI : ∀ j s', I j s' → s'.blockBufferPlanned = s.cell p)
    (hJ : ∀ j s', J j s' → s'.blockBufferHead = s.blockBufferHead)
    (hstart : I (n + 1) (if n = 0 then stUpdatePlanBlockParameters (planLast s (s.cell (n + 1)))
      else planLast s (s.cell (n + 1))))
    (hreverse : ∀ j s', p < j → j ≤ n → I (j + 1) s' →
      I j (reverseStep s' (s.cell (j + 1)) (s.cell j)))
    (hturn : ∀ s', I (p + 1) s' → J p s')
    (hforward : ∀ j s', j ≤ n → J j s' →
      J (j + 1) (forwardBlock s' (s.cell j) (s.cell (j + 1)))) :
    ∃ s', plannerRecalculate s = some s' ∧ J (n + 1) s' := by
  have hlt := hring.count_lt
  rw [hcount] at hlt
  have hhead : s.blockBufferHead = s.cell (n + 2) := hcount ▸ hring.cell_count.symm
  have hlast : planPrevBlockIndex s.blockBufferHead = s.cell (n + 1) := by
    rw [hhead]
    exact planPrevBlockIndex_cell _ _
  have hbefore : planPrevBlockIndex (s.cell (n + 1)) = s.cell n := planPrevBlockIndex_cell _ _
  have htail : s.cell n = s.blockBufferTail ↔ n = 0 := by
    rw [← hring.cell_zero]
    exact cell_inj (by omega) (by decide)
  have hne : s.cell (n + 1) ≠ s.blockBufferPlanned := by
    rw [hp]
    intro heq
    have := (cell_inj (by omega) (by omega)).mp heq
    omega
  have hturned : ∃ s₁, planReverse (planLast s (s.cell (n + 1))) (s.cell (n + 1)) = some s₁ ∧
      I (p + 1) s₁ := by
    simp only [planReverse, hbefore]
    show ∃ s₁, (if s.cell n = s.blockBufferPlanned then
      some (if s.cell n = s.blockBufferTail then _ else _) else _) = _ ∧ _
    rw [hp]
    split_ifs with hend hzero
    · obtain rfl : n = p := (cell_inj (by omega) (by omega)).mp hend
      rw [if_pos (htail.mp hzero)] at hstart
      exact ⟨_, rfl, hstart⟩
    · obtain rfl : n = p := (cell_inj (by omega) (by omega)).mp hend
      rw [if_neg fun heq => hzero (htail.mpr heq)] at hstart
      exact ⟨_, rfl, hstart⟩
    · have hnp : n ≠ p := fun heq => hend (by rw [heq])
      rw [if_neg (by omega)] at hstart
      obtain ⟨s₁, hs₁, hI₁, -⟩ := reversePass_rule (I := fun j s' => I j s' ∧ j ≤ n + 1)
        (by omega) (fun j s' h => hI j s' h.1)
        (fun j s' hpj h => ⟨hreverse j s' hpj (by omega) h.1, by omega⟩)
        blockBufferSize n _ (by omega) (by omega) (by omega) ⟨hstart, le_rfl⟩
      exact ⟨s₁, hs₁, hI₁⟩
  obtain ⟨s₁, hs₁, hI₁⟩ := hturned
  obtain ⟨s', hs', hJ'⟩ := forwardPass_rule (I := J) hlt
    (fun j s' h => (hJ j s' h).trans hhead) (fun j s' hj => hforward j s' (by omega))
    blockBufferSize p s₁ (by omega) (by omega) (hturn s₁ hI₁)
  refine ⟨s', ?_, hJ'⟩
  have hplanned := hI _ _ hI₁
  have hnext : planNextBlockIndex (s.cell p) = s.cell (p + 1) := planNextBlockIndex_cell _ _
  rw [plannerRecalculate, hlast, if_neg hne]
  refine Option.bind_eq_some_iff.mpr ⟨s₁, hs₁, ?_⟩
  rw [hplanned, hnext]
  exact hs'

/-- With the planned block the last one there is nothing to do. -/
theorem Planner.Ring.recalculate_last (h : s.Ring) (hp : s.blockBufferPlanned = s.cell p)
    (hcount : s.count = p + 1) : plannerRecalculate s = some s := by
  have hlast : planPrevBlockIndex s.blockBufferHead = s.cell p := by
    rw [← h.cell_count, hcount]
    exact planPrevBlockIndex_cell _ _
  rw [plannerRecalculate, hlast, hp]
  exact if_pos rfl

theorem stUpdate_planned (s : Planner α) :
    (stUpdatePlanBlockParameters s).blockBufferPlanned = s.blockBufferPlanned := by
  simp only [stUpdatePlanBlockParameters]
  split <;> rfl

theorem reverseStep_planned (s : Planner α) (next current : ℕ) :
    (reverseStep s next current).blockBufferPlanned = s.blockBufferPlanned := by
  simp only [reverseStep]
  split_ifs
  · exact stUpdate_planned s
  · rfl

theorem sameRoute_forwardBlock (s : Planner α) (current blockIndex : ℕ) :
    s.SameRoute (forwardBlock s current blockIndex) := by
  have hset := sameRoute_setBlock s blockIndex
    { s.blockBuffer blockIndex with
      entrySpeedSqr := (s.blockBuffer current).entrySpeedSqr + (s.blockBuffer current).gain } rfl
  simp only [forwardBlock]
  split_ifs
  · exact ⟨hset.tail, hset.head, hset.nextHead, hset.position, hset.previous, hset.speed,
      hset.block, .inl ⟨rfl, rfl⟩⟩
  · exact ⟨hset.tail, hset.head, hset.nextHead, hset.position, hset.previous, hset.speed,
      hset.block, .inl ⟨rfl, rfl⟩⟩
  · exact ⟨rfl, rfl, rfl, rfl, rfl, rfl, fun _ => rfl, .inl ⟨rfl, rfl⟩⟩
  · exact .refl s

theorem forwardBlock_planned (s : Planner α) (current blockIndex : ℕ) :
    (forwardBlock s current blockIndex).blockBufferPlanned = s.blockBufferPlanned ∨
      (forwardBlock s current blockIndex).blockBufferPlanned = blockIndex := by
  simp only [forwardBlock]
  split_ifs
  · exact .inr rfl
  · exact .inr rfl
  · exact .inr rfl
  · exact .inl rfl

/-- **Whatever the numbers are**, a recalculation ends with the same blocks in the ring. -/
theorem Planner.Ring.recalculates (h : s.Ring) (hne : 0 < s.count) :
    ∃ s', plannerRecalculate s = some s' ∧ s.SameRoute s' ∧ s'.Ring := by
  obtain ⟨p, hpn, hp⟩ := h.planned
  by_cases hlast : s.count = p + 1
  · exact ⟨s, h.recalculate_last hp hlast, .refl s, h⟩
  obtain ⟨n, hn⟩ : ∃ n, s.count = n + 2 := ⟨s.count - 2, by omega⟩
  obtain ⟨s', hs', hroute, q, hq, hplanned⟩ := plannerRecalculate_rule
    (I := fun _ s' => s.SameRoute s' ∧ s'.blockBufferPlanned = s.cell p)
    (J := fun j s' => s.SameRoute s' ∧ ∃ q, q ≤ max p j ∧ s'.blockBufferPlanned = s.cell q)
    h hp hn (by omega) (fun _ _ hI => hI.2) (fun _ _ hJ => hJ.1.head)
    (by
      have hroute := sameRoute_planLast s (s.cell (n + 1))
      split_ifs
      · exact ⟨hroute.trans (sameRoute_stUpdate _), (stUpdate_planned _).trans hp⟩
      · exact ⟨hroute, hp⟩)
    (fun _ _ _ _ hI => ⟨hI.1.trans (sameRoute_reverseStep _ _ _),
      (reverseStep_planned _ _ _).trans hI.2⟩)
    (fun _ hI => ⟨hI.1, p, le_max_left _ _, hI.2⟩)
    (by
      rintro j s' - ⟨hroute, q, hq, hplanned⟩
      refine ⟨hroute.trans (sameRoute_forwardBlock _ _ _), ?_⟩
      obtain hold | hnew := forwardBlock_planned s' (s.cell j) (s.cell (j + 1))
      · exact ⟨q, by omega, hold.trans hplanned⟩
      · exact ⟨j + 1, by omega, hnew⟩)
  exact ⟨s', hs', hroute, hroute.ring h (by omega) hplanned⟩

/-- A line put behind the others. -/
theorem Planner.Ring.push (h : s.Ring) (hfull : planCheckFullBuffer s = false) (m : LineMove α) :
    (pushBlock s m).Ring ∧ (pushBlock s m).count = s.count + 1 ∧
      ∀ i < s.count, (pushBlock s m).blockBuffer (s.cell i) = s.blockBuffer (s.cell i) := by
  have hroom : s.count + 1 < blockBufferSize := by
    by_contra hno
    have hfull' := of_decide_eq_false hfull
    rw [h.nextHead] at hfull'
    exact hfull' (h.inRing.next_eq_of_full hno).symm
  have hcount : (pushBlock s m).count = s.count + 1 := by
    show held blockBufferSize s.nextBufferHead s.blockBufferTail = _
    rw [h.nextHead]
    exact h.inRing.held_push hroom
  obtain ⟨p, hp, hplanned⟩ := h.planned
  refine ⟨⟨?_, ?_, fun block hblock => ?_, p, ?_, hplanned⟩, hcount, fun i hi => ?_⟩
  · show InRing blockBufferSize s.nextBufferHead s.blockBufferTail
    rw [h.nextHead]
    exact h.inRing.push
  · exact planNextBlockIndex_eq (by
      show s.nextBufferHead < blockBufferSize
      rw [h.nextHead]
      exact next_lt _ _)
  · exact ⟨(h.taken block hblock).1, by omega⟩
  · omega
  · refine Function.update_of_ne ?_ _ _
    rw [← h.cell_count]
    exact fun heq => hi.ne ((cell_inj (by omega) (by omega)).mp heq)

omit [SpeedNumber α] in
/-- Only the two indices move. -/
theorem planDiscardCurrentBlock_eq (s : Planner α) : planDiscardCurrentBlock s =
    { s with
      blockBufferPlanned := (planDiscardCurrentBlock s).blockBufferPlanned
      blockBufferTail := (planDiscardCurrentBlock s).blockBufferTail } := by
  simp only [planDiscardCurrentBlock]
  split_ifs <;> rfl

omit [SpeedNumber α] in
/-- The ring without its first block. -/
theorem Planner.Ring.discard (h : s.Ring) (hnone : s.plBlock = none) (hne : 0 < s.count) :
    (planDiscardCurrentBlock s).Ring ∧ (planDiscardCurrentBlock s).count + 1 = s.count ∧
      (∀ i, (planDiscardCurrentBlock s).cell i = s.cell (i + 1)) ∧
      ∀ p < s.count, s.blockBufferPlanned = s.cell p →
        (planDiscardCurrentBlock s).blockBufferPlanned =
          (planDiscardCurrentBlock s).cell (p - 1) := by
  have hheld : s.blockBufferHead ≠ s.blockBufferTail := fun heq =>
    hne.ne' (h.inRing.held_eq_zero.mpr heq)
  have hnext : planNextBlockIndex s.blockBufferTail = s.cell 1 := by
    rw [← h.cell_zero]
    exact planNextBlockIndex_cell _ _
  have hcell : ∀ i, (planDiscardCurrentBlock s).cell i = s.cell (i + 1) := by
    intro i
    simp only [planDiscardCurrentBlock, if_pos hheld, Planner.cell]
    rw [hnext, Planner.cell, Nat.mod_add_mod, Nat.add_assoc, Nat.add_comm 1 i]
  have hcount : (planDiscardCurrentBlock s).count + 1 = s.count := by
    simp only [planDiscardCurrentBlock, if_pos hheld, Planner.count]
    rw [planNextBlockIndex_eq h.tail_lt]
    exact (h.inRing.held_pop hheld).symm
  have hpushed : ∀ p < s.count, s.blockBufferPlanned = s.cell p →
      (planDiscardCurrentBlock s).blockBufferPlanned =
        (planDiscardCurrentBlock s).cell (p - 1) := by
    intro p hp hplanned
    have hlt := h.count_lt
    rw [hcell]
    simp only [planDiscardCurrentBlock, if_pos hheld, hplanned]
    rw [← h.cell_zero]
    split_ifs with hfirst
    · have hzero : 0 = p := (cell_inj (by decide) (by omega)).mp hfirst
      rw [h.cell_zero, hnext, ← hzero]
    · have hpos : p ≠ 0 := fun heq => hfirst (by rw [heq])
      rw [Nat.sub_add_cancel (by omega)]
  obtain ⟨p, hp, hplanned⟩ := h.planned
  refine ⟨⟨?_, ?_, ?_, p - 1, by omega, hpushed p (by omega) hplanned⟩, hcount, hcell, hpushed⟩
  · simp only [planDiscardCurrentBlock, if_pos hheld]
    rw [planNextBlockIndex_eq h.tail_lt]
    exact h.inRing.pop
  · simp only [planDiscardCurrentBlock, if_pos hheld]
    exact h.nextHead
  · intro block hblock
    simp only [planDiscardCurrentBlock, if_pos hheld, hnone] at hblock
    cases hblock

/-! ### The speeds -/

/-- The entry speed of the first block.  In the middle of it, this is the speed there. -/
def Planner.firstSpeed (s : Planner α) : α :=
  match s.plBlock with
  | none => (s.blockBuffer (s.cell 0)).entrySpeedSqr
  | some _ => s.currentSpeed * s.currentSpeed

def Planner.entrySpeed (s : Planner α) (i : ℕ) : α :=
  if i = 0 then s.firstSpeed
  else if i < blockBufferSize then (s.blockBuffer (s.cell i)).entrySpeedSqr else 0

def Planner.limit (s : Planner α) (i : ℕ) : α := (s.blockBuffer (s.cell i)).maxEntrySpeedSqr

/-- The speed at one end of a block for the speed at the other, both squared. -/
def Planner.reach (s : Planner α) (i : ℕ) (x : α) : α := x + (s.blockBuffer (s.cell i)).gain

omit [SpeedNumber α] in
theorem Planner.SameRoute.limit (h : s.SameRoute s') : s'.limit = s.limit := by
  funext i
  rw [Planner.limit, Planner.limit, h.cell, h.block]

theorem Planner.SameRoute.reach (h : s.SameRoute s') : s'.reach = s.reach := by
  funext i x
  rw [Planner.reach, Planner.reach, h.cell, h.block]
  rfl

theorem Planner.entrySpeed_of_pos (hi : 0 < i) (hlt : i < blockBufferSize) :
    s.entrySpeed i = (s.blockBuffer (s.cell i)).entrySpeedSqr := by
  rw [Planner.entrySpeed, if_neg (by omega), if_pos hlt]

theorem Planner.entrySpeed_of_none (hnone : s.plBlock = none) (hlt : i < blockBufferSize) :
    s.entrySpeed i = (s.blockBuffer (s.cell i)).entrySpeedSqr := by
  rcases Nat.eq_zero_or_pos i with rfl | hi
  · rw [Planner.entrySpeed, if_pos rfl, Planner.firstSpeed, hnone]
  · exact Planner.entrySpeed_of_pos hi hlt

theorem Planner.entrySpeed_congr (hplBlock : s'.plBlock = s.plBlock)
    (hspeed : s'.currentSpeed = s.currentSpeed)
    (hblock : s'.blockBuffer (s'.cell i) = s.blockBuffer (s.cell i)) :
    s'.entrySpeed i = s.entrySpeed i := by
  simp only [Planner.entrySpeed]
  split_ifs with hi
  · subst hi
    rw [Planner.firstSpeed, Planner.firstSpeed, hplBlock, hspeed, hblock]
  · rw [hblock]
  · rfl

theorem Planner.setBlock_entrySpeed (hj : 0 < j) (hlt : j < blockBufferSize)
    (block : PlanBlock α) : (s.setBlock (s.cell j) block).entrySpeed =
      Function.update s.entrySpeed j block.entrySpeedSqr := by
  funext i
  by_cases hij : i = j
  · subst hij
    rw [Function.update_self, Planner.entrySpeed_of_pos hj hlt]
    exact congrArg PlanBlock.entrySpeedSqr (Function.update_self ..)
  · rw [Function.update_of_ne hij]
    by_cases hsize : i < blockBufferSize
    · exact Planner.entrySpeed_congr rfl rfl
        (Function.update_of_ne (fun heq => hij ((cell_inj hsize hlt).mp heq)) _ _)
    · have hi : i ≠ 0 := by omega
      simp only [Planner.entrySpeed, if_neg hi, if_neg hsize]

/-- The stepper's report puts into the first block the speed that counts already. -/
theorem Planner.Ring.stUpdate_entrySpeed (h : s.Ring) :
    (stUpdatePlanBlockParameters s).entrySpeed = s.entrySpeed := by
  rcases hblock : s.plBlock with - | block
  · rw [stUpdatePlanBlockParameters, hblock]
  · obtain ⟨rfl, -⟩ := h.taken block hblock
    funext i
    simp only [Planner.entrySpeed, Planner.firstSpeed, stUpdatePlanBlockParameters, hblock]
    split_ifs with hi hlt
    · show (Function.update s.blockBuffer s.blockBufferTail _ (s.cell 0)).entrySpeedSqr = _
      rw [h.cell_zero, Function.update_self]
    · have hne : s.cell i ≠ s.blockBufferTail := by
        rw [← h.cell_zero]
        exact fun heq => hi ((cell_inj hlt (by decide)).mp heq)
      show (Function.update s.blockBuffer s.blockBufferTail _ (s.cell i)).entrySpeedSqr = _
      rw [Function.update_of_ne hne]
    · rfl

theorem stUpdate_plBlock (s : Planner α) : (stUpdatePlanBlockParameters s).plBlock = none := by
  simp only [stUpdatePlanBlockParameters]
  split
  · assumption
  · rfl

/-! ### What a round does to the speeds -/

theorem reverseBlock_speed (hj : 0 < j) (hlt : j + 1 < blockBufferSize) :
    (reverseBlock (s.blockBuffer (s.cell j)) (s.blockBuffer (s.cell (j + 1)))).entrySpeedSqr =
      brakeSpeed s.limit s.reach s.entrySpeed j := by
  have hentry := Planner.entrySpeed_of_pos (s := s) hj (by omega)
  have hnext := Planner.entrySpeed_of_pos (s := s) (i := j + 1) (by omega) hlt
  rw [brakeSpeed, hentry, hnext, reverseBlock, Planner.limit]
  by_cases hlimit : (s.blockBuffer (s.cell j)).entrySpeedSqr =
      (s.blockBuffer (s.cell j)).maxEntrySpeedSqr
  · rw [if_neg (not_not.mpr hlimit), if_neg (not_not.mpr hlimit)]
  · rw [if_pos hlimit, if_pos hlimit]
    rfl

/-- A round of the reverse pass, of a ring in which the stepper is told of the tail. -/
theorem Planner.Ring.reverseStep_speeds (h : s.Ring) (hj : 0 < j) (hlt : j + 1 < blockBufferSize) :
    (reverseStep s (s.cell (j + 1)) (s.cell j)).entrySpeed =
        Function.update s.entrySpeed j (brakeSpeed s.limit s.reach s.entrySpeed j) ∧
      (reverseStep s (s.cell (j + 1)) (s.cell j)).blockBufferPlanned = s.blockBufferPlanned ∧
      (j = 1 → (reverseStep s (s.cell (j + 1)) (s.cell j)).plBlock = none) := by
  have hprev : planPrevBlockIndex (s.cell j) = s.cell (j - 1) := by
    obtain ⟨k, rfl⟩ : ∃ k, j = k + 1 := ⟨j - 1, by omega⟩
    exact planPrevBlockIndex_cell _ _
  simp only [reverseStep]
  split_ifs with htail
  · have hsame := sameRoute_stUpdate s
    rw [← hsame.cell, Planner.setBlock_entrySpeed hj (by omega),
      reverseBlock_speed hj hlt, hsame.limit, hsame.reach, h.stUpdate_entrySpeed]
    exact ⟨rfl, stUpdate_planned s, fun _ => stUpdate_plBlock s⟩
  · rw [Planner.setBlock_entrySpeed hj (by omega), reverseBlock_speed hj hlt]
    refine ⟨rfl, rfl, fun hone => absurd ?_ htail⟩
    rw [hprev, hone]
    exact h.cell_zero

/-- A round of the forward pass, which does not begin in a block the stepper is in the middle of. -/
theorem Planner.forwardBlock_speeds (hlt : j + 1 < blockBufferSize) (hnone : j = 0 → s.plBlock = none) :
    (forwardBlock s (s.cell j) (s.cell (j + 1))).entrySpeed =
        Function.update s.entrySpeed (j + 1) (passSpeed s.reach s.entrySpeed j) ∧
      ((forwardBlock s (s.cell j) (s.cell (j + 1))).blockBufferPlanned = s.blockBufferPlanned ∨
        (forwardBlock s (s.cell j) (s.cell (j + 1))).blockBufferPlanned = s.cell (j + 1) ∧
          (passSpeed s.reach s.entrySpeed j = s.limit (j + 1) ∨
            s.reach j (s.entrySpeed j) < s.entrySpeed (j + 1))) := by
  have hcurrent : (s.blockBuffer (s.cell j)).entrySpeedSqr = s.entrySpeed j := by
    rcases Nat.eq_zero_or_pos j with rfl | hj
    · exact (Planner.entrySpeed_of_none (hnone rfl) (by decide)).symm
    · exact (Planner.entrySpeed_of_pos hj (by omega)).symm
  have hnext : (s.blockBuffer (s.cell (j + 1))).entrySpeedSqr = s.entrySpeed (j + 1) :=
    (Planner.entrySpeed_of_pos (by omega) hlt).symm
  have hreach : s.entrySpeed j + (s.blockBuffer (s.cell j)).gain = s.reach j (s.entrySpeed j) := rfl
  have hlimit : (s.blockBuffer (s.cell (j + 1))).maxEntrySpeedSqr = s.limit (j + 1) := rfl
  have hset := Planner.setBlock_entrySpeed (s := s) (show 0 < j + 1 by omega) hlt
    { s.blockBuffer (s.cell (j + 1)) with
      entrySpeedSqr := s.reach j (s.entrySpeed j) }
  have hsame : Function.update s.entrySpeed (j + 1) (s.entrySpeed (j + 1)) = s.entrySpeed :=
    Function.update_eq_self _ _
  simp only [forwardBlock, hcurrent, hnext, hreach, passSpeed]
  by_cases hfull : s.entrySpeed j < s.entrySpeed (j + 1) ∧
      s.reach j (s.entrySpeed j) < s.entrySpeed (j + 1)
  · simp only [if_pos hfull]
    refine ⟨?_, .inr ⟨?_, .inr hfull.2⟩⟩
    · split_ifs
      · exact hset
      · exact hset
    · split_ifs
      · rfl
      · rfl
  · simp only [if_neg hfull, hnext, hlimit, hsame]
    split_ifs with heq
    · exact ⟨rfl, .inr ⟨rfl, .inl heq⟩⟩
    · exact ⟨rfl, .inl rfl⟩

/-! ### A recalculation -/

theorem gains_reach (h : ∀ i < n, 0 ≤ (s.blockBuffer (s.cell i)).gain) : Gains s.reach n where
  mono := fun _ _ => SpeedNumber.add_right_monotone _
  le_reach := fun i hi x => SpeedNumber.le_add_right_of_nonneg x _ (h i hi)

/-- What a recalculation leaves behind. -/
structure Planner.Recalculated (s s' : Planner α) : Prop where
  route : s.SameRoute s'
  planned : ∃ q, q < s.count ∧ s'.blockBufferPlanned = s.cell q ∧
    Fixed s.limit s.reach s'.entrySpeed q
  optimal : Optimal s.limit s.reach s.count s'.entrySpeed
  first : s'.entrySpeed 0 = s.entrySpeed 0

/-- The reverse pass has come to block `j`. -/
structure Planner.Reversed (s : Planner α) (n p j : ℕ) (s' : Planner α) : Prop where
  route : s.SameRoute s'
  planned : s'.blockBufferPlanned = s.cell p
  braked : Braked s.limit s.reach n j s'.entrySpeed
  kept : ∀ i ≤ p, s'.entrySpeed i = s.entrySpeed i
  told : j ≤ 1 → s'.plBlock = none

/-- The forward pass has come to block `j`. -/
structure Planner.Forwarded (s : Planner α) (n j : ℕ) (s' : Planner α) : Prop where
  route : s.SameRoute s'
  told : j = 0 → s'.plBlock = none
  first : s'.entrySpeed 0 = s.entrySpeed 0
  passed : ∃ q, s'.blockBufferPlanned = s.cell q ∧
    Passed s.limit s.reach n j q s'.entrySpeed

theorem Planner.Reversed.ring (h : s.Reversed n p j s') (hring : s.Ring) (hp : p < max 1 s.count) :
    s'.Ring := h.route.ring hring hp h.planned

theorem Planner.Reversed.step (h : s.Reversed n p (j + 1) s') (hring : s.Ring)
    (hgains : Gains s.reach n) (hp : p < max 1 s.count) (hpj : p < j) (hj : j + 1 < n)
    (hn : n < blockBufferSize) :
    s.Reversed n p j (reverseStep s' (s.cell (j + 1)) (s.cell j)) := by
  obtain ⟨hspeed, hplanned, htold⟩ := (h.ring hring hp).reverseStep_speeds
    (j := j) (by omega) (by omega)
  rw [h.route.cell, h.route.limit, h.route.reach] at hspeed
  rw [h.route.cell] at hplanned htold
  refine ⟨h.route.trans (sameRoute_reverseStep _ _ _), hplanned.trans h.planned, ?_, ?_,
    fun hle => htold (by omega)⟩
  · rw [hspeed]
    exact h.braked.step hgains hj (by omega)
  · intro i hi
    rw [hspeed, Function.update_of_ne (by omega)]
    exact h.kept i hi

/-- The passes change over at the planned block. -/
theorem Planner.Reversed.turn (h : s.Reversed n p (p + 1) s')
    (haccelerate : ∀ i < p, s.entrySpeed (i + 1) ≤ s.reach i (s.entrySpeed i))
    (hgreatest : ∀ w, Feasible s.limit s.reach n w → w 0 = s.entrySpeed 0 →
      ∀ i ≤ p, w i ≤ s.entrySpeed i)
    (hfixed : Fixed s.limit s.reach s.entrySpeed p) : s.Forwarded n p s' := by
  refine ⟨h.route, fun hzero => h.told (by omega), h.kept 0 (Nat.zero_le p), p, h.planned,
    h.braked.passed (fun i hi _ => ?_) (fun w hw hfirst i hi => ?_) (fixed_congr h.kept hfixed)⟩
  · rw [h.kept i (by omega), h.kept (i + 1) (by omega)]
    exact haccelerate i hi
  · rw [h.kept 0 (Nat.zero_le p)] at hfirst
    rw [h.kept i hi]
    exact hgreatest w hw hfirst i hi

theorem Planner.Forwarded.step (h : s.Forwarded n j s')
    (hgains : Gains s.reach n) (hj : j + 1 < n) (hn : n < blockBufferSize) :
    s.Forwarded n (j + 1) (forwardBlock s' (s.cell j) (s.cell (j + 1))) := by
  obtain ⟨q, hplanned, hpassed⟩ := h.passed
  obtain ⟨hspeed, hnext⟩ := Planner.forwardBlock_speeds (s := s') (j := j) (by omega) h.told
  rw [h.route.cell, h.route.reach] at hspeed
  rw [h.route.cell, h.route.limit, h.route.reach] at hnext
  refine ⟨h.route.trans (sameRoute_forwardBlock _ _ _), fun hzero => by omega, ?_, ?_⟩
  · rw [hspeed, Function.update_of_ne (by omega)]
    exact h.first
  · rw [hspeed]
    obtain hold | ⟨hnew, hcause⟩ := hnext
    · exact ⟨q, hold.trans hplanned, hpassed.step hgains hj (.inl rfl)⟩
    · exact ⟨j + 1, hnew, hpassed.step hgains hj (.inr ⟨rfl, hcause⟩)⟩

/-- The reverse pass begins with the last block. -/
theorem Planner.Ring.reversed_start (h : s.Ring) (hp : s.blockBufferPlanned = s.cell p)
    (hpn : p ≤ n) (hn : n + 2 < blockBufferSize) (hmax : p < max 1 s.count)
    (hbraked : Braked s.limit s.reach (n + 2) (n + 1) (planLast s (s.cell (n + 1))).entrySpeed) :
    s.Reversed (n + 2) p (n + 1)
      (if n = 0 then stUpdatePlanBlockParameters (planLast s (s.cell (n + 1)))
        else planLast s (s.cell (n + 1))) := by
  have hroute := sameRoute_planLast s (s.cell (n + 1))
  have hring : (planLast s (s.cell (n + 1))).Ring := hroute.ring h hmax hp
  have hspeed : ∀ i ≤ p, (planLast s (s.cell (n + 1))).entrySpeed i = s.entrySpeed i := by
    intro i hi
    rw [planLast, Planner.setBlock_entrySpeed (by omega) (by omega),
      Function.update_of_ne (by omega)]
  split_ifs with hzero
  · rw [← hring.stUpdate_entrySpeed] at hbraked hspeed
    exact ⟨hroute.trans (sameRoute_stUpdate _), (stUpdate_planned _).trans hp, hbraked, hspeed,
      fun _ => stUpdate_plBlock _⟩
  · exact ⟨hroute, hp, hbraked, hspeed, fun hle => by omega⟩

/-- **A recalculation makes the greatest plan**, when the reverse pass may begin at the last block
and the forward pass at the planned one. -/
theorem Planner.Ring.recalculate (h : s.Ring) (hp : s.blockBufferPlanned = s.cell p)
    (hcount : s.count = n + 2) (hpn : p ≤ n) (hgains : Gains s.reach (n + 2))
    (hbraked : Braked s.limit s.reach (n + 2) (n + 1) (planLast s (s.cell (n + 1))).entrySpeed)
    (haccelerate : ∀ i < p, s.entrySpeed (i + 1) ≤ s.reach i (s.entrySpeed i))
    (hgreatest : ∀ w, Feasible s.limit s.reach (n + 2) w → w 0 = s.entrySpeed 0 →
      ∀ i ≤ p, w i ≤ s.entrySpeed i)
    (hfixed : Fixed s.limit s.reach s.entrySpeed p) :
    ∃ s', plannerRecalculate s = some s' ∧ s.Recalculated s' := by
  have hn : n + 2 < blockBufferSize := hcount ▸ h.count_lt
  have hmax : p < max 1 s.count := by omega
  obtain ⟨s', hs', hforwarded⟩ := plannerRecalculate_rule (I := s.Reversed (n + 2) p)
    (J := s.Forwarded (n + 2)) h hp hcount hpn (fun _ _ hI => hI.planned)
    (fun _ _ hJ => hJ.route.head) (h.reversed_start hp hpn hn hmax hbraked)
    (fun _ _ hpj hj hI => hI.step h hgains hmax hpj (by omega) hn)
    (fun _ hI => hI.turn haccelerate hgreatest hfixed)
    (fun _ _ hj hJ => hJ.step hgains (by omega) hn)
  obtain ⟨q, hplanned, hpassed⟩ := hforwarded.passed
  have hq := hpassed.le
  refine ⟨s', hs', hforwarded.route, ⟨q, by omega, hplanned, hpassed.fixed⟩, ?_,
    hforwarded.first⟩
  rw [hcount]
  exact hpassed.optimal rfl

end PcbMill
