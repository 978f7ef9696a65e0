import PcbMill.GrblOriginal.Planner

/-!
# The plan is the greatest one

Lines come in while the ring has room, the stepper goes through the first block and discards it,
and a feed hold stops the machine in the middle of one.  After each of these the entry speeds are
the greatest with which no limit is exceeded, every block's speeds can be reached and the machine
comes to a stop at the end, although a recalculation begins only at the planned block.
-/

namespace PcbMill

open RingBuffer SpeedProfile PartialRun

variable {α : Type*} [SpeedNumber α] {s s' : Planner α} {i p : ℕ}

/-- What the planner is called for, and what the stepper does to its current block:
`st_prep_buffer` takes it up, and leaves it with `millimeters` to go at a speed of `speed`. -/
inductive PlannerEvent (α : Type*) where
  | line (m : LineMove α)
  | progress (speed millimeters : α)
  | discard
  | hold (millimeters : α)

def takeBlock (s : Planner α) (block : ℕ) (speed millimeters : α) : Planner α :=
  { s.setBlock block { s.blockBuffer block with millimeters := millimeters } with
    plBlock := some block, flagPartialBlock := false, currentSpeed := speed }

def plannerStep (s : Planner α) : PlannerEvent α → Option (Planner α)
  | .line m => planBufferLine s m
  | .progress speed millimeters =>
    match planGetCurrentBlock s with
    | none => some s
    | some block => some (takeBlock s block speed millimeters)
  | .discard => some (planDiscardCurrentBlock { s with plBlock := none })
  | .hold millimeters =>
    match planGetCurrentBlock s with
    | none => some s
    | some block => planCycleReinitialize (takeBlock s block 0 millimeters)

/-- The gain of the current block with `millimeters` to go. -/
def Planner.gainLeft (s : Planner α) (millimeters : α) : α :=
  SpeedNumber.two * (s.blockBuffer s.blockBufferTail).acceleration * millimeters

/-- The plan of the blocks in the ring. -/
def Planner.Greatest (s : Planner α) : Prop :=
  Optimal s.limit s.reach s.count s.entrySpeed

/-- A line comes only when there is room, with speeds and gains that are not negative.  The
stepper keeps to the profile of its block, from the entry speed to the planned exit speed. -/
def PlannerEvent.Regular (s : Planner α) : PlannerEvent α → Prop
  | .line m => planCheckFullBuffer s = false ∧ 0 ≤ m.nominalSpeedSqr ∧ 0 ≤ m.junctionSpeedSqr ∧
      0 ≤ SpeedNumber.two * m.acceleration * m.millimeters
  | .progress speed millimeters => 0 ≤ s.gainLeft millimeters ∧
      OnWay s.reach s.count s.entrySpeed (· + s.gainLeft millimeters) (speed * speed)
  | .discard => True
  | .hold millimeters => 0 ≤ s.gainLeft millimeters

instance PlannerEvent.decidableRegular (s : Planner α) :
    ∀ e : PlannerEvent α, Decidable (e.Regular s)
  | .line _ => inferInstanceAs (Decidable (_ ∧ _ ∧ _ ∧ _))
  | .progress _ _ => inferInstanceAs (Decidable (_ ∧ _))
  | .discard => isTrue trivial
  | .hold _ => inferInstanceAs (Decidable (_ ≤ _))

/-- The plan is the greatest one, and the planned block is fixed. -/
structure Planner.Sound (s : Planner α) : Prop where
  ring : s.Ring
  gain : ∀ i < s.count, 0 ≤ (s.blockBuffer (s.cell i)).gain
  limit : ∀ i < s.count, 0 ≤ s.limit i
  first : 0 < s.count → 0 ≤ s.entrySpeed 0
  previous : 0 ≤ s.previousNominalSpeedSqr
  fixed : ∃ p, p < max 1 s.count ∧ s.blockBufferPlanned = s.cell p ∧
    Fixed s.limit s.reach s.entrySpeed p
  greatest : s.Greatest

theorem Planner.Sound.gains (h : s.Sound) : Gains s.reach s.count := gains_reach h.gain

/-- Blocks that agree with those of the ring have the same plan. -/
theorem Planner.Greatest.congr (h : s.Greatest) (hcount : s'.count = s.count)
    (hblock : ∀ i < s.count, s'.blockBuffer (s'.cell i) = s.blockBuffer (s.cell i))
    (hspeed : ∀ i < s.count, s'.entrySpeed i = s.entrySpeed i) : s'.Greatest := by
  rw [Planner.Greatest, hcount]
  refine Optimal.congr (fun i hi => ?_) (fun i hi => ?_) hspeed h
  · rw [Planner.limit, Planner.limit, hblock i hi]
  · funext x
    rw [Planner.reach, Planner.reach, hblock i hi]

/-- A recalculation that succeeds leaves a sound state behind. -/
theorem Planner.Recalculated.sound (h : s.Recalculated s') (hring : s.Ring)
    (hgain : ∀ i < s.count, 0 ≤ (s.blockBuffer (s.cell i)).gain)
    (hlimit : ∀ i < s.count, 0 ≤ s.limit i) (hfirst : 0 < s.count → 0 ≤ s.entrySpeed 0)
    (hprevious : 0 ≤ s.previousNominalSpeedSqr) : s'.Sound := by
  obtain ⟨q, hq, hplanned, hfixed⟩ := h.planned
  refine ⟨h.route.ring hring (by omega) hplanned, ?_, ?_, ?_, ?_, ⟨q, ?_, ?_, ?_⟩, ?_⟩
  · rw [h.route.count, h.route.cell]
    intro i hi
    rw [h.route.block]
    exact hgain i hi
  · rw [h.route.count, h.route.limit]
    exact hlimit
  · rw [h.route.count, h.first]
    exact hfirst
  · rw [h.route.previous]
    exact hprevious
  · rw [h.route.count]
    omega
  · rw [h.route.cell]
    exact hplanned
  · rw [h.route.limit, h.route.reach]
    exact hfixed
  · rw [Planner.Greatest, h.route.limit, h.route.reach, h.route.count]
    exact h.optimal

/-- A state with the same blocks in its ring is as sound. -/
theorem Planner.Sound.congr (h : s.Sound) (hring : s'.Ring) (hcount : s'.count = s.count)
    (hcell : s'.cell = s.cell) (hplanned : s'.blockBufferPlanned = s.blockBufferPlanned)
    (hblock : ∀ i < s.count, s'.blockBuffer (s.cell i) = s.blockBuffer (s.cell i))
    (hspeed : ∀ i < s.count, s'.entrySpeed i = s.entrySpeed i)
    (hprevious : s'.previousNominalSpeedSqr = s.previousNominalSpeedSqr) : s'.Sound := by
  obtain ⟨p, hp, hold, hfixed⟩ := h.fixed
  have hlimit : ∀ i < s.count, s'.limit i = s.limit i := by
    intro i hi
    rw [Planner.limit, Planner.limit, hcell, hblock i hi]
  have hreach : ∀ i < s.count, s'.reach i = s.reach i := by
    intro i hi
    funext x
    rw [Planner.reach, Planner.reach, hcell, hblock i hi]
  refine ⟨hring, ?_, ?_, ?_, hprevious ▸ h.previous, ⟨p, hcount ▸ hp, ?_, ?_⟩, ?_⟩
  · rw [hcount, hcell]
    intro i hi
    rw [hblock i hi]
    exact h.gain i hi
  · rw [hcount]
    intro i hi
    rw [hlimit i hi]
    exact h.limit i hi
  · rw [hcount]
    intro hne
    rw [hspeed 0 hne]
    exact h.first hne
  · rw [hplanned, hcell]
    exact hold
  · rcases Nat.eq_zero_or_pos s.count with hzero | hpos
    · obtain rfl : p = 0 := by omega
      trivial
    · exact hfixed.congr (fun i hi => hlimit i (by omega)) (fun i hi => hreach i (by omega))
        fun i hi => hspeed i (by omega)
  · exact h.greatest.congr hcount (hcell ▸ hblock) hspeed

/-- The block at the head is not in the ring. -/
theorem Planner.Sound.setHead (h : s.Sound) (block : PlanBlock α) :
    (s.setBlock s.blockBufferHead block).Sound := by
  have hcount := h.ring.count_lt
  refine h.congr ⟨h.ring.inRing, h.ring.nextHead, h.ring.taken, h.ring.planned⟩ rfl rfl rfl
    (fun i hi => ?_) (fun i hi => ?_) rfl
  · refine Function.update_of_ne ?_ _ _
    rw [← h.ring.cell_count]
    exact fun heq => hi.ne ((cell_inj (by omega) hcount).mp heq)
  · rw [← h.ring.cell_count, Planner.setBlock_entrySpeed (by omega) hcount,
      Function.update_of_ne hi.ne]

/-! ### A line -/

/-- From the last block the machine can stop. -/
theorem planLast_speed (hi : 0 < i) (hlt : i < blockBufferSize) :
    (planLast s (s.cell i)).entrySpeed =
      Function.update s.entrySpeed i (min (s.limit i) (s.reach i 0)) := by
  have hlast : (lastBlock (s.blockBuffer (s.cell i))).entrySpeedSqr =
      min (s.limit i) (s.reach i 0) := by
    rw [Planner.reach, SpeedNumber.zero_add_eq]
    simp only [lastBlock]
    split_ifs with hle
    · exact (min_eq_left hle.le).symm
    · exact (min_eq_right (not_lt.mp hle)).symm
  rw [planLast, Planner.setBlock_entrySpeed hi hlt, hlast]

theorem min_limit_reach_nonneg (hlimit : 0 ≤ s.limit i)
    (hgain : 0 ≤ (s.blockBuffer (s.cell i)).gain) : 0 ≤ min (s.limit i) (s.reach i 0) := by
  refine le_min hlimit ?_
  rw [Planner.reach, SpeedNumber.zero_add_eq]
  exact hgain

theorem junctionBlock_limit_nonneg (h : 0 ≤ s.previousNominalSpeedSqr) {m : LineMove α}
    (hnominal : 0 ≤ m.nominalSpeedSqr) (hjunction : 0 ≤ m.junctionSpeedSqr)
    (block : PlanBlock α) : 0 ≤ (junctionBlock s m block).maxEntrySpeedSqr := by
  simp only [junctionBlock]
  split_ifs
  · exact le_min le_rfl (le_min hnominal h)
  · exact le_min hjunction (le_min hnominal h)

theorem Planner.Ring.pushBlock_last (h : s.Ring) (m : LineMove α) :
    (pushBlock s m).blockBuffer (s.cell s.count) = junctionBlock s m (lineBlock s m) := by
  rw [h.cell_count]
  exact Function.update_self ..

theorem Planner.Sound.line (h : s.Sound) {m : LineMove α}
    (hok : (PlannerEvent.line m).Regular s) : ∃ s', planBufferLine s m = some s' ∧ s'.Sound := by
  obtain ⟨hfull, hnominal, hjunction, hgain⟩ := hok
  rw [planBufferLine]
  split_ifs with hzero
  · exact ⟨_, rfl, h.setHead _⟩
  obtain ⟨hring, hcount, hblock⟩ := h.ring.push hfull m
  have hcell : (pushBlock s m).cell = s.cell := rfl
  have hnew := h.ring.pushBlock_last m
  have hlt := hring.count_lt
  rw [hcount] at hlt
  -- The new block, and what is known of all of them.
  have hgains : ∀ i < s.count + 1, 0 ≤ ((pushBlock s m).blockBuffer (s.cell i)).gain := by
    intro i hi
    by_cases hlast : i = s.count
    · rw [hlast, hnew]
      exact hgain
    · rw [hblock i (by omega)]
      exact h.gain i (by omega)
  have hlimits : ∀ i < s.count + 1, 0 ≤ (pushBlock s m).limit i := by
    intro i hi
    rw [Planner.limit, hcell]
    by_cases hlast : i = s.count
    · rw [hlast, hnew]
      exact junctionBlock_limit_nonneg h.previous hnominal hjunction _
    · rw [hblock i (by omega)]
      exact h.limit i (by omega)
  have hspeed : ∀ i < s.count, (pushBlock s m).entrySpeed i = s.entrySpeed i :=
    fun i hi => Planner.entrySpeed_congr rfl rfl (hblock i hi)
  obtain ⟨p, hp, hplanned, hfixed⟩ := h.fixed
  rcases Nat.eq_zero_or_pos s.count with hempty | hne
  · -- The first line begins from a standstill.
    obtain rfl : p = 0 := by omega
    rw [hempty, Nat.zero_add] at hgains hlimits hcount
    rw [hempty] at hnew
    have hfirst : (pushBlock s m).entrySpeed 0 = 0 := by
      have hnone : (pushBlock s m).plBlock = none := by
        rcases htaken : s.plBlock with - | block
        · exact htaken
        · exact absurd (h.ring.taken block htaken).2 (by omega)
      have hheld : s.blockBufferHead = s.blockBufferTail := h.ring.inRing.held_eq_zero.mp hempty
      rw [Planner.entrySpeed_of_none hnone (by decide), hcell, hnew]
      exact if_pos hheld
    refine ⟨_, hring.recalculate_last hplanned hcount, hring, ?_, ?_, fun _ => hfirst.ge, hnominal,
      ⟨0, by omega, hplanned, trivial⟩, ?_⟩
    · rw [hcount]
      exact hgains
    · rw [hcount]
      exact hlimits
    · rw [Planner.Greatest, hcount]
      refine optimal_one ?_
      rw [hfirst]
      exact SpeedNumber.le_add_right_of_nonneg _ _ (hgains 0 Nat.one_pos)
  · obtain ⟨n, hn⟩ : ∃ n, s.count = n + 1 := ⟨s.count - 1, by omega⟩
    rw [hn] at hgains hlimits hcount hnew hlt hblock hspeed
    have hgreatest := h.greatest
    rw [Planner.Greatest, hn] at hgreatest
    have hold : Optimal (pushBlock s m).limit (pushBlock s m).reach (n + 1) s.entrySpeed := by
      refine Optimal.congr (fun i hi => ?_) (fun i hi => ?_) (fun _ _ => rfl) hgreatest
      · rw [Planner.limit, Planner.limit, hcell, hblock i hi]
      · funext x
        rw [Planner.reach, Planner.reach, hcell, hblock i hi]
    have hfixed' : Fixed (pushBlock s m).limit (pushBlock s m).reach s.entrySpeed p := by
      refine hfixed.congr (fun i hi => ?_) (fun i hi => ?_) fun _ _ => rfl
      · rw [Planner.limit, Planner.limit, hcell, hblock i (by omega)]
      · funext x
        rw [Planner.reach, Planner.reach, hcell, hblock i (by omega)]
    have hgains' : Gains (pushBlock s m).reach (n + 1 + 1) := gains_reach hgains
    have hlast := planLast_speed (s := pushBlock s m) (i := n + 1) (by omega) (by omega)
    obtain ⟨s', hs', hrecalculated⟩ := hring.recalculate (p := p) hplanned hcount (by omega) hgains'
      (hold.braked hgains' (fun i hi => by
          rw [hlast, Function.update_of_ne hi.ne]
          exact hspeed i hi)
        (by rw [hlast, Function.update_self])
        (by
          rw [hlast, Function.update_self]
          exact min_limit_reach_nonneg (hlimits _ (by omega)) (hgains _ (by omega))))
      (fun i hi => by
        rw [hspeed i (by omega), hspeed (i + 1) (by omega)]
        exact hold.feasible.accelerate i (by omega))
      (fun w hw hfirst i hi => by
        rw [hspeed 0 (by omega)] at hfirst
        rw [hspeed i (by omega)]
        exact hold.keeps hgains' (by omega) hfixed' hw hfirst hi)
      (fixed_congr (fun i hi => hspeed i (by omega)) hfixed')
    refine ⟨s', hs', hrecalculated.sound hring ?_ ?_ (fun _ => ?_) hnominal⟩
    · rw [hcount]
      exact hgains
    · rw [hcount]
      exact hlimits
    · rw [hspeed 0 (by omega)]
      exact h.first hne

/-! ### The current block -/

theorem Planner.Sound.discard (h : s.Sound) :
    (planDiscardCurrentBlock { s with plBlock := none }).Sound := by
  obtain ⟨p, hp, hplanned, hfixed⟩ := h.fixed
  have hring : ({ s with plBlock := none } : Planner α).Ring :=
    ⟨h.ring.inRing, h.ring.nextHead, nofun, h.ring.planned⟩
  rcases Nat.eq_zero_or_pos s.count with hempty | hne
  · have hheld : s.blockBufferHead = s.blockBufferTail := h.ring.inRing.held_eq_zero.mp hempty
    rw [planDiscardCurrentBlock, if_neg (not_not.mpr hheld)]
    exact h.congr hring rfl rfl rfl (fun _ _ => rfl) (fun i hi => by omega) rfl
  obtain ⟨hring', hcount, hcell, hpushed⟩ := hring.discard rfl hne
  have hp' : p < ({ s with plBlock := none } : Planner α).count := hp.trans_eq (max_eq_right hne)
  have hsame := planDiscardCurrentBlock_eq { s with plBlock := none }
  generalize planDiscardCurrentBlock { s with plBlock := none } = s' at *
  have hcell' : ∀ i, s'.cell i = s.cell (i + 1) := hcell
  have hcount' : s'.count + 1 = s.count := hcount
  have hlt := h.ring.count_lt
  have hbuffer : s'.blockBuffer = s.blockBuffer := by rw [hsame]
  have hnone : s'.plBlock = none := by rw [hsame]
  have hprevious : s'.previousNominalSpeedSqr = s.previousNominalSpeedSqr := by rw [hsame]
  have hlimit : s'.limit = fun i => s.limit (i + 1) := by
    funext i
    rw [Planner.limit, Planner.limit, hbuffer, hcell']
  have hreach : s'.reach = fun i => s.reach (i + 1) := by
    funext i x
    rw [Planner.reach, Planner.reach, hbuffer, hcell']
  have hspeed : ∀ i < s'.count, s'.entrySpeed i = s.entrySpeed (i + 1) := by
    intro i hi
    rw [Planner.entrySpeed_of_none hnone (by omega), hbuffer, hcell',
      Planner.entrySpeed_of_pos (Nat.succ_pos i) (by omega)]
  have hgains := h.gains
  have hgreatest := h.greatest
  have hnonneg := fun i hi => h.greatest.nonneg h.gains h.limit (h.first hne) (i := i) hi
  rw [Planner.Greatest] at hgreatest
  rw [← hcount'] at hgains hgreatest hnonneg
  refine ⟨hring', fun i hi => ?_, fun i hi => ?_, fun hpos => ?_, hprevious ▸ h.previous,
    ⟨p - 1, by omega, hpushed p hp' hplanned, ?_⟩, ?_⟩
  · rw [hbuffer, hcell']
    exact h.gain (i + 1) (by omega)
  · rw [hlimit]
    exact h.limit (i + 1) (by omega)
  · rw [hspeed 0 hpos]
    exact hnonneg 1 (by omega)
  · rcases Nat.eq_zero_or_pos p with rfl | hpos
    · trivial
    · obtain ⟨q, rfl⟩ : ∃ q, p = q + 1 := ⟨p - 1, by omega⟩
      rw [hlimit, hreach]
      exact fixed_congr (fun i hi => hspeed i (by omega)) hfixed.tail
  · rw [Planner.Greatest, hlimit, hreach]
    exact (hgreatest.tail hgains).congr (fun _ _ => rfl) (fun _ _ => rfl) hspeed

/-- The state of the current block, as the plan sees it. -/
theorem Planner.Ring.takeBlock (h : s.Ring) (hne : 0 < s.count) (speed millimeters : α) :
    let s' := takeBlock s s.blockBufferTail speed millimeters
    s'.Ring ∧ s'.limit = s.limit ∧
      (∀ i < blockBufferSize,
        s'.reach i = Function.update s.reach 0 (· + s.gainLeft millimeters) i) ∧
      s'.entrySpeed = Function.update s.entrySpeed 0 (speed * speed) := by
  have hcell : ∀ i < blockBufferSize, i ≠ 0 → s.cell i ≠ s.blockBufferTail := by
    intro i hi hpos heq
    rw [← h.cell_zero] at heq
    exact hpos ((cell_inj hi (by decide)).mp heq)
  have hother : ∀ i < blockBufferSize, i ≠ 0 →
      (PcbMill.takeBlock s s.blockBufferTail speed millimeters).blockBuffer (s.cell i) =
        s.blockBuffer (s.cell i) :=
    fun i hi hpos => Function.update_of_ne (hcell i hi hpos) _ _
  refine ⟨⟨h.inRing, h.nextHead, fun block hblock => ⟨(Option.some.inj hblock).symm, hne⟩,
    h.planned⟩, ?_, fun i hi => ?_, ?_⟩
  · funext i
    show (Function.update s.blockBuffer s.blockBufferTail _ (s.cell i)).maxEntrySpeedSqr = _
    by_cases hi : s.cell i = s.blockBufferTail
    · rw [hi, Function.update_self, Planner.limit, hi]
    · rw [Function.update_of_ne hi, Planner.limit]
  · by_cases hpos : i = 0
    · subst hpos
      rw [Function.update_self]
      funext x
      show x + PlanBlock.gain (Function.update s.blockBuffer s.blockBufferTail _ (s.cell 0)) = _
      rw [h.cell_zero, Function.update_self]
      rfl
    · rw [Function.update_of_ne hpos]
      funext x
      exact congrArg (fun block => x + PlanBlock.gain block) (hother i hi hpos)
  · funext i
    by_cases hpos : i = 0
    · subst hpos
      rw [Function.update_self]
      rfl
    · rw [Function.update_of_ne hpos]
      by_cases hlt : i < blockBufferSize
      · rw [Planner.entrySpeed_of_pos (by omega) hlt, Planner.entrySpeed_of_pos (by omega) hlt]
        exact congrArg PlanBlock.entrySpeedSqr (hother i hlt hpos)
      · simp only [Planner.entrySpeed, if_neg hpos, if_neg hlt]

omit [SpeedNumber α] in
theorem planGetCurrentBlock_cases (h : s.Ring) :
    (planGetCurrentBlock s = none ∧ s.count = 0) ∨
      (planGetCurrentBlock s = some s.blockBufferTail ∧ 0 < s.count) := by
  rw [planGetCurrentBlock]
  split_ifs with hheld
  · exact .inl ⟨rfl, h.inRing.held_eq_zero.mpr hheld⟩
  · exact .inr ⟨rfl, Nat.pos_of_ne_zero fun hzero => hheld (h.inRing.held_eq_zero.mp hzero)⟩

/-- The other blocks stay, and the current one has a gain that is not negative either. -/
theorem Planner.Sound.takeBlock_gain (h : s.Sound) {speed millimeters : α}
    (hgain : 0 ≤ s.gainLeft millimeters) :
    ∀ i < s.count,
      0 ≤ ((takeBlock s s.blockBufferTail speed millimeters).blockBuffer (s.cell i)).gain := by
  intro i hi
  show 0 ≤ PlanBlock.gain (Function.update s.blockBuffer s.blockBufferTail _ (s.cell i))
  by_cases htail : s.cell i = s.blockBufferTail
  · rw [htail, Function.update_self]
    exact hgain
  · rw [Function.update_of_ne htail]
    exact h.gain i hi

theorem Planner.Sound.progress (h : s.Sound) (hne : 0 < s.count) {speed millimeters : α}
    (hgain : 0 ≤ s.gainLeft millimeters)
    (hway : OnWay s.reach s.count s.entrySpeed (· + s.gainLeft millimeters) (speed * speed)) :
    (takeBlock s s.blockBufferTail speed millimeters).Sound := by
  obtain ⟨hring, hlimit, hreach, hspeed⟩ := h.ring.takeBlock hne speed millimeters
  obtain ⟨p, hp, hplanned, hfixed⟩ := h.fixed
  have hlt := h.ring.count_lt
  refine ⟨hring, h.takeBlock_gain hgain, ?_, fun _ => ?_, h.previous, ⟨p, hp, hplanned, ?_⟩, ?_⟩
  · rw [hlimit]
    exact h.limit
  · rw [hspeed, Function.update_self]
    exact SpeedNumber.square_nonneg speed
  · refine (hfixed.advance hway (by omega)).congr (fun i _ => ?_) (fun i hi => ?_) fun i _ => ?_
    · rw [hlimit]
    · exact hreach i (by omega)
    · rw [hspeed]
  · refine Optimal.congr (fun i _ => ?_) (fun i hi => ?_) (fun i _ => ?_)
      (h.greatest.advance hway)
    · rw [hlimit]
    · exact hreach i (hi.trans hlt)
    · rw [hspeed]

/-- The state a replanning from the tail begins in, when the stepper stands. -/
def Planner.atRest (s : Planner α) : Planner α :=
  { stUpdatePlanBlockParameters s with blockBufferPlanned := s.blockBufferTail }

theorem Planner.Ring.atRest (h : s.Ring) :
    s.SameRoute s.atRest ∧ s.atRest.Ring ∧ s.atRest.blockBufferPlanned = s.cell 0 ∧
      s.atRest.entrySpeed = s.entrySpeed := by
  have hupdate := sameRoute_stUpdate s
  have hroute : s.SameRoute s.atRest := ⟨hupdate.tail, hupdate.head, hupdate.nextHead,
    hupdate.position, hupdate.previous, hupdate.speed, hupdate.block, hupdate.told⟩
  have hplanned : s.atRest.blockBufferPlanned = s.cell 0 := h.cell_zero.symm
  refine ⟨hroute, hroute.ring h (by omega) hplanned, hplanned, ?_⟩
  rw [← h.stUpdate_entrySpeed]
  rfl

theorem planCycleReinitialize_eq (s : Planner α) :
    planCycleReinitialize s = plannerRecalculate s.atRest := by
  have htail := (sameRoute_stUpdate s).tail
  unfold planCycleReinitialize
  rw [Planner.atRest, ← htail]

/-- **Replanning from the tail.**  It needs no more than speeds from which one can brake. -/
theorem Planner.Ring.replan (h : s.Ring) (hne : 0 < s.count)
    (hgain : ∀ i < s.count, 0 ≤ (s.blockBuffer (s.cell i)).gain)
    (hlimit : ∀ i < s.count, 0 ≤ s.limit i)
    (hlimit_le : ∀ i, 0 < i → i < s.count → s.entrySpeed i ≤ s.limit i)
    (hbrake : ∀ i < s.count, s.entrySpeed i ≤ s.reach i (exitSpeed s.count s.entrySpeed i))
    (hfirst : 0 ≤ s.entrySpeed 0) (hprevious : 0 ≤ s.previousNominalSpeedSqr) :
    ∃ s', planCycleReinitialize s = some s' ∧ s'.Sound ∧ s'.entrySpeed 0 = s.entrySpeed 0 ∧
      s.SameRoute s' := by
  obtain ⟨hroute, hring, hplanned, hspeed⟩ := h.atRest
  have hlt := h.count_lt
  rw [planCycleReinitialize_eq]
  have hplanned' : s.atRest.blockBufferPlanned = s.atRest.cell 0 := by
    rw [hroute.cell]
    exact hplanned
  have hgain' : ∀ i < s.atRest.count, 0 ≤ (s.atRest.blockBuffer (s.atRest.cell i)).gain := by
    intro i hi
    rw [hroute.count] at hi
    rw [hroute.cell, hroute.block]
    exact hgain i hi
  have hlimit' : ∀ i < s.atRest.count, 0 ≤ s.atRest.limit i := by
    rw [hroute.count, hroute.limit]
    exact hlimit
  have hfirst' : 0 ≤ s.atRest.entrySpeed 0 := hspeed ▸ hfirst
  have hprevious' : 0 ≤ s.atRest.previousNominalSpeedSqr := hroute.previous ▸ hprevious
  have hgains := gains_reach hgain'
  by_cases hone : s.count = 1
  · have hcount : s.atRest.count = 1 := hroute.count.trans hone
    refine ⟨_, hring.recalculate_last hplanned' hcount, ⟨hring, hgain', hlimit',
      fun _ => hfirst', hprevious', ⟨0, by omega, hplanned', trivial⟩, ?_⟩,
      congrFun hspeed 0, hroute⟩
    have hstop := hbrake 0 hne
    rw [exitSpeed_of_last (by omega)] at hstop
    rw [Planner.Greatest, hcount, hroute.limit, hroute.reach, hspeed]
    exact optimal_one hstop
  · obtain ⟨n, hn⟩ : ∃ n, s.count = n + 2 := ⟨s.count - 2, by omega⟩
    have hcount : s.atRest.count = n + 2 := hroute.count.trans hn
    have hlast := planLast_speed (s := s.atRest) (i := n + 1) (by omega) (by omega)
    rw [hn] at hlimit_le hbrake
    rw [hcount] at hgains
    rw [hroute.reach] at hgains
    have hbraked : Braked s.atRest.limit s.atRest.reach (n + 2) (n + 1)
        (planLast s.atRest (s.atRest.cell (n + 1))).entrySpeed := by
      rw [hlast, hroute.limit, hroute.reach, hspeed]
      refine braked_last (fun i hi hin => ?_) (fun i hi => ?_) (Function.update_self ..)
      · rw [Function.update_of_ne (by omega)]
        exact hlimit_le i hi (by omega)
      · rw [Function.update_of_ne (by omega)]
        have hnext := hbrake i (by omega)
        rw [exitSpeed_of_lt (by omega)] at hnext
        refine hnext.trans (hgains.mono i (by omega) ?_)
        by_cases hin : i + 1 = n + 1
        · rw [hin, Function.update_self]
          have hstop := hbrake (n + 1) (by omega)
          rw [exitSpeed_of_last (by omega)] at hstop
          exact le_min (hlimit_le _ (by omega) (by omega)) hstop
        · rw [Function.update_of_ne hin]
    obtain ⟨s', hs', hrecalculated⟩ := hring.recalculate hplanned' hcount (Nat.zero_le n)
      (hroute.reach ▸ hgains) hbraked (fun i hi => by omega)
      (fun w _ hw i hi => by
        obtain rfl : i = 0 := by omega
        exact hw.le)
      trivial
    exact ⟨s', hs', hrecalculated.sound hring hgain' hlimit' (fun _ => hfirst') hprevious',
      hrecalculated.first.trans (congrFun hspeed 0), hroute.trans hrecalculated.route⟩

theorem Planner.Sound.hold (h : s.Sound) (hne : 0 < s.count) {millimeters : α}
    (hgain : 0 ≤ s.gainLeft millimeters) :
    ∃ s', planCycleReinitialize (takeBlock s s.blockBufferTail 0 millimeters) = some s' ∧
      s'.Sound := by
  obtain ⟨hring, hlimit, hreach, hspeed⟩ := h.ring.takeBlock hne 0 millimeters
  have hlt := h.ring.count_lt
  have hcount : (takeBlock s s.blockBufferTail 0 millimeters).count = s.count := rfl
  have hexit : ∀ i, exitSpeed s.count (Function.update s.entrySpeed 0 ((0 : α) * 0)) i =
      exitSpeed s.count s.entrySpeed i :=
    fun i => exitSpeed_congr fun _ => Function.update_of_ne (Nat.succ_ne_zero i) _ _
  have hnonneg : 0 ≤ exitSpeed s.count s.entrySpeed 0 := by
    rw [exitSpeed]
    split_ifs with hnext
    · exact h.greatest.nonneg h.gains h.limit (h.first hne) hnext
    · exact le_rfl
  obtain ⟨s', hs', hsound, -⟩ := hring.replan hne (h.takeBlock_gain hgain)
    (by
      rw [hlimit]
      exact h.limit)
    (by
      rw [hlimit, hspeed]
      intro i hi hin
      rw [Function.update_of_ne (by omega)]
      exact h.greatest.feasible.limit_le i hi hin)
    (by
      rw [hspeed, hcount]
      intro i hi
      rw [hexit, hreach i (by omega)]
      by_cases hpos : i = 0
      · subst hpos
        rw [Function.update_self, Function.update_self, SpeedNumber.zero_mul_zero_eq]
        exact hnonneg.trans (SpeedNumber.le_add_right_of_nonneg _ _ hgain)
      · rw [Function.update_of_ne hpos, Function.update_of_ne hpos]
        exact h.greatest.brake hi)
    (by
      rw [hspeed, Function.update_self, SpeedNumber.zero_mul_zero_eq])
    h.previous
  exact ⟨s', hs', hsound⟩

/-! ### Runs -/

theorem Planner.Sound.step (h : s.Sound) {e : PlannerEvent α} (he : e.Regular s) :
    ∃ s', plannerStep s e = some s' ∧ s'.Sound := by
  cases e with
  | line m => exact h.line he
  | progress speed millimeters =>
    rw [plannerStep]
    obtain ⟨hget, -⟩ | ⟨hget, hne⟩ := planGetCurrentBlock_cases h.ring
    · rw [hget]
      exact ⟨s, rfl, h⟩
    · rw [hget]
      exact ⟨_, rfl, h.progress hne he.1 he.2⟩
  | discard => exact ⟨_, rfl, h.discard⟩
  | hold millimeters =>
    rw [plannerStep]
    obtain ⟨hget, -⟩ | ⟨hget, hne⟩ := planGetCurrentBlock_cases h.ring
    · rw [hget]
      exact ⟨s, rfl, h⟩
    · rw [hget]
      exact h.hold hne he

theorem sound_planReset (s : Planner α) : (planReset s).Sound where
  ring := ⟨InRing.zero _, rfl, nofun, 0, by omega, rfl⟩
  gain := fun i hi => absurd hi (Nat.not_lt_zero i)
  limit := fun i hi => absurd hi (Nat.not_lt_zero i)
  first := fun hne => absurd hne (Nat.lt_irrefl 0)
  previous := le_rfl
  fixed := ⟨0, by omega, rfl, trivial⟩
  greatest := ⟨⟨fun i _ hn => absurd hn (Nat.not_lt_zero i), fun i _ hn => absurd hn (Nat.not_lt_zero i),
    fun i hi => absurd hi (Nat.not_lt_zero _)⟩, fun hn => absurd hn (Nat.lt_irrefl 0),
    fun _ _ _ i hi => absurd hi (Nat.not_lt_zero i)⟩

/-- **The plan is the greatest one** in every state of every run, with every recalculation done. -/
theorem planner_greatest (s : Planner α) {es : List (PlannerEvent α)}
    (hes : Admitted plannerStep (fun s e => e.Regular s) (planReset s) es) :
    Throughout plannerStep Planner.Greatest (planReset s) es :=
  (throughout_of_admitted (fun _ _ h he => h.step he) (sound_planReset s) hes).mono
    fun _ h => h.greatest

/-- Two lines, the first of which is half done when a third comes; then a hold. -/
def plannerEvents : List (PlannerEvent ℤ) :=
  [.line ⟨![100, 0, 0], 10, 8, 900, 0⟩, .line ⟨![100, -50, 0], 10, 8, 900, 50⟩, .progress 8 6,
    .line ⟨![0, 0, 30], 20, 8, 900, 70⟩, .hold 5, .discard, .discard]

theorem planner_greatest_run :
    Throughout plannerStep Planner.Greatest (planReset default) plannerEvents :=
  planner_greatest default (by decide +kernel)

/-- **Replanning everything** after such a run gives every block the entry speed it has. -/
theorem replan_same (s : Planner α) {es : List (PlannerEvent α)}
    (hes : Admitted plannerStep (fun s e => e.Regular s) (planReset s) es) :
    Throughout plannerStep (fun s => 0 < s.count → ∃ s', planCycleReinitialize s = some s' ∧
      ∀ i < s.count, s'.entrySpeed i = s.entrySpeed i) (planReset s) es := by
  refine (throughout_of_admitted (fun _ _ h he => h.step he) (sound_planReset s) hes).mono
    fun s h hne => ?_
  obtain ⟨s', hs', hsound, hfirst, hroute⟩ := h.ring.replan hne h.gain h.limit
    h.greatest.feasible.limit_le (fun i hi => h.greatest.brake hi) (h.first hne) h.previous
  have hgreatest := hsound.greatest
  rw [Planner.Greatest, hroute.limit, hroute.reach, hroute.count] at hgreatest
  exact ⟨s', hs', fun i hi => h.greatest.unique hgreatest hfirst hi⟩

theorem replan_same_run :
    Throughout plannerStep (fun s => 0 < s.count → ∃ s', planCycleReinitialize s = some s' ∧
      ∀ i < s.count, s'.entrySpeed i = s.entrySpeed i) (planReset default) plannerEvents :=
  replan_same default (by decide +kernel)

end PcbMill
