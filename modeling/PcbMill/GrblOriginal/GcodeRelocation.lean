import PcbMill.GrblOriginal.GcodeRuns

/-!
# A program in another place

Where the workpiece is clamped somewhere else, by the same distance for the position of the machine,
the coordinate systems and the home positions, a program makes the same motions there: all of them
are shifted by that distance, and everything else is the same.  Left out are only the words that
name positions of the machine itself, G53 and the L2 of G10.

Sums and differences must be exact for that, as they are where nothing is rounded.
-/

namespace PcbMill.Gcode

open Run GcodeNumber

universe u

/-- The sums and differences are not rounded. -/
class ExactSums (α : Type*) [GcodeNumber α] : Prop where
  add_shift : ∀ a b d : α, a + (b + d) = a + b + d
  shift_add : ∀ a b d : α, a + d + b = a + b + d
  shift_sub : ∀ a b d : α, a + d - b = a - b + d
  shift_sub_shift : ∀ a b d : α, a + d - (b + d) = a - b
  same_shift : ∀ a b d : α, same (a + d) (b + d) = same a b

instance : ExactSums ℚ where
  add_shift a b d := by ring
  shift_add a b d := by ring
  shift_sub a b d := by ring
  shift_sub_shift a b d := by ring
  same_shift a b d := decide_eq_decide.mpr (add_left_inj d)

variable {α : Type u} [GcodeNumber α]

/-! ### The shift -/

def shiftAxes (d x : Axes α) : Axes α := fun idx => x idx + d idx

def ParserState.shift (d : Axes α) (s : ParserState α) : ParserState α :=
  { s with position := shiftAxes d s.position, coordSystem := shiftAxes d s.coordSystem }

def shiftStore (d : Axes α) (store : CoordStore α) : CoordStore α :=
  fun i => (store i).map (shiftAxes d)

def McCall.shift (d : Axes α) : McCall α → McCall α
  | .seek target => .seek (shiftAxes d target)
  | .line target feedRate invertFeedRate => .line (shiftAxes d target) feedRate invertFeedRate
  | .arc position target offset radius feedRate invertFeedRate axis0 axis1 axisLinear isClockwise =>
    .arc (shiftAxes d position) (shiftAxes d target) offset radius feedRate invertFeedRate axis0
      axis1 axisLinear isClockwise
  | .probeCycle target feedRate invertFeedRate isProbeAway isNoError =>
    .probeCycle (shiftAxes d target) feedRate invertFeedRate isProbeAway isNoError
  | call => call

def Interpreter.shift (d : Axes α) (g : Interpreter α) : Interpreter α where
  gcState := g.gcState.shift d
  store := shiftStore d g.store
  calls := g.calls.map (McCall.shift d)

/-- A probing cycle ends in the place shifted, too. -/
structure ShiftedSurroundings (d : Axes α) (e e' : Surroundings α) : Prop where
  checkMode : e'.checkMode = e.checkMode
  probe : ∀ target, e'.probe (shiftAxes d target) = shiftAxes d (e.probe target)

/-- The axis words have become the target of a motion. -/
def Parse.Moves (p : Parse α) : Prop :=
  p.axisCommand ≠ .toolLengthOffset ∧ p.axisWords ≠ 0#8 ∧
    p.block.nonModalCommand ≠ .setCoordinateData ∧ p.block.nonModalCommand ≠ .setCoordinateOffset

instance (p : Parse α) : Decidable p.Moves := inferInstanceAs (Decidable (_ ∧ _))

def Parse.shift (d : Axes α) (p : Parse α) : Parse α :=
  { p with block.values.xyz :=
      if p.Moves then shiftAxes d p.block.values.xyz else p.block.values.xyz }

theorem shift_of_moves {p : Parse α} (h : p.Moves) (d : Axes α) :
    p.shift d = { p with block.values.xyz := shiftAxes d p.block.values.xyz } := by
  rw [Parse.shift, if_pos h]

theorem shift_of_not_moves {d : Axes α} {p : Parse α} (h : ¬p.Moves) : p.shift d = p := by
  rw [Parse.shift, if_neg h]

/-- The command goes on with the data read. -/
def NonModal.readsData : NonModal → Bool
  | .setCoordinateData | .goHome0 | .goHome1 => true
  | _ => false

def Checked.shift (d : Axes α) (c : Checked α) : Checked α where
  parse := c.parse.shift d
  coordinateData := shiftAxes d c.coordinateData
  coordSelect := c.coordSelect
  parameterData := if c.parse.block.nonModalCommand.readsData then shiftAxes d c.parameterData
    else c.parameterData

def shiftCheck {β : Type*} (d : Axes α) (f : β → β) : StoreCheck α β → StoreCheck α β
  | .error (status, store) => .error (status, shiftStore d store)
  | .ok b => .ok (f b)

variable {d : Axes α} {s : ParserState α} {p p' : Parse α} {store : CoordStore α} {c : Checked α}
  {g : Interpreter α} {e e' : Surroundings α}

/-! ### Checks of a line shifted -/

/-- The words of a line that name positions of the machine itself. -/
def Setting.isAbsolute : Setting α → Bool
  | .nonModal .absoluteOverride => true
  | .l k => k = 2
  | _ => false

/-- The commands that take the axis words as something else than the target of a motion, or make a
motion of their own. -/
def NonModal.claims : NonModal → Bool
  | .setCoordinateData | .setCoordinateOffset | .goHome0 | .goHome1 => true
  | _ => false

/-- What is known of the words of a line that may be shifted. -/
structure Parse.Relocatable (p : Parse α) : Prop where
  command : p.block.nonModalCommand ≠ .absoluteOverride
  l : p.block.values.l ≠ 2
  claimed : p.block.nonModalCommand.claims = true → p.axisCommand = .nonModal

theorem readCoordData_shift {i : ℕ} (h : (store i).isSome) :
    readCoordData (shiftStore d store) i = shiftCheck d (shiftAxes d) (readCoordData store i) := by
  obtain ⟨data, hdata⟩ := Option.isSome_iff_exists.mp h
  simp only [readCoordData, shiftStore, hdata]
  rfl

theorem dropAxisCommand_shift (d : Axes α) (p : Parse α) :
    dropAxisCommand (p.shift d) = (dropAxisCommand p).shift d := by
  by_cases hwords : p.axisWords = 0#8
  · have hstill : ¬p.Moves := fun h => h.2.1 hwords
    have hdropped : ¬(dropAxisCommand p).Moves := by
      rw [dropAxisCommand, if_pos hwords]
      exact fun h => h.2.1 hwords
    rw [shift_of_not_moves hstill, shift_of_not_moves hdropped]
  · have hdrop : dropAxisCommand p = p := if_neg hwords
    have hdropShift : dropAxisCommand (p.shift d) = p.shift d := if_neg hwords
    rw [hdrop, hdropShift]

theorem shiftCheck_guard {β : Type*} {cond : Prop} [Decidable cond] (status : GcodeError)
    (f : β → β) (r : StoreCheck α β) :
    shiftCheck d f (if cond then .error (status, store) else r) =
      if cond then .error (status, shiftStore d store) else shiftCheck d f r := by
  split_ifs <;> rfl

section Exact

variable [ExactSums α]

open ExactSums

theorem gcCheckSamePosition_shift (d a b : Axes α) :
    gcCheckSamePosition (shiftAxes d a) (shiftAxes d b) = gcCheckSamePosition a b := by
  simp only [gcCheckSamePosition, shiftAxes, same_shift]

theorem lessToolLength_shift (s : ParserState α) (idx : AxisIndex) (x y : α) :
    lessToolLength (s.shift d) idx (x + y) = lessToolLength s idx x + y := by
  simp only [lessToolLength, ParserState.shift]
  split_ifs
  · exact shift_sub _ _ _
  · rfl

theorem setTarget_shift (hp : p.Relocatable)
    (hmoves : p.block.nonModalCommand ≠ .setCoordinateData ∧
      p.block.nonModalCommand ≠ .setCoordinateOffset) (data : Axes α) :
    setTarget (s.shift d) (shiftAxes d data) p = (setTarget s data p).shift d := by
  by_cases htarget : p.axisCommand ≠ .toolLengthOffset ∧ p.axisWords ≠ 0#8
  · have hshift : (setTarget s data p).Moves := by
      rw [setTarget, if_pos htarget]
      exact ⟨htarget.1, htarget.2, hmoves⟩
    rw [shift_of_moves hshift]
    simp only [setTarget, if_pos htarget]
    congr 3
    funext idx
    simp only [shiftAxes, ParserState.shift, if_neg hp.command]
    split_ifs
    · rfl
    · rw [shift_add (data idx), add_shift, shift_add]
    · rw [shift_add (data idx), add_shift]
    · exact add_shift _ _ _
  · have hstill : ¬(setTarget s data p).Moves := by
      rw [setTarget, if_neg htarget]
      exact fun h => htarget ⟨h.1, h.2.1⟩
    rw [shift_of_not_moves hstill]
    simp only [setTarget, if_neg htarget]

theorem checkSetCoordinateData_shift (hp : p.Relocatable)
    (hcommand : p.block.nonModalCommand = .setCoordinateData)
    (hdata : ∀ i < nCoordinateSystem + 2, (store i).isSome)
    (hselect : p.block.modal.coordSelect < nCoordinateSystem) (data : Axes α) :
    checkSetCoordinateData (s.shift d) (shiftStore d store) (shiftAxes d data) p =
      shiftCheck d (Checked.shift d) (checkSetCoordinateData s store data p) := by
  rw [checkSetCoordinateData, checkSetCoordinateData, shiftCheck_guard, shiftCheck_guard,
    shiftCheck_guard, shiftCheck_guard]
  refine if_congr Iff.rfl rfl (if_congr Iff.rfl rfl (ite_congr rfl (fun _ => rfl) fun hlarge =>
    ite_congr rfl (fun _ => rfl) fun hl => ?_))
  have htwenty : p.block.values.l = 20 := by
    by_contra hne
    exact hl ⟨hne, fun htwo => absurd htwo hp.l⟩
  have hlt : (if 0 < toUInt8 p.block.values.p then toUInt8 p.block.values.p - 1
      else p.block.modal.coordSelect) < nCoordinateSystem + 2 := by
    rw [Nat.not_lt] at hlarge
    split_ifs
    · omega
    · exact Nat.lt_add_right 2 hselect
  obtain ⟨old, hold⟩ := readCoordData_eq_ok (hdata _ hlt)
  simp only [readCoordData_shift (hdata _ hlt), hold, htwenty]
  have hstill : ∀ words, ¬Parse.Moves { p with valueWords := words } :=
    fun words h => h.2.2.1 hcommand
  have hreads : p.block.nonModalCommand.readsData = true := by
    rw [hcommand]
    rfl
  simp only [shiftCheck, Except.map, Checked.shift, shift_of_not_moves (hstill _), hreads, if_true]
  congr 2
  funext idx
  have hoffset : (s.shift d).position idx - (s.shift d).coordOffset idx - p.block.values.xyz idx =
      s.position idx - s.coordOffset idx - p.block.values.xyz idx + d idx := by
    show s.position idx + d idx - s.coordOffset idx - _ = _
    rw [shift_sub, shift_sub]
  simp only [shiftAxes]
  split_ifs
  · rw [hoffset, lessToolLength_shift]
  · rfl

theorem setCoordinateOffset_shift (hcommand : p.block.nonModalCommand = .setCoordinateOffset)
    (data : Axes α) : setCoordinateOffset (s.shift d) (shiftAxes d data) p =
      (setCoordinateOffset s data p).shift d := by
  have hstill : ¬(setCoordinateOffset s data p).Moves := fun h => h.2.2.2 hcommand
  rw [shift_of_not_moves hstill]
  simp only [setCoordinateOffset, ParserState.shift, shiftAxes, shift_sub_shift, lessToolLength]

theorem goHome_shift (hp : p.Relocatable) (hreads : p.block.nonModalCommand.readsData = true)
    (hmoves : p.block.nonModalCommand ≠ .setCoordinateData ∧
      p.block.nonModalCommand ≠ .setCoordinateOffset) {i : ℕ} (hi : (store i).isSome)
    (data : Axes α) :
    ((readCoordData (shiftStore d store) i).map fun home => (Checked.mk
        (dropAxisCommand (setTarget (s.shift d) (shiftAxes d data) p)) (shiftAxes d data) 0 home)) =
      shiftCheck d (Checked.shift d) ((readCoordData store i).map fun home =>
        Checked.mk (dropAxisCommand (setTarget s data p)) data 0 home) := by
  obtain ⟨home, hhome⟩ := readCoordData_eq_ok hi
  have hcommands : (dropAxisCommand (setTarget s data p)).commands = p.commands :=
    (commands_dropAxisCommand _).trans (commands_setTarget s data p)
  have hcommand : (dropAxisCommand (setTarget s data p)).block.nonModalCommand =
      p.block.nonModalCommand := congrArg Prod.snd hcommands
  rw [readCoordData_shift hi, hhome, setTarget_shift hp hmoves, dropAxisCommand_shift]
  simp only [shiftCheck, Except.map, Checked.shift, hcommand, hreads, if_true]

theorem checkNonModal_shift (hp : p.Relocatable)
    (hdata : ∀ i < nCoordinateSystem + 2, (store i).isSome)
    (hselect : p.block.modal.coordSelect < nCoordinateSystem) (data : Axes α) :
    checkNonModal (s.shift d) (shiftStore d store) (shiftAxes d data) p =
      shiftCheck d (Checked.shift d) (checkNonModal s store data p) := by
  have hcommand : ∀ data', (setTarget s data' p).block.nonModalCommand = p.block.nonModalCommand :=
    fun data' => congrArg Prod.snd (commands_setTarget s data' p)
  cases hnonModal : p.block.nonModalCommand with
  | setCoordinateData =>
    simp only [checkNonModal, hnonModal]
    exact checkSetCoordinateData_shift hp hnonModal hdata hselect data
  | setCoordinateOffset =>
    simp only [checkNonModal, hnonModal, shiftCheck_guard]
    split_ifs
    · rfl
    · rw [setCoordinateOffset_shift hnonModal]
      have hset : (setCoordinateOffset s data p).block.nonModalCommand = .setCoordinateOffset :=
        hnonModal
      simp only [shiftCheck, Checked.shift, hset, NonModal.readsData]
      rfl
  | absoluteOverride => exact absurd hnonModal hp.command
  | goHome0 =>
    simp only [checkNonModal, hnonModal]
    exact goHome_shift hp (by rw [hnonModal]; rfl) (by rw [hnonModal]; decide)
      (hdata _ (by decide)) data
  | goHome1 =>
    simp only [checkNonModal, hnonModal]
    exact goHome_shift hp (by rw [hnonModal]; rfl) (by rw [hnonModal]; decide)
      (hdata _ (by decide)) data
  | _ =>
    have htarget := setTarget_shift (s := s) (d := d) hp (by rw [hnonModal]; decide) data
    simp only [checkNonModal, hnonModal, htarget, shiftCheck, Checked.shift, hcommand,
      NonModal.readsData]
    rfl

theorem checkArcRadius_shift (hp : p.Moves) (axis0 axis1 : AxisIndex) (x y : α) :
    checkArcRadius (s.shift d) (p.shift d) axis0 axis1 x y =
      (checkArcRadius s p axis0 axis1 x y).map (Parse.shift d) := by
  have hposition : gcCheckSamePosition (s.shift d).position (shiftAxes d p.block.values.xyz) =
      gcCheckSamePosition s.position p.block.values.xyz := gcCheckSamePosition_shift d _ _
  rw [shift_of_moves hp]
  simp only [checkArcRadius, hposition]
  by_cases hsame : gcCheckSamePosition s.position p.block.values.xyz = true
  · rw [if_pos hsame, if_pos hsame]
    rfl
  · rw [if_neg hsame, if_neg hsame]
    generalize (if p.block.modal.units = .inches then inches p.block.values.r
      else p.block.values.r) = r
    by_cases hchord : negative (chord r x y) = true
    · rw [if_pos hchord, if_pos hchord]
      rfl
    · rw [if_neg hchord, if_neg hchord]
      show _ = Except.ok (Parse.shift d _)
      rw [shift_of_moves (by exact hp)]

omit [ExactSums α] in
theorem checkArcCentre_shift (hp : p.Moves) (axis0 axis1 : AxisIndex) (x y : α) :
    checkArcCentre (p.shift d) axis0 axis1 x y =
      (checkArcCentre p axis0 axis1 x y).map (Parse.shift d) := by
  rw [shift_of_moves hp]
  simp only [checkArcCentre]
  by_cases hoffsets : bitIsfalse p.ijkWords (bit axis0.val ||| bit axis1.val) = true
  · rw [if_pos hoffsets, if_pos hoffsets]
    rfl
  · rw [if_neg hoffsets, if_neg hoffsets]
    rw [apply_ite (Except.map (Parse.shift d))]
    refine if_congr Iff.rfl rfl ?_
    show _ = Except.ok (Parse.shift d _)
    rw [shift_of_moves (by exact hp)]

/-- Behind the checks of its target an arc does not see the shift. -/
theorem checkArc_shift (hp : p.Moves) :
    checkArc (s.shift d) (p.shift d) = (checkArc s p).map (Parse.shift d) := by
  have hx : ∀ idx, (p.shift d).block.values.xyz idx - (s.shift d).position idx =
      p.block.values.xyz idx - s.position idx := by
    intro idx
    rw [shift_of_moves hp]
    exact shift_sub_shift _ _ _
  have hradius := checkArcRadius_shift (s := s) (d := d) hp
  have hcentre := checkArcCentre_shift (d := d) hp
  rcases hplane : planeAxes p.block.modal.planeSelect with ⟨axis0, axis1, axisLinear⟩
  have hplaneShift : planeAxes (p.shift d).block.modal.planeSelect = (axis0, axis1, axisLinear) :=
    hplane
  simp only [checkArc, hplane, hplaneShift, hx, hradius, hcentre]
  have hwords : ¬p.axisWords = 0#8 := hp.2.1
  have hwordsShift : ¬(p.shift d).axisWords = 0#8 := hwords
  rw [if_neg hwords, if_neg hwordsShift]
  by_cases hplaneWords : bitIsfalse p.axisWords (bit axis0.val ||| bit axis1.val) = true
  · rw [if_pos hplaneWords, if_pos (by exact hplaneWords)]
    rfl
  · rw [if_neg hplaneWords, if_neg (by exact hplaneWords)]
    rw [apply_ite (Except.map (Parse.shift d))]
    exact if_congr Iff.rfl rfl rfl

theorem checkMotion_shift (hp : p.axisCommand = .motionMode → p.axisWords ≠ 0#8 → p.Moves) :
    checkMotion (s.shift d) (p.shift d) = (checkMotion s p).map (Parse.shift d) := by
  have hf : (p.shift d).block.values.f = p.block.values.f := rfl
  have hwords : (p.shift d).axisWords = p.axisWords := rfl
  have hcommand : (p.shift d).axisCommand = p.axisCommand := rfl
  have hmode : (p.shift d).block.modal.motion = p.block.modal.motion := rfl
  by_cases hmotion : p.axisCommand = .motionMode
  · -- Without axis words neither an arc nor a probing cycle comes to its target.
    have harc : checkArc (s.shift d) (p.shift d) = (checkArc s p).map (Parse.shift d) := by
      by_cases hnone : p.axisWords = 0#8
      · simp only [checkArc, hwords, hnone, if_true]
        rfl
      · exact checkArc_shift (hp hmotion hnone)
    have hprobe : (if p.axisWords = 0#8 then .error .noAxisWords
        else if gcCheckSamePosition (s.shift d).position (p.shift d).block.values.xyz then
          .error .invalidTarget
        else .ok (p.shift d) : Except GcodeError (Parse α)) =
        Except.map (Parse.shift d) (if p.axisWords = 0#8 then .error .noAxisWords
          else if gcCheckSamePosition s.position p.block.values.xyz then .error .invalidTarget
          else .ok p) := by
      by_cases hnone : p.axisWords = 0#8
      · rw [if_pos hnone, if_pos hnone]
        rfl
      · have hposition : gcCheckSamePosition (s.shift d).position (p.shift d).block.values.xyz =
            gcCheckSamePosition s.position p.block.values.xyz := by
          rw [shift_of_moves (hp hmotion hnone)]
          exact gcCheckSamePosition_shift d _ _
        rw [if_neg hnone, if_neg hnone, hposition]
        split_ifs <;> rfl
    cases hmodal : p.block.modal.motion <;>
      simp only [checkMotion, hf, hwords, hcommand, hmode, hmotion, hmodal, harc, hprobe,
        dropAxisCommand_shift] <;>
      split_ifs <;> rfl
  · simp only [checkMotion, hwords, hcommand, hmode, if_neg hmotion]
    split_ifs <;> rfl

omit [ExactSums α] in
theorem checkUnused_shift (d : Axes α) (p : Parse α) :
    checkUnused (p.shift d) = (checkUnused p).map (Parse.shift d) := by
  have hwords : (p.shift d).valueWords = p.valueWords := rfl
  have hcommand : (p.shift d).axisCommand = p.axisCommand := rfl
  simp only [checkUnused, hwords, hcommand]
  generalize (if p.axisCommand ≠ .none then _ else _ : BitVec 16) = words
  rw [apply_ite (Except.map (Parse.shift d))]
  exact if_congr Iff.rfl rfl rfl

theorem checkActions_shift (hp : p.axisCommand = .motionMode → p.axisWords ≠ 0#8 → p.Moves) :
    checkActions (s.shift d) (p.shift d) = (checkActions s p).map (Parse.shift d) := by
  rw [checkActions, checkActions, checkMotion_shift hp]
  cases checkMotion s p with
  | error status => rfl
  | ok p1 => exact checkUnused_shift d p1

omit [ExactSums α] in
/-- The checks of the modes do not look at the position. -/
theorem checkModes_shift (d : Axes α) (s : ParserState α) (p : Parse α) :
    checkModes (s.shift d) p = checkModes s p := rfl

omit [ExactSums α] in
theorem checkModes_keeps (h : checkModes s p = .ok p') : p'.block.values.l = p.block.values.l ∧
    (p.axisCommand = .nonModal → p'.axisCommand = .nonModal) := by
  rw [checkModes] at h
  obtain ⟨p1, h1, h⟩ := bind_eq_ok.mp h
  obtain ⟨p2, h2, h⟩ := bind_eq_ok.mp h
  obtain ⟨p3, h3, h⟩ := bind_eq_ok.mp h
  have hline : p1.block.values.l = p.block.values.l ∧
      (p.axisCommand = .nonModal → p1.axisCommand = .nonModal) := by
    rw [checkLineNumber, implicitAxisCommand] at h1
    split_ifs at h1 with himplicit <;> cases h1
    · refine ⟨rfl, fun hclaimed => ?_⟩
      rw [himplicit.2] at hclaimed
      cases hclaimed
    · exact ⟨rfl, id⟩
  have hfeed : p2.block.values.l = p1.block.values.l ∧ p2.axisCommand = p1.axisCommand := by
    rw [checkFeedRate] at h2
    split at h2
    · split_ifs at h2
      cases h2
      exact ⟨rfl, rfl⟩
    · obtain rfl := Except.ok.inj h2
      split_ifs <;> exact ⟨rfl, rfl⟩
  have hdwell : p3.block.values.l = p2.block.values.l ∧ p3.axisCommand = p2.axisCommand := by
    rw [checkDwell, keepSpindleSpeed] at h3
    split_ifs at h3 <;> cases h3 <;> exact ⟨rfl, rfl⟩
  have hxyz : p'.block.values.l = p3.block.values.l ∧ p'.axisCommand = p3.axisCommand := by
    rw [checkToolLength, convertXyz] at h
    split_ifs at h <;> cases h <;> exact ⟨rfl, rfl⟩
  refine ⟨by rw [hxyz.1, hdwell.1, hfeed.1, hline.1], fun hclaimed => ?_⟩
  rw [hxyz.2, hdwell.2, hfeed.2]
  exact hline.2 hclaimed

omit [ExactSums α] in
theorem relocatable_checkModes (hp : p.Relocatable) (h : checkModes s p = .ok p') :
    p'.Relocatable := by
  have hcommand : p'.block.nonModalCommand = p.block.nonModalCommand :=
    congrArg Prod.snd (checkModes_commands h)
  obtain ⟨hl, hclaimed⟩ := checkModes_keeps h
  constructor
  · rw [hcommand]
    exact hp.command
  · rw [hl]
    exact hp.l
  · rw [hcommand]
    exact fun hclaims => hclaimed (hp.claimed hclaims)

/-- What is known of the axis words when the target has been computed. -/
structure Parse.Targeted (p : Parse α) : Prop where
  motion : p.axisCommand = .motionMode → p.axisWords ≠ 0#8 → p.Moves
  home : p.block.nonModalCommand = .goHome0 ∨ p.block.nonModalCommand = .goHome1 →
    p.axisCommand ≠ .none → p.Moves

omit [GcodeNumber α] [ExactSums α] in
theorem moves_of_eq (hcommand : p'.axisCommand = p.axisCommand)
    (hwords : p'.axisWords = p.axisWords) (hcommands : p'.commands = p.commands) (h : p.Moves) :
    p'.Moves := by
  have hnonModal : p'.block.nonModalCommand = p.block.nonModalCommand := congrArg Prod.snd hcommands
  rw [Parse.Moves, hcommand, hwords, hnonModal]
  exact h

omit [GcodeNumber α] [ExactSums α] in
theorem targeted_of_not_home (hmotion : p.axisCommand = .motionMode →
      p.block.nonModalCommand ≠ .setCoordinateData ∧ p.block.nonModalCommand ≠ .setCoordinateOffset)
    (hhome : ¬(p.block.nonModalCommand = .goHome0 ∨ p.block.nonModalCommand = .goHome1)) :
    p.Targeted := by
  refine ⟨fun haxis hwords => ⟨?_, hwords, hmotion haxis⟩, fun h => absurd h hhome⟩
  rw [haxis]
  decide

omit [ExactSums α] in
theorem setTarget_keeps (s : ParserState α) (data : Axes α) (p : Parse α) :
    (setTarget s data p).axisCommand = p.axisCommand ∧
      (setTarget s data p).axisWords = p.axisWords := by
  rw [setTarget]
  split_ifs <;> exact ⟨rfl, rfl⟩

omit [GcodeNumber α] [ExactSums α] in
theorem dropAxisCommand_keeps (p : Parse α) : (dropAxisCommand p).axisWords = p.axisWords ∧
    ((dropAxisCommand p).axisCommand ≠ .none →
      p.axisWords ≠ 0#8 ∧ (dropAxisCommand p).axisCommand = p.axisCommand) := by
  rw [dropAxisCommand]
  split_ifs with hwords
  · exact ⟨rfl, fun h => absurd rfl h⟩
  · exact ⟨rfl, fun _ => ⟨hwords, rfl⟩⟩

omit [ExactSums α] in
theorem targeted_goHome (hclaimed : p.axisCommand = .nonModal)
    (hhome : p.block.nonModalCommand = .goHome0 ∨ p.block.nonModalCommand = .goHome1)
    (data : Axes α) : (dropAxisCommand (setTarget s data p)).Targeted := by
  obtain ⟨hcommand, -⟩ := setTarget_keeps s data p
  obtain ⟨hwords, hdrop⟩ := dropAxisCommand_keeps (setTarget s data p)
  have hnonModal : (dropAxisCommand (setTarget s data p)).block.nonModalCommand =
      p.block.nonModalCommand :=
    congrArg Prod.snd ((commands_dropAxisCommand _).trans (commands_setTarget s data p))
  have hmoves : (dropAxisCommand (setTarget s data p)).axisCommand ≠ .none →
      (dropAxisCommand (setTarget s data p)).Moves := by
    intro hne
    obtain ⟨hsome, hkept⟩ := hdrop hne
    rw [Parse.Moves, hkept, hcommand, hclaimed, hwords, hnonModal]
    obtain hgo | hgo := hhome <;> rw [hgo] <;> exact ⟨by decide, hsome, by decide, by decide⟩
  exact ⟨fun hmotion _ => hmoves (by rw [hmotion]; decide), fun _ => hmoves⟩

omit [ExactSums α] in
theorem targeted_checkNonModal (hp : p.Relocatable) {data : Axes α}
    (h : checkNonModal s store data p = .ok c) : c.parse.Targeted := by
  have hcommand : c.parse.block.nonModalCommand = p.block.nonModalCommand :=
    congrArg Prod.snd (checkNonModal_commands h)
  have hclaimed := hp.claimed
  cases hnonModal : p.block.nonModalCommand <;> rw [hnonModal] at hcommand hclaimed <;>
    simp only [checkNonModal, hnonModal] at h
  case setCoordinateData =>
    have hkept : c.parse.axisCommand = p.axisCommand := by
      simp only [checkSetCoordinateData] at h
      split_ifs at h
      all_goals
        obtain ⟨old, -, rfl⟩ := map_eq_ok.mp h
        rfl
    refine targeted_of_not_home (fun hmotion => ?_) (by rw [hcommand]; decide)
    rw [hkept, hclaimed rfl] at hmotion
    cases hmotion
  case setCoordinateOffset =>
    split_ifs at h
    cases h
    refine targeted_of_not_home (fun hmotion => ?_) (by rw [hcommand]; decide)
    rw [show (setCoordinateOffset s data p).axisCommand = .nonModal from hclaimed rfl] at hmotion
    cases hmotion
  case goHome0 =>
    obtain ⟨home, -, rfl⟩ := map_eq_ok.mp h
    exact targeted_goHome (hclaimed rfl) (Or.inl hnonModal) data
  case goHome1 =>
    obtain ⟨home, -, rfl⟩ := map_eq_ok.mp h
    exact targeted_goHome (hclaimed rfl) (Or.inr hnonModal) data
  all_goals
    exact targeted_of_not_home (fun _ => by rw [hcommand]; decide) (by rw [hcommand]; decide)

omit [ExactSums α] in
theorem checkArc_keeps (h : checkArc s p = .ok p') :
    p'.axisCommand = p.axisCommand ∧ p'.axisWords = p.axisWords ∧ p.axisWords ≠ 0#8 := by
  simp only [checkArc, checkArcRadius, checkArcCentre] at h
  split_ifs at h with hwords <;> cases h <;> exact ⟨rfl, rfl, hwords⟩

omit [ExactSums α] in
theorem checkMotion_keeps (h : checkMotion s p = .ok p') : p'.axisWords = p.axisWords ∧
    (p'.axisCommand ≠ .none → p'.axisCommand = p.axisCommand) := by
  obtain rfl | rfl | h := checkMotion_eq_ok h
  · exact ⟨rfl, fun _ => rfl⟩
  · obtain ⟨hwords, hdrop⟩ := dropAxisCommand_keeps p
    exact ⟨hwords, fun hne => (hdrop hne).2⟩
  · obtain ⟨hcommand, hwords, -⟩ := checkArc_keeps h
    exact ⟨hwords, fun _ => hcommand⟩

omit [ExactSums α] in
theorem checkMotion_words (h : checkMotion s p = .ok p') (hmodal : p.block.modal.motion ≠ .none)
    (hmotion : p'.axisCommand = .motionMode) : p.axisWords ≠ 0#8 := by
  have hne : p'.axisCommand ≠ .none := by
    rw [hmotion]
    decide
  have hcommand : p.axisCommand = .motionMode := by
    rw [← (checkMotion_keeps h).2 hne]
    exact hmotion
  have hdrop : p' = dropAxisCommand p → p.axisWords ≠ 0#8 := by
    rintro rfl
    exact ((dropAxisCommand_keeps p).2 hne).1
  cases hmode : p.block.modal.motion <;>
    simp only [checkMotion, hmode, hcommand, reduceCtorEq, if_false, if_true] at h
  case none => exact absurd hmode hmodal
  case seek => exact hdrop (Except.ok.inj h).symm
  case linear =>
    split_ifs at h
    exact hdrop (Except.ok.inj h).symm
  case cwArc =>
    split_ifs at h
    exact (checkArc_keeps h).2.2
  case ccwArc =>
    split_ifs at h
    exact (checkArc_keeps h).2.2
  all_goals
    split_ifs at h with _ hwords
    exact hwords

omit [ExactSums α] in
theorem targeted_checkActions (hp : p.Targeted) (h : checkActions s p = .ok p') :
    p'.commands = p.commands ∧ p'.Targeted ∧
      (p'.block.modal.motion ≠ .none → p'.axisCommand = .motionMode → p'.Moves) := by
  rw [checkActions] at h
  obtain ⟨p1, h1, h2⟩ := bind_eq_ok.mp h
  obtain ⟨hwords1, hcommand1⟩ := checkMotion_keeps h1
  have hunused : p'.commands = p1.commands ∧ p'.axisCommand = p1.axisCommand ∧
      p'.axisWords = p1.axisWords := by
    simp only [checkUnused] at h2
    split_ifs at h2 <;> cases h2 <;> exact ⟨rfl, rfl, rfl⟩
  obtain ⟨hcommands2, hcommand2, hwords2⟩ := hunused
  have hcommands : p'.commands = p.commands := by
    rw [hcommands2, checkMotion_commands h1]
  have hwords : p'.axisWords = p.axisWords := hwords2.trans hwords1
  have hcommand : p'.axisCommand ≠ .none → p'.axisCommand = p.axisCommand := by
    rw [hcommand2]
    exact hcommand1
  have hmoves : p'.axisCommand = .motionMode → p'.axisWords ≠ 0#8 → p'.Moves := by
    intro hmotion hsome
    have hkept := hcommand (by rw [hmotion]; decide)
    rw [hkept] at hmotion
    rw [hwords] at hsome
    exact moves_of_eq hkept hwords hcommands (hp.motion hmotion hsome)
  refine ⟨hcommands, ⟨hmoves, fun hhome hne => ?_⟩, fun hmodal hmotion => ?_⟩
  · have hkept := hcommand hne
    have hnonModal : p'.block.nonModalCommand = p.block.nonModalCommand :=
      congrArg Prod.snd hcommands
    rw [hnonModal] at hhome
    rw [hkept] at hne
    exact moves_of_eq hkept hwords hcommands (hp.home hhome hne)
  · have hmode : p'.block.modal = p.block.modal := congrArg Prod.fst hcommands
    rw [hmode] at hmodal
    refine hmoves hmotion ?_
    rw [hwords]
    exact checkMotion_words h1 hmodal (by rw [← hcommand2]; exact hmotion)

theorem gcCheck_shift (hp : p.Relocatable)
    (hdata : ∀ i < nCoordinateSystem + 2, (store i).isSome)
    (hselect : p.block.modal.coordSelect < nCoordinateSystem) :
    gcCheck (s.shift d) (shiftStore d store) p =
      shiftCheck d (Checked.shift d) (gcCheck s store p) := by
  rw [gcCheck, gcCheck, checkModes_shift]
  simp only [checkCoordSystem_eq]
  cases hmodes : checkModes s p with
  | error status => rfl
  | ok p1 =>
    have hp1 := relocatable_checkModes hp hmodes
    have hmodal : p1.block.modal = p.block.modal := congrArg Prod.fst (checkModes_commands hmodes)
    have hselect1 : p1.block.modal.coordSelect < nCoordinateSystem := by
      rw [hmodal]
      exact hselect
    have hnonModal := checkNonModal_shift (s := s) (d := d) hp1 hdata hselect1 s.coordSystem
    show (checkNonModal (s.shift d) (shiftStore d store) (shiftAxes d s.coordSystem) p1 >>= _) =
      shiftCheck d (Checked.shift d) (checkNonModal s store s.coordSystem p1 >>= _)
    rw [hnonModal]
    cases hc : checkNonModal s store s.coordSystem p1 with
    | error r => rfl
    | ok c1 =>
      have hc1 := targeted_checkNonModal hp1 hc
      have hactions := checkActions_shift (s := s) (d := d) hc1.motion
      show (withStore (shiftStore d store) (checkActions (s.shift d) (c1.parse.shift d)) >>= _) =
        shiftCheck d (Checked.shift d) (withStore store (checkActions s c1.parse) >>= _)
      rw [hactions]
      cases hp2 : checkActions s c1.parse with
      | error status => rfl
      | ok p2 =>
        have hcommand : p2.block.nonModalCommand = c1.parse.block.nonModalCommand :=
          congrArg Prod.snd (targeted_checkActions hc1 hp2).1
        show Except.ok { c1.shift d with parse := p2.shift d } =
          Except.ok (Checked.shift d { c1 with parse := p2 })
        simp only [Checked.shift, hcommand]

/-- What the checks leave moves where a motion is made. -/
structure Checked.Moving (c : Checked α) : Prop where
  motion : c.parse.block.modal.motion ≠ .none → c.parse.axisCommand = .motionMode → c.parse.Moves
  home : c.parse.block.nonModalCommand = .goHome0 ∨ c.parse.block.nonModalCommand = .goHome1 →
    c.parse.axisCommand ≠ .none → c.parse.Moves

omit [ExactSums α] in
theorem moving_gcCheck (hp : p.Relocatable) (h : gcCheck s store p = .ok c) : c.Moving := by
  rw [gcCheck] at h
  obtain ⟨p1, h1, h⟩ := bind_eq_ok.mp h
  obtain ⟨data, -, h⟩ := bind_eq_ok.mp h
  obtain ⟨c1, h2, h⟩ := bind_eq_ok.mp h
  obtain ⟨p2, h3, h⟩ := bind_eq_ok.mp h
  cases h
  have hc1 := targeted_checkNonModal (relocatable_checkModes hp (withStore_eq_ok h1)) h2
  obtain ⟨-, htargeted, hmotion⟩ := targeted_checkActions hc1 (withStore_eq_ok h3)
  exact ⟨hmotion, htargeted.home⟩

end Exact

/-! ### Execution of a line shifted -/

theorem shift_call (d : Axes α) (g : Interpreter α) (call : McCall α) :
    (g.call call).shift d = (g.shift d).call (call.shift d) := by
  simp only [Interpreter.shift, Interpreter.call, List.map_append, List.map_cons, List.map_nil]

theorem executeSettings_shift (d : Axes α) (g : Interpreter α) (p : Parse α) :
    executeSettings (g.shift d) (p.shift d).block = (executeSettings g p.block).shift d := by
  have hcalls : (settingsCalls g.gcState p.block).map (McCall.shift d) =
      settingsCalls g.gcState p.block := by
    simp only [settingsCalls, List.map_append]
    split_ifs <;> rfl
  rw [executeSettings_eq, executeSettings_eq]
  simp only [Interpreter.shift, List.map_append, hcalls]
  rfl

theorem executeModes_shift (d : Axes α) (s : ParserState α) (c : Checked α) :
    executeModes (s.shift d) (c.shift d) = (executeModes s c).shift d := by
  rw [executeModes_eq, executeModes_eq]
  by_cases htool : c.parse.axisCommand = .toolLengthOffset
  · have hstill : ¬c.parse.Moves := fun h => h.1 htool
    have hparse : (c.shift d).parse = c.parse := shift_of_not_moves hstill
    simp only [hparse, ParserState.shift, apply_ite (shiftAxes d)]
    rfl
  · have htoolShift : (c.shift d).parse.axisCommand ≠ .toolLengthOffset := htool
    simp only [if_neg htool, if_neg htoolShift, ParserState.shift, apply_ite (shiftAxes d)]
    rfl

theorem shiftStore_write (d : Axes α) (store : CoordStore α) (i : ℕ) (data : Axes α) :
    settingsWriteCoordData (shiftStore d store) i (shiftAxes d data) =
      shiftStore d (settingsWriteCoordData store i data) := by
  funext j
  rw [settingsWriteCoordData, shiftStore, settingsWriteCoordData]
  by_cases heq : j = i
  · rw [heq, Function.update_self, Function.update_self]
    rfl
  · rw [Function.update_of_ne heq, Function.update_of_ne heq]
    rfl

/-- A call that ends in another position. -/
theorem moved_shift (d : Axes α) (g : Interpreter α) (call : McCall α) (position : Axes α) :
    { (g.shift d).call (call.shift d) with
        gcState := { (g.shift d).gcState with position := shiftAxes d position } } =
      Interpreter.shift d
        { g.call call with gcState := { g.gcState with position := position } } := by
  rw [← shift_call]
  rfl

theorem goHomeCall_shift (hc : c.Moving) (hhome : c.parse.block.nonModalCommand = .goHome0 ∨
      c.parse.block.nonModalCommand = .goHome1) (d : Axes α) (g : Interpreter α) :
    (if (c.shift d).parse.axisCommand ≠ .none then
        (g.shift d).call (.seek (c.shift d).parse.block.values.xyz) else g.shift d) =
      (if c.parse.axisCommand ≠ .none then g.call (.seek c.parse.block.values.xyz)
        else g).shift d := by
  have hcommand : (c.shift d).parse.axisCommand = c.parse.axisCommand := rfl
  rw [hcommand]
  by_cases hnone : c.parse.axisCommand ≠ .none
  · have hxyz : (c.shift d).parse.block.values.xyz = shiftAxes d c.parse.block.values.xyz :=
      if_pos (hc.home hhome hnone)
    rw [if_pos hnone, if_pos hnone, shift_call, hxyz]
    rfl
  · rw [if_neg hnone, if_neg hnone]

theorem executeNonModal_shift (hc : c.Moving) (d : Axes α) (g : Interpreter α) :
    executeNonModal (g.shift d) (c.shift d) = (executeNonModal g c).shift d := by
  have hcommand : (c.shift d).parse.block.nonModalCommand = c.parse.block.nonModalCommand := rfl
  have hparameter : c.parse.block.nonModalCommand.readsData = true →
      (c.shift d).parameterData = shiftAxes d c.parameterData := fun hreads => if_pos hreads
  cases hnonModal : c.parse.block.nonModalCommand <;> rw [hnonModal] at hcommand hparameter <;>
    simp only [executeNonModal, hnonModal, hcommand]
  case setCoordinateData =>
    rw [hparameter rfl]
    simp only [Interpreter.shift, ParserState.shift, shiftStore_write, apply_ite (shiftAxes d)]
    rfl
  case goHome0 =>
    rw [hparameter rfl, goHomeCall_shift hc (Or.inl hnonModal)]
    exact moved_shift d _ (.seek c.parameterData) c.parameterData
  case goHome1 =>
    rw [hparameter rfl, goHomeCall_shift hc (Or.inr hnonModal)]
    exact moved_shift d _ (.seek c.parameterData) c.parameterData
  case setHome0 =>
    simp only [Interpreter.shift, ParserState.shift, shiftStore_write]
  case setHome1 =>
    simp only [Interpreter.shift, ParserState.shift, shiftStore_write]
  case setCoordinateOffset =>
    have hstill : ¬c.parse.Moves := fun h => h.2.2.2 hnonModal
    have hxyz : (c.shift d).parse.block.values.xyz = c.parse.block.values.xyz := if_neg hstill
    rw [hxyz]
    rfl
  case resetCoordinateOffset => rfl

theorem motionCall_shift (hmoves : p.Moves) (d : Axes α) (s : ParserState α) (motion : MotionMode) :
    motionCall (s.shift d) (p.shift d).block motion = (motionCall s p.block motion).shift d := by
  rw [shift_of_moves hmoves]
  cases motion <;> rfl

theorem endPosition_shift (he : ShiftedSurroundings d e e') (target : Axes α) (call : McCall α) :
    (call.shift d).endPosition e' (shiftAxes d target) =
      shiftAxes d (call.endPosition e target) := by
  cases call with
  | probeCycle target' feedRate invertFeedRate isProbeAway isNoError =>
    simp only [McCall.shift, McCall.endPosition, he.checkMode, he.probe]
    split_ifs <;> rfl
  | _ => rfl

theorem executeMotion_shift (he : ShiftedSurroundings d e e') (hc : c.Moving) (g : Interpreter α) :
    executeMotion e' (g.shift d) (c.shift d) = (executeMotion e g c).shift d := by
  have hmodal : (c.shift d).parse.block.modal = c.parse.block.modal := rfl
  have hcommand : (c.shift d).parse.axisCommand = c.parse.axisCommand := rfl
  by_cases hmotion : c.parse.block.modal.motion ≠ .none ∧ c.parse.axisCommand = .motionMode
  · have hmoves := hc.motion hmotion.1 hmotion.2
    have hxyz : (c.shift d).parse.block.values.xyz = shiftAxes d c.parse.block.values.xyz :=
      if_pos hmoves
    let g1 : Interpreter α := { g with
      gcState := { g.gcState with
        modal := { g.gcState.modal with motion := c.parse.block.modal.motion } } }
    have hcall :
        motionCall (g1.shift d).gcState (c.shift d).parse.block c.parse.block.modal.motion =
          (motionCall g1.gcState c.parse.block c.parse.block.modal.motion).shift d :=
      motionCall_shift hmoves d g1.gcState _
    have hend := endPosition_shift he c.parse.block.values.xyz
      (motionCall g1.gcState c.parse.block c.parse.block.modal.motion)
    simp only [executeMotion, hmodal, hcommand, if_pos hmotion, hxyz]
    refine Eq.trans ?_ (moved_shift d g1
      (motionCall g1.gcState c.parse.block c.parse.block.modal.motion) _)
    rw [← hend, ← hcall]
    rfl
  · simp only [executeMotion, hmodal, hcommand, if_neg hmotion]
    rfl

theorem executeFlow_shift (he : ShiftedSurroundings d e e')
    (hdata : ∀ i < nCoordinateSystem + 2, (g.store i).isSome) (flow : ProgramFlow) :
    executeFlow e' (g.shift d) flow =
      ((executeFlow e g flow).1, (executeFlow e g flow).2.shift d) := by
  cases flow with
  | running => rfl
  | paused =>
    simp only [executeFlow, he.checkMode]
    split_ifs
    · simp only [Interpreter.shift, Interpreter.call, ParserState.shift, List.map_append]
      rfl
    · simp only [Interpreter.shift, Interpreter.call, ParserState.shift, List.map_append]
      rfl
  | completed =>
    obtain ⟨data, hread⟩ := readCoordData_eq_ok (hdata 0 (by decide))
    have hreadShift : readCoordData (g.shift d).store 0 = .ok (shiftAxes d data) := by
      have hshift := readCoordData_shift (d := d) (hdata 0 (by decide))
      rw [hread] at hshift
      exact hshift
    simp only [executeFlow, he.checkMode]
    split_ifs
    · simp only [Interpreter.shift, Interpreter.call, ParserState.shift, List.map_append]
      rfl
    · simp only [Interpreter.call, hread, hreadShift]
      simp only [Interpreter.shift, ParserState.shift, List.map_append]
      rfl

/-- A line is carried out in the place shifted as it is here. -/
theorem gcExecute_shift (he : ShiftedSurroundings d e e') (hg : Readable g) (hc : c.Moving)
    (hselect : c.parse.block.modal.coordSelect < nCoordinateSystem) :
    gcExecute e' (g.shift d) (c.shift d) =
      ((gcExecute e g c).1, (gcExecute e g c).2.shift d) := by
  let g1 : Interpreter α := { executeSettings g c.parse.block with
    gcState := executeModes (executeSettings g c.parse.block).gcState c }
  have hmodes : ({ executeSettings (g.shift d) (c.parse.shift d).block with
      gcState := executeModes (executeSettings (g.shift d) (c.parse.shift d).block).gcState
        (c.shift d) } : Interpreter α) = g1.shift d := by
    rw [executeSettings_shift]
    have hstate := executeModes_shift d (executeSettings g c.parse.block).gcState c
    show Interpreter.mk (executeModes ((executeSettings g c.parse.block).gcState.shift d)
      (c.shift d)) _ _ = _
    rw [hstate]
    rfl
  have hreadable : Readable g1 := by
    constructor
    · show ∀ i < nCoordinateSystem + 2, ((executeSettings g c.parse.block).store i).isSome
      rw [executeSettings_store]
      exact hg.data
    · show (executeModes _ c).modal.coordSelect < nCoordinateSystem
      rw [executeModes_coordSelect]
      exact hselect
  have hmoved : Readable (executeMotion e (executeNonModal g1 c) c) :=
    readable_executeMotion (readable_executeNonModal hreadable)
  show executeFlow e' (executeMotion e' (executeNonModal { executeSettings (g.shift d)
    (c.parse.shift d).block with gcState := executeModes (executeSettings (g.shift d)
      (c.parse.shift d).block).gcState (c.shift d) } (c.shift d)) (c.shift d))
        c.parse.block.modal.programFlow = _
  rw [hmodes, executeNonModal_shift hc, executeMotion_shift he hc]
  exact executeFlow_shift he hmoved.data _

/-! ### Programs -/

omit [GcodeNumber α] in
theorem gMeaning_claims {n k : ℕ} {m : Meaning α} {command : NonModal}
    (h : gMeaning n k = some m) (hset : m.setting = .nonModal command)
    (hclaims : command.claims = true) : m.claim = .nonModal := by
  rw [gMeaning.eq_def] at h
  split at h
  case h_39 => cases h
  all_goals
    cases h
    first | rfl | (cases hset; cases hclaims) | cases hset

theorem wordMeaning_claims {w : List Byte} {m : Meaning α} {command : NonModal}
    (h : wordMeaning w = some m) (hset : m.setting = .nonModal command)
    (hclaims : command.claims = true) : m.claim = .nonModal := by
  obtain ⟨⟨letter, x⟩, -, h⟩ := Option.bind_eq_some_iff.mp h
  simp only [meaning] at h
  split_ifs at h
  · exact gMeaning_claims h hset hclaims
  · rw [mMeaning.eq_def] at h
    split at h <;> cases h <;> cases hset
  · obtain ⟨v, hv, rfl⟩ := Option.map_eq_some_iff.mp h
    obtain ⟨hvalue, -⟩ := Option.filter_eq_some_iff.mp hv
    rw [valueSetting.eq_def] at hvalue
    split at hvalue <;> cases hvalue <;> cases hset

def wordIsAbsolute (α : Type*) [GcodeNumber α] (w : List Byte) : Bool :=
  (wordMeaning (α := α) w).any fun m => m.setting.isAbsolute

/-- A line, in whatever words, without G53 and L2. -/
def Relocatable (α : Type*) [GcodeNumber α] (line : List Byte) : Prop :=
  ∀ ws : List (List Byte), line = ws.flatten → (∀ w ∈ ws, IsWord α w) →
    ∀ w ∈ ws, wordIsAbsolute α w = false

theorem relocatable_flatten {ws : List (List Byte)} (hws : ∀ w ∈ ws, IsWord α w)
    (h : ∀ w ∈ ws, wordIsAbsolute α w = false) : Relocatable α ws.flatten := by
  intro ws' hflat hws'
  rw [← words_unique hws hws' hflat]
  exact h

omit [GcodeNumber α] in
/-- A word that claims the axis words comes to a line in which none has claimed them. -/
theorem claimed_enter {q : Parse α} {m : Meaning α} (hfree : q.refuses m = false)
    (hclaimed : q.axisCommand = .nonModal) : (q.enter m).axisCommand = .nonModal := by
  rw [q.axisCommand_enter]
  by_cases hclaim : m.claim = .none
  · rw [if_pos hclaim]
    exact hclaimed
  · rw [Parse.refuses, Bool.or_eq_false_iff, hclaimed] at hfree
    simp [hclaim] at hfree

theorem relocatable_enter {w : List Byte} {q : Parse α} {m : Meaning α} (hq : q.Relocatable)
    (hm : wordMeaning w = some m) (hfree : q.refuses m = false)
    (habsolute : m.setting.isAbsolute = false) : (q.enter m).Relocatable := by
  have hkept : q.block.nonModalCommand.claims = true → (q.enter m).axisCommand = .nonModal :=
    fun hclaims => claimed_enter hfree (hq.claimed hclaims)
  have hblock := q.block_enter m
  cases hset : m.setting with
  | nonModal command =>
    rw [hset] at habsolute hblock
    refine ⟨?_, ?_, ?_⟩ <;> rw [hblock]
    · rintro rfl
      cases habsolute
    · exact hq.l
    · intro hclaims
      rw [q.axisCommand_enter, wordMeaning_claims hm hset hclaims]
      rfl
  | l k =>
    rw [hset] at habsolute hblock
    refine ⟨?_, ?_, ?_⟩ <;> rw [hblock]
    · exact hq.command
    · exact of_decide_eq_false habsolute
    · exact hkept
  | _ =>
    rw [hset] at hblock
    refine ⟨?_, ?_, ?_⟩ <;> rw [hblock]
    · exact hq.command
    · exact hq.l
    · exact hkept

theorem relocatable_parse {line : List Byte} (hline : Relocatable α line)
    (h : gcParse s line = .ok p) : p.Relocatable := by
  refine gcParse_induction (P := Parse.Relocatable) h ⟨?_, ?_, ?_⟩ ?_
  · exact (by decide : NonModal.noAction ≠ .absoluteOverride)
  · exact (by decide : 0 ≠ 2)
  · exact fun hclaims => by cases hclaims
  · intro ws hflat hws w hw m hm q hfree hq
    have habsolute : m.setting.isAbsolute = false := by
      have hword := hline ws hflat hws w hw
      rw [wordIsAbsolute, hm] at hword
      exact hword
    exact relocatable_enter hq hm hfree habsolute

/-- A line does in the place shifted what it does here. -/
theorem gcExecuteLine_shift [ExactSums α] (he : ShiftedSurroundings d e e') (hg : Readable g)
    {line : List Byte} (hline : Relocatable α line) :
    gcExecuteLine e' (g.shift d) line =
      ((gcExecuteLine e g line).1, (gcExecuteLine e g line).2.shift d) := by
  have hparse : gcParse (g.shift d).gcState line = gcParse g.gcState line := rfl
  rw [gcExecuteLine, gcExecuteLine, hparse]
  cases hp : gcParse g.gcState line with
  | error status => rfl
  | ok p =>
    have hrelocatable := relocatable_parse hline hp
    have hselect := coordSelect_lt hp hg.select
    have hcheck : gcCheck (g.shift d).gcState (g.shift d).store p =
        shiftCheck d (Checked.shift d) (gcCheck g.gcState g.store p) :=
      gcCheck_shift hrelocatable hg.data hselect
    cases hc : gcCheck g.gcState g.store p with
    | error r =>
      rw [hc] at hcheck
      simp only [hc, hcheck]
      rfl
    | ok c =>
      rw [hc] at hcheck
      have hmodal : c.parse.block.modal = p.block.modal := congrArg Prod.fst (gcCheck_commands hc)
      simp only [hc, hcheck]
      exact gcExecute_shift he hg (moving_gcCheck hrelocatable hc) (by rw [hmodal]; exact hselect)

/-- What happens here, and what happens in the place shifted. -/
inductive ShiftedEvent (d : Axes α) : GcodeEvent α → GcodeEvent α → Prop
  | line {e e' : Surroundings α} {line : List Byte} (he : ShiftedSurroundings d e e')
      (hline : Relocatable α line) : ShiftedEvent d (.line e line) (.line e' line)
  | syncPosition (position : Axes α) :
      ShiftedEvent d (.syncPosition position) (.syncPosition (shiftAxes d position))

theorem gcStep_shift [ExactSums α] (hg : Readable g) {ev ev' : GcodeEvent α}
    (h : ShiftedEvent d ev ev') : gcStep (g.shift d) ev' = (gcStep g ev).shift d := by
  cases h with
  | line he hline => rw [gcStep, gcExecuteLine_shift he hg hline, gcStep]
  | syncPosition position => rfl

/-- **A program in another place** makes the same motions there, with the same status for every
line. -/
theorem program_relocatable [ExactSums α] (d : Axes α) (g : Interpreter α) (hg : Readable g)
    (events events' : List (GcodeEvent α)) (h : List.Forall₂ (ShiftedEvent d) events events') :
    runFrom gcStep (g.shift d) events' = (runFrom gcStep g events).shift d ∧
      ∀ e e' line, ShiftedSurroundings d e e' → Relocatable α line →
        (gcExecuteLine e' (runFrom gcStep (g.shift d) events') line).1 =
          (gcExecuteLine e (runFrom gcStep g events) line).1 := by
  induction h generalizing g with
  | nil =>
    refine ⟨rfl, fun e e' line he hline => ?_⟩
    rw [runFrom_nil, gcExecuteLine_shift he hg hline, runFrom_nil]
  | cons hev _ ih =>
    rw [runFrom_cons, runFrom_cons, gcStep_shift hg hev]
    exact ih _ (readable_gcStep hg _)

/-- `G1X5F9`, three to the side, with its one motion. -/
theorem program_relocatable_line :
    runFrom gcStep (Interpreter.shift (fun _ => (3 : ℚ)) ⟨parserZero, fun _ => some fun _ => 0, []⟩)
        [.line ⟨false, id⟩ [[0x47#8, 0x31#8], [0x58#8, 0x35#8], [0x46#8, 0x39#8]].flatten] =
      (runFrom gcStep (⟨parserZero, fun _ => some fun _ => 0, []⟩ : Interpreter ℚ)
        [.line ⟨false, id⟩
          [[0x47#8, 0x31#8], [0x58#8, 0x35#8], [0x46#8, 0x39#8]].flatten]).shift (fun _ => 3) ∧
    (runFrom gcStep (⟨parserZero, fun _ => some fun _ => 0, []⟩ : Interpreter ℚ)
        [.line ⟨false, id⟩
          [[0x47#8, 0x31#8], [0x58#8, 0x35#8], [0x46#8, 0x39#8]].flatten]).calls.length = 1 := by
  have hline : Relocatable ℚ [[0x47#8, 0x31#8], [0x58#8, 0x35#8], [0x46#8, 0x39#8]].flatten :=
    relocatable_flatten (by decide +kernel) (by decide +kernel)
  have hreadable : Readable (⟨parserZero, fun _ => some fun _ => 0, []⟩ : Interpreter ℚ) :=
    ⟨fun _ _ => rfl, (by decide : 0 < 6)⟩
  have hsurroundings : ShiftedSurroundings (fun _ => (3 : ℚ)) ⟨false, id⟩ ⟨false, id⟩ :=
    ⟨rfl, fun _ => rfl⟩
  have hrun := program_relocatable _ _ hreadable _ _ (.cons (.line hsurroundings hline) .nil)
  exact ⟨hrun.1, by decide +kernel⟩

end PcbMill.Gcode
