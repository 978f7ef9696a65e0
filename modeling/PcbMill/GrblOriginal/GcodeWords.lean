import PcbMill.GrblOriginal.Gcode
import PcbMill.Lib.Reordering

/-!
# The words of a line

What a word means does not depend on the words before it: it sets one thing and may claim the axis
words of the line.  A line is accepted when it is a sequence of words that have a meaning, of which
no more than one claims the axis words, and none repeats another.  The last is tested with a mask of
eight bits, so that it holds of the first eight modal groups and the first eight value words only.

Words that set different things may stand in any order.
-/

namespace PcbMill.Gcode

open Reordering GcodeNumber

variable {α : Type*}

/-! ### What a word sets -/

/-- The bit of a word, among those of the commands or those of the values. -/
inductive Place where
  | command (group : ℕ)
  | value (wordBit : ℕ)
  deriving DecidableEq

def Place.index : Place → ℕ
  | .command group => group
  | .value wordBit => wordBit

inductive Setting (α : Type*) where
  | nonModal (command : NonModal)
  | motion (motion : MotionMode)
  | planeSelect (plane : PlaneSelect)
  | distance (distance : DistanceMode)
  | arcDistance
  | feedRate (mode : FeedRateMode)
  | units (units : UnitsMode)
  | cutterComp
  | toolLength (offset : ToolLengthOffset)
  | coordSelect (index : ℕ)
  | control
  | programFlow (flow : Option ProgramFlow)
  | spindle (mode : SpindleMode)
  | coolant (mode : CoolantMode)
  | f (x : α)
  | ijk (idx : AxisIndex) (x : α)
  | l (n : ℕ)
  | n (n : ℤ)
  | p (x : α)
  | r (x : α)
  | s (x : α)
  | t
  | xyz (idx : AxisIndex) (x : α)

def Setting.place : Setting α → Place
  | .nonModal _ => .command modalGroupG0
  | .motion _ => .command modalGroupG1
  | .planeSelect _ => .command modalGroupG2
  | .distance _ => .command modalGroupG3
  | .arcDistance => .command modalGroupG4
  | .feedRate _ => .command modalGroupG5
  | .units _ => .command modalGroupG6
  | .cutterComp => .command modalGroupG7
  | .toolLength _ => .command modalGroupG8
  | .coordSelect _ => .command modalGroupG12
  | .control => .command modalGroupG13
  | .programFlow _ => .command modalGroupM4
  | .spindle _ => .command modalGroupM7
  | .coolant _ => .command modalGroupM8
  | .f _ => .value wordF
  | .ijk idx _ => .value (wordI + idx.val)
  | .l _ => .value wordL
  | .n _ => .value wordN
  | .p _ => .value wordP
  | .r _ => .value wordR
  | .s _ => .value wordS
  | .t => .value wordT
  | .xyz idx _ => .value (wordX + idx.val)

def Setting.set (q : Parse α) : Setting α → Parse α
  | .nonModal command => setNonModal q command
  | .motion mode => setMotion q mode
  | .planeSelect plane => { q with block.modal.planeSelect := plane }
  | .distance mode => { q with block.modal.distance := mode }
  | .feedRate mode => { q with block.modal.feedRate := mode }
  | .units mode => { q with block.modal.units := mode }
  | .toolLength offset => { q with block.modal.toolLength := offset }
  | .coordSelect index => { q with block.modal.coordSelect := index }
  | .programFlow flow =>
    { q with block.modal.programFlow := flow.getD q.block.modal.programFlow }
  | .spindle mode => { q with block.modal.spindle := mode }
  | .coolant mode => { q with block.modal.coolant := mode }
  | .f x => { q with block.values.f := x }
  | .ijk idx x => setIjk q idx x
  | .l k => { q with block.values.l := k }
  | .n k => { q with block.values.n := k }
  | .p x => { q with block.values.p := x }
  | .r x => { q with block.values.r := x }
  | .s x => { q with block.values.s := x }
  | .xyz idx x => setXyz q idx x
  | .arcDistance | .cutterComp | .control | .t => q

/-- What a word means: what it sets, and what it claims the axis words for. -/
structure Meaning (α : Type*) where
  setting : Setting α
  claim : AxisCommand

/-- The G commands, by their number and a hundred times what is behind its point. -/
def gMeaning : ℕ → ℕ → Option (Meaning α)
  | 0, 0 => some ⟨.motion .seek, .motionMode⟩
  | 1, 0 => some ⟨.motion .linear, .motionMode⟩
  | 2, 0 => some ⟨.motion .cwArc, .motionMode⟩
  | 3, 0 => some ⟨.motion .ccwArc, .motionMode⟩
  | 4, 0 => some ⟨.nonModal .dwell, .none⟩
  | 10, 0 => some ⟨.nonModal .setCoordinateData, .nonModal⟩
  | 17, 0 => some ⟨.planeSelect .xy, .none⟩
  | 18, 0 => some ⟨.planeSelect .zx, .none⟩
  | 19, 0 => some ⟨.planeSelect .yz, .none⟩
  | 20, 0 => some ⟨.units .inches, .none⟩
  | 21, 0 => some ⟨.units .mm, .none⟩
  | 28, 0 => some ⟨.nonModal .goHome0, .nonModal⟩
  | 28, 10 => some ⟨.nonModal .setHome0, .none⟩
  | 30, 0 => some ⟨.nonModal .goHome1, .nonModal⟩
  | 30, 10 => some ⟨.nonModal .setHome1, .none⟩
  | 38, 20 => some ⟨.motion .probeToward, .motionMode⟩
  | 38, 30 => some ⟨.motion .probeTowardNoError, .motionMode⟩
  | 38, 40 => some ⟨.motion .probeAway, .motionMode⟩
  | 38, 50 => some ⟨.motion .probeAwayNoError, .motionMode⟩
  | 40, 0 => some ⟨.cutterComp, .none⟩
  | 43, 10 => some ⟨.toolLength .enableDynamic, .toolLengthOffset⟩
  | 49, _ => some ⟨.toolLength .cancel, .toolLengthOffset⟩
  | 53, 0 => some ⟨.nonModal .absoluteOverride, .none⟩
  | 54, 0 => some ⟨.coordSelect 0, .none⟩
  | 55, 0 => some ⟨.coordSelect 1, .none⟩
  | 56, 0 => some ⟨.coordSelect 2, .none⟩
  | 57, 0 => some ⟨.coordSelect 3, .none⟩
  | 58, 0 => some ⟨.coordSelect 4, .none⟩
  | 59, 0 => some ⟨.coordSelect 5, .none⟩
  | 61, 0 => some ⟨.control, .none⟩
  | 80, 0 => some ⟨.motion .none, .none⟩
  | 90, 0 => some ⟨.distance .absolute, .none⟩
  | 91, 0 => some ⟨.distance .incremental, .none⟩
  | 91, 10 => some ⟨.arcDistance, .none⟩
  | 92, 0 => some ⟨.nonModal .setCoordinateOffset, .nonModal⟩
  | 92, 10 => some ⟨.nonModal .resetCoordinateOffset, .none⟩
  | 93, 0 => some ⟨.feedRate .inverseTime, .none⟩
  | 94, 0 => some ⟨.feedRate .unitsPerMin, .none⟩
  | _, _ => none

def mMeaning : ℕ → ℕ → Option (Meaning α)
  | 0, 0 => some ⟨.programFlow (some .paused), .none⟩
  | 1, 0 => some ⟨.programFlow none, .none⟩
  | 2, 0 => some ⟨.programFlow (some .completed), .none⟩
  | 30, 0 => some ⟨.programFlow (some .completed), .none⟩
  | 3, 0 => some ⟨.spindle .enableCw, .none⟩
  | 4, 0 => some ⟨.spindle .enableCcw, .none⟩
  | 5, 0 => some ⟨.spindle .disable, .none⟩
  | 8, 0 => some ⟨.coolant .floodEnable, .none⟩
  | 9, 0 => some ⟨.coolant .disable, .none⟩
  | _, _ => none

/-- F, I to L, N, P, R to T and X to Z. -/
def valueSetting [GcodeNumber α] (letter : Byte) (x : α) : Option (Setting α) :=
  match letter.toNat with
  | 0x46 => some (.f x)
  | 0x49 => some (.ijk xAxis x)
  | 0x4A => some (.ijk yAxis x)
  | 0x4B => some (.ijk zAxis x)
  | 0x4C => some (.l (toUInt8 x))
  | 0x4E => some (.n (toInt32 x))
  | 0x50 => some (.p x)
  | 0x52 => some (.r x)
  | 0x53 => some (.s x)
  | 0x54 => some .t
  | 0x58 => some (.xyz xAxis x)
  | 0x59 => some (.xyz yAxis x)
  | 0x5A => some (.xyz zAxis x)
  | _ => none

/-- The value of F, N, P, S and T must not be negative. -/
def Setting.mayBeNegative : Setting α → Bool
  | .f _ | .n _ | .p _ | .s _ | .t => false
  | _ => true

def meaning [GcodeNumber α] (letter : Byte) (x : α) : Option (Meaning α) :=
  if letter = 0x47#8 then gMeaning (toUInt8 x) (mantissa x)
  else if letter = 0x4D#8 then mMeaning (toUInt8 x) (mantissa x)
  else ((valueSetting letter x).filter fun v => v.mayBeNegative || !negative x).map
    fun v => ⟨v, .none⟩

/-! ### One word after another -/

/-- The place has been taken, as far as the mask of eight bits lets it be seen. -/
def Parse.repeats (q : Parse α) : Place → Bool
  | .command group => bitIstrue q.commandWords (bit group)
  | .value wordBit => bitIstrue q.valueWords (bit wordBit)

def Parse.flag (q : Parse α) : Place → Parse α
  | .command group => { q with commandWords := q.commandWords ||| bit group }
  | .value wordBit => { q with valueWords := q.valueWords ||| bit wordBit }

def Parse.claim (q : Parse α) (claim : AxisCommand) : Parse α :=
  if claim = .none then q else { q with axisCommand := claim }

/-- The variables with a word more. -/
def Parse.enter (q : Parse α) (m : Meaning α) : Parse α :=
  ((m.setting.set q).flag m.setting.place).claim m.claim

/-- The word does not fit to those before. -/
def Parse.refuses (q : Parse α) (m : Meaning α) : Bool :=
  (m.claim ≠ .none && q.axisCommand ≠ .none) || q.repeats m.setting.place

def Parse.accept (q : Parse α) (m : Meaning α) : Option (Parse α) :=
  if q.refuses m then none else some (q.enter m)

variable {q : Parse α} {m m' : Meaning α}

theorem bitIstrue_bit (x : BitVec 16) {i : ℕ} (hi : i < 16) :
    bitIstrue x (bit i) = (decide (i < 8) && x.getLsbD i) := by
  have hmask : ((bit i).setWidth 8).setWidth 16 = if i < 8 then BitVec.twoPow 16 i else 0#16 := by
    interval_cases i <;> rfl
  rw [bitIstrue, hmask, BitVec.setWidth_eq]
  by_cases hlow : i < 8
  · rw [if_pos hlow, BitVec.and_twoPow]
    cases hx : x.getLsbD i with
    | false => simp
    | true =>
      have hne : BitVec.twoPow 16 i ≠ 0#16 := by
        interval_cases i <;> decide
      simp [hlow, hne]
  · rw [if_neg hlow]
    simp [hlow]

theorem getLsbD_or_bit (x : BitVec 16) {i j : ℕ} (hi : i < 16) (hj : j < 16) :
    (x ||| bit i).getLsbD j = (x.getLsbD j || decide (i = j)) := by
  rw [BitVec.getLsbD_or]
  congr 1
  interval_cases i <;> interval_cases j <;> rfl

theorem Setting.place_index_lt (v : Setting α) : v.place.index < 16 := by
  cases v <;> simp only [Setting.place, Place.index] <;> first | decide | skip
  all_goals
    rename_i idx x
    fin_cases idx <;> decide

variable {v w : Setting α}

theorem Setting.set_commandWords (v : Setting α) (q : Parse α) :
    (v.set q).commandWords = q.commandWords := by
  cases v <;> rfl

theorem Setting.set_valueWords (v : Setting α) (q : Parse α) :
    (v.set q).valueWords = q.valueWords := by
  cases v <;> rfl

theorem Setting.set_axisCommand (v : Setting α) (q : Parse α) :
    (v.set q).axisCommand = q.axisCommand := by
  cases v <;> rfl

/-- Two settings of different places do not touch the same thing. -/
theorem Setting.set_comm (h : v.place ≠ w.place) (q : Parse α) :
    v.set (w.set q) = w.set (v.set q) := by
  cases v with
  | ijk i x =>
    cases w with
    | ijk j y =>
      have hne : i ≠ j := fun heq => h (by rw [heq]; rfl)
      simp only [Setting.set, setIjk, Function.update_comm hne]
      rw [BitVec.or_assoc, BitVec.or_comm (1#8 <<< j.val), ← BitVec.or_assoc]
    | _ => rfl
  | xyz i x =>
    cases w with
    | xyz j y =>
      have hne : i ≠ j := fun heq => h (by rw [heq]; rfl)
      simp only [Setting.set, setXyz, Function.update_comm hne]
      rw [BitVec.or_assoc, BitVec.or_comm (1#8 <<< j.val), ← BitVec.or_assoc]
    | _ => rfl
  | _ => cases w <;> first | rfl | exact absurd rfl h

theorem Setting.set_flag (v : Setting α) (q : Parse α) (place : Place) :
    v.set (q.flag place) = (v.set q).flag place := by
  cases place <;> cases v <;> rfl

theorem Setting.set_claim (v : Setting α) (q : Parse α) (claim : AxisCommand) :
    v.set (q.claim claim) = (v.set q).claim claim := by
  simp only [Parse.claim]
  split_ifs
  · rfl
  · cases v <;> rfl

theorem Parse.flag_claim (q : Parse α) (place : Place) (claim : AxisCommand) :
    (q.claim claim).flag place = (q.flag place).claim claim := by
  simp only [Parse.claim]
  split_ifs
  · rfl
  · cases place <;> rfl

theorem Parse.flag_comm (q : Parse α) (place place' : Place) :
    (q.flag place).flag place' = (q.flag place').flag place := by
  cases place <;> cases place' <;> simp only [Parse.flag, Parse.mk.injEq, true_and, and_true]
  all_goals rw [BitVec.or_assoc, BitVec.or_comm (bit _), ← BitVec.or_assoc]

theorem Parse.claim_comm {a b : AxisCommand} (h : a = .none ∨ b = .none) (q : Parse α) :
    (q.claim a).claim b = (q.claim b).claim a := by
  obtain rfl | rfl := h
  · rfl
  · rfl

/-- Two words of different places, of which not both claim the axis words, may be exchanged. -/
theorem Parse.enter_comm (hplace : m.setting.place ≠ m'.setting.place)
    (hclaim : m.claim = .none ∨ m'.claim = .none) (q : Parse α) :
    (q.enter m).enter m' = (q.enter m').enter m := by
  simp only [Parse.enter, Setting.set_claim, Setting.set_flag, Parse.flag_claim]
  rw [Parse.claim_comm hclaim, Setting.set_comm hplace, Parse.flag_comm]

theorem Parse.axisCommand_enter (q : Parse α) (m : Meaning α) :
    (q.enter m).axisCommand = if m.claim = .none then q.axisCommand else m.claim := by
  rw [Parse.enter, Parse.claim]
  split_ifs
  · cases m.setting.place <;> exact Setting.set_axisCommand _ _
  · rfl

theorem bitIstrue_or_bit (x : BitVec 16) {i j : ℕ} (hi : i < 16) (hj : j < 16) :
    bitIstrue (x ||| bit i) (bit j) =
      (bitIstrue x (bit j) || (decide (i = j) && decide (j < 8))) := by
  rw [bitIstrue_bit _ hj, bitIstrue_bit _ hj, getLsbD_or_bit _ hi hj]
  by_cases hlow : j < 8
  · simp [hlow]
  · simp [hlow]

/-- A place is seen as taken when it was, or when the word takes it and it is one of the first. -/
theorem Parse.repeats_enter (q : Parse α) (m : Meaning α) {place : Place}
    (hplace : place.index < 16) :
    (q.enter m).repeats place =
      (q.repeats place || (decide (m.setting.place = place) && decide (place.index < 8))) := by
  have hlt := m.setting.place_index_lt
  have hclaim : ∀ q' : Parse α, (q'.claim m.claim).repeats place = q'.repeats place := by
    intro q'
    rw [Parse.claim]
    split_ifs <;> cases place <;> rfl
  rw [Parse.enter, hclaim]
  cases place with
  | command i =>
    cases hm : m.setting.place with
    | command j =>
      rw [hm] at hlt
      simp only [Parse.flag, Parse.repeats, Setting.set_commandWords, Place.command.injEq]
      exact bitIstrue_or_bit _ hlt hplace
    | value j => simp [Parse.flag, Parse.repeats, Setting.set_commandWords]
  | value i =>
    cases hm : m.setting.place with
    | command j => simp [Parse.flag, Parse.repeats, Setting.set_valueWords]
    | value j =>
      rw [hm] at hlt
      simp only [Parse.flag, Parse.repeats, Setting.set_valueWords, Place.value.injEq]
      exact bitIstrue_or_bit _ hlt hplace

/-- A word behind another is refused as it would be without it, or for the sake of it. -/
theorem Parse.refuses_enter (q : Parse α) (m m' : Meaning α) : (q.enter m).refuses m' =
    (q.refuses m' || (decide (m.claim ≠ .none) && decide (m'.claim ≠ .none)) ||
      (decide (m.setting.place = m'.setting.place) && decide (m'.setting.place.index < 8))) := by
  rw [Parse.refuses, Parse.refuses, q.repeats_enter m m'.setting.place_index_lt,
    q.axisCommand_enter]
  by_cases hm : m.claim = .none
  · simp [hm, Bool.or_assoc]
  · by_cases hm' : m'.claim = .none
    · simp [hm, hm']
    · simp [hm, hm']

/-- **Words of different places** may be read in either order. -/
theorem Parse.accept_comm (hplace : m.setting.place ≠ m'.setting.place) (q : Parse α) :
    (q.accept m).bind (fun q => q.accept m') = (q.accept m').bind fun q => q.accept m := by
  have hleft := q.refuses_enter m m'
  have hright := q.refuses_enter m' m
  rw [decide_eq_false hplace, Bool.false_and, Bool.or_false] at hleft
  rw [decide_eq_false hplace.symm, Bool.false_and, Bool.or_false] at hright
  simp only [Parse.accept]
  by_cases hclaim : m.claim = .none ∨ m'.claim = .none
  · have hboth : (decide (m.claim ≠ .none) && decide (m'.claim ≠ .none)) = false := by
      obtain h | h := hclaim <;> simp [h]
    rw [hboth, Bool.or_false] at hleft
    rw [Bool.and_comm, hboth, Bool.or_false] at hright
    cases hm : q.refuses m <;> cases hm' : q.refuses m' <;>
      simp [hm, hm', hleft, hright, Parse.enter_comm hplace hclaim q]
  · obtain ⟨hm, hm'⟩ := not_or.mp hclaim
    rw [decide_eq_true hm, decide_eq_true hm', Bool.and_self, Bool.or_true] at hleft hright
    cases q.refuses m <;> cases q.refuses m' <;> simp [hleft, hright]

/-- Two words may be in one line: not both claim the axis words, and the second does not repeat the
first, if it is one of the first eight of its kind. -/
def Fits (m m' : Meaning α) : Prop :=
  (m.claim = .none ∨ m'.claim = .none) ∧
    (m.setting.place = m'.setting.place → 8 ≤ m'.setting.place.index)

theorem Parse.refuses_enter_eq_false (q : Parse α) (m m' : Meaning α) :
    (q.enter m).refuses m' = false ↔ q.refuses m' = false ∧ Fits m m' := by
  rw [q.refuses_enter, Bool.or_eq_false_iff, Bool.or_eq_false_iff, and_assoc, Fits,
    Bool.and_eq_false_iff, Bool.and_eq_false_iff, decide_eq_false_iff_not, decide_eq_false_iff_not,
    decide_eq_false_iff_not, decide_eq_false_iff_not, not_not, not_not, Nat.not_lt,
    ← imp_iff_not_or]

theorem accept_eq_some {p : Parse α} :
    q.accept m = some p ↔ q.refuses m = false ∧ p = q.enter m := by
  rw [Parse.accept]
  cases q.refuses m <;> simp [eq_comm]

/-- Words are read one after another when none is refused at the beginning, and every two fit. -/
theorem foldlM_accept {p : Parse α} (ms : List (Meaning α)) : ∀ q : Parse α,
    ms.foldlM Parse.accept q = some p ↔
      (∀ m ∈ ms, q.refuses m = false) ∧ ms.Pairwise Fits ∧ p = ms.foldl Parse.enter q := by
  induction ms with
  | nil =>
    intro q
    exact ⟨fun h => ⟨by simp, .nil, (Option.some.inj h).symm⟩, fun h => congrArg some h.2.2.symm⟩
  | cons m ms ih =>
    intro q
    have hrest : ((q.enter m).refuses · = false) = fun m' => q.refuses m' = false ∧ Fits m m' :=
      funext fun m' => propext (q.refuses_enter_eq_false m m')
    rw [List.foldlM_cons, List.pairwise_cons, List.forall_mem_cons, List.foldl_cons]
    constructor
    · intro h
      obtain ⟨q', hq', h⟩ := Option.bind_eq_some_iff.mp h
      obtain ⟨hm, rfl⟩ := accept_eq_some.mp hq'
      obtain ⟨hfree, hfits, hp⟩ := (ih _).mp h
      have hboth := fun m' hm' => (q.refuses_enter_eq_false m m').mp (hfree m' hm')
      exact ⟨⟨hm, fun m' hm' => (hboth m' hm').1⟩, ⟨fun m' hm' => (hboth m' hm').2, hfits⟩, hp⟩
    · rintro ⟨⟨hm, hfree⟩, ⟨hfirst, hfits⟩, hp⟩
      refine Option.bind_eq_some_iff.mpr ⟨q.enter m, accept_eq_some.mpr ⟨hm, rfl⟩, ?_⟩
      exact (ih _).mpr ⟨fun m' hm' =>
        (q.refuses_enter_eq_false m m').mpr ⟨hfree m' hm', hfirst m' hm'⟩, hfits, hp⟩

/-! ### What the code makes of a word -/

/-- The end of the case of G. -/
def gFlag (r : Parse α × ℕ × ℕ) : Except GcodeError (Parse α) :=
  if 0 < r.2.2 then .error .commandValueNotInteger else flagCommand r.1 r.2.1

/-- A command that sets something, with what is left of its mantissa. -/
def gSets (q : Parse α) (m : Meaning α) (rest : ℕ) : Except GcodeError (Parse α × ℕ × ℕ) :=
  (if m.claim = .none then .ok q else claimAxis q m.claim).map fun q =>
    (m.setting.set q, m.setting.place.index, rest)

def Place.isCommand : Place → Bool
  | .command _ => true
  | .value _ => false

theorem claim_eq (q : Parse α) (claim : AxisCommand) :
    (if claim = .none then .ok q else claimAxis q claim) =
      if claim ≠ .none ∧ q.axisCommand ≠ .none then .error .axisCommandConflict
      else .ok (q.claim claim) := by
  by_cases hclaim : claim = .none
  · rw [if_pos hclaim, if_neg fun h => h.1 hclaim, Parse.claim, if_pos hclaim]
  · rw [if_neg hclaim, claimAxis, Parse.claim, if_neg hclaim]
    simp only [ne_eq, hclaim, not_false_iff, true_and]

theorem flagCommand_toOption (q : Parse α) (i : ℕ) : (flagCommand q i).toOption =
    if q.repeats (.command i) then none else some (q.flag (.command i)) := by
  rw [flagCommand, Parse.repeats]
  split_ifs <;> rfl

theorem gSets_flag (q : Parse α) (hm : m.setting.place.isCommand = true) :
    ((gSets q m 0).bind gFlag).toOption = q.accept m := by
  cases hplace : m.setting.place with
  | value i =>
    rw [hplace] at hm
    cases hm
  | command i =>
    rw [gSets, claim_eq, Parse.accept, Parse.refuses]
    by_cases hclaim : m.claim ≠ .none ∧ q.axisCommand ≠ .none
    · rw [if_pos hclaim, decide_eq_true hclaim.1, decide_eq_true hclaim.2, Bool.true_and,
        Bool.true_or, if_pos rfl]
      rfl
    · have hfree : (decide (m.claim ≠ .none) && decide (q.axisCommand ≠ .none)) = false := by
        rw [← Bool.decide_and]
        exact decide_eq_false hclaim
      rw [if_neg hclaim, hfree, Bool.false_or, hplace]
      show (flagCommand (m.setting.set (q.claim m.claim)) i).toOption = _
      have hrepeats : (m.setting.set (q.claim m.claim)).repeats (.command i) =
          q.repeats (.command i) := by
        rw [Parse.repeats, Parse.repeats, Setting.set_commandWords, Parse.claim]
        split_ifs <;> rfl
      rw [flagCommand_toOption, hrepeats, Parse.enter, hplace, Setting.set_claim,
        Parse.flag_claim]

theorem gSets_flag_pos (q : Parse α) {rest : ℕ} (hrest : 0 < rest) :
    ((gSets q m rest).bind gFlag).toOption = none := by
  rw [gSets, claim_eq]
  split_ifs
  · rfl
  · simp only [Except.map, Except.bind, gFlag, if_pos hrest]
    rfl

/-- The commands without a point. -/
theorem plain_toOption (q : Parse α) {n k : ℕ} (m : Meaning α)
    (hm : m.setting.place.isCommand = true) (hcommand : gCommand q n k = gSets q m k)
    (hzero : gMeaning n 0 = some m) (hpos : ∀ k, gMeaning (α := α) n (k + 1) = none) :
    ((gCommand q n k).bind gFlag).toOption = (gMeaning n k).bind q.accept := by
  rw [hcommand]
  cases k with
  | zero =>
    rw [hzero, gSets_flag q hm]
    rfl
  | succ k =>
    rw [hpos, gSets_flag_pos q (Nat.succ_pos k)]
    rfl

/-- A command that is accepted whatever is behind its point has nothing left of it. -/
theorem settled_toOption (q : Parse α) {n k : ℕ} (m : Meaning α)
    (hm : m.setting.place.isCommand = true) {r : Except GcodeError (Parse α × ℕ × ℕ)}
    (hr : r = gSets q m 0) (hmeaning : gMeaning n k = some m) :
    (r.bind gFlag).toOption = (gMeaning n k).bind q.accept := by
  rw [hr, gSets_flag q hm, hmeaning]
  rfl

theorem refused_toOption (q : Parse α) {n k : ℕ} {r : Except GcodeError (Parse α × ℕ × ℕ)}
    (hr : (r.bind gFlag).toOption = none) (hmeaning : gMeaning (α := α) n k = none) :
    (r.bind gFlag).toOption = (gMeaning n k).bind q.accept := by
  rw [hr, hmeaning]
  rfl

theorem pointOne_toOption (q : Parse α) {n : ℕ} (k : ℕ) {plain one : NonModal}
    (hzero : gMeaning (α := α) n 0 = some ⟨.nonModal plain, .nonModal⟩)
    (hten : gMeaning (α := α) n 10 = some ⟨.nonModal one, .none⟩)
    (hother : ∀ k, k ≠ 0 → k ≠ 10 → gMeaning (α := α) n k = none) :
    ((pointOne q k plain one).bind gFlag).toOption = (gMeaning n k).bind q.accept := by
  rw [pointOne.eq_def]
  split
  · exact settled_toOption q _ rfl rfl hzero
  · exact settled_toOption q _ rfl rfl hten
  · rename_i hne hne'
    exact refused_toOption q rfl (hother k hne hne')

/-- The axis words are claimed before anything else is tested. -/
theorem claimed_refused (q : Parse α) (claim : AxisCommand) (e : GcodeError) :
    (((claimAxis q claim).bind fun _ => (.error e : Except GcodeError (Parse α × ℕ × ℕ))).bind
      gFlag).toOption = none := by
  cases claimAxis q claim <;> rfl

/-- **The G commands** are accepted by what they mean. -/
theorem gCommand_toOption (q : Parse α) (n k : ℕ) :
    ((gCommand q n k).bind gFlag).toOption = (gMeaning n k).bind q.accept := by
  unfold gCommand
  split
  · cases k with
    | zero => exact settled_toOption q ⟨.nonModal .setCoordinateData, .nonModal⟩ rfl rfl rfl
    | succ k => exact refused_toOption q rfl rfl
  · exact pointOne_toOption q (n := 28) k rfl rfl fun k h h' => by simp [gMeaning, h, h']
  · exact pointOne_toOption q (n := 30) k rfl rfl fun k h h' => by simp [gMeaning, h, h']
  · exact pointOne_toOption q (n := 92) k rfl rfl fun k h h' => by simp [gMeaning, h, h']
  · exact plain_toOption q (n := 4) ⟨.nonModal .dwell, .none⟩ rfl rfl rfl fun _ => rfl
  · exact plain_toOption q (n := 53) ⟨.nonModal .absoluteOverride, .none⟩ rfl rfl rfl fun _ => rfl
  · exact plain_toOption q (n := 0) ⟨.motion .seek, .motionMode⟩ rfl rfl rfl fun _ => rfl
  · exact plain_toOption q (n := 1) ⟨.motion .linear, .motionMode⟩ rfl rfl rfl fun _ => rfl
  · exact plain_toOption q (n := 2) ⟨.motion .cwArc, .motionMode⟩ rfl rfl rfl fun _ => rfl
  · exact plain_toOption q (n := 3) ⟨.motion .ccwArc, .motionMode⟩ rfl rfl rfl fun _ => rfl
  · rw [probeMotion.eq_def]
    split
    · exact settled_toOption q ⟨.motion .probeToward, .motionMode⟩ rfl rfl rfl
    · exact settled_toOption q ⟨.motion .probeTowardNoError, .motionMode⟩ rfl rfl rfl
    · exact settled_toOption q ⟨.motion .probeAway, .motionMode⟩ rfl rfl rfl
    · exact settled_toOption q ⟨.motion .probeAwayNoError, .motionMode⟩ rfl rfl rfl
    · rename_i h₂ h₃ h₄ h₅
      refine refused_toOption q (claimed_refused _ _ _) ?_
      rw [gMeaning.eq_def]
      split <;> first | rfl | omega | contradiction
  · exact plain_toOption q (n := 80) ⟨.motion .none, .none⟩ rfl rfl rfl fun _ => rfl
  · exact plain_toOption q (n := 17) ⟨.planeSelect .xy, .none⟩ rfl rfl rfl fun _ => rfl
  · exact plain_toOption q (n := 18) ⟨.planeSelect .zx, .none⟩ rfl rfl rfl fun _ => rfl
  · exact plain_toOption q (n := 19) ⟨.planeSelect .yz, .none⟩ rfl rfl rfl fun _ => rfl
  · split_ifs with hzero
    · subst hzero
      exact settled_toOption q ⟨.distance .absolute, .none⟩ rfl rfl rfl
    · exact refused_toOption q rfl (by simp [gMeaning, hzero])
  · split_ifs with hzero hten
    · subst hzero
      exact settled_toOption q ⟨.distance .incremental, .none⟩ rfl rfl rfl
    · exact refused_toOption q rfl (by simp [gMeaning, hzero, hten])
    · obtain rfl := not_not.mp hten
      exact settled_toOption q ⟨.arcDistance, .none⟩ rfl rfl rfl
  · exact plain_toOption q (n := 93) ⟨.feedRate .inverseTime, .none⟩ rfl rfl rfl fun _ => rfl
  · exact plain_toOption q (n := 94) ⟨.feedRate .unitsPerMin, .none⟩ rfl rfl rfl fun _ => rfl
  · exact plain_toOption q (n := 20) ⟨.units .inches, .none⟩ rfl rfl rfl fun _ => rfl
  · exact plain_toOption q (n := 21) ⟨.units .mm, .none⟩ rfl rfl rfl fun _ => rfl
  · exact plain_toOption q (n := 40) ⟨.cutterComp, .none⟩ rfl rfl rfl fun _ => rfl
  · by_cases hten : k = 10
    · subst hten
      exact settled_toOption q ⟨.toolLength .enableDynamic, .toolLengthOffset⟩ rfl rfl rfl
    · simp only [if_neg hten]
      exact refused_toOption q (claimed_refused _ _ _) (by simp [gMeaning, hten])
  · exact settled_toOption q ⟨.toolLength .cancel, .toolLengthOffset⟩ rfl rfl rfl
  · cases k with
    | zero => exact settled_toOption q ⟨.control, .none⟩ rfl rfl rfl
    | succ k => exact refused_toOption q rfl rfl
  · split_ifs with hrange
    · obtain ⟨hlow, hhigh⟩ := hrange
      interval_cases n
      · exact plain_toOption q (n := 54) ⟨.coordSelect 0, .none⟩ rfl rfl rfl fun _ => rfl
      · exact plain_toOption q (n := 55) ⟨.coordSelect 1, .none⟩ rfl rfl rfl fun _ => rfl
      · exact plain_toOption q (n := 56) ⟨.coordSelect 2, .none⟩ rfl rfl rfl fun _ => rfl
      · exact plain_toOption q (n := 57) ⟨.coordSelect 3, .none⟩ rfl rfl rfl fun _ => rfl
      · exact plain_toOption q (n := 58) ⟨.coordSelect 4, .none⟩ rfl rfl rfl fun _ => rfl
      · exact plain_toOption q (n := 59) ⟨.coordSelect 5, .none⟩ rfl rfl rfl fun _ => rfl
    · refine refused_toOption q rfl ?_
      rw [gMeaning.eq_def]
      split <;> first | rfl | omega | contradiction

theorem mCommand_toOption (q : Parse α) (n k : ℕ) :
    (if 0 < k then .error .commandValueNotInteger
      else (mCommand q n).bind fun r => flagCommand r.1 r.2).toOption =
        (mMeaning n k).bind q.accept := by
  cases k with
  | succ k =>
    rw [if_pos (Nat.succ_pos k), mMeaning.eq_def]
    split <;> first | rfl | omega
  | zero =>
    rw [if_neg (Nat.lt_irrefl 0)]
    have hset : ∀ v : Setting α, v.place.isCommand = true →
        (flagCommand (v.set q) v.place.index).toOption = q.accept ⟨v, .none⟩ := by
      intro v hv
      cases hplace : v.place with
      | value i =>
        rw [hplace] at hv
        cases hv
      | command i =>
        rw [Place.index, flagCommand_toOption, Parse.repeats, Setting.set_commandWords]
        simp only [Parse.accept, Parse.refuses, Parse.enter, hplace, Parse.claim, Parse.repeats]
        rfl
    unfold mCommand
    split
    · exact hset (.programFlow (some .paused)) rfl
    · exact hset (.programFlow none) rfl
    · exact hset (.programFlow (some .completed)) rfl
    · exact hset (.programFlow (some .completed)) rfl
    · exact hset (.spindle .enableCw) rfl
    · exact hset (.spindle .enableCcw) rfl
    · exact hset (.spindle .disable) rfl
    · exact hset (.coolant .floodEnable) rfl
    · exact hset (.coolant .disable) rfl
    · rw [mMeaning.eq_def]
      split <;> first | rfl | contradiction

variable [GcodeNumber α]

theorem setValue_eq (q : Parse α) (letter : Byte) (x : α) : setValue q letter x =
    match valueSetting letter x with
    | some v => .ok (v.set q, v.place.index)
    | none => .error .unsupportedCommand := by
  rw [setValue.eq_def, valueSetting.eq_def]
  generalize letter.toNat = k
  split
  -- no letter of a value
  case h_14 => simp_all
  all_goals rfl

theorem valueSetting_place {letter : Byte} {x : α} (h : valueSetting letter x = some v) :
    v.place = .value v.place.index ∧
      (bit v.place.index &&& nonNegativeWords ≠ 0#16 ↔ v.mayBeNegative = false) := by
  rw [valueSetting.eq_def] at h
  split at h
  case h_14 => cases h
  all_goals
    obtain rfl := Option.some.inj h
    simp only [Setting.place, Place.index, Setting.mayBeNegative]
    decide

theorem value_toOption (q : Parse α) (letter : Byte) (x : α) :
    ((setValue q letter x).bind fun r => flagValue r.1 r.2 x).toOption =
      (((valueSetting letter x).filter fun v => v.mayBeNegative || !negative x).map
        fun v => (⟨v, .none⟩ : Meaning α)).bind q.accept := by
  rw [setValue_eq]
  cases hv : valueSetting letter x with
  | none => rfl
  | some v =>
    obtain ⟨hplace, hsign⟩ := valueSetting_place hv
    show (flagValue (v.set q) v.place.index x).toOption = _
    generalize v.place.index = i at hplace hsign ⊢
    have haccept : q.accept ⟨v, .none⟩ = if bitIstrue q.valueWords (bit i) then none
        else some { v.set q with valueWords := q.valueWords ||| bit i } := by
      simp [Parse.accept, Parse.refuses, Parse.enter, Parse.claim, Parse.repeats, Parse.flag,
        hplace, Setting.set_valueWords]
    have hallowed : (v.mayBeNegative || !negative x) = true ↔
        ¬(bit i &&& nonNegativeWords ≠ 0#16 ∧ negative x = true) := by
      rw [hsign]
      cases v.mayBeNegative <;> cases negative x <;> decide
    rw [flagValue, Setting.set_valueWords]
    by_cases hneg : bit i &&& nonNegativeWords ≠ 0#16 ∧ negative x = true
    · rw [if_pos hneg, Option.filter_some, if_neg fun h => hallowed.mp h hneg]
      split_ifs <;> rfl
    · rw [if_neg hneg, Option.filter_some, if_pos (hallowed.mpr hneg)]
      show _ = q.accept ⟨v, .none⟩
      rw [haccept]
      split_ifs <;> rfl

/-- **The body of the loop** accepts a word by what it means. -/
theorem gcWord_toOption (q : Parse α) (letter : Byte) (x : α) :
    (gcWord q letter x).toOption = (meaning letter x).bind q.accept := by
  rw [gcWord, meaning]
  by_cases hg : letter = 0x47#8
  · rw [if_pos hg, if_pos hg]
    exact gCommand_toOption q _ _
  · rw [if_neg hg, if_neg hg]
    by_cases hm : letter = 0x4D#8
    · rw [if_pos hm, if_pos hm]
      exact mCommand_toOption q _ _
    · rw [if_neg hm, if_neg hm]
      exact value_toOption q letter x

/-! ### Lines -/

def isLetter (c : Byte) : Bool := 0x41#8 ≤ c && c ≤ 0x5A#8

/-- Nothing that could be part of a number comes next. -/
def Stops (line : List Byte) : Prop := ∀ c ∈ line.head?, isLetter c = true

theorem not_digit_of_isLetter {c : Byte} (hc : isLetter c = true) :
    ¬c - 0x30#8 ≤ 9#8 ∧ c - 0x30#8 ≠ 0x2E#8 - 0x30#8 := by
  revert c
  decide

theorem readDigits_stops (d : Digits) {rest : List Byte} (h : Stops rest) :
    readDigits d rest = (d, rest) := by
  cases rest with
  | nil => rfl
  | cons c rest =>
    have hdigit := not_digit_of_isLetter (h c rfl)
    rw [readDigits, if_neg hdigit.1, if_neg fun hpoint => hdigit.2 hpoint.1]

theorem readDigits_append {rest : List Byte} (h : Stops rest) (line : List Byte) :
    ∀ d, (readDigits d line).2 = [] →
      readDigits d (line ++ rest) = ((readDigits d line).1, rest) := by
  induction line with
  | nil => exact fun d _ => readDigits_stops d h
  | cons c line ih =>
    intro d hall
    simp only [List.cons_append, readDigits] at hall ⊢
    by_cases hdigit : c - 0x30#8 ≤ 9#8
    · rw [if_pos hdigit] at hall ⊢
      rw [if_pos hdigit]
      exact ih _ hall
    · rw [if_neg hdigit] at hall ⊢
      rw [if_neg hdigit]
      by_cases hpoint : c - 0x30#8 = 0x2E#8 - 0x30#8 ∧ d.isdecimal = false
      · rw [if_pos hpoint] at hall ⊢
        rw [if_pos hpoint]
        exact ih _ hall
      · rw [if_neg hpoint] at hall
        cases hall

/-- What the loop of `read_float` takes is a number by itself. -/
theorem readDigits_split (line : List Byte) : ∀ d, ∃ taken,
    line = taken ++ (readDigits d line).2 ∧ readDigits d taken = ((readDigits d line).1, []) := by
  induction line with
  | nil => exact fun d => ⟨[], rfl, rfl⟩
  | cons c line ih =>
    intro d
    rw [readDigits]
    by_cases hdigit : c - 0x30#8 ≤ 9#8
    · obtain ⟨taken, hline, htaken⟩ := ih (d.digit (c - 0x30#8))
      rw [if_pos hdigit]
      exact ⟨c :: taken, congrArg (c :: ·) hline, by rw [readDigits, if_pos hdigit, htaken]⟩
    · rw [if_neg hdigit]
      by_cases hpoint : c - 0x30#8 = 0x2E#8 - 0x30#8 ∧ d.isdecimal = false
      · obtain ⟨taken, hline, htaken⟩ := ih { d with isdecimal := true }
        rw [if_pos hpoint]
        exact ⟨c :: taken, congrArg (c :: ·) hline, by
          rw [readDigits, if_neg hdigit, if_pos hpoint, htaken]⟩
      · rw [if_neg hpoint]
        exact ⟨[], rfl, rfl⟩

variable {line numeral rest : List Byte} {x : α}

/-- Where the digits begin. -/
def afterSign (line : List Byte) : List Byte :=
  if line.head? = some 0x2D#8 ∨ line.head? = some 0x2B#8 then line.tail else line

theorem readFloat_eq_some : readFloat line = some (x, rest) ↔
    ∃ d, readDigits ⟨0#32, 0, 0, false⟩ (afterSign line) = (d, rest) ∧ d.ndigit ≠ 0 ∧
      x = if line.head? = some 0x2D#8 then -applyExp (ofUInt32 d.intval) d.exp
        else applyExp (ofUInt32 d.intval) d.exp := by
  rw [readFloat, afterSign]
  cases hd : readDigits ⟨0#32, 0, 0, false⟩
    (if line.head? = some 0x2D#8 ∨ line.head? = some 0x2B#8 then line.tail else line) with
  | mk d tail =>
    simp only
    by_cases hnone : d.ndigit = 0
    · rw [if_pos hnone]
      constructor
      · nofun
      · rintro ⟨_, heq, hne, -⟩
        cases heq
        exact absurd hnone hne
    · rw [if_neg hnone]
      constructor
      · intro h
        cases h
        exact ⟨d, rfl, hnone, rfl⟩
      · rintro ⟨_, heq, -, rfl⟩
        cases heq
        rfl

theorem afterSign_append (hne : numeral ≠ []) :
    (numeral ++ rest).head? = numeral.head? ∧
      afterSign (numeral ++ rest) = afterSign numeral ++ rest := by
  cases numeral with
  | nil => exact absurd rfl hne
  | cons c numeral =>
    refine ⟨rfl, ?_⟩
    by_cases hsign : some c = some 0x2D#8 ∨ some c = some 0x2B#8
    · rw [afterSign, afterSign, List.cons_append, List.head?_cons, List.head?_cons, if_pos hsign,
        if_pos hsign]
      rfl
    · rw [afterSign, afterSign, List.cons_append, List.head?_cons, List.head?_cons, if_neg hsign,
        if_neg hsign]
      rfl

theorem readFloat_append (h : readFloat numeral = some (x, [])) (hrest : Stops rest) :
    readFloat (numeral ++ rest) = some (x, rest) := by
  obtain ⟨d, hd, hdigit, hx⟩ := readFloat_eq_some.mp h
  have hne : numeral ≠ [] := by
    rintro rfl
    cases hd
    exact hdigit rfl
  obtain ⟨hhead, hafter⟩ : (numeral ++ rest).head? = numeral.head? ∧
      afterSign (numeral ++ rest) = afterSign numeral ++ rest := afterSign_append hne
  refine readFloat_eq_some.mpr ⟨d, ?_, hdigit, by rw [hhead]; exact hx⟩
  rw [hafter, readDigits_append hrest _ _ (by rw [hd]), hd]

theorem readFloat_split (h : readFloat line = some (x, rest)) :
    ∃ numeral, line = numeral ++ rest ∧ readFloat numeral = some (x, []) := by
  obtain ⟨d, hd, hdigit, hx⟩ := readFloat_eq_some.mp h
  obtain ⟨taken, htaken, hread⟩ := readDigits_split (afterSign line) ⟨0#32, 0, 0, false⟩
  rw [hd] at htaken hread
  have hne : taken ≠ [] := by
    rintro rfl
    cases hread
    exact hdigit rfl
  by_cases hsign : line.head? = some 0x2D#8 ∨ line.head? = some 0x2B#8
  · cases line with
    | nil => simp at hsign
    | cons c line =>
      rw [afterSign, if_pos hsign, List.tail_cons] at htaken
      refine ⟨c :: taken, by rw [htaken, List.cons_append],
        readFloat_eq_some.mpr ⟨d, ?_, hdigit, hx⟩⟩
      rw [List.head?_cons] at hsign
      rw [afterSign, List.head?_cons, if_pos hsign, List.tail_cons]
      exact hread
  · rw [afterSign, if_neg hsign] at htaken
    have hhead : taken.head? = line.head? := by
      rw [htaken]
      exact (afterSign_append hne).1.symm
    rw [← hhead] at hsign hx
    refine ⟨taken, htaken, readFloat_eq_some.mpr ⟨d, ?_, hdigit, hx⟩⟩
    rw [afterSign, if_neg hsign]
    exact hread

/-- A letter with a number that takes the rest. -/
def readWord : List Byte → Option (Byte × α)
  | [] => none
  | letter :: numeral =>
    if isLetter letter then
      match readFloat numeral with
      | some (x, []) => some (letter, x)
      | _ => none
    else none

def IsWord (α : Type*) [GcodeNumber α] (w : List Byte) : Prop := (readWord (α := α) w).isSome

instance (w : List Byte) : Decidable (IsWord α w) := inferInstanceAs (Decidable (_ = true))

def wordMeaning (w : List Byte) : Option (Meaning α) :=
  (readWord w).bind fun (letter, x) => meaning letter x

def readMeaning (q : Parse α) (w : List Byte) : Option (Parse α) := (wordMeaning w).bind q.accept

variable {w : List Byte} {ws : List (List Byte)} {letter : Byte}

theorem readWord_eq_some : readWord w = some (letter, x) ↔
    ∃ numeral, w = letter :: numeral ∧ isLetter letter = true ∧
      readFloat numeral = some (x, []) := by
  constructor
  · intro h
    cases w with
    | nil => cases h
    | cons c numeral =>
      rw [readWord] at h
      split_ifs at h with hletter
      split at h
      next y hread =>
        cases h
        exact ⟨numeral, rfl, hletter, hread⟩
      next => cases h
  · rintro ⟨numeral, rfl, hletter, hread⟩
    rw [readWord, if_pos hletter, hread]

theorem isWord_iff : IsWord α w ↔ ∃ (letter : Byte) (numeral : List Byte) (x : α),
    w = letter :: numeral ∧ isLetter letter = true ∧ readFloat numeral = some (x, []) := by
  rw [IsWord, Option.isSome_iff_exists]
  constructor
  · rintro ⟨⟨letter, x⟩, h⟩
    obtain ⟨numeral, hw⟩ := readWord_eq_some.mp h
    exact ⟨letter, numeral, x, hw⟩
  · rintro ⟨letter, numeral, x, hw⟩
    exact ⟨(letter, x), readWord_eq_some.mpr ⟨numeral, hw⟩⟩

/-- A line of words begins with a letter. -/
theorem stops_flatten (hws : ∀ w ∈ ws, IsWord α w) : Stops ws.flatten := by
  cases ws with
  | nil => intro c hc; cases hc
  | cons w ws =>
    obtain ⟨letter, numeral, x, rfl, hletter, -⟩ := isWord_iff.mp (hws w List.mem_cons_self)
    intro c hc
    cases hc
    exact hletter

theorem not_letter_iff {c : Byte} : c < 0x41#8 ∨ 0x5A#8 < c ↔ isLetter c = false := by
  revert c
  decide

theorem Except.toOption_bind {ε β γ : Type*} (r : Except ε β) (f : β → Except ε γ) :
    (r.bind f).toOption = r.toOption.bind fun b => (f b).toOption := by
  cases r <;> rfl

/-- A round of the loop takes a word. -/
theorem gcWords_cons (fuel : ℕ) (q : Parse α) {numeral : List Byte}
    (hletter : isLetter letter = true) (hread : readFloat numeral = some (x, []))
    (hrest : Stops rest) :
    (gcWords (fuel + 1) q ((letter :: numeral) ++ rest)).toOption =
      (readMeaning q (letter :: numeral)).bind fun q => (gcWords fuel q rest).toOption := by
  have hword : wordMeaning (letter :: numeral) = meaning letter x := by
    rw [wordMeaning, readWord_eq_some.mpr ⟨numeral, rfl, hletter, hread⟩]
    rfl
  have hnot : ¬(letter < 0x41#8 ∨ 0x5A#8 < letter) := by
    rw [not_letter_iff, hletter]
    simp
  rw [List.cons_append, gcWords, if_neg hnot, readFloat_append hread hrest]
  show ((gcWord q letter x).bind fun q => gcWords fuel q rest).toOption = _
  rw [Except.toOption_bind, gcWord_toOption, readMeaning, hword]

/-- **The loop** reads the words of a line one after another. -/
theorem gcWords_flatten (hws : ∀ w ∈ ws, IsWord α w) :
    ∀ (fuel : ℕ) (q : Parse α), ws.length ≤ fuel →
      (gcWords fuel q ws.flatten).toOption = ws.foldlM readMeaning q := by
  induction ws with
  | nil =>
    intro fuel q _
    cases fuel <;> rfl
  | cons w ws ih =>
    intro fuel q hfuel
    obtain ⟨hw, hrest⟩ := List.forall_mem_cons.mp hws
    obtain ⟨letter, numeral, x, rfl, hletter, hread⟩ := isWord_iff.mp hw
    obtain ⟨fuel, rfl⟩ := Nat.exists_eq_add_of_lt (Nat.lt_of_lt_of_le (Nat.succ_pos _) hfuel)
    rw [Nat.zero_add] at hfuel ⊢
    rw [List.flatten_cons, gcWords_cons fuel q hletter hread (stops_flatten hrest),
      List.foldlM_cons]
    congr 1
    funext q
    exact ih hrest fuel q (Nat.le_of_succ_le_succ hfuel)

/-- What is left behind a number stops it. -/
theorem length_readFloat (h : readFloat line = some (x, rest)) : rest.length < line.length := by
  obtain ⟨numeral, rfl, hread⟩ := readFloat_split h
  cases numeral with
  | nil =>
    obtain ⟨d, hd, hdigit, -⟩ := readFloat_eq_some.mp hread
    cases hd
    exact absurd rfl hdigit
  | cons c numeral =>
    rw [List.length_append, List.length_cons]
    omega

/-- A line that is accepted is made of words. -/
theorem exists_words : ∀ (fuel : ℕ) (q p : Parse α) (line : List Byte), line.length ≤ fuel →
    gcWords fuel q line = .ok p → ∃ ws : List (List Byte), line = ws.flatten ∧
      ∀ w ∈ ws, IsWord α w := by
  intro fuel
  induction fuel with
  | zero =>
    intro q p line hlen _
    exact ⟨[], List.length_eq_zero_iff.mp (Nat.le_zero.mp hlen), by simp⟩
  | succ fuel ih =>
    intro q p line hlen h
    cases line with
    | nil => exact ⟨[], rfl, by simp⟩
    | cons letter line =>
      rw [gcWords] at h
      split_ifs at h with hnot
      split at h
      next => cases h
      next x rest hread =>
        have hletter : isLetter letter = true := by
          rwa [not_letter_iff, Bool.not_eq_false] at hnot
        have hlt := length_readFloat hread
        rw [List.length_cons] at hlen
        obtain ⟨numeral, rfl, hnumeral⟩ := readFloat_split hread
        cases hq : gcWord q letter x with
        | error e =>
          rw [hq] at h
          cases h
        | ok q' =>
          rw [hq] at h
          obtain ⟨ws, hflat, hws⟩ := ih q' p rest (by omega) h
          have hhead := isWord_iff.mpr ⟨letter, numeral, x, rfl, hletter, hnumeral⟩
          refine ⟨(letter :: numeral) :: ws, ?_, List.forall_mem_cons.mpr ⟨hhead, hws⟩⟩
          rw [List.flatten_cons, List.cons_append, ← hflat]

theorem length_le_flatten (hws : ∀ w ∈ ws, IsWord α w) :
    ws.length ≤ ws.flatten.length := by
  induction ws with
  | nil => exact Nat.zero_le _
  | cons w ws ih =>
    obtain ⟨hw, hrest⟩ := List.forall_mem_cons.mp hws
    obtain ⟨letter, numeral, x, rfl, -, -⟩ := isWord_iff.mp hw
    have hle := ih hrest
    rw [List.flatten_cons, List.length_append, List.length_cons, List.length_cons]
    omega

theorem gcParse_flatten (s : ParserState α) (hws : ∀ w ∈ ws, IsWord α w) :
    (gcParse s ws.flatten).toOption = ws.foldlM readMeaning (parseStart s) :=
  gcWords_flatten hws _ _ (length_le_flatten hws)

/-! ### The grammar of a line -/

theorem refuses_parseStart (s : ParserState α) (m : Meaning α) :
    (parseStart s).refuses m = false := by
  have hzero : ∀ i, bitIstrue (0#16) (bit i) = false := fun i => by simp [bitIstrue]
  rw [Parse.refuses]
  cases m.setting.place <;> simp [Parse.repeats, parseStart, hzero]

theorem foldlM_readMeaning {ms : List (Meaning α)} (h : ws.map wordMeaning = ms.map some)
    (q : Parse α) : ws.foldlM readMeaning q = ms.foldlM Parse.accept q := by
  induction ws generalizing ms q with
  | nil =>
    cases ms with
    | nil => rfl
    | cons m ms => cases h
  | cons w ws ih =>
    cases ms with
    | nil => cases h
    | cons m ms =>
      obtain ⟨hw, hrest⟩ := List.cons.inj h
      rw [List.foldlM_cons, List.foldlM_cons, readMeaning, hw]
      show (q.accept m).bind _ = (q.accept m).bind _
      congr 1
      funext q
      exact ih hrest q

theorem exists_meanings {p : Parse α} (q : Parse α) (h : ws.foldlM readMeaning q = some p) :
    ∃ ms : List (Meaning α), ws.map wordMeaning = ms.map some := by
  induction ws generalizing q with
  | nil => exact ⟨[], rfl⟩
  | cons w ws ih =>
    rw [List.foldlM_cons] at h
    obtain ⟨q', hq', h⟩ := Option.bind_eq_some_iff.mp h
    obtain ⟨m, hm, -⟩ := Option.bind_eq_some_iff.mp hq'
    obtain ⟨ms, hms⟩ := ih q' h
    exact ⟨m :: ms, congrArg₂ List.cons hm hms⟩

theorem isWord_of_meaning {m : Meaning α} (h : wordMeaning w = some m) : IsWord α w := by
  obtain ⟨r, hr, -⟩ := Option.bind_eq_some_iff.mp h
  exact Option.isSome_iff_exists.mpr ⟨r, hr⟩

/-- A line is made of words in one way only. -/
theorem words_unique {ws' : List (List Byte)} (hws : ∀ w ∈ ws, IsWord α w)
    (hws' : ∀ w ∈ ws', IsWord α w) (h : ws.flatten = ws'.flatten) : ws = ws' := by
  induction ws generalizing ws' with
  | nil =>
    cases ws' with
    | nil => rfl
    | cons w' ws' =>
      obtain ⟨letter, numeral, x, rfl, -⟩ := isWord_iff.mp (hws' w' List.mem_cons_self)
      cases h
  | cons w ws ih =>
    obtain ⟨hw, hrest⟩ := List.forall_mem_cons.mp hws
    obtain ⟨letter, numeral, x, rfl, -, hread⟩ := isWord_iff.mp hw
    cases ws' with
    | nil => cases h
    | cons w' ws' =>
      obtain ⟨hw', hrest'⟩ := List.forall_mem_cons.mp hws'
      obtain ⟨letter', numeral', x', rfl, -, hread'⟩ := isWord_iff.mp hw'
      rw [List.flatten_cons, List.flatten_cons, List.cons_append, List.cons_append] at h
      obtain ⟨rfl, htail⟩ := List.cons.inj h
      have hleft := readFloat_append hread (stops_flatten hrest)
      have hright := readFloat_append hread' (stops_flatten hrest')
      rw [htail, hright] at hleft
      have hflat : ws'.flatten = ws.flatten := congrArg Prod.snd (Option.some.inj hleft)
      rw [hflat] at htail
      rw [List.append_cancel_right htail, ih hrest hrest' hflat.symm]

theorem isWord_of_map {ms : List (Meaning α)} (h : ws.map wordMeaning = ms.map some) :
    ∀ w ∈ ws, IsWord α w := by
  intro w hw
  have hmem : wordMeaning w ∈ ms.map some := h ▸ List.mem_map_of_mem hw
  obtain ⟨m, -, hm⟩ := List.mem_map.mp hmem
  exact isWord_of_meaning hm.symm

/-- The words of a line that is accepted have meanings that fit, and have all been entered. -/
theorem gcParse_words {s : ParserState α} {p : Parse α} (hws : ∀ w ∈ ws, IsWord α w)
    (h : gcParse s ws.flatten = .ok p) : ∃ ms : List (Meaning α), ws.map wordMeaning = ms.map some ∧
      ms.Pairwise Fits ∧ p = ms.foldl Parse.enter (parseStart s) := by
  have hfold := gcParse_flatten s hws
  rw [h] at hfold
  obtain ⟨ms, hms⟩ := exists_meanings _ hfold.symm
  rw [foldlM_readMeaning hms] at hfold
  obtain ⟨-, hfits, hp⟩ := (foldlM_accept ms _).mp hfold.symm
  exact ⟨ms, hms, hfits, hp⟩

/-- **The grammar of a line.**  It is accepted when it is made of words, in one way only, that have
a meaning and fit to one another; then every one of them has been entered. -/
theorem line_grammar (s : ParserState α) (line : List Byte) (p : Parse α) :
    gcParse s line = .ok p ↔ ∃! ws : List (List Byte), line = ws.flatten ∧
      ∃ ms : List (Meaning α), ws.map wordMeaning = ms.map some ∧ ms.Pairwise Fits ∧
        p = ms.foldl Parse.enter (parseStart s) := by
  have hok : gcParse s line = .ok p ↔ (gcParse s line).toOption = some p := by
    cases gcParse s line <;> simp [Except.toOption]
  constructor
  · intro h
    obtain ⟨ws, rfl, hws⟩ := exists_words line.length _ p line le_rfl h
    obtain ⟨ms, hms, hfits, hp⟩ := gcParse_words hws h
    refine ⟨ws, ⟨rfl, ms, hms, hfits, hp⟩, ?_⟩
    rintro ws' ⟨hflat, ms', hms', -⟩
    exact words_unique (isWord_of_map hms') hws hflat.symm
  · rintro ⟨ws, ⟨rfl, ms, hms, hfits, hp⟩, -⟩
    rw [hok, gcParse_flatten s (isWord_of_map hms), foldlM_readMeaning hms]
    exact (foldlM_accept ms _).mpr ⟨fun m _ => refuses_parseStart s m, hfits, hp⟩

/-! ### The order of words -/

/-- Where a word belongs, if it has a meaning. -/
def wordPlace (α : Type*) [GcodeNumber α] (w : List Byte) : Option Place :=
  (wordMeaning (α := α) w).map fun m => m.setting.place

theorem commutes_readMeaning : Commutes (wordPlace α) (readMeaning (α := α)) := by
  intro q w w' hne
  rw [wordPlace, wordPlace] at hne
  cases hw : wordMeaning (α := α) w with
  | none =>
    have hnone : ∀ q, readMeaning (α := α) q w = none := fun q => by rw [readMeaning, hw]; rfl
    rw [hnone]
    cases readMeaning q w' with
    | none => rfl
    | some q' => exact (hnone q').symm
  | some m =>
    cases hw' : wordMeaning (α := α) w' with
    | none =>
      have hnone : ∀ q, readMeaning (α := α) q w' = none := fun q => by rw [readMeaning, hw']; rfl
      rw [hnone]
      cases readMeaning q w with
      | none => rfl
      | some q' => exact hnone q'
    | some m' =>
      rw [hw, hw'] at hne
      have hplace : m.setting.place ≠ m'.setting.place := fun heq => hne (congrArg some heq)
      simp only [readMeaning, hw, hw', Option.bind_some]
      exact Parse.accept_comm hplace q

/-- **The order of the words of a line** counts among those only that set the same thing: any other
order is carried out in the same way, or both lines are refused at sight. -/
theorem word_order (e : Surroundings α) (g : Interpreter α) (ws ws' : List (List Byte))
    (hws : ∀ w ∈ ws, IsWord α w)
    (hws' : ∀ w ∈ ws', IsWord α w)
    (h : Reordered (wordPlace α) ws ws') :
    gcExecuteLine e g ws.flatten = gcExecuteLine e g ws'.flatten ∨
      ∃ status status', gcExecuteLine e g ws.flatten = (some status, g) ∧
        gcExecuteLine e g ws'.flatten = (some status', g) := by
  have heq : (gcParse g.gcState ws.flatten).toOption =
      (gcParse g.gcState ws'.flatten).toOption := by
    rw [gcParse_flatten _ hws, gcParse_flatten _ hws', commutes_readMeaning.foldlM_eq h]
  rw [gcExecuteLine.eq_def, gcExecuteLine.eq_def]
  cases hp : gcParse g.gcState ws.flatten with
  | error status =>
    cases hp' : gcParse g.gcState ws'.flatten with
    | error status' => exact Or.inr ⟨status, status', rfl, rfl⟩
    | ok p' =>
      rw [hp, hp'] at heq
      cases heq
  | ok p =>
    cases hp' : gcParse g.gcState ws'.flatten with
    | error status' =>
      rw [hp, hp'] at heq
      cases heq
    | ok p' =>
      rw [hp, hp'] at heq
      cases heq
      exact Or.inl rfl

/-- `G1X5F9` and `F9X5G1` -/
theorem word_order_line :
    gcExecuteLine (α := ℚ) ⟨false, id⟩ ⟨parserZero, fun _ => none, []⟩
        [[0x47#8, 0x31#8], [0x58#8, 0x35#8], [0x46#8, 0x39#8]].flatten =
      gcExecuteLine (α := ℚ) ⟨false, id⟩ ⟨parserZero, fun _ => none, []⟩
        [[0x46#8, 0x39#8], [0x58#8, 0x35#8], [0x47#8, 0x31#8]].flatten ∨
    ∃ status status',
      gcExecuteLine (α := ℚ) ⟨false, id⟩ ⟨parserZero, fun _ => none, []⟩
          [[0x47#8, 0x31#8], [0x58#8, 0x35#8], [0x46#8, 0x39#8]].flatten =
        (some status, ⟨parserZero, fun _ => none, []⟩) ∧
      gcExecuteLine (α := ℚ) ⟨false, id⟩ ⟨parserZero, fun _ => none, []⟩
          [[0x46#8, 0x39#8], [0x58#8, 0x35#8], [0x47#8, 0x31#8]].flatten =
        (some status', ⟨parserZero, fun _ => none, []⟩) :=
  word_order _ _ _ _ (by decide +kernel) (by decide +kernel)
    (Reordered.of_perm (by decide) (by decide +kernel))

end PcbMill.Gcode
