import PcbMill.Core.CircularBuffer
import PcbMill.Lib.Binary32

/-!
# The spindle

The spindle is switched by PC9, the coolant by PC6 and PC7 of the same port.  Where it has to switch
the spindle on, `spindle_set_state` calls itself and not the routine of the board.  The calls nest
as deep as the stack allows: a call returns when some depth is enough for it.
-/

namespace PcbMill

open Binary32

/-- `GPIOC`, as far as the outputs go. -/
structure Gpioc where
  moder : BitVec 32
  odr : BitVec 32
  deriving DecidableEq

def spindlePc9Pos : ℕ := 9
def coolantFloodPc6Pos : ℕ := 6
def coolantMistPc7Pos : ℕ := 7

def moderBitCount : ℕ := 2
def moderMsk : BitVec 32 := 0b11#32
def moderOut : BitVec 32 := 0b01#32

def spindleDisable : Byte := 0#8
def spindleEnableCw : Byte := 1#8
def spindleEnableCcw : Byte := 2#8

/-- `GPIO_SET_MODE` -/
def gpioSetMode (g : Gpioc) (pinPos : ℕ) (mode : BitVec 32) : Gpioc :=
  { g with moder := g.moder &&& ~~~(moderMsk <<< (pinPos * moderBitCount)) |||
      mode <<< (pinPos * moderBitCount) }

def spindleStopHal (g : Gpioc) : Gpioc := { g with odr := g.odr &&& ~~~(1#32 <<< spindlePc9Pos) }

def spindleInitHal (g : Gpioc) : Gpioc := spindleStopHal (gpioSetMode g spindlePc9Pos moderOut)

/-- `coolant_stop` does nothing as yet. -/
def coolantStop (g : Gpioc) : Gpioc := g

/-- `spindle_set_state_hal`, which nothing calls. -/
def spindleSetStateHal (g : Gpioc) (state : Byte) (_rpm : BitVec 32) : Gpioc :=
  if state = spindleDisable then coolantStop g
  else { g with odr := g.odr ||| 1#32 <<< spindlePc9Pos }

def spindleStop (g : Gpioc) : Gpioc := spindleStopHal g

def spindleInit (g : Gpioc) : Gpioc := spindleStop (spindleInitHal g)

/-- `spindle_set_state` with room for `depth` calls on the stack. -/
def spindleSetState : ℕ → Gpioc → Byte → BitVec 32 → Option Gpioc
  | 0, _, _, _ => none
  | depth + 1, g, state, rpm =>
    if state = spindleDisable ∨ leZero rpm = true then some (spindleStop g)
    else spindleSetState depth g state rpm

/-! ### The law of the outputs -/

/-- The mode of a pin is that of an output. -/
def Gpioc.IsOutput (g : Gpioc) (pinPos : ℕ) : Prop :=
  (g.moder >>> (pinPos * moderBitCount)) &&& moderMsk = moderOut

/-- The arguments of a call of `spindle_set_state`. -/
structure SpindleCommand where
  state : Byte
  rpm : BitVec 32

def SpindleCommand.Enables (c : SpindleCommand) : Prop :=
  (c.state = spindleEnableCw ∨ c.state = spindleEnableCcw) ∧ gtZero c.rpm = true

/-- The spindle is on exactly when the command enables it, and the coolant is as before. -/
structure SpindleCommand.Outputs (c : SpindleCommand) (g g' : Gpioc) : Prop where
  output : g'.IsOutput spindlePc9Pos
  spindle : g'.odr.getLsbD spindlePc9Pos = true ↔ c.Enables
  flood : g'.odr.getLsbD coolantFloodPc6Pos = g.odr.getLsbD coolantFloodPc6Pos
  mist : g'.odr.getLsbD coolantMistPc7Pos = g.odr.getLsbD coolantMistPc7Pos

/-- Every call returns, and leaves the outputs of its command. -/
def SpindleLaw : Gpioc → List SpindleCommand → Prop
  | _, [] => True
  | g, c :: cs => ∃ depth g', spindleSetState depth g c.state c.rpm = some g' ∧ c.Outputs g g' ∧
      SpindleLaw g' cs

/-- The test of `spindle_set_state`. -/
def SpindleCommand.Stops (c : SpindleCommand) : Prop :=
  c.state = spindleDisable ∨ leZero c.rpm = true

variable {g g' : Gpioc} {c : SpindleCommand}

theorem spindleSetState_stops (h : c.Stops) (depth : ℕ) (g : Gpioc) :
    spindleSetState (depth + 1) g c.state c.rpm = some (spindleStop g) := if_pos h

/-- However deep the stack, a call on the other branch does not return. -/
theorem spindleSetState_not_stops (h : ¬ c.Stops) (depth : ℕ) (g : Gpioc) :
    spindleSetState depth g c.state c.rpm = none := by
  induction depth with
  | zero => rfl
  | succ depth ih => exact (if_neg h).trans ih

theorem SpindleCommand.Stops.not_enables (h : c.Stops) : ¬ c.Enables := by
  rintro ⟨hstate, hrpm⟩
  obtain hdisable | hle := h
  · rw [hdisable] at hstate
    revert hstate
    decide
  · rw [gtZero_of_leZero hle] at hrpm
    cases hrpm

theorem spindleStopHal_odr (g : Gpioc) (i : ℕ) (hi : i < 32) :
    (spindleStopHal g).odr.getLsbD i = (g.odr.getLsbD i && decide (i ≠ spindlePc9Pos)) := by
  interval_cases i <;> simp [spindleStopHal, spindlePc9Pos]

theorem spindleSetStateHal_odr (g : Gpioc) {state : Byte} (h : state ≠ spindleDisable)
    (rpm : BitVec 32) (i : ℕ) (hi : i < 32) :
    (spindleSetStateHal g state rpm).odr.getLsbD i =
      (g.odr.getLsbD i || decide (i = spindlePc9Pos)) := by
  simp only [spindleSetStateHal, if_neg h]
  interval_cases i <;> simp [spindlePc9Pos]

/-- No pin but that of the spindle has changed. -/
theorem outputs_of_frame (houtput : g'.IsOutput spindlePc9Pos)
    (hspindle : g'.odr.getLsbD spindlePc9Pos = true ↔ c.Enables)
    (hframe : ∀ i < 32, i ≠ spindlePc9Pos → g'.odr.getLsbD i = g.odr.getLsbD i) :
    c.Outputs g g' :=
  ⟨houtput, hspindle, hframe _ (by decide) (by decide), hframe _ (by decide) (by decide)⟩

/-- Stopping leaves the outputs of a command that stops. -/
theorem SpindleCommand.Stops.outputs (h : c.Stops) (hg : g.IsOutput spindlePc9Pos) :
    c.Outputs g (spindleStop g) := by
  refine outputs_of_frame hg (iff_of_false ?_ h.not_enables) fun i hi hne => ?_
  · rw [spindleStop, spindleStopHal_odr g _ (by decide)]
    simp
  · rw [spindleStop, spindleStopHal_odr g i hi, decide_eq_true hne, Bool.and_true]

/-- The routine of the board leaves those of a command that enables. -/
theorem SpindleCommand.Enables.outputs (h : c.Enables) (hg : g.IsOutput spindlePc9Pos) :
    c.Outputs g (spindleSetStateHal g c.state c.rpm) := by
  have hstate : c.state ≠ spindleDisable := by
    obtain heq | heq := h.1
    · rw [heq]
      decide
    · rw [heq]
      decide
  have hodr := spindleSetStateHal_odr g hstate c.rpm
  refine outputs_of_frame ?_ (iff_of_true ?_ h) fun i hi hne => ?_
  · simp only [spindleSetStateHal, if_neg hstate]
    exact hg
  · rw [hodr _ (by decide)]
    simp
  · rw [hodr i hi, decide_eq_false hne, Bool.or_false]

theorem spindleInit_isOutput (g : Gpioc) : (spindleInit g).IsOutput spindlePc9Pos := by
  show ((g.moder &&& ~~~(moderMsk <<< 18) ||| moderOut <<< 18) >>> 18) &&& moderMsk = moderOut
  apply BitVec.eq_of_getLsbD_eq
  intro i hi
  interval_cases i <;> simp [moderMsk, moderOut]

theorem spindleLaw_iff (cs : List SpindleCommand) :
    ∀ {g : Gpioc}, g.IsOutput spindlePc9Pos → (SpindleLaw g cs ↔ ∀ c ∈ cs, c.Stops) := by
  induction cs with
  | nil => simp [SpindleLaw]
  | cons c cs ih =>
    intro g hg
    rw [SpindleLaw, List.forall_mem_cons]
    constructor
    · rintro ⟨depth, g', hreturns, houtputs, hrest⟩
      refine ⟨?_, (ih houtputs.output).mp hrest⟩
      by_contra hstops
      rw [spindleSetState_not_stops hstops] at hreturns
      cases hreturns
    · rintro ⟨hc, hcs⟩
      have houtputs := hc.outputs hg
      exact ⟨1, spindleStop g, spindleSetState_stops hc 0 g, houtputs,
        (ih houtputs.output).mpr hcs⟩

/-- **The spindle** follows a list of commands after its initialisation exactly when none of them
gets past the test for a stop. -/
theorem spindle_law_iff (g : Gpioc) (cs : List SpindleCommand) :
    SpindleLaw (spindleInit g) cs ↔
      ∀ c ∈ cs, c.state = spindleDisable ∨ leZero c.rpm = true :=
  spindleLaw_iff cs (spindleInit_isOutput g)

/-- Clockwise with 1.0 does not return. -/
theorem spindle_cw_not_returning :
    (∀ depth, spindleSetState depth (spindleInit { moder := 0#32, odr := 0#32 }) spindleEnableCw
        0x3F800000#32 = none) ∧
      ¬ SpindleLaw (spindleInit { moder := 0#32, odr := 0#32 })
        [{ state := spindleEnableCw, rpm := 0x3F800000#32 }] := by
  have hstops : ¬ SpindleCommand.Stops { state := spindleEnableCw, rpm := 0x3F800000#32 } := by
    rw [SpindleCommand.Stops]
    decide
  refine ⟨fun depth => spindleSetState_not_stops hstops depth _, fun h => hstops ?_⟩
  exact (spindleLaw_iff _ (spindleInit_isOutput _)).mp h _ (List.mem_singleton.mpr rfl)

end PcbMill
