import PcbMill.GrblOriginal.Planner
import Mathlib.Algebra.Order.Round
import Mathlib.Data.Rat.Floor
import Mathlib.Data.Rat.Sqrt

/-!
# The G-code interpreter

`gc_execute_line` takes a line apart into words, each a letter with a number, checks them against
one another and the modes in force, and only then changes the state and has the motion carried out.

Of the numbers nothing is assumed.  Where the source computes in `double` and rounds to `float`, the
whole expression is one operation.  What a motion does is not modelled here: its calls are recorded,
and a probing cycle ends where `probe` says.
-/

namespace PcbMill.Gcode

/-- The operations of the interpreter on `float`. -/
class GcodeNumber (α : Type*) extends Zero α, Add α, Sub α, Neg α where
  /-- The conversion of a `uint32_t`. -/
  ofUInt32 : BitVec 32 → α
  /-- `x * 0.01`, `x * 0.1` and `x * 10.0` -/
  hundredth : α → α
  tenth : α → α
  tenfold : α → α
  /-- `x * MM_PER_INCH` -/
  inches : α → α
  /-- `x == y` -/
  same : α → α → Bool
  /-- `x < 0.0` -/
  negative : α → Bool
  /-- `trunc(x)` in a `uint8_t`, and in an `int32_t` -/
  toUInt8 : α → ℕ
  toInt32 : α → ℤ
  /-- `round(100*(x - trunc(x)))` in a `uint16_t`, where `trunc(x)` is that `uint8_t` -/
  mantissa : α → ℕ
  /-- `4.0*r*r - x*x - y*y` -/
  chord : α → α → α → α
  /-- `-sqrt(h)/hypot_f(x,y)` -/
  chordRatio : α → α → α → α
  /-- `0.5*(x-(y*h))` and `0.5*(y+(x*h))` -/
  centre0 : α → α → α → α
  centre1 : α → α → α → α
  hypot : α → α → α
  /-- `fabs(x-r) > 0.005`, and it is more than 0.5 or than `0.001*r`. -/
  offRadius : α → α → Bool

/-! ### Modes -/

/-- `NON_MODAL_…` -/
inductive NonModal where
  | noAction
  | dwell
  | setCoordinateData
  | goHome0
  | setHome0
  | goHome1
  | setHome1
  | absoluteOverride
  | setCoordinateOffset
  | resetCoordinateOffset
  deriving DecidableEq, Inhabited

/-- `MOTION_MODE_…` -/
inductive MotionMode where
  | seek
  | linear
  | cwArc
  | ccwArc
  | probeToward
  | probeTowardNoError
  | probeAway
  | probeAwayNoError
  | none
  deriving DecidableEq, Inhabited

inductive PlaneSelect where
  | xy
  | zx
  | yz
  deriving DecidableEq, Inhabited

inductive DistanceMode where
  | absolute
  | incremental
  deriving DecidableEq, Inhabited

inductive FeedRateMode where
  | unitsPerMin
  | inverseTime
  deriving DecidableEq, Inhabited

inductive UnitsMode where
  | mm
  | inches
  deriving DecidableEq, Inhabited

inductive ToolLengthOffset where
  | cancel
  | enableDynamic
  deriving DecidableEq, Inhabited

inductive ProgramFlow where
  | running
  | paused
  | completed
  deriving DecidableEq, Inhabited

inductive SpindleMode where
  | disable
  | enableCw
  | enableCcw
  deriving DecidableEq, Inhabited

/-- `ENABLE_M7` is not defined, so there is no mist. -/
inductive CoolantMode where
  | disable
  | floodEnable
  deriving DecidableEq, Inhabited

/-- `AXIS_COMMAND_…` -/
inductive AxisCommand where
  | none
  | nonModal
  | motionMode
  | toolLengthOffset
  deriving DecidableEq, Inhabited

/-- The statuses other than `STATUS_OK`. -/
inductive GcodeError where
  | expectedCommandLetter
  | badNumberFormat
  | negativeValue
  | settingReadFail
  | unsupportedCommand
  | modalGroupViolation
  | undefinedFeedRate
  | commandValueNotInteger
  | axisCommandConflict
  | wordRepeated
  | noAxisWords
  | invalidLineNumber
  | valueWordMissing
  | unsupportedCoordSys
  | g53InvalidMotionMode
  | axisWordsExist
  | noAxisWordsInPlane
  | invalidTarget
  | arcRadiusError
  | noOffsetsInPlane
  | unusedWords
  | g43DynamicAxisError
  deriving DecidableEq

/-- `gc_modal_t` -/
structure Modal where
  motion : MotionMode
  feedRate : FeedRateMode
  units : UnitsMode
  distance : DistanceMode
  planeSelect : PlaneSelect
  toolLength : ToolLengthOffset
  coordSelect : ℕ
  programFlow : ProgramFlow
  coolant : CoolantMode
  spindle : SpindleMode
  deriving DecidableEq, Inhabited

/-- A value for each axis. -/
abbrev Axes (α : Type*) := AxisIndex → α

/-- `gc_values_t` -/
structure Values (α : Type*) where
  f : α
  ijk : Axes α
  l : ℕ
  n : ℤ
  p : α
  r : α
  s : α
  t : ℕ
  xyz : Axes α

/-- `parser_state_t` -/
structure ParserState (α : Type*) where
  modal : Modal
  spindleSpeed : α
  feedRate : α
  tool : ℕ
  lineNumber : ℤ
  position : Axes α
  coordSystem : Axes α
  coordOffset : Axes α
  toolLengthOffset : α

/-- `parser_block_t` -/
structure ParserBlock (α : Type*) where
  nonModalCommand : NonModal
  modal : Modal
  values : Values α

/-- The block, with the variables of `gc_execute_line` that are set as its words are read. -/
structure Parse (α : Type*) where
  block : ParserBlock α
  axisCommand : AxisCommand
  axisWords : Byte
  ijkWords : Byte
  commandWords : BitVec 16
  valueWords : BitVec 16

def xAxis : AxisIndex := 0
def yAxis : AxisIndex := 1
def zAxis : AxisIndex := 2
def toolLengthOffsetAxis : AxisIndex := zAxis

def modalGroupG0 : ℕ := 0
def modalGroupG1 : ℕ := 1
def modalGroupG2 : ℕ := 2
def modalGroupG3 : ℕ := 3
def modalGroupG4 : ℕ := 4
def modalGroupG5 : ℕ := 5
def modalGroupG6 : ℕ := 6
def modalGroupG7 : ℕ := 7
def modalGroupG8 : ℕ := 8
def modalGroupG12 : ℕ := 9
def modalGroupG13 : ℕ := 10
def modalGroupM4 : ℕ := 11
def modalGroupM7 : ℕ := 12
def modalGroupM8 : ℕ := 13

def wordF : ℕ := 0
def wordI : ℕ := 1
def wordJ : ℕ := 2
def wordK : ℕ := 3
def wordL : ℕ := 4
def wordN : ℕ := 5
def wordP : ℕ := 6
def wordR : ℕ := 7
def wordS : ℕ := 8
def wordT : ℕ := 9
def wordX : ℕ := 10
def wordY : ℕ := 11
def wordZ : ℕ := 12

/-! ### Bits -/

/-- `bit(n)` -/
def bit (n : ℕ) : BitVec 16 := 1#16 <<< n

/-- `bit_istrue`, which cuts the mask to a `uint8_t`. -/
def bitIstrue {w : ℕ} (x : BitVec w) (mask : BitVec 16) : Bool :=
  x.setWidth 16 &&& (mask.setWidth 8).setWidth 16 ≠ 0#16

/-- `bit_isfalse`, which does not. -/
def bitIsfalse {w : ℕ} (x : BitVec w) (mask : BitVec 16) : Bool :=
  x.setWidth 16 &&& mask = 0#16

/-- `bit_false` -/
def bitFalse (x mask : BitVec 16) : BitVec 16 := x &&& ~~~mask

/-! ### Numbers -/

/-- `MAX_INT_DIGITS` -/
def maxIntDigits : ℕ := 8

/-- The variables of the loop of `read_float`. -/
structure Digits where
  intval : BitVec 32
  exp : ℤ
  ndigit : ℕ
  isdecimal : Bool

/-- A digit: those behind the eighth only count. -/
def Digits.digit (d : Digits) (c : Byte) : Digits :=
  if d.ndigit + 1 ≤ maxIntDigits then
    { d with
      ndigit := d.ndigit + 1
      exp := if d.isdecimal then d.exp - 1 else d.exp
      intval := (((d.intval <<< 2) + d.intval) <<< 1) + c.setWidth 32 }
  else
    { d with
      ndigit := d.ndigit + 1
      exp := if d.isdecimal then d.exp else d.exp + 1 }

/-- The loop of `read_float`: its variables, and what is left of the line. -/
def readDigits (d : Digits) : List Byte → Digits × List Byte
  | [] => (d, [])
  | c :: line =>
    if c - 0x30#8 ≤ 9#8 then readDigits (d.digit (c - 0x30#8)) line
    else if c - 0x30#8 = 0x2E#8 - 0x30#8 ∧ d.isdecimal = false then
      readDigits { d with isdecimal := true } line
    else (d, c :: line)

section Numbers

variable {α : Type*} [GcodeNumber α]

open GcodeNumber

/-- `fval` with the point moved `n` places to the left. -/
def scaleDown (fval : α) : ℕ → α
  | 0 => fval
  | 1 => tenth fval
  | n + 2 => scaleDown (hundredth fval) n

/-- `fval` with the point moved `n` places to the right. -/
def scaleUp (fval : α) : ℕ → α
  | 0 => fval
  | n + 1 => scaleUp (tenfold fval) n

def applyExp (fval : α) (exp : ℤ) : α :=
  if same fval 0 then fval
  else if exp < 0 then scaleDown fval exp.natAbs
  else scaleUp fval exp.natAbs

/-- `read_float`: the number, and what is left of the line. -/
def readFloat (line : List Byte) : Option (α × List Byte) :=
  let isnegative := line.head? = some 0x2D#8
  let line := if line.head? = some 0x2D#8 ∨ line.head? = some 0x2B#8 then line.tail else line
  let (d, line) := readDigits ⟨0#32, 0, 0, false⟩ line
  if d.ndigit = 0 then none
  else
    let fval : α := applyExp (ofUInt32 d.intval) d.exp
    some (if isnegative then -fval else fval, line)

end Numbers

/-! ### Words -/

section Words

variable {α : Type*}

/-- The command treats axis words, which only one of a line may do. -/
def claimAxis (p : Parse α) (command : AxisCommand) : Except GcodeError (Parse α) :=
  if p.axisCommand ≠ .none then .error .axisCommandConflict
  else .ok { p with axisCommand := command }

def setNonModal (p : Parse α) (command : NonModal) : Parse α :=
  { p with block.nonModalCommand := command }

def setMotion (p : Parse α) (motion : MotionMode) : Parse α :=
  { p with block.modal.motion := motion }

/-- A command of group 0 that is something else with `.1` behind it: G28, G30 and G92. -/
def pointOne (p : Parse α) (mantissa : ℕ) (plain one : NonModal) :
    Except GcodeError (Parse α × ℕ × ℕ) :=
  match mantissa with
  | 0 => (claimAxis p .nonModal).map fun p => (setNonModal p plain, modalGroupG0, 0)
  | 10 => .ok (setNonModal p one, modalGroupG0, 0)
  | _ => .error .unsupportedCommand

/-- G38.2 to G38.5 -/
def probeMotion : ℕ → Except GcodeError MotionMode
  | 20 => .ok .probeToward
  | 30 => .ok .probeTowardNoError
  | 40 => .ok .probeAway
  | 50 => .ok .probeAwayNoError
  | _ => .error .unsupportedCommand

/-- What the G command sets, with its modal group and what is left of its mantissa. -/
def gCommand (p : Parse α) (intValue mantissa : ℕ) : Except GcodeError (Parse α × ℕ × ℕ) :=
  match intValue with
  | 10 =>
    (if mantissa = 0 then claimAxis p .nonModal else .ok p).map fun p =>
      (setNonModal p .setCoordinateData, modalGroupG0, mantissa)
  | 28 => pointOne p mantissa .goHome0 .setHome0
  | 30 => pointOne p mantissa .goHome1 .setHome1
  | 92 => pointOne p mantissa .setCoordinateOffset .resetCoordinateOffset
  | 4 => .ok (setNonModal p .dwell, modalGroupG0, mantissa)
  | 53 => .ok (setNonModal p .absoluteOverride, modalGroupG0, mantissa)
  | 0 => (claimAxis p .motionMode).map fun p => (setMotion p .seek, modalGroupG1, mantissa)
  | 1 => (claimAxis p .motionMode).map fun p => (setMotion p .linear, modalGroupG1, mantissa)
  | 2 => (claimAxis p .motionMode).map fun p => (setMotion p .cwArc, modalGroupG1, mantissa)
  | 3 => (claimAxis p .motionMode).map fun p => (setMotion p .ccwArc, modalGroupG1, mantissa)
  | 38 => (claimAxis p .motionMode).bind fun p =>
    (probeMotion mantissa).map fun motion => (setMotion p motion, modalGroupG1, 0)
  | 80 => .ok (setMotion p .none, modalGroupG1, mantissa)
  | 17 => .ok ({ p with block.modal.planeSelect := .xy }, modalGroupG2, mantissa)
  | 18 => .ok ({ p with block.modal.planeSelect := .zx }, modalGroupG2, mantissa)
  | 19 => .ok ({ p with block.modal.planeSelect := .yz }, modalGroupG2, mantissa)
  | 90 =>
    if mantissa = 0 then .ok ({ p with block.modal.distance := .absolute }, modalGroupG3, mantissa)
    else .error .unsupportedCommand
  | 91 =>
    if mantissa = 0 then
      .ok ({ p with block.modal.distance := .incremental }, modalGroupG3, mantissa)
    else if mantissa ≠ 10 then .error .unsupportedCommand
    else .ok (p, modalGroupG4, 0)
  | 93 => .ok ({ p with block.modal.feedRate := .inverseTime }, modalGroupG5, mantissa)
  | 94 => .ok ({ p with block.modal.feedRate := .unitsPerMin }, modalGroupG5, mantissa)
  | 20 => .ok ({ p with block.modal.units := .inches }, modalGroupG6, mantissa)
  | 21 => .ok ({ p with block.modal.units := .mm }, modalGroupG6, mantissa)
  | 40 => .ok (p, modalGroupG7, mantissa)
  | 43 => (claimAxis p .toolLengthOffset).bind fun p =>
    if mantissa = 10 then
      .ok ({ p with block.modal.toolLength := .enableDynamic }, modalGroupG8, 0)
    else .error .unsupportedCommand
  | 49 => (claimAxis p .toolLengthOffset).map fun p =>
    ({ p with block.modal.toolLength := .cancel }, modalGroupG8, 0)
  | 61 => if mantissa ≠ 0 then .error .unsupportedCommand else .ok (p, modalGroupG13, mantissa)
  | _ =>
    if 54 ≤ intValue ∧ intValue ≤ 59 then
      .ok ({ p with block.modal.coordSelect := intValue - 54 }, modalGroupG12, mantissa)
    else .error .unsupportedCommand

/-- What the M command sets, with its modal group. -/
def mCommand (p : Parse α) (intValue : ℕ) : Except GcodeError (Parse α × ℕ) :=
  match intValue with
  | 0 => .ok ({ p with block.modal.programFlow := .paused }, modalGroupM4)
  | 1 => .ok (p, modalGroupM4)
  | 2 => .ok ({ p with block.modal.programFlow := .completed }, modalGroupM4)
  | 30 => .ok ({ p with block.modal.programFlow := .completed }, modalGroupM4)
  | 3 => .ok ({ p with block.modal.spindle := .enableCw }, modalGroupM7)
  | 4 => .ok ({ p with block.modal.spindle := .enableCcw }, modalGroupM7)
  | 5 => .ok ({ p with block.modal.spindle := .disable }, modalGroupM7)
  | 8 => .ok ({ p with block.modal.coolant := .floodEnable }, modalGroupM8)
  | 9 => .ok ({ p with block.modal.coolant := .disable }, modalGroupM8)
  | _ => .error .unsupportedCommand

/-- Only one command of a modal group may be in a line. -/
def flagCommand (p : Parse α) (wordBit : ℕ) : Except GcodeError (Parse α) :=
  if bitIstrue p.commandWords (bit wordBit) then .error .modalGroupViolation
  else .ok { p with commandWords := p.commandWords ||| bit wordBit }

def setIjk (p : Parse α) (idx : AxisIndex) (value : α) : Parse α :=
  { p with
    block.values.ijk := Function.update p.block.values.ijk idx value
    ijkWords := p.ijkWords ||| 1#8 <<< idx.val }

def setXyz (p : Parse α) (idx : AxisIndex) (value : α) : Parse α :=
  { p with
    block.values.xyz := Function.update p.block.values.xyz idx value
    axisWords := p.axisWords ||| 1#8 <<< idx.val }

variable [GcodeNumber α]

open GcodeNumber

/-- The value of a word that is no command, with its bit. -/
def setValue (p : Parse α) (letter : Byte) (value : α) : Except GcodeError (Parse α × ℕ) :=
  match letter.toNat with
  | 0x46 => .ok ({ p with block.values.f := value }, wordF)
  | 0x49 => .ok (setIjk p xAxis value, wordI)
  | 0x4A => .ok (setIjk p yAxis value, wordJ)
  | 0x4B => .ok (setIjk p zAxis value, wordK)
  | 0x4C => .ok ({ p with block.values.l := toUInt8 value }, wordL)
  | 0x4E => .ok ({ p with block.values.n := toInt32 value }, wordN)
  | 0x50 => .ok ({ p with block.values.p := value }, wordP)
  | 0x52 => .ok ({ p with block.values.r := value }, wordR)
  | 0x53 => .ok ({ p with block.values.s := value }, wordS)
  | 0x54 => .ok (p, wordT)
  | 0x58 => .ok (setXyz p xAxis value, wordX)
  | 0x59 => .ok (setXyz p yAxis value, wordY)
  | 0x5A => .ok (setXyz p zAxis value, wordZ)
  | _ => .error .unsupportedCommand

/-- The words whose value must not be negative. -/
def nonNegativeWords : BitVec 16 := bit wordF ||| bit wordN ||| bit wordP ||| bit wordT ||| bit wordS

/-- A word must not be repeated, and some not be negative. -/
def flagValue (p : Parse α) (wordBit : ℕ) (value : α) : Except GcodeError (Parse α) :=
  if bitIstrue p.valueWords (bit wordBit) then .error .wordRepeated
  else if bit wordBit &&& nonNegativeWords ≠ 0#16 ∧ negative value = true then
    .error .negativeValue
  else .ok { p with valueWords := p.valueWords ||| bit wordBit }

/-- The body of the loop, for the letter and the number that have been read. -/
def gcWord (p : Parse α) (letter : Byte) (value : α) : Except GcodeError (Parse α) :=
  if letter = 0x47#8 then
    (gCommand p (toUInt8 value) (mantissa value)).bind fun (p, wordBit, mantissa) =>
      if 0 < mantissa then .error .commandValueNotInteger else flagCommand p wordBit
  else if letter = 0x4D#8 then
    if 0 < mantissa value then .error .commandValueNotInteger
    else (mCommand p (toUInt8 value)).bind fun (p, wordBit) => flagCommand p wordBit
  else (setValue p letter value).bind fun (p, wordBit) => flagValue p wordBit value

/-- The loop over the words, with `fuel` for its rounds. -/
def gcWords : ℕ → Parse α → List Byte → Except GcodeError (Parse α)
  | 0, p, _ => .ok p
  | _ + 1, p, [] => .ok p
  | fuel + 1, p, letter :: line =>
    if letter < 0x41#8 ∨ 0x5A#8 < letter then .error .expectedCommandLetter
    else match readFloat line with
      | none => .error .badNumberFormat
      | some (value, line) => (gcWord p letter value).bind fun p => gcWords fuel p line

/-- The variables before the loop. -/
def parseStart (s : ParserState α) : Parse α where
  block :=
    { nonModalCommand := .noAction
      modal := s.modal
      values :=
        { f := 0, ijk := fun _ => 0, l := 0, n := 0, p := 0, r := 0, s := 0, t := 0,
          xyz := fun _ => 0 } }
  axisCommand := .none
  axisWords := 0#8
  ijkWords := 0#8
  commandWords := 0#16
  valueWords := 0#16

/-- The words of a line: every round takes a letter at least. -/
def gcParse (s : ParserState α) (line : List Byte) : Except GcodeError (Parse α) :=
  gcWords line.length (parseStart s) line

end Words

/-! ### Checks -/

def maxLineNumber : ℤ := 9999999

def nCoordinateSystem : ℕ := 6
def settingIndexG28 : ℕ := nCoordinateSystem
def settingIndexG30 : ℕ := nCoordinateSystem + 1

/-- The coordinate data in the EEPROM, by their index, where the checksum fits. -/
abbrev CoordStore (α : Type*) := ℕ → Option (Axes α)

section Checks

variable {α : Type*} [GcodeNumber α]

open GcodeNumber

def settingsWriteCoordData (store : CoordStore α) (coordSelect : ℕ) (data : Axes α) :
    CoordStore α := Function.update store coordSelect (some data)

/-- A check that reads the store fails with what it leaves of it. -/
abbrev StoreCheck (α β : Type*) := Except (GcodeError × CoordStore α) β

/-- `settings_read_coord_data`, which writes zeros over data it cannot read.  The callers give up
then. -/
def readCoordData (store : CoordStore α) (coordSelect : ℕ) : StoreCheck α (Axes α) :=
  match store coordSelect with
  | some data => .ok data
  | none => .error (.settingReadFail, settingsWriteCoordData store coordSelect fun _ => 0)

def gcCheckSamePosition (a b : Axes α) : Bool := (List.finRange 3).all fun idx => same (a idx) (b idx)

/-- `bit_istrue(axis_words,bit(idx))` -/
def Parse.hasAxis (p : Parse α) (idx : AxisIndex) : Bool := bitIstrue p.axisWords (bit idx.val)

def Parse.hasWord (p : Parse α) (wordBit : ℕ) : Bool := bitIstrue p.valueWords (bit wordBit)

def Parse.lacksWord (p : Parse α) (wordBit : ℕ) : Bool := bitIsfalse p.valueWords (bit wordBit)

/-- Axis words without a command are those of the motion mode. -/
def implicitAxisCommand (p : Parse α) : Parse α :=
  if p.axisWords ≠ 0#8 ∧ p.axisCommand = .none then { p with axisCommand := .motionMode } else p

def checkLineNumber (p : Parse α) : Except GcodeError (Parse α) :=
  if p.hasWord wordN ∧ maxLineNumber < p.block.values.n then .error .invalidLineNumber else .ok p

/-- [2], [3]: the feed rate mode and the feed rate.  That the motion mode is other than none or
other than a seek is always so. -/
def checkFeedRate (s : ParserState α) (p : Parse α) : Except GcodeError (Parse α) :=
  match p.block.modal.feedRate with
  | .inverseTime =>
    if p.axisCommand = .motionMode ∧
        (p.block.modal.motion ≠ .none ∨ p.block.modal.motion ≠ .seek) ∧
        p.lacksWord wordF = true then
      .error .undefinedFeedRate
    else .ok p
  | .unitsPerMin =>
    .ok (if s.modal.feedRate = .unitsPerMin then
      if p.hasWord wordF then
        if p.block.modal.units = .inches then
          { p with block.values.f := inches p.block.values.f }
        else p
      else { p with block.values.f := s.feedRate }
    else p)

/-- [4] -/
def keepSpindleSpeed (s : ParserState α) (p : Parse α) : Parse α :=
  if p.lacksWord wordS then { p with block.values.s := s.spindleSpeed } else p

/-- [10] -/
def checkDwell (p : Parse α) : Except GcodeError (Parse α) :=
  if p.block.nonModalCommand = .dwell then
    if p.lacksWord wordP then .error .valueWordMissing
    else .ok { p with valueWords := bitFalse p.valueWords (bit wordP) }
  else .ok p

/-- [11]: the axes of the plane, and the one across it. -/
def planeAxes : PlaneSelect → AxisIndex × AxisIndex × AxisIndex
  | .xy => (xAxis, yAxis, zAxis)
  | .zx => (zAxis, xAxis, yAxis)
  | .yz => (yAxis, zAxis, xAxis)

/-- [12] -/
def convertXyz (p : Parse α) : Parse α :=
  if p.block.modal.units = .inches then
    { p with block.values.xyz := fun idx =>
        if p.hasAxis idx then inches (p.block.values.xyz idx) else p.block.values.xyz idx }
  else p

/-- [14] -/
def checkToolLength (p : Parse α) : Except GcodeError (Parse α) :=
  if p.axisCommand = .toolLengthOffset ∧ p.block.modal.toolLength = .enableDynamic ∧
      p.axisWords ^^^ 1#8 <<< toolLengthOffsetAxis.val ≠ 0#8 then
    .error .g43DynamicAxisError
  else .ok p

/-- [15]: the offsets of the coordinate system selected. -/
def checkCoordSystem (s : ParserState α) (store : CoordStore α) (p : Parse α) :
    StoreCheck α (Axes α) :=
  if bitIstrue p.commandWords (bit modalGroupG12) then
    if nCoordinateSystem < p.block.modal.coordSelect then .error (.unsupportedCoordSys, store)
    else if s.modal.coordSelect ≠ p.block.modal.coordSelect then
      readCoordData store p.block.modal.coordSelect
    else .ok s.coordSystem
  else .ok s.coordSystem

/-- What the checks leave to be carried out. -/
structure Checked (α : Type*) where
  parse : Parse α
  coordinateData : Axes α
  coordSelect : ℕ
  parameterData : Axes α

/-- `[idx == TOOL_LENGTH_OFFSET_AXIS]` -/
def lessToolLength (s : ParserState α) (idx : AxisIndex) (x : α) : α :=
  if idx = toolLengthOffsetAxis then x - s.toolLengthOffset else x

/-- [19]: G10 -/
def checkSetCoordinateData (s : ParserState α) (store : CoordStore α) (coordinateData : Axes α)
    (p : Parse α) : StoreCheck α (Checked α) :=
  let v := p.block.values
  if p.axisWords = 0#8 then .error (.noAxisWords, store)
  else if bitIsfalse p.valueWords (bit wordP ||| bit wordL) then .error (.valueWordMissing, store)
  else if nCoordinateSystem < toUInt8 v.p then .error (.unsupportedCoordSys, store)
  else if v.l ≠ 20 ∧ (v.l = 2 → p.hasWord wordR = true) then .error (.unsupportedCommand, store)
  else
    let p := { p with valueWords := bitFalse p.valueWords (bit wordL ||| bit wordP) }
    let coordSelect := if 0 < toUInt8 v.p then toUInt8 v.p - 1 else p.block.modal.coordSelect
    (readCoordData store coordSelect).map fun data =>
      { parse := p
        coordinateData := coordinateData
        coordSelect := coordSelect
        parameterData := fun idx =>
          if p.hasAxis idx then
            if v.l = 20 then
              lessToolLength s idx (s.position idx - s.coordOffset idx - v.xyz idx)
            else v.xyz idx
          else data idx }

/-- [19]: G92 -/
def setCoordinateOffset (s : ParserState α) (coordinateData : Axes α) (p : Parse α) : Parse α :=
  { p with block.values.xyz := fun idx =>
      if p.hasAxis idx then
        lessToolLength s idx (s.position idx - coordinateData idx - p.block.values.xyz idx)
      else s.coordOffset idx }

/-- [19]: the target in machine coordinates. -/
def setTarget (s : ParserState α) (coordinateData : Axes α) (p : Parse α) : Parse α :=
  if p.axisCommand ≠ .toolLengthOffset ∧ p.axisWords ≠ 0#8 then
    { p with block.values.xyz := fun idx =>
        let x := p.block.values.xyz idx
        if p.hasAxis idx = false then s.position idx
        else if p.block.nonModalCommand = .absoluteOverride then x
        else if p.block.modal.distance = .absolute then
          let x := x + (coordinateData idx + s.coordOffset idx)
          if idx = toolLengthOffsetAxis then x + s.toolLengthOffset else x
        else x + s.position idx }
  else p

/-- G28 and G30 without axis words have no motion before. -/
def dropAxisCommand (p : Parse α) : Parse α :=
  if p.axisWords = 0#8 then { p with axisCommand := .none } else p

/-- [19]: the commands that are not modal. -/
def checkNonModal (s : ParserState α) (store : CoordStore α) (coordinateData : Axes α)
    (p : Parse α) : StoreCheck α (Checked α) :=
  match p.block.nonModalCommand with
  | .setCoordinateData => checkSetCoordinateData s store coordinateData p
  | .setCoordinateOffset =>
    if p.axisWords = 0#8 then .error (.noAxisWords, store)
    else .ok ⟨setCoordinateOffset s coordinateData p, coordinateData, 0, fun _ => 0⟩
  | .goHome0 => (readCoordData store settingIndexG28).map fun data =>
    ⟨dropAxisCommand (setTarget s coordinateData p), coordinateData, 0, data⟩
  | .goHome1 => (readCoordData store settingIndexG30).map fun data =>
    ⟨dropAxisCommand (setTarget s coordinateData p), coordinateData, 0, data⟩
  | .absoluteOverride =>
    if p.block.modal.motion = .seek ∨ p.block.modal.motion = .linear then
      .ok ⟨setTarget s coordinateData p, coordinateData, 0, fun _ => 0⟩
    else .error (.g53InvalidMotionMode, store)
  | _ => .ok ⟨setTarget s coordinateData p, coordinateData, 0, fun _ => 0⟩

/-- [20]: an arc given by its radius. -/
def checkArcRadius (s : ParserState α) (p : Parse α) (axis0 axis1 : AxisIndex) (x y : α) :
    Except GcodeError (Parse α) :=
  if gcCheckSamePosition s.position p.block.values.xyz then .error .invalidTarget
  else
    let r := if p.block.modal.units = .inches then inches p.block.values.r else p.block.values.r
    if negative (chord r x y) then .error .arcRadiusError
    else
      let h := chordRatio (chord r x y) x y
      let h := if p.block.modal.motion = .ccwArc then -h else h
      let h := if negative r then -h else h
      .ok { p with
        valueWords := bitFalse p.valueWords (bit wordR)
        block.values.r := if negative r then -r else r
        block.values.ijk := Function.update
          (Function.update p.block.values.ijk axis0 (centre0 x y h)) axis1 (centre1 x y h) }

/-- [20]: an arc given by its centre. -/
def checkArcCentre (p : Parse α) (axis0 axis1 : AxisIndex) (x y : α) :
    Except GcodeError (Parse α) :=
  if bitIsfalse p.ijkWords (bit axis0.val ||| bit axis1.val) then .error .noOffsetsInPlane
  else
    let ijk : Axes α := fun idx =>
      if p.block.modal.units = .inches ∧ bitIsfalse p.ijkWords (bit idx.val) = false then
        inches (p.block.values.ijk idx)
      else p.block.values.ijk idx
    let targetR := hypot (x - ijk axis0) (y - ijk axis1)
    let r := hypot (ijk axis0) (ijk axis1)
    if offRadius targetR r then .error .invalidTarget
    else .ok { p with
      valueWords := bitFalse p.valueWords (bit wordI ||| bit wordJ ||| bit wordK)
      block.values.ijk := ijk
      block.values.r := r }

/-- [20]: G2 and G3 -/
def checkArc (s : ParserState α) (p : Parse α) : Except GcodeError (Parse α) :=
  let (axis0, axis1, _) := planeAxes p.block.modal.planeSelect
  if p.axisWords = 0#8 then .error .noAxisWords
  else if bitIsfalse p.axisWords (bit axis0.val ||| bit axis1.val) then .error .noAxisWordsInPlane
  else
    let x := p.block.values.xyz axis0 - s.position axis0
    let y := p.block.values.xyz axis1 - s.position axis1
    if p.valueWords &&& bit wordR ≠ 0#16 then checkArcRadius s p axis0 axis1 x y
    else checkArcCentre p axis0 axis1 x y

/-- [20]: the motion modes. -/
def checkMotion (s : ParserState α) (p : Parse α) : Except GcodeError (Parse α) :=
  if p.block.modal.motion = .none then
    if p.axisWords ≠ 0#8 ∧ p.axisCommand ≠ .nonModal then .error .axisWordsExist else .ok p
  else if p.axisCommand = .motionMode then
    match p.block.modal.motion with
    | .seek => .ok (dropAxisCommand p)
    | motion =>
      if same p.block.values.f 0 then .error .undefinedFeedRate
      else match motion with
        | .linear => .ok (dropAxisCommand p)
        | .cwArc | .ccwArc => checkArc s p
        | _ =>
          if p.axisWords = 0#8 then .error .noAxisWords
          else if gcCheckSamePosition s.position p.block.values.xyz then .error .invalidTarget
          else .ok p
  else .ok p

/-- Every value word has to be used. -/
def checkUnused (p : Parse α) : Except GcodeError (Parse α) :=
  let words := bitFalse p.valueWords (bit wordN ||| bit wordF ||| bit wordS ||| bit wordT)
  let words := if p.axisCommand ≠ .none then bitFalse words (bit wordX ||| bit wordY ||| bit wordZ)
    else words
  if words ≠ 0#16 then .error .unusedWords else .ok { p with valueWords := words }

/-- The checks up to [14]. -/
def checkModes (s : ParserState α) (p : Parse α) : Except GcodeError (Parse α) := do
  let p ← checkLineNumber (implicitAxisCommand p)
  let p ← checkFeedRate s p
  let p ← checkDwell (keepSpindleSpeed s p)
  checkToolLength (convertXyz p)

/-- The checks from [20] on. -/
def checkActions (s : ParserState α) (p : Parse α) : Except GcodeError (Parse α) := do
  let p ← checkMotion s p
  checkUnused p

/-- A check that does not read the store leaves it as it is. -/
def withStore {β : Type*} (store : CoordStore α) : Except GcodeError β → StoreCheck α β
  | .ok b => .ok b
  | .error e => .error (e, store)

/-- All of the checks. -/
def gcCheck (s : ParserState α) (store : CoordStore α) (p : Parse α) : StoreCheck α (Checked α) := do
  let p ← withStore store (checkModes s p)
  let coordinateData ← checkCoordSystem s store p
  let c ← checkNonModal s store coordinateData p
  let p ← withStore store (checkActions s c.parse)
  return { c with parse := p }

end Checks

/-! ### Execution -/

/-- What the interpreter has others do. -/
inductive McCall (α : Type*) where
  /-- `mc_line` with the feed rate of a seek. -/
  | seek (target : Axes α)
  | line (target : Axes α) (feedRate : α) (invertFeedRate : Bool)
  | arc (position target offset : Axes α) (radius feedRate : α) (invertFeedRate : Bool)
      (axis0 axis1 axisLinear : AxisIndex) (isClockwise : Bool)
  | probeCycle (target : Axes α) (feedRate : α) (invertFeedRate isProbeAway isNoError : Bool)
  | dwell (seconds : α)
  | spindleRun (state : SpindleMode) (rpm : α)
  | coolantRun (mode : CoolantMode)
  | bufferSynchronize
  | feedHold
  | spindleStop
  | coolantStop
  | programEnd

/-- The state of the interpreter, the coordinate data in the EEPROM, and what was called. -/
structure Interpreter (α : Type*) where
  gcState : ParserState α
  store : CoordStore α
  calls : List (McCall α)

/-- What comes from the rest of the system: whether the check mode is on, and the position in which
a probing cycle for a target ends. -/
structure Surroundings (α : Type*) where
  checkMode : Bool
  probe : Axes α → Axes α

section Execution

variable {α : Type*} [GcodeNumber α]

open GcodeNumber

def Interpreter.call (g : Interpreter α) (c : McCall α) : Interpreter α :=
  { g with calls := g.calls ++ [c] }

/-- [0] to [10] -/
def executeSettings (g : Interpreter α) (b : ParserBlock α) : Interpreter α :=
  let s := g.gcState
  let g := { g with gcState := { s with
    lineNumber := b.values.n, modal.feedRate := b.modal.feedRate, feedRate := b.values.f } }
  let g := if same s.spindleSpeed b.values.s then g
    else
      let g := if s.modal.spindle ≠ .disable then g.call (.spindleRun s.modal.spindle b.values.s)
        else g
      { g with gcState.spindleSpeed := b.values.s }
  let g := { g with gcState.tool := b.values.t }
  let g := if s.modal.spindle = b.modal.spindle then g
    else { g.call (.spindleRun b.modal.spindle g.gcState.spindleSpeed) with
      gcState := { g.gcState with modal.spindle := b.modal.spindle } }
  let g := if s.modal.coolant = b.modal.coolant then g
    else { g.call (.coolantRun b.modal.coolant) with
      gcState := { g.gcState with modal.coolant := b.modal.coolant } }
  if b.nonModalCommand = .dwell then g.call (.dwell b.values.p) else g

/-- [11] to [17] -/
def executeModes (s : ParserState α) (c : Checked α) : ParserState α :=
  let b := c.parse.block
  let s := { s with modal.planeSelect := b.modal.planeSelect, modal.units := b.modal.units }
  let s := if c.parse.axisCommand = .toolLengthOffset then
      { s with
        modal.toolLength := b.modal.toolLength
        toolLengthOffset := if b.modal.toolLength = .enableDynamic
          then b.values.xyz toolLengthOffsetAxis else 0 }
    else s
  let s := if s.modal.coordSelect = b.modal.coordSelect then s
    else { s with modal.coordSelect := b.modal.coordSelect, coordSystem := c.coordinateData }
  { s with modal.distance := b.modal.distance }

/-- [19] -/
def executeNonModal (g : Interpreter α) (c : Checked α) : Interpreter α :=
  let b := c.parse.block
  let goHome : Interpreter α :=
    let g := if c.parse.axisCommand ≠ .none then g.call (.seek b.values.xyz) else g
    { g.call (.seek c.parameterData) with
      gcState := { g.gcState with position := c.parameterData } }
  match b.nonModalCommand with
  | .setCoordinateData =>
    { g with
      store := settingsWriteCoordData g.store c.coordSelect c.parameterData
      gcState.coordSystem := if g.gcState.modal.coordSelect = c.coordSelect then c.parameterData
        else g.gcState.coordSystem }
  | .goHome0 | .goHome1 => goHome
  | .setHome0 =>
    { g with store := settingsWriteCoordData g.store settingIndexG28 g.gcState.position }
  | .setHome1 =>
    { g with store := settingsWriteCoordData g.store settingIndexG30 g.gcState.position }
  | .setCoordinateOffset => { g with gcState.coordOffset := b.values.xyz }
  | .resetCoordinateOffset => { g with gcState.coordOffset := fun _ => 0 }
  | _ => g

/-- [20]: the call of the motion mode. -/
def motionCall (s : ParserState α) (b : ParserBlock α) (motion : MotionMode) : McCall α :=
  let target := b.values.xyz
  let invertFeedRate : Bool := s.modal.feedRate = .inverseTime
  let (axis0, axis1, axisLinear) := planeAxes b.modal.planeSelect
  match motion with
  | .linear => .line target s.feedRate invertFeedRate
  | .cwArc => .arc s.position target b.values.ijk b.values.r s.feedRate invertFeedRate axis0 axis1
      axisLinear true
  | .ccwArc => .arc s.position target b.values.ijk b.values.r s.feedRate invertFeedRate axis0 axis1
      axisLinear false
  | .probeToward => .probeCycle target s.feedRate invertFeedRate false false
  | .probeTowardNoError => .probeCycle target s.feedRate invertFeedRate false true
  | .probeAway => .probeCycle target s.feedRate invertFeedRate true false
  | .probeAwayNoError => .probeCycle target s.feedRate invertFeedRate true true
  | _ => .seek target

/-- The motion ends at its target, or where the probe says. -/
def McCall.endPosition (e : Surroundings α) (target : Axes α) : McCall α → Axes α
  | .probeCycle .. => if e.checkMode then target else e.probe target
  | _ => target

/-- [20] -/
def executeMotion (e : Surroundings α) (g : Interpreter α) (c : Checked α) : Interpreter α :=
  let b := c.parse.block
  let g := { g with gcState.modal.motion := b.modal.motion }
  if b.modal.motion ≠ .none ∧ c.parse.axisCommand = .motionMode then
    let call := motionCall g.gcState b b.modal.motion
    { g.call call with gcState := { g.gcState with
      position := call.endPosition e b.values.xyz } }
  else g

/-- The modes behind the end of a program. -/
def programEndModal (modal : Modal) : Modal :=
  { modal with
    motion := .linear, planeSelect := .xy, distance := .absolute, feedRate := .unitsPerMin
    coordSelect := 0, spindle := .disable, coolant := .disable }

/-- [21]: the program flow, with the status. -/
def executeFlow (e : Surroundings α) (g : Interpreter α) (flow : ProgramFlow) :
    Option GcodeError × Interpreter α :=
  match flow with
  | .running => (none, { g with gcState.modal.programFlow := .running })
  | .paused =>
    let g := g.call .bufferSynchronize
    let g := if e.checkMode then g else g.call .feedHold
    (none, { g with gcState.modal.programFlow := .running })
  | .completed =>
    let g := g.call .bufferSynchronize
    let g := { g with gcState.modal := programEndModal { g.gcState.modal with
      programFlow := .completed } }
    if e.checkMode then
      (none, { g.call .programEnd with gcState := { g.gcState with
        modal.programFlow := .running } })
    else match readCoordData g.store 0 with
      | .error (status, store) => (some status, { g with store := store })
      | .ok data =>
        let g := { g with gcState.coordSystem := data }
        let g := ((g.call .spindleStop).call .coolantStop).call .programEnd
        (none, { g with gcState.modal.programFlow := .running })

def gcExecute (e : Surroundings α) (g : Interpreter α) (c : Checked α) :
    Option GcodeError × Interpreter α :=
  let g := executeSettings g c.parse.block
  let g := { g with gcState := executeModes g.gcState c }
  let g := executeMotion e (executeNonModal g c) c
  executeFlow e g c.parse.block.modal.programFlow

/-- `gc_execute_line`: its status, where `none` is `STATUS_OK`, and what is behind it. -/
def gcExecuteLine (e : Surroundings α) (g : Interpreter α) (line : List Byte) :
    Option GcodeError × Interpreter α :=
  match gcParse g.gcState line with
  | .error status => (some status, g)
  | .ok p => match gcCheck g.gcState g.store p with
    | .error (status, store) => (some status, { g with store := store })
    | .ok c => gcExecute e g c

/-- The zeros of `gc_init`. -/
def parserZero : ParserState α where
  modal := default
  spindleSpeed := 0
  feedRate := 0
  tool := 0
  lineNumber := 0
  position := fun _ => 0
  coordSystem := fun _ => 0
  coordOffset := fun _ => 0
  toolLengthOffset := 0

def gcInit (g : Interpreter α) : Interpreter α :=
  match readCoordData g.store 0 with
  | .ok data => { g with gcState := { parserZero with coordSystem := data } }
  | .error (_, store) => { g with gcState := parserZero, store := store }

/-- A line is executed, the position is that of the machine again, or everything begins anew. -/
inductive GcodeEvent (α : Type*) where
  | line (e : Surroundings α) (line : List Byte)
  | syncPosition (position : Axes α)
  | init

def gcStep (g : Interpreter α) : GcodeEvent α → Interpreter α
  | .line e line => (gcExecuteLine e g line).2
  | .syncPosition position => { g with gcState.position := position }
  | .init => gcInit g

end Execution

/-! ### Exact numbers -/

/-- The operations without rounding, where the roots are those of squares. -/
instance : GcodeNumber ℚ where
  ofUInt32 n := n.toNat
  hundredth x := x / 100
  tenth x := x / 10
  tenfold x := x * 10
  inches x := x * (127 / 5)
  same x y := x = y
  negative x := x < 0
  toUInt8 x := (x.num.tdiv x.den % 256).toNat
  toInt32 x := x.num.tdiv x.den
  mantissa x := (round (100 * (x - (x.num.tdiv x.den % 256 : ℤ))) % 65536).toNat
  chord r x y := 4 * r * r - x * x - y * y
  chordRatio h x y := -(Rat.sqrt h / Rat.sqrt (x * x + y * y))
  centre0 x y h := (x - y * h) / 2
  centre1 x y h := (y + x * h) / 2
  hypot x y := Rat.sqrt (x * x + y * y)
  offRadius x r := 1 / 200 < |x - r| ∧ (1 / 2 < |x - r| ∨ r / 1000 < |x - r|)

end PcbMill.Gcode
