import PcbMill.Core.Tmc2209ReadReg

/-!
# Initialising a driver

Each of the four functions writes one register and compares the driver's count of accepted
writes before and after.  What a read returns is taken from the bytes received in its call, so
that a reply that did not come, or came damaged, reads as zero.
-/

namespace PcbMill

open Run

/-! ### The functions -/

def tmc2209RegGconf : Byte := 0x00
def tmc2209RegGstat : Byte := 0x01
def tmc2209RegIfcnt : Byte := 0x02
def tmc2209RegIholdIrun : Byte := 0x10
def tmc2209RegChopconf : Byte := 0x6C

/-- The bytes received in one call of `tmc2209_read_reg`: no more than its ring tells apart. -/
structure Received where
  bytes : List Byte
  fits : bytes.length < 16

/-- What the call returns. -/
def Received.value (r : Received) (reg : Byte) : BitVec 32 := tmc2209ReadValue reg r.bytes

/-- A driver: its registers, and the 8-bit count of the writes it has accepted. -/
structure Tmc2209Driver where
  register : Byte → BitVec 32
  ifcnt : BitVec 8

/-- The register a read request asks for. -/
def Tmc2209Driver.read (d : Tmc2209Driver) (reg : Byte) : BitVec 32 :=
  if reg = tmc2209RegIfcnt then d.ifcnt.setWidth 32 else d.register reg

/-- A write accepted.  The flags of `GSTAT` are cleared by writing them. -/
def Tmc2209Driver.accept (d : Tmc2209Driver) (reg : Byte) (data : BitVec 32) : Tmc2209Driver :=
  { register := Function.update d.register reg
      (if reg = tmc2209RegGstat then d.register reg &&& ~~~data else data)
    ifcnt := d.ifcnt + 1 }

/-- What happens on the line in the three exchanges of a verified write. -/
structure Exchange where
  before : Received
  accepted : Bool
  after : Received

/-- `tmc2209_send_write_reg_with_wait`, at the driver. -/
def tmc2209SendWriteReg (d : Tmc2209Driver) (accepted : Bool) (reg : Byte) (data : BitVec 32) :
    Tmc2209Driver :=
  if accepted then d.accept reg data else d

/-- A write between two reads of `IFCNT`, and whether the second is the greater. -/
def tmc2209VerifiedWrite (d : Tmc2209Driver) (x : Exchange) (reg : Byte) (data : BitVec 32) :
    Bool × Tmc2209Driver :=
  let ifcntBefore := x.before.value tmc2209RegIfcnt
  let d := tmc2209SendWriteReg d x.accepted reg data
  (decide (x.after.value tmc2209RegIfcnt > ifcntBefore), d)

def tmc2209GstatInit (d : Tmc2209Driver) (x : Exchange) : Bool × Tmc2209Driver :=
  tmc2209VerifiedWrite d x tmc2209RegGstat 0xb111

def tmc2209HoldRunInit (d : Tmc2209Driver) (x : Exchange) : Bool × Tmc2209Driver :=
  tmc2209VerifiedWrite d x tmc2209RegIholdIrun 0x00061F0A

/-- What `tmc2209_gconf_init` makes of the value read. -/
def gconfValue (gconf : BitVec 32) : BitVec 32 :=
  ((gconf &&& ~~~(1#32 <<< 0) ||| 1#32 <<< 6) ||| 1#32 <<< 7) &&& ~~~(1#32 <<< 9)

def tmc2209GconfInit (d : Tmc2209Driver) (current : Received) (x : Exchange) :
    Bool × Tmc2209Driver :=
  tmc2209VerifiedWrite d x tmc2209RegGconf (gconfValue (current.value tmc2209RegGconf))

/-- What `tmc2209_mstep_init` makes of the value read. -/
def chopconfValue (chopconf : BitVec 32) : BitVec 32 :=
  chopconf &&& ~~~(0xF#32 <<< 24) ||| 0b0100#32 <<< 24

def tmc2209MstepInit (d : Tmc2209Driver) (current : Received) (x : Exchange) :
    Bool × Tmc2209Driver :=
  tmc2209VerifiedWrite d x tmc2209RegChopconf (chopconfValue (current.value tmc2209RegChopconf))

/-- The four functions `tmc2209_device_initialise` calls. -/
inductive DriverInit where
  | gstat
  | gconf
  | holdRun
  | mstep

/-- A call of one of them, with the bytes received in the read two of them begin with. -/
def DriverInit.run (f : DriverInit) (d : Tmc2209Driver) (current : Received) (x : Exchange) :
    Bool × Tmc2209Driver :=
  match f with
  | gstat => tmc2209GstatInit d x
  | gconf => tmc2209GconfInit d current x
  | holdRun => tmc2209HoldRunInit d x
  | mstep => tmc2209MstepInit d current x

/-- Every one of them is a verified write. -/
theorem DriverInit.exists_write (f : DriverInit) (d : Tmc2209Driver) (current : Received)
    (x : Exchange) : ∃ reg data, f.run d current x = tmc2209VerifiedWrite d x reg data := by
  cases f <;> exact ⟨_, _, rfl⟩

variable {t : Tmc2209} {d : Tmc2209Driver} {current r : Received} {x : Exchange} {reg : Byte}

/-- The value is the one the call returns on its line. -/
theorem Received.value_eq (hidle : t.main = .idle) (hsize : t.usart.rxBufferSize = 16)
    (addr : Byte) (es : List Tmc2209Event)
    (hdelivered : (runFrom readRegStep (readRegCall t addr reg) es).delivered = r.bytes)
    (henough : 107 ≤ es.countP Tmc2209Event.isRun) :
    (runFrom readRegStep (readRegCall t addr reg) es).driver.values = t.values ++ [r.value reg] := by
  obtain ⟨hreturns, hvalue⟩ := readRegCall_returns hidle hsize addr reg es
  have hread := hvalue (hreturns henough)
  rw [hdelivered] at hread
  exact hread r.fits

/-! ### The outcome of a read -/

/-- A frame for the register with these data bytes came behind the echo. -/
def Received.Carries (r : Received) (reg : Byte) (data : List Byte) : Prop :=
  4 + 8 ≤ r.bytes.length ∧ IsReply reg data ((r.bytes.drop 4).take 8)

/-- The driver answered with the value. -/
def Received.Answers (r : Received) (reg : Byte) (value : BitVec 32) : Prop :=
  r.Carries reg (valueBytes value)

/-- No frame came. -/
def Received.Fails (r : Received) (reg : Byte) : Prop := ∀ data, ¬ r.Carries reg data

instance (r : Received) (reg : Byte) (data : List Byte) : Decidable (r.Carries reg data) :=
  inferInstanceAs (Decidable (_ ∧ _))

theorem Received.readAnswer_eq_ok_iff (r : Received) (reg : Byte) (data : List Byte) :
    readAnswer reg r.bytes = .ok data ↔ r.Carries reg data := by
  rw [readAnswer, Received.Carries]
  split_ifs with hshort
  · exact iff_of_false (fun h => by cases h) fun h => by omega
  · have hframe : ((r.bytes.drop 4).take 8).length = 8 := by
      rw [List.length_take, List.length_drop]
      omega
    rw [parseFrame_eq_ok_iff hframe, and_iff_right (by omega)]

theorem Received.Carries.value {data : List Byte} (h : r.Carries reg data) :
    r.value reg = tmc2209Value (.ok data) := by
  rw [Received.value, tmc2209ReadValue, (r.readAnswer_eq_ok_iff reg data).mpr h]

theorem Received.Answers.value {v : BitVec 32} (h : r.Answers reg v) : r.value reg = v := by
  rw [Received.Carries.value h, tmc2209Value_valueBytes]

theorem Received.Fails.value (h : r.Fails reg) : r.value reg = 0 := by
  rw [Received.value, tmc2209ReadValue]
  cases hanswer : readAnswer reg r.bytes with
  | error e => rfl
  | ok data => exact absurd ((r.readAnswer_eq_ok_iff reg data).mp hanswer) (h data)

/-- The driver answers the read, or nothing that is accepted comes. -/
def Received.Reads (r : Received) (d : Tmc2209Driver) (reg : Byte) : Prop :=
  r.Answers reg (d.read reg) ∨ r.Fails reg

/-- The echo of the request and the frame of the driver. -/
theorem answers_of_frame (addr : Byte) (v : BitVec 32)
    (hbytes : r.bytes = tmc2209ReadPacket addr reg ++ tmc2209ReplyFrame reg (valueBytes v)) :
    r.Answers reg v := by
  rw [Received.Answers, ← r.readAnswer_eq_ok_iff, hbytes, readAnswer_append reg
    (by simp [tmc2209ReadPacket]) (by simp [tmc2209ReplyFrame, valueBytes]),
    parseFrame_replyFrame reg rfl]

/-! ### The count of accepted writes -/

/-- A function returns true exactly when both its reads of `IFCNT` succeeded and the count went
up by one between them. -/
def DriverInit.Verifies (f : DriverInit) (d : Tmc2209Driver) (current : Received) (x : Exchange) :
    Prop :=
  (f.run d current x).1 = true ↔
    x.before.Answers tmc2209RegIfcnt (d.read tmc2209RegIfcnt) ∧
    x.after.Answers tmc2209RegIfcnt ((f.run d current x).2.read tmc2209RegIfcnt) ∧
    (f.run d current x).2.ifcnt = d.ifcnt + 1

/-- The count once the write has been accepted or dropped. -/
def ifcntAfter (d : Tmc2209Driver) (x : Exchange) : BitVec 8 :=
  if x.accepted then d.ifcnt + 1 else d.ifcnt

/-- With both reads answered the write did not bring the count round to zero, and with only the
second answered the count it returned is zero. -/
def CountTells (d : Tmc2209Driver) (x : Exchange) : Prop :=
  (x.before.Fails tmc2209RegIfcnt → x.after.Fails tmc2209RegIfcnt ∨ ifcntAfter d x = 0) ∧
    (x.before.Answers tmc2209RegIfcnt (d.read tmc2209RegIfcnt) → x.accepted = true →
      d.ifcnt = 255 → x.after.Fails tmc2209RegIfcnt)

theorem DriverInit.ifcnt_run (f : DriverInit) (d : Tmc2209Driver) (current : Received)
    (x : Exchange) : (f.run d current x).2.ifcnt = ifcntAfter d x := by
  obtain ⟨reg, data, heq⟩ := f.exists_write d current x
  rw [heq, tmc2209VerifiedWrite, ifcntAfter]
  cases haccepted : x.accepted <;> simp [tmc2209SendWriteReg, Tmc2209Driver.accept]

theorem DriverInit.read_run (f : DriverInit) (d : Tmc2209Driver) (current : Received)
    (x : Exchange) :
    (f.run d current x).2.read tmc2209RegIfcnt = (ifcntAfter d x).setWidth 32 := by
  rw [Tmc2209Driver.read, if_pos rfl, f.ifcnt_run]

theorem DriverInit.run_eq_true (f : DriverInit) (d : Tmc2209Driver) (current : Received)
    (x : Exchange) : (f.run d current x).1 = true ↔
      x.before.value tmc2209RegIfcnt < x.after.value tmc2209RegIfcnt := by
  obtain ⟨reg, data, heq⟩ := f.exists_write d current x
  rw [heq, tmc2209VerifiedWrite]
  exact decide_eq_true_iff

theorem Received.Fails.not_answers {v : BitVec 32} (h : r.Fails reg) : ¬ r.Answers reg v := h _

/-- The write was accepted exactly when the count went up. -/
theorem ifcntAfter_eq_succ_iff : ifcntAfter d x = d.ifcnt + 1 ↔ x.accepted = true := by
  rw [ifcntAfter]
  cases x.accepted with
  | false => simp
  | true => simp

theorem setWidth_lt_setWidth (m n : BitVec 8) : m.setWidth 32 < n.setWidth 32 ↔ m < n := by
  rw [BitVec.lt_def, BitVec.lt_def, BitVec.toNat_setWidth_of_le (by omega),
    BitVec.toNat_setWidth_of_le (by omega)]

/-- **Verification by `IFCNT`** is right exactly when the count tells. -/
theorem driver_init_verifies_iff (f : DriverInit) (d : Tmc2209Driver) (current : Received)
    (x : Exchange) (hbefore : x.before.Reads d tmc2209RegIfcnt)
    (hafter : x.after.Reads (f.run d current x).2 tmc2209RegIfcnt) :
    f.Verifies d current x ↔ CountTells d x := by
  have hread : d.read tmc2209RegIfcnt = d.ifcnt.setWidth 32 := if_pos rfl
  have hresult := f.run_eq_true d current x
  rw [Received.Reads, f.read_run] at hafter
  rw [DriverInit.Verifies, CountTells, hresult, f.ifcnt_run, f.read_run, ifcntAfter_eq_succ_iff]
  obtain hbefore | hbefore := hbefore <;> obtain hafter | hafter := hafter
  · -- both reads return the count, which only the wrap makes smaller
    have hnot : ¬ x.before.Fails tmc2209RegIfcnt := fun h => h.not_answers hbefore
    have hnot' : ¬ x.after.Fails tmc2209RegIfcnt := fun h => h.not_answers hafter
    rw [hbefore.value, hafter.value, hread, setWidth_lt_setWidth]
    rw [hread] at hbefore
    simp only [hbefore, hafter, hnot, hnot', true_and, false_implies, true_implies]
    rw [ifcntAfter]
    cases x.accepted with
    | false => simp
    | true =>
      have hlt : ∀ n : BitVec 8, n < n + 1 ↔ ¬ n = 255 := by decide
      simpa using hlt d.ifcnt
  · rw [hafter.value]
    simp [hafter, hafter.not_answers]
  · rw [hbefore.value, hafter.value]
    have hnot : ¬ x.after.Fails tmc2209RegIfcnt := fun h => h.not_answers hafter
    have hpos : (0 : BitVec 32) < (ifcntAfter d x).setWidth 32 ↔ ifcntAfter d x ≠ 0 := by
      have hzero : ∀ n : BitVec 8, (0 : BitVec 8) < n ↔ n ≠ 0 := by decide
      rw [← hzero, ← setWidth_lt_setWidth]
      rfl
    rw [hpos]
    simp [hbefore, hbefore.not_answers, hnot]
  · rw [hbefore.value, hafter.value]
    simp [hafter, hafter.not_answers]

/-- A driver whose registers read zero. -/
def zeroDriver (ifcnt : BitVec 8) : Tmc2209Driver := { register := fun _ => 0, ifcnt := ifcnt }

/-- The echo of a request to driver 0 and its answer. -/
def answerReceived (reg : Byte) (value : BitVec 32) : Received :=
  { bytes := tmc2209ReadPacket 0x00 reg ++ tmc2209ReplyFrame reg (valueBytes value)
    fits := by simp [tmc2209ReadPacket, tmc2209ReplyFrame, valueBytes] }

def noReply : Received := { bytes := [], fits := by decide }

theorem driver_init_verifies_gstat :
    DriverInit.gstat.Verifies (zeroDriver 7) noReply
        { before := answerReceived tmc2209RegIfcnt 7, accepted := true,
          after := answerReceived tmc2209RegIfcnt 8 } ↔
      CountTells (zeroDriver 7) { before := answerReceived tmc2209RegIfcnt 7, accepted := true,
                                  after := answerReceived tmc2209RegIfcnt 8 } :=
  driver_init_verifies_iff .gstat (zeroDriver 7) noReply _
    (.inl (answers_of_frame 0x00 7 rfl)) (.inl (answers_of_frame 0x00 8 rfl))

/-- The write that brings the count from 255 to zero is taken for a failure. -/
theorem ifcnt_wrap_fails_verification :
    ¬ ∀ (f : DriverInit) (d : Tmc2209Driver) (current : Received) (x : Exchange),
      x.before.Reads d tmc2209RegIfcnt → x.after.Reads (f.run d current x).2 tmc2209RegIfcnt →
      f.Verifies d current x := by
  intro h
  have hbefore : (answerReceived tmc2209RegIfcnt 255).Answers tmc2209RegIfcnt 255 :=
    answers_of_frame 0x00 255 rfl
  have hafter : (answerReceived tmc2209RegIfcnt 0).Answers tmc2209RegIfcnt 0 :=
    answers_of_frame 0x00 0 rfl
  have hverifies := h .gstat (zeroDriver 255) noReply
    { before := answerReceived tmc2209RegIfcnt 255, accepted := true,
      after := answerReceived tmc2209RegIfcnt 0 } (.inl hbefore) (.inl hafter)
  exact absurd (hverifies.mpr ⟨hbefore, hafter, rfl⟩) (by decide +kernel)

/-! ### Read, modify, write -/

/-- The bits `tmc2209_gconf_init` is meant to change. -/
def gconfMask : BitVec 32 := 1#32 <<< 0 ||| 1#32 <<< 6 ||| 1#32 <<< 7 ||| 1#32 <<< 9

/-- The bits `tmc2209_mstep_init` is meant to change. -/
def chopconfMask : BitVec 32 := 0xF#32 <<< 24

/-- The bits outside a mask. -/
def foreignBits (mask value : BitVec 32) : BitVec 32 := value &&& ~~~mask

theorem foreignBits_and {mask keep : BitVec 32} (h : keep &&& ~~~mask = ~~~mask) (v : BitVec 32) :
    foreignBits mask (v &&& keep) = foreignBits mask v := by
  rw [foreignBits, BitVec.and_assoc, h, foreignBits]

theorem foreignBits_or {mask set : BitVec 32} (h : set &&& ~~~mask = 0) (v : BitVec 32) :
    foreignBits mask (v ||| set) = foreignBits mask v := by
  rw [foreignBits, BitVec.and_or_distrib_right, h, foreignBits]
  simp

theorem foreignBits_gconfValue (v : BitVec 32) :
    foreignBits gconfMask (gconfValue v) = foreignBits gconfMask v := by
  rw [gconfValue, foreignBits_and (by decide), foreignBits_or (by decide),
    foreignBits_or (by decide), foreignBits_and (by decide)]

theorem foreignBits_chopconfValue (v : BitVec 32) :
    foreignBits chopconfMask (chopconfValue v) = foreignBits chopconfMask v := by
  rw [chopconfValue, foreignBits_or (by decide), foreignBits_and (by decide)]

/-- The bits of a register outside the mask are as they were. -/
def KeepsForeign (reg : Byte) (mask : BitVec 32) (d d' : Tmc2209Driver) : Prop :=
  foreignBits mask (d'.register reg) = foreignBits mask (d.register reg)

/-- The write is dropped, or the read that came before it carried the bits outside the mask as the
register has them, or it carried nothing and they are all zero. -/
def ForeignKnown (reg : Byte) (mask : BitVec 32) (d : Tmc2209Driver) (current : Received)
    (accepted : Bool) : Prop :=
  accepted = false ∨
  (∃ data, current.Carries reg data ∧
    foreignBits mask (tmc2209Value (.ok data)) = foreignBits mask (d.register reg)) ∨
  (current.Fails reg ∧ foreignBits mask (d.register reg) = 0)

/-- The value read has the register's bits outside the mask exactly when they came, or when
nothing came and they are zero. -/
theorem foreignBits_value_iff {mask : BitVec 32} :
    foreignBits mask (current.value reg) = foreignBits mask (d.register reg) ↔
      (∃ data, current.Carries reg data ∧
        foreignBits mask (tmc2209Value (.ok data)) = foreignBits mask (d.register reg)) ∨
      (current.Fails reg ∧ foreignBits mask (d.register reg) = 0) := by
  by_cases hfails : current.Fails reg
  · have hnone : ¬ ∃ data, current.Carries reg data ∧
        foreignBits mask (tmc2209Value (.ok data)) = foreignBits mask (d.register reg) :=
      fun ⟨data, hcarries, _⟩ => hfails data hcarries
    have hzero : foreignBits mask 0 = 0 := by simp [foreignBits]
    rw [hfails.value, hzero, or_iff_right hnone, and_iff_right hfails, eq_comm]
  · obtain ⟨data, hcarries⟩ : ∃ data, current.Carries reg data := not_forall_not.mp hfails
    rw [hcarries.value, or_iff_left fun h => hfails h.1]
    constructor
    · exact fun heq => ⟨data, hcarries, heq⟩
    · rintro ⟨data', hcarries', heq⟩
      rwa [← hcarries.value, hcarries'.value]

/-- A function that writes back what it read, with only bits of its mask changed. -/
theorem keepsForeign_iff {mask : BitVec 32} {change : BitVec 32 → BitVec 32}
    (hchange : ∀ v, foreignBits mask (change v) = foreignBits mask v)
    (hreg : reg ≠ tmc2209RegGstat) :
    KeepsForeign reg mask d (tmc2209VerifiedWrite d x reg (change (current.value reg))).2 ↔
      ForeignKnown reg mask d current x.accepted := by
  rw [KeepsForeign, ForeignKnown, ← foreignBits_value_iff, tmc2209VerifiedWrite]
  cases x.accepted with
  | false => simp [tmc2209SendWriteReg]
  | true => simp [tmc2209SendWriteReg, Tmc2209Driver.accept, hreg, hchange]

/-- The two functions that write back what they have read. -/
inductive ReadModifyWrite where
  | gconf
  | mstep

def ReadModifyWrite.run (f : ReadModifyWrite) (d : Tmc2209Driver) (current : Received)
    (x : Exchange) : Bool × Tmc2209Driver :=
  match f with
  | gconf => tmc2209GconfInit d current x
  | mstep => tmc2209MstepInit d current x

def ReadModifyWrite.register : ReadModifyWrite → Byte
  | gconf => tmc2209RegGconf
  | mstep => tmc2209RegChopconf

/-- The bits it is meant to change. -/
def ReadModifyWrite.mask : ReadModifyWrite → BitVec 32
  | gconf => gconfMask
  | mstep => chopconfMask

/-- **Read, modify, write** keeps the other bits of `GCONF` and of `CHOPCONF` exactly when they
were known. -/
theorem driver_init_keeps_foreign_iff (f : ReadModifyWrite) (d : Tmc2209Driver) (current : Received)
    (x : Exchange) :
    KeepsForeign f.register f.mask d (f.run d current x).2 ↔
      ForeignKnown f.register f.mask d current x.accepted := by
  cases f with
  | gconf => exact keepsForeign_iff foreignBits_gconfValue (by decide)
  | mstep => exact keepsForeign_iff foreignBits_chopconfValue (by decide)

/-- A read that gets no reply clears the other bits of `GCONF`, here bits 0 and 8 of its value after
reset. -/
theorem unread_gconf_loses_foreign :
    ¬ ∀ (f : ReadModifyWrite) (d : Tmc2209Driver) (current : Received) (x : Exchange),
      KeepsForeign f.register f.mask d (f.run d current x).2 := by
  intro h
  have hkeeps := h .gconf { register := fun _ => 0x101, ifcnt := 0 } noReply
    { before := noReply, accepted := true, after := noReply }
  exact absurd hkeeps (by rw [KeepsForeign]; decide +kernel)

end PcbMill
