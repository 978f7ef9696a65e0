import PcbMill.Usb.Hal

/-!
# What the register updates touch

Each update reads the endpoint register, works out a value and writes it, and the hardware may
act on the other direction in between.  The updates that go through `usb_ep_reg_set_preserve`
write 1 to both correct-transfer flags; `usb_ep_clear_correct_transfer` writes back the other
flag as it was read.
-/

namespace PcbMill

/-! ### The fields of a direction -/

def vtPos (dirIdx : ℕ) : ℕ := if dirIdx = 1 then chepVttxPos else chepVtrxPos

/-- The other direction. -/
def otherDir (dirIdx : ℕ) : ℕ := if dirIdx = 1 then 0 else 1

/-- The fields of one direction: STAT, DTOG and the correct-transfer flag. -/
structure DirView where
  stat : EpState
  dtog : Bool
  vt : Bool
  deriving DecidableEq, Repr

def dirView (r : Word) (dirIdx : ℕ) : DirView :=
  { stat := epState r dirIdx, dtog := r.getLsbD (dataTogglePos dirIdx)
    vt := r.getLsbD (vtPos dirIdx) }

/-- The type field EP_TYPE. -/
def epTypeBits (r : Word) : BitVec 2 := (r >>> 9).setWidth 2

/-! ### The updates -/

inductive RegisterUpdate where
  | stallSet (dirIdx : ℕ)
  | stallClear (dirIdx : ℕ)
  | txPacket
  | queueOut
  | clearCorrectTransfer (dirIdx : ℕ)
  deriving DecidableEq, Repr

namespace RegisterUpdate

def dirIdx : RegisterUpdate → ℕ
  | stallSet dirIdx | stallClear dirIdx | clearCorrectTransfer dirIdx => dirIdx
  | txPacket => usbDirDeviceOutHostInIdx
  | queueOut => usbDirDeviceInHostOutIdx

/-- The register after the update, from the value `r` it read and the value `r'` it writes
over. -/
def run (r r' : Word) : RegisterUpdate → Word
  | stallSet dirIdx => regSetPreserve r' (stallSetValue r dirIdx)
  | stallClear dirIdx => regSetPreserve r' (stallClearValue r dirIdx)
  | txPacket => regSetPreserve r' (txValidValue r)
  | queueOut => regSetPreserve r' (rxValidValue r usbDirDeviceInHostOutIdx)
  | clearCorrectTransfer dirIdx => regSet r' (clearCorrectTransferValue r dirIdx)

/-- What the update is meant to make of the fields of its direction. -/
def Intended (before after : DirView) : RegisterUpdate → Prop
  | stallSet _ => after = { before with stat := .stall }
  | stallClear _ => (after.stat = .nak ∨ after.stat = .valid) ∧ after.dtog = false ∧
      after.vt = before.vt
  | txPacket => after = { before with stat := .valid }
  | queueOut => after = { before with stat := .valid }
  | clearCorrectTransfer _ => after = { before with vt := false }

/-- The update does what it is meant to do to its direction and preserves the other one, the
type and the address. -/
structure Framed (u : RegisterUpdate) (r r' : Word) : Prop where
  own : u.Intended (dirView r' u.dirIdx) (dirView (u.run r r') u.dirIdx)
  other : dirView (u.run r r') (otherDir u.dirIdx) = dirView r' (otherDir u.dirIdx)
  type : epTypeBits (u.run r r') = epTypeBits r'
  address : epAddress (u.run r r') = epAddress r'

/-- What may have happened between the read and the write: the hardware has acted on the other
direction, whose flag it does not clear. -/
structure HwBetween (dirIdx : ℕ) (r r' : Word) : Prop where
  own : dirView r' dirIdx = dirView r dirIdx
  flag : (dirView r (otherDir dirIdx)).vt = true → (dirView r' (otherDir dirIdx)).vt = true
  type : epTypeBits r' = epTypeBits r
  address : epAddress r' = epAddress r

/-- The condition on an update: it is not that of `usb_ep_stall_clear_hal`, and for
`usb_ep_clear_correct_transfer` the hardware has not set the other direction's flag since the
read. -/
def FrameOk (r r' : Word) : RegisterUpdate → Prop
  | stallClear _ => False
  | clearCorrectTransfer dirIdx => (dirView r' (otherDir dirIdx)).vt = true →
      (dirView r (otherDir dirIdx)).vt = true
  | _ => True

end RegisterUpdate

open RegisterUpdate

/-! ### The updates are those of the HAL -/

theorem usbEpStallSetHal_run (s : Usb) (i dirIdx : ℕ) : (usbEpStallSetHal s i dirIdx).chep i =
    (stallSet dirIdx).run (s.chep i) (s.chep i) :=
  Function.update_self ..

theorem usbEpStallClearHal_run (s : Usb) (i dirIdx : ℕ) :
    (usbEpStallClearHal s i dirIdx).chep i = (stallClear dirIdx).run (s.chep i) (s.chep i) :=
  Function.update_self ..

theorem usbEpClearCorrectTransfer_run (s : Usb) (i dirIdx : ℕ) :
    (usbEpClearCorrectTransfer s i dirIdx).chep i =
      (clearCorrectTransfer dirIdx).run (s.chep i) (s.chep i) :=
  Function.update_self ..

theorem usbTxPacket_run (s : Usb) (i : ℕ) :
    (usbTxPacket s i).chep (s.epTransferSet i usbDirDeviceOutHostInIdx).epIdn =
      txPacket.run (s.chep (s.epTransferSet i usbDirDeviceOutHostInIdx).epIdn)
        (s.chep (s.epTransferSet i usbDirDeviceOutHostInIdx).epIdn) :=
  Function.update_self ..

theorem usbEpQueueTransferHal_run (s : Usb) (i : ℕ) (buffer : Ptr) (n : ℕ) :
    (usbEpQueueTransferHal s i usbDirDeviceInHostOutIdx buffer n).2.chep i =
      queueOut.run (s.chep i) (s.chep i) :=
  Function.update_self ..

/-! ### Writes, field by field -/

variable {r r' v : Word} {dirIdx : ℕ}

/-- The bits of a STAT field, from the state it reads as. -/
theorem getLsbD_of_epState (h : epState r' dirIdx = epState r dirIdx) :
    r'.getLsbD (statusPos dirIdx + 1) = r.getLsbD (statusPos dirIdx + 1) ∧
      r'.getLsbD (statusPos dirIdx) = r.getLsbD (statusPos dirIdx) := by
  simp only [epState] at h
  revert h
  cases r'.getLsbD (statusPos dirIdx + 1) <;> cases r'.getLsbD (statusPos dirIdx) <;>
    cases r.getLsbD (statusPos dirIdx + 1) <;> cases r.getLsbD (statusPos dirIdx) <;>
      simp [EpState.ofBits]

/-- STAT and DTOG toggle, a flag stays where 1 is written. -/
theorem dirView_write (r v : Word) (dirIdx : ℕ) : dirView (chepRule.write r v) dirIdx =
    { stat := .ofBits (r.getLsbD (statusPos dirIdx + 1) ^^ v.getLsbD (statusPos dirIdx + 1))
        (r.getLsbD (statusPos dirIdx) ^^ v.getLsbD (statusPos dirIdx))
      dtog := r.getLsbD (dataTogglePos dirIdx) ^^ v.getLsbD (dataTogglePos dirIdx)
      vt := r.getLsbD (vtPos dirIdx) && v.getLsbD (vtPos dirIdx) } := by
  by_cases h : dirIdx = 1
  · simp [dirView, epState, statusPos, dataTogglePos, vtPos, h, FieldRegister.write, chepRule,
      chepTxSttxPos, chepDtogTxPos, chepVttxPos]
  · simp [dirView, epState, statusPos, dataTogglePos, vtPos, h, FieldRegister.write, chepRule,
      chepRxStrxPos, chepDtogRxPos, chepVtrxPos]

/-- The type field is stored as it is written. -/
theorem epTypeBits_write (r v : Word) : epTypeBits (chepRule.write r v) = epTypeBits v := by
  apply BitVec.eq_of_getLsbD_eq
  intro i hi
  simp only [epTypeBits, BitVec.getLsbD_setWidth, BitVec.getLsbD_ushiftRight,
    FieldRegister.getLsbD_write]
  interval_cases i <;> simp [chepRule]

/-! ### What each update leaves -/

/-- The bits that an update with `usb_ep_reg_set_preserve` writes to a direction. -/
structure WritesDir (v : Word) (dirIdx : ℕ) (high low dtog : Bool) : Prop where
  high : v.getLsbD (statusPos dirIdx + 1) = high
  low : v.getLsbD (statusPos dirIdx) = low
  dtog : v.getLsbD (dataTogglePos dirIdx) = dtog

theorem regSetPreserve_dir {high low dtog : Bool} (h : WritesDir v dirIdx high low dtog) :
    dirView (regSetPreserve r v) dirIdx =
      { stat := .ofBits (r.getLsbD (statusPos dirIdx + 1) ^^ high)
          (r.getLsbD (statusPos dirIdx) ^^ low)
        dtog := r.getLsbD (dataTogglePos dirIdx) ^^ dtog
        vt := (dirView r dirIdx).vt } := by
  have hbits : ∀ i, i ≠ 7 → i ≠ 15 → (v ||| usbEpVttx ||| usbEpVtrx).getLsbD i = v.getLsbD i := by
    intro i h7 h15
    have hvttx : usbEpVttx.getLsbD i = false := by
      rw [usbEpVttx, show (0x80#32) = BitVec.twoPow 32 7 from rfl, BitVec.getLsbD_twoPow]
      simp [Ne.symm h7]
    have hvtrx : usbEpVtrx.getLsbD i = false := by
      rw [usbEpVtrx, show (0x8000#32) = BitVec.twoPow 32 15 from rfl, BitVec.getLsbD_twoPow]
      simp [Ne.symm h15]
    rw [BitVec.getLsbD_or, BitVec.getLsbD_or, hvttx, hvtrx, Bool.or_false, Bool.or_false]
  have hflag : (v ||| usbEpVttx ||| usbEpVtrx).getLsbD (vtPos dirIdx) = true := by
    by_cases h : dirIdx = 1 <;> simp [vtPos, h, usbEpVttx, usbEpVtrx, chepVttxPos, chepVtrxPos]
  have hstatus : statusPos dirIdx = 4 ∧ dataTogglePos dirIdx = 6 ∨
      statusPos dirIdx = 12 ∧ dataTogglePos dirIdx = 14 := by
    by_cases h : dirIdx = 1
    · exact .inl ⟨if_pos h, if_pos h⟩
    · exact .inr ⟨if_neg h, if_neg h⟩
  rw [regSetPreserve, dirView_write, hflag, Bool.and_true,
    hbits (statusPos dirIdx + 1) (by omega) (by omega), hbits (statusPos dirIdx) (by omega) (by omega),
    hbits (dataTogglePos dirIdx) (by omega) (by omega), h.high, h.low, h.dtog]
  rfl

/-- The toggles that lead from the STAT read to the one with the bits `high` and `low`, and
nothing else. -/
structure SetsStatus (r v : Word) (dirIdx : ℕ) (high low : Bool) : Prop where
  own : WritesDir v dirIdx (r.getLsbD (statusPos dirIdx + 1) ^^ high)
    (r.getLsbD (statusPos dirIdx) ^^ low) false
  other : WritesDir v (otherDir dirIdx) false false false

theorem setsStatus_stallSet (r : Word) (dirIdx : ℕ) :
    SetsStatus r (stallSetValue r dirIdx) dirIdx false true := by
  by_cases h : dirIdx = 1
  · constructor <;> constructor <;>
      simp [h, otherDir, stallSetValue, usbEpStatus, statusPos, dataTogglePos, EpState.code,
        usbChepRegMask, usbEpStatusMask, chepTxSttxPos, chepRxStrxPos, chepDtogTxPos, chepDtogRxPos]
  · constructor <;> constructor <;>
      simp [h, otherDir, stallSetValue, usbEpStatus, statusPos, dataTogglePos, EpState.code,
        usbChepRegMask, usbEpStatusMask, chepTxSttxPos, chepRxStrxPos, chepDtogTxPos, chepDtogRxPos]

theorem setsStatus_txValid (r : Word) : SetsStatus r (txValidValue r) 1 true true := by
  constructor <;> constructor <;>
    simp [otherDir, txValidValue, usbEpStatus, statusPos, dataTogglePos, EpState.code,
      usbChepRegMask, usbEpStatusMask, chepTxSttxPos, chepRxStrxPos, chepDtogTxPos, chepDtogRxPos]

theorem setsStatus_rxValid (r : Word) : SetsStatus r (rxValidValue r 0) 0 true true := by
  constructor <;> constructor <;>
    simp [otherDir, rxValidValue, usbEpStatus, statusPos, dataTogglePos, EpState.code,
      usbChepRegMask, usbEpStatusMask, chepTxSttxPos, chepRxStrxPos, chepDtogTxPos, chepDtogRxPos]

theorem writesDir_stallClear (r : Word) (dirIdx : ℕ) :
    WritesDir (stallClearValue r dirIdx) dirIdx (r.getLsbD (statusPos dirIdx + 1))
        (r.getLsbD (statusPos dirIdx)) (r.getLsbD (dataTogglePos dirIdx)) ∧
      WritesDir (stallClearValue r dirIdx) (otherDir dirIdx) false false false := by
  by_cases h : dirIdx = 1
  · constructor <;> constructor <;>
      simp [h, otherDir, stallClearValue, usbEpDataToggle, statusPos, dataTogglePos, usbChepRegMask,
        usbEpStatusMask, usbEpDataToggleMask, chepTxSttxPos, chepRxStrxPos, chepDtogTxPos,
        chepDtogRxPos]
  · constructor <;> constructor <;>
      simp [h, otherDir, stallClearValue, usbEpDataToggle, statusPos, dataTogglePos, usbChepRegMask,
        usbEpStatusMask, usbEpDataToggleMask, chepTxSttxPos, chepRxStrxPos, chepDtogTxPos,
        chepDtogRxPos]

/-- An update with `usb_ep_reg_set_preserve` leaves the direction it does not address. -/
theorem regSetPreserve_other (h : WritesDir v dirIdx false false false) :
    dirView (regSetPreserve r v) dirIdx = dirView r dirIdx := by
  rw [regSetPreserve_dir h, Bool.xor_false, Bool.xor_false, Bool.xor_false]
  rfl

/-- An update that sets STAT sets it from the state it read, if the state is still that. -/
theorem regSetPreserve_sets {high low : Bool} (hown : dirView r' dirIdx = dirView r dirIdx)
    (h : SetsStatus r v dirIdx high low) :
    dirView (regSetPreserve r' v) dirIdx =
      { dirView r' dirIdx with stat := .ofBits high low } := by
  obtain ⟨hhigh, hlow⟩ := getLsbD_of_epState (congrArg DirView.stat hown)
  rw [regSetPreserve_dir h.own, hhigh, hlow, Bool.xor_false]
  simp only [← Bool.xor_assoc, Bool.xor_self, Bool.false_xor]
  rfl

theorem own_stallClear (hown : dirView r' dirIdx = dirView r dirIdx) :
    dirView (regSetPreserve r' (stallClearValue r dirIdx)) dirIdx =
      { stat := .disabled, dtog := false, vt := (dirView r' dirIdx).vt } := by
  obtain ⟨hhigh, hlow⟩ := getLsbD_of_epState (congrArg DirView.stat hown)
  have hdtog : r'.getLsbD (dataTogglePos dirIdx) = r.getLsbD (dataTogglePos dirIdx) :=
    congrArg DirView.dtog hown
  rw [regSetPreserve_dir (writesDir_stallClear r dirIdx).1, hhigh, hlow, hdtog, Bool.xor_self,
    Bool.xor_self, Bool.xor_self]
  rfl

/-- The flag is cleared, and the other one is written back as it was read. -/
theorem dirView_clearCorrectTransfer (r r' : Word) (dirIdx : ℕ) :
    dirView (regSet r' (clearCorrectTransferValue r dirIdx)) dirIdx =
        { dirView r' dirIdx with vt := false } ∧
      dirView (regSet r' (clearCorrectTransferValue r dirIdx)) (otherDir dirIdx) =
        { dirView r' (otherDir dirIdx) with
          vt := (dirView r' (otherDir dirIdx)).vt && (dirView r (otherDir dirIdx)).vt } := by
  rw [regSet, dirView_write, dirView_write]
  by_cases h : dirIdx = 1
  · simp [h, otherDir, dirView, epState, clearCorrectTransferValue, statusPos, dataTogglePos, vtPos,
      usbChepRegMask, chepTxSttxPos, chepRxStrxPos, chepDtogTxPos, chepDtogRxPos, chepVttxPos,
      chepVtrxPos]
  · simp [h, otherDir, dirView, epState, clearCorrectTransferValue, statusPos, dataTogglePos, vtPos,
      usbChepRegMask, chepTxSttxPos, chepRxStrxPos, chepDtogTxPos, chepDtogRxPos, chepVttxPos,
      chepVtrxPos]

/-! ### Type and address -/

theorem epTypeBits_regSetPreserve (r v : Word) : epTypeBits (regSetPreserve r v) = epTypeBits v := by
  rw [regSetPreserve, epTypeBits_write]
  apply BitVec.eq_of_getLsbD_eq
  intro i hi
  interval_cases i <;> simp [epTypeBits, usbEpVttx, usbEpVtrx]

/-- Every update writes the type and the address it has read. -/
theorem RegisterUpdate.run_type (r r' : Word) (u : RegisterUpdate) :
    epTypeBits (u.run r r') = epTypeBits r := by
  have hmask : ∀ v : Word, (∀ i, i < 2 → v.getLsbD (9 + i) = r.getLsbD (9 + i)) →
      epTypeBits v = epTypeBits r := by
    intro v hv
    apply BitVec.eq_of_getLsbD_eq
    intro i hi
    simp only [epTypeBits, BitVec.getLsbD_setWidth, BitVec.getLsbD_ushiftRight, hv i hi]
  cases u with
  | stallSet dirIdx =>
    rw [run, epTypeBits_regSetPreserve]
    apply hmask
    intro i hi
    by_cases h : dirIdx = 1 <;> interval_cases i <;>
      simp [stallSetValue, usbEpStatus, statusPos, h, EpState.code, usbChepRegMask,
        usbEpStatusMask, chepTxSttxPos, chepRxStrxPos]
  | stallClear dirIdx =>
    rw [run, epTypeBits_regSetPreserve]
    apply hmask
    intro i hi
    by_cases h : dirIdx = 1 <;> interval_cases i <;>
      simp [stallClearValue, usbEpDataToggle, statusPos, dataTogglePos, h, usbChepRegMask,
        usbEpStatusMask, usbEpDataToggleMask, chepTxSttxPos, chepRxStrxPos, chepDtogTxPos,
        chepDtogRxPos]
  | txPacket =>
    rw [run, epTypeBits_regSetPreserve]
    apply hmask
    intro i hi
    interval_cases i <;>
      simp [txValidValue, usbEpStatus, statusPos, EpState.code, usbChepRegMask, usbEpStatusMask,
        chepTxSttxPos]
  | queueOut =>
    rw [run, epTypeBits_regSetPreserve]
    apply hmask
    intro i hi
    interval_cases i <;>
      simp [rxValidValue, usbEpStatus, statusPos, EpState.code, usbChepRegMask, usbEpStatusMask,
        usbDirDeviceInHostOutIdx, chepRxStrxPos]
  | clearCorrectTransfer dirIdx =>
    rw [run, regSet, epTypeBits_write]
    apply hmask
    intro i hi
    by_cases h : dirIdx = 1 <;> interval_cases i <;>
      simp [clearCorrectTransferValue, h, usbChepRegMask, chepVttxPos, chepVtrxPos]

theorem epAddress_clearCorrectTransfer (r : Word) (dirIdx : ℕ) :
    epAddress (clearCorrectTransferValue r dirIdx) = epAddress r := by
  apply BitVec.eq_of_getLsbD_eq
  intro i hi
  by_cases h : dirIdx = 1 <;> interval_cases i <;>
    simp [epAddress, clearCorrectTransferValue, h, usbChepRegMask, chepVttxPos, chepVtrxPos]

theorem RegisterUpdate.run_address (r r' : Word) (u : RegisterUpdate) :
    epAddress (u.run r r') = epAddress r := by
  cases u with
  | stallSet dirIdx => exact (epAddress_regSetPreserve _ _).trans (epAddress_stallSet r dirIdx)
  | stallClear dirIdx => exact (epAddress_regSetPreserve _ _).trans (epAddress_stallClear r dirIdx)
  | txPacket => exact (epAddress_regSetPreserve _ _).trans (epAddress_txValid r)
  | queueOut => exact (epAddress_regSetPreserve _ _).trans (epAddress_rxValid r _)
  | clearCorrectTransfer dirIdx =>
    exact (epAddress_regSet _ _).trans (epAddress_clearCorrectTransfer r dirIdx)

/-! ### The law -/

/-- An update that sets STAT with `usb_ep_reg_set_preserve` touches nothing else. -/
theorem framed_of_setsStatus {u : RegisterUpdate} {high low : Bool} (h : HwBetween u.dirIdx r r')
    (hrun : u.run r r' = regSetPreserve r' v) (hv : SetsStatus r v u.dirIdx high low)
    (hintended : ∀ before : DirView,
      u.Intended before { before with stat := .ofBits high low }) : u.Framed r r' where
  own := by
    rw [hrun, regSetPreserve_sets h.own hv]
    exact hintended _
  other := by
    rw [hrun]
    exact regSetPreserve_other hv.other
  type := (u.run_type r r').trans h.type.symm
  address := (u.run_address r r').trans h.address.symm

theorem framed_stallSet (h : HwBetween dirIdx r r') : (stallSet dirIdx).Framed r r' :=
  framed_of_setsStatus h rfl (setsStatus_stallSet r dirIdx) fun _ => rfl

theorem framed_txPacket (h : HwBetween 1 r r') : txPacket.Framed r r' :=
  framed_of_setsStatus h rfl (setsStatus_txValid r) fun _ => rfl

theorem framed_queueOut (h : HwBetween 0 r r') : queueOut.Framed r r' :=
  framed_of_setsStatus h rfl (setsStatus_rxValid r) fun _ => rfl

theorem not_framed_stallClear (h : HwBetween dirIdx r r') : ¬ (stallClear dirIdx).Framed r r' := by
  intro hframed
  have hstat : (dirView ((stallClear dirIdx).run r r') dirIdx).stat = .disabled :=
    congrArg DirView.stat (own_stallClear h.own)
  rcases hframed.own.1 with hnak | hvalid
  · exact EpState.noConfusion (hstat.symm.trans hnak)
  · exact EpState.noConfusion (hstat.symm.trans hvalid)

theorem framed_clearCorrectTransfer_iff (h : HwBetween dirIdx r r') :
    (clearCorrectTransfer dirIdx).Framed r r' ↔
      ((dirView r' (otherDir dirIdx)).vt = true → (dirView r (otherDir dirIdx)).vt = true) := by
  obtain ⟨hown, hother⟩ := dirView_clearCorrectTransfer r r' dirIdx
  constructor
  · intro hframed hset
    have hflag : ((dirView r' (otherDir dirIdx)).vt && (dirView r (otherDir dirIdx)).vt) =
        (dirView r' (otherDir dirIdx)).vt :=
      congrArg DirView.vt (hother.symm.trans hframed.other)
    rw [hset, Bool.true_and] at hflag
    exact hflag
  · intro hkept
    refine ⟨hown, hother.trans ?_, ((clearCorrectTransfer dirIdx).run_type r r').trans h.type.symm,
      ((clearCorrectTransfer dirIdx).run_address r r').trans h.address.symm⟩
    cases hset : (dirView r' (otherDir dirIdx)).vt with
    | false =>
      rw [Bool.false_and, ← hset]
      rfl
    | true =>
      rw [hkept hset, Bool.and_true, ← hset]
      rfl

/-- Whatever the hardware does to the other direction between the read and the write, an update
touches only what it means to exactly when it is not that of `usb_ep_stall_clear_hal`, nor a
`usb_ep_clear_correct_transfer` that the hardware has overtaken with the other flag. -/
theorem registerUpdate_framed_iff (u : RegisterUpdate) {r r' : Word}
    (h : HwBetween u.dirIdx r r') : u.Framed r r' ↔ u.FrameOk r r' := by
  cases u with
  | stallSet dirIdx => exact iff_of_true (framed_stallSet h) trivial
  | stallClear dirIdx => exact iff_of_false (not_framed_stallClear h) id
  | txPacket => exact iff_of_true (framed_txPacket h) trivial
  | queueOut => exact iff_of_true (framed_queueOut h) trivial
  | clearCorrectTransfer dirIdx => exact framed_clearCorrectTransfer_iff h

/-- A stall set on the receiver of a bulk endpoint while its transmitter completes a packet. -/
theorem registerUpdate_framed_iff_stallSet :
    (stallSet 0).Framed 0x3032#32 (hwTxPacket 0x3032#32) :=
  (registerUpdate_framed_iff (stallSet 0) ⟨by decide, by decide, by decide, by decide⟩).mpr trivial

/-- A packet is received between the read and the write of a cleared transmission: its flag is
lost. -/
theorem overtaken_flag_lost :
    ¬ ∀ (u : RegisterUpdate) (r r' : Word), HwBetween u.dirIdx r r' → u.Framed r r' := by
  intro h
  have hother := (h (clearCorrectTransfer 1) 0x30A2#32 (hwRxPacket 0x30A2#32)
    ⟨by decide, by decide, by decide, by decide⟩).other
  exact absurd (congrArg DirView.vt hother) (by decide)

end PcbMill
