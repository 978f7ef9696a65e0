import PcbMill.Lib.FieldRegister

/-!
# The endpoint registers (`CHEPnR`)

Bit positions and masks of `stm32g0b1xx.h`, the hardware's write rule, and the register
helpers of `usb_hal.c`.  A direction index is 1 for transmit and anything else for receive,
as the source's conditional expressions have it.
-/

namespace PcbMill

/-- A 32-bit register or packet-memory word. -/
abbrev Word := BitVec 32

/-! ### Fields -/

def chepVtrxPos : ℕ := 15
def chepDtogRxPos : ℕ := 14
def chepRxStrxPos : ℕ := 12
def chepSetupPos : ℕ := 11
def chepVttxPos : ℕ := 7
def chepDtogTxPos : ℕ := 6
def chepTxSttxPos : ℕ := 4

/-- `USB_EP_VTRX`, `USB_EP_VTTX`. -/
def usbEpVtrx : Word := 0x8000#32
def usbEpVttx : Word := 0x80#32

/-- `USB_CHEP_REG_MASK`. -/
def usbChepRegMask : Word := 0x07FF8F8F#32

/-- `USB_EP_BULK`, `USB_EP_CONTROL`, `USB_EP_INTERRUPT`. -/
def usbEpBulk : Word := 0x000#32
def usbEpControl : Word := 0x200#32
def usbEpInterrupt : Word := 0x600#32

/-- The write rule: STAT and DTOG toggle, VTTX and VTRX are cleared by 0, SETUP is the
hardware's. -/
def chepRule : FieldRegister 32 :=
  { toggle := 0x7070#32, clearOnZero := 0x8080#32, readOnly := 0x800#32 }

/-- `usb_ep_state_t`. -/
inductive EpState where
  | disabled | stall | nak | valid
  deriving DecidableEq, Repr

def EpState.code : EpState → Word
  | .disabled => 0#32
  | .stall => 1#32
  | .nak => 2#32
  | .valid => 3#32

def EpState.ofBits : Bool → Bool → EpState
  | false, false => .disabled
  | false, true => .stall
  | true, false => .nak
  | true, true => .valid

def statusPos (dirIdx : ℕ) : ℕ := if dirIdx = 1 then chepTxSttxPos else chepRxStrxPos

def dataTogglePos (dirIdx : ℕ) : ℕ := if dirIdx = 1 then chepDtogTxPos else chepDtogRxPos

/-- `USB_EP_STATUS_MASK`. -/
def usbEpStatusMask (dirIdx : ℕ) : Word := 3#32 <<< statusPos dirIdx

/-- `USB_EP_DATA_TOGGLE_MASK`. -/
def usbEpDataToggleMask (dirIdx : ℕ) : Word := 1#32 <<< dataTogglePos dirIdx

/-- The STAT field of a direction. -/
def epState (r : Word) (dirIdx : ℕ) : EpState :=
  .ofBits (r.getLsbD (statusPos dirIdx + 1)) (r.getLsbD (statusPos dirIdx))

def vtrx (r : Word) : Bool := r.getLsbD chepVtrxPos

def vttx (r : Word) : Bool := r.getLsbD chepVttxPos

def setupFlag (r : Word) : Bool := r.getLsbD chepSetupPos

/-- What the EP0 protocol reads of an endpoint register. -/
structure EpView where
  tx : EpState
  rx : EpState
  vttx : Bool
  vtrx : Bool
  setup : Bool
  deriving DecidableEq, Repr

def epView (r : Word) : EpView :=
  { tx := epState r 1, rx := epState r 0, vttx := vttx r, vtrx := vtrx r, setup := setupFlag r }

/-! ### The register helpers of the HAL -/

/-- `usb_ep_status`. -/
def usbEpStatus (epReg : Word) (dirIdx : ℕ) (st : EpState) : Word :=
  epReg ^^^ (st.code <<< statusPos dirIdx)

/-- `usb_ep_data_toggle`. -/
def usbEpDataToggle (epReg : Word) (dirIdx : ℕ) (st : Word) : Word :=
  epReg ^^^ (st <<< dataTogglePos dirIdx)

/-- The value `usb_ep_clear_correct_transfer` writes. -/
def clearCorrectTransferValue (epReg : Word) (dirIdx : ℕ) : Word :=
  (epReg &&& usbChepRegMask) &&&
    ~~~(1#32 <<< (if dirIdx = 1 then chepVttxPos else chepVtrxPos))

/-- The value `usb_ep_stall_set_hal` writes before the flags are preserved. -/
def stallSetValue (epReg : Word) (dirIdx : ℕ) : Word :=
  usbEpStatus (epReg &&& (usbChepRegMask ||| usbEpStatusMask dirIdx)) dirIdx .stall

/-- The value `usb_ep_stall_clear_hal` writes before the flags are preserved. -/
def stallClearValue (epReg : Word) (dirIdx : ℕ) : Word :=
  usbEpDataToggle
    (epReg &&& (usbChepRegMask ||| usbEpStatusMask dirIdx ||| usbEpDataToggleMask dirIdx))
    dirIdx 0#32

/-- The value `usb_tx_packet` writes before the flags are preserved. -/
def txValidValue (epReg : Word) : Word :=
  usbEpStatus epReg 1 .valid &&& (usbChepRegMask ||| usbEpStatusMask 1)

/-- The value the OUT branch of `usb_ep_queue_transfer_hal` writes before the flags are
preserved. -/
def rxValidValue (epReg : Word) (dirIdx : ℕ) : Word :=
  usbEpStatus (epReg &&& (usbChepRegMask ||| usbEpStatusMask dirIdx)) dirIdx .valid

/-- The value `usb_ep_control_init` writes. -/
def controlInitValue (epReg : Word) : Word :=
  usbEpStatus (usbEpStatus ((epReg &&& ~~~usbChepRegMask) ||| usbEpControl) 1 .nak) 0 .nak

/-- The value `usb_ep_open_hal` writes before the flags are preserved. -/
def epOpenValue (epReg epIdn typeBits : Word) (dirIdx : ℕ) : Word :=
  usbEpDataToggle
      (usbEpStatus ((epReg &&& ~~~usbChepRegMask) ||| epIdn ||| typeBits) dirIdx .nak) dirIdx
      0#32 &&&
    ~~~(if dirIdx = 1 then usbEpStatusMask 0 ||| usbEpDataToggleMask 0
      else usbEpStatusMask 1 ||| usbEpDataToggleMask 1)

/-- `usb_ep_reg_set` on a register value. -/
def regSet (r v : Word) : Word := chepRule.write r v

/-- `usb_ep_reg_set_preserve` on a register value. -/
def regSetPreserve (r v : Word) : Word := chepRule.write r (v ||| usbEpVttx ||| usbEpVtrx)

/-! ### What the hardware does to a register

A packet the device receives sets VTRX and turns the receiver to NAK; a SETUP packet also
turns the transmitter to NAK.  A packet the host has read sets VTTX and turns the transmitter
to NAK.  The data toggles, which nothing here reads, are left out. -/

def hwRxPacket (r : Word) : Word := (r &&& ~~~0xB800#32) ||| 0xA000#32

def hwSetupPacket (r : Word) : Word := (r &&& ~~~0xB830#32) ||| 0xA820#32

def hwTxPacket (r : Word) : Word := (r &&& ~~~0x30#32) ||| 0xA0#32

/-! ### What each write leaves

One bit of a register after a write is a boolean expression in the same bit before, once the
masks are evaluated at that bit. -/

/-- A write, seen through the fields of `EpView`. -/
theorem epView_write (r v : Word) :
    epView (chepRule.write r v) =
      { tx := .ofBits (r.getLsbD 5 ^^ v.getLsbD 5) (r.getLsbD 4 ^^ v.getLsbD 4)
        rx := .ofBits (r.getLsbD 13 ^^ v.getLsbD 13) (r.getLsbD 12 ^^ v.getLsbD 12)
        vttx := r.getLsbD 7 && v.getLsbD 7
        vtrx := r.getLsbD 15 && v.getLsbD 15
        setup := r.getLsbD 11 } := by
  simp [epView, epState, vttx, vtrx, setupFlag, FieldRegister.write, chepRule, statusPos,
    chepTxSttxPos, chepRxStrxPos, chepVttxPos, chepVtrxPos, chepSetupPos]

theorem epView_hwRxPacket (r : Word) :
    epView (hwRxPacket r) = { epView r with rx := .nak, vtrx := true, setup := false } := by
  simp [epView, epState, vttx, vtrx, setupFlag, hwRxPacket, statusPos, EpState.ofBits,
    chepTxSttxPos, chepRxStrxPos, chepVttxPos, chepVtrxPos, chepSetupPos]

theorem epView_hwSetupPacket (r : Word) :
    epView (hwSetupPacket r) =
      { tx := .nak, rx := .nak, vttx := vttx r, vtrx := true, setup := true } := by
  simp [epView, epState, vttx, vtrx, setupFlag, hwSetupPacket, statusPos, EpState.ofBits,
    chepTxSttxPos, chepRxStrxPos, chepVttxPos, chepVtrxPos, chepSetupPos]

theorem epView_hwTxPacket (r : Word) :
    epView (hwTxPacket r) = { epView r with tx := .nak, vttx := true } := by
  simp [epView, epState, vttx, vtrx, setupFlag, hwTxPacket, statusPos, EpState.ofBits,
    chepTxSttxPos, chepRxStrxPos, chepVttxPos, chepVtrxPos, chepSetupPos]

theorem epView_stallSet (r : Word) (dirIdx : ℕ) :
    epView (regSetPreserve r (stallSetValue r dirIdx)) =
      if dirIdx = 1 then { epView r with tx := .stall } else { epView r with rx := .stall } := by
  rw [regSetPreserve, epView_write]
  by_cases h : dirIdx = 1 <;>
    simp [epView, epState, vttx, vtrx, setupFlag, stallSetValue, usbEpStatus, statusPos, h,
      EpState.code, EpState.ofBits, usbChepRegMask, usbEpStatusMask, usbEpVttx, usbEpVtrx,
      chepTxSttxPos, chepRxStrxPos, chepVttxPos, chepVtrxPos, chepSetupPos]

/-- The status bits are written back, so each toggles itself to 0: the direction is left
disabled. -/
theorem epView_stallClear (r : Word) (dirIdx : ℕ) :
    epView (regSetPreserve r (stallClearValue r dirIdx)) =
      if dirIdx = 1 then { epView r with tx := .disabled }
      else { epView r with rx := .disabled } := by
  rw [regSetPreserve, epView_write]
  by_cases h : dirIdx = 1 <;>
    simp [epView, epState, vttx, vtrx, setupFlag, stallClearValue, usbEpDataToggle, statusPos,
      h, EpState.ofBits, usbChepRegMask, usbEpStatusMask, usbEpDataToggleMask, dataTogglePos,
      chepDtogTxPos, chepDtogRxPos, usbEpVttx, usbEpVtrx, chepTxSttxPos, chepRxStrxPos,
      chepVttxPos, chepVtrxPos, chepSetupPos]

theorem epView_txValid (r : Word) :
    epView (regSetPreserve r (txValidValue r)) = { epView r with tx := .valid } := by
  rw [regSetPreserve, epView_write]
  simp [epView, epState, vttx, vtrx, setupFlag, txValidValue, usbEpStatus, statusPos,
    EpState.code, EpState.ofBits, usbChepRegMask, usbEpStatusMask, usbEpVttx, usbEpVtrx,
    chepTxSttxPos, chepRxStrxPos, chepVttxPos, chepVtrxPos, chepSetupPos]

theorem epView_rxValid (r : Word) {dirIdx : ℕ} (h : dirIdx ≠ 1) :
    epView (regSetPreserve r (rxValidValue r dirIdx)) = { epView r with rx := .valid } := by
  rw [regSetPreserve, epView_write]
  simp [epView, epState, vttx, vtrx, setupFlag, rxValidValue, usbEpStatus, statusPos, h,
    EpState.code, EpState.ofBits, usbChepRegMask, usbEpStatusMask, usbEpVttx, usbEpVtrx,
    chepTxSttxPos, chepRxStrxPos, chepVttxPos, chepVtrxPos, chepSetupPos]

theorem epView_clearCorrectTransfer (r : Word) (dirIdx : ℕ) :
    epView (regSet r (clearCorrectTransferValue r dirIdx)) =
      if dirIdx = 1 then { epView r with vttx := false } else { epView r with vtrx := false } := by
  rw [regSet, epView_write]
  by_cases h : dirIdx = 1 <;>
    simp [epView, epState, vttx, vtrx, setupFlag, clearCorrectTransferValue, statusPos, h,
      usbChepRegMask, chepTxSttxPos, chepRxStrxPos, chepVttxPos, chepVtrxPos, chepSetupPos]

theorem epView_controlInit (r : Word) :
    epView (regSet r (controlInitValue r)) =
      { tx := .nak, rx := .nak, vttx := false, vtrx := false, setup := setupFlag r } := by
  rw [regSet, epView_write]
  simp [setupFlag, controlInitValue, usbEpStatus, statusPos, EpState.code, EpState.ofBits,
    usbChepRegMask, usbEpControl, chepTxSttxPos, chepRxStrxPos, chepSetupPos]

/-- Opening an endpoint leaves its own direction at NAK, whatever its number and type. -/
theorem epView_epOpen (r epIdn typeBits : Word) (dirIdx : ℕ)
    (hid : epIdn &&& 0xF0F0#32 = 0#32) (htype : typeBits &&& 0xF0F0#32 = 0#32) :
    epView (regSetPreserve r (epOpenValue r epIdn typeBits dirIdx)) =
      if dirIdx = 1 then { epView r with tx := .nak } else { epView r with rx := .nak } := by
  have bit : ∀ (v : Word) (i : ℕ), v &&& 0xF0F0#32 = 0#32 → (0xF0F0#32).getLsbD i = true →
      v.getLsbD i = false := by
    intro v i hv hi
    have := congrArg (fun w => w.getLsbD i) hv
    simpa [hi] using this
  have h4 := bit epIdn 4 hid rfl
  have h5 := bit epIdn 5 hid rfl
  have h12 := bit epIdn 12 hid rfl
  have h13 := bit epIdn 13 hid rfl
  have t4 := bit typeBits 4 htype rfl
  have t5 := bit typeBits 5 htype rfl
  have t12 := bit typeBits 12 htype rfl
  have t13 := bit typeBits 13 htype rfl
  rw [regSetPreserve, epView_write]
  by_cases h : dirIdx = 1 <;>
    simp_all [epView, epState, vttx, vtrx, setupFlag, epOpenValue, usbEpDataToggle,
      usbEpStatus, statusPos, dataTogglePos, EpState.code, EpState.ofBits, usbChepRegMask,
      usbEpStatusMask, usbEpDataToggleMask, usbEpVttx, usbEpVtrx, chepTxSttxPos,
      chepRxStrxPos, chepVttxPos, chepVtrxPos, chepSetupPos, chepDtogTxPos, chepDtogRxPos]

/-! ### One direction, and the address -/

theorem epState_eq (r : Word) (x : ℕ) :
    epState r x = if x = 1 then (epView r).tx else (epView r).rx := by
  by_cases hx : x = 1
  · rw [if_pos hx, hx]
    rfl
  · rw [if_neg hx]
    simp only [epView, epState, statusPos, if_neg hx]
    rfl

/-- A write that sets one direction and keeps the other. -/
theorem epState_of_epView {r r' : Word} {dirIdx : ℕ} {st : EpState}
    (h : epView r' = if dirIdx = 1 then { epView r with tx := st } else { epView r with rx := st })
    (x : ℕ) : epState r' x = if (x = 1 ↔ dirIdx = 1) then st else epState r x := by
  rw [epState_eq r' x, epState_eq r x, h]
  by_cases hdir : dirIdx = 1 <;> by_cases hx : x = 1 <;> simp [hdir, hx]

theorem epState_clearCorrectTransfer (r : Word) (dirIdx x : ℕ) :
    epState (regSet r (clearCorrectTransferValue r dirIdx)) x = epState r x := by
  rw [epState_eq, epState_eq, epView_clearCorrectTransfer]
  by_cases hdir : dirIdx = 1 <;> simp [hdir]

/-- Writing 0 leaves both directions as they are. -/
theorem epState_regSet_zero (r : Word) (x : ℕ) : epState (regSet r 0#32) x = epState r x := by
  rw [epState_eq, epState_eq, regSet, epView_write]
  simp [epView, epState, statusPos, chepTxSttxPos, chepRxStrxPos]

/-- The address field EA. -/
def epAddress (r : Word) : BitVec 4 := r.setWidth 4

/-- The address field is stored as it is written. -/
theorem epAddress_write (r v : Word) : epAddress (chepRule.write r v) = epAddress v := by
  apply BitVec.eq_of_getLsbD_eq
  intro i hi
  simp only [epAddress, BitVec.getLsbD_setWidth, FieldRegister.getLsbD_write]
  interval_cases i <;> simp [chepRule]

theorem epAddress_or (v w : Word) (hw : w &&& 0x0F#32 = 0#32) : epAddress (v ||| w) = epAddress v := by
  apply BitVec.eq_of_getLsbD_eq
  intro i hi
  have hbit : w.getLsbD i = false := by
    have := congrArg (fun u => u.getLsbD i) hw
    interval_cases i <;> simpa using this
  simp [epAddress, hbit]

theorem epAddress_regSet (r v : Word) : epAddress (regSet r v) = epAddress v := epAddress_write r v

theorem epAddress_regSetPreserve (r v : Word) : epAddress (regSetPreserve r v) = epAddress v := by
  rw [regSetPreserve, epAddress_write, epAddress_or _ _ (by decide), epAddress_or _ _ (by decide)]

theorem epAddress_stallSet (r : Word) (dirIdx : ℕ) : epAddress (stallSetValue r dirIdx) = epAddress r := by
  apply BitVec.eq_of_getLsbD_eq
  intro i hi
  by_cases hdir : dirIdx = 1 <;> interval_cases i <;>
    simp [epAddress, stallSetValue, usbEpStatus, statusPos, hdir, EpState.code, usbChepRegMask,
      usbEpStatusMask, chepTxSttxPos, chepRxStrxPos]

theorem epAddress_stallClear (r : Word) (dirIdx : ℕ) :
    epAddress (stallClearValue r dirIdx) = epAddress r := by
  apply BitVec.eq_of_getLsbD_eq
  intro i hi
  by_cases hdir : dirIdx = 1 <;> interval_cases i <;>
    simp [epAddress, stallClearValue, usbEpDataToggle, statusPos, dataTogglePos, hdir,
      usbChepRegMask, usbEpStatusMask, usbEpDataToggleMask, chepTxSttxPos, chepRxStrxPos,
      chepDtogTxPos, chepDtogRxPos]

theorem epAddress_txValid (r : Word) : epAddress (txValidValue r) = epAddress r := by
  apply BitVec.eq_of_getLsbD_eq
  intro i hi
  interval_cases i <;>
    simp [epAddress, txValidValue, usbEpStatus, statusPos, EpState.code, usbChepRegMask,
      usbEpStatusMask, chepTxSttxPos]

theorem epAddress_rxValid (r : Word) (dirIdx : ℕ) : epAddress (rxValidValue r dirIdx) = epAddress r := by
  apply BitVec.eq_of_getLsbD_eq
  intro i hi
  by_cases hdir : dirIdx = 1 <;> interval_cases i <;>
    simp [epAddress, rxValidValue, usbEpStatus, statusPos, hdir, EpState.code, usbChepRegMask,
      usbEpStatusMask, chepTxSttxPos, chepRxStrxPos]

theorem epAddress_controlInit (r : Word) : epAddress (controlInitValue r) = 0#4 := by
  apply BitVec.eq_of_getLsbD_eq
  intro i hi
  interval_cases i <;>
    simp [epAddress, controlInitValue, usbEpStatus, statusPos, EpState.code, usbChepRegMask,
      usbEpControl, chepTxSttxPos, chepRxStrxPos]

/-- Opening an endpoint puts its number in the address field. -/
theorem epAddress_epOpen (r epIdn typeBits : Word) (dirIdx : ℕ) (htype : typeBits &&& 0x0F#32 = 0#32) :
    epAddress (epOpenValue r epIdn typeBits dirIdx) = epIdn.setWidth 4 := by
  apply BitVec.eq_of_getLsbD_eq
  intro i hi
  have hbit : typeBits.getLsbD i = false := by
    have := congrArg (fun u => u.getLsbD i) htype
    interval_cases i <;> simpa using this
  by_cases hdir : dirIdx = 1 <;> interval_cases i <;>
    simp_all [epAddress, epOpenValue, usbEpDataToggle, usbEpStatus, statusPos, dataTogglePos,
      EpState.code, usbChepRegMask, usbEpStatusMask, usbEpDataToggleMask, chepTxSttxPos,
      chepRxStrxPos, chepDtogTxPos, chepDtogRxPos]

theorem epAddress_hwRxPacket (r : Word) : epAddress (hwRxPacket r) = epAddress r := by
  apply BitVec.eq_of_getLsbD_eq
  intro i hi
  interval_cases i <;> simp [epAddress, hwRxPacket]

theorem epAddress_hwSetupPacket (r : Word) : epAddress (hwSetupPacket r) = epAddress r := by
  apply BitVec.eq_of_getLsbD_eq
  intro i hi
  interval_cases i <;> simp [epAddress, hwSetupPacket]

theorem epAddress_hwTxPacket (r : Word) : epAddress (hwTxPacket r) = epAddress r := by
  apply BitVec.eq_of_getLsbD_eq
  intro i hi
  interval_cases i <;> simp [epAddress, hwTxPacket]

end PcbMill
