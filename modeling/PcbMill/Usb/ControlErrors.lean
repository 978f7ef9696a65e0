import PcbMill.Usb.Ep0Run

/-!
# The endpoint state after a rejected control request

`process_control_request_hal` passes direction bits where the stall routine takes direction
indices, so both its calls stall the receiver; and what `usb_control_transfer` returns is
dropped, so a failing stage stalls nothing.
-/

namespace PcbMill

open Run

def BothStalled (s : Usb) : Prop :=
  (epView (s.chep 0)).tx = .stall ∧ (epView (s.chep 0)).rx = .stall

/-! ### Which packets fail -/

/-- A SETUP packet is pending that `usb_process_control_request` rejects. -/
def SetupRejected (s : Usb) : Prop :=
  vtrx (s.chep 0) = true ∧ setupFlag (s.chep 0) = true ∧
    usbPmaCountGet s 0 usbEpRxCountAddrIdx = 8 ∧
    (usbProcessControlRequest (usbEpClearCorrectTransfer s 0 usbDirDeviceInHostOutIdx)
      (pendingRequest s)).1 = false

/-- The state in which a pending OUT packet is passed to `usb_control_transfer`. -/
def rxStageState (s : Usb) : Usb :=
  usbRxPacketStore (usbEpClearCorrectTransfer s 0 usbDirDeviceInHostOutIdx) 0

/-- An OUT packet is pending for which `usb_control_transfer` returns false. -/
def RxStageFails (s : Usb) : Prop :=
  vtrx (s.chep 0) = true ∧ setupFlag (s.chep 0) = false ∧
    (usbControlTransfer (rxStageState s) 0x00#8
      ((rxStageState s).epTransferSet 0 usbDirDeviceInHostOutIdx).feed.fedCount).1 = false

/-- The state in which a completed IN packet is passed to `usb_control_transfer`. -/
def txStageState (s : Usb) : Usb :=
  usbEpClearCorrectTransfer (afterIrqRx s) 0 usbDirDeviceOutHostInIdx

/-- An IN transfer has ended for which `usb_control_transfer` returns false. -/
def TxStageFails (s : Usb) : Prop :=
  let feed := ((txStageState s).epTransferSet 0 usbDirDeviceOutHostInIdx).feed
  vttx (s.chep 0) = true ∧ feed.totalCount = feed.fedCount ∧
    (usbControlTransfer (txStageState s) 0x80#8 feed.fedCount).1 = false

/-! ### What their handling leaves -/

theorem usbEpStallSetHal_view (s : Usb) (dirIdx : ℕ) :
    epView ((usbEpStallSetHal s 0 dirIdx).chep 0) =
      if dirIdx = 1 then { epView (s.chep 0) with tx := .stall }
      else { epView (s.chep 0) with rx := .stall } := by
  have hchep : (usbEpStallSetHal s 0 dirIdx).chep 0 =
      regSetPreserve (s.chep 0) (stallSetValue (s.chep 0) dirIdx) :=
    Function.update_self 0 _ s.chep
  rw [hchep, epView_stallSet]

theorem usbEpClearCorrectTransfer_view (s : Usb) (dirIdx : ℕ) :
    epView ((usbEpClearCorrectTransfer s 0 dirIdx).chep 0) =
      if dirIdx = 1 then { epView (s.chep 0) with vttx := false }
      else { epView (s.chep 0) with vtrx := false } := by
  have hchep : (usbEpClearCorrectTransfer s 0 dirIdx).chep 0 =
      regSet (s.chep 0) (clearCorrectTransferValue (s.chep 0) dirIdx) :=
    Function.update_self 0 _ s.chep
  rw [hchep, epView_clearCorrectTransfer]

/-- Rejection changes no register. -/
theorem usbProcessControlRequest_reject_chep {s : Usb} {r : UsbControlRequest}
    (h : (usbProcessControlRequest s r).1 = false) :
    (usbProcessControlRequest s r).2.chep = s.chep := by
  have hout := usbProcessControlRequest_outcome s r
  generalize usbProcessControlRequest s r = p at h hout ⊢
  cases hout with
  | reject s' _ hs => exact hs.chep
  | setConfiguration s' =>
    obtain ⟨s₁, -, heq⟩ := usbSetConfiguration_eq s' r
    rw [heq] at h
    exact Bool.noConfusion h
  | response | status | setAddress | endpointFeature => exact Bool.noConfusion h

/-- Both stall calls of a rejected SETUP act on the receiver. -/
theorem setupRejected_view {s : Usb} (h : SetupRejected s) :
    epView ((afterIrqRx s).chep 0) = { epView (s.chep 0) with rx := .stall, vtrx := false } := by
  obtain ⟨hrx, hsetup, hcount, hreject⟩ := h
  have hview := usbEpClearCorrectTransfer_view s usbDirDeviceInHostOutIdx
  have hchep := usbProcessControlRequest_reject_chep hreject
  have hrun : afterIrqRx s = processControlRequestHal
      (usbEpClearCorrectTransfer s 0 usbDirDeviceInHostOutIdx) (pendingRequest s) := by
    simp only [afterIrqRx, usbIrqRx, usbEpSetup]
    rw [if_pos hrx, if_pos hsetup]
    exact if_pos hcount
  rw [hrun, processControlRequestHal, show usbProcessControlRequest _ (pendingRequest s) =
    (false, (usbProcessControlRequest (usbEpClearCorrectTransfer s 0 usbDirDeviceInHostOutIdx)
      (pendingRequest s)).2) from Prod.ext hreject rfl]
  dsimp only
  show epView ((usbEpStallSetHal _ 0 _).chep 0) = _
  rw [usbEpStallSetHal_view, usbEpStallSetHal_view, hchep, hview]
  rfl

/-- The callbacks fail without a register access. -/
theorem controlCompleteCb_false_chep {s : Usb} {cb : ControlCompleteCb}
    (h : (controlCompleteCb s cb .status).1 = false) :
    (controlCompleteCb s cb .status).2.chep = s.chep := by
  cases cb with
  | usbDeviceSetAddressComplete => exact Bool.noConfusion h
  | usbCdcControlTransfer =>
    simp only [controlCompleteCb, usbCdcControlTransfer] at *
    split_ifs at * <;> rfl

theorem usbControlDataComplete_fst (s : Usb) : (usbControlDataComplete s).1 = true := by
  simp only [usbControlDataComplete]
  split
  · exact usbControlStatusStage_fst ..
  · rfl

/-- A stage fails without a register access. -/
theorem usbControlTransfer_false_chep {s : Usb} {epAddr : Byte} {n : ℕ}
    (h : (usbControlTransfer s epAddr n).1 = false) :
    (usbControlTransfer s epAddr n).2.chep = s.chep := by
  simp only [usbControlTransfer] at *
  split_ifs at * with hdir hzero hnull hend
  · rfl
  · cases hcb : s.controlTransfer.controlCompleteCb with
    | none => rfl
    | some cb =>
      rw [hcb] at h
      exact controlCompleteCb_false_chep h
  · rfl
  · rw [usbControlDataComplete_fst] at h
    exact Bool.noConfusion h
  · rw [usbControlDataStage_fst] at h
    exact Bool.noConfusion h

theorem rxStageFails_view {s : Usb} (h : RxStageFails s) :
    epView ((afterIrqRx s).chep 0) = { epView (s.chep 0) with vtrx := false } := by
  obtain ⟨hrx, hsetup, hfail⟩ := h
  have hchep := usbControlTransfer_false_chep hfail
  have hview := usbEpClearCorrectTransfer_view s usbDirDeviceInHostOutIdx
  have hrun : (afterIrqRx s).chep = (usbControlTransfer (rxStageState s) 0x00#8
      ((rxStageState s).epTransferSet 0 usbDirDeviceInHostOutIdx).feed.fedCount).2.chep := by
    simp only [afterIrqRx, usbIrqRx]
    rw [if_pos hrx, if_neg (by rw [hsetup]; decide)]
    rfl
  rw [hrun, hchep]
  exact hview

theorem txStageFails_view {s : Usb} (h : TxStageFails s) :
    epView ((afterIrqTx s).chep 0) = { epView ((afterIrqRx s).chep 0) with vttx := false } := by
  obtain ⟨htx, hcount, hfail⟩ := h
  have hchep := usbControlTransfer_false_chep hfail
  have hview := usbEpClearCorrectTransfer_view (afterIrqRx s) usbDirDeviceOutHostInIdx
  have hrun : afterIrqTx s = (usbControlTransfer (txStageState s) 0x80#8
      ((txStageState s).epTransferSet 0 usbDirDeviceOutHostInIdx).feed.fedCount).2 := by
    simp only [afterIrqTx, usbIrqTx]
    rw [if_pos htx]
    exact if_neg (not_not.mpr hcount)
  rw [hrun, hchep]
  exact hview

/-! ### Runs -/

/-- **Rejected control requests stall both directions**: once the handler is done with a packet
that fails, both fields read STALL. -/
def ErrorStallsBoth (s : Usb) : Ep0Event → Prop
  | .irq => (SetupRejected s ∨ RxStageFails s → BothStalled (afterIrqRx s)) ∧
      (TxStageFails s → BothStalled (afterIrqTx s))
  | _ => True

/-- What the fields must have been when a failing packet is handled: the transmitter already
stalled for a SETUP packet, both directions for a later stage. -/
def StalledBefore (s : Usb) : Ep0Event → Prop
  | .irq => (SetupRejected s → (epView (s.chep 0)).tx = .stall) ∧
      (RxStageFails s → BothStalled s) ∧ (TxStageFails s → BothStalled (afterIrqRx s))
  | _ => True

theorem errorStallsBoth_iff (s : Usb) (e : Ep0Event) :
    ErrorStallsBoth s e ↔ StalledBefore s e := by
  cases e with
  | irq =>
    have hsetup : SetupRejected s →
        (BothStalled (afterIrqRx s) ↔ (epView (s.chep 0)).tx = .stall) := by
      intro h
      rw [BothStalled, setupRejected_view h]
      exact and_iff_left rfl
    have hrx : RxStageFails s → (BothStalled (afterIrqRx s) ↔ BothStalled s) := by
      intro h
      rw [BothStalled, rxStageFails_view h]
      rfl
    have htx : TxStageFails s → (BothStalled (afterIrqTx s) ↔ BothStalled (afterIrqRx s)) := by
      intro h
      rw [BothStalled, txStageFails_view h]
      rfl
    constructor
    · rintro ⟨hfirst, hsecond⟩
      exact ⟨fun h => (hsetup h).mp (hfirst (.inl h)), fun h => (hrx h).mp (hfirst (.inr h)),
        fun h => (htx h).mp (hsecond h)⟩
    · rintro ⟨hs, hr, ht⟩
      refine ⟨?_, fun h => (htx h).mpr (ht h)⟩
      rintro (h | h)
      · exact (hsetup h).mpr (hs h)
      · exact (hrx h).mpr (hr h)
  | reset | setup | out | poll => exact Iff.rfl

/-- In every run, from every state, failing packets end with both directions stalled exactly as
far as they were stalled before. -/
theorem errors_stall_both_iff (s : Usb) (es : List Ep0Event) :
    Guarded ep0Step ErrorStallsBoth s es ↔ Guarded ep0Step StalledBefore s es :=
  guarded_congr errorStallsBoth_iff

/-- A vendor request. -/
def vendorRequest : UsbControlRequest :=
  { bmRequestType := 0x40#8, bRequest := 0#8, wValue := 0#16, wIndex := 0#16, wLength := 0#16 }

/-- The freshly reset device rejects it and stalls the receiver only. -/
theorem vendorRequest_stalls_receiver_only :
    ¬Guarded ep0Step ErrorStallsBoth usbBoot [.setup vendorRequest, .irq] := by
  rintro ⟨-, ⟨hstall, -⟩, -⟩
  have hrejected : SetupRejected (ep0Step usbBoot (.setup vendorRequest)) :=
    ⟨by decide, by decide, by decide, by decide⟩
  have hnak : (epView ((afterIrqRx (ep0Step usbBoot (.setup vendorRequest))).chep 0)).tx ≠ .stall := by
    decide
  exact hnak (hstall (.inl hrejected)).1

end PcbMill
