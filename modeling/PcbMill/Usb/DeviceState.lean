import PcbMill.Lib.Run
import PcbMill.Usb.ControlStages

/-!
# Address and configuration over bus resets, SETUP requests and stage completions

`usb_device.address` follows DADDR and the configuration stays consistent exactly as long as
no SET_CONFIGURATION changes the configuration: the one that does clears the address and the
addressed flag.
-/

namespace PcbMill

open Run

/-! ### Events -/

inductive DeviceEvent where
  | reset
  | setup (r : UsbControlRequest)
  | stage (epAddr : Byte) (transferredBytes : ℕ)
  deriving DecidableEq, Repr

def deviceStep (s : Usb) : DeviceEvent → Usb
  | .reset => usbReset s
  | .setup r => (usbProcessControlRequest s r).2
  | .stage epAddr n => (usbControlTransfer s epAddr n).2

/-! ### The property -/

/-- The configuration value the firmware offers: `bConfigurationValue` of its descriptor. -/
def offeredConfiguration : Byte := configurationMemory 5

/-- The address is the one in DADDR; the configuration is 0 or the offered one, and is 0 while
the device is not addressed. -/
structure DeviceConsistent (s : Usb) : Prop where
  address : s.usbDevice.address = s.daddr &&& 0x7F#8
  offered : s.usbDevice.configNum = 0#8 ∨ s.usbDevice.configNum = offeredConfiguration
  addressed : s.usbDevice.configNum ≠ 0#8 → s.usbDevice.addressed = true

/-- A GET_CONFIGURATION that asks for data. -/
def IsGetConfiguration (r : UsbControlRequest) : Prop :=
  usbRequestType r.bmRequestType = .standard ∧ usbRequestRecipient r.bmRequestType = .device ∧
    r.bRequest = usbStdGetConfiguration ∧ usbRequestDirection r.bmRequestType = 1 ∧
    0 < r.wLength.toNat

/-- A SET_CONFIGURATION whose value names no offered configuration is rejected and leaves the
device as it is; GET_CONFIGURATION answers the configuration. -/
def ConfigurationAnswered (s : Usb) : DeviceEvent → Prop
  | .setup r =>
    (IsSetConfiguration r ∧ u16Low r.wValue ≠ 0#8 ∧ u16Low r.wValue ≠ offeredConfiguration →
      (usbProcessControlRequest s r).1 = false ∧
        (usbProcessControlRequest s r).2.usbDevice = { s.usbDevice with connected := true }) ∧
    (IsGetConfiguration r →
      (usbProcessControlRequest s r).2.load ⟨.ep0ControlBuffer, 0⟩ 1 = [s.usbDevice.configNum])
  | _ => True

/-- The condition: SET_CONFIGURATION and GET_CONFIGURATION carry the current configuration as
their value. -/
def ConfigurationKept (s : Usb) : DeviceEvent → Prop
  | .setup r => IsSetConfiguration r ∨ IsGetConfiguration r →
      u16Low r.wValue = s.usbDevice.configNum
  | _ => True

/-! ### What the stages leave alone -/

/-- The device variables and DADDR are the same. -/
def DeviceSame (s s' : Usb) : Prop := s'.usbDevice = s.usbDevice ∧ s'.daddr = s.daddr

theorem deviceSame_queue (s : Usb) (epIdn dirIdx : ℕ) (buffer : Ptr) (n : ℕ) :
    DeviceSame s (usbEpQueueTransferHal s epIdn dirIdx buffer n).2 := by
  simp only [usbEpQueueTransferHal, DeviceSame]
  split <;> exact ⟨rfl, rfl⟩

theorem deviceSame_statusStage (s : Usb) (r : UsbControlRequest) :
    DeviceSame s (usbControlStatusStage s r).2 := by
  rw [usbControlStatusStage_eq]
  exact deviceSame_queue ..

theorem deviceSame_initStatusStage (s : Usb) (r : UsbControlRequest) :
    DeviceSame s (usbControlInitStatusStage s r).2 :=
  deviceSame_statusStage (s.setControl _) r

theorem deviceSame_dataStage (s : Usb) : DeviceSame s (usbControlDataStage s).2 := by
  rcases usbRequestDirection_cases s.controlTransfer.request.bmRequestType with hdir | hdir
  · rw [usbControlDataStage_out hdir]
    exact deviceSame_queue ..
  · rw [usbControlDataStage_in hdir]
    exact deviceSame_queue (dataStageCopy s) ..

theorem deviceSame_response (s : Usb) (r : UsbControlRequest) (buffer : Ptr) (len : ℕ) :
    DeviceSame s (usbEpInitiateControlResponse s r buffer len).2 := by
  by_cases hlen : 0 < r.wLength.toNat
  · rw [usbEpInitiateControlResponse_data hlen]
    exact deviceSame_dataStage (responseState s r buffer len)
  · rw [usbEpInitiateControlResponse_status hlen]
    exact deviceSame_statusStage (responseState s r buffer len) r

theorem deviceSame_endpointFeature (s : Usb) (r : UsbControlRequest) :
    DeviceSame s (endpointFeatureState s r) := by
  simp only [endpointFeatureState]
  split_ifs <;> exact ⟨rfl, rfl⟩

/-! ### The invariant -/

/-- What holds while no SET_CONFIGURATION has changed the configuration. -/
structure Unconfigured (s : Usb) : Prop where
  address : s.usbDevice.address = s.daddr &&& 0x7F#8
  pending : s.usbDevice.addressPending &&& 0x80#8 = 0#8
  configNum : s.usbDevice.configNum = 0#8

theorem Unconfigured.consistent {s : Usb} (h : Unconfigured s) : DeviceConsistent s :=
  { address := h.address, offered := .inl h.configNum
    addressed := fun hne => absurd h.configNum hne }

theorem Unconfigured.of_same {s s' : Usb} (h : Unconfigured s) (hs : DeviceSame s s') :
    Unconfigured s' := by
  constructor
  · rw [hs.1, hs.2]
    exact h.address
  · rw [hs.1]
    exact h.pending
  · rw [hs.1]
    exact h.configNum

theorem Unconfigured.of_handled {s s' : Usb} {r : UsbControlRequest} (h : Unconfigured s)
    (hs : Handled r s s') : Unconfigured s' := by
  constructor
  · rw [hs.address, hs.daddr]
    exact h.address
  · rw [hs.addressPending]
    split
    · generalize r.wValue = v
      apply BitVec.eq_of_getLsbD_eq
      intro i hi
      interval_cases i <;> simp [u16Low]
    · exact h.pending
  · rw [hs.configNum]
    exact h.configNum

theorem unconfigured_reset (s : Usb) : Unconfigured (usbReset s) :=
  { address := show (0#8 : Byte) = 0x80#8 &&& 0x7F#8 by decide
    pending := show (0#8 : Byte) &&& 0x80#8 = 0#8 by decide
    configNum := rfl }

/-- A request keeps the invariant unless it changes the configuration. -/
theorem unconfigured_setup {s : Usb} {r : UsbControlRequest} (h : Unconfigured s)
    (hkept : IsSetConfiguration r → u16Low r.wValue = s.usbDevice.configNum) :
    Unconfigured (usbProcessControlRequest s r).2 := by
  have hcase := actionCase r
  have hout := usbProcessControlRequest_outcome s r
  generalize usbProcessControlRequest s r = p at hout ⊢
  cases hout with
  | reject s' _ hs => exact h.of_handled hs
  | response buffer len s' _ hs => exact (h.of_handled hs).of_same (deviceSame_response ..)
  | status s' _ hs => exact (h.of_handled hs).of_same (deviceSame_initStatusStage ..)
  | setAddress s' _ hs =>
    exact ((h.of_handled hs).of_same (deviceSame_initStatusStage ..)).of_same (deviceSame_queue ..)
  | setConfiguration s' hact hs =>
    obtain ⟨s₁, hconf, heq⟩ := usbSetConfiguration_eq s' r
    rw [hact] at hcase
    cases hcase with
    | setConfiguration hset =>
      have hsame : s₁ = s' := hconf.same (hs.configNum.trans (hkept hset).symm)
      rw [heq, hsame]
      exact (h.of_handled hs).of_same (deviceSame_initStatusStage ..)
  | endpointFeature s' _ hs => exact (h.of_handled hs).of_same (deviceSame_endpointFeature ..)

/-- The completion of SET_ADDRESS moves the pending address to the device and to DADDR. -/
theorem unconfigured_callback {s : Usb} (h : Unconfigured s) (cb : ControlCompleteCb)
    {stage : ControlStage} (hstage : stage ≠ .setup) :
    Unconfigured (controlCompleteCb s cb stage).2 := by
  cases cb with
  | usbDeviceSetAddressComplete =>
    simp only [controlCompleteCb, usbDeviceSetAddressComplete]
    split
    · refine ⟨?_, show (0#8 : Byte) &&& 0x80#8 = 0#8 by decide, h.configNum⟩
      show s.usbDevice.addressPending = (0x80#8 ||| s.usbDevice.addressPending) &&& 0x7F#8
      have hp := h.pending
      revert hp
      generalize s.usbDevice.addressPending = v
      revert v
      decide
    · exact ⟨h.address, h.pending, h.configNum⟩
  | usbCdcControlTransfer =>
    refine h.of_same ?_
    simp only [controlCompleteCb, usbCdcControlTransfer]
    split_ifs <;> exact ⟨rfl, rfl⟩

theorem unconfigured_stage {s : Usb} (h : Unconfigured s) (epAddr : Byte) (n : ℕ) :
    Unconfigured (usbControlTransfer s epAddr n).2 := by
  have hreceived : ∀ s : Usb, DeviceSame s (usbControlDataReceived s n) := by
    intro s
    unfold usbControlDataReceived
    dsimp only
    split <;> exact ⟨rfl, rfl⟩
  have hlog : ∀ e, Unconfigured (s.log e) := fun e => h.of_same ⟨rfl, rfl⟩
  unfold usbControlTransfer
  dsimp only
  split_ifs
  · exact h
  · split
    · exact unconfigured_callback h _ ControlStage.noConfusion
    · exact h
  · exact hlog _
  · have hr := (hlog (.dataStage s.controlTransfer.request n)).of_same (hreceived _)
    unfold usbControlDataComplete
    have hcb : Unconfigured (usbControlDataCallback (usbControlDataReceived
        (s.log (.dataStage s.controlTransfer.request n)) n)).2 := by
      unfold usbControlDataCallback
      split
      · exact unconfigured_callback hr _ ControlStage.noConfusion
      · exact hr
    dsimp only
    split
    · exact hcb.of_same (deviceSame_statusStage ..)
    · exact hcb.of_same ⟨rfl, rfl⟩
  · exact ((hlog _).of_same (hreceived _)).of_same (deviceSame_dataStage _)

theorem unconfigured_step {s : Usb} {e : DeviceEvent} (h : Unconfigured s)
    (hkept : ConfigurationKept s e) : Unconfigured (deviceStep s e) := by
  cases e with
  | reset => exact unconfigured_reset s
  | setup r => exact unconfigured_setup h fun hset => hkept (.inl hset)
  | stage epAddr n => exact unconfigured_stage h epAddr n

/-! ### Answers -/

theorem usbProcessControlRequest_device {r : UsbControlRequest}
    (htype : usbRequestType r.bmRequestType = .standard)
    (hrecipient : usbRequestRecipient r.bmRequestType = .device) (s : Usb) :
    usbProcessControlRequest s r = usbProcessDeviceControlRequest (requestStart s) r := by
  simp only [usbProcessControlRequest]
  rw [htype, hrecipient]
  rfl

theorem usbProcessControlRequest_getConfiguration {r : UsbControlRequest}
    (h : IsGetConfiguration r) (s : Usb) :
    usbProcessControlRequest s r =
      usbEpInitiateControlResponse ((requestStart s).store ⟨.configNum, 0⟩ [u16Low r.wValue]) r
        ⟨.configNum, 0⟩ 1 := by
  obtain ⟨htype, hrecipient, hreq, -, -⟩ := h
  rw [usbProcessControlRequest_device htype hrecipient]
  simp only [usbProcessDeviceControlRequest]
  rw [if_neg (by rw [htype]; decide), if_neg (not_not.mpr htype),
    if_neg (by rw [hreq]; decide), if_pos hreq]

/-- The first packet of an IN data stage is in the control buffer. -/
theorem usbControlDataStage_load {s : Usb}
    (hdir : usbRequestDirection s.controlTransfer.request.bmRequestType = 1) :
    (usbControlDataStage s).2.load ⟨.ep0ControlBuffer, 0⟩ (dataStageLen s) =
      s.load s.controlTransfer.feed.buffer (dataStageLen s) := by
  have hram : (usbControlDataStage s).2.ram = (dataStageCopy s).ram := by
    rw [usbControlDataStage_in hdir]
    exact usbEpQueueTransferHal_ram ..
  have hlen : (s.load s.controlTransfer.feed.buffer (dataStageLen s)).length = dataStageLen s :=
    Segment.readSegment_length ..
  have hwrite := Segment.readSegment_writeSegment (s.ram .ep0ControlBuffer) 0
    (s.load s.controlTransfer.feed.buffer (dataStageLen s))
  rw [hlen] at hwrite
  rw [← hwrite]
  show Segment.readSegment ((usbControlDataStage s).2.ram .ep0ControlBuffer) 0 _ = _
  rw [hram]
  rfl

/-- GET_CONFIGURATION answers the value of the request. -/
theorem getConfiguration_answer {r : UsbControlRequest} (h : IsGetConfiguration r) (s : Usb) :
    (usbProcessControlRequest s r).2.load ⟨.ep0ControlBuffer, 0⟩ 1 = [u16Low r.wValue] := by
  have heq := usbProcessControlRequest_getConfiguration h s
  obtain ⟨-, -, -, hdir, hlen⟩ := h
  generalize hs₀ : (requestStart s).store ⟨.configNum, 0⟩ [u16Low r.wValue] = s₀ at heq
  have hdata : dataStageLen (responseState s₀ r ⟨.configNum, 0⟩ 1) = 1 := by
    rw [dataStageLen_responseState]
    simp only [usbEp0BufferSize]
    omega
  have hload := usbControlDataStage_load (s := responseState s₀ r ⟨.configNum, 0⟩ 1) hdir
  rw [hdata] at hload
  rw [heq, usbEpInitiateControlResponse_data hlen, hload, ← hs₀]
  rfl

/-! ### Histories -/

/-- A SET_CONFIGURATION that changes the configuration leaves the device configured without an
address. -/
theorem setConfiguration_breaks {s : Usb} {r : UsbControlRequest} (h : Unconfigured s)
    (hset : IsSetConfiguration r) (hne : u16Low r.wValue ≠ s.usbDevice.configNum) :
    ¬DeviceConsistent (usbProcessControlRequest s r).2 := by
  have hact := requestAction_of_setConfiguration hset
  have hout := usbProcessControlRequest_outcome s r
  generalize usbProcessControlRequest s r = p at hout ⊢
  cases hout with
  | setConfiguration s' _ hs =>
    obtain ⟨s₁, hconf, heq⟩ := usbSetConfiguration_eq s' r
    have hsame : (usbControlInitStatusStage s₁ r).2.usbDevice = s₁.usbDevice :=
      (deviceSame_initStatusStage s₁ r).1
    obtain ⟨-, haddressed, -⟩ := hconf.address (by rw [hs.configNum]; exact hne.symm)
    rw [heq]
    intro hcons
    have haddr := hcons.addressed
    rw [hsame, hconf.configNum, haddressed] at haddr
    exact Bool.false_ne_true (haddr (by rw [h.configNum] at hne; exact hne))
  | reject _ h' | response _ _ _ h' | status _ h' | setAddress _ h' | endpointFeature _ h' =>
    rw [hact] at h'
    exact RequestAction.noConfusion h'

/-- **Device-state consistency, exactly**: over every history from initialisation, the device
state stays consistent and the configuration requests are answered right if and only if each of
them carries the current configuration. -/
theorem device_consistent_iff (es : List DeviceEvent) :
    (Always deviceStep DeviceConsistent (usbDeviceInit usbPowerOn) es ∧
      Guarded deviceStep ConfigurationAnswered (usbDeviceInit usbPowerOn) es) ↔
      Guarded deviceStep ConfigurationKept (usbDeviceInit usbPowerOn) es := by
  refine always_and_guarded_iff (I := Unconfigured) (fun s h => h.consistent)
    (fun s e h hkept => unconfigured_step h hkept) ?_ ?_ ?_
  · intro s e h hkept
    cases e with
    | setup r =>
      constructor
      · rintro ⟨hset, hzero, -⟩
        exact absurd ((hkept (.inl hset)).trans h.configNum) hzero
      · intro hget
        rw [getConfiguration_answer hget, hkept (.inr hget)]
    | reset | stage => trivial
  · intro s e h hkept hanswered
    cases e with
    | setup r =>
      simp only [ConfigurationKept, not_forall] at hkept
      obtain ⟨hset | hget, hne⟩ := hkept
      · exact setConfiguration_breaks h hset hne
      · have hanswer := hanswered.2 hget
        rw [getConfiguration_answer hget, List.cons.injEq] at hanswer
        exact absurd hanswer.1 hne
    | reset | stage => exact absurd trivial hkept
  · exact { address := show (0#8 : Byte) = 0x80#8 &&& 0x7F#8 by decide
            pending := show (0#8 : Byte) &&& 0x80#8 = 0#8 by decide
            configNum := rfl }

/-- SET_ADDRESS 5 with its status stage, then SET_CONFIGURATION 1. -/
def enumeration : List DeviceEvent :=
  [.setup setAddressFive, .stage 0x80#8 0,
    .setup { bmRequestType := 0x00#8, bRequest := usbStdSetConfiguration, wValue := 1#16
             wIndex := 0#16, wLength := 0#16 }]

/-- After it DADDR still holds address 5 and `usb_device.address` is 0. -/
theorem enumeration_loses_address :
    ¬(Always deviceStep DeviceConsistent (usbDeviceInit usbPowerOn) enumeration ∧
      Guarded deviceStep ConfigurationAnswered (usbDeviceInit usbPowerOn) enumeration) := by
  rintro ⟨h, -⟩
  have hlast := h.last.address
  have hne : (runFrom deviceStep (usbDeviceInit usbPowerOn) enumeration).usbDevice.address ≠
      (runFrom deviceStep (usbDeviceInit usbPowerOn) enumeration).daddr &&& 0x7F#8 := by
    decide
  exact hne hlast

end PcbMill
