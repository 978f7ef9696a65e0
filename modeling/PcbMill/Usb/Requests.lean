import PcbMill.Usb.Irq

/-!
# What each request makes the device do

`requestAction` sorts the SETUP packets by what the handlers do with them, and
`usbProcessControlRequest_outcome` says so once for all of them: the results about control
transfers start from its cases and do not unfold the handlers again.
-/

namespace PcbMill

/-- The ends a SETUP packet can come to. -/
inductive RequestAction where
  | reject
  | response (buffer : Ptr) (len : ℕ)
  | status
  | setAddress
  | setConfiguration
  | endpointFeature
  deriving DecidableEq, Repr

def classAction (r : UsbControlRequest) : RequestAction :=
  if r.bRequest = cdcRequestSetLineCoding ∨ r.bRequest = cdcRequestGetLineCoding then
    .response ⟨.lineCoding, 0⟩ 7
  else if r.bRequest = cdcRequestSetControlLineState ∨ r.bRequest = cdcRequestSendBreak then .status
  else .reject

def descriptorAction (r : UsbControlRequest) : RequestAction :=
  if u16High r.wValue = usbDescriptorTypeDevice then .response ⟨.descriptorDevice, 0⟩ 18
  else if u16High r.wValue = usbDescriptorTypeConfiguration then
    .response ⟨.usbConfigurationDescriptor, 0⟩ 75
  else if u16High r.wValue = usbDescriptorTypeString then
    match usbDescriptorString (u16Low r.wValue) with
    | none => .reject
    | some bytes => .response ⟨.descriptorStr, 0⟩ (bytes.getD 0 0#8).toNat
  else if u16High r.wValue = usbDescriptorTypeDeviceQualifier then
    .response ⟨.deviceQualifierDesc, 0⟩ 10
  else .reject

def deviceAction (r : UsbControlRequest) : RequestAction :=
  if r.bRequest = usbStdSetAddress then .setAddress
  else if r.bRequest = usbStdGetConfiguration then .response ⟨.configNum, 0⟩ 1
  else if r.bRequest = usbStdSetConfiguration then .setConfiguration
  else if r.bRequest = usbStdGetDescriptor then descriptorAction r
  else if r.bRequest = usbStdSetFeature ∨ r.bRequest = usbStdClearFeature then
    if r.wValue = usbFeatureRemoteWakeup then .status else .reject
  else if r.bRequest = usbStdGetStatus then .response ⟨.status, 0⟩ 2
  else .reject

def interfaceAction (r : UsbControlRequest) : RequestAction :=
  if r.bRequest = usbStdGetInterface then .response ⟨.alternate, 0⟩ 1
  else if r.bRequest = usbStdSetInterface then .status
  else .reject

def endpointAction (r : UsbControlRequest) : RequestAction :=
  if r.bRequest = usbStdClearFeature ∨ r.bRequest = usbStdSetFeature then .endpointFeature
  else .reject

def requestAction (r : UsbControlRequest) : RequestAction :=
  match usbRequestType r.bmRequestType, usbRequestRecipient r.bmRequestType with
  | _, .other => .reject
  | .classSpecific, _ => classAction r
  | .standard, .device => deviceAction r
  | .standard, .interface => interfaceAction r
  | .standard, .endpoint => endpointAction r
  | _, _ => .reject

/-- The completion callback an accepted request leaves behind. -/
def requestCb (r : UsbControlRequest) : Option ControlCompleteCb :=
  if usbRequestType r.bmRequestType = .classSpecific then some .usbCdcControlTransfer
  else if requestAction r = .setAddress then some .usbDeviceSetAddressComplete
  else none

/-- The completion callback a rejected request leaves behind: class and interface requests are
first offered to the CDC driver. -/
def rejectCb (r : UsbControlRequest) : Option ControlCompleteCb :=
  match usbRequestType r.bmRequestType, usbRequestRecipient r.bmRequestType with
  | .classSpecific, .other => none
  | .classSpecific, _ => some .usbCdcControlTransfer
  | .standard, .interface => some .usbCdcControlTransfer
  | _, _ => none

/-- Every response is taken from the start of a variable. -/
theorem response_buffer {r : UsbControlRequest} {buffer : Ptr} {len : ℕ}
    (h : requestAction r = .response buffer len) : buffer.offset = 0 ∧ buffer.region ≠ .null := by
  have hclass : ∀ {b n}, classAction r = .response b n → b.offset = 0 ∧ b.region ≠ .null := by
    intro b n hb
    simp only [classAction] at hb
    split_ifs at hb
    cases hb
    exact ⟨rfl, by decide⟩
  have hdescriptor : ∀ {b n}, descriptorAction r = .response b n →
      b.offset = 0 ∧ b.region ≠ .null := by
    intro b n hb
    simp only [descriptorAction] at hb
    split_ifs at hb
    · cases hb
      exact ⟨rfl, by decide⟩
    · cases hb
      exact ⟨rfl, by decide⟩
    · split at hb
      · cases hb
      · cases hb
        exact ⟨rfl, by decide⟩
    · cases hb
      exact ⟨rfl, by decide⟩
  have hdevice : ∀ {b n}, deviceAction r = .response b n → b.offset = 0 ∧ b.region ≠ .null := by
    intro b n hb
    simp only [deviceAction] at hb
    split_ifs at hb
    · cases hb
      exact ⟨rfl, by decide⟩
    · exact hdescriptor hb
    · cases hb
      exact ⟨rfl, by decide⟩
  simp only [requestAction] at h
  split at h
  · cases h
  · exact hclass h
  · exact hdevice h
  · simp only [interfaceAction] at h
    split_ifs at h
    cases h
    exact ⟨rfl, by decide⟩
  · simp only [endpointAction] at h
    split_ifs at h
  · cases h

/-- The variables only responses are built in. -/
def Region.scratch : Region → Bool
  | .descriptorStr | .configNum | .status | .alternate => true
  | _ => false

/-- The state has changed only in what the handlers change before a stage is queued. -/
structure Handled (r : UsbControlRequest) (s s' : Usb) : Prop where
  chep : s'.chep = s.chep
  pma : s'.pma = s.pma
  daddr : s'.daddr = s.daddr
  epTransferSet : s'.epTransferSet = s.epTransferSet
  epAssignment : s'.epAssignment = s.epAssignment
  usbCdc : s'.usbCdc = s.usbCdc
  feed : s'.controlTransfer.feed = s.controlTransfer.feed
  request : s'.controlTransfer.request = s.controlTransfer.request
  ram : ∀ g, Region.scratch g = false → s'.ram g = s.ram g
  trace : s'.trace = s.trace
  address : s'.usbDevice.address = s.usbDevice.address
  addressed : s'.usbDevice.addressed = s.usbDevice.addressed
  configNum : s'.usbDevice.configNum = s.usbDevice.configNum
  addressPending : s'.usbDevice.addressPending =
    if requestAction r = .setAddress then u16Low (r.wValue &&& 0x7F#16)
    else s.usbDevice.addressPending

/-- The state an endpoint feature request leaves, but for the callback. -/
def endpointFeatureState (s : Usb) (r : UsbControlRequest) : Usb :=
  let epAddr := u16Low (r.wIndex &&& 0xFF#16)
  if r.wValue = usbFeatureEndpointHalt then
    if r.bRequest = usbStdClearFeature then
      usbEpStallClearHal s (usbEpIdn epAddr) (usbEpDirIdx epAddr)
    else usbEpStallSetHal s (usbEpIdn epAddr) (usbEpDirIdx epAddr)
  else s

/-- The cases of SETUP processing. -/
inductive RequestOutcome (s : Usb) (r : UsbControlRequest) : Bool × Usb → Prop where
  | reject (s' : Usb) (haction : requestAction r = .reject) (h : Handled r s s')
      (hcb : s'.controlTransfer.controlCompleteCb = rejectCb r) :
      RequestOutcome s r (false, s')
  | response (buffer : Ptr) (len : ℕ) (s' : Usb) (haction : requestAction r = .response buffer len)
      (h : Handled r s s') (hcb : s'.controlTransfer.controlCompleteCb = requestCb r) :
      RequestOutcome s r (true, (usbEpInitiateControlResponse s' r buffer len).2)
  | status (s' : Usb) (haction : requestAction r = .status)
      (h : Handled r s s') (hcb : s'.controlTransfer.controlCompleteCb = requestCb r) :
      RequestOutcome s r (true, (usbControlInitStatusStage s' r).2)
  | setAddress (s' : Usb) (haction : requestAction r = .setAddress)
      (h : Handled r s s') (hcb : s'.controlTransfer.controlCompleteCb = requestCb r) :
      RequestOutcome s r (true, (usbEpQueueTransferHal (usbControlInitStatusStage s' r).2 0
        usbDirDeviceOutHostInIdx .null 0).2)
  | setConfiguration (s' : Usb) (haction : requestAction r = .setConfiguration)
      (h : Handled r s s') (hcb : s'.controlTransfer.controlCompleteCb = requestCb r) :
      RequestOutcome s r (usbSetConfiguration s' r)
  | endpointFeature (s' : Usb) (haction : requestAction r = .endpointFeature)
      (h : Handled r s s') (hcb : s'.controlTransfer.controlCompleteCb = requestCb r) :
      RequestOutcome s r (true, endpointFeatureState s' r)

variable {s : Usb} {r : UsbControlRequest}

/-! ### The stages always succeed -/

@[simp] theorem usbEpQueueTransferHal_fst (s : Usb) (epIdn dirIdx : ℕ) (buffer : Ptr) (n : ℕ) :
    (usbEpQueueTransferHal s epIdn dirIdx buffer n).1 = true := by
  simp only [usbEpQueueTransferHal]
  split <;> rfl

@[simp] theorem usbEpQueueTransfer_fst (s : Usb) (epAddr : Byte) (buffer : Ptr) (n : ℕ) :
    (usbEpQueueTransfer s epAddr buffer n).1 = true :=
  usbEpQueueTransferHal_fst ..

@[simp] theorem usbControlStatusStage_fst (s : Usb) (r : UsbControlRequest) :
    (usbControlStatusStage s r).1 = true :=
  usbEpQueueTransfer_fst ..

theorem feedForwardRemainingCount_le (feed : FeedForwardBuffer) (n : ℕ) :
    feedForwardRemainingCount feed n ≤ n := by
  simp only [feedForwardRemainingCount]
  split <;> omega

@[simp] theorem usbControlDataStage_fst (s : Usb) : (usbControlDataStage s).1 = true := by
  have h := feedForwardRemainingCount_le s.controlTransfer.feed usbEp0BufferSize
  simp only [usbControlDataStage]
  split
  · split
    · rw [if_neg (by omega)]
      exact usbEpQueueTransfer_fst ..
    · exact usbEpQueueTransfer_fst ..
  · exact usbEpQueueTransfer_fst ..

@[simp] theorem usbControlInitStatusStage_fst (s : Usb) (r : UsbControlRequest) :
    (usbControlInitStatusStage s r).1 = true :=
  usbControlStatusStage_fst ..

@[simp] theorem usbEpInitiateControlResponse_fst (s : Usb) (r : UsbControlRequest) (buffer : Ptr)
    (len : ℕ) : (usbEpInitiateControlResponse s r buffer len).1 = true := by
  simp only [usbEpInitiateControlResponse]
  split
  · exact usbControlDataStage_fst _
  · exact usbControlStatusStage_fst ..

/-! ### The dispatch -/

/-- The state every handler starts from. -/
def requestStart (s : Usb) : Usb :=
  (usbControlSetCompleteCallback s none).setDevice { s.usbDevice with connected := true }

/-- Setting a callback, the device flags or a response variable is all a handler does before
its stage. -/
theorem handled_of_flags (haction : requestAction r ≠ .setAddress)
    (cb : Option ControlCompleteCb) (connected wakeup : Bool) (ram : Region → ℕ → Byte)
    (hram : ∀ g, Region.scratch g = false → ram g = s.ram g) :
    Handled r s { s with
      controlTransfer := { s.controlTransfer with controlCompleteCb := cb }
      usbDevice := { s.usbDevice with connected := connected, remoteWakeup := wakeup }
      ram := ram } := by
  constructor <;> first | rfl | exact hram | simp only [haction, if_false]

theorem handled_callback (haction : requestAction r ≠ .setAddress)
    (cb : Option ControlCompleteCb) :
    Handled r s (usbControlSetCompleteCallback (requestStart s) cb) :=
  handled_of_flags haction cb true s.usbDevice.remoteWakeup s.ram fun _ _ => rfl

theorem handled_requestStart (haction : requestAction r ≠ .setAddress) :
    Handled r s (requestStart s) :=
  handled_callback haction none

theorem handled_wakeup (haction : requestAction r ≠ .setAddress) (wakeup : Bool) :
    Handled r s ((requestStart s).setDevice
      { (requestStart s).usbDevice with remoteWakeup := wakeup }) :=
  handled_of_flags haction none true wakeup s.ram fun _ _ => rfl

theorem handled_store (haction : requestAction r ≠ .setAddress) {p : Ptr}
    (hp : p.region.scratch = true) (data : List Byte) :
    Handled r s ((requestStart s).store p data) := by
  apply handled_of_flags haction none true s.usbDevice.remoteWakeup
  intro g hg
  have hne : g ≠ p.region := by
    rintro rfl
    simp [hp] at hg
  split
  · rfl
  · exact Function.update_of_ne hne _ _

/-- Responses and status stages succeed, so a handler that returns their flag returns true. -/
theorem eq_true_of_fst {p : Bool × Usb} (h : p.1 = true) : p = (true, p.2) :=
  Prod.ext h rfl

theorem outcome_response {s₁ : Usb} {buffer : Ptr} {len : ℕ}
    (haction : requestAction r = .response buffer len) (h : Handled r s s₁)
    (hcb : s₁.controlTransfer.controlCompleteCb = requestCb r) :
    RequestOutcome s r (usbEpInitiateControlResponse s₁ r buffer len) := by
  rw [eq_true_of_fst (usbEpInitiateControlResponse_fst s₁ r buffer len)]
  exact .response buffer len s₁ haction h hcb

theorem outcome_status {s₁ : Usb} (haction : requestAction r = .status) (h : Handled r s s₁)
    (hcb : s₁.controlTransfer.controlCompleteCb = requestCb r) :
    RequestOutcome s r (usbControlInitStatusStage s₁ r) := by
  rw [eq_true_of_fst (usbControlInitStatusStage_fst s₁ r)]
  exact .status s₁ haction h hcb

theorem requestCb_of_class (htype : usbRequestType r.bmRequestType = .classSpecific) :
    requestCb r = some .usbCdcControlTransfer := if_pos htype

theorem requestCb_of_standard (htype : usbRequestType r.bmRequestType = .standard)
    (haction : requestAction r ≠ .setAddress) : requestCb r = none := by
  rw [requestCb, if_neg (by rw [htype]; decide), if_neg haction]

theorem rejectCb_of_class (htype : usbRequestType r.bmRequestType = .classSpecific)
    (hrecipient : usbRequestRecipient r.bmRequestType ≠ .other) :
    rejectCb r = some .usbCdcControlTransfer := by
  simp only [rejectCb]
  rw [htype]
  cases h : usbRequestRecipient r.bmRequestType with
  | other => exact absurd h hrecipient
  | device | interface | endpoint => rfl

theorem rejectCb_of_standard (htype : usbRequestType r.bmRequestType = .standard)
    (hrecipient : usbRequestRecipient r.bmRequestType ≠ .interface) : rejectCb r = none := by
  simp only [rejectCb]
  rw [htype]
  cases h : usbRequestRecipient r.bmRequestType with
  | interface => exact absurd h hrecipient
  | device | endpoint | other => rfl

/-- A class request, whatever its recipient. -/
theorem outcome_class (htype : usbRequestType r.bmRequestType = .classSpecific)
    (hrecipient : usbRequestRecipient r.bmRequestType ≠ .other)
    (haction : requestAction r = classAction r) :
    RequestOutcome s r (usbCdcControlStagingInit (requestStart s) r) := by
  have hcb := requestCb_of_class htype
  have hne : requestAction r ≠ .setAddress := by
    rw [haction]
    simp only [classAction]
    split_ifs <;> exact RequestAction.noConfusion
  have hh := handled_callback (s := s) hne (some .usbCdcControlTransfer)
  simp only [usbCdcControlStagingInit, usbCdcControlTransfer]
  simp only [classAction] at haction
  rw [if_neg (not_not.mpr htype)]
  by_cases hline : r.bRequest = cdcRequestSetLineCoding ∨ r.bRequest = cdcRequestGetLineCoding
  · rw [if_pos hline] at haction ⊢
    exact .response _ _ _ haction hh hcb.symm
  · rw [if_neg hline] at haction ⊢
    by_cases hstate : r.bRequest = cdcRequestSetControlLineState
    · rw [if_pos (.inl hstate)] at haction
      rw [if_pos hstate]
      exact .status _ haction hh hcb.symm
    · rw [if_neg hstate]
      by_cases hbreak : r.bRequest = cdcRequestSendBreak
      · rw [if_pos (.inr hbreak)] at haction
        rw [if_pos hbreak]
        exact .status _ haction hh hcb.symm
      · rw [if_neg (by simp only [hstate, hbreak, or_self, not_false_eq_true])] at haction
        rw [if_neg hbreak]
        exact .reject _ haction hh (rejectCb_of_class htype hrecipient).symm

theorem descriptorAction_ne_setAddress (r : UsbControlRequest) :
    descriptorAction r ≠ .setAddress := by
  simp only [descriptorAction]
  split_ifs
  any_goals exact RequestAction.noConfusion
  split <;> exact RequestAction.noConfusion

theorem outcome_getDescriptor (htype : usbRequestType r.bmRequestType = .standard)
    (hrecipient : usbRequestRecipient r.bmRequestType ≠ .interface)
    (haction : requestAction r = descriptorAction r) :
    RequestOutcome s r (processGetDescriptor (requestStart s) r) := by
  have hne : requestAction r ≠ .setAddress := by
    rw [haction]
    exact descriptorAction_ne_setAddress r
  have hcb := requestCb_of_standard htype hne
  have hrcb := rejectCb_of_standard htype hrecipient
  simp only [descriptorAction] at haction
  simp only [processGetDescriptor]
  split_ifs with h₁ h₂ h₃ h₄
  · rw [if_pos h₁] at haction
    exact outcome_response haction (handled_requestStart hne) hcb.symm
  · rw [if_neg h₁, if_pos h₂] at haction
    exact outcome_response haction (handled_requestStart hne) hcb.symm
  · rw [if_neg h₁, if_neg h₂, if_pos h₃] at haction
    cases hstr : usbDescriptorString (u16Low r.wValue) with
    | none =>
      rw [hstr] at haction
      exact .reject _ haction (handled_requestStart hne) hrcb.symm
    | some bytes =>
      rw [hstr] at haction
      exact outcome_response haction (handled_store hne rfl bytes) hcb.symm
  · rw [if_neg h₁, if_neg h₂, if_neg h₃, if_pos h₄] at haction
    exact outcome_response haction (handled_requestStart hne) hcb.symm
  · rw [if_neg h₁, if_neg h₂, if_neg h₃, if_neg h₄] at haction
    exact .reject _ haction (handled_requestStart hne) hrcb.symm

theorem outcome_setAddress (htype : usbRequestType r.bmRequestType = .standard)
    (hrecipient : usbRequestRecipient r.bmRequestType = .device)
    (haction : requestAction r = .setAddress) :
    RequestOutcome s r (usbDeviceSetAddress (requestStart s) r) := by
  have hcb : requestCb r = some .usbDeviceSetAddressComplete := by
    rw [requestCb, if_neg (by rw [htype]; decide), if_pos haction]
  simp only [usbDeviceSetAddress]
  rw [if_neg (not_not.mpr hrecipient)]
  refine .setAddress (usbControlSetCompleteCallback ((requestStart s).setDevice
    { (requestStart s).usbDevice with addressPending := u16Low (r.wValue &&& 0x7F#16) })
    (some .usbDeviceSetAddressComplete)) haction ?_ hcb.symm
  constructor <;> first | rfl | exact fun _ _ => rfl | rw [if_pos haction]; rfl

theorem outcome_device (htype : usbRequestType r.bmRequestType = .standard)
    (hrecipient : usbRequestRecipient r.bmRequestType = .device) :
    RequestOutcome s r (usbProcessDeviceControlRequest (requestStart s) r) := by
  have haction : requestAction r = deviceAction r := by
    simp only [requestAction, htype, hrecipient]
  simp only [usbProcessDeviceControlRequest]
  rw [if_neg (by rw [htype]; decide), if_neg (not_not.mpr htype)]
  simp only [deviceAction] at haction
  by_cases haddr : r.bRequest = usbStdSetAddress
  · rw [if_pos haddr] at haction ⊢
    exact outcome_setAddress htype hrecipient haction
  have hne : requestAction r ≠ .setAddress := by
    rw [haction, if_neg haddr]
    split_ifs
    any_goals exact RequestAction.noConfusion
    exact descriptorAction_ne_setAddress r
  have hcb := requestCb_of_standard htype hne
  have hinterface : usbRequestRecipient r.bmRequestType ≠ .interface := by
    rw [hrecipient]
    exact RequestRecipient.noConfusion
  have hrcb := rejectCb_of_standard htype hinterface
  rw [if_neg haddr] at haction ⊢
  split_ifs at haction ⊢ with hget hset hdesc hsf hw hcf hw' hst hor hw'' <;>
    first
    | exact outcome_response haction (handled_store hne rfl _) hcb.symm
    | exact .setConfiguration _ haction (handled_requestStart hne) hcb.symm
    | exact outcome_getDescriptor htype hinterface haction
    | exact outcome_status haction (handled_wakeup hne _) hcb.symm
    | exact .reject _ haction (handled_requestStart hne) hrcb.symm
    | simp_all

theorem outcome_interface (htype : usbRequestType r.bmRequestType = .standard)
    (hrecipient : usbRequestRecipient r.bmRequestType = .interface) :
    RequestOutcome s r (usbProcessInterfaceControlRequest (requestStart s) r) := by
  have haction : requestAction r = interfaceAction r := by
    simp only [requestAction, htype, hrecipient]
  have hne : requestAction r ≠ .setAddress := by
    rw [haction]
    simp only [interfaceAction]
    split_ifs <;> exact RequestAction.noConfusion
  have hcb := requestCb_of_standard htype hne
  have hcdc : usbCdcControlStagingInit (requestStart s) r =
      (false, usbControlSetCompleteCallback (requestStart s) (some .usbCdcControlTransfer)) := by
    rw [usbCdcControlStagingInit, usbCdcControlTransfer, if_pos (by rw [htype]; decide)]
  simp only [usbProcessInterfaceControlRequest]
  rw [hcdc]
  dsimp only
  rw [if_neg (not_not.mpr htype)]
  simp only [interfaceAction] at haction
  split_ifs at haction ⊢ with hget hset
  · exact .response _ _ _ haction (handled_store (p := ⟨.alternate, 0⟩) hne rfl _) hcb.symm
  · exact .status _ haction (handled_callback hne none) hcb.symm
  · refine .reject _ haction (handled_callback hne _) ?_
    simp only [rejectCb, htype, hrecipient]
    rfl

theorem outcome_endpoint (htype : usbRequestType r.bmRequestType = .standard)
    (hrecipient : usbRequestRecipient r.bmRequestType = .endpoint) :
    RequestOutcome s r (usbProcessEndpointControlRequest (requestStart s) r) := by
  have haction : requestAction r = endpointAction r := by
    simp only [requestAction, htype, hrecipient]
  have hne : requestAction r ≠ .setAddress := by
    rw [haction]
    simp only [endpointAction]
    split_ifs <;> exact RequestAction.noConfusion
  have hcb := requestCb_of_standard htype hne
  have hcdc : ∀ s₁ : Usb, (usbCdcControlStagingInit s₁ r).2 =
      usbControlSetCompleteCallback s₁ (some .usbCdcControlTransfer) := by
    intro s₁
    rw [usbCdcControlStagingInit, usbCdcControlTransfer, if_pos (by rw [htype]; decide)]
  simp only [usbProcessEndpointControlRequest]
  rw [if_neg (not_not.mpr htype)]
  simp only [endpointAction] at haction
  split_ifs at haction ⊢ with hfeature hhalt hclear
  · rw [hcdc]
    have h := RequestOutcome.endpointFeature (s := s) _ haction (handled_requestStart hne) hcb.symm
    rwa [endpointFeatureState, if_pos hhalt, if_pos hclear] at h
  · rw [hcdc]
    have h := RequestOutcome.endpointFeature (s := s) _ haction (handled_requestStart hne) hcb.symm
    rwa [endpointFeatureState, if_pos hhalt, if_neg hclear] at h
  · rw [hcdc]
    have h := RequestOutcome.endpointFeature (s := s) _ haction (handled_requestStart hne) hcb.symm
    rwa [endpointFeatureState, if_neg hhalt] at h
  · exact .reject _ haction (handled_requestStart hne)
      (rejectCb_of_standard htype (by rw [hrecipient]; exact RequestRecipient.noConfusion)).symm

/-- Standard and class requests are dispatched on their recipient. -/
def Dispatched (r : UsbControlRequest) : Prop :=
  usbRequestType r.bmRequestType ≠ .reserved ∧ usbRequestType r.bmRequestType ≠ .vendor

theorem usbProcessControlRequest_dispatched (s : Usb) {r : UsbControlRequest} (h : Dispatched r) :
    (usbRequestRecipient r.bmRequestType = .device →
      usbProcessControlRequest s r = usbProcessDeviceControlRequest (requestStart s) r) ∧
    (usbRequestRecipient r.bmRequestType = .interface →
      usbProcessControlRequest s r = usbProcessInterfaceControlRequest (requestStart s) r) ∧
    (usbRequestRecipient r.bmRequestType = .endpoint →
      usbProcessControlRequest s r = usbProcessEndpointControlRequest (requestStart s) r) := by
  simp only [usbProcessControlRequest]
  rw [if_neg h.1, if_neg h.2]
  refine ⟨?_, ?_, ?_⟩ <;>
    (intro hrecipient; rw [hrecipient]; rfl)

theorem usbProcessControlRequest_undispatched (s : Usb) {r : UsbControlRequest}
    (h : Dispatched r → usbRequestRecipient r.bmRequestType = .other) :
    usbProcessControlRequest s r = (false, requestStart s) := by
  simp only [usbProcessControlRequest]
  split
  · rfl
  · rename_i hreserved
    split
    · rfl
    · rename_i hvendor
      rw [h ⟨hreserved, hvendor⟩]
      rfl

/-- Every SETUP packet is handled as its action says, in every state. -/
theorem usbProcessControlRequest_outcome (s : Usb) (r : UsbControlRequest) :
    RequestOutcome s r (usbProcessControlRequest s r) := by
  have hreject : requestAction r = .reject → rejectCb r = none →
      (Dispatched r → usbRequestRecipient r.bmRequestType = .other) →
      RequestOutcome s r (usbProcessControlRequest s r) := by
    intro h hcb hother
    rw [usbProcessControlRequest_undispatched s hother]
    refine .reject _ h (handled_requestStart ?_) hcb.symm
    rw [h]
    exact RequestAction.noConfusion
  have hstandard := usbProcessControlRequest_dispatched s (r := r)
  cases htype : usbRequestType r.bmRequestType <;>
    cases hrecipient : usbRequestRecipient r.bmRequestType
  case standard.device =>
    rw [(hstandard (by rw [Dispatched, htype]; decide)).1 hrecipient]
    exact outcome_device htype hrecipient
  case standard.interface =>
    rw [(hstandard (by rw [Dispatched, htype]; decide)).2.1 hrecipient]
    exact outcome_interface htype hrecipient
  case standard.endpoint =>
    rw [(hstandard (by rw [Dispatched, htype]; decide)).2.2 hrecipient]
    exact outcome_endpoint htype hrecipient
  case classSpecific.device =>
    have hdevice : usbProcessDeviceControlRequest (requestStart s) r =
        usbCdcControlStagingInit (requestStart s) r := if_pos htype
    rw [(hstandard (by rw [Dispatched, htype]; decide)).1 hrecipient, hdevice]
    exact outcome_class htype (by rw [hrecipient]; exact RequestRecipient.noConfusion)
      (by simp only [requestAction, htype, hrecipient])
  case classSpecific.interface =>
    have hinterface : usbProcessInterfaceControlRequest (requestStart s) r =
        usbCdcControlStagingInit (requestStart s) r := by
      simp only [usbProcessInterfaceControlRequest]
      rcases usbCdcControlStagingInit (requestStart s) r with ⟨_ | _, s₁⟩
      · exact if_pos (by rw [htype]; decide)
      · rfl
    rw [(hstandard (by rw [Dispatched, htype]; decide)).2.1 hrecipient, hinterface]
    exact outcome_class htype (by rw [hrecipient]; exact RequestRecipient.noConfusion)
      (by simp only [requestAction, htype, hrecipient])
  case classSpecific.endpoint =>
    have hendpoint : usbProcessEndpointControlRequest (requestStart s) r =
        usbCdcControlStagingInit (requestStart s) r := if_pos (by rw [htype]; decide)
    rw [(hstandard (by rw [Dispatched, htype]; decide)).2.2 hrecipient, hendpoint]
    exact outcome_class htype (by rw [hrecipient]; exact RequestRecipient.noConfusion)
      (by simp only [requestAction, htype, hrecipient])
  all_goals
    refine hreject (by simp only [requestAction, htype, hrecipient])
      (by simp only [rejectCb, htype, hrecipient]) ?_
    rw [Dispatched, htype, hrecipient]
    decide

end PcbMill
