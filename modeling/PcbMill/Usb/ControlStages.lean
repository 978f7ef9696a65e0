import PcbMill.Usb.SetConfiguration

/-!
# How often a SETUP packet queues a stage on EP0

Every handler queues one stage when it accepts and none when it rejects, with two exceptions:
SET_ADDRESS queues the status stage twice, and the endpoint feature requests are accepted
without one.
-/

namespace PcbMill

open FixedWidth

/-! ### The stages as queueing calls -/

theorem usbRequestDirection_cases (bm : Byte) :
    usbRequestDirection bm = 0 ∨ usbRequestDirection bm = 1 :=
  usbEpDirIdx_cases bm

theorem usbControlStatusStage_eq (s : Usb) (r : UsbControlRequest) :
    usbControlStatusStage s r =
      usbEpQueueTransferHal s 0 (1 - usbRequestDirection r.bmRequestType) .null 0 := by
  simp only [usbControlStatusStage]
  rcases usbRequestDirection_cases r.bmRequestType with hdir | hdir <;> rw [hdir] <;> rfl

/-- The length of the packet a data stage queues. -/
def dataStageLen (s : Usb) : ℕ := feedForwardRemainingCount s.controlTransfer.feed usbEp0BufferSize

/-- The buffer a data stage queues. -/
def dataStageBuffer (s : Usb) : Ptr := if 0 < dataStageLen s then ⟨.ep0ControlBuffer, 0⟩ else .null

/-- The next packet of an IN data stage copied to the control buffer. -/
def dataStageCopy (s : Usb) : Usb :=
  s.store ⟨.ep0ControlBuffer, 0⟩ (s.load s.controlTransfer.feed.buffer (dataStageLen s))

theorem dataStageLen_le (s : Usb) : dataStageLen s ≤ usbEp0BufferSize :=
  feedForwardRemainingCount_le _ _

theorem Usb.store_nil (s : Usb) (p : Ptr) : s.store p [] = s := by
  simp only [Usb.store]
  split
  · rfl
  · rw [Segment.writeSegment_nil, Function.update_eq_self]

theorem usbControlDataStage_out {s : Usb}
    (hdir : usbRequestDirection s.controlTransfer.request.bmRequestType = 0) :
    usbControlDataStage s =
      usbEpQueueTransferHal s 0 usbDirDeviceInHostOutIdx (dataStageBuffer s) (dataStageLen s) := by
  simp only [usbControlDataStage]
  rw [if_neg (by rw [hdir]; decide)]
  rfl

theorem usbControlDataStage_in {s : Usb}
    (hdir : usbRequestDirection s.controlTransfer.request.bmRequestType = 1) :
    usbControlDataStage s = usbEpQueueTransferHal (dataStageCopy s) 0 usbDirDeviceOutHostInIdx
      (dataStageBuffer s) (dataStageLen s) := by
  have hle := dataStageLen_le s
  have hcopy : ¬0 < dataStageLen s → dataStageCopy s = s := by
    intro h
    rw [dataStageCopy, Nat.eq_zero_of_not_pos h]
    exact s.store_nil _
  simp only [usbControlDataStage]
  change (if _ then if 0 < dataStageLen s then
    if usbEp0BufferSize < dataStageLen s then _ else _ else _ else _) = _
  have hin : usbRequestDirection s.controlTransfer.request.bmRequestType =
    usbDirDeviceOutHostInIdx := hdir
  rw [if_pos hin, if_neg (Nat.not_lt.mpr hle)]
  by_cases hlen : 0 < dataStageLen s
  · rw [if_pos hlen]
    rfl
  · rw [if_neg hlen, hcopy hlen]
    rfl

/-- The control transfer of a response. -/
def responseState (s : Usb) (r : UsbControlRequest) (buffer : Ptr) (len : ℕ) : Usb :=
  s.setControl { s.controlTransfer with
    request := r
    feed := { buffer := buffer, fedCount := 0
              totalCount := if len < r.wLength.toNat then len else r.wLength.toNat } }

theorem usbEpInitiateControlResponse_data {s : Usb} {r : UsbControlRequest} {buffer : Ptr}
    {len : ℕ} (h : 0 < r.wLength.toNat) :
    usbEpInitiateControlResponse s r buffer len =
      usbControlDataStage (responseState s r buffer len) := if_pos h

theorem usbEpInitiateControlResponse_status {s : Usb} {r : UsbControlRequest} {buffer : Ptr}
    {len : ℕ} (h : ¬0 < r.wLength.toNat) :
    usbEpInitiateControlResponse s r buffer len =
      usbControlStatusStage (responseState s r buffer len) r := if_neg h

/-- A response is no longer than the host asked for. -/
theorem responseTotal (r : UsbControlRequest) (len : ℕ) :
    (if len < r.wLength.toNat then len else r.wLength.toNat) = min len r.wLength.toNat := by
  split <;> omega

theorem responseTotal_lt (r : UsbControlRequest) (len : ℕ) : min len r.wLength.toNat < 2 ^ 16 :=
  lt_of_le_of_lt (Nat.min_le_right _ _) r.wLength.isLt

theorem dataStageLen_responseState (s : Usb) (r : UsbControlRequest) (buffer : Ptr) (len : ℕ) :
    dataStageLen (responseState s r buffer len) =
      min (min len r.wLength.toNat) usbEp0BufferSize := by
  unfold dataStageLen feedForwardRemainingCount responseState Usb.setControl
  dsimp only
  rw [responseTotal, sub16_of_le (Nat.zero_le _) (responseTotal_lt r len)]
  split <;> omega

/-! ### The stages recorded -/

/-- The direction index and the size of a transfer queued on EP0. -/
def ep0Stage : UsbEvent → Option (ℕ × ℕ)
  | .queued 0 dirIdx totalBytes => some (dirIdx, totalBytes)
  | _ => none

def ep0Stages (s : Usb) : List (ℕ × ℕ) := s.trace.filterMap ep0Stage

theorem usbEpQueueTransferHal_trace (s : Usb) (epIdn dirIdx : ℕ) (buffer : Ptr) (n : ℕ) :
    (usbEpQueueTransferHal s epIdn dirIdx buffer n).2.trace =
      s.trace ++ [.queued epIdn dirIdx n] := by
  simp only [usbEpQueueTransferHal]
  split <;> rfl

theorem usbEpQueueTransferHal_ram (s : Usb) (epIdn dirIdx : ℕ) (buffer : Ptr) (n : ℕ) :
    (usbEpQueueTransferHal s epIdn dirIdx buffer n).2.ram = s.ram := by
  simp only [usbEpQueueTransferHal]
  split <;> rfl

theorem usbControlDataStage_trace (s : Usb) :
    (usbControlDataStage s).2.trace = s.trace ++
      [.queued 0 (usbRequestDirection s.controlTransfer.request.bmRequestType) (dataStageLen s)] := by
  rcases usbRequestDirection_cases s.controlTransfer.request.bmRequestType with hdir | hdir
  · rw [usbControlDataStage_out hdir, usbEpQueueTransferHal_trace, hdir]
    rfl
  · rw [usbControlDataStage_in hdir, usbEpQueueTransferHal_trace, hdir]
    rfl

theorem ep0Stages_append {s s' : Usb} {new : List UsbEvent} (h : s'.trace = s.trace ++ new) :
    ep0Stages s' = ep0Stages s ++ new.filterMap ep0Stage := by
  rw [ep0Stages, h, List.filterMap_append]
  rfl

theorem ep0Stages_statusStage (s : Usb) (r : UsbControlRequest) :
    ep0Stages (usbControlInitStatusStage s r).2 =
      ep0Stages s ++ [(1 - usbRequestDirection r.bmRequestType, 0)] := by
  refine @ep0Stages_append s _ [.queued 0 (1 - usbRequestDirection r.bmRequestType) 0] ?_
  simp only [usbControlInitStatusStage]
  rw [usbControlStatusStage_eq, usbEpQueueTransferHal_trace]
  rfl

/-- A response queues its data stage in the direction of the request. -/
theorem ep0Stages_response_data {s : Usb} {r : UsbControlRequest} (buffer : Ptr) (len : ℕ)
    (h : 0 < r.wLength.toNat) :
    ep0Stages (usbEpInitiateControlResponse s r buffer len).2 = ep0Stages s ++
      [(usbRequestDirection r.bmRequestType, min (min len r.wLength.toNat) usbEp0BufferSize)] := by
  rw [usbEpInitiateControlResponse_data h, ← dataStageLen_responseState s]
  exact ep0Stages_append (usbControlDataStage_trace _)

/-- A response to a request without data queues the status stage. -/
theorem ep0Stages_response_status {s : Usb} {r : UsbControlRequest} (buffer : Ptr) (len : ℕ)
    (h : ¬0 < r.wLength.toNat) :
    ep0Stages (usbEpInitiateControlResponse s r buffer len).2 =
      ep0Stages s ++ [(1 - usbRequestDirection r.bmRequestType, 0)] := by
  rw [usbEpInitiateControlResponse_status h, usbControlStatusStage_eq]
  exact ep0Stages_append (usbEpQueueTransferHal_trace _ _ _ _ _)

/-! ### Which stage a request calls for -/

/-- The supported requests that carry data.  The others that can be accepted (SET_CONFIGURATION,
SET_FEATURE, SET_INTERFACE, SET_CONTROL_LINE_STATE, SEND_BREAK and so on) have all they need in the
SETUP packet. -/
def CarriesData (r : UsbControlRequest) : Prop :=
  usbRequestType r.bmRequestType = .standard ∧
      (r.bRequest = usbStdGetStatus ∨ r.bRequest = usbStdGetDescriptor ∨
        r.bRequest = usbStdGetConfiguration ∨ r.bRequest = usbStdGetInterface) ∨
    usbRequestType r.bmRequestType = .classSpecific ∧
      (r.bRequest = cdcRequestSetLineCoding ∨ r.bRequest = cdcRequestGetLineCoding)

/-- The stage a request calls for: its data stage, of at most `wLength` bytes, when it carries
data and `wLength` is not zero, and otherwise the status stage.  A request without data calls for
the status stage whatever its `wLength`: by the specification that is 0, the device has nothing to
send or to take in a data stage, and accepting the request is answered by the status stage. -/
def CallsFor (r : UsbControlRequest) (stage : ℕ × ℕ) : Prop :=
  0 < r.wLength.toNat ∧ CarriesData r ∧ stage.1 = usbRequestDirection r.bmRequestType ∧
      stage.2 ≤ r.wLength.toNat ∨
    ¬(0 < r.wLength.toNat ∧ CarriesData r) ∧
      stage = (1 - usbRequestDirection r.bmRequestType, 0)

/-- **One stage per accepted SETUP**: an accepted request queues on EP0 once, the stage it calls
for; a rejected one does not queue. -/
def OneEp0Stage (s : Usb) (r : UsbControlRequest) : Prop :=
  if (usbProcessControlRequest s r).1 = true then
    ∃ stage, CallsFor r stage ∧
      ep0Stages (usbProcessControlRequest s r).2 = ep0Stages s ++ [stage]
  else ep0Stages (usbProcessControlRequest s r).2 = ep0Stages s

/-- SET_ADDRESS. -/
def IsSetAddress (r : UsbControlRequest) : Prop :=
  usbRequestType r.bmRequestType = .standard ∧ usbRequestRecipient r.bmRequestType = .device ∧
    r.bRequest = usbStdSetAddress

/-- SET_CONFIGURATION. -/
def IsSetConfiguration (r : UsbControlRequest) : Prop :=
  usbRequestType r.bmRequestType = .standard ∧ usbRequestRecipient r.bmRequestType = .device ∧
    r.bRequest = usbStdSetConfiguration

/-- CLEAR_FEATURE and SET_FEATURE to an endpoint. -/
def IsEndpointFeature (r : UsbControlRequest) : Prop :=
  usbRequestType r.bmRequestType = .standard ∧ usbRequestRecipient r.bmRequestType = .endpoint ∧
    (r.bRequest = usbStdClearFeature ∨ r.bRequest = usbStdSetFeature)

/-! ### The actions, in terms of the requests -/

variable {r : UsbControlRequest}

/-- Which requests come to which end. -/
inductive ActionCase (r : UsbControlRequest) : RequestAction → Prop where
  | reject : ActionCase r .reject
  | response (buffer : Ptr) (len : ℕ) (h : CarriesData r) : ActionCase r (.response buffer len)
  | status (h : ¬CarriesData r) : ActionCase r .status
  | setAddress (h : IsSetAddress r) : ActionCase r .setAddress
  | setConfiguration (h : IsSetConfiguration r) : ActionCase r .setConfiguration
  | endpointFeature (h : IsEndpointFeature r) : ActionCase r .endpointFeature

theorem carriesData_of_standard (htype : usbRequestType r.bmRequestType = .standard) :
    CarriesData r ↔ r.bRequest = usbStdGetStatus ∨ r.bRequest = usbStdGetDescriptor ∨
      r.bRequest = usbStdGetConfiguration ∨ r.bRequest = usbStdGetInterface := by
  simp [CarriesData, htype]

theorem carriesData_of_class (htype : usbRequestType r.bmRequestType = .classSpecific) :
    CarriesData r ↔
      r.bRequest = cdcRequestSetLineCoding ∨ r.bRequest = cdcRequestGetLineCoding := by
  simp [CarriesData, htype]

theorem actionCase_class (htype : usbRequestType r.bmRequestType = .classSpecific) :
    ActionCase r (classAction r) := by
  simp only [classAction]
  split_ifs with hline
  · exact .response _ _ ((carriesData_of_class htype).mpr hline)
  · exact .status (mt (carriesData_of_class htype).mp hline)
  · exact .reject

theorem actionCase_descriptor (h : CarriesData r) : ActionCase r (descriptorAction r) := by
  simp only [descriptorAction]
  split_ifs
  · exact .response _ _ h
  · exact .response _ _ h
  · split
    · exact .reject
    · exact .response _ _ h
  · exact .response _ _ h
  · exact .reject

theorem actionCase_device (htype : usbRequestType r.bmRequestType = .standard)
    (hrecipient : usbRequestRecipient r.bmRequestType = .device) :
    ActionCase r (deviceAction r) := by
  have hcarries := carriesData_of_standard htype
  simp only [deviceAction]
  split_ifs with haddr hget hset hdesc hfeature hwakeup hstatus
  · exact .setAddress ⟨htype, hrecipient, haddr⟩
  · exact .response _ _ (hcarries.mpr (.inr (.inr (.inl hget))))
  · exact .setConfiguration ⟨htype, hrecipient, hset⟩
  · exact actionCase_descriptor (hcarries.mpr (.inr (.inl hdesc)))
  · refine .status (mt hcarries.mp ?_)
    rcases hfeature with hfeature | hfeature <;> rw [hfeature] <;> decide
  · exact .reject
  · exact .response _ _ (hcarries.mpr (.inl hstatus))
  · exact .reject

theorem actionCase_interface (htype : usbRequestType r.bmRequestType = .standard) :
    ActionCase r (interfaceAction r) := by
  have hcarries := carriesData_of_standard htype
  simp only [interfaceAction]
  split_ifs with hget hset
  · exact .response _ _ (hcarries.mpr (.inr (.inr (.inr hget))))
  · refine .status (mt hcarries.mp ?_)
    rw [hset]
    decide
  · exact .reject

theorem actionCase_endpoint (htype : usbRequestType r.bmRequestType = .standard)
    (hrecipient : usbRequestRecipient r.bmRequestType = .endpoint) :
    ActionCase r (endpointAction r) := by
  simp only [endpointAction]
  split_ifs with hfeature
  · exact .endpointFeature ⟨htype, hrecipient, hfeature⟩
  · exact .reject

theorem actionCase (r : UsbControlRequest) : ActionCase r (requestAction r) := by
  simp only [requestAction]
  cases htype : usbRequestType r.bmRequestType <;>
    cases hrecipient : usbRequestRecipient r.bmRequestType <;> dsimp only
  case standard.device => exact actionCase_device htype hrecipient
  case standard.interface => exact actionCase_interface htype
  case standard.endpoint => exact actionCase_endpoint htype hrecipient
  case classSpecific.device => exact actionCase_class htype
  case classSpecific.interface => exact actionCase_class htype
  case classSpecific.endpoint => exact actionCase_class htype
  all_goals exact .reject

theorem requestAction_of_setAddress (h : IsSetAddress r) : requestAction r = .setAddress := by
  obtain ⟨htype, hrecipient, hreq⟩ := h
  simp only [requestAction, htype, hrecipient, deviceAction, hreq, if_true]

theorem requestAction_of_setConfiguration (h : IsSetConfiguration r) :
    requestAction r = .setConfiguration := by
  obtain ⟨htype, hrecipient, hreq⟩ := h
  have hne : usbStdSetConfiguration ≠ usbStdSetAddress ∧
    usbStdSetConfiguration ≠ usbStdGetConfiguration := by decide
  simp only [requestAction, htype, hrecipient, deviceAction, hreq, hne.1, hne.2, if_false, if_true]

theorem IsSetConfiguration.not_carriesData (h : IsSetConfiguration r) : ¬CarriesData r := by
  rw [carriesData_of_standard h.1, h.2.2]
  decide

theorem requestAction_of_endpointFeature (h : IsEndpointFeature r) :
    requestAction r = .endpointFeature := by
  obtain ⟨htype, hrecipient, hreq⟩ := h
  simp only [requestAction, htype, hrecipient, endpointAction, hreq, if_true]

/-! ### One stage per SETUP -/

theorem callsFor_status (h : ¬(0 < r.wLength.toNat ∧ CarriesData r)) :
    CallsFor r (1 - usbRequestDirection r.bmRequestType, 0) :=
  .inr ⟨h, rfl⟩

theorem callsFor_response (hdata : CarriesData r) (s : Usb) (buffer : Ptr) (len : ℕ) :
    ∃ stage, CallsFor r stage ∧
      ep0Stages (usbEpInitiateControlResponse s r buffer len).2 = ep0Stages s ++ [stage] := by
  by_cases hlen : 0 < r.wLength.toNat
  · refine ⟨_, .inl ⟨hlen, hdata, rfl, ?_⟩, ep0Stages_response_data buffer len hlen⟩
    dsimp only
    omega
  · exact ⟨_, callsFor_status fun h => hlen h.1, ep0Stages_response_status buffer len hlen⟩

theorem ep0Stages_of_trace {s s' : Usb} (h : s'.trace = s.trace) : ep0Stages s' = ep0Stages s := by
  rw [ep0Stages, h]
  rfl

theorem Configured.ep0Stages {v : Byte} {s s' : Usb} (h : Configured v s s') :
    ep0Stages s' = ep0Stages s := by
  rcases h.trace with htrace | htrace
  · exact ep0Stages_of_trace htrace
  · rw [ep0Stages_append htrace]
    exact List.append_nil _

theorem endpointFeatureState_trace (s : Usb) (r : UsbControlRequest) :
    (endpointFeatureState s r).trace = s.trace := by
  simp only [endpointFeatureState]
  split_ifs <;> rfl

/-- Queueing twice is not queueing once. -/
theorem append_pair_ne {α : Type*} (l : List α) (a b c : α) : l ++ [a, b] ≠ l ++ [c] := by
  intro h
  have := congrArg List.length h
  simp at this

theorem ordinary_of_action {a : RequestAction} (hact : requestAction r = a)
    (h : a ≠ .setAddress) (h' : a ≠ .endpointFeature) : ¬IsSetAddress r ∧ ¬IsEndpointFeature r := by
  subst hact
  exact ⟨mt requestAction_of_setAddress h, mt requestAction_of_endpointFeature h'⟩

/-- In every state and for every SETUP packet, the one stage is queued unless the packet is
SET_ADDRESS or a feature request to an endpoint. -/
theorem oneEp0Stage_iff (s : Usb) (r : UsbControlRequest) :
    OneEp0Stage s r ↔ ¬IsSetAddress r ∧ ¬IsEndpointFeature r := by
  have hcase := actionCase r
  have hout := usbProcessControlRequest_outcome s r
  simp only [OneEp0Stage]
  generalize usbProcessControlRequest s r = p at hout ⊢
  cases hout with
  | reject s' hact h =>
    rw [if_neg Bool.false_ne_true]
    have hord := ordinary_of_action hact (by simp) (by simp)
    exact iff_of_true (ep0Stages_of_trace h.trace) hord
  | response buffer len s' hact h =>
    rw [if_pos rfl]
    rw [hact] at hcase
    have hord := ordinary_of_action hact (by simp) (by simp)
    cases hcase with
    | response _ _ hdata =>
      refine iff_of_true ?_ hord
      rw [← ep0Stages_of_trace h.trace]
      exact callsFor_response hdata s' buffer len
  | status s' hact h =>
    rw [if_pos rfl]
    rw [hact] at hcase
    have hord := ordinary_of_action hact (by simp) (by simp)
    cases hcase with
    | status hdata =>
      refine iff_of_true ⟨_, callsFor_status fun hc => hdata hc.2, ?_⟩ hord
      rw [ep0Stages_statusStage, ep0Stages_of_trace h.trace]
  | setAddress s' hact h =>
    rw [if_pos rfl]
    rw [hact] at hcase
    cases hcase with
    | setAddress haddr =>
      refine iff_of_false ?_ fun hord => hord.1 haddr
      rintro ⟨stage, -, hstages⟩
      have htrace := ep0Stages_append (usbEpQueueTransferHal_trace
        (usbControlInitStatusStage s' r).2 0 usbDirDeviceOutHostInIdx .null 0)
      rw [ep0Stages_statusStage, ep0Stages_of_trace h.trace, List.append_assoc] at htrace
      exact append_pair_ne _ _ _ _ (htrace.symm.trans hstages)
  | setConfiguration s' hact h =>
    obtain ⟨s₁, hconf, heq⟩ := usbSetConfiguration_eq s' r
    rw [heq, if_pos rfl]
    rw [hact] at hcase
    have hord := ordinary_of_action hact (by simp) (by simp)
    cases hcase with
    | setConfiguration hset =>
      refine iff_of_true ⟨_, callsFor_status fun hc => hset.not_carriesData hc.2, ?_⟩ hord
      rw [ep0Stages_statusStage, hconf.ep0Stages, ep0Stages_of_trace h.trace]
  | endpointFeature s' hact h =>
    rw [if_pos rfl]
    rw [hact] at hcase
    cases hcase with
    | endpointFeature hfeature =>
      refine iff_of_false ?_ fun hord => hord.2 hfeature
      rintro ⟨stage, -, hstages⟩
      have htrace := (endpointFeatureState_trace s' r).trans h.trace
      rw [ep0Stages_of_trace htrace] at hstages
      exact absurd (congrArg List.length hstages) (by simp)

/-- SET_ADDRESS 5 to the freshly reset device. -/
def setAddressFive : UsbControlRequest :=
  { bmRequestType := 0x00#8, bRequest := usbStdSetAddress, wValue := 5#16, wIndex := 0#16
    wLength := 0#16 }

theorem setAddress_queues_twice :
    ep0Stages (usbProcessControlRequest usbBoot setAddressFive).2 =
      ep0Stages usbBoot ++ [(1, 0), (1, 0)] := by
  decide

theorem setAddress_not_oneEp0Stage : ¬OneEp0Stage usbBoot setAddressFive := by
  have haccept : (usbProcessControlRequest usbBoot setAddressFive).1 = true := by decide
  simp only [OneEp0Stage]
  rw [if_pos haccept]
  rintro ⟨stage, -, hstages⟩
  exact append_pair_ne _ _ _ _ (setAddress_queues_twice.symm.trans hstages)

end PcbMill
