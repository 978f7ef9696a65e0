import PcbMill.Usb.ControlStages
import PcbMill.Usb.InData

/-!
# The direction of the status stage

The helper that queues the status stage goes by the direction bit of the request alone.  After a
data stage that is the opposite direction; without one it is only right where the bit says host to
device, and the status stage of a device-to-host request of length zero is queued on OUT.
-/

namespace PcbMill

open FixedWidth

/-- The directions of the transfers queued on EP0 between two states, oldest first. -/
def ep0Directions (s s' : Usb) : List ℕ :=
  ((ep0Stages s').drop (ep0Stages s).length).map Prod.fst

/-- The endpoint address of EP0 in a direction. -/
def ep0Addr (dirIdx : ℕ) : Byte :=
  if dirIdx = usbDirDeviceOutHostInIdx then usbDirDeviceOutHostIn else usbDirDeviceInHostOut

/-- A data stage takes place. -/
def HasDataStage (r : UsbControlRequest) : Prop := 0 < r.wLength.toNat ∧ CarriesData r

/-- A packet of `n` bytes ends the data stage. -/
def DataStageEnds (s : Usb) (n : ℕ) : Prop :=
  s.controlTransfer.request.wLength.toNat = add16 s.controlTransfer.feed.fedCount (u16 n) ∨
    n < usbEp0BufferSize

instance (s : Usb) (n : ℕ) : Decidable (DataStageEnds s n) :=
  inferInstanceAs (Decidable (_ ∨ _))

/-- The states of a data stage that goes on: packets of any size come to completion, and whatever
else runs meanwhile leaves the control transfer alone. -/
inductive DataStageState (dirIdx : ℕ) (s : Usb) : Usb → Prop
  | start : DataStageState dirIdx s s
  | packet {t : Usb} (n : ℕ) (h : DataStageState dirIdx s t) (hmore : ¬DataStageEnds t n) :
      DataStageState dirIdx s (usbControlTransfer t (ep0Addr dirIdx) n).2
  | other {t t' : Usb} (h : DataStageState dirIdx s t)
      (hkept : t'.controlTransfer = t.controlTransfer) : DataStageState dirIdx s t'

/-- The status stage of an accepted request: on IN when `wLength` is zero; after a data stage, which
runs in one direction, on the other one. -/
structure StatusOpposite (s : Usb) (r : UsbControlRequest) : Prop where
  noData : r.wLength = 0#16 →
    ∀ dirIdx ∈ ep0Directions s (usbProcessControlRequest s r).2, dirIdx = usbDirDeviceOutHostInIdx
  data : HasDataStage r →
    ∃ dirIdx, ep0Directions s (usbProcessControlRequest s r).2 = [dirIdx] ∧
      ∀ t, DataStageState dirIdx (usbProcessControlRequest s r).2 t → ∀ n,
        ep0Directions t (usbControlTransfer t (ep0Addr dirIdx) n).2 =
          [if DataStageEnds t n then 1 - dirIdx else dirIdx]

variable {s s' t : Usb} {r : UsbControlRequest}

theorem ep0Directions_of_append {dirIdx n : ℕ} (h : ep0Stages s' = ep0Stages s ++ [(dirIdx, n)]) :
    ep0Directions s s' = [dirIdx] := by
  rw [ep0Directions, h, List.drop_left]
  rfl

theorem usbEpDirIdx_ep0Addr {dirIdx : ℕ} (h : dirIdx = 0 ∨ dirIdx = 1) :
    usbEpDirIdx (ep0Addr dirIdx) = dirIdx := by
  rcases h with rfl | rfl <;> rfl

/-! ### A packet of the data stage -/

/-- The control transfer of a response to the request. -/
structure Responding (r : UsbControlRequest) (c : ControlTransfer) : Prop where
  request : c.request = r
  cb : c.controlCompleteCb = requestCb r
  buffer : c.feed.buffer.region ≠ .null

/-- The callback of a response accepts its data stage. -/
theorem callbackAccepts_response {buffer : Ptr} {len : ℕ}
    (haction : requestAction r = .response buffer len) : CallbackAccepts (requestCb r) r := by
  have hcase := actionCase r
  rw [haction] at hcase
  cases hcase with
  | response _ _ hdata =>
    intro cb hcb t hrequest
    rcases hdata with ⟨htype, -⟩ | ⟨htype, hline⟩
    · rw [requestCb_of_standard htype (by rw [haction]; exact RequestAction.noConfusion)] at hcb
      cases hcb
    · rw [requestCb_of_class htype] at hcb
      cases hcb
      simp only [controlCompleteCb, usbCdcControlTransfer]
      rw [hrequest, if_neg (not_not.mpr htype), if_pos hline]
      rfl

theorem usbControlDataReceived_control (s : Usb) (n : ℕ) :
    (usbControlDataReceived s n).controlTransfer = Ep0.advance s.controlTransfer n := by
  simp only [usbControlDataReceived]
  split <;> rfl

theorem ep0Stages_dataReceived (s : Usb) (n : ℕ) :
    ep0Stages (usbControlDataReceived s n) = ep0Stages s := by
  simp only [usbControlDataReceived]
  split
  · exact (ep0Stages_append rfl).trans (List.append_nil _)
  · rfl

theorem ep0Stages_dataComplete (h : Responding r s.controlTransfer)
    (haccept : CallbackAccepts (requestCb r) r) :
    ep0Stages (usbControlDataComplete s).2 =
      ep0Stages s ++ [(1 - usbRequestDirection r.bmRequestType, 0)] := by
  have hcallback : (usbControlDataCallback s).1 = true ∧
      ep0Stages (usbControlDataCallback s).2 = ep0Stages s ∧
      (usbControlDataCallback s).2.controlTransfer = s.controlTransfer := by
    simp only [usbControlDataCallback]
    rw [h.cb]
    cases hcb : requestCb r with
    | none => exact ⟨rfl, rfl, rfl⟩
    | some cb =>
      obtain ⟨htrace, hsame⟩ := controlCompleteCb_later s cb
        (show ControlStage.data ≠ .setup from ControlStage.noConfusion)
      exact ⟨haccept cb hcb s h.request, (ep0Stages_append htrace).trans (List.append_nil _), hsame⟩
  obtain ⟨hok, hstages, hsame⟩ := hcallback
  simp only [usbControlDataComplete]
  rw [if_pos hok, hsame, h.request, usbControlStatusStage_eq, ← hstages]
  exact ep0Stages_append (usbEpQueueTransferHal_trace ..)

theorem usbControlDataStage_control (s : Usb) :
    (usbControlDataStage s).2.controlTransfer = s.controlTransfer := by
  have hqueue : ∀ (u : Usb) (dirIdx : ℕ) (buffer : Ptr) (n : ℕ),
      (usbEpQueueTransferHal u 0 dirIdx buffer n).2.controlTransfer = u.controlTransfer := by
    intro u dirIdx buffer n
    simp only [usbEpQueueTransferHal]
    split <;> rfl
  rcases usbRequestDirection_cases s.controlTransfer.request.bmRequestType with hdir | hdir
  · rw [usbControlDataStage_out hdir, hqueue]
  · rw [usbControlDataStage_in hdir, hqueue]
    rfl

/-- A packet of the data stage is counted; the last one ends the stage, any other is followed by
the next. -/
theorem usbControlTransfer_received (h : Responding r t.controlTransfer) (n : ℕ) :
    usbControlTransfer t (ep0Addr (usbRequestDirection r.bmRequestType)) n =
      if DataStageEnds t n then usbControlDataComplete (usbControlDataReceived (t.log (.dataStage r n)) n)
      else usbControlDataStage (usbControlDataReceived (t.log (.dataStage r n)) n) := by
  have hbuffer : t.controlTransfer.feed.buffer ≠ .null := by
    intro hnull
    exact h.buffer (congrArg Ptr.region hnull)
  have hlogged : (t.log (.dataStage r n)).controlTransfer = t.controlTransfer := rfl
  simp only [usbControlTransfer]
  rw [h.request, usbEpDirIdx_ep0Addr (usbRequestDirection_cases _), if_neg (not_not.mpr rfl),
    if_neg (fun hnull => hbuffer (hlogged ▸ hnull.2)), usbControlDataReceived_control, hlogged]
  refine if_congr ?_ rfl rfl
  rw [DataStageEnds, h.request]
  exact Iff.rfl

/-- **A packet of the data stage** queues the next one in its direction, and the status stage in the
other one when it is the last. -/
theorem usbControlTransfer_data (h : Responding r t.controlTransfer)
    (haccept : CallbackAccepts (requestCb r) r) (n : ℕ) :
    ep0Directions t (usbControlTransfer t (ep0Addr (usbRequestDirection r.bmRequestType)) n).2 =
        [if DataStageEnds t n then 1 - usbRequestDirection r.bmRequestType
          else usbRequestDirection r.bmRequestType] ∧
      (¬DataStageEnds t n → Responding r
        (usbControlTransfer t (ep0Addr (usbRequestDirection r.bmRequestType)) n).2.controlTransfer) := by
  rw [usbControlTransfer_received h]
  generalize hreceived : usbControlDataReceived (t.log (.dataStage r n)) n = u
  have hstages : ep0Stages u = ep0Stages t := by
    rw [← hreceived, ep0Stages_dataReceived]
    exact (ep0Stages_append rfl).trans (List.append_nil _)
  have hresponding : Responding r u.controlTransfer := by
    rw [← hreceived, usbControlDataReceived_control]
    exact ⟨h.request, h.cb, h.buffer⟩
  by_cases hends : DataStageEnds t n
  · rw [if_pos hends, if_pos hends]
    have hcomplete := ep0Stages_dataComplete hresponding haccept
    rw [hstages] at hcomplete
    exact ⟨ep0Directions_of_append hcomplete, fun hmore => absurd hends hmore⟩
  · rw [if_neg hends, if_neg hends]
    constructor
    · have hnext := ep0Stages_append (usbControlDataStage_trace u)
      rw [hresponding.request, hstages] at hnext
      exact ep0Directions_of_append hnext
    · intro _
      rw [usbControlDataStage_control]
      exact hresponding

theorem DataStageState.responding (hstage : DataStageState (usbRequestDirection r.bmRequestType) s t)
    (h : Responding r s.controlTransfer) (haccept : CallbackAccepts (requestCb r) r) :
    Responding r t.controlTransfer := by
  induction hstage with
  | start => exact h
  | packet n _ hmore ih => exact (usbControlTransfer_data ih haccept n).2 hmore
  | other _ hkept ih =>
    rw [hkept]
    exact ih

/-! ### The request -/

theorem IsSetAddress.not_carriesData (h : IsSetAddress r) : ¬CarriesData r := by
  rw [carriesData_of_standard h.1, h.2.2]
  decide

theorem IsEndpointFeature.not_carriesData (h : IsEndpointFeature r) : ¬CarriesData r := by
  rw [carriesData_of_standard h.1]
  rcases h.2.2 with hreq | hreq <;> rw [hreq] <;> decide

/-- A request with a data stage queues its first packet in its own direction. -/
theorem hasDataStage_started (haccepted : (usbProcessControlRequest s r).1 = true)
    (hdata : HasDataStage r) :
    ep0Directions s (usbProcessControlRequest s r).2 = [usbRequestDirection r.bmRequestType] ∧
      Responding r (usbProcessControlRequest s r).2.controlTransfer ∧
      CallbackAccepts (requestCb r) r := by
  have hcase := actionCase r
  have hout := usbProcessControlRequest_outcome s r
  generalize usbProcessControlRequest s r = p at haccepted hout ⊢
  cases hout with
  | reject => cases haccepted
  | response buffer len s' hact h hcb =>
    refine ⟨?_, ?_, callbackAccepts_response hact⟩
    · have hstages := ep0Stages_response_data (s := s') buffer len hdata.1
      rw [ep0Stages_of_trace h.trace] at hstages
      exact ep0Directions_of_append hstages
    · dsimp only
      rw [usbEpInitiateControlResponse_data hdata.1, usbControlDataStage_control]
      exact ⟨rfl, hcb, (response_buffer hact).2⟩
  | status s' hact =>
    rw [hact] at hcase
    cases hcase with
    | status hnot => exact absurd hdata.2 hnot
  | setAddress s' hact =>
    rw [hact] at hcase
    cases hcase with
    | setAddress haddr => exact absurd hdata.2 haddr.not_carriesData
  | setConfiguration s' hact =>
    rw [hact] at hcase
    cases hcase with
    | setConfiguration hset => exact absurd hdata.2 hset.not_carriesData
  | endpointFeature s' hact =>
    rw [hact] at hcase
    cases hcase with
    | endpointFeature hfeature => exact absurd hdata.2 hfeature.not_carriesData

/-- **After a data stage** the status stage runs the other way. -/
theorem statusOpposite_data (haccepted : (usbProcessControlRequest s r).1 = true)
    (hdata : HasDataStage r) :
    ∃ dirIdx, ep0Directions s (usbProcessControlRequest s r).2 = [dirIdx] ∧
      ∀ t, DataStageState dirIdx (usbProcessControlRequest s r).2 t → ∀ n,
        ep0Directions t (usbControlTransfer t (ep0Addr dirIdx) n).2 =
          [if DataStageEnds t n then 1 - dirIdx else dirIdx] := by
  obtain ⟨hfirst, hresponding, haccept⟩ := hasDataStage_started haccepted hdata
  refine ⟨usbRequestDirection r.bmRequestType, hfirst, ?_⟩
  intro t hstage n
  exact (usbControlTransfer_data (hstage.responding hresponding haccept) haccept n).1

/-- Without data a request queues nothing, as an endpoint feature request, or first the direction
its bit does not name. -/
theorem ep0Directions_noData (haccepted : (usbProcessControlRequest s r).1 = true)
    (hlength : r.wLength = 0#16) :
    IsEndpointFeature r ∧ ep0Directions s (usbProcessControlRequest s r).2 = [] ∨
      ¬IsEndpointFeature r ∧ ∃ more : List ℕ, (∀ dirIdx ∈ more, dirIdx = usbDirDeviceOutHostInIdx) ∧
        ep0Directions s (usbProcessControlRequest s r).2 =
          (1 - usbRequestDirection r.bmRequestType) :: more := by
  have hcase := actionCase r
  have hout := usbProcessControlRequest_outcome s r
  have hzero : ¬0 < r.wLength.toNat := by
    rw [hlength]
    decide
  have hordinary : ∀ a, requestAction r = a → a ≠ .endpointFeature → ¬IsEndpointFeature r :=
    fun a hact hne hfeature => hne (hact ▸ requestAction_of_endpointFeature hfeature)
  generalize usbProcessControlRequest s r = p at haccepted hout ⊢
  cases hout with
  | reject => cases haccepted
  | response buffer len s' hact h =>
    refine .inr ⟨hordinary _ hact RequestAction.noConfusion, [], by simp, ?_⟩
    have hstages := ep0Stages_response_status (s := s') buffer len hzero
    rw [ep0Stages_of_trace h.trace] at hstages
    exact ep0Directions_of_append hstages
  | status s' hact h =>
    refine .inr ⟨hordinary _ hact RequestAction.noConfusion, [], by simp, ?_⟩
    have hstages := ep0Stages_statusStage s' r
    rw [ep0Stages_of_trace h.trace] at hstages
    exact ep0Directions_of_append hstages
  | setAddress s' hact h =>
    refine .inr ⟨hordinary _ hact RequestAction.noConfusion, [1], by simp; rfl, ?_⟩
    have hstages := ep0Stages_append (usbEpQueueTransferHal_trace
      (usbControlInitStatusStage s' r).2 0 usbDirDeviceOutHostInIdx .null 0)
    rw [ep0Stages_statusStage, ep0Stages_of_trace h.trace, List.append_assoc] at hstages
    dsimp only
    rw [ep0Directions, hstages, List.drop_left]
    rfl
  | setConfiguration s' hact h =>
    refine .inr ⟨hordinary _ hact RequestAction.noConfusion, [], by simp, ?_⟩
    obtain ⟨s₁, hconf, heq⟩ := usbSetConfiguration_eq s' r
    have hstages := ep0Stages_statusStage s₁ r
    rw [hconf.ep0Stages, ep0Stages_of_trace h.trace] at hstages
    rw [heq]
    exact ep0Directions_of_append hstages
  | endpointFeature s' hact h =>
    rw [hact] at hcase
    cases hcase with
    | endpointFeature hfeature =>
      refine .inl ⟨hfeature, ?_⟩
      have hsame := ep0Stages_of_trace ((endpointFeatureState_trace s' r).trans h.trace)
      dsimp only
      rw [ep0Directions, hsame, List.drop_length]
      rfl

/-- **The status stage of an accepted request** has the direction the comments give it, after every
run of its data stage, exactly when the request is host to device, carries a length, or is a
feature request to an endpoint, which has no status stage. -/
theorem status_stage_direction_iff (s : Usb) (r : UsbControlRequest)
    (haccepted : (usbProcessControlRequest s r).1 = true) :
    StatusOpposite s r ↔
      usbRequestDirection r.bmRequestType = usbDirDeviceInHostOutIdx ∨ r.wLength ≠ 0#16 ∨
        IsEndpointFeature r := by
  constructor
  · intro h
    by_cases hlength : r.wLength = 0#16
    · rcases ep0Directions_noData haccepted hlength with ⟨hfeature, -⟩ | ⟨-, more, -, hdirs⟩
      · exact .inr (.inr hfeature)
      · have hin := h.noData hlength (1 - usbRequestDirection r.bmRequestType)
          (by rw [hdirs]; exact List.mem_cons_self)
        simp only [usbDirDeviceOutHostInIdx] at hin
        exact .inl (by simp only [usbDirDeviceInHostOutIdx]; omega)
    · exact .inr (.inl hlength)
  · intro h
    refine ⟨?_, statusOpposite_data haccepted⟩
    intro hlength dirIdx hmem
    rcases ep0Directions_noData haccepted hlength with ⟨-, hdirs⟩ | ⟨hnot, more, hmore, hdirs⟩
    · rw [hdirs] at hmem
      exact absurd hmem List.not_mem_nil
    · rw [hdirs] at hmem
      rcases List.mem_cons.mp hmem with rfl | hrest
      · rcases h with hdir | hne | hfeature
        · rw [hdir]
          rfl
        · exact absurd hlength hne
        · exact absurd hfeature hnot
      · exact hmore dirIdx hrest

/-- GET_DESCRIPTOR of the device descriptor, in the direction and for the length given. -/
def readDeviceDescriptor (wLength : BitVec 16) : UsbControlRequest :=
  { bmRequestType := 0x80#8, bRequest := usbStdGetDescriptor, wValue := 0x0100#16, wIndex := 0#16
    wLength := wLength }

theorem status_stage_direction_getDescriptor :
    (usbProcessControlRequest usbBoot (readDeviceDescriptor 18#16)).1 = true ∧
      StatusOpposite usbBoot (readDeviceDescriptor 18#16) :=
  have haccepted : (usbProcessControlRequest usbBoot (readDeviceDescriptor 18#16)).1 = true := by
    decide
  ⟨haccepted, (status_stage_direction_iff usbBoot (readDeviceDescriptor 18#16) haccepted).mpr
    (.inr (.inl (by decide)))⟩

/-- The same request for no bytes is accepted, and its status stage is an OUT stage. -/
theorem noData_read_status_on_out :
    (usbProcessControlRequest usbBoot (readDeviceDescriptor 0#16)).1 = true ∧
      ep0Directions usbBoot (usbProcessControlRequest usbBoot (readDeviceDescriptor 0#16)).2 = [0] ∧
      ¬StatusOpposite usbBoot (readDeviceDescriptor 0#16) := by
  have hdirs : ep0Directions usbBoot
      (usbProcessControlRequest usbBoot (readDeviceDescriptor 0#16)).2 = [0] := by decide
  refine ⟨by decide, hdirs, fun h => ?_⟩
  have hin := h.noData rfl 0 (by rw [hdirs]; exact List.mem_cons_self)
  exact absurd hin (by decide)

end PcbMill
