import PcbMill.Usb.CdcStreams
import PcbMill.Usb.OutData

/-!
# The copies made of received packets

A received packet is copied with the count the hardware reports: to the 8-byte array of
`usb_ep_setup`, or to the buffer of the queued transfer and from there to the destination of
the control transfer.  No copy is bounded, and the receive block is rounded up, so the copies
stay within their destinations exactly as long as the host sends no more than was asked for.
-/

namespace PcbMill

open FixedWidth WordMemory Segment Run

/-! ### Runs -/

/-- A SETUP packet of any size is taken like one of 8 bytes. -/
def busSetupPacketOk (s : Usb) (data : List Byte) : Bool :=
  !vtrx (s.chep 0) && epState (s.chep 0) 0 != .disabled &&
    decide (data.length ≤ descCapacity (rxDesc s 0))

def busSetupPacket (s : Usb) (data : List Byte) : Usb :=
  if busSetupPacketOk s data then
    let s := rxDeposit s 0 data
    (s.setChep 0 (hwSetupPacket (s.chep 0))).log (.setupPacket (usbControlRequestOfBytes data))
  else s

/-- The events of EP0, and SETUP packets of any size. -/
inductive ReceptionEvent where
  | ep0 (e : Ep0Event)
  | setupPacket (data : List Byte)
  deriving DecidableEq, Repr

def receptionStep (s : Usb) : ReceptionEvent → Usb
  | .ep0 e => ep0Step s e
  | .setupPacket data => busSetupPacket s data

/-! ### The property -/

/-- The size of `control_request` in `usb_ep_setup`. -/
def controlRequestSize : ℕ := 8

def queuedAfter (epIdn n : ℕ) : UsbEvent → ℕ
  | .queued i 0 totalBytes => if i = epIdn then totalBytes else n
  | _ => n

/-- The length of the OUT transfer last queued on an endpoint.  `usb_rx_packet` clears it in the
record after the completion that may have queued the next transfer. -/
def lastQueued (trace : List UsbEvent) (epIdn : ℕ) : ℕ := trace.foldl (queuedAfter epIdn) 0

/-- The bytes that remain of the buffer of the transfer queued on an endpoint. -/
def queuedRemaining (s : Usb) (epIdn : ℕ) : ℕ :=
  lastQueued s.trace epIdn - (s.epTransferSet epIdn usbDirDeviceInHostOutIdx).feed.fedCount

/-- The bytes that remain of the destination of the control transfer. -/
def controlRemaining (s : Usb) : ℕ :=
  s.controlTransfer.feed.totalCount - s.controlTransfer.feed.fedCount

/-- The packet in the receive buffer of an endpoint, as the copies read it. -/
def pendingPacket (s : Usb) (epIdn : ℕ) : List Byte :=
  usbRxPmaRead s.pma (usbPmaEpAddrGet s epIdn usbEpRxCountAddrIdx)
    (usbPmaCountGet s epIdn usbEpRxCountAddrIdx)

/-- The line coding. -/
def lineCodingBytes (s : Usb) : List Byte := s.load ⟨.lineCoding, 0⟩ lineCodingSize

/-- An iteration handles a SETUP packet. -/
def HandlesSetup (s : Usb) (ev : ReceptionEvent) : Prop :=
  ev = .ep0 .irq ∧ vtrx (s.chep 0) = true ∧ setupFlag (s.chep 0) = true

/-- An iteration handles a data packet. -/
def HandlesData (s : Usb) (ev : ReceptionEvent) : Prop :=
  ev = .ep0 .irq ∧ vtrx (s.chep 0) = true ∧ setupFlag (s.chep 0) = false

/-- The copies of an event stay within their destinations, and SET_LINE_CODING leaves the line
coding as it is or replaces all of it. -/
structure CopiesBounded (s : Usb) (ev : ReceptionEvent) : Prop where
  setup : HandlesSetup s ev → usbPmaCountGet s 0 usbEpRxCountAddrIdx ≤ controlRequestSize
  queued : HandlesData s ev → usbPmaCountGet s 0 usbEpRxCountAddrIdx ≤ queuedRemaining s 0
  control : HandlesData s ev → usbRequestDirection s.controlTransfer.request.bmRequestType = 0 →
    s.controlTransfer.feed.buffer ≠ .null →
    ((rxStageState s).epTransferSet 0 usbDirDeviceInHostOutIdx).feed.fedCount ≤ controlRemaining s
  lineCoding : IsSetLineCoding s.controlTransfer.request →
    lineCodingBytes (receptionStep s ev) = lineCodingBytes s ∨
      lineCodingSize ≤ usbPmaCountGet s 0 usbEpRxCountAddrIdx ∧
        lineCodingBytes (receptionStep s ev) = (pendingPacket s 0).take lineCodingSize

/-- The condition: a SETUP packet has at most 8 bytes; a data packet of a host-to-device request
has at most the bytes the response has left, and one of SET_LINE_CODING has all 7 bytes, or only
repeats what the line coding holds. -/
structure PacketFits (s : Usb) (ev : ReceptionEvent) : Prop where
  setup : HandlesSetup s ev → usbPmaCountGet s 0 usbEpRxCountAddrIdx ≤ controlRequestSize
  data : HandlesData s ev → usbRequestDirection s.controlTransfer.request.bmRequestType = 0 →
    usbPmaCountGet s 0 usbEpRxCountAddrIdx ≤ controlRemaining s
  lineCoding : HandlesData s ev → usbRequestDirection s.controlTransfer.request.bmRequestType = 0 →
    IsSetLineCoding s.controlTransfer.request →
      usbPmaCountGet s 0 usbEpRxCountAddrIdx = lineCodingSize ∨
        pendingPacket s 0 = (lineCodingBytes s).take (usbPmaCountGet s 0 usbEpRxCountAddrIdx)

/-- The packet of a bulk endpoint stays within the buffer of its transfer. -/
def BulkBounded (s : Usb) : CdcEvent → Prop
  | .irq _ _ => vtrx (s.chep cdcEpIdn) = true →
      usbPmaCountGet s cdcEpIdn usbEpRxCountAddrIdx ≤ queuedRemaining s cdcEpIdn
  | _ => True

/-! ### What was queued last -/

@[simp] theorem lastQueued_snoc (trace : List UsbEvent) (ev : UsbEvent) (epIdn : ℕ) :
    lastQueued (trace ++ [ev]) epIdn = queuedAfter epIdn (lastQueued trace epIdn) ev :=
  List.foldl_append

/-- EP0's own trace is enough. -/
theorem lastQueued_filter (trace : List UsbEvent) :
    lastQueued (trace.filter UsbEvent.isEp0) 0 = lastQueued trace 0 := by
  induction trace using List.reverseRecOn with
  | nil => rfl
  | append_singleton trace ev ih =>
    rw [List.filter_append, List.filter_singleton, lastQueued_snoc, ← ih]
    by_cases hev : ev.isEp0 = true
    · rw [hev]
      exact lastQueued_snoc _ _ _
    · rw [Bool.not_eq_true] at hev
      rw [hev, cond_false, List.append_nil]
      cases ev with
      | queued i dirIdx n =>
        have hi : i ≠ 0 := by simpa [UsbEvent.isEp0] using hev
        cases dirIdx with
        | zero => simp [queuedAfter, hi]
        | succ d => rfl
      | _ => rfl

/-! ### The control endpoint while the packets fit -/

/-- The control transfer of a host-to-device request whose next chunk has been queued. -/
structure Receiving (c : ControlTransfer) (queued : ℕ) : Prop where
  response : ∃ buffer len, requestAction c.request = .response buffer len ∧
    c.feed.buffer = buffer.add c.feed.fedCount ∧ c.feed.totalCount = min len c.request.wLength.toNat
  callback : c.controlCompleteCb = requestCb c.request
  fed : c.feed.fedCount ≤ c.feed.totalCount
  first : c.feed.fedCount = 0 ∨ usbEp0BufferSize ≤ c.feed.fedCount
  queued : queued = min (c.feed.totalCount - c.feed.fedCount) usbEp0BufferSize

/-- A packet of at most `n` bytes is the empty one of a status stage or the next one of a data
stage. -/
def OutAwaited (c : ControlTransfer) (queued n : ℕ) : Prop :=
  usbRequestDirection c.request.bmRequestType = 1 ∧ n = 0 ∨
    usbRequestDirection c.request.bmRequestType = 0 ∧ Receiving c queued

/-- A packet of at most `n` bytes finds its place in the control buffer. -/
structure PacketAwaited (e : Ep0) (n : ℕ) : Prop where
  fed : e.rxFeed.fedCount = 0
  buffer : e.rxFeed.buffer = ⟨.ep0ControlBuffer, 0⟩ ∨ n = 0
  stage : OutAwaited e.control (lastQueued e.trace 0) n

theorem PacketAwaited.mono {e : Ep0} {n m : ℕ} (h : PacketAwaited e n) (hm : m ≤ n) :
    PacketAwaited e m where
  fed := h.fed
  buffer := h.buffer.imp_right fun hn : n = 0 => Nat.eq_zero_of_le_zero (hn ▸ hm)
  stage := h.stage.imp_left fun ⟨hdir, hn⟩ => ⟨hdir, Nat.eq_zero_of_le_zero (hn ▸ hm)⟩

/-- What holds as long as every packet handled fits. -/
structure Ep0.Receptive (e : Ep0) : Prop where
  nak : e.reg.vtrx = true → e.reg.rx ≠ .valid
  armed : e.reg.rx = .valid → PacketAwaited e e.rxCapacity
  pending : e.reg.vtrx = true → e.reg.setup = false → PacketAwaited e e.rxCount ∧ e.rxCount ≤ 64

/-- The same between the clearing of VTRX and the end of an iteration. -/
structure Ep0.Quiet (e : Ep0) : Prop where
  vtrx : e.reg.vtrx = false
  armed : e.reg.rx = .valid → PacketAwaited e e.rxCapacity

variable {e : Ep0}

theorem Ep0.Quiet.receptive (h : e.Quiet) : e.Receptive where
  nak := fun hv => absurd hv (by rw [h.vtrx]; decide)
  armed := h.armed
  pending := fun hv => absurd hv (by rw [h.vtrx]; decide)

/-- Events other than the queueing of an OUT transfer leave the awaited packet. -/
theorem PacketAwaited.of_same {e' : Ep0} {n : ℕ} (h : PacketAwaited e n)
    (hfeed : e'.rxFeed = e.rxFeed) (hcontrol : e'.control = e.control)
    (htrace : lastQueued e'.trace 0 = lastQueued e.trace 0) : PacketAwaited e' n where
  fed := hfeed ▸ h.fed
  buffer := hfeed ▸ h.buffer
  stage := by
    rw [hcontrol, htrace]
    exact h.stage

theorem Ep0.Quiet.of_nak (hvtrx : e.reg.vtrx = false) (hrx : e.reg.rx ≠ .valid) : e.Quiet :=
  ⟨hvtrx, fun hv => absurd hv hrx⟩

theorem Ep0.Quiet.log (h : e.Quiet) {v : UsbEvent} (hv : ∀ n, queuedAfter 0 n v = n) :
    (e.log v).Quiet where
  vtrx := h.vtrx
  armed := fun hvalid => (h.armed hvalid).of_same rfl rfl ((lastQueued_snoc ..).trans (hv _))

theorem Ep0.Quiet.queueIn (h : e.Quiet) (buffer : Ptr) (n : ℕ) : (e.queueIn buffer n).Quiet where
  vtrx := h.vtrx
  armed := fun hv => (h.armed hv).of_same rfl rfl (lastQueued_snoc ..)

theorem Ep0.Quiet.queueOut (hvtrx : e.reg.vtrx = false) {buffer : Ptr} {n : ℕ}
    (hbuffer : buffer = ⟨.ep0ControlBuffer, 0⟩ ∨ (e.queueOut buffer n).rxCapacity = 0)
    (hstage : OutAwaited e.control n (e.queueOut buffer n).rxCapacity) :
    (e.queueOut buffer n).Quiet := by
  have hlast : lastQueued (e.queueOut buffer n).trace 0 = n := lastQueued_snoc ..
  refine ⟨hvtrx, fun _ => ⟨rfl, hbuffer, ?_⟩⟩
  rw [hlast]
  exact hstage

theorem Ep0.Quiet.statusStage (h : e.Quiet) : (e.statusStage e.control.request).Quiet := by
  simp only [Ep0.statusStage, Ep0.queue]
  rcases usbRequestDirection_cases e.control.request.bmRequestType with hdir | hdir
  · rw [hdir]
    exact h.queueIn .null 0
  · rw [hdir]
    exact Quiet.queueOut h.vtrx (.inr rfl) (.inl ⟨hdir, rfl⟩)

theorem Ep0.Quiet.dataStage_in (h : e.Quiet)
    (hdir : usbRequestDirection e.control.request.bmRequestType = 1) : e.dataStage.Quiet := by
  simp only [Ep0.dataStage, Ep0.queue]
  rw [hdir]
  exact h.queueIn _ _

/-- The next chunk of a host-to-device request. -/
theorem Ep0.Quiet.dataStage_out (hvtrx : e.reg.vtrx = false)
    (hdir : usbRequestDirection e.control.request.bmRequestType = 0)
    (hreceiving : Receiving e.control
      (feedForwardRemainingCount e.control.feed usbEp0BufferSize)) : e.dataStage.Quiet := by
  simp only [Ep0.dataStage, Ep0.queue]
  rw [hdir]
  generalize feedForwardRemainingCount e.control.feed usbEp0BufferSize = n at hreceiving ⊢
  refine Quiet.queueOut hvtrx ?_ (.inr ⟨hdir, hreceiving⟩)
  by_cases hn : 0 < n
  · exact .inl (if_pos hn)
  · rw [Nat.eq_zero_of_not_pos hn]
    exact .inr rfl

theorem Ep0.Quiet.setState (h : e.Quiet) (dirIdx : ℕ) {st : EpState} (hst : st ≠ .valid) :
    (e.setState dirIdx st).Quiet := by
  simp only [Ep0.setState]
  split
  · exact ⟨h.vtrx, fun hv => (h.armed hv).of_same rfl rfl rfl⟩
  · exact .of_nak h.vtrx hst

/-! ### SETUP packets -/

theorem Ep0.Quiet.initStatusStage (h : e.Quiet) (hrx : e.reg.rx ≠ .valid)
    (r : UsbControlRequest) : (e.initStatusStage r).Quiet :=
  Quiet.statusStage (e := { e with control := { e.control with
    request := r, feed := { buffer := .null, fedCount := 0, totalCount := 0 } } })
    (.of_nak h.vtrx hrx)

theorem Ep0.Quiet.response (h : e.Quiet) (hrx : e.reg.rx ≠ .valid) {r : UsbControlRequest}
    {buffer : Ptr} {len : ℕ} (hact : requestAction r = .response buffer len)
    (hcb : e.control.controlCompleteCb = requestCb r) : (e.response r buffer len).Quiet := by
  simp only [Ep0.response]
  rw [responseTotal]
  split
  · rcases usbRequestDirection_cases r.bmRequestType with hdir | hdir
    · refine Quiet.dataStage_out h.vtrx hdir ?_
      exact { response := ⟨buffer, len, hact, rfl, rfl⟩
              callback := hcb
              fed := Nat.zero_le _
              first := .inl rfl
              queued := feedForwardRemainingCount_eq (Nat.zero_le _) (responseTotal_lt r len) _ }
    · exact Quiet.dataStage_in (.of_nak h.vtrx hrx) hdir
  · exact Quiet.statusStage (e := { e with control := { e.control with
      request := r
      feed := { buffer := buffer, fedCount := 0, totalCount := min len r.wLength.toNat } } })
      (.of_nak h.vtrx hrx)

theorem Ep0.Quiet.handle (h : e.Quiet) (hrx : e.reg.rx ≠ .valid) (r : UsbControlRequest) :
    (e.handle r).Quiet := by
  have hcb : (e.setCb (requestCb r)).Quiet := .of_nak h.vtrx hrx
  have hrejected : (e.setCb (rejectCb r)).Quiet := .of_nak h.vtrx hrx
  have hlog : ∀ {e : Ep0} (accepted : Bool), e.Quiet → (e.log (.setupHandled r accepted)).Quiet :=
    fun _ he => he.log fun _ => rfl
  simp only [Ep0.handle]
  cases hact : requestAction r with
  | reject =>
    exact hlog _ ((hrejected.setState 0 EpState.noConfusion).setState 0 EpState.noConfusion)
  | response buffer len => exact hlog _ (hcb.response hrx hact rfl)
  | status => exact hlog _ (hcb.initStatusStage hrx r)
  | setConfiguration => exact hlog _ (hcb.initStatusStage hrx r)
  | setAddress => exact hlog _ ((hcb.initStatusStage hrx r).queueIn .null 0)
  | endpointFeature =>
    refine hlog _ ?_
    simp only [Ep0.endpointFeature]
    split
    · refine hcb.setState _ ?_
      split <;> exact EpState.noConfusion
    · exact hcb

/-! ### Completions -/

/-- Only the completion of SET_ADDRESS touches the receive buffer. -/
theorem Ep0.Quiet.callback (h : e.Quiet) (cb : ControlCompleteCb) (stage : ControlStage)
    (hcb : cb = .usbDeviceSetAddressComplete → stage = .status → e.reg.rx ≠ .valid) :
    (e.callback cb stage).2.Quiet := by
  have hlog := h.log (v := .callback cb stage e.control.request) fun _ => rfl
  simp only [Ep0.callback]
  cases cb with
  | usbDeviceSetAddressComplete =>
    dsimp only
    split
    · exact .of_nak h.vtrx (hcb rfl ‹_›)
    · exact hlog
  | usbCdcControlTransfer => exact hlog

theorem Ep0.Quiet.dataComplete (h : e.Quiet) : e.dataComplete.Quiet := by
  have hcb : e.dataCallback.2.Quiet := by
    simp only [Ep0.dataCallback]
    split
    · exact h.callback _ _ fun _ hc => ControlStage.noConfusion hc
    · exact h
  simp only [Ep0.dataComplete]
  split
  · exact hcb.statusStage
  · exact (hcb.setState 0 EpState.noConfusion).setState 1 EpState.noConfusion

/-- A status stage ends: a request whose data stage is still awaited is not SET_ADDRESS. -/
theorem Ep0.Quiet.transfer_status (h : e.Quiet) {dirIdx : ℕ}
    (hdir : usbRequestDirection e.control.request.bmRequestType ≠ dirIdx)
    (hrx : usbRequestDirection e.control.request.bmRequestType = 1 → e.reg.rx ≠ .valid) (n : ℕ) :
    (e.transfer dirIdx n).Quiet := by
  by_cases hn : n = 0
  · subst hn
    rw [Ep0.transfer_status hdir]
    cases hcb : e.control.controlCompleteCb with
    | none => exact h
    | some cb =>
      refine h.callback cb .status ?_
      rintro rfl - hvalid
      rcases (h.armed hvalid).stage with ⟨hin, -⟩ | ⟨-, hreceiving⟩
      · exact hrx hin hvalid
      · obtain ⟨_, _, hact, -, -⟩ := hreceiving.response
        exact response_cb hact (hreceiving.callback.symm.trans hcb)
  · rw [Ep0.transfer_status_data hdir hn]
    exact h

/-- A completed IN packet. -/
theorem Ep0.Quiet.transfer_in (h : e.Quiet) (n : ℕ) : (e.transfer 1 n).Quiet := by
  rcases usbRequestDirection_cases e.control.request.bmRequestType with hout | hin
  · have hdir : usbRequestDirection e.control.request.bmRequestType ≠ 1 := by omega
    exact h.transfer_status hdir (fun hin => absurd hin hdir) n
  · have hlog := h.log (v := .dataStage e.control.request n) fun _ => rfl
    have hsent : (e.sentIn n).Quiet := by
      refine ⟨hlog.vtrx, fun hv => ⟨(hlog.armed hv).fed, (hlog.armed hv).buffer, ?_⟩⟩
      rcases (hlog.armed hv).stage with hs | ⟨hout, -⟩
      · exact .inl hs
      · exact absurd (hin.symm.trans hout) (by decide)
    rw [Ep0.transfer_in hin]
    split
    · exact hsent.dataComplete
    · exact hsent.dataStage_in hin

theorem Receiving.lt {c : ControlTransfer} {queued : ℕ} (h : Receiving c queued) :
    c.feed.totalCount < 2 ^ 16 := by
  obtain ⟨_, len, -, -, htotal⟩ := h.response
  have := c.request.wLength.isLt
  omega

/-- The feed has a destination. -/
theorem Receiving.buffer {c : ControlTransfer} {queued : ℕ} (h : Receiving c queued) :
    c.feed.buffer ≠ .null := by
  obtain ⟨buffer, len, hact, hbuffer, -⟩ := h.response
  intro hnull
  refine (response_buffer hact).2 ?_
  have hregion : c.feed.buffer.region = buffer.region := by
    rw [hbuffer]
    rfl
  rw [← hregion, hnull]
  rfl

/-- A handled OUT packet that fits. -/
theorem Ep0.Quiet.transfer_out (h : e.Quiet) (hrx : e.reg.rx ≠ .valid) {n : ℕ}
    (hstage : OutAwaited e.control (lastQueued e.trace 0) n) (hn : n ≤ 64)
    (hfits : usbRequestDirection e.control.request.bmRequestType = 0 →
      n ≤ e.control.feed.totalCount - e.control.feed.fedCount) :
    (e.transfer 0 n).Quiet := by
  obtain ⟨hin, -⟩ | ⟨hout, hreceiving⟩ := hstage
  · exact h.transfer_status (by omega) (fun _ => hrx) n
  have hroom := hfits hout
  have hlt := hreceiving.lt
  have hle := hreceiving.fed
  rw [Ep0.transfer_out hout hreceiving.buffer]
  split
  · exact Quiet.dataComplete (.of_nak h.vtrx hrx)
  · rename_i hmore
    obtain ⟨-, hfull⟩ := not_or.mp hmore
    have hfed : (e.receivedOut n).control.feed.fedCount = e.control.feed.fedCount + n := by
      show add16 e.control.feed.fedCount (u16 n) = _
      rw [u16_of_lt (by omega), add16_of_lt (by omega)]
    obtain ⟨buffer, len, hact, hbuffer, htotal⟩ := hreceiving.response
    have hfull' : n = 64 := by
      simp only [usbEp0BufferSize] at hfull
      omega
    refine Quiet.dataStage_out h.vtrx hout ?_
    exact { response := by
              refine ⟨buffer, len, hact, ?_, htotal⟩
              rw [hfed]
              show e.control.feed.buffer.add n = _
              rw [hbuffer, Ptr.add_add]
            callback := hreceiving.callback
            fed := by
              rw [hfed]
              show _ ≤ e.control.feed.totalCount
              omega
            first := by
              rw [hfed]
              simp only [usbEp0BufferSize]
              omega
            queued := by
              have hle : (e.receivedOut n).control.feed.fedCount ≤
                  (e.receivedOut n).control.feed.totalCount := by
                rw [hfed]
                show _ ≤ e.control.feed.totalCount
                omega
              exact feedForwardRemainingCount_eq hle hlt _ }

/-! ### The interrupt handler -/

/-- The condition, at EP0. -/
def Ep0.DataFits (e : Ep0) : Prop :=
  e.reg.vtrx = true → e.reg.setup = false →
    usbRequestDirection e.control.request.bmRequestType = 0 →
      e.rxCount ≤ e.control.feed.totalCount - e.control.feed.fedCount

theorem Ep0.Quiet.clearRxFeed (h : e.Quiet) : e.clearRxFeed.Quiet where
  vtrx := h.vtrx
  armed := fun hv => ⟨rfl, (h.armed hv).buffer, (h.armed hv).stage⟩

theorem Ep0.Receptive.irqRx (h : e.Receptive) (hfits : e.DataFits) (r : UsbControlRequest) :
    (e.irqRx r).Quiet := by
  by_cases hvtrx : e.reg.vtrx = true
  · have hcleared : ({ e with reg := { e.reg with vtrx := false } } : Ep0).Quiet :=
      .of_nak rfl (h.nak hvtrx)
    have hhandled : e.rxHandled.Quiet := .of_nak rfl (h.nak hvtrx)
    by_cases hsetup : e.reg.setup = true
    · simp only [Ep0.irqRx]
      rw [if_pos hvtrx, if_pos hsetup]
      split
      · exact hcleared.handle (h.nak hvtrx) r
      · exact .of_nak rfl (h.nak hvtrx)
    · have hsetup' : e.reg.setup = false := by simpa using hsetup
      obtain ⟨hready, hcount⟩ := h.pending hvtrx hsetup'
      have hstage : OutAwaited e.rxHandled.control (lastQueued e.rxHandled.trace 0) e.rxCount := by
        have hlast : lastQueued e.rxHandled.trace 0 = lastQueued e.trace 0 := lastQueued_snoc ..
        rw [hlast]
        exact hready.stage
      rw [Ep0.irqRx_out hvtrx hsetup' hready.fed (by omega)]
      exact (hhandled.transfer_out (h.nak hvtrx) hstage hcount (hfits hvtrx hsetup')).clearRxFeed
  · simp only [Ep0.irqRx]
    rw [if_neg hvtrx]
    exact ⟨by simpa using hvtrx, h.armed⟩

theorem Ep0.Quiet.irqTx (h : e.Quiet) (vttx : Bool) : (e.irqTx vttx).Quiet := by
  have hcleared : ({ e with reg := { e.reg with vttx := false } } : Ep0).Quiet :=
    ⟨h.vtrx, fun hv => (h.armed hv).of_same rfl rfl rfl⟩
  simp only [Ep0.irqTx]
  split
  · split
    · exact ⟨h.vtrx, fun hv => (h.armed hv).of_same rfl rfl rfl⟩
    · exact hcleared.transfer_in _
  · exact h

/-! ### SETUP packets of any size -/

/-- A SETUP packet that fits the receive buffer is taken. -/
def Ep0.setupPacket (e : Ep0) (data : List Byte) : Ep0 :=
  if !e.reg.vtrx && e.reg.rx != .disabled && decide (data.length ≤ e.rxCapacity) then
    log { e with reg := { e.reg with tx := .nak, rx := .nak, vtrx := true, setup := true }
                 rxCount := data.length } (.setupPacket (usbControlRequestOfBytes data))
  else e

theorem Ep0Refines.setupPacket {s : Usb} (h : Ep0Refines s e) (data : List Byte) :
    Ep0Refines (busSetupPacket s data) (e.setupPacket data) := by
  have hok : busSetupPacketOk s data =
      (!e.reg.vtrx && e.reg.rx != .disabled && decide (data.length ≤ e.rxCapacity)) := by
    simp only [busSetupPacketOk]
    rw [← h.reg, ← h.rxCapacity]
    rfl
  simp only [busSetupPacket, Ep0.setupPacket]
  rw [hok]
  split
  · rename_i htaken
    simp only [Bool.and_eq_true, decide_eq_true_eq] at htaken
    have hdeposit := h.rxDeposit (htaken.2.trans h.fits)
    have hchep := hdeposit.setChep (epView_hwSetupPacket ((PcbMill.rxDeposit s 0 data).chep 0))
    rw [show vttx ((PcbMill.rxDeposit s 0 data).chep 0) = e.reg.vttx from
      congrArg EpView.vttx h.reg] at hchep
    exact hchep.log rfl
  · exact h

/-- A SETUP packet that waits stops the receiver, whatever it was armed for. -/
theorem Ep0.receptive_of_setup (hrx : e.reg.rx = .nak) (hsetup : e.reg.setup = true) :
    e.Receptive where
  nak := fun _ hvalid => EpState.noConfusion (hrx.symm.trans hvalid)
  armed := fun hvalid => EpState.noConfusion (hrx.symm.trans hvalid)
  pending := fun _ hnot => absurd (hnot.symm.trans hsetup) Bool.false_ne_true

/-- What one event keeps while the packets fit. -/
theorem Ep0.Receptive.step (h : e.Receptive) (hcapacity : e.rxCapacity ≤ 64)
    (r : UsbControlRequest) (ev : Ep0Event) (hfits : ev = .irq → e.DataFits) :
    (e.step r ev).Receptive := by
  cases ev with
  | reset =>
    exact { nak := fun hv => absurd hv Bool.false_ne_true
            armed := fun hv => EpState.noConfusion hv
            pending := fun hv => absurd hv Bool.false_ne_true }
  | setup r' =>
    show (e.setup r').Receptive
    simp only [Ep0.setup]
    split
    · exact receptive_of_setup rfl rfl
    · exact h
  | out data =>
    show (e.out data).Receptive
    simp only [Ep0.out]
    split
    · rename_i hout
      simp only [Ep0.outOk, Bool.and_eq_true, beq_iff_eq, decide_eq_true_eq] at hout
      obtain ⟨hvalid, hlen⟩ := hout
      have hready := (h.armed hvalid).mono hlen
      exact { nak := fun _ => EpState.noConfusion
              armed := fun hv => EpState.noConfusion hv
              pending := fun _ _ =>
                ⟨hready.of_same rfl rfl (lastQueued_snoc ..), hlen.trans hcapacity⟩ }
    · exact h
  | poll =>
    show e.poll.Receptive
    simp only [Ep0.poll]
    split
    · exact { nak := h.nak
              armed := fun hv => (h.armed hv).of_same rfl rfl rfl
              pending := fun hv hs =>
                ⟨(h.pending hv hs).1.of_same rfl rfl rfl, (h.pending hv hs).2⟩ }
    · exact h
  | irq => exact ((h.irqRx (hfits rfl) r).irqTx _).receptive

theorem Ep0.Receptive.setupPacket (h : e.Receptive) (data : List Byte) :
    (e.setupPacket data).Receptive := by
  simp only [Ep0.setupPacket]
  split
  · exact receptive_of_setup rfl rfl
  · exact h

/-! ### The variables a control transfer leaves alone -/

/-- Variables that no response is built in are kept, but for the control buffer. -/
structure RamKept (s s' : Usb) : Prop where
  ram : ∀ g, g ≠ .ep0ControlBuffer → g.scratch = false → s'.ram g = s.ram g

section Frame

variable {s s' s'' : Usb}

theorem RamKept.of_eq (h : s'.ram = s.ram) : RamKept s s' :=
  ⟨fun g _ _ => congrFun h g⟩

theorem RamKept.trans (h : RamKept s s') (h' : RamKept s' s'') : RamKept s s'' :=
  ⟨fun g hg hscratch => (h'.ram g hg hscratch).trans (h.ram g hg hscratch)⟩

/-- The line coding is one of them. -/
theorem RamKept.lineCoding (h : RamKept s s') : lineCodingBytes s' = lineCodingBytes s := by
  have hram := h.ram .lineCoding Region.noConfusion rfl
  show readSegment (s'.ram .lineCoding) 0 lineCodingSize = _
  rw [hram]
  rfl

theorem ramKept_queue (s : Usb) (epIdn dirIdx : ℕ) (buffer : Ptr) (n : ℕ) :
    RamKept s (usbEpQueueTransferHal s epIdn dirIdx buffer n).2 :=
  .of_eq (usbEpQueueTransferHal_ram ..)

theorem ramKept_statusStage (s : Usb) (r : UsbControlRequest) :
    RamKept s (usbControlStatusStage s r).2 := by
  rw [usbControlStatusStage_eq]
  exact ramKept_queue ..

theorem ramKept_initStatusStage (s : Usb) (r : UsbControlRequest) :
    RamKept s (usbControlInitStatusStage s r).2 :=
  ⟨(ramKept_statusStage (s.setControl _) r).ram⟩

/-- The copy of an IN data stage goes to the control buffer. -/
theorem ramKept_dataStage (s : Usb) : RamKept s (usbControlDataStage s).2 := by
  rcases usbRequestDirection_cases s.controlTransfer.request.bmRequestType with hdir | hdir
  · rw [usbControlDataStage_out hdir]
    exact ramKept_queue ..
  · have hcopy : RamKept s (dataStageCopy s) := ⟨fun _ hg _ => Function.update_of_ne hg _ _⟩
    rw [usbControlDataStage_in hdir]
    exact hcopy.trans (ramKept_queue ..)

theorem ramKept_response (s : Usb) (r : UsbControlRequest) (buffer : Ptr) (len : ℕ) :
    RamKept s (usbEpInitiateControlResponse s r buffer len).2 := by
  by_cases hlen : 0 < r.wLength.toNat
  · rw [usbEpInitiateControlResponse_data hlen]
    exact ⟨(ramKept_dataStage (responseState s r buffer len)).ram⟩
  · rw [usbEpInitiateControlResponse_status hlen]
    exact ⟨(ramKept_statusStage (responseState s r buffer len) r).ram⟩

theorem ramKept_request (s : Usb) (r : UsbControlRequest) :
    RamKept s (usbProcessControlRequest s r).2 := by
  have hout := usbProcessControlRequest_outcome s r
  have hhandled : ∀ {s'}, Handled r s s' → RamKept s s' :=
    fun hs => ⟨fun g _ hscratch => hs.ram g hscratch⟩
  generalize usbProcessControlRequest s r = p at hout ⊢
  cases hout with
  | reject s' _ hs => exact hhandled hs
  | response buffer len s' _ hs => exact (hhandled hs).trans (ramKept_response ..)
  | status s' _ hs => exact (hhandled hs).trans (ramKept_initStatusStage ..)
  | setAddress s' _ hs =>
    exact ((hhandled hs).trans (ramKept_initStatusStage ..)).trans (ramKept_queue ..)
  | setConfiguration s' _ hs =>
    obtain ⟨s₁, hconf, heq⟩ := usbSetConfiguration_eq s' r
    rw [heq]
    exact ((hhandled hs).trans (.of_eq hconf.ram)).trans (ramKept_initStatusStage ..)
  | endpointFeature s' _ hs =>
    refine (hhandled hs).trans (.of_eq ?_)
    show (endpointFeatureState s' r).ram = s'.ram
    simp only [endpointFeatureState]
    split_ifs <;> rfl

/-- Handling a SETUP packet. -/
theorem ramKept_setup (s : Usb) (r : UsbControlRequest) :
    RamKept s (processControlRequestHal s r) := by
  have hrequest := ramKept_request s r
  simp only [processControlRequestHal]
  generalize usbProcessControlRequest s r = p at hrequest ⊢
  obtain ⟨ok, s'⟩ := p
  cases ok with
  | false => exact hrequest.trans (.of_eq rfl)
  | true => exact hrequest.trans (.of_eq rfl)

theorem ramKept_callback (s : Usb) (cb : ControlCompleteCb) {stage : ControlStage}
    (hstage : stage ≠ .setup) : RamKept s (controlCompleteCb s cb stage).2 := by
  refine .of_eq ?_
  cases cb with
  | usbDeviceSetAddressComplete =>
    simp only [controlCompleteCb, usbDeviceSetAddressComplete]
    split <;> rfl
  | usbCdcControlTransfer =>
    obtain ⟨-, c, hstate⟩ := usbCdcControlTransfer_later
      (s.log (.callback .usbCdcControlTransfer stage s.controlTransfer.request)) hstage
      s.controlTransfer.request
    exact (congrArg Usb.ram hstate :)

theorem ramKept_dataComplete (s : Usb) : RamKept s (usbControlDataComplete s).2 := by
  have hcb : RamKept s (usbControlDataCallback s).2 := by
    simp only [usbControlDataCallback]
    split
    · exact ramKept_callback s _ ControlStage.noConfusion
    · exact .of_eq rfl
  simp only [usbControlDataComplete]
  split
  · exact hcb.trans (ramKept_statusStage ..)
  · exact hcb.trans (.of_eq rfl)

/-- A data packet of a host-to-device request is stored at its destination. -/
theorem ramKept_transfer_out {s : Usb} (epAddr : Byte) (n : ℕ)
    (hout : usbRequestDirection s.controlTransfer.request.bmRequestType = 0)
    (haddr : usbEpDirIdx epAddr = 0) (hbuffer : s.controlTransfer.feed.buffer ≠ .null) :
    RamKept (s.store s.controlTransfer.feed.buffer (s.load ⟨.ep0ControlBuffer, 0⟩ n))
      (usbControlTransfer s epAddr n).2 := by
  have hreceived : ∀ ev, RamKept
      (s.store s.controlTransfer.feed.buffer (s.load ⟨.ep0ControlBuffer, 0⟩ n))
      (usbControlDataReceived (s.log ev) n) := by
    intro ev
    refine .of_eq ?_
    simp only [usbControlDataReceived]
    rw [if_pos (show usbRequestDirection (s.log ev).controlTransfer.request.bmRequestType =
      usbDirDeviceInHostOutIdx from hout)]
    rfl
  simp only [usbControlTransfer]
  rw [if_neg (not_not.mpr (hout.trans haddr.symm)), if_neg (fun hc => hbuffer hc.2)]
  split
  · exact (hreceived _).trans (ramKept_dataComplete _)
  · exact (hreceived _).trans (ramKept_dataStage _)

/-- Any other completion stores nothing. -/
theorem ramKept_transfer {s : Usb} {epAddr : Byte} (n : ℕ)
    (h : usbRequestDirection s.controlTransfer.request.bmRequestType = 1 ∨
      usbEpDirIdx epAddr = 1) : RamKept s (usbControlTransfer s epAddr n).2 := by
  simp only [usbControlTransfer]
  by_cases hdir : usbRequestDirection s.controlTransfer.request.bmRequestType = usbEpDirIdx epAddr
  · have hin : ¬usbRequestDirection s.controlTransfer.request.bmRequestType =
        usbDirDeviceInHostOutIdx := by
      simp only [usbDirDeviceInHostOutIdx]
      omega
    have hreceived : ∀ ev, RamKept s (usbControlDataReceived (s.log ev) n) := by
      intro ev
      refine .of_eq ?_
      simp only [usbControlDataReceived]
      rw [if_neg (show ¬usbRequestDirection (s.log ev).controlTransfer.request.bmRequestType =
        usbDirDeviceInHostOutIdx from hin)]
      rfl
    rw [if_neg (not_not.mpr hdir), if_neg (fun hc => hin hc.1)]
    split
    · exact (hreceived _).trans (ramKept_dataComplete _)
    · exact (hreceived _).trans (ramKept_dataStage _)
  · rw [if_pos hdir]
    split
    · exact .of_eq rfl
    · split
      · exact ramKept_callback s _ ControlStage.noConfusion
      · exact .of_eq rfl

theorem ramKept_irqTx (s : Usb) (epReg : Word) : RamKept s (usbIrqTx noCallbacks s 0 epReg) := by
  have hclear : RamKept s (usbEpClearCorrectTransfer s 0 usbDirDeviceOutHostInIdx) := .of_eq rfl
  simp only [usbIrqTx, usbEpTransferComplete]
  rw [if_pos (by decide : usbEpIdn (BitVec.ofNat 8 0 ||| usbDirDeviceOutHostIn) = 0)]
  split
  · split
    · exact .of_eq rfl
    · exact hclear.trans (ramKept_transfer _ (.inr (by decide)))
  · exact .of_eq rfl

end Frame

/-! ### The line coding -/

section LineCoding

variable {s : Usb}

theorem pendingPacket_length (h : Ep0Ready s) :
    (pendingPacket s 0).length = usbPmaCountGet s 0 usbEpRxCountAddrIdx := by
  have haddr : usbPmaEpAddrGet s 0 usbEpRxCountAddrIdx = 128 := h.rxAddr
  simp only [pendingPacket]
  rw [haddr, usbRxPmaRead_eq _ (by decide)]
  exact loadBytes_length ..

/-- The packet is first copied to the control buffer. -/
theorem rxStageState_kept (h : Ep0Refines s e) (hwait : PacketAwaited e e.rxCount) :
    RamKept s (rxStageState s) ∧
      (rxStageState s).load ⟨.ep0ControlBuffer, 0⟩ (usbPmaCountGet s 0 usbEpRxCountAddrIdx) =
        pendingPacket s 0 := by
  have hfeed : (s.epTransferSet 0 usbDirDeviceInHostOutIdx).feed = e.rxFeed := h.rxFeed
  have hcount : usbPmaCountGet s 0 usbEpRxCountAddrIdx = e.rxCount := h.rxCount
  have hlen := pendingPacket_length h.ready
  have hstate : (rxStageState s).ram = (s.store ((s.epTransferSet 0
      usbDirDeviceInHostOutIdx).feed.buffer.add (s.epTransferSet 0
        usbDirDeviceInHostOutIdx).feed.fedCount) (pendingPacket s 0)).ram := rfl
  rw [hfeed, hwait.fed] at hstate
  rcases hwait.buffer with hbuffer | hzero
  · rw [hbuffer] at hstate
    refine ⟨⟨fun g hg _ => ?_⟩, ?_⟩
    · rw [hstate]
      exact Function.update_of_ne hg _ _
    · rw [← hlen]
      show readSegment ((rxStageState s).ram .ep0ControlBuffer) 0 (pendingPacket s 0).length = _
      rw [hstate]
      exact s.load_store (p := ⟨.ep0ControlBuffer, 0⟩) rfl (pendingPacket s 0)
  · have hnil : pendingPacket s 0 = [] := List.length_eq_zero_iff.mp (by omega)
    rw [hnil, s.store_nil] at hstate
    refine ⟨.of_eq hstate, ?_⟩
    rw [hcount, hzero, hnil]
    rfl

/-- The state in which the iteration on a data packet leaves the variables. -/
theorem ramKept_rxPacket (hvtrx : vtrx (s.chep 0) = true) (hsetup : setupFlag (s.chep 0) = false) :
    RamKept (usbControlTransfer (rxStageState s) 0x00#8
      ((rxStageState s).epTransferSet 0 usbDirDeviceInHostOutIdx).feed.fedCount).2
      (ep0Step s .irq) := by
  have hrx : (afterIrqRx s).ram = (usbControlTransfer (rxStageState s) 0x00#8
      ((rxStageState s).epTransferSet 0 usbDirDeviceInHostOutIdx).feed.fedCount).2.ram := by
    simp only [afterIrqRx, usbIrqRx]
    rw [if_pos hvtrx, if_neg (by rw [hsetup]; decide)]
    rfl
  exact (RamKept.of_eq hrx).trans (ramKept_irqTx _ _)

/-- The count of a data packet that `usb_control_transfer` is called with. -/
theorem rxStageState_fedCount (h : Ep0Refines s e) (hwait : PacketAwaited e e.rxCount)
    (hcount : e.rxCount ≤ 64) :
    ((rxStageState s).epTransferSet 0 usbDirDeviceInHostOutIdx).feed.fedCount = e.rxCount := by
  have hfeed : (s.epTransferSet 0 usbDirDeviceInHostOutIdx).feed = e.rxFeed := h.rxFeed
  have hrx : usbPmaCountGet s 0 usbEpRxCountAddrIdx = e.rxCount := h.rxCount
  have hfed : ((rxStageState s).epTransferSet 0 usbDirDeviceInHostOutIdx).feed.fedCount =
      add16 (s.epTransferSet 0 usbDirDeviceInHostOutIdx).feed.fedCount
        (usbPmaCountGet s 0 usbEpRxCountAddrIdx) := rfl
  rw [hfed, hfeed, hwait.fed, hrx, add16_of_lt (by omega), Nat.zero_add]

/-- The data of SET_LINE_CODING overwrites the line coding from its start. -/
theorem lineCoding_data (h : Ep0Refines s e) (hvtrx : vtrx (s.chep 0) = true)
    (hsetup : setupFlag (s.chep 0) = false) (hwait : PacketAwaited e e.rxCount)
    (hcount : e.rxCount ≤ 64) (hset : IsSetLineCoding s.controlTransfer.request)
    (hout : usbRequestDirection s.controlTransfer.request.bmRequestType = 0) :
    lineCodingBytes (ep0Step s .irq) =
      readSegment (writeSegment (s.ram .lineCoding) 0 (pendingPacket s 0)) 0 lineCodingSize := by
  obtain ⟨hkept, hload⟩ := rxStageState_kept h hwait
  have hfed := rxStageState_fedCount h hwait hcount
  have hrx : usbPmaCountGet s 0 usbEpRxCountAddrIdx = e.rxCount := h.rxCount
  obtain ⟨-, hreceiving⟩ : usbRequestDirection e.control.request.bmRequestType = 0 ∧
      Receiving e.control (lastQueued e.trace 0) := by
    rw [h.control] at hout
    exact hwait.stage.resolve_left fun ⟨hin, _⟩ => absurd (hin.symm.trans hout) (by decide)
  have hbuffer : s.controlTransfer.feed.buffer = ⟨.lineCoding, 0⟩ := by
    rw [h.control] at hset ⊢
    obtain ⟨buffer, len, hact, hbuffer, htotal⟩ := hreceiving.response
    obtain ⟨rfl, hlen⟩ := response_lineCoding hact hset
    have hfirst := hreceiving.first
    have hle := hreceiving.fed
    simp only [usbEp0BufferSize] at hfirst
    simp only [lineCodingSize] at hlen
    have hzero : e.control.feed.fedCount = 0 := by omega
    rw [hbuffer, hzero]
    rfl
  have hstored := ramKept_transfer_out (s := rxStageState s) 0x00#8
    ((rxStageState s).epTransferSet 0 usbDirDeviceInHostOutIdx).feed.fedCount hout (by decide)
    (by rw [show (rxStageState s).controlTransfer = s.controlTransfer from rfl, hbuffer]; decide)
  rw [(hstored.trans (ramKept_rxPacket hvtrx hsetup)).lineCoding, hfed, ← hrx, hload,
    show (rxStageState s).controlTransfer = s.controlTransfer from rfl, hbuffer]
  have hram := hkept.ram .lineCoding Region.noConfusion rfl
  rw [← hram]
  exact congrArg (fun m => readSegment m 0 lineCodingSize)
    (Function.update_self (β := fun _ => ℕ → Byte) Region.lineCoding _ (rxStageState s).ram)

theorem usbReset_ram (s : Usb) : (usbReset s).ram = s.ram := by
  have hassign : ∀ (s : Usb) (epAddr : Byte) (epType : ℕ),
      (usbEpAssign s epAddr epType).2.ram = s.ram := by
    intro s epAddr epType
    simp only [usbEpAssign]
    split
    · rfl
    · split
      · rfl
      · rfl
  simp only [usbReset, usbConfigurationReset, usbCdcReset, usbInitEnableHal, usbEpControlInit]
  dsimp only [Usb.setControl, Usb.setDevice, Usb.setCdc, usbEpSetRxBufferBlockSize,
    usbPmaEpAddrSet, usbPmaNextAddr, Usb.setTransfer, Usb.setPma, Usb.setChep]
  rw [hassign, hassign]
  rfl

/-- Nothing but the data of a host-to-device request is stored in the line coding. -/
theorem lineCoding_kept (h : Ep0Refines s e) (hr : e.Receptive) (ev : ReceptionEvent)
    (hnot : HandlesData s ev → usbRequestDirection s.controlTransfer.request.bmRequestType = 1) :
    lineCodingBytes (receptionStep s ev) = lineCodingBytes s := by
  refine RamKept.lineCoding ?_
  cases ev with
  | setupPacket data =>
    show RamKept s (busSetupPacket s data)
    unfold busSetupPacket
    split <;> exact .of_eq rfl
  | ep0 ev =>
    cases ev with
    | reset => exact .of_eq (usbReset_ram s)
    | setup r =>
      show RamKept s (busSetup s r)
      unfold busSetup
      split <;> exact .of_eq rfl
    | out data =>
      show RamKept s (busOut s 0 data)
      unfold busOut
      split <;> exact .of_eq rfl
    | poll =>
      show RamKept s (busIn s 0)
      unfold busIn
      split <;> exact .of_eq rfl
    | irq =>
      by_cases hvtrx : vtrx (s.chep 0) = true
      · by_cases hsetup : setupFlag (s.chep 0) = true
        · have hclear : RamKept s (usbEpClearCorrectTransfer s 0 usbDirDeviceInHostOutIdx) :=
            .of_eq rfl
          have hrx : RamKept s (afterIrqRx s) := by
            unfold afterIrqRx usbIrqRx usbEpSetup
            rw [if_pos hvtrx, if_pos hsetup]
            dsimp only
            split
            · exact hclear.trans (ramKept_setup ..)
            · exact .of_eq rfl
          exact hrx.trans (ramKept_irqTx _ _)
        · have hsetup' : setupFlag (s.chep 0) = false := by simpa using hsetup
          have hin := hnot ⟨rfl, hvtrx, hsetup'⟩
          have hwait := (hr.pending ((congrArg EpView.vtrx h.reg).symm.trans hvtrx)
            ((congrArg EpView.setup h.reg).symm.trans hsetup')).1
          exact ((rxStageState_kept h hwait).1.trans (ramKept_transfer _ (.inl hin))).trans
            (ramKept_rxPacket hvtrx hsetup')
      · have hrx : afterIrqRx s = s := by
          unfold afterIrqRx usbIrqRx
          rw [if_neg hvtrx]
        show RamKept s (usbIrqTx noCallbacks (afterIrqRx s) 0 (s.chep 0))
        rw [hrx]
        exact ramKept_irqTx _ _

end LineCoding

/-! ### Steps -/

section Steps

variable {s : Usb} {ev : ReceptionEvent}

theorem HandlesData.awaited (hd : HandlesData s ev) (h : Ep0Refines s e) (hr : e.Receptive) :
    PacketAwaited e e.rxCount ∧ e.rxCount ≤ 64 :=
  hr.pending ((congrArg EpView.vtrx h.reg).symm.trans hd.2.1)
    ((congrArg EpView.setup h.reg).symm.trans hd.2.2)

theorem HandlesData.receiving (hd : HandlesData s ev) (h : Ep0Refines s e) (hr : e.Receptive)
    (hout : usbRequestDirection s.controlTransfer.request.bmRequestType = 0) :
    Receiving s.controlTransfer (lastQueued s.trace 0) := by
  have hstage := (hd.awaited h hr).1.stage
  rw [h.control] at hout ⊢
  rw [← lastQueued_filter, h.trace]
  exact (hstage.resolve_left fun ⟨hin, _⟩ => absurd (hin.symm.trans hout) (by decide)).2

/-- The bytes that SET_LINE_CODING may leave behind. -/
theorem lineCoding_iff (old : ℕ → Byte) {packet : List Byte} (hlen : packet.length ≤ lineCodingSize) :
    (readSegment (writeSegment old 0 packet) 0 lineCodingSize = readSegment old 0 lineCodingSize ∨
      lineCodingSize ≤ packet.length ∧
        readSegment (writeSegment old 0 packet) 0 lineCodingSize = packet.take lineCodingSize) ↔
    packet.length = lineCodingSize ∨
      packet = (readSegment old 0 lineCodingSize).take packet.length := by
  have hprefix : (readSegment (writeSegment old 0 packet) 0 lineCodingSize).take packet.length =
      packet := by
    rw [take_readSegment, Nat.min_eq_left hlen, readSegment_writeSegment]
  constructor
  · rintro (hsame | ⟨hfull, -⟩)
    · right
      rw [← hsame, hprefix]
    · exact .inl (by omega)
  · rintro (hfull | hsame)
    · right
      refine ⟨by omega, ?_⟩
      rw [← hfull, readSegment_writeSegment, List.take_length]
    · left
      apply readSegment_congr
      intro i _ _
      by_cases hi : i < packet.length
      · have hread : i < (readSegment old 0 lineCodingSize).length := by
          rw [readSegment_length]
          omega
        have hold : (readSegment old 0 lineCodingSize)[i] = packet[i] := by
          rw [List.getElem_of_eq hsame hi, List.getElem_take]
        rw [getElem_readSegment] at hold
        have hnew := writeSegment_of_mem old 0 i packet hi
        rw [Nat.zero_add] at hold hnew
        rw [hnew, hold]
      · exact writeSegment_of_ge old packet (by omega)

/-- A packet of SET_LINE_CODING that is no longer than the line coding replaces all of it or
changes nothing exactly when it has its length or repeats it. -/
theorem HandlesData.lineCoding_iff (hd : HandlesData s ev) (h : Ep0Refines s e) (hr : e.Receptive)
    (hout : usbRequestDirection s.controlTransfer.request.bmRequestType = 0)
    (hset : IsSetLineCoding s.controlTransfer.request)
    (hcount : usbPmaCountGet s 0 usbEpRxCountAddrIdx ≤ lineCodingSize) :
    (lineCodingBytes (receptionStep s ev) = lineCodingBytes s ∨
      lineCodingSize ≤ usbPmaCountGet s 0 usbEpRxCountAddrIdx ∧
        lineCodingBytes (receptionStep s ev) = (pendingPacket s 0).take lineCodingSize) ↔
      usbPmaCountGet s 0 usbEpRxCountAddrIdx = lineCodingSize ∨ pendingPacket s 0 =
        (lineCodingBytes s).take (usbPmaCountGet s 0 usbEpRxCountAddrIdx) := by
  obtain ⟨hwait, hle⟩ := hd.awaited h hr
  obtain ⟨rfl, hvtrx, hsetup⟩ := hd
  have hdata := lineCoding_data h hvtrx hsetup hwait hle hset hout
  have hlen := pendingPacket_length h.ready
  rw [← hlen] at hcount ⊢
  rw [show receptionStep s (.ep0 .irq) = ep0Step s .irq from rfl, hdata]
  exact PcbMill.lineCoding_iff (s.ram .lineCoding) hcount

/-- The response buffer of SET_LINE_CODING is the line coding. -/
theorem controlRemaining_lineCoding {queued : ℕ}
    (hset : IsSetLineCoding s.controlTransfer.request)
    (hreceiving : Receiving s.controlTransfer queued) : controlRemaining s ≤ lineCodingSize := by
  obtain ⟨buffer, len, hact, -, htotal⟩ := hreceiving.response
  have hlen := (response_lineCoding hact hset).2
  simp only [controlRemaining]
  omega

/-- One event: the copies are bounded exactly when the packet fits. -/
theorem copiesBounded_iff (h : Ep0Refines s e) (hr : e.Receptive) :
    CopiesBounded s ev ↔ PacketFits s ev := by
  have hrx : usbPmaCountGet s 0 usbEpRxCountAddrIdx = e.rxCount := h.rxCount
  constructor
  · intro hb
    have hdata : HandlesData s ev →
        usbRequestDirection s.controlTransfer.request.bmRequestType = 0 →
        usbPmaCountGet s 0 usbEpRxCountAddrIdx ≤ controlRemaining s := by
      intro hd hout
      obtain ⟨hwait, hle⟩ := hd.awaited h hr
      have hcontrol := hb.control hd hout (hd.receiving h hr hout).buffer
      rwa [rxStageState_fedCount h hwait hle, ← hrx] at hcontrol
    refine { setup := hb.setup, data := hdata, lineCoding := ?_ }
    intro hd hout hset
    have hcount := (hdata hd hout).trans (controlRemaining_lineCoding hset (hd.receiving h hr hout))
    exact (hd.lineCoding_iff h hr hout hset hcount).mp (hb.lineCoding hset)
  · intro hf
    refine { setup := hf.setup, queued := ?_, control := ?_, lineCoding := ?_ }
    · intro hd
      obtain ⟨hwait, hle⟩ := hd.awaited h hr
      have hfed : (s.epTransferSet 0 usbDirDeviceInHostOutIdx).feed.fedCount = 0 :=
        (congrArg FeedForwardBuffer.fedCount h.rxFeed).trans hwait.fed
      simp only [queuedRemaining]
      rw [hfed, hrx]
      rcases hwait.stage with ⟨-, hzero⟩ | ⟨hout, -⟩
      · omega
      · rw [← h.control] at hout
        have hqueued := (hd.receiving h hr hout).queued
        have hfits := hf.data hd hout
        simp only [controlRemaining] at hfits
        simp only [usbEp0BufferSize] at hqueued
        omega
    · intro hd hout _
      obtain ⟨hwait, hle⟩ := hd.awaited h hr
      rw [rxStageState_fedCount h hwait hle, ← hrx]
      exact hf.data hd hout
    · intro hset
      by_cases hd : HandlesData s ev ∧
          usbRequestDirection s.controlTransfer.request.bmRequestType = 0
      · obtain ⟨hd, hout⟩ := hd
        have hcount := (hf.data hd hout).trans
          (controlRemaining_lineCoding hset (hd.receiving h hr hout))
        exact (hd.lineCoding_iff h hr hout hset hcount).mpr (hf.lineCoding hd hout hset)
      · refine .inl (lineCoding_kept h hr ev fun hpending => ?_)
        exact (usbRequestDirection_cases _).resolve_left fun hout => hd ⟨hpending, hout⟩

/-- An event whose packet fits keeps EP0 ready for the next one. -/
theorem receptionStep_receptive (h : Ep0Refines s e) (hr : e.Receptive) (hf : PacketFits s ev) :
    ∃ e', Ep0Refines (receptionStep s ev) e' ∧ e'.Receptive := by
  cases ev with
  | setupPacket data => exact ⟨_, h.setupPacket data, hr.setupPacket data⟩
  | ep0 ev =>
    refine ⟨_, h.step ev, hr.step h.fits _ ev ?_⟩
    rintro rfl hvtrx hsetup hout
    have hd : HandlesData s (.ep0 .irq) := ⟨rfl, (congrArg EpView.vtrx h.reg).trans hvtrx,
      (congrArg EpView.setup h.reg).trans hsetup⟩
    rw [← h.control] at hout ⊢
    exact (h.rxCount.symm.trans_le (hf.data hd hout) :)

end Steps

/-! ### The bulk endpoint -/

section Bulk

variable {s : Usb} {fed : ℕ} {c : CdcPipe}

/-- The transfer last queued on the bulk OUT endpoint fills its buffer. -/
def BulkQueued (s : Usb) : Prop := lastQueued s.trace cdcEpIdn = usbCdcEpBufferSize

theorem BulkQueued.log (hq : BulkQueued s) {v : UsbEvent}
    (hv : ∀ n, queuedAfter cdcEpIdn n v = n) : BulkQueued (s.log v) := by
  show lastQueued (s.trace ++ [v]) cdcEpIdn = _
  rw [lastQueued_snoc, hv]
  exact hq

theorem BulkQueued.readEp (hq : BulkQueued s) (h : CdcRefines fed s c) :
    BulkQueued (usbCdcReadEp s).2 := by
  rw [usbCdcReadEp_eq h.configured]
  split
  · simp only [BulkQueued]
    rw [usbEpQueueTransferHal_trace, lastQueued_snoc]
    rfl
  · exact hq

/-- A flush queues nothing for reception. -/
theorem BulkQueued.writeEp (hq : BulkQueued s) (haddr : s.usbCdc.epAddrIn = 0x82#8) :
    BulkQueued (usbCdcWriteEp s).2 := by
  have hqueue : ∀ (s : Usb) (buffer : Ptr) (n : ℕ), BulkQueued s → s.usbCdc.epAddrIn = 0x82#8 →
      BulkQueued (usbEpQueueTransfer s s.usbCdc.epAddrIn buffer n).2 := by
    intro s buffer n hq haddr
    simp only [BulkQueued, usbEpQueueTransfer]
    rw [usbEpQueueTransferHal_trace, lastQueued_snoc, haddr]
    exact hq
  simp only [usbCdcWriteEp]
  split_ifs
  · exact hq
  · exact hq
  · exact hqueue _ _ _ hq haddr
  · exact hqueue _ _ _ hq haddr
  · exact hq

theorem BulkQueued.act (hq : BulkQueued s) (h : CdcRefines fed s c) (a : CdcAction) :
    BulkQueued (cdcAct s a) := by
  cases a with
  | read bufsize => exact BulkQueued.log (hq.readEp h) fun _ => rfl
  | write buffer =>
    refine BulkQueued.writeEp ?_ h.configured.epAddrIn
    exact BulkQueued.log (s := s.setCdc _) hq fun _ => rfl
  | flush => exact hq.writeEp h.configured.epAddrIn
  | arrive packet =>
    show BulkQueued (busOut s cdcEpIdn packet)
    simp only [busOut]
    split
    · exact BulkQueued.log (s := (rxDeposit s cdcEpIdn packet).setChep cdcEpIdn _) hq fun _ => rfl
    · exact hq
  | poll =>
    show BulkQueued (busIn s cdcEpIdn)
    simp only [busIn]
    split
    · exact BulkQueued.log (s := s.setChep cdcEpIdn _) hq fun _ => rfl
    · exact hq

theorem BulkQueued.run (hq : BulkQueued s) (h : CdcRefines fed s c) (script : List CdcAction) :
    BulkQueued (runFrom cdcAct s script) := by
  induction script generalizing s c with
  | nil => exact hq
  | cons a script ih => exact ih (hq.act h a) (h.act a)

theorem BulkQueued.irqRx (hq : BulkQueued s) (h : CdcRefines 0 s c)
    (rxCb txCompleteCb : Option (List CdcAction)) :
    BulkQueued (usbIrqRx (cdcCallbacks rxCb txCompleteCb) s cdcEpIdn (s.chep cdcEpIdn)) := by
  have hreg : c.reg.vtrx = vtrx (s.chep cdcEpIdn) := by
    rw [← h.pipe]
    rfl
  rw [usbIrqRx_cdc h]
  split
  · rename_i hvtrx
    have hcalled := h.called (hreg.trans hvtrx) rxCb
    have hstored : BulkQueued (cdcStored s) :=
      BulkQueued.log (s := usbEpClearCorrectTransfer s cdcEpIdn usbDirDeviceInHostOutIdx) hq
        (v := .rxStored cdcEpIdn _ _) fun _ => rfl
    exact (hstored.run (h.store (hreg.trans hvtrx)) _).readEp hcalled
  · exact hq

theorem BulkQueued.irqTx (hq : BulkQueued s) (h : CdcRefines fed s c)
    (rxCb txCompleteCb : Option (List CdcAction)) (epReg : Word) :
    BulkQueued (usbIrqTx (cdcCallbacks rxCb txCompleteCb) s cdcEpIdn epReg) := by
  have hcleared : BulkQueued (usbEpClearCorrectTransfer s cdcEpIdn usbDirDeviceOutHostInIdx) := hq
  rw [usbIrqTx_cdc h]
  split
  · exact hcleared.run h.complete _
  · exact hq

theorem BulkQueued.step (hq : BulkQueued s) (h : CdcRefines 0 s c) (ev : CdcEvent) :
    BulkQueued (cdcStep s ev) := by
  cases ev with
  | act a => exact hq.act h a
  | irq rxCb txCompleteCb =>
    exact (hq.irqRx h rxCb txCompleteCb).irqTx (h.irqRx rxCb txCompleteCb) rxCb txCompleteCb _

theorem bulkBounded (hq : BulkQueued s) (h : CdcRefines 0 s c) (ev : CdcEvent) :
    BulkBounded s ev := by
  cases ev with
  | act a => trivial
  | irq rxCb txCompleteCb =>
    intro _
    have hcount : usbPmaCountGet s cdcEpIdn usbEpRxCountAddrIdx = c.received.length := h.rxCount
    have hfed : (s.epTransferSet cdcEpIdn usbDirDeviceInHostOutIdx).feed.fedCount = 0 :=
      h.rxSlot.fed.elim id id
    have hqueued : lastQueued s.trace cdcEpIdn = usbCdcEpBufferSize := hq
    simp only [queuedRemaining]
    rw [hcount, hfed, hqueued]
    exact h.wf.size

end Bulk

/-! ### Runs -/

/-- **Bounded copies, exactly**: on EP0 the copies of a run stay within their destinations and
SET_LINE_CODING never leaves part of a value if and only if every packet of the run fits; on the
bulk endpoint they always do. -/
theorem copies_bounded_iff (es : List ReceptionEvent) (bulk : List CdcEvent) :
    (Guarded receptionStep CopiesBounded usbBoot es ↔
      Guarded receptionStep PacketFits usbBoot es) ∧
    Guarded cdcStep BulkBounded cdcBoot bulk := by
  constructor
  · have hboot : ∃ e, Ep0Refines usbBoot e ∧ e.Receptive :=
      ⟨ep0Boot, ep0Refines_boot,
        { nak := fun hv => absurd hv Bool.false_ne_true
          armed := fun hv => EpState.noConfusion hv
          pending := fun hv => absurd hv Bool.false_ne_true }⟩
    refine guarded_iff_of_invariant (I := fun s => ∃ e, Ep0Refines s e ∧ e.Receptive) ?_ ?_ hboot
    · rintro s ev ⟨e, href, hr⟩
      exact copiesBounded_iff href hr
    · rintro s ev ⟨e, href, hr⟩ hf
      exact receptionStep_receptive href hr hf
  · refine guarded_of_invariant (I := fun s => BulkQueued s ∧ ∃ c, CdcRefines 0 s c) ?_ ?_
      ⟨by unfold BulkQueued; decide, _, cdcRefines_boot⟩
    · rintro s ev ⟨hq, c, h⟩
      exact bulkBounded hq h ev
    · rintro s ev ⟨hq, c, h⟩
      exact ⟨hq.step h ev, _, h.step ev⟩

/-- SET_LINE_CODING. -/
def setLineCodingRequest : UsbControlRequest :=
  { bmRequestType := 0x21#8, bRequest := cdcRequestSetLineCoding, wValue := 0#16, wIndex := 0#16
    wLength := 7#16 }

/-- An 8-byte packet fits the receive block programmed for the 7 bytes of a SET_LINE_CODING, and
all of it is copied. -/
theorem setLineCoding_overrun :
    ¬Guarded receptionStep CopiesBounded usbBoot
      [.ep0 (.setup setLineCodingRequest), .ep0 .irq, .ep0 (.out (List.replicate 8 0#8)), .ep0 .irq] := by
  rintro ⟨-, -, -, hirq, -⟩
  have hcopied := hirq.control ⟨rfl, by decide, by decide⟩ (by decide) (by decide)
  revert hcopied
  decide

end PcbMill
