import PcbMill.Usb.Ep0Refinement

/-!
# Where the data of an OUT stage goes

One record serves the responses of both directions, and the direction bit of the SETUP packet
alone decides whether its buffer is read from or written to.  The data of an OUT stage stays
within the control buffer and the line coding exactly as long as every data packet the device
handles belongs to SET_LINE_CODING and fits the line coding.
-/

namespace PcbMill

open FixedWidth Run

/-! ### The property -/

/-- SET_LINE_CODING. -/
def IsSetLineCoding (r : UsbControlRequest) : Prop :=
  usbRequestType r.bmRequestType = .classSpecific ∧ r.bRequest = cdcRequestSetLineCoding

instance (r : UsbControlRequest) : Decidable (IsSetLineCoding r) :=
  inferInstanceAs (Decidable (_ ∧ _))

/-- The bytes of the line coding. -/
def lineCodingSize : ℕ := 7

/-- A store of received bytes has a destination meant for them: the control buffer, or after
SET_LINE_CODING the line coding. -/
def UsbEvent.Contained : UsbEvent → Prop
  | .rxStored _ dst n =>
    n = 0 ∨ dst.region = .ep0ControlBuffer ∧ dst.offset + n ≤ usbEp0BufferSize
  | .controlStored r dst n =>
    n = 0 ∨ IsSetLineCoding r ∧ dst.region = .lineCoding ∧ dst.offset + n ≤ lineCodingSize
  | _ => True

instance : DecidablePred UsbEvent.Contained
  | .rxStored _ _ _ => inferInstanceAs (Decidable (_ ∨ _ ∧ _))
  | .controlStored _ _ _ => inferInstanceAs (Decidable (_ ∨ _ ∧ _ ∧ _))
  | .queued _ _ _ | .setupHandled _ _ | .callback _ _ _ | .dataStage _ _ | .setupPacket _
  | .rxPacket _ _ | .txPacket _ _ | .hostData | .hostStatus | .cdcRead _ | .cdcWrite _ =>
    inferInstanceAs (Decidable True)

/-- **Received data stays where it was meant to go.** -/
def StoresContained (s : Usb) : Prop := ∀ ev ∈ s.trace, ev.Contained

instance (s : Usb) : Decidable (StoresContained s) :=
  inferInstanceAs (Decidable (∀ ev ∈ s.trace, ev.Contained))

/-- The condition: an OUT packet that is handled while a host-to-device request is in effect is
empty, or belongs to SET_LINE_CODING and fits the line coding. -/
def OutDataExpected (s : Usb) : Ep0Event → Prop
  | .irq => vtrx (s.chep 0) = true → setupFlag (s.chep 0) = false →
      usbRequestDirection s.controlTransfer.request.bmRequestType = 0 →
      usbPmaCountGet s 0 usbEpRxCountAddrIdx = 0 ∨
        IsSetLineCoding s.controlTransfer.request ∧
          usbPmaCountGet s 0 usbEpRxCountAddrIdx ≤ lineCodingSize
  | _ => True

/-! ### The buffers of the responses -/

/-- The response of SET_LINE_CODING is the line coding. -/
theorem response_lineCoding {r : UsbControlRequest} {buffer : Ptr} {len : ℕ}
    (h : requestAction r = .response buffer len) (hset : IsSetLineCoding r) :
    buffer = ⟨.lineCoding, 0⟩ ∧ len = lineCodingSize := by
  obtain ⟨htype, hreq⟩ := hset
  simp only [requestAction] at h
  rw [htype] at h
  have hclass : classAction r = .response ⟨.lineCoding, 0⟩ 7 := if_pos (.inl hreq)
  cases hrecipient : usbRequestRecipient r.bmRequestType <;> rw [hrecipient] at h
  case other => cases h
  all_goals
    have hres := hclass.symm.trans h
    cases hres
    exact ⟨rfl, rfl⟩

/-- The callback of a response is the CDC driver's, if any. -/
theorem response_cb {r : UsbControlRequest} {buffer : Ptr} {len : ℕ}
    (h : requestAction r = .response buffer len) :
    requestCb r ≠ some .usbDeviceSetAddressComplete := by
  simp only [requestCb]
  split
  · decide
  · rw [h, if_neg RequestAction.noConfusion]
    decide

/-! ### The invariant -/

/-- The control transfer of a response to a host-to-device request before its first packet. -/
def StartedOut (c : ControlTransfer) : Prop :=
  ∃ buffer len, requestAction c.request = .response buffer len ∧ c.feed.buffer = buffer ∧
    c.feed.fedCount = 0 ∧ c.controlCompleteCb = requestCb c.request

/-- A packet of at most `n` bytes is the empty packet of a status stage or the first one of a
data stage. -/
def OutStage (c : ControlTransfer) (n : ℕ) : Prop :=
  usbRequestDirection c.request.bmRequestType = 1 ∧ n = 0 ∨
    usbRequestDirection c.request.bmRequestType = 0 ∧ StartedOut c

/-- A packet of at most `n` bytes finds its place in the control buffer. -/
structure OutReady (e : Ep0) (n : ℕ) : Prop where
  fed : e.rxFeed.fedCount = 0
  buffer : e.rxFeed.buffer = ⟨.ep0ControlBuffer, 0⟩ ∨ n = 0
  stage : OutStage e.control n

theorem OutReady.mono {e : Ep0} {n m : ℕ} (h : OutReady e n) (hm : m ≤ n) : OutReady e m where
  fed := h.fed
  buffer := h.buffer.imp_right fun hn : n = 0 => Nat.eq_zero_of_le_zero (hn ▸ hm)
  stage := h.stage.imp_left fun ⟨hdir, hn⟩ => ⟨hdir, Nat.eq_zero_of_le_zero (hn ▸ hm)⟩

/-- Only the receive record and the control transfer matter. -/
theorem OutReady.of_same {e e' : Ep0} {n : ℕ} (h : OutReady e n) (hfeed : e'.rxFeed = e.rxFeed)
    (hcontrol : e'.control = e.control) : OutReady e' n where
  fed := hfeed ▸ h.fed
  buffer := hfeed ▸ h.buffer
  stage := hcontrol ▸ h.stage

/-- What holds as long as every packet handled was expected. -/
structure Ep0.Contained (e : Ep0) : Prop where
  stored : ∀ ev ∈ e.trace, ev.Contained
  nak : e.reg.vtrx = true → e.reg.rx ≠ .valid
  armed : e.reg.rx = .valid → OutReady e e.rxCapacity
  pending : e.reg.vtrx = true → e.reg.setup = false → OutReady e e.rxCount ∧ e.rxCount ≤ 64

/-- The same between the clearing of VTRX and the end of an iteration. -/
structure Ep0.Settled (e : Ep0) : Prop where
  stored : ∀ ev ∈ e.trace, ev.Contained
  vtrx : e.reg.vtrx = false
  armed : e.reg.rx = .valid → OutReady e e.rxCapacity

variable {e : Ep0}

theorem Ep0.Settled.contained (h : e.Settled) : e.Contained where
  stored := h.stored
  nak := fun hv => absurd hv (by rw [h.vtrx]; decide)
  armed := h.armed
  pending := fun hv => absurd hv (by rw [h.vtrx]; decide)

theorem contained_append {trace : List UsbEvent} (h : ∀ ev ∈ trace, ev.Contained) {ev : UsbEvent}
    (hev : ev.Contained) : ∀ ev' ∈ trace ++ [ev], ev'.Contained := by
  intro ev' hmem
  rcases List.mem_append.mp hmem with hold | hnew
  · exact h ev' hold
  · rw [List.mem_singleton.mp hnew]
    exact hev

/-! ### What the operations keep -/

theorem Ep0.Settled.log (h : e.Settled) {ev : UsbEvent} (hev : ev.Contained) :
    (e.log ev).Settled where
  stored := contained_append h.stored hev
  vtrx := h.vtrx
  armed := fun hv => (h.armed hv).of_same rfl rfl

/-- The control transfer of a disarmed receiver may change at will. -/
theorem Ep0.Settled.setControl (h : e.Settled) (hrx : e.reg.rx ≠ .valid) (c : ControlTransfer) :
    ({ e with control := c } : Ep0).Settled where
  stored := h.stored
  vtrx := h.vtrx
  armed := fun hv => absurd hv hrx

theorem Ep0.Settled.queueIn (h : e.Settled) (buffer : Ptr) (n : ℕ) :
    (e.queueIn buffer n).Settled where
  stored := contained_append h.stored trivial
  vtrx := h.vtrx
  armed := fun hv => (h.armed hv).of_same rfl rfl

/-- The empty packet of an OUT status stage. -/
theorem Ep0.Settled.queueOut_status (h : e.Settled)
    (hdir : usbRequestDirection e.control.request.bmRequestType = 1) :
    (e.queueOut .null 0).Settled where
  stored := contained_append h.stored trivial
  vtrx := h.vtrx
  armed := fun _ => ⟨rfl, .inr rfl, .inl ⟨hdir, rfl⟩⟩

theorem Ep0.Settled.statusStage (h : e.Settled) :
    (e.statusStage e.control.request).Settled := by
  simp only [Ep0.statusStage, Ep0.queue]
  rcases usbRequestDirection_cases e.control.request.bmRequestType with hdir | hdir
  · rw [hdir]
    exact h.queueIn .null 0
  · rw [hdir]
    exact h.queueOut_status hdir

theorem Ep0.Settled.dataStage_in (h : e.Settled)
    (hdir : usbRequestDirection e.control.request.bmRequestType = 1) : e.dataStage.Settled := by
  simp only [Ep0.dataStage, Ep0.queue]
  rw [hdir]
  exact h.queueIn _ _

/-- The first data stage of a response to a host-to-device request. -/
theorem Ep0.Settled.dataStage_out (h : e.Settled)
    (hdir : usbRequestDirection e.control.request.bmRequestType = 0)
    (hstart : StartedOut e.control) : e.dataStage.Settled := by
  simp only [Ep0.dataStage, Ep0.queue]
  rw [hdir]
  generalize feedForwardRemainingCount e.control.feed usbEp0BufferSize = n
  refine ⟨contained_append h.stored trivial, h.vtrx, fun _ => ⟨rfl, ?_, .inr ⟨hdir, hstart⟩⟩⟩
  by_cases hn : 0 < n
  · exact .inl (if_pos hn)
  · rw [Nat.eq_zero_of_not_pos hn]
    exact .inr rfl

theorem Ep0.Settled.setState (h : e.Settled) (dirIdx : ℕ) {st : EpState} (hst : st ≠ .valid) :
    (e.setState dirIdx st).Settled := by
  simp only [Ep0.setState]
  split
  · exact ⟨h.stored, h.vtrx, fun hv => (h.armed hv).of_same rfl rfl⟩
  · exact ⟨h.stored, h.vtrx, fun hv => absurd hv hst⟩

/-! ### SETUP packets -/

theorem Ep0.Settled.initStatusStage (h : e.Settled) (hrx : e.reg.rx ≠ .valid)
    (r : UsbControlRequest) : (e.initStatusStage r).Settled :=
  (h.setControl hrx _).statusStage

theorem Ep0.Settled.response (h : e.Settled) (hrx : e.reg.rx ≠ .valid) {r : UsbControlRequest}
    {buffer : Ptr} {len : ℕ} (hact : requestAction r = .response buffer len)
    (hcb : e.control.controlCompleteCb = requestCb r) : (e.response r buffer len).Settled := by
  have hset := h.setControl hrx { e.control with
    request := r
    feed := { buffer := buffer, fedCount := 0
              totalCount := if len < r.wLength.toNat then len else r.wLength.toNat } }
  simp only [Ep0.response]
  split
  · rcases usbRequestDirection_cases r.bmRequestType with hdir | hdir
    · exact hset.dataStage_out hdir ⟨buffer, len, hact, rfl, rfl, hcb⟩
    · exact hset.dataStage_in hdir
  · exact hset.statusStage

theorem Ep0.Settled.handle (h : e.Settled) (hrx : e.reg.rx ≠ .valid) (r : UsbControlRequest) :
    (e.handle r).Settled := by
  have hcb : (e.setCb (requestCb r)).Settled := h.setControl hrx _
  have hrejected : (e.setCb (rejectCb r)).Settled := h.setControl hrx _
  have hlog : ∀ {e : Ep0} (accepted : Bool), e.Settled → (e.log (.setupHandled r accepted)).Settled :=
    fun _ he => he.log trivial
  simp only [Ep0.handle]
  cases hact : requestAction r with
  | reject =>
    exact hlog _ ((hrejected.setState 0 EpState.noConfusion).setState 0 EpState.noConfusion)
  | response buffer len => exact hlog _ (hcb.response hrx hact rfl)
  | status => exact hlog _ (hcb.initStatusStage hrx r)
  | setConfiguration => exact hlog _ (hcb.initStatusStage hrx r)
  | setAddress => exact hlog _ ((hcb.initStatusStage hrx r).queueIn .null 0)
  | endpointFeature =>
    refine hlog _ ?_
    simp only [Ep0.endpointFeature]
    split
    · refine hcb.setState _ ?_
      split <;> exact EpState.noConfusion
    · exact hcb

/-! ### Completions -/

/-- Only the completion of SET_ADDRESS touches the receive buffer. -/
theorem Ep0.Settled.callback (h : e.Settled) (cb : ControlCompleteCb) (stage : ControlStage)
    (hcb : cb = .usbDeviceSetAddressComplete → stage = .status → e.reg.rx ≠ .valid) :
    (e.callback cb stage).2.Settled := by
  have hlog := h.log (show (UsbEvent.callback cb stage e.control.request).Contained from trivial)
  simp only [Ep0.callback]
  cases cb with
  | usbDeviceSetAddressComplete =>
    dsimp only
    split
    · exact ⟨hlog.stored, hlog.vtrx, fun hv => absurd hv (hcb rfl ‹_›)⟩
    · exact hlog
  | usbCdcControlTransfer => exact hlog

theorem Ep0.Settled.dataComplete (h : e.Settled) : e.dataComplete.Settled := by
  have hcb : e.dataCallback.2.Settled := by
    simp only [Ep0.dataCallback]
    split
    · exact h.callback _ _ fun _ hc => ControlStage.noConfusion hc
    · exact h
  simp only [Ep0.dataComplete]
  split
  · exact hcb.statusStage
  · exact (hcb.setState 0 EpState.noConfusion).setState 1 EpState.noConfusion

/-- A status stage ends: a request whose data stage is still awaited is not SET_ADDRESS. -/
theorem Ep0.Settled.transfer_status (h : e.Settled) {dirIdx : ℕ}
    (hdir : usbRequestDirection e.control.request.bmRequestType ≠ dirIdx)
    (hrx : usbRequestDirection e.control.request.bmRequestType = 1 → e.reg.rx ≠ .valid) (n : ℕ) :
    (e.transfer dirIdx n).Settled := by
  by_cases hn : n = 0
  · subst hn
    rw [Ep0.transfer_status hdir]
    cases hcb : e.control.controlCompleteCb with
    | none => exact h
    | some cb =>
      refine h.callback cb .status ?_
      rintro rfl - hvalid
      rcases (h.armed hvalid).stage with ⟨hin, -⟩ | ⟨-, _, _, hact, -, -, hcb'⟩
      · exact hrx hin hvalid
      · exact response_cb hact (hcb'.symm.trans hcb)
  · rw [Ep0.transfer_status_data hdir hn]
    exact h

/-- A completed IN packet. -/
theorem Ep0.Settled.transfer_in (h : e.Settled) (n : ℕ) : (e.transfer 1 n).Settled := by
  rcases usbRequestDirection_cases e.control.request.bmRequestType with hout | hin
  · have hdir : usbRequestDirection e.control.request.bmRequestType ≠ 1 := by omega
    exact h.transfer_status hdir (fun hin => absurd hin hdir) n
  · have hlog := h.log (show (UsbEvent.dataStage e.control.request n).Contained from trivial)
    have hsent : (e.sentIn n).Settled := by
      refine ⟨hlog.stored, hlog.vtrx, fun hv => ⟨(hlog.armed hv).fed, (hlog.armed hv).buffer, ?_⟩⟩
      rcases (hlog.armed hv).stage with hs | ⟨hout, -⟩
      · exact .inl hs
      · exact absurd (hin.symm.trans hout) (by decide)
    rw [Ep0.transfer_in hin]
    split
    · exact hsent.dataComplete
    · exact hsent.dataStage_in hin

/-- A handled OUT packet.  The packet of a data stage is short, so the stage ends with it. -/
theorem Ep0.Settled.transfer_out (h : e.Settled) (hrx : e.reg.rx ≠ .valid) {n : ℕ}
    (hstage : OutStage e.control n)
    (hexpected : usbRequestDirection e.control.request.bmRequestType = 0 →
      n = 0 ∨ IsSetLineCoding e.control.request ∧ n ≤ lineCodingSize) :
    (e.transfer 0 n).Settled := by
  obtain ⟨hin, -⟩ | ⟨hout, buffer, len, hact, hbuffer, hfed, hcb⟩ := hstage
  · exact h.transfer_status (by omega) (fun _ => hrx) n
  have hlog := h.log (show (UsbEvent.dataStage e.control.request n).Contained from trivial)
  have hnull : e.control.feed.buffer ≠ .null := by
    intro hc
    exact (response_buffer hact).2 (by rw [← hbuffer, hc]; rfl)
  have hstored : (UsbEvent.controlStored e.control.request e.control.feed.buffer n).Contained := by
    rcases hexpected hout with hn | ⟨hset, hn⟩
    · exact .inl hn
    · rw [hbuffer, (response_lineCoding hact hset).1]
      exact .inr ⟨hset, rfl, by rw [Nat.zero_add]; exact hn⟩
  have hshort : n < usbEp0BufferSize := by
    have hsize : lineCodingSize < usbEp0BufferSize := by decide
    have hpos : 0 < usbEp0BufferSize := by decide
    rcases hexpected hout with hn | ⟨-, hn⟩
    · omega
    · omega
  rw [Ep0.transfer_out hout hnull, if_pos (.inr hshort)]
  exact Ep0.Settled.dataComplete ((hlog.log hstored).setControl hrx _)

/-- An unexpected packet is stored where it should not be. -/
theorem transfer_out_breaks {n : ℕ} (hstage : OutStage e.control n)
    (hout : usbRequestDirection e.control.request.bmRequestType = 0)
    (hunexpected : ¬(n = 0 ∨ IsSetLineCoding e.control.request ∧ n ≤ lineCodingSize)) :
    ∃ ev ∈ (e.transfer 0 n).trace, ¬ev.Contained := by
  obtain ⟨hin, -⟩ | ⟨-, buffer, len, hact, hbuffer, -, -⟩ := hstage
  · exact absurd (hin.symm.trans hout) (by decide)
  have hnull : e.control.feed.buffer ≠ .null := by
    intro hc
    exact (response_buffer hact).2 (by rw [← hbuffer, hc]; rfl)
  have hmem : .controlStored e.control.request e.control.feed.buffer n ∈ (e.receivedOut n).trace :=
    List.mem_append_right _ (List.mem_singleton.mpr rfl)
  refine ⟨.controlStored e.control.request e.control.feed.buffer n, ?_, ?_⟩
  · rw [Ep0.transfer_out hout hnull]
    split
    · exact (Ep0.trace_dataComplete _).subset hmem
    · exact (Ep0.trace_queue _ _ _ _).subset hmem
  · rintro (hzero | ⟨hset, -, hfits⟩)
    · exact hunexpected (.inl hzero)
    · exact hunexpected (.inr ⟨hset, by omega⟩)

/-! ### The interrupt handler -/

/-- The copy to the receive record's buffer goes to the control buffer. -/
theorem Ep0.Contained.settled_rxHandled (h : e.Contained) (hvtrx : e.reg.vtrx = true)
    (hsetup : e.reg.setup = false) : e.rxHandled.Settled := by
  obtain ⟨hready, hfits⟩ := h.pending hvtrx hsetup
  refine ⟨contained_append h.stored ?_, rfl, fun hv => absurd hv (h.nak hvtrx)⟩
  rcases hready.buffer with hbuffer | hzero
  · refine .inr ⟨?_, ?_⟩
    · show (e.rxFeed.buffer.add _).region = _
      rw [hbuffer]
      rfl
    · show (e.rxFeed.buffer.add e.rxFeed.fedCount).offset + e.rxCount ≤ 64
      rw [hbuffer, hready.fed]
      show 0 + 0 + e.rxCount ≤ 64
      omega
  · exact .inl hzero

/-- Clearing the counts of the receive record at the end of `usb_rx_packet`. -/
theorem Ep0.Settled.clearRxFeed (h : e.Settled) : e.clearRxFeed.Settled where
  stored := h.stored
  vtrx := h.vtrx
  armed := fun hv => ⟨rfl, (h.armed hv).buffer, (h.armed hv).stage⟩

/-- The condition, at EP0. -/
def Ep0.DataExpected (e : Ep0) : Prop :=
  e.reg.vtrx = true → e.reg.setup = false →
    usbRequestDirection e.control.request.bmRequestType = 0 →
      e.rxCount = 0 ∨ IsSetLineCoding e.control.request ∧ e.rxCount ≤ lineCodingSize

theorem Ep0.Contained.irqRx (h : e.Contained) (hexpected : e.DataExpected)
    (r : UsbControlRequest) : (e.irqRx r).Settled := by
  by_cases hvtrx : e.reg.vtrx = true
  · have hcleared : ({ e with reg := { e.reg with vtrx := false } } : Ep0).Settled :=
      ⟨h.stored, rfl, fun hv => absurd hv (h.nak hvtrx)⟩
    by_cases hsetup : e.reg.setup = true
    · simp only [Ep0.irqRx]
      rw [if_pos hvtrx, if_pos hsetup]
      split
      · exact hcleared.handle (h.nak hvtrx) r
      · exact ⟨h.stored, rfl, fun hv => absurd hv (h.nak hvtrx)⟩
    · have hsetup' : e.reg.setup = false := by simpa using hsetup
      obtain ⟨hready, hfits⟩ := h.pending hvtrx hsetup'
      rw [Ep0.irqRx_out hvtrx hsetup' hready.fed (by omega)]
      exact ((h.settled_rxHandled hvtrx hsetup').transfer_out (h.nak hvtrx) hready.stage
        (hexpected hvtrx hsetup')).clearRxFeed
  · simp only [Ep0.irqRx]
    rw [if_neg hvtrx]
    exact ⟨h.stored, by simpa using hvtrx, h.armed⟩

theorem Ep0.Settled.irqTx (h : e.Settled) (vttx : Bool) : (e.irqTx vttx).Settled := by
  have hcleared : ({ e with reg := { e.reg with vttx := false } } : Ep0).Settled :=
    ⟨h.stored, h.vtrx, fun hv => (h.armed hv).of_same rfl rfl⟩
  simp only [Ep0.irqTx]
  split
  · split
    · exact ⟨h.stored, h.vtrx, fun hv => (h.armed hv).of_same rfl rfl⟩
    · exact hcleared.transfer_in _
  · exact h

/-! ### Steps -/

/-- What one expected event keeps. -/
theorem Ep0.Contained.step (h : e.Contained) (hcapacity : e.rxCapacity ≤ 64)
    (r : UsbControlRequest) (ev : Ep0Event) (hexpected : ev = .irq → e.DataExpected) :
    (e.step r ev).Contained := by
  cases ev with
  | reset =>
    exact { stored := h.stored, nak := fun hv => absurd hv Bool.false_ne_true
            armed := fun hv => EpState.noConfusion hv
            pending := fun hv => absurd hv Bool.false_ne_true }
  | setup r' =>
    show (e.setup r').Contained
    simp only [Ep0.setup]
    split
    · exact { stored := contained_append h.stored trivial
              nak := fun _ => EpState.noConfusion
              armed := fun hv => EpState.noConfusion hv
              pending := fun _ hs => absurd hs.symm Bool.false_ne_true }
    · exact h
  | out data =>
    show (e.out data).Contained
    simp only [Ep0.out]
    split
    · rename_i hout
      simp only [Ep0.outOk, Bool.and_eq_true, beq_iff_eq, decide_eq_true_eq] at hout
      obtain ⟨hvalid, hlen⟩ := hout
      have hready := (h.armed hvalid).mono hlen
      exact { stored := contained_append h.stored trivial
              nak := fun _ => EpState.noConfusion
              armed := fun hv => EpState.noConfusion hv
              pending := fun _ _ => ⟨hready.of_same rfl rfl, hlen.trans hcapacity⟩ }
    · exact h
  | poll =>
    show e.poll.Contained
    simp only [Ep0.poll]
    split
    · exact { stored := h.stored, nak := h.nak
              armed := fun hv => (h.armed hv).of_same rfl rfl
              pending := fun hv hs =>
                ⟨(h.pending hv hs).1.of_same rfl rfl, (h.pending hv hs).2⟩ }
    · exact h
  | irq => exact ((h.irqRx (hexpected rfl) r).irqTx _).contained

/-- What an unexpected packet breaks. -/
theorem Ep0.Contained.step_breaks (h : e.Contained) (r : UsbControlRequest)
    (hunexpected : ¬e.DataExpected) : ∃ ev ∈ (e.step r .irq).trace, ¬ev.Contained := by
  simp only [Ep0.DataExpected] at hunexpected
  simp only [not_forall] at hunexpected
  obtain ⟨hvtrx, hsetup, hout, hdata⟩ := hunexpected
  obtain ⟨hready, hfits⟩ := h.pending hvtrx hsetup
  obtain ⟨ev, hmem, hev⟩ := transfer_out_breaks (e := e.rxHandled) hready.stage hout hdata
  refine ⟨ev, (Ep0.trace_irqTx _ _).subset ?_, hev⟩
  rw [Ep0.irqRx_out hvtrx hsetup hready.fed (by omega)]
  exact hmem

/-! ### Runs -/

theorem outDataExpected_irq {s : Usb} (h : Ep0Refines s e) :
    OutDataExpected s .irq ↔ e.DataExpected := by
  have hcount : usbPmaCountGet s 0 usbEpRxCountAddrIdx = e.rxCount := h.rxCount
  have hvtrx : vtrx (s.chep 0) = e.reg.vtrx := congrArg EpView.vtrx h.reg
  have hsetup : setupFlag (s.chep 0) = e.reg.setup := congrArg EpView.setup h.reg
  simp only [OutDataExpected, Ep0.DataExpected]
  rw [hcount, hvtrx, hsetup, h.control]

/-- The events that EP0's trace leaves out store nothing. -/
theorem storesContained_iff {s : Usb} (h : Ep0Refines s e) :
    StoresContained s ↔ ∀ ev ∈ e.trace, ev.Contained := by
  rw [← h.trace]
  constructor
  · intro hs ev hmem
    exact hs ev (List.mem_of_mem_filter hmem)
  · intro hs ev hmem
    by_cases hev : ev.isEp0 = true
    · exact hs ev (List.mem_filter.mpr ⟨hmem, hev⟩)
    · cases ev with
      | queued | txPacket => trivial
      | _ => exact absurd rfl hev

/-- **Containment, exactly**: in every run of the control endpoint from initialisation, received
data is stored only in the control buffer and, after SET_LINE_CODING, in the line coding, if and
only if every OUT packet handled during a host-to-device request is empty or belongs to
SET_LINE_CODING and fits the line coding. -/
theorem stores_contained_iff (es : List Ep0Event) :
    Always ep0Step StoresContained usbBoot es ↔ Guarded ep0Step OutDataExpected usbBoot es := by
  refine always_iff_guarded (I := fun s => ∃ e, Ep0Refines s e ∧ e.Contained) ?_ ?_ ?_ ?_
  · rintro s ⟨e, href, h⟩
    exact (storesContained_iff href).mpr h.stored
  · rintro s ev ⟨e, href, h⟩ hok
    refine ⟨_, href.step ev, h.step href.fits _ ev ?_⟩
    rintro rfl
    exact (outDataExpected_irq href).mp hok
  · rintro s ev ⟨e, href, h⟩ hok hs
    cases ev with
    | irq =>
      obtain ⟨ev, hmem, hev⟩ := h.step_breaks (pendingRequest s)
        (mt (outDataExpected_irq href).mpr hok)
      exact hev ((storesContained_iff (href.step .irq)).mp hs ev hmem)
    | reset | setup | out | poll => exact hok trivial
  · refine ⟨ep0Boot, ep0Refines_boot, ?_⟩
    exact { stored := fun ev hmem => absurd hmem (List.not_mem_nil)
            nak := fun hv => absurd hv Bool.false_ne_true
            armed := fun hv => EpState.noConfusion hv
            pending := fun hv => absurd hv Bool.false_ne_true }

/-- GET_CONFIGURATION with the direction bit of a host-to-device request. -/
def misdirectedGetConfiguration : UsbControlRequest :=
  { bmRequestType := 0x00#8, bRequest := usbStdGetConfiguration, wValue := 0#16, wIndex := 0#16
    wLength := 1#16 }

/-- Its data byte is stored in the handler's local variable. -/
theorem misdirected_response_overwritten :
    ¬Always ep0Step StoresContained usbBoot
      [.setup misdirectedGetConfiguration, .irq, .out [0x55#8], .irq] := by
  intro h
  have hlast := h.last
  revert hlast
  decide

end PcbMill
