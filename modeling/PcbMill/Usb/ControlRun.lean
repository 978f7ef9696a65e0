import PcbMill.Usb.Ep0Refinement

/-!
# Control transfers as the host runs them

The host starts a control transfer with a SETUP packet, moves its data, acknowledges its status
stage, and may give up at any point by starting the next one.  The interrupt handler runs at
any time in between, so the flags of a finished stage and of the next SETUP packet can be set
together.
-/

namespace PcbMill

open FixedWidth Run

/-! ### The host -/

/-- The stage the host is in, with the bytes of a data stage still to be moved. -/
inductive HostPhase where
  | idle
  | dataIn (remaining : ℕ)
  | dataOut (remaining : ℕ)
  | statusIn
  | statusOut
  deriving DecidableEq, Repr

/-- The stage after the SETUP stage.  Without data the status stage is an IN stage, whatever
the direction bit. -/
def hostStart (r : UsbControlRequest) : HostPhase :=
  if r.wLength.toNat = 0 then .statusIn
  else if usbRequestDirection r.bmRequestType = 1 then .dataIn r.wLength.toNat
  else .dataOut r.wLength.toNat

/-- The stage after a data packet from the device: a short packet ends the data. -/
def hostAfterIn (remaining n : ℕ) : HostPhase :=
  if n < usbEp0BufferSize ∨ remaining ≤ n then .statusOut else .dataIn (remaining - n)

/-- The stage after a data packet to the device. -/
def hostAfterOut (remaining : ℕ) : HostPhase :=
  if remaining ≤ usbEp0BufferSize then .statusIn else .dataOut (remaining - usbEp0BufferSize)

/-- The device and the host. -/
structure ControlRun where
  usb : Usb
  host : HostPhase

inductive ControlEvent where
  | setup (r : UsbControlRequest)
  | poll
  | out (data : List Byte)
  | irq

/-- One event.  `hostData` and `hostStatus` record the packets the host has acknowledged. -/
def controlStep (x : ControlRun) : ControlEvent → ControlRun
  | .setup r => if busSetupOk x.usb then ⟨busSetup x.usb r, hostStart r⟩ else x
  | .poll =>
    if epState (x.usb.chep 0) 1 = .valid then
      match x.host with
      | .dataIn remaining =>
        ⟨(busIn x.usb 0).log .hostData, hostAfterIn remaining (txPacketBytes x.usb 0).length⟩
      | .statusIn => ⟨(busIn x.usb 0).log .hostStatus, .idle⟩
      | .idle | .dataOut _ | .statusOut => x
    else x
  | .out data =>
    if busOutOk x.usb 0 data then
      match x.host with
      | .dataOut remaining =>
        if data.length = min remaining usbEp0BufferSize then
          ⟨(busOut x.usb 0 data).log .hostData, hostAfterOut remaining⟩
        else x
      | .statusOut => if data = [] then ⟨(busOut x.usb 0 data).log .hostStatus, .idle⟩ else x
      | .idle | .dataIn _ | .statusIn => x
    else x
  | .irq => ⟨usbIrqCtr noCallbacks x.usb 0, x.host⟩

/-- After initialisation and bus reset. -/
def controlBoot : ControlRun := ⟨usbBoot, .idle⟩

/-! ### The observer -/

/-- What an observer of the control endpoint knows of the transfer that the last SETUP packet
handled has started, and whether every completion was attributed rightly so far. -/
structure Watch where
  request : UsbControlRequest
  /-- The completion callback the transfer should run. -/
  expected : Option ControlCompleteCb
  /-- The data packets the host has acknowledged. -/
  hostData : ℕ
  /-- The completions taken for one of the data stage. -/
  dataStages : ℕ
  /-- The host has acknowledged the status stage. -/
  acknowledged : Bool
  /-- The runs of the callback with `CONTROL_STAGE_STATUS`. -/
  completed : ℕ
  ok : Bool

namespace Watch

/-- Before the first SETUP packet. -/
def start : Watch :=
  { request := Ep0.noTransfer.request, expected := none, hostData := 0, dataStages := 0
    acknowledged := false, completed := 0, ok := true }

/-- Nothing is outstanding: an acknowledged transfer has run its callback. -/
def Closes (w : Watch) : Prop :=
  w.acknowledged = true → w.expected ≠ none → w.completed = 1

instance (w : Watch) : Decidable w.Closes := inferInstanceAs (Decidable (_ → _ → _))

/-- The callback may run for the transfer now. -/
def MayComplete (w : Watch) (cb : ControlCompleteCb) (r : UsbControlRequest) : Prop :=
  w.acknowledged = true ∧ w.expected = some cb ∧ w.request = r ∧ w.completed = 0

instance (w : Watch) (cb : ControlCompleteCb) (r : UsbControlRequest) :
    Decidable (w.MayComplete cb r) := inferInstanceAs (Decidable (_ ∧ _ ∧ _ ∧ _))

def observe (w : Watch) : UsbEvent → Watch
  | .setupHandled r accepted =>
    { request := r, expected := if accepted then requestCb r else none, hostData := 0
      dataStages := 0, acknowledged := false, completed := 0, ok := w.ok && decide w.Closes }
  | .hostData => { w with hostData := w.hostData + 1 }
  | .hostStatus => { w with acknowledged := true }
  | .dataStage _ _ =>
    { w with dataStages := w.dataStages + 1, ok := w.ok && decide (w.dataStages < w.hostData) }
  | .callback cb .status r =>
    { w with completed := w.completed + 1, ok := w.ok && decide (w.MayComplete cb r) }
  | _ => w

/-- What was not right stays so. -/
theorem ok_of_observe {w : Watch} {ev : UsbEvent} (h : (w.observe ev).ok = true) : w.ok = true := by
  cases ev with
  | setupHandled | dataStage => exact (Bool.and_eq_true_iff.mp h).1
  | callback cb stage r =>
    cases stage with
    | status => exact (Bool.and_eq_true_iff.mp h).1
    | idle | setup | data => exact h
  | _ => exact h

theorem ok_of_foldl {trace : List UsbEvent} :
    ∀ {w : Watch}, (trace.foldl observe w).ok = true → w.ok = true := by
  induction trace with
  | nil => exact fun h => h
  | cons ev trace ih => exact fun h => ok_of_observe (ih h)

end Watch

/-- The observer's knowledge after a trace. -/
def watch (trace : List UsbEvent) : Watch := trace.foldl Watch.observe Watch.start

/-- **Completions are attributed rightly**: every transfer whose status stage the host has
acknowledged runs its callback once before the next SETUP packet is processed and never
otherwise, and each completion taken for one of the data stage is one the host has given to it. -/
def CompletionsAttributed (x : ControlRun) : Prop := (watch x.usb.trace).ok = true

instance (x : ControlRun) : Decidable (CompletionsAttributed x) :=
  inferInstanceAs (Decidable (_ = true))

theorem watch_append (trace : List UsbEvent) (ev : UsbEvent) :
    watch (trace ++ [ev]) = (watch trace).observe ev := List.foldl_append

theorem watch_ok_of_prefix {trace trace' : List UsbEvent} (h : trace <+: trace')
    (hok : (watch trace').ok = true) : (watch trace).ok = true := by
  obtain ⟨rest, rfl⟩ := h
  rw [watch, List.foldl_append] at hok
  exact Watch.ok_of_foldl hok

/-- The events EP0's trace leaves out say nothing to the observer. -/
theorem watch_filter (trace : List UsbEvent) : watch (trace.filter UsbEvent.isEp0) = watch trace := by
  simp only [watch]
  generalize Watch.start = w
  induction trace generalizing w with
  | nil => rfl
  | cons ev trace ih =>
    by_cases hev : ev.isEp0 = true
    · rw [List.filter_cons_of_pos hev]
      exact ih _
    · rw [List.filter_cons_of_neg hev, List.foldl_cons, ih]
      cases ev with
      | queued | txPacket => rfl
      | _ => exact absurd rfl hev

/-! ### The condition -/

/-- An IN packet of the request ends its status stage. -/
def EndsStatus (r : UsbControlRequest) : Prop :=
  usbRequestDirection r.bmRequestType = 0 ∨ r.wLength.toNat = 0

instance (r : UsbControlRequest) : Decidable (EndsStatus r) := inferInstanceAs (Decidable (_ ∨ _))

/-- The stored request after SETUP packet `r`. -/
def requestInEffect (c : ControlTransfer) (r : UsbControlRequest) : UsbControlRequest :=
  match requestAction r with
  | .reject | .endpointFeature => c.request
  | .response _ _ | .status | .setAddress | .setConfiguration => r

/-- The stored callback after SETUP packet `r`. -/
def cbInEffect (r : UsbControlRequest) : Option ControlCompleteCb :=
  if requestAction r = .reject then rejectCb r else requestCb r

/-- SETUP packet `r` opens a data stage. -/
def opensData (r : UsbControlRequest) : Bool :=
  match requestAction r with
  | .response _ _ => decide (0 < r.wLength.toNat)
  | _ => false

/-- The completion of an IN packet of `fed` bytes does no harm when SETUP packet `r` is handled
before it: it ends no status stage with a callback, the request then in effect has no IN data
stage, and no callback runs for it. -/
def LateHarmless (c : ControlTransfer) (fed : ℕ) (r : UsbControlRequest) : Prop :=
  (EndsStatus c.request → c.controlCompleteCb = none) ∧
    usbRequestDirection (requestInEffect c r).bmRequestType = 0 ∧
    (cbInEffect r = none ∨ fed ≠ 0 ∧ opensData r = true)

instance (c : ControlTransfer) (fed : ℕ) (r : UsbControlRequest) :
    Decidable (LateHarmless c fed r) :=
  inferInstanceAs (Decidable ((_ → _) ∧ _ ∧ (_ ∨ _ ∧ _)))

/-- A completion would be taken for one of a data stage that does not exist: the direction bit
says IN, but there is no data. -/
def Misdirected (r : UsbControlRequest) : Prop :=
  usbRequestDirection r.bmRequestType = 1 ∧ r.wLength.toNat = 0

instance (r : UsbControlRequest) : Decidable (Misdirected r) := inferInstanceAs (Decidable (_ ∧ _))

/-- A SETUP packet waits to be handled. -/
def SetupPending (s : Usb) : Prop := vtrx (s.chep 0) = true ∧ setupFlag (s.chep 0) = true

instance (s : Usb) : Decidable (SetupPending s) := inferInstanceAs (Decidable (_ ∧ _))

/-- The condition, on the flags and records an interrupt finds: a finished IN stage does no
harm when a SETUP packet is pending with it, and otherwise its request is not misdirected. -/
def CompletionsSeparate (x : ControlRun) : ControlEvent → Prop
  | .irq => vttx (x.usb.chep 0) = true →
      (SetupPending x.usb → LateHarmless x.usb.controlTransfer
          (x.usb.epTransferSet 0 1).feed.fedCount (pendingRequest x.usb)) ∧
        (¬SetupPending x.usb → ¬Misdirected x.usb.controlTransfer.request)
  | _ => True

instance (x : ControlRun) : ∀ ev, Decidable (CompletionsSeparate x ev)
  | .irq => inferInstanceAs (Decidable (_ → (_ → _) ∧ (_ → _)))
  | .setup _ | .poll | .out _ => inferInstanceAs (Decidable True)

/-! ### The observer along the operations -/

namespace Ep0

def watch (e : Ep0) : Watch := PcbMill.watch e.trace

variable (e : Ep0)

theorem watch_log (ev : UsbEvent) : (e.log ev).watch = e.watch.observe ev := watch_append _ _

theorem watch_queue (dirIdx : ℕ) (buffer : Ptr) (n : ℕ) :
    (e.queue dirIdx buffer n).watch = e.watch := by
  simp only [queue]
  split
  · exact e.watch_log (.queued 0 1 n)
  · exact e.watch_log (.queued 0 0 n)

theorem watch_statusStage (r : UsbControlRequest) : (e.statusStage r).watch = e.watch :=
  e.watch_queue ..

theorem watch_dataStage : e.dataStage.watch = e.watch := e.watch_queue ..

theorem watch_callback (cb : ControlCompleteCb) (stage : ControlStage) :
    (e.callback cb stage).2.watch = e.watch.observe (.callback cb stage e.control.request) := by
  simp only [callback]
  cases cb with
  | usbDeviceSetAddressComplete =>
    dsimp only
    split
    · exact e.watch_log _
    · exact e.watch_log _
  | usbCdcControlTransfer => exact e.watch_log _

theorem watch_dataCallback : e.dataCallback.2.watch = e.watch := by
  simp only [dataCallback]
  split
  · exact e.watch_callback _ _
  · rfl

theorem watch_handle (r : UsbControlRequest) :
    (e.handle r).watch =
      e.watch.observe (.setupHandled r (decide (requestAction r ≠ .reject))) := by
  simp only [handle]
  cases hact : requestAction r with
  | reject => exact watch_log _ _
  | response buffer len =>
    have hstage : ((e.setCb (requestCb r)).response r buffer len).watch = e.watch := by
      simp only [response]
      split
      · exact watch_dataStage _
      · exact watch_statusStage _ _
    rw [watch_log, hstage]
    rfl
  | status | setConfiguration =>
    have hstage : ((e.setCb (requestCb r)).initStatusStage r).watch = e.watch :=
      watch_statusStage _ _
    rw [watch_log, hstage]
    rfl
  | setAddress =>
    have hstage : ((e.setCb (requestCb r)).initStatusStage r).watch = e.watch :=
      watch_statusStage _ _
    rw [watch_log, watch_queue, hstage]
    rfl
  | endpointFeature =>
    have hstage : ((e.setCb (requestCb r)).endpointFeature r).watch = e.watch := by
      simp only [endpointFeature]
      split
      · rfl
      · rfl
    rw [watch_log, hstage]
    rfl

end Ep0

end PcbMill
