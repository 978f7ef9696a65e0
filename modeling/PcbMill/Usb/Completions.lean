import PcbMill.Usb.ControlRun

/-!
# Which completion belongs to which transfer

Between two interrupts EP0 and the host are in one of a few modes, and each event leads from
one mode to another.  The only modes in which a completion can be lost or misread are those in
which an IN stage has finished when a SETUP packet is handled, and those of a transfer whose
direction bit asks for data that its length rules out.
-/

namespace PcbMill

open FixedWidth Run

/-! ### Modes -/

/-- The transfer that the observer follows is the one in effect; `lag` data packets are
acknowledged and not yet handled. -/
structure InProgress (w : Watch) (c : ControlTransfer) (acknowledged : Bool) (lag : ℕ) : Prop where
  ok : w.ok = true
  request : w.request = c.request
  expected : w.expected = c.controlCompleteCb
  acknowledged : w.acknowledged = acknowledged
  completed : w.completed = 0
  hostData : w.hostData = w.dataStages + lag

/-- The record of one packet of `n` bytes, sent. -/
structure OnePacket (feed : FeedForwardBuffer) (n : ℕ) : Prop where
  totalCount : feed.totalCount = n
  fedCount : feed.fedCount = n

/-- What an IN stage that has finished leaves to a SETUP packet. -/
structure Late (w : Watch) (c : ControlTransfer) (n : ℕ) : Prop where
  ends : EndsStatus c.request → w.acknowledged = true ∧ w.expected = c.controlCompleteCb ∧
    w.completed = 0 ∧ n = 0
  data : ¬EndsStatus c.request → w.acknowledged = false

/-- The device does not answer the stage the host is in. -/
def HostPhase.Waits (host : HostPhase) (reg : EpView) : Prop :=
  match host with
  | .dataIn _ | .statusIn => reg.tx ≠ .valid
  | .dataOut _ | .statusOut => reg.rx ≠ .valid
  | .idle => True

/-- The completion flags of EP0. -/
structure EpView.Flags (reg : EpView) (vttx vtrx : Bool) : Prop where
  vttx : reg.vttx = vttx
  vtrx : reg.vtrx = vtrx

/-- A packet of `n` bytes of an IN data stage lies within the response. -/
structure InDataStage (c : ControlTransfer) (n : ℕ) : Prop where
  dir : usbRequestDirection c.request.bmRequestType = 1
  length : 0 < c.request.wLength.toNat
  size : n ≤ usbEp0BufferSize
  within : c.feed.fedCount + n ≤ c.feed.totalCount
  total : c.feed.totalCount ≤ c.request.wLength.toNat

/-- The bytes of a data stage still to be moved. -/
def dataRemaining (c : ControlTransfer) : ℕ := c.request.wLength.toNat - c.feed.fedCount

/-- An OUT data stage. -/
structure OutDataStage (c : ControlTransfer) : Prop where
  dir : usbRequestDirection c.request.bmRequestType = 0
  length : 0 < c.request.wLength.toNat
  buffer : c.feed.buffer.region ≠ .null
  within : c.feed.fedCount ≤ c.request.wLength.toNat

/-- The modes of EP0 and the host; `pending` is the SETUP packet in the receive buffer.  Only
SET_ADDRESS arms the receiver together with the transmitter. -/
inductive Ep0.Mode (e : Ep0) (pending : UsbControlRequest) : HostPhase → Prop where
  | resting {host : HostPhase} (flags : e.reg.Flags false false) (ok : e.watch.ok = true)
      (closes : e.watch.Closes) (waits : host.Waits e.reg) : Mode e pending host
  | setupPending {n : ℕ} (vtrx : e.reg.vtrx = true) (setup : e.reg.setup = true)
      (count : e.rxCount = 8) (tx : e.reg.tx ≠ .valid) (rx : e.reg.rx ≠ .valid)
      (ok : e.watch.ok = true)
      (before : e.reg.vttx = false ∧ e.watch.Closes ∨
        e.reg.vttx = true ∧ OnePacket e.txFeed n ∧ Late e.watch e.control n) :
      Mode e pending (hostStart pending)
  | statusIn (flags : e.reg.Flags false false) (progress : InProgress e.watch e.control false 0)
      (ends : EndsStatus e.control.request) (packet : OnePacket e.txFeed 0) :
      Mode e pending .statusIn
  | statusInDone (flags : e.reg.Flags true false) (progress : InProgress e.watch e.control true 0)
      (ends : EndsStatus e.control.request) (packet : OnePacket e.txFeed 0) : Mode e pending .idle
  | dataIn {n : ℕ} (flags : e.reg.Flags false false)
      (progress : InProgress e.watch e.control false 0) (stage : InDataStage e.control n)
      (packet : OnePacket e.txFeed n) (count : e.txCount = n)
      (receiver : e.reg.rx = .valid → n = 0 ∧ e.rxFeed.fedCount = 0) :
      Mode e pending (.dataIn (dataRemaining e.control))
  | dataInDone {n : ℕ} (flags : e.reg.Flags true false)
      (progress : InProgress e.watch e.control false 1) (stage : InDataStage e.control n)
      (packet : OnePacket e.txFeed n) (tx : e.reg.tx ≠ .valid)
      (receiver : e.reg.rx = .valid → n = 0 ∧ e.rxFeed.fedCount = 0) :
      Mode e pending (hostAfterIn (dataRemaining e.control) n)
  | statusOut (flags : e.reg.Flags false false) (progress : InProgress e.watch e.control false 0)
      (dir : usbRequestDirection e.control.request.bmRequestType = 1)
      (fed : e.rxFeed.fedCount = 0) : Mode e pending .statusOut
  | statusOutDone (flags : e.reg.Flags false true) (setup : e.reg.setup = false)
      (progress : InProgress e.watch e.control true 0)
      (dir : usbRequestDirection e.control.request.bmRequestType = 1)
      (fed : e.rxFeed.fedCount = 0) (count : e.rxCount = 0) : Mode e pending .idle
  | bothDone (flags : e.reg.Flags true true) (setup : e.reg.setup = false)
      (progress : InProgress e.watch e.control true 1) (stage : InDataStage e.control 0)
      (packet : OnePacket e.txFeed 0) (fed : e.rxFeed.fedCount = 0) (count : e.rxCount = 0) :
      Mode e pending .idle
  | dataOut (flags : e.reg.Flags false false) (progress : InProgress e.watch e.control false 0)
      (stage : OutDataStage e.control) (fed : e.rxFeed.fedCount = 0) (tx : e.reg.tx ≠ .valid) :
      Mode e pending (.dataOut (dataRemaining e.control))
  | dataOutDone (flags : e.reg.Flags false true) (setup : e.reg.setup = false)
      (progress : InProgress e.watch e.control false 1) (stage : OutDataStage e.control)
      (fed : e.rxFeed.fedCount = 0) (tx : e.reg.tx ≠ .valid) (rx : e.reg.rx ≠ .valid)
      (count : e.rxCount = min (dataRemaining e.control) usbEp0BufferSize) :
      Mode e pending (hostAfterOut (dataRemaining e.control))

variable {e : Ep0} {w : Watch} {c : ControlTransfer} {pending r : UsbControlRequest}
  {host : HostPhase} {n lag : ℕ}

theorem InProgress.closes (h : InProgress w c false lag) : w.Closes :=
  fun hack => absurd (h.acknowledged.symm.trans hack) Bool.false_ne_true

theorem Ep0.Mode.ok (h : e.Mode pending host) : e.watch.ok = true := by
  cases h with
  | resting _ ok => exact ok
  | setupPending _ _ _ _ _ ok => exact ok
  | statusIn _ progress => exact progress.ok
  | statusInDone _ progress => exact progress.ok
  | dataIn _ progress => exact progress.ok
  | dataInDone _ progress => exact progress.ok
  | statusOut _ progress => exact progress.ok
  | statusOutDone _ _ progress => exact progress.ok
  | bothDone _ _ progress => exact progress.ok
  | dataOut _ progress => exact progress.ok
  | dataOutDone _ _ progress => exact progress.ok

theorem InDataStage.not_endsStatus (h : InDataStage c n) : ¬EndsStatus c.request := by
  have hdir := h.dir
  have hlength := h.length
  rintro (hout | hzero)
  · omega
  · omega

/-! ### SETUP packets -/

/-- A SETUP packet finds either nothing outstanding or the flag of a finished IN stage. -/
theorem Ep0.Mode.before (h : e.Mode pending host) (hvtrx : e.reg.vtrx = false) :
    ∃ n, e.reg.vttx = false ∧ e.watch.Closes ∨
      e.reg.vttx = true ∧ OnePacket e.txFeed n ∧ Late e.watch e.control n := by
  cases h with
  | resting flags _ closes => exact ⟨0, .inl ⟨flags.vttx, closes⟩⟩
  | setupPending vtrx => exact absurd (vtrx.symm.trans hvtrx) (by decide)
  | statusIn flags progress => exact ⟨0, .inl ⟨flags.vttx, progress.closes⟩⟩
  | statusInDone flags progress ends packet =>
    refine ⟨0, .inr ⟨flags.vttx, packet, fun _ => ?_, fun hdata => absurd ends hdata⟩⟩
    exact ⟨progress.acknowledged, progress.expected, progress.completed, rfl⟩
  | dataIn flags progress => exact ⟨0, .inl ⟨flags.vttx, progress.closes⟩⟩
  | @dataInDone n flags progress stage packet =>
    exact ⟨n, .inr ⟨flags.vttx, packet, fun hends => absurd hends stage.not_endsStatus,
      fun _ => progress.acknowledged⟩⟩
  | statusOut flags progress => exact ⟨0, .inl ⟨flags.vttx, progress.closes⟩⟩
  | statusOutDone flags => exact absurd (flags.vtrx.symm.trans hvtrx) (by decide)
  | bothDone flags => exact absurd (flags.vtrx.symm.trans hvtrx) (by decide)
  | dataOut flags progress => exact ⟨0, .inl ⟨flags.vttx, progress.closes⟩⟩
  | dataOutDone flags => exact absurd (flags.vtrx.symm.trans hvtrx) (by decide)

theorem Ep0.Mode.setup (h : e.Mode pending host) (hok : e.setupOk = true) (r : UsbControlRequest) :
    (e.setup r).Mode r (hostStart r) := by
  have hvtrx : e.reg.vtrx = false := by
    simp only [Ep0.setupOk, Bool.and_eq_true, Bool.not_eq_true'] at hok
    exact hok.1.1
  have hwatch : (e.setup r).watch = e.watch := by
    simp only [Ep0.setup]
    rw [if_pos hok, Ep0.watch_log]
    rfl
  obtain ⟨n, hbefore⟩ := h.before hvtrx
  rw [← hwatch] at hbefore
  have hwatchOk := hwatch ▸ h.ok
  simp only [Ep0.setup] at hbefore hwatchOk ⊢
  rw [if_pos hok] at hbefore hwatchOk ⊢
  exact .setupPending rfl rfl rfl EpState.noConfusion EpState.noConfusion hwatchOk hbefore

/-! ### Packets of the stages -/

theorem InProgress.hostData_log (h : InProgress w c false lag) :
    InProgress (w.observe .hostData) c false (lag + 1) where
  ok := h.ok
  request := h.request
  expected := h.expected
  acknowledged := h.acknowledged
  completed := h.completed
  hostData := congrArg (· + 1) h.hostData

theorem InProgress.hostStatus_log (h : InProgress w c false lag) :
    InProgress (w.observe .hostStatus) c true lag where
  ok := h.ok
  request := h.request
  expected := h.expected
  acknowledged := rfl
  completed := h.completed
  hostData := h.hostData

/-- The host reads the packet of an IN data stage. -/
theorem Ep0.Mode.pollData {remaining : ℕ} (h : e.Mode pending (.dataIn remaining))
    (htx : e.reg.tx = .valid) {next : UsbControlRequest} :
    (e.poll.log .hostData).Mode next (hostAfterIn remaining e.txCount) := by
  have hpoll : e.poll.log .hostData =
      log { e with reg := { e.reg with tx := .nak, vttx := true } } .hostData := by
    rw [Ep0.poll, if_pos htx]
  rw [hpoll]
  generalize hhost : HostPhase.dataIn remaining = host at h
  cases h with
  | resting _ _ _ waits =>
    subst hhost
    exact absurd htx waits
  | setupPending _ _ _ tx => exact absurd htx tx
  | dataIn flags progress stage packet count receiver =>
    cases hhost
    rw [count]
    refine .dataInDone ⟨rfl, flags.vtrx⟩ ?_ stage packet EpState.noConfusion receiver
    rw [watch_log]
    exact progress.hostData_log
  | dataInDone _ _ _ _ tx => exact absurd htx tx
  | statusIn | statusInDone | statusOut | statusOutDone | bothDone | dataOut => cases hhost
  | dataOutDone _ _ _ _ _ tx => exact absurd htx tx

/-- The host reads the packet of an IN status stage. -/
theorem Ep0.Mode.pollStatus (h : e.Mode pending .statusIn) (htx : e.reg.tx = .valid)
    {next : UsbControlRequest} : (e.poll.log .hostStatus).Mode next .idle := by
  have hpoll : e.poll.log .hostStatus =
      log { e with reg := { e.reg with tx := .nak, vttx := true } } .hostStatus := by
    rw [Ep0.poll, if_pos htx]
  rw [hpoll]
  generalize hhost : HostPhase.statusIn = host at h
  cases h with
  | resting _ _ _ waits =>
    subst hhost
    exact absurd htx waits
  | setupPending _ _ _ tx => exact absurd htx tx
  | statusIn flags progress ends packet =>
    refine .statusInDone ⟨rfl, flags.vtrx⟩ ?_ ends packet
    rw [watch_log]
    exact progress.hostStatus_log
  | dataInDone _ _ _ _ tx => exact absurd htx tx
  | statusInDone | dataIn | statusOut | statusOutDone | bothDone | dataOut => cases hhost
  | dataOutDone _ _ _ _ _ tx => exact absurd htx tx

/-- The host sends a packet of an OUT data stage. -/
theorem Ep0.Mode.outData {remaining : ℕ} (h : e.Mode pending (.dataOut remaining))
    {data : List Byte} (hok : e.outOk data = true)
    (hlen : data.length = min remaining usbEp0BufferSize) {next : UsbControlRequest} :
    ((e.out data).log .hostData).Mode next (hostAfterOut remaining) := by
  have hrx : e.reg.rx = .valid := by
    simp only [Ep0.outOk, Bool.and_eq_true, beq_iff_eq] at hok
    exact hok.1
  have hout : e.out data =
      log { e with reg := { e.reg with rx := .nak, vtrx := true, setup := false }
                   rxCount := data.length } (.rxPacket 0 data) := by
    rw [Ep0.out, if_pos hok]
  rw [hout]
  generalize hhost : HostPhase.dataOut remaining = host at h
  cases h with
  | resting _ _ _ waits =>
    subst hhost
    exact absurd hrx waits
  | setupPending _ _ _ _ rx => exact absurd hrx rx
  | dataOut flags progress stage fed tx =>
    cases hhost
    refine .dataOutDone ⟨flags.vttx, rfl⟩ rfl ?_ stage fed tx EpState.noConfusion hlen
    rw [watch_log, watch_log]
    exact progress.hostData_log
  | dataInDone =>
    simp only [hostAfterIn] at hhost
    split at hhost <;> cases hhost
  | statusIn | statusInDone | dataIn | statusOut | statusOutDone | bothDone => cases hhost
  | dataOutDone _ _ _ _ _ _ rx => exact absurd hrx rx

/-- The host acknowledges an OUT status stage. -/
theorem Ep0.Mode.outStatus (h : e.Mode pending .statusOut) (hok : e.outOk [] = true)
    {next : UsbControlRequest} : ((e.out []).log .hostStatus).Mode next .idle := by
  have hrx : e.reg.rx = .valid := by
    simp only [Ep0.outOk, Bool.and_eq_true, beq_iff_eq] at hok
    exact hok.1
  have hout : e.out [] =
      log { e with reg := { e.reg with rx := .nak, vtrx := true, setup := false }
                   rxCount := 0 } (.rxPacket 0 []) := by
    rw [Ep0.out, if_pos hok]
    rfl
  rw [hout]
  generalize hhost : HostPhase.statusOut = host at h
  cases h with
  | resting _ _ _ waits =>
    subst hhost
    exact absurd hrx waits
  | setupPending _ _ _ _ rx => exact absurd hrx rx
  | @dataInDone n flags progress stage packet _ receiver =>
    -- the status stage overtakes the completion of the data stage
    obtain ⟨rfl, fed⟩ := receiver hrx
    refine .bothDone ⟨flags.vttx, rfl⟩ rfl ?_ stage packet fed rfl
    rw [watch_log, watch_log]
    exact progress.hostStatus_log
  | statusOut flags progress dir fed =>
    refine .statusOutDone ⟨flags.vttx, rfl⟩ rfl ?_ dir fed rfl
    rw [watch_log, watch_log]
    exact progress.hostStatus_log
  | statusIn | statusInDone | dataIn | statusOutDone | bothDone | dataOut => cases hhost
  | dataOutDone _ _ _ _ _ _ rx => exact absurd hrx rx

/-! ### The SETUP packet is handled -/

/-- A transmission of at most one packet. -/
theorem Ep0.queueIn_packet (e : Ep0) (buffer : Ptr) (hn : n ≤ 64) :
    OnePacket (e.queueIn buffer n).txFeed n ∧ (e.queueIn buffer n).txCount = n := by
  have hlen := feedForwardRemainingCount_start buffer hn
  simp only [queueIn, sendPacket]
  dsimp only [usbEp0BufferSize]
  rw [hlen, add16_of_lt (by omega), Nat.zero_add]
  exact ⟨⟨rfl, rfl⟩, rfl⟩

theorem Ep0.txCount_log (e : Ep0) (ev : UsbEvent) : (e.log ev).txCount = e.txCount := rfl

theorem Ep0.queue_in (e : Ep0) (buffer : Ptr) (n : ℕ) : e.queue 1 buffer n = e.queueIn buffer n :=
  rfl

theorem Ep0.queue_out (e : Ep0) (buffer : Ptr) (n : ℕ) : e.queue 0 buffer n = e.queueOut buffer n :=
  rfl

theorem Ep0.statusStage_in (e : Ep0) (hdir : usbRequestDirection r.bmRequestType = 0) :
    e.statusStage r = e.queueIn .null 0 := by
  rw [statusStage, hdir]
  rfl

theorem Ep0.statusStage_out (e : Ep0) (hdir : usbRequestDirection r.bmRequestType = 1) :
    e.statusStage r = e.queueOut .null 0 := by
  rw [statusStage, hdir]
  rfl

theorem hostStart_status (h : r.wLength.toNat = 0) : hostStart r = .statusIn := if_pos h

theorem hostStart_in (h : 0 < r.wLength.toNat)
    (hdir : usbRequestDirection r.bmRequestType = 1) : hostStart r = .dataIn r.wLength.toNat := by
  rw [hostStart, if_neg (by omega), if_pos hdir]

theorem hostStart_out (h : 0 < r.wLength.toNat)
    (hdir : usbRequestDirection r.bmRequestType = 0) : hostStart r = .dataOut r.wLength.toNat := by
  rw [hostStart, if_neg (by omega), if_neg (by omega)]

/-- A host that has sent a SETUP packet waits for a device that has armed nothing. -/
theorem hostStart_waits {reg : EpView} (htx : reg.tx ≠ .valid) (hrx : reg.rx ≠ .valid)
    (r : UsbControlRequest) : (hostStart r).Waits reg := by
  simp only [hostStart, HostPhase.Waits]
  split <;> rename_i heq <;> split at heq
  all_goals first | exact htx | exact hrx | trivial

theorem hostStart_waits_in {reg : EpView} (htx : reg.tx ≠ .valid)
    (hdir : usbRequestDirection r.bmRequestType = 1) : (hostStart r).Waits reg := by
  by_cases hlength : r.wLength.toNat = 0
  · rw [hostStart_status hlength]
    exact htx
  · rw [hostStart_in (by omega) hdir]
    exact htx

/-- EP0 when a SETUP packet is handled. -/
structure Ep0.Opened (e : Ep0) : Prop where
  flags : e.reg.Flags false false
  tx : e.reg.tx ≠ .valid
  rx : e.reg.rx ≠ .valid
  ok : e.watch.ok = true
  closes : e.watch.Closes

theorem Ep0.Opened.ok_setupHandled (h : e.Opened) (r : UsbControlRequest) (accepted : Bool) :
    (e.watch.observe (.setupHandled r accepted)).ok = true :=
  Bool.and_eq_true_iff.mpr ⟨h.ok, decide_eq_true h.closes⟩

theorem closes_setupHandled (w : Watch) (r : UsbControlRequest) (accepted : Bool) :
    (w.observe (.setupHandled r accepted)).Closes :=
  fun hack => absurd hack Bool.false_ne_true

theorem Ep0.Opened.inProgress (h : e.Opened) (hrequest : c.request = r)
    (hcb : c.controlCompleteCb = requestCb r) :
    InProgress (e.watch.observe (.setupHandled r true)) c false 0 where
  ok := h.ok_setupHandled r true
  request := hrequest.symm
  expected := hcb.symm
  acknowledged := rfl
  completed := rfl
  hostData := rfl

/-- Nothing is armed for the stage the host is in. -/
theorem Ep0.Opened.resting (h : e.Opened) {e' : Ep0} {accepted : Bool}
    (hflags : e'.reg.Flags false false) (hwatch : e'.watch = e.watch)
    (hwaits : (hostStart r).Waits e'.reg) :
    (e'.log (.setupHandled r accepted)).Mode pending (hostStart r) := by
  have hlog : (e'.log (.setupHandled r accepted)).watch =
      e.watch.observe (.setupHandled r accepted) := by rw [watch_log, hwatch]
  exact .resting hflags (hlog ▸ h.ok_setupHandled r accepted)
    (hlog ▸ closes_setupHandled _ r accepted) hwaits

/-- A request without a data stage. -/
theorem Ep0.Opened.status (h : e.Opened) (hrequest : c.request = r)
    (hcb : c.controlCompleteCb = requestCb r) :
    ((Ep0.statusStage { e with control := c } r).log (.setupHandled r true)).Mode pending
      (hostStart r) := by
  have hflags := h.flags
  have hprogress := h.inProgress hrequest hcb
  have hwatch : (Ep0.statusStage { e with control := c } r).watch = e.watch :=
    watch_statusStage _ _
  have hpacket := queueIn_packet (n := 0) { e with control := c } .null (by omega)
  rcases usbRequestDirection_cases r.bmRequestType with hdir | hdir
  · rw [statusStage_in _ hdir] at hwatch ⊢
    by_cases hlength : r.wLength.toNat = 0
    · rw [hostStart_status hlength]
      refine .statusIn ⟨hflags.vttx, hflags.vtrx⟩ ?_ (.inl ?_) ?_
      · rw [watch_log, hwatch]
        exact hprogress
      · show usbRequestDirection c.request.bmRequestType = 0
        rw [hrequest]
        exact hdir
      · exact hpacket.1
    · refine h.resting ⟨hflags.vttx, hflags.vtrx⟩ hwatch ?_
      rw [hostStart_out (by omega) hdir]
      exact h.rx
  · rw [statusStage_out _ hdir] at hwatch ⊢
    exact h.resting ⟨hflags.vttx, hflags.vtrx⟩ hwatch (hostStart_waits_in h.tx hdir)

/-- SET_ADDRESS queues its status stage twice. -/
theorem Ep0.Opened.setAddress (h : e.Opened) (hcb : e.control.controlCompleteCb = requestCb r) :
    (((e.initStatusStage r).queue 1 .null 0).log (.setupHandled r true)).Mode pending
      (hostStart r) := by
  rw [queue_in]
  have hflags := h.flags
  have hprogress := h.inProgress (r := r) (c := { e.control with
    request := r, feed := { buffer := .null, fedCount := 0, totalCount := 0 } }) rfl hcb
  have hwatch : ((e.initStatusStage r).queueIn .null 0).watch = e.watch :=
    (watch_queue _ 1 _ _).trans (watch_statusStage _ _)
  have hpacket := queueIn_packet (n := 0) (e.initStatusStage r) .null (by omega)
  have hlogged : ((e.initStatusStage r).queueIn .null 0).watch.observe (.setupHandled r true) =
      e.watch.observe (.setupHandled r true) := by rw [hwatch]
  simp only [Ep0.initStatusStage] at hwatch hpacket hlogged ⊢
  rcases usbRequestDirection_cases r.bmRequestType with hdir | hdir
  · rw [statusStage_in _ hdir] at hwatch hpacket hlogged ⊢
    by_cases hlength : r.wLength.toNat = 0
    · rw [hostStart_status hlength]
      refine .statusIn ⟨hflags.vttx, hflags.vtrx⟩ ?_ (.inr hlength) hpacket.1
      rw [watch_log, hlogged]
      exact hprogress
    · refine h.resting ⟨hflags.vttx, hflags.vtrx⟩ hwatch ?_
      rw [hostStart_out (by omega) hdir]
      exact h.rx
  · rw [statusStage_out _ hdir] at hwatch hpacket hlogged ⊢
    by_cases hlength : r.wLength.toNat = 0
    · rw [hostStart_status hlength]
      refine .statusIn ⟨hflags.vttx, hflags.vtrx⟩ ?_ (.inr hlength) hpacket.1
      rw [watch_log, hlogged]
      exact hprogress
    · rw [hostStart_in (by omega) hdir]
      refine .dataIn ⟨hflags.vttx, hflags.vtrx⟩ ?_ ?_ hpacket.1
        ((txCount_log _ _).trans hpacket.2) fun _ => ⟨rfl, rfl⟩
      · rw [watch_log, hlogged]
        exact hprogress
      · exact { dir := hdir, length := Nat.pos_of_ne_zero hlength, size := Nat.zero_le _
                within := le_rfl, total := Nat.zero_le _ }

/-- Where the packets of a data stage are put together. -/
def Ep0.dataStageBuffer (e : Ep0) : Ptr :=
  if 0 < feedForwardRemainingCount e.control.feed usbEp0BufferSize then ⟨.ep0ControlBuffer, 0⟩
  else .null

/-- The next packet of an IN data stage. -/
theorem Ep0.dataStage_packet (e : Ep0)
    (hdir : usbRequestDirection e.control.request.bmRequestType = 1)
    (hlength : 0 < e.control.request.wLength.toNat)
    (hfed : e.control.feed.fedCount ≤ e.control.feed.totalCount)
    (htotal : e.control.feed.totalCount ≤ e.control.request.wLength.toNat) :
    ∃ buffer n, n ≤ 64 ∧ e.dataStage = e.queueIn buffer n ∧ InDataStage e.control n := by
  have hlt : e.control.feed.totalCount < 2 ^ 16 :=
    lt_of_le_of_lt htotal e.control.request.wLength.isLt
  have hlen := feedForwardRemainingCount_eq hfed hlt usbEp0BufferSize
  refine ⟨e.dataStageBuffer, feedForwardRemainingCount e.control.feed usbEp0BufferSize,
    feedForwardRemainingCount_le _ _, ?_, ?_⟩
  · rw [dataStage, hdir]
    rfl
  · exact { dir := hdir, length := hlength, size := feedForwardRemainingCount_le _ _
            within := by rw [hlen]; omega
            total := htotal }

/-- The next packet of an OUT data stage. -/
theorem Ep0.dataStage_out (e : Ep0)
    (hdir : usbRequestDirection e.control.request.bmRequestType = 0) :
    ∃ buffer n, e.dataStage = e.queueOut buffer n := by
  refine ⟨e.dataStageBuffer, feedForwardRemainingCount e.control.feed usbEp0BufferSize, ?_⟩
  rw [dataStage, hdir]
  rfl

/-- A request with a data stage. -/
theorem Ep0.Opened.data (h : e.Opened) {buffer : Ptr} {len : ℕ} (hlength : 0 < r.wLength.toNat)
    (hbuffer : buffer.region ≠ .null) (hrequest : c.request = r)
    (hcb : c.controlCompleteCb = requestCb r)
    (hfeed : c.feed = { buffer := buffer, fedCount := 0
                        totalCount := if len < r.wLength.toNat then len else r.wLength.toNat }) :
    ((Ep0.dataStage { e with control := c }).log (.setupHandled r true)).Mode pending
      (hostStart r) := by
  have hflags := h.flags
  have hprogress := h.inProgress hrequest hcb
  have hwatch : (Ep0.dataStage { e with control := c }).watch = e.watch := watch_dataStage _
  have hfed : c.feed.fedCount = 0 := by rw [hfeed]
  have hremaining : dataRemaining c = r.wLength.toNat := by
    rw [dataRemaining, hrequest, hfed, Nat.sub_zero]
  rcases usbRequestDirection_cases r.bmRequestType with hdir | hdir
  · rw [hostStart_out hlength hdir, ← hremaining]
    obtain ⟨dst, n, hqueue⟩ := dataStage_out { e with control := c } (by
      show usbRequestDirection c.request.bmRequestType = 0
      rw [hrequest]
      exact hdir)
    rw [hqueue] at hwatch ⊢
    refine .dataOut ⟨hflags.vttx, hflags.vtrx⟩ ?_ ?_ rfl h.tx
    · rw [watch_log, hwatch]
      exact hprogress
    · subst hrequest
      exact { dir := hdir, length := hlength
              buffer := by show c.feed.buffer.region ≠ .null; rw [hfeed]; exact hbuffer
              within := by show c.feed.fedCount ≤ _; rw [hfed]; exact Nat.zero_le _ }
  · rw [hostStart_in hlength hdir, ← hremaining]
    subst hrequest
    obtain ⟨src, n, hn, hqueue, hstage⟩ := dataStage_packet { e with control := c } hdir hlength
      (by show c.feed.fedCount ≤ _; rw [hfed]; exact Nat.zero_le _)
      (by show c.feed.totalCount ≤ _; rw [hfeed]; dsimp only; split <;> omega)
    have hpacket := queueIn_packet { e with control := c } src hn
    rw [hqueue] at hwatch ⊢
    refine .dataIn ⟨hflags.vttx, hflags.vtrx⟩ ?_ hstage hpacket.1
      ((txCount_log _ _).trans hpacket.2) fun hrx => absurd hrx h.rx
    rw [watch_log, hwatch]
    exact hprogress

/-- **A SETUP packet is handled**: the next stage is armed, or the host waits. -/
theorem Ep0.Opened.handle (h : e.Opened) (r : UsbControlRequest) :
    (e.handle r).Mode pending (hostStart r) := by
  have hcb : ∀ cb, (e.setCb cb).Opened := fun cb => ⟨h.flags, h.tx, h.rx, h.ok, h.closes⟩
  have hflags := h.flags
  simp only [Ep0.handle]
  cases hact : requestAction r with
  | reject =>
    refine (hcb (rejectCb r)).resting ⟨hflags.vttx, hflags.vtrx⟩ rfl ?_
    refine hostStart_waits ?_ ?_ r
    · exact h.tx
    · exact EpState.noConfusion
  | response buffer len =>
    dsimp only [Ep0.response]
    by_cases hlength : 0 < r.wLength.toNat
    · rw [if_pos hlength]
      exact (hcb (requestCb r)).data hlength (response_buffer hact).2 rfl rfl rfl
    · rw [if_neg hlength]
      exact (hcb (requestCb r)).status rfl rfl
  | status | setConfiguration => exact (hcb (requestCb r)).status rfl rfl
  | setAddress => exact (hcb (requestCb r)).setAddress rfl
  | endpointFeature =>
    dsimp only [Ep0.endpointFeature]
    split
    · refine (hcb (requestCb r)).resting ?_ rfl ?_
      · simp only [setState]
        split
        · exact ⟨hflags.vttx, hflags.vtrx⟩
        · exact ⟨hflags.vttx, hflags.vtrx⟩
      · have hst : (if r.bRequest = usbStdClearFeature then EpState.disabled else .stall) ≠
            .valid := by split <;> exact EpState.noConfusion
        simp only [setState]
        split
        · refine hostStart_waits ?_ ?_ r
          · exact hst
          · exact h.rx
        · refine hostStart_waits ?_ ?_ r
          · exact h.tx
          · exact hst
    · exact (hcb (requestCb r)).resting ⟨hflags.vttx, hflags.vtrx⟩ rfl
        (hostStart_waits h.tx h.rx r)

/-! ### A completion behind the SETUP packet -/

def Ep0.clearTx (e : Ep0) : Ep0 := { e with reg := { e.reg with vttx := false } }

def Ep0.clearRx (e : Ep0) : Ep0 := { e with reg := { e.reg with vtrx := false } }

theorem Ep0.irqTx_false (e : Ep0) : e.irqTx false = e := rfl

theorem Ep0.irqTx_packet (h : OnePacket e.txFeed n) : e.irqTx true = e.clearTx.transfer 1 n := by
  have hsent : ¬e.txFeed.totalCount ≠ e.txFeed.fedCount := by
    rw [h.totalCount, h.fedCount]
    exact not_not.mpr rfl
  rw [← h.fedCount]
  exact if_neg hsent

theorem Ep0.queue_clearTx (e : Ep0) (dirIdx : ℕ) (buffer : Ptr) (n : ℕ) :
    (e.queue dirIdx buffer n).clearTx = e.clearTx.queue dirIdx buffer n := by
  simp only [queue]
  split
  · simp only [queueIn, sendPacket, clearTx, Ep0.log]
  · rfl

theorem Ep0.queue_control (e : Ep0) (dirIdx : ℕ) (buffer : Ptr) (n : ℕ) :
    (e.queue dirIdx buffer n).control = e.control := by
  simp only [queue]
  split
  · rfl
  · rfl

/-- Handling a SETUP packet does not look at VTTX. -/
theorem Ep0.handle_clearTx (e : Ep0) (r : UsbControlRequest) :
    (e.handle r).clearTx = e.clearTx.handle r := by
  have hlog : ∀ (e : Ep0) ev, (e.log ev).clearTx = e.clearTx.log ev := fun _ _ => rfl
  have hcb : ∀ cb, (e.setCb cb).clearTx = e.clearTx.setCb cb := fun _ => rfl
  have hinit : ∀ e : Ep0, (e.initStatusStage r).clearTx = e.clearTx.initStatusStage r :=
    fun e => queue_clearTx ..
  simp only [handle]
  cases requestAction r with
  | reject => rfl
  | response buffer len =>
    dsimp only [response]
    rw [hlog]
    split
    · exact congrArg (Ep0.log · _) (queue_clearTx ..)
    · exact congrArg (Ep0.log · _) (queue_clearTx ..)
  | status | setConfiguration =>
    dsimp only
    rw [hlog, hinit, hcb]
  | setAddress =>
    dsimp only
    rw [hlog, queue_clearTx, hinit, hcb]
  | endpointFeature =>
    dsimp only [endpointFeature]
    rw [hlog]
    split
    · simp only [setState]
      split
      · rfl
      · rfl
    · rfl

/-- The request and the callback in effect after a SETUP packet. -/
theorem Ep0.handle_control (e : Ep0) (r : UsbControlRequest) :
    (e.handle r).control.request = requestInEffect e.control r ∧
      (e.handle r).control.controlCompleteCb = cbInEffect r := by
  have haccepted : requestAction r ≠ .reject → cbInEffect r = requestCb r := fun h => if_neg h
  simp only [handle, requestInEffect]
  cases hact : requestAction r with
  | reject => exact ⟨rfl, (if_pos hact).symm⟩
  | response buffer len =>
    rw [haccepted (by rw [hact]; exact RequestAction.noConfusion)]
    dsimp only [response, Ep0.log]
    split
    · rw [dataStage, queue_control]
      exact ⟨rfl, rfl⟩
    · rw [statusStage, queue_control]
      exact ⟨rfl, rfl⟩
  | status | setConfiguration =>
    rw [haccepted (by rw [hact]; exact RequestAction.noConfusion)]
    dsimp only [initStatusStage, Ep0.log]
    rw [statusStage, queue_control]
    exact ⟨rfl, rfl⟩
  | setAddress =>
    rw [haccepted (by rw [hact]; exact RequestAction.noConfusion)]
    dsimp only [initStatusStage, Ep0.log]
    rw [statusStage, queue_control, queue_control]
    exact ⟨rfl, rfl⟩
  | endpointFeature =>
    rw [haccepted (by rw [hact]; exact RequestAction.noConfusion)]
    dsimp only [endpointFeature, Ep0.log]
    split
    · exact ⟨rfl, rfl⟩
    · exact ⟨rfl, rfl⟩

/-- The transmission record after a SETUP packet: that of an empty packet, unless an OUT data
stage has left it alone. -/
theorem Ep0.handle_packet (h : OnePacket e.txFeed n)
    (hends : EndsStatus e.control.request → n = 0) (r : UsbControlRequest) :
    ∃ m, OnePacket (e.handle r).txFeed m ∧
      (usbRequestDirection (requestInEffect e.control r).bmRequestType = 0 →
        m = if opensData r = true then n else 0) := by
  have hstatus : ∀ (e : Ep0), OnePacket e.txFeed n → ∃ m, OnePacket (e.statusStage r).txFeed m ∧
      (usbRequestDirection r.bmRequestType = 0 → m = 0) := by
    intro e he
    rcases usbRequestDirection_cases r.bmRequestType with hdir | hdir
    · rw [statusStage_in _ hdir]
      exact ⟨0, (queueIn_packet e .null (by omega)).1, fun _ => rfl⟩
    · rw [statusStage_out _ hdir]
      exact ⟨n, he, fun hout => absurd (hdir.symm.trans hout) (by decide)⟩
  unfold handle requestInEffect opensData
  cases hact : requestAction r with
  | reject => exact ⟨n, h, fun hout => hends (.inl hout)⟩
  | response buffer len =>
    dsimp only [response]
    by_cases hlength : 0 < r.wLength.toNat
    · rw [if_pos hlength, decide_eq_true hlength]
      have hdata : ∀ (e : Ep0), OnePacket e.txFeed n → e.control.request = r →
          ∃ m, OnePacket e.dataStage.txFeed m ∧
            (usbRequestDirection r.bmRequestType = 0 → m = n) := by
        intro e he hrequest
        rw [← hrequest]
        rcases usbRequestDirection_cases e.control.request.bmRequestType with hdir | hdir
        · obtain ⟨dst, k, hqueue⟩ := dataStage_out e hdir
          rw [hqueue]
          exact ⟨n, he, fun _ => rfl⟩
        · have hqueue : e.dataStage = e.queueIn e.dataStageBuffer
              (feedForwardRemainingCount e.control.feed usbEp0BufferSize) := by
            rw [dataStage, hdir]
            rfl
          rw [hqueue]
          exact ⟨_, (queueIn_packet e _ (feedForwardRemainingCount_le _ _)).1,
            fun hout => absurd (hdir.symm.trans hout) (by decide)⟩
      exact hdata _ h rfl
    · rw [if_neg hlength, decide_eq_false hlength]
      exact hstatus _ h
  | status | setConfiguration => exact hstatus _ h
  | setAddress =>
    dsimp only
    rw [queue_in]
    have hpacket := queueIn_packet (n := 0) ((e.setCb (requestCb r)).initStatusStage r) .null
      (by omega)
    exact ⟨0, hpacket.1, fun _ => rfl⟩
  | endpointFeature =>
    refine ⟨n, ?_, fun hout => hends (.inl hout)⟩
    dsimp only [endpointFeature]
    split
    · exact h
    · exact h

/-- **A late completion that does no harm** changes nothing. -/
theorem Ep0.late_harmless {m : ℕ} (hlate : LateHarmless e.control n r)
    (hm : usbRequestDirection (requestInEffect e.control r).bmRequestType = 0 →
      m = if opensData r = true then n else 0) :
    (e.handle r).transfer 1 m = e.handle r := by
  obtain ⟨-, hout, hcb⟩ := hlate
  obtain ⟨hrequest, hcallback⟩ := e.handle_control r
  have hdir : usbRequestDirection (e.handle r).control.request.bmRequestType ≠ 1 := by
    rw [hrequest, hout]
    decide
  by_cases hzero : m = 0
  · rcases hcb with hnone | ⟨hfed, hopens⟩
    · rw [hzero, transfer_status hdir, hcallback, hnone]
    · exact absurd hzero (by rw [hm hout, if_pos hopens]; exact hfed)
  · exact transfer_status_data hdir hzero

/-- **A late completion that does harm** is seen at once: a callback is lost, or the completion
is taken for one of the transfer just started. -/
theorem Ep0.late_breaks {m : ℕ} (hharm : ¬LateHarmless e.control n r)
    (hlate : Late e.watch e.control n)
    (hm : usbRequestDirection (requestInEffect e.control r).bmRequestType = 0 →
      m = if opensData r = true then n else 0) :
    ((e.handle r).transfer 1 m).watch.ok = false := by
  rw [← Bool.not_eq_true]
  intro hok
  obtain ⟨hrequest, hcallback⟩ := e.handle_control r
  have hhandled : (e.handle r).watch.ok = true := watch_ok_of_prefix (trace_transfer _ _ _) hok
  have hcloses : e.watch.Closes := by
    rw [watch_handle] at hhandled
    exact of_decide_eq_true (Bool.and_eq_true_iff.mp hhandled).2
  have hfirst : EndsStatus e.control.request → e.control.controlCompleteCb = none := by
    intro hends
    obtain ⟨hack, hexpected, hcompleted, -⟩ := hlate.ends hends
    by_contra hne
    have := hcloses hack (hexpected ▸ hne)
    omega
  rcases usbRequestDirection_cases (requestInEffect e.control r).bmRequestType with hout | hin
  · have hdir : usbRequestDirection (e.handle r).control.request.bmRequestType ≠ 1 := by
      rw [hrequest, hout]
      decide
    have hzero : m = 0 := by
      rw [hm hout]
      split
      · by_contra hfed
        exact hharm ⟨hfirst, hout, .inr ⟨hfed, ‹_›⟩⟩
      · rfl
    cases hcb : cbInEffect r with
    | none => exact hharm ⟨hfirst, hout, .inl hcb⟩
    | some cb =>
      -- the callback runs before the host has acknowledged anything
      rw [hzero, transfer_status hdir, hcallback, hcb] at hok
      dsimp only at hok
      rw [watch_callback, watch_handle] at hok
      have hmay := of_decide_eq_true (Bool.and_eq_true_iff.mp hok).2
      exact Bool.false_ne_true hmay.1
  · -- the completion is taken for one of a data stage without data
    have hdata : ((e.handle r).log (.dataStage (e.handle r).control.request m)).watch.ok = true :=
      watch_ok_of_prefix (trace_transfer_data (by rw [hrequest]; exact hin) m) hok
    rw [watch_log, watch_handle] at hdata
    exact absurd (of_decide_eq_true (Bool.and_eq_true_iff.mp hdata).2) (Nat.lt_irrefl 0)

/-! ### Interrupts -/

/-- The condition, at EP0. -/
def Ep0.Separate (e : Ep0) (pending : UsbControlRequest) : Prop :=
  e.reg.vttx = true →
    (e.reg.vtrx = true ∧ e.reg.setup = true →
        LateHarmless e.control e.txFeed.fedCount pending) ∧
      (¬(e.reg.vtrx = true ∧ e.reg.setup = true) → ¬Misdirected e.control.request)

theorem Ep0.irqRx_quiet (h : e.reg.vtrx = false) : e.irqRx pending = e := by
  simp only [irqRx]
  rw [if_neg (by rw [h]; exact Bool.false_ne_true)]

theorem Ep0.step_quiet (h : e.reg.Flags false false) : e.step pending .irq = e := by
  show (e.irqRx pending).irqTx e.reg.vttx = e
  rw [irqRx_quiet h.vtrx, h.vttx, irqTx_false]

theorem Ep0.step_setup (hvtrx : e.reg.vtrx = true) (hsetup : e.reg.setup = true)
    (hcount : e.rxCount = 8) :
    e.step pending .irq = (e.clearRx.handle pending).irqTx e.reg.vttx := by
  have hrx : e.irqRx pending = e.clearRx.handle pending := by
    simp only [irqRx]
    rw [if_pos hvtrx, if_pos hsetup, if_pos hcount]
    rfl
  show (e.irqRx pending).irqTx e.reg.vttx = _
  rw [hrx]

/-- The flag of a late completion is cleared when the SETUP packet has been handled. -/
theorem Ep0.step_late (pending : UsbControlRequest) (hvtrx : e.reg.vtrx = true)
    (hsetup : e.reg.setup = true) (hcount : e.rxCount = 8) (hvttx : e.reg.vttx = true) (hpacket : OnePacket e.txFeed n)
    (hends : EndsStatus e.control.request → n = 0) :
    ∃ m, e.step pending .irq = (e.clearRx.clearTx.handle pending).transfer 1 m ∧
      (usbRequestDirection (requestInEffect e.control pending).bmRequestType = 0 →
        m = if opensData pending = true then n else 0) := by
  obtain ⟨m, hm, hout⟩ := e.clearRx.handle_packet hpacket hends pending
  refine ⟨m, ?_, hout⟩
  rw [step_setup hvtrx hsetup hcount, hvttx, irqTx_packet hm, handle_clearTx]

/-- The SETUP packet of the mode is handled. -/
theorem Ep0.Mode.irq_setup (hvtrx : e.reg.vtrx = true) (hsetup : e.reg.setup = true)
    (hcount : e.rxCount = 8) (htx : e.reg.tx ≠ .valid) (hrx : e.reg.rx ≠ .valid)
    (hok : e.watch.ok = true)
    (hbefore : e.reg.vttx = false ∧ e.watch.Closes ∨
      e.reg.vttx = true ∧ OnePacket e.txFeed n ∧ Late e.watch e.control n)
    (hseparate : e.Separate pending) {next : UsbControlRequest} :
    (e.step pending .irq).Mode next (hostStart pending) := by
  rcases hbefore with ⟨hvttx, hcloses⟩ | ⟨hvttx, hpacket, hlate⟩
  · have hopened : e.clearRx.Opened := ⟨⟨hvttx, rfl⟩, htx, hrx, hok, hcloses⟩
    rw [step_setup hvtrx hsetup hcount, hvttx]
    exact hopened.handle pending
  · have hharmless := (hseparate hvttx).1 ⟨hvtrx, hsetup⟩
    rw [hpacket.fedCount] at hharmless
    have hcloses : e.watch.Closes := by
      intro hack hne
      by_cases hends : EndsStatus e.control.request
      · exact absurd (hharmless.1 hends) ((hlate.ends hends).2.1 ▸ hne)
      · exact absurd (hlate.data hends) (by rw [hack]; decide)
    have hopened : e.clearRx.clearTx.Opened := ⟨⟨rfl, rfl⟩, htx, hrx, hok, hcloses⟩
    obtain ⟨m, hstep, hm⟩ := step_late pending hvtrx hsetup hcount hvttx hpacket
      fun hends => (hlate.ends hends).2.2.2
    rw [hstep, late_harmless (e := e.clearRx.clearTx) hharmless hm]
    exact hopened.handle pending

/-! ### The status stage ends -/

/-- What is left of an acknowledged transfer: packets of its data stage at most. -/
structure Acknowledged (w : Watch) (lag : ℕ) : Prop where
  ok : w.ok = true
  closes : w.Closes
  hostData : w.hostData = w.dataStages + lag

/-- The status callback runs, if there is one, and changes nothing but the receive buffer. -/
theorem Ep0.transfer_acknowledged {dirIdx : ℕ} (h : InProgress e.watch e.control true lag)
    (hdir : usbRequestDirection e.control.request.bmRequestType ≠ dirIdx) :
    Acknowledged (e.transfer dirIdx 0).watch lag ∧ (e.transfer dirIdx 0).reg = e.reg ∧
      (e.transfer dirIdx 0).control = e.control ∧ (e.transfer dirIdx 0).txFeed = e.txFeed := by
  rw [transfer_status hdir]
  cases hcb : e.control.controlCompleteCb with
  | none =>
    refine ⟨⟨h.ok, fun _ hne => ?_, h.hostData⟩, rfl, rfl, rfl⟩
    exact absurd (h.expected.trans hcb) hne
  | some cb =>
    dsimp only
    have hmay : e.watch.MayComplete cb e.control.request :=
      ⟨h.acknowledged, h.expected.trans hcb, h.request, h.completed⟩
    refine ⟨?_, ?_⟩
    · rw [watch_callback]
      exact { ok := Bool.and_eq_true_iff.mpr ⟨h.ok, decide_eq_true hmay⟩
              closes := fun _ _ => congrArg (· + 1) h.completed
              hostData := h.hostData }
    · simp only [callback]
      cases cb with
      | usbDeviceSetAddressComplete => exact ⟨rfl, rfl, rfl⟩
      | usbCdcControlTransfer => exact ⟨rfl, rfl, rfl⟩

theorem Ep0.Mode.irq_statusIn (flags : e.reg.Flags true false)
    (progress : InProgress e.watch e.control true 0)
    (ends : EndsStatus e.control.request) (packet : OnePacket e.txFeed 0)
    (hseparate : e.Separate pending) {next : UsbControlRequest} :
    (e.step pending .irq).Mode next .idle := by
  have hdir : usbRequestDirection e.control.request.bmRequestType ≠ 1 := by
    intro hin
    refine (hseparate flags.vttx).2 (fun hsetup => ?_) ⟨hin, ?_⟩
    · exact absurd (flags.vtrx.symm.trans hsetup.1) Bool.false_ne_true
    · exact ends.resolve_left (by omega)
  show ((e.irqRx pending).irqTx e.reg.vttx).Mode next .idle
  rw [irqRx_quiet flags.vtrx, flags.vttx, irqTx_packet packet]
  obtain ⟨hdone, hreg, -, -⟩ := transfer_acknowledged (e := e.clearTx) progress hdir
  exact .resting ⟨by rw [hreg]; rfl, by rw [hreg]; exact flags.vtrx⟩ hdone.ok hdone.closes trivial

/-- A misdirected completion is taken for one of the data stage. -/
theorem Ep0.statusIn_breaks (flags : e.reg.Flags true false)
    (progress : InProgress e.watch e.control true 0) (packet : OnePacket e.txFeed 0)
    (hin : usbRequestDirection e.control.request.bmRequestType = 1) :
    (e.step pending .irq).watch.ok = false := by
  show ((e.irqRx pending).irqTx e.reg.vttx).watch.ok = false
  rw [irqRx_quiet flags.vtrx, flags.vttx, irqTx_packet packet, ← Bool.not_eq_true]
  intro hok
  have hdata : (e.clearTx.log (.dataStage e.control.request 0)).watch.ok = true :=
    watch_ok_of_prefix (trace_transfer_data (e := e.clearTx) hin 0) hok
  rw [watch_log] at hdata
  have hlt := of_decide_eq_true (Bool.and_eq_true_iff.mp hdata).2
  exact absurd hlt (by have := progress.hostData; show ¬e.watch.dataStages < e.watch.hostData; omega)

/-- An OUT packet that ends a status stage. -/
theorem Ep0.irqRx_acknowledged (pending : UsbControlRequest) (hvtrx : e.reg.vtrx = true)
    (hsetup : e.reg.setup = false)
    (progress : InProgress e.watch e.control true lag)
    (hdir : usbRequestDirection e.control.request.bmRequestType = 1)
    (hfed : e.rxFeed.fedCount = 0) (hcount : e.rxCount = 0) :
    Acknowledged (e.irqRx pending).watch lag ∧
      (e.irqRx pending).reg = { e.reg with vtrx := false } ∧
      (e.irqRx pending).control = e.control ∧ (e.irqRx pending).txFeed = e.txFeed := by
  have hwatch : e.rxHandled.watch = e.watch :=
    watch_log { e with reg := { e.reg with vtrx := false } } _
  have hprogress : InProgress e.rxHandled.watch e.rxHandled.control true lag := hwatch ▸ progress
  have hout : usbRequestDirection e.rxHandled.control.request.bmRequestType ≠ 0 := by
    rw [show e.rxHandled.control = e.control from rfl, hdir]
    decide
  rw [irqRx_out hvtrx hsetup hfed (by omega), hcount]
  exact transfer_acknowledged hprogress hout

theorem Ep0.Mode.irq_statusOut (flags : e.reg.Flags false true) (setup : e.reg.setup = false)
    (progress : InProgress e.watch e.control true 0)
    (dir : usbRequestDirection e.control.request.bmRequestType = 1)
    (fed : e.rxFeed.fedCount = 0) (count : e.rxCount = 0) {next : UsbControlRequest} :
    (e.step pending .irq).Mode next .idle := by
  obtain ⟨hdone, hreg, -, -⟩ := irqRx_acknowledged pending flags.vtrx setup progress
    dir fed count
  show ((e.irqRx pending).irqTx e.reg.vttx).Mode next .idle
  rw [flags.vttx, irqTx_false]
  exact .resting ⟨by rw [hreg]; exact flags.vttx, by rw [hreg]⟩ hdone.ok hdone.closes trivial

/-! ### The data stage goes on -/

/-- The end of a data stage: the status stage is queued, or both directions are stalled. -/
theorem Ep0.dataComplete_cases (e : Ep0) :
    ∃ e' : Ep0, e'.reg = e.reg ∧ e'.control = e.control ∧ e'.watch = e.watch ∧
      (e.dataComplete = e'.statusStage e.control.request ∨
        e.dataComplete = (e'.setState 0 .stall).setState 1 .stall) := by
  have hsame : e.dataCallback.2.reg = e.reg ∧ e.dataCallback.2.control = e.control := by
    simp only [dataCallback]
    split
    · rename_i cb _
      simp only [callback]
      cases cb with
      | usbDeviceSetAddressComplete => exact ⟨rfl, rfl⟩
      | usbCdcControlTransfer => exact ⟨rfl, rfl⟩
    · exact ⟨rfl, rfl⟩
  refine ⟨e.dataCallback.2, hsame.1, hsame.2, e.watch_dataCallback, ?_⟩
  simp only [dataComplete]
  split
  · exact .inl (by rw [hsame.2])
  · exact .inr rfl

/-- Either way the observer sees nothing and no completion is flagged. -/
theorem Ep0.dataComplete_frame (e : Ep0) (hvttx : e.reg.vttx = false) (hvtrx : e.reg.vtrx = false) :
    e.dataComplete.watch = e.watch ∧ e.dataComplete.reg.Flags false false := by
  obtain ⟨e', hreg, -, hwatch, hcomplete | hcomplete⟩ := e.dataComplete_cases
  · rw [hcomplete, watch_statusStage]
    refine ⟨hwatch, ?_⟩
    simp only [statusStage, queue]
    split
    · exact ⟨(congrArg EpView.vttx hreg).trans hvttx, (congrArg EpView.vtrx hreg).trans hvtrx⟩
    · exact ⟨(congrArg EpView.vttx hreg).trans hvttx, (congrArg EpView.vtrx hreg).trans hvtrx⟩
  · rw [hcomplete]
    exact ⟨hwatch, (congrArg EpView.vttx hreg).trans hvttx, (congrArg EpView.vtrx hreg).trans hvtrx⟩

/-- A completion taken for one of the data stage that the host has given to it. -/
theorem InProgress.dataStage {acknowledged : Bool} (h : InProgress w c acknowledged 1)
    (n : ℕ) {c' : ControlTransfer} (hrequest : c'.request = c.request)
    (hcb : c'.controlCompleteCb = c.controlCompleteCb) :
    InProgress (w.observe (.dataStage c.request n)) c' acknowledged 0 where
  ok := Bool.and_eq_true_iff.mpr ⟨h.ok, decide_eq_true (by rw [h.hostData]; omega)⟩
  request := h.request.trans hrequest.symm
  expected := h.expected.trans hcb.symm
  acknowledged := h.acknowledged
  completed := h.completed
  hostData := h.hostData

theorem advance_fedCount (c : ControlTransfer) (h : c.feed.fedCount + n < 2 ^ 16) :
    (Ep0.advance c n).feed.fedCount = c.feed.fedCount + n := by
  show add16 c.feed.fedCount (u16 n) = _
  rw [u16_of_lt (by omega), add16_of_lt h]

/-- The end of an IN data stage. -/
theorem Ep0.Mode.dataComplete_in (flags : e.reg.Flags false false)
    (progress : InProgress e.watch e.control false 0)
    (dir : usbRequestDirection e.control.request.bmRequestType = 1) :
    e.dataComplete.Mode pending .statusOut := by
  obtain ⟨e', hreg, hcontrol, hwatch, hcomplete | hcomplete⟩ := e.dataComplete_cases
  · have hstatus := watch_statusStage e' e.control.request
    rw [hcomplete]
    rw [statusStage_out e' dir] at hstatus ⊢
    refine .statusOut ⟨?_, ?_⟩ ?_ ?_ rfl
    · exact (congrArg EpView.vttx hreg).trans flags.vttx
    · exact (congrArg EpView.vtrx hreg).trans flags.vtrx
    · rw [hstatus, hwatch]
      exact hcontrol ▸ progress
    · show usbRequestDirection e'.control.request.bmRequestType = 1
      rw [hcontrol]
      exact dir
  · rw [hcomplete]
    have hok : e'.watch.ok = true := hwatch ▸ progress.ok
    have hcloses : e'.watch.Closes := hwatch ▸ progress.closes
    exact .resting ⟨(congrArg EpView.vttx hreg).trans flags.vttx,
      (congrArg EpView.vtrx hreg).trans flags.vtrx⟩ hok hcloses EpState.noConfusion

/-- The next packet of an IN data stage is armed. -/
theorem Ep0.Mode.dataStage_in (flags : e.reg.Flags false false)
    (progress : InProgress e.watch e.control false 0)
    (dir : usbRequestDirection e.control.request.bmRequestType = 1)
    (length : 0 < e.control.request.wLength.toNat)
    (fed : e.control.feed.fedCount ≤ e.control.feed.totalCount)
    (total : e.control.feed.totalCount ≤ e.control.request.wLength.toNat)
    (rx : e.reg.rx ≠ .valid) :
    e.dataStage.Mode pending (.dataIn (dataRemaining e.control)) := by
  obtain ⟨src, n, hn, hqueue, hstage⟩ := e.dataStage_packet dir length fed total
  have hpacket := queueIn_packet e src hn
  have hwatch := watch_dataStage e
  rw [hqueue] at hwatch ⊢
  refine .dataIn ⟨flags.vttx, flags.vtrx⟩ ?_ hstage hpacket.1 hpacket.2 fun hvalid => absurd hvalid rx
  rw [hwatch]
  exact progress

theorem Ep0.Mode.irq_dataIn (flags : e.reg.Flags true false)
    (progress : InProgress e.watch e.control false 1) (stage : InDataStage e.control n)
    (packet : OnePacket e.txFeed n) (receiver : e.reg.rx = .valid → n = 0 ∧ e.rxFeed.fedCount = 0)
    {next : UsbControlRequest} :
    (e.step pending .irq).Mode next (hostAfterIn (dataRemaining e.control) n) := by
  have hwlength : e.control.request.wLength.toNat < 2 ^ 16 := e.control.request.wLength.isLt
  have hwithin := stage.within
  have htotal := stage.total
  have hsize : n ≤ 64 := stage.size
  have hfed := advance_fedCount (n := n) e.control (by omega)
  have hsent : InProgress (e.clearTx.sentIn n).watch (e.clearTx.sentIn n).control false 0 := by
    have hwatch : (e.clearTx.sentIn n).watch = e.watch.observe (.dataStage e.control.request n) :=
      watch_log e.clearTx _
    rw [hwatch]
    exact progress.dataStage n rfl rfl
  have hflags : (e.clearTx.sentIn n).reg.Flags false false := ⟨rfl, flags.vtrx⟩
  -- the device and the host agree on whether the data stage ends
  have hend : e.clearTx.control.request.wLength.toNat =
        (e.clearTx.sentIn n).control.feed.fedCount ∨ n < usbEp0BufferSize ↔
      n < usbEp0BufferSize ∨ dataRemaining e.control ≤ n := by
    show e.control.request.wLength.toNat = (advance e.control n).feed.fedCount ∨ _ ↔ _
    simp only [dataRemaining]
    rw [hfed]
    omega
  show ((e.irqRx pending).irqTx e.reg.vttx).Mode next _
  rw [irqRx_quiet flags.vtrx, flags.vttx, irqTx_packet packet, transfer_in (e := e.clearTx) stage.dir]
  simp only [hostAfterIn]
  by_cases hends : n < usbEp0BufferSize ∨ dataRemaining e.control ≤ n
  · rw [if_pos (hend.mpr hends), if_pos hends]
    exact Mode.dataComplete_in hflags hsent stage.dir
  · have hfull : n = 64 := by
      have hlt : ¬n < 64 := fun h => hends (.inl h)
      omega
    have hremaining : dataRemaining e.control - n = dataRemaining (e.clearTx.sentIn n).control := by
      show _ = e.control.request.wLength.toNat - (advance e.control n).feed.fedCount
      simp only [dataRemaining]
      omega
    rw [if_neg (mt hend.mp hends), if_neg hends, hremaining]
    refine Mode.dataStage_in hflags hsent stage.dir stage.length ?_ htotal fun hvalid => ?_
    · show (advance e.control n).feed.fedCount ≤ e.control.feed.totalCount
      omega
    · have := (receiver hvalid).1
      omega

/-- Both flags: the status stage first, and then the data stage before it. -/
theorem Ep0.Mode.irq_both (flags : e.reg.Flags true true) (setup : e.reg.setup = false)
    (progress : InProgress e.watch e.control true 1) (stage : InDataStage e.control 0)
    (packet : OnePacket e.txFeed 0) (fed : e.rxFeed.fedCount = 0) (count : e.rxCount = 0)
    {next : UsbControlRequest} : (e.step pending .irq).Mode next .idle := by
  obtain ⟨hdone, hreg, hcontrol, htx⟩ := irqRx_acknowledged pending flags.vtrx setup
    progress stage.dir fed count
  show ((e.irqRx pending).irqTx e.reg.vttx).Mode next .idle
  rw [flags.vttx, irqTx_packet (htx ▸ packet)]
  generalize e.irqRx pending = e₁ at hdone hreg hcontrol
  have hin : usbRequestDirection e₁.clearTx.control.request.bmRequestType = 1 := by
    show usbRequestDirection e₁.control.request.bmRequestType = 1
    rw [hcontrol]
    exact stage.dir
  have hwatch : (e₁.clearTx.sentIn 0).watch = e₁.watch.observe (.dataStage e₁.control.request 0) :=
    watch_log e₁.clearTx _
  have hok : (e₁.clearTx.sentIn 0).watch.ok = true := by
    rw [hwatch]
    exact Bool.and_eq_true_iff.mpr ⟨hdone.ok, decide_eq_true (by rw [hdone.hostData]; omega)⟩
  have hcloses : (e₁.clearTx.sentIn 0).watch.Closes := hwatch ▸ hdone.closes
  have hvtrx : (e₁.clearTx.sentIn 0).reg.vtrx = false := congrArg EpView.vtrx hreg
  rw [transfer_in hin, if_pos (.inr (by decide))]
  obtain ⟨hquiet, hflags⟩ := (e₁.clearTx.sentIn 0).dataComplete_frame rfl hvtrx
  exact .resting hflags (hquiet ▸ hok) (hquiet ▸ hcloses) trivial

theorem Ep0.watch_clearRxFeed (e : Ep0) : e.clearRxFeed.watch = e.watch := rfl

/-- The end of an OUT data stage. -/
theorem Ep0.Mode.dataComplete_out (flags : e.reg.Flags false false)
    (progress : InProgress e.watch e.control false 0)
    (dir : usbRequestDirection e.control.request.bmRequestType = 0) :
    e.dataComplete.clearRxFeed.Mode pending .statusIn := by
  obtain ⟨e', hreg, hcontrol, hwatch, hcomplete | hcomplete⟩ := e.dataComplete_cases
  · have hstatus := watch_statusStage e' e.control.request
    have hpacket := queueIn_packet (n := 0) e' .null (by omega)
    rw [hcomplete]
    rw [statusStage_in e' dir] at hstatus ⊢
    have hclear : (e'.queueIn .null 0).clearRxFeed.control = e.control := hcontrol
    refine .statusIn ⟨?_, ?_⟩ ?_ (.inl ?_) hpacket.1
    · exact (congrArg EpView.vttx hreg).trans flags.vttx
    · exact (congrArg EpView.vtrx hreg).trans flags.vtrx
    · rw [hclear, watch_clearRxFeed, hstatus, hwatch]
      exact progress
    · rw [hclear]
      exact dir
  · rw [hcomplete]
    have hok : e'.watch.ok = true := hwatch ▸ progress.ok
    have hcloses : e'.watch.Closes := hwatch ▸ progress.closes
    exact .resting ⟨(congrArg EpView.vttx hreg).trans flags.vttx,
      (congrArg EpView.vtrx hreg).trans flags.vtrx⟩ hok hcloses EpState.noConfusion

theorem Ep0.Mode.irq_dataOut (flags : e.reg.Flags false true) (setup : e.reg.setup = false)
    (progress : InProgress e.watch e.control false 1) (stage : OutDataStage e.control)
    (fed : e.rxFeed.fedCount = 0) (tx : e.reg.tx ≠ .valid)
    (count : e.rxCount = min (dataRemaining e.control) usbEp0BufferSize)
    {next : UsbControlRequest} :
    (e.step pending .irq).Mode next (hostAfterOut (dataRemaining e.control)) := by
  have hwlength : e.control.request.wLength.toNat < 2 ^ 16 := e.control.request.wLength.isLt
  have hwithin := stage.within
  have hbuffer : e.control.feed.buffer ≠ .null := fun hc => stage.buffer (by rw [hc]; rfl)
  have hsize : e.rxCount ≤ 64 := by
    rw [count]
    exact Nat.min_le_right _ _
  have hle : e.rxCount ≤ e.control.request.wLength.toNat - e.control.feed.fedCount := by
    rw [count]
    exact Nat.min_le_left _ _
  have hfed := advance_fedCount (n := e.rxCount) e.control (by omega)
  have hreceived : InProgress (e.rxHandled.receivedOut e.rxCount).watch
      (e.rxHandled.receivedOut e.rxCount).control false 0 := by
    have hwatch : (e.rxHandled.receivedOut e.rxCount).watch =
        e.watch.observe (.dataStage e.control.request e.rxCount) := by
      show PcbMill.watch (_ ++ [_]) = _
      rw [watch_append]
      show PcbMill.watch (_ ++ [_]) = _
      rw [watch_append]
      exact congrArg (Watch.observe · _) (watch_append _ _)
    rw [hwatch]
    exact progress.dataStage e.rxCount rfl rfl
  have hflags : (e.rxHandled.receivedOut e.rxCount).reg.Flags false false := ⟨flags.vttx, rfl⟩
  have hend : e.rxHandled.control.request.wLength.toNat =
        (e.rxHandled.receivedOut e.rxCount).control.feed.fedCount ∨ e.rxCount < usbEp0BufferSize ↔
      dataRemaining e.control ≤ usbEp0BufferSize := by
    show e.control.request.wLength.toNat = (advance e.control e.rxCount).feed.fedCount ∨ _ ↔ _
    simp only [dataRemaining] at count ⊢
    rw [hfed]
    omega
  show ((e.irqRx pending).irqTx e.reg.vttx).Mode next _
  rw [flags.vttx, irqTx_false, irqRx_out flags.vtrx setup fed (by omega),
    transfer_out (e := e.rxHandled) stage.dir hbuffer]
  simp only [hostAfterOut]
  by_cases hends : dataRemaining e.control ≤ usbEp0BufferSize
  · rw [if_pos (hend.mpr hends), if_pos hends]
    exact Mode.dataComplete_out hflags hreceived stage.dir
  · have hremaining : dataRemaining e.control - usbEp0BufferSize =
        dataRemaining (e.rxHandled.receivedOut e.rxCount).control := by
      show _ = e.control.request.wLength.toNat - (advance e.control e.rxCount).feed.fedCount
      simp only [dataRemaining] at count hends ⊢
      omega
    obtain ⟨dst, k, hqueue⟩ := (e.rxHandled.receivedOut e.rxCount).dataStage_out stage.dir
    have hwatch := watch_dataStage (e.rxHandled.receivedOut e.rxCount)
    rw [if_neg (mt hend.mp hends), if_neg hends, hremaining]
    rw [hqueue] at hwatch ⊢
    refine .dataOut ⟨hflags.vttx, hflags.vtrx⟩ ?_ ?_ rfl tx
    · rw [watch_clearRxFeed, hwatch]
      exact hreceived
    · exact { dir := stage.dir, length := stage.length, buffer := stage.buffer
              within := by
                show (advance e.control e.rxCount).feed.fedCount ≤ e.control.request.wLength.toNat
                omega }

/-! ### Steps -/

/-- **An interrupt that keeps the completions apart** leads to the next mode. -/
theorem Ep0.Mode.irq (h : e.Mode pending host) (hseparate : e.Separate pending)
    {next : UsbControlRequest} : (e.step pending .irq).Mode next host := by
  cases h with
  | resting flags ok closes waits => rw [step_quiet flags]; exact .resting flags ok closes waits
  | setupPending vtrx setup count tx rx ok before =>
    exact Mode.irq_setup vtrx setup count tx rx ok before hseparate
  | statusIn flags progress ends packet =>
    rw [step_quiet flags]
    exact .statusIn flags progress ends packet
  | statusInDone flags progress ends packet =>
    exact Mode.irq_statusIn flags progress ends packet hseparate
  | dataIn flags progress stage packet count receiver =>
    rw [step_quiet flags]
    exact .dataIn flags progress stage packet count receiver
  | dataInDone flags progress stage packet _ receiver =>
    exact Mode.irq_dataIn flags progress stage packet receiver
  | statusOut flags progress dir fed =>
    rw [step_quiet flags]
    exact .statusOut flags progress dir fed
  | statusOutDone flags setup progress dir fed count =>
    exact Mode.irq_statusOut flags setup progress dir fed count
  | bothDone flags setup progress stage packet fed count =>
    exact Mode.irq_both flags setup progress stage packet fed count
  | dataOut flags progress stage fed tx =>
    rw [step_quiet flags]
    exact .dataOut flags progress stage fed tx
  | dataOutDone flags setup progress stage fed tx _ count =>
    exact Mode.irq_dataOut flags setup progress stage fed tx count

/-- **An interrupt that mixes completions up** is seen by the observer at once. -/
theorem Ep0.Mode.irq_breaks (h : e.Mode pending host) (hmixed : ¬e.Separate pending) :
    (e.step pending .irq).watch.ok = false := by
  simp only [Ep0.Separate] at hmixed
  simp only [not_forall] at hmixed
  obtain ⟨hvttx, hmixed⟩ := hmixed
  cases h with
  | setupPending vtrx setup count tx rx ok before =>
    obtain ⟨hnot, -⟩ | ⟨-, hpacket, hlate⟩ := before
    · exact absurd (hvttx.symm.trans hnot) (by decide)
    · obtain ⟨m, hstep, hm⟩ := step_late pending vtrx setup count hvttx hpacket
        fun hends => (hlate.ends hends).2.2.2
      rw [hstep]
      refine late_breaks (e := e.clearRx.clearTx) (fun hharmless => hmixed ⟨fun _ => ?_, ?_⟩)
        hlate hm
      · rw [hpacket.fedCount]
        exact hharmless
      · exact fun hnot => absurd ⟨vtrx, setup⟩ hnot
  | statusInDone flags progress ends packet =>
    rcases usbRequestDirection_cases e.control.request.bmRequestType with hout | hin
    · refine absurd ⟨fun hsetup => ?_, fun _ hmis => ?_⟩ hmixed
      · exact absurd (flags.vtrx.symm.trans hsetup.1) Bool.false_ne_true
      · exact absurd (hout.symm.trans hmis.1) (by decide)
    · exact statusIn_breaks flags progress packet hin
  | dataInDone flags _ stage =>
    refine absurd ⟨fun hsetup => ?_, fun _ hmis => ?_⟩ hmixed
    · exact absurd (flags.vtrx.symm.trans hsetup.1) Bool.false_ne_true
    · exact stage.not_endsStatus (.inr hmis.2)
  | bothDone flags setup _ stage =>
    refine absurd ⟨fun hsetup => ?_, fun _ hmis => ?_⟩ hmixed
    · exact absurd (setup.symm.trans hsetup.2) Bool.false_ne_true
    · exact stage.not_endsStatus (.inr hmis.2)
  | resting flags | statusIn flags | dataIn flags | statusOut flags | statusOutDone flags
  | dataOut flags | dataOutDone flags =>
    exact absurd (flags.vttx.symm.trans hvttx) Bool.false_ne_true

/-! ### Runs -/

/-- The device follows EP0, and EP0 and the host are in one of the modes. -/
def ControlInvariant (x : ControlRun) : Prop :=
  ∃ e, Ep0Refines x.usb e ∧ e.Mode (pendingRequest x.usb) x.host

theorem completionsAttributed_iff {s : Usb} (h : Ep0Refines s e) :
    (PcbMill.watch s.trace).ok = true ↔ e.watch.ok = true := by
  simp only [Ep0.watch]
  rw [← h.trace, watch_filter]

theorem separate_iff {s : Usb} (h : Ep0Refines s e) (host : HostPhase) :
    CompletionsSeparate ⟨s, host⟩ .irq ↔ e.Separate (pendingRequest s) := by
  have hvttx : vttx (s.chep 0) = e.reg.vttx := congrArg EpView.vttx h.reg
  have hvtrx : vtrx (s.chep 0) = e.reg.vtrx := congrArg EpView.vtrx h.reg
  have hsetup : setupFlag (s.chep 0) = e.reg.setup := congrArg EpView.setup h.reg
  simp only [CompletionsSeparate, Ep0.Separate, SetupPending]
  rw [hvttx, hvtrx, hsetup, h.control, h.txFeed]

theorem txPacketBytes_length {s : Usb} (h : Ep0Refines s e) :
    (txPacketBytes s 0).length = e.txCount := by
  rw [← h.txCount, txPacketBytes, WordMemory.loadBytes, List.length_map, List.length_range]

/-- What one event keeps. -/
theorem ControlInvariant.step {x : ControlRun} (h : ControlInvariant x) (ev : ControlEvent)
    (hseparate : CompletionsSeparate x ev) : ControlInvariant (controlStep x ev) := by
  obtain ⟨e, href, hmode⟩ := h
  obtain ⟨s, host⟩ := x
  have htx : epState (s.chep 0) 1 = e.reg.tx := congrArg EpView.tx href.reg
  cases ev with
  | setup r =>
    simp only [controlStep]
    split
    · rename_i hok
      refine ⟨e.setup r, href.setup r, ?_⟩
      rw [pendingRequest_busSetup href.ready hok]
      exact hmode.setup (href.setupOk.symm.trans hok) r
    · exact ⟨e, href, hmode⟩
  | poll =>
    simp only [controlStep]
    split
    · rename_i hvalid
      rw [htx] at hvalid
      cases host with
      | dataIn remaining =>
        refine ⟨_, href.poll.log rfl, ?_⟩
        rw [txPacketBytes_length href]
        exact hmode.pollData hvalid
      | statusIn => exact ⟨_, href.poll.log rfl, hmode.pollStatus hvalid⟩
      | idle | dataOut | statusOut => exact ⟨e, href, hmode⟩
    · exact ⟨e, href, hmode⟩
  | out data =>
    simp only [controlStep]
    split
    · rename_i hok
      rw [href.outOk] at hok
      cases host with
      | dataOut remaining =>
        dsimp only
        split
        · exact ⟨_, (href.out data).log rfl, hmode.outData hok ‹_›⟩
        · exact ⟨e, href, hmode⟩
      | statusOut =>
        dsimp only
        split
        · rename_i hempty
          subst hempty
          exact ⟨_, (href.out []).log rfl, hmode.outStatus hok⟩
        · exact ⟨e, href, hmode⟩
      | idle | dataIn | statusIn => exact ⟨e, href, hmode⟩
    · exact ⟨e, href, hmode⟩
  | irq => exact ⟨_, href.step .irq, hmode.irq ((separate_iff href host).mp hseparate)⟩

theorem controlInvariant_boot : ControlInvariant controlBoot :=
  ⟨ep0Boot, ep0Refines_boot,
    .resting ⟨rfl, rfl⟩ rfl (fun hack => absurd hack Bool.false_ne_true) trivial⟩

/-- **Completions, exactly**: in every run of control transfers from initialisation, with SETUP
packets, data and status packets and interrupts in any order, every completion is attributed
rightly if and only if every interrupt that finds a finished IN stage finds it with a SETUP
packet behind which it does no harm, or without one and not misdirected. -/
theorem completions_attributed_iff (es : List ControlEvent) :
    Always controlStep CompletionsAttributed controlBoot es ↔
      Guarded controlStep CompletionsSeparate controlBoot es := by
  refine always_iff_guarded (I := ControlInvariant) ?_ ?_ ?_ controlInvariant_boot
  · rintro x ⟨e, href, hmode⟩
    exact (completionsAttributed_iff href).mpr hmode.ok
  · exact fun x ev h hseparate => h.step ev hseparate
  · rintro x ev ⟨e, href, hmode⟩ hmixed hok
    cases ev with
    | irq =>
      have hbroken := hmode.irq_breaks (mt (separate_iff href x.host).mpr hmixed)
      have hgood := (completionsAttributed_iff (href.step .irq)).mp hok
      exact absurd (hbroken.symm.trans hgood) Bool.false_ne_true
    | setup | poll | out => exact hmixed trivial

/-- GET_DESCRIPTOR for the device descriptor. -/
def getDeviceDescriptor : UsbControlRequest :=
  { bmRequestType := 0x80#8, bRequest := usbStdGetDescriptor, wValue := 0x0100#16, wIndex := 0#16
    wLength := 18#16 }

/-- The status stage of SET_ADDRESS and the next SETUP packet reach one interrupt. -/
theorem setAddress_completion_lost :
    ¬Always controlStep CompletionsAttributed controlBoot
      [.setup setAddressFive, .irq, .poll, .setup getDeviceDescriptor, .irq] := by
  intro h
  have hlast := h.last
  revert hlast
  decide

end PcbMill
