import PcbMill.Usb.ControlStages
import PcbMill.Usb.Ep0Run

/-!
# The control endpoint as a machine of its own

What EP0 is for, without registers, packet memory and endpoint tables: the two directions and
their flags, the capacity of the receive buffer, one transfer record for each direction, and
the control transfer.  `Usb/Ep0Refinement.lean` shows that the firmware and the hardware
follow it step by step.
-/

namespace PcbMill

open FixedWidth

/-- The control endpoint. -/
structure Ep0 where
  reg : EpView
  /-- The bytes the receive buffer is programmed for. -/
  rxCapacity : ℕ
  /-- The bytes of the last packet in the receive buffer. -/
  rxCount : ℕ
  /-- The bytes of the packet in the transmit buffer. -/
  txCount : ℕ
  rxFeed : FeedForwardBuffer
  txFeed : FeedForwardBuffer
  control : ControlTransfer
  trace : List UsbEvent

/-- The events EP0 has a part in.  Packets to the host are left to the results on their
contents. -/
def UsbEvent.isEp0 : UsbEvent → Bool
  | .queued epIdn _ _ => epIdn == 0
  | .txPacket _ _ => false
  | _ => true

namespace Ep0

def log (e : Ep0) (ev : UsbEvent) : Ep0 := { e with trace := e.trace ++ [ev] }

/-! ### Queueing -/

/-- The receive buffer programmed for a transfer of at most 64 bytes. -/
def program (e : Ep0) (n : ℕ) : Ep0 :=
  { e with rxCapacity := if 62 < n then 64 else 2 * ((n + 1) / 2), rxCount := 0 }

/-- The next packet of the transmission record goes out. -/
def sendPacket (e : Ep0) : Ep0 :=
  let len := feedForwardRemainingCount e.txFeed usbEp0BufferSize
  { e with
    txFeed := { e.txFeed with fedCount := add16 e.txFeed.fedCount len }
    txCount := len
    reg := { e.reg with tx := .valid } }

def queueIn (e : Ep0) (buffer : Ptr) (n : ℕ) : Ep0 :=
  let feed : FeedForwardBuffer := { buffer := buffer, totalCount := n, fedCount := 0 }
  sendPacket { e.log (.queued 0 1 n) with txFeed := feed }

def queueOut (e : Ep0) (buffer : Ptr) (n : ℕ) : Ep0 :=
  { (e.log (.queued 0 0 n)).program n with
    rxFeed := { buffer := buffer, totalCount := n, fedCount := 0 }
    reg := { e.reg with rx := .valid } }

def queue (e : Ep0) (dirIdx : ℕ) (buffer : Ptr) (n : ℕ) : Ep0 :=
  if dirIdx = 1 then e.queueIn buffer n else e.queueOut buffer n

/-! ### Stages -/

def statusStage (e : Ep0) (r : UsbControlRequest) : Ep0 :=
  e.queue (1 - usbRequestDirection r.bmRequestType) .null 0

def dataStage (e : Ep0) : Ep0 :=
  let len := feedForwardRemainingCount e.control.feed usbEp0BufferSize
  e.queue (usbRequestDirection e.control.request.bmRequestType)
    (if 0 < len then ⟨.ep0ControlBuffer, 0⟩ else .null) len

def initStatusStage (e : Ep0) (r : UsbControlRequest) : Ep0 :=
  statusStage { e with control := { e.control with
    request := r, feed := { buffer := .null, fedCount := 0, totalCount := 0 } } } r

def response (e : Ep0) (r : UsbControlRequest) (buffer : Ptr) (len : ℕ) : Ep0 :=
  let e := { e with control := { e.control with
      request := r
      feed := { buffer := buffer, fedCount := 0
                totalCount := if len < r.wLength.toNat then len else r.wLength.toNat } } }
  if 0 < r.wLength.toNat then e.dataStage else e.statusStage r

/-! ### SETUP packets -/

def setCb (e : Ep0) (cb : Option ControlCompleteCb) : Ep0 :=
  { e with control := { e.control with controlCompleteCb := cb } }

/-- The STAT field of a direction. -/
def setState (e : Ep0) (dirIdx : ℕ) (st : EpState) : Ep0 :=
  { e with reg := if dirIdx = 1 then { e.reg with tx := st } else { e.reg with rx := st } }

/-- A feature request to endpoint 0 stalls or disables one of its directions. -/
def endpointFeature (e : Ep0) (r : UsbControlRequest) : Ep0 :=
  let epAddr := u16Low (r.wIndex &&& 0xFF#16)
  if r.wValue = usbFeatureEndpointHalt ∧ usbEpIdn epAddr = 0 then
    e.setState (usbEpDirIdx epAddr)
      (if r.bRequest = usbStdClearFeature then .disabled else .stall)
  else e

/-- A SETUP packet, handled. -/
def handle (e : Ep0) (r : UsbControlRequest) : Ep0 :=
  match requestAction r with
  -- both calls of the stall routine act on the receiver
  | .reject =>
    (((e.setCb (rejectCb r)).setState 0 .stall).setState 0 .stall).log (.setupHandled r false)
  | .response buffer len => ((e.setCb (requestCb r)).response r buffer len).log (.setupHandled r true)
  | .status => ((e.setCb (requestCb r)).initStatusStage r).log (.setupHandled r true)
  | .setConfiguration => ((e.setCb (requestCb r)).initStatusStage r).log (.setupHandled r true)
  | .setAddress =>
    (((e.setCb (requestCb r)).initStatusStage r).queue 1 .null 0).log (.setupHandled r true)
  | .endpointFeature => ((e.setCb (requestCb r)).endpointFeature r).log (.setupHandled r true)

/-! ### Completions -/

/-- The CDC driver knows the request. -/
def cdcAccepts (r : UsbControlRequest) : Bool :=
  usbRequestType r.bmRequestType = .classSpecific && classAction r != .reject

/-- A callback after the SETUP stage: whether it accepts. -/
def callback (e : Ep0) (cb : ControlCompleteCb) (stage : ControlStage) : Bool × Ep0 :=
  let e := e.log (.callback cb stage e.control.request)
  match cb with
  | .usbDeviceSetAddressComplete => (true, if stage = .status then e.program 8 else e)
  | .usbCdcControlTransfer => (cdcAccepts e.control.request, e)

def dataCallback (e : Ep0) : Bool × Ep0 :=
  match e.control.controlCompleteCb with
  | some cb => e.callback cb .data
  | none => (true, e)

def dataComplete (e : Ep0) : Ep0 :=
  let (ok, e) := e.dataCallback
  if ok then e.statusStage e.control.request
  else (e.setState 0 .stall).setState 1 .stall

/-- `n` more bytes of the response are done. -/
def advance (c : ControlTransfer) (n : ℕ) : ControlTransfer :=
  { c with feed := { c.feed with
      fedCount := add16 c.feed.fedCount (u16 n), buffer := c.feed.buffer.add n } }

def dataReceived (e : Ep0) (n : ℕ) : Ep0 :=
  let c := e.control
  if usbRequestDirection c.request.bmRequestType = 0 then
    { e.log (.controlStored c.request c.feed.buffer n) with control := advance c n }
  else { e with control := advance c n }

/-- The completion of a packet of `n` bytes in a direction. -/
def transfer (e : Ep0) (dirIdx n : ℕ) : Ep0 :=
  let r := e.control.request
  let feed := e.control.feed
  if usbRequestDirection r.bmRequestType ≠ dirIdx then
    if n ≠ 0 then e
    else match e.control.controlCompleteCb with
      | some cb => (e.callback cb .status).2
      | none => e
  else
    let e := e.log (.dataStage r n)
    if usbRequestDirection r.bmRequestType = 0 ∧ feed.buffer = .null then e
    else
      let e := e.dataReceived n
      if r.wLength.toNat = e.control.feed.fedCount ∨ n < usbEp0BufferSize then e.dataComplete
      else e.dataStage

/-! ### The interrupt handler -/

/-- The received packet is copied to the receive record's buffer. -/
def rxStore (e : Ep0) : Ep0 :=
  let n := e.rxCount
  let dst := e.rxFeed.buffer.add e.rxFeed.fedCount
  { (e.log (.rxStored 0 dst n)).program usbEp0BufferSize with
    rxFeed := { e.rxFeed with fedCount := add16 e.rxFeed.fedCount n } }

def clearRxFeed (e : Ep0) : Ep0 :=
  { e with rxFeed := { e.rxFeed with totalCount := 0, fedCount := 0 } }

def rxPacket (e : Ep0) : Ep0 := (e.rxStore.transfer 0 e.rxStore.rxFeed.fedCount).clearRxFeed

/-- The VTRX half of an iteration; `r` is the SETUP packet in the receive buffer. -/
def irqRx (e : Ep0) (r : UsbControlRequest) : Ep0 :=
  let cleared := { e with reg := { e.reg with vtrx := false } }
  if e.reg.vtrx then
    if e.reg.setup then
      if e.rxCount = 8 then cleared.handle r else cleared.program 8
    else cleared.rxPacket
  else e

/-- The VTTX half of an iteration, with the flag read at its start. -/
def irqTx (e : Ep0) (vttx : Bool) : Ep0 :=
  if vttx then
    let e := { e with reg := { e.reg with vttx := false } }
    if e.txFeed.totalCount ≠ e.txFeed.fedCount then e.sendPacket
    else e.transfer 1 e.txFeed.fedCount
  else e

/-! ### The bus -/

def setupOk (e : Ep0) : Bool :=
  !e.reg.vtrx && e.reg.rx != .disabled && decide (8 ≤ e.rxCapacity)

def setup (e : Ep0) (r : UsbControlRequest) : Ep0 :=
  if e.setupOk then
    log { e with reg := { e.reg with tx := .nak, rx := .nak, vtrx := true, setup := true }
                 rxCount := 8 } (.setupPacket r)
  else e

def outOk (e : Ep0) (data : List Byte) : Bool :=
  e.reg.rx == .valid && decide (data.length ≤ e.rxCapacity)

def out (e : Ep0) (data : List Byte) : Ep0 :=
  if e.outOk data then
    log { e with reg := { e.reg with rx := .nak, vtrx := true, setup := false }
                 rxCount := data.length } (.rxPacket 0 data)
  else e

def poll (e : Ep0) : Ep0 :=
  if e.reg.tx = .valid then { e with reg := { e.reg with tx := .nak, vttx := true } } else e

/-- The control transfer after a bus reset. -/
def noTransfer : ControlTransfer :=
  { feed := { buffer := .null, totalCount := 0, fedCount := 0 }
    request := { bmRequestType := 0#8, bRequest := 0#8, wValue := 0#16, wIndex := 0#16
                 wLength := 0#16 }
    controlCompleteCb := none }

def reset (e : Ep0) : Ep0 :=
  { e.program 8 with
    reg := { tx := .nak, rx := .nak, vttx := false, vtrx := false, setup := e.reg.setup }
    control := noTransfer }

/-- A step; `r` is the SETUP packet in the receive buffer, if there is one. -/
def step (e : Ep0) (r : UsbControlRequest) : Ep0Event → Ep0
  | .reset => e.reset
  | .setup r' => e.setup r'
  | .out data => e.out data
  | .poll => e.poll
  | .irq => (e.irqRx r).irqTx e.reg.vttx

/-! ### The cases of a completion -/

/-- A packet against the direction of the request ends its status stage. -/
theorem transfer_status {e : Ep0} {dirIdx : ℕ}
    (h : usbRequestDirection e.control.request.bmRequestType ≠ dirIdx) :
    e.transfer dirIdx 0 =
      match e.control.controlCompleteCb with
      | some cb => (e.callback cb .status).2
      | none => e := by
  simp only [transfer]
  rw [if_pos h, if_neg (not_not.mpr rfl)]

theorem transfer_status_data {e : Ep0} {dirIdx n : ℕ}
    (h : usbRequestDirection e.control.request.bmRequestType ≠ dirIdx) (hn : n ≠ 0) :
    e.transfer dirIdx n = e := by
  simp only [transfer]
  rw [if_pos h, if_pos hn]

/-- The state after a packet of an IN data stage, before the next stage is queued. -/
def sentIn (e : Ep0) (n : ℕ) : Ep0 :=
  { e.log (.dataStage e.control.request n) with control := advance e.control n }

/-- The same for an OUT data stage. -/
def receivedOut (e : Ep0) (n : ℕ) : Ep0 :=
  { (e.log (.dataStage e.control.request n)).log
      (.controlStored e.control.request e.control.feed.buffer n) with
    control := advance e.control n }

theorem transfer_in {e : Ep0} (h : usbRequestDirection e.control.request.bmRequestType = 1)
    (n : ℕ) :
    e.transfer 1 n =
      if e.control.request.wLength.toNat = (e.sentIn n).control.feed.fedCount ∨
          n < usbEp0BufferSize then (e.sentIn n).dataComplete
      else (e.sentIn n).dataStage := by
  have hout : ¬usbRequestDirection e.control.request.bmRequestType = 0 := by omega
  have hreceived : (e.log (.dataStage e.control.request n)).dataReceived n = e.sentIn n :=
    if_neg hout
  simp only [transfer]
  rw [if_neg (not_not.mpr h), if_neg (fun hc => hout hc.1), hreceived]

theorem transfer_out {e : Ep0} (h : usbRequestDirection e.control.request.bmRequestType = 0)
    (hbuffer : e.control.feed.buffer ≠ .null) (n : ℕ) :
    e.transfer 0 n =
      if e.control.request.wLength.toNat = (e.receivedOut n).control.feed.fedCount ∨
          n < usbEp0BufferSize then (e.receivedOut n).dataComplete
      else (e.receivedOut n).dataStage := by
  have hreceived : (e.log (.dataStage e.control.request n)).dataReceived n = e.receivedOut n :=
    if_pos h
  simp only [transfer]
  rw [if_neg (not_not.mpr h), if_neg (fun hc => hbuffer hc.2), hreceived]

/-! ### The cases of an interrupt -/

/-- The state in which the completion of a received packet finds EP0. -/
def rxHandled (e : Ep0) : Ep0 := rxStore { e with reg := { e.reg with vtrx := false } }

theorem irqRx_out {e : Ep0} {r : UsbControlRequest} (hvtrx : e.reg.vtrx = true)
    (hsetup : e.reg.setup = false) (hfed : e.rxFeed.fedCount = 0) (hfits : e.rxCount < 2 ^ 16) :
    e.irqRx r = (e.rxHandled.transfer 0 e.rxCount).clearRxFeed := by
  have hcount : e.rxHandled.rxFeed.fedCount = e.rxCount := by
    show add16 e.rxFeed.fedCount e.rxCount = e.rxCount
    rw [hfed, add16_of_lt (by omega), Nat.zero_add]
  have hrx : e.irqRx r = (e.rxHandled.transfer 0 e.rxHandled.rxFeed.fedCount).clearRxFeed := by
    simp only [irqRx]
    rw [if_pos hvtrx, if_neg (by rw [hsetup]; decide)]
    rfl
  rw [hrx, hcount]

/-! ### The trace only grows -/

theorem trace_log (e : Ep0) (ev : UsbEvent) : e.trace <+: (e.log ev).trace :=
  List.prefix_append _ _

theorem trace_queue (e : Ep0) (dirIdx : ℕ) (buffer : Ptr) (n : ℕ) :
    e.trace <+: (e.queue dirIdx buffer n).trace := by
  simp only [queue]
  split
  · exact List.prefix_append _ _
  · exact List.prefix_append _ _

theorem trace_callback (e : Ep0) (cb : ControlCompleteCb) (stage : ControlStage) :
    e.trace <+: (e.callback cb stage).2.trace := by
  simp only [callback]
  cases cb with
  | usbDeviceSetAddressComplete =>
    dsimp only
    split
    · exact List.prefix_append _ _
    · exact List.prefix_append _ _
  | usbCdcControlTransfer => exact List.prefix_append _ _

theorem trace_dataComplete (e : Ep0) : e.trace <+: e.dataComplete.trace := by
  have hcb : e.trace <+: e.dataCallback.2.trace := by
    simp only [dataCallback]
    split
    · exact trace_callback ..
    · exact List.prefix_rfl
  simp only [dataComplete]
  split
  · exact hcb.trans (trace_queue ..)
  · exact hcb

theorem trace_dataReceived (e : Ep0) (n : ℕ) : e.trace <+: (e.dataReceived n).trace := by
  simp only [dataReceived]
  split
  · exact List.prefix_append _ _
  · exact List.prefix_rfl

/-- A completion taken for one of the data stage says so first. -/
theorem trace_transfer_data {e : Ep0} {dirIdx : ℕ}
    (h : usbRequestDirection e.control.request.bmRequestType = dirIdx) (n : ℕ) :
    (e.log (.dataStage e.control.request n)).trace <+: (e.transfer dirIdx n).trace := by
  simp only [transfer]
  rw [if_neg (not_not.mpr h)]
  split
  · exact List.prefix_rfl
  · have hreceived := trace_dataReceived (e.log (.dataStage e.control.request n)) n
    split
    · exact hreceived.trans (trace_dataComplete _)
    · exact hreceived.trans (trace_queue ..)

theorem trace_transfer (e : Ep0) (dirIdx n : ℕ) : e.trace <+: (e.transfer dirIdx n).trace := by
  by_cases hdir : usbRequestDirection e.control.request.bmRequestType = dirIdx
  · exact (trace_log _ _).trans (trace_transfer_data hdir n)
  · simp only [transfer]
    rw [if_pos hdir]
    split
    · exact List.prefix_rfl
    · split
      · exact trace_callback ..
      · exact List.prefix_rfl

theorem trace_irqTx (e : Ep0) (vttx : Bool) : e.trace <+: (e.irqTx vttx).trace := by
  simp only [irqTx]
  split
  · split
    · exact List.prefix_rfl
    · exact trace_transfer { e with reg := { e.reg with vttx := false } } 1 e.txFeed.fedCount
  · exact List.prefix_rfl

/-! ### No completion of a sent packet flags a received one -/

theorem queue_vtrx (e : Ep0) (dirIdx : ℕ) (buffer : Ptr) (n : ℕ) :
    (e.queue dirIdx buffer n).reg.vtrx = e.reg.vtrx := by
  simp only [queue]
  split
  · rfl
  · rfl

theorem callback_vtrx (e : Ep0) (cb : ControlCompleteCb) (stage : ControlStage) :
    (e.callback cb stage).2.reg.vtrx = e.reg.vtrx := by
  cases cb with
  | usbDeviceSetAddressComplete =>
    simp only [callback]
    split
    · rfl
    · rfl
  | usbCdcControlTransfer => rfl

theorem dataComplete_vtrx (e : Ep0) : e.dataComplete.reg.vtrx = e.reg.vtrx := by
  have hcb : e.dataCallback.2.reg.vtrx = e.reg.vtrx := by
    simp only [dataCallback]
    split
    · exact callback_vtrx ..
    · rfl
  simp only [dataComplete]
  split
  · exact (queue_vtrx ..).trans hcb
  · exact hcb

theorem dataReceived_vtrx (e : Ep0) (n : ℕ) : (e.dataReceived n).reg.vtrx = e.reg.vtrx := by
  simp only [dataReceived]
  split
  · rfl
  · rfl

theorem transfer_vtrx (e : Ep0) (dirIdx n : ℕ) : (e.transfer dirIdx n).reg.vtrx = e.reg.vtrx := by
  simp only [transfer]
  split
  · split
    · rfl
    · split
      · exact callback_vtrx ..
      · rfl
  · split
    · rfl
    · split
      · exact (dataComplete_vtrx _).trans (dataReceived_vtrx ..)
      · exact (queue_vtrx ..).trans (dataReceived_vtrx ..)

theorem irqTx_vtrx (e : Ep0) (flag : Bool) : (e.irqTx flag).reg.vtrx = e.reg.vtrx := by
  simp only [irqTx]
  split
  · split
    · rfl
    · exact transfer_vtrx ..
  · rfl

end Ep0

end PcbMill
