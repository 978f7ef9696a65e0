import PcbMill.Usb.CdcPipe
import PcbMill.Usb.Ep0Run
import PcbMill.Usb.PacketMemory

/-!
# The CDC data path refines the pipe

The bulk endpoints share slot 2, with the received packet at address 200 of the packet memory
and the transmitted one at 264.  A state read as a pipe forgets the transfer records, the
staging buffers and the descriptors; `CdcRefines` says what they hold meanwhile, and each
operation of the driver, each transaction of the host and each half of an iteration of the
interrupt handler is the operation of the same name on the pipe.
-/

namespace PcbMill

open FixedWidth WordMemory Segment Run

/-! ### The system -/

/-- The slot SET_CONFIGURATION assigns to the bulk endpoints. -/
abbrev cdcEpIdn : ℕ := 2

def cdcAct (s : Usb) : CdcAction → Usb
  | .read bufsize => (usbCdcRead s bufsize).2
  | .write buffer => (usbCdcWrite s buffer).2
  | .flush => (usbCdcWriteEp s).2
  | .arrive packet => busOut s cdcEpIdn packet
  | .poll => busIn s cdcEpIdn

def cdcCallbacks (rxCb txCompleteCb : Option (List CdcAction)) : CdcCallbacks :=
  { usbCdcRxCb := rxCb.map fun script s => runFrom cdcAct s script
    usbCdcTxCompleteCb := txCompleteCb.map fun script s => runFrom cdcAct s script }

def cdcStep (s : Usb) : CdcEvent → Usb
  | .act a => cdcAct s a
  | .irq rxCb txCompleteCb => usbIrqCtr (cdcCallbacks rxCb txCompleteCb) s cdcEpIdn

def setConfigurationOne : UsbControlRequest :=
  { bmRequestType := 0x00#8, bRequest := usbStdSetConfiguration, wValue := 1#16
    wIndex := 0#16, wLength := 0#16 }

/-- The device after the host has configured it. -/
def cdcBoot : Usb := runFrom ep0Step usbBoot [.setup setConfigurationOne, .irq, .poll, .irq]

/-! ### Streams -/

def UsbEvent.acceptedBytes : UsbEvent → List Byte
  | .rxPacket 2 bytes => bytes
  | _ => []

def UsbEvent.returnedBytes : UsbEvent → List Byte
  | .cdcRead bytes => bytes
  | _ => []

def UsbEvent.writtenBytes : UsbEvent → List Byte
  | .cdcWrite bytes => bytes
  | _ => []

def UsbEvent.sentBytes : UsbEvent → List Byte
  | .txPacket 2 bytes => bytes
  | _ => []

/-- The bytes of the bulk OUT packets the hardware accepted. -/
def cdcAccepted (s : Usb) : List Byte := s.trace.flatMap UsbEvent.acceptedBytes

/-- The bytes `usb_cdc_read` returned. -/
def cdcReturned (s : Usb) : List Byte := s.trace.flatMap UsbEvent.returnedBytes

/-- The bytes `usb_cdc_write` took. -/
def cdcWritten (s : Usb) : List Byte := s.trace.flatMap UsbEvent.writtenBytes

/-- The bytes of the bulk IN packets the host received. -/
def cdcSent (s : Usb) : List Byte := s.trace.flatMap UsbEvent.sentBytes

/-- The packet the receive descriptor describes. -/
def rxPacketBytes (s : Usb) (epIdn : ℕ) : List Byte :=
  loadBytes s.pma (descAddr (rxDesc s epIdn)) (descCount (rxDesc s epIdn))

def cdcPipe (s : Usb) : CdcPipe where
  reg := epView (s.chep cdcEpIdn)
  ring := s.usbCdc.rxBuffer.contents
  received := rxPacketBytes s cdcEpIdn
  sending := txPacketBytes s cdcEpIdn
  accepted := cdcAccepted s
  returned := cdcReturned s
  written := cdcWritten s
  sent := cdcSent s

/-! ### What the forgotten variables hold -/

/-- The device is configured, both rings are in order and nothing is left to flush. -/
structure CdcConfigured (d : UsbDevice) (c : UsbCdc) : Prop where
  configNum : d.configNum ≠ 0#8
  epAddrIn : c.epAddrIn = 0x82#8
  epAddrOut : c.epAddrOut = 0x02#8
  rxRing : c.rxBuffer.Wf
  rxSize : c.rxBuffer.size = usbCdcEpBufferSize
  txRing : c.txBuffer.Wf
  txSize : c.txBuffer.size = usbCdcEpBufferSize
  txEmpty : c.txBuffer.contents = []

/-- While the receive callback runs, the record may still count the packet it is about. -/
structure CdcRxSlot (fed : ℕ) (desc : Word) (t : EpTransfer) : Prop where
  addr : descAddr desc = 200
  capacity : descCapacity desc = usbCdcEpBufferSize
  buffer : t.feed.buffer = ⟨.epOutBuffer, 0⟩
  maxPacketSize : t.maxPacketSize = usbCdcEpBufferSize
  fed : t.feed.fedCount = 0 ∨ t.feed.fedCount = fed

/-- The record of a transfer that fits one packet has been fed to the packet memory. -/
structure CdcTxSlot (desc : Word) (t : EpTransfer) : Prop where
  addr : descAddr desc = 264
  maxPacketSize : t.maxPacketSize = usbCdcEpBufferSize
  epIdn : t.epIdn = cdcEpIdn
  total : t.feed.totalCount = descCount desc
  fed : t.feed.fedCount = descCount desc
  short : descCount desc < usbCdcEpBufferSize

/-- The staging buffer and the record of a transfer hold the packet. -/
structure CdcStaged (s : Usb) (packet : List Byte) : Prop where
  buffer : (s.epTransferSet cdcEpIdn 1).feed.buffer = ⟨.epInBuffer, 0⟩
  load : s.load ⟨.epInBuffer, 0⟩ (s.epTransferSet cdcEpIdn 1).feed.totalCount = packet

structure CdcRefines (fed : ℕ) (s : Usb) (c : CdcPipe) : Prop where
  configured : CdcConfigured s.usbDevice s.usbCdc
  rxSlot : CdcRxSlot fed (rxDesc s cdcEpIdn) (s.epTransferSet cdcEpIdn 0)
  txSlot : CdcTxSlot (txDesc s cdcEpIdn) (s.epTransferSet cdcEpIdn 1)
  staged : c.reg.tx = .valid → CdcStaged s c.sending
  pipe : cdcPipe s = c
  wf : c.Wf

variable {fed : ℕ} {s : Usb} {c : CdcPipe}

theorem trace_log (s : Usb) (e : UsbEvent) (f : UsbEvent → List Byte) :
    (s.log e).trace.flatMap f = s.trace.flatMap f ++ f e := by
  show (s.trace ++ [e]).flatMap f = _
  rw [List.flatMap_append, List.flatMap_singleton]

/-! ### The side an operation leaves alone -/

/-- The variables of the transmit side are kept. -/
structure CdcTxKept (s s' : Usb) : Prop where
  desc : txDesc s' cdcEpIdn = txDesc s cdcEpIdn
  words : ∀ w, 66 ≤ w → s'.pma w = s.pma w
  record : s'.epTransferSet cdcEpIdn 1 = s.epTransferSet cdcEpIdn 1
  memory : s'.memory .epInBuffer = s.memory .epInBuffer

/-- The variables of the receive side are kept. -/
structure CdcRxKept (s s' : Usb) : Prop where
  desc : rxDesc s' cdcEpIdn = rxDesc s cdcEpIdn
  words : ∀ w, w < 66 → w ≠ 4 → s'.pma w = s.pma w
  record : s'.epTransferSet cdcEpIdn 0 = s.epTransferSet cdcEpIdn 0

theorem CdcTxKept.packet {s' : Usb} (hkept : CdcTxKept s s')
    (h : CdcTxSlot (txDesc s cdcEpIdn) (s.epTransferSet cdcEpIdn 1)) :
    txPacketBytes s' cdcEpIdn = txPacketBytes s cdcEpIdn := by
  have haddr := h.addr
  simp only [txPacketBytes]
  rw [hkept.desc]
  apply loadBytes_congr
  intro w hw _
  exact hkept.words w (by omega)

theorem CdcTxKept.staged {s' : Usb} (hkept : CdcTxKept s s') {packet : List Byte}
    (h : CdcStaged s packet) : CdcStaged s' packet where
  buffer := by
    rw [hkept.record]
    exact h.buffer
  load := by
    show readSegment (s'.memory .epInBuffer) 0 (s'.epTransferSet cdcEpIdn 1).feed.totalCount = packet
    rw [hkept.record, hkept.memory]
    exact h.load

theorem CdcRxKept.packet {s' : Usb} (hkept : CdcRxKept s s')
    (h : CdcRxSlot fed (rxDesc s cdcEpIdn) (s.epTransferSet cdcEpIdn 0))
    (hcount : descCount (rxDesc s cdcEpIdn) ≤ usbCdcEpBufferSize) :
    rxPacketBytes s' cdcEpIdn = rxPacketBytes s cdcEpIdn := by
  have haddr := h.addr
  simp only [usbCdcEpBufferSize] at hcount
  simp only [rxPacketBytes]
  rw [hkept.desc]
  apply loadBytes_congr
  intro w hw hlast
  exact hkept.words w (by omega) (by omega)

theorem CdcRefines.rxCount (h : CdcRefines fed s c) :
    descCount (rxDesc s cdcEpIdn) = c.received.length := by
  rw [← h.pipe]
  exact (loadBytes_length ..).symm

/-- An operation of the receive side. -/
theorem CdcRefines.rxSide (h : CdcRefines fed s c) {s' : Usb} {c' : CdcPipe} (hkept : CdcTxKept s s')
    (hconf : CdcConfigured s'.usbDevice s'.usbCdc)
    (hslot : CdcRxSlot fed (rxDesc s' cdcEpIdn) (s'.epTransferSet cdcEpIdn 0))
    (hpipe : txPacketBytes s' cdcEpIdn = c.sending → cdcPipe s' = c')
    (hreg : c'.reg.tx = c.reg.tx) (hsending : c'.sending = c.sending) (hwf : c'.Wf) :
    CdcRefines fed s' c' where
  configured := hconf
  rxSlot := hslot
  txSlot := by
    rw [hkept.desc, hkept.record]
    exact h.txSlot
  staged := by
    rw [hreg, hsending]
    exact fun hvalid => hkept.staged (h.staged hvalid)
  pipe := by
    apply hpipe
    rw [hkept.packet h.txSlot, ← h.pipe]
    rfl
  wf := hwf

/-- An operation of the transmit side. -/
theorem CdcRefines.txSide (h : CdcRefines fed s c) {s' : Usb} {c' : CdcPipe} (hkept : CdcRxKept s s')
    (hconf : CdcConfigured s'.usbDevice s'.usbCdc)
    (hslot : CdcTxSlot (txDesc s' cdcEpIdn) (s'.epTransferSet cdcEpIdn 1))
    (hstaged : c'.reg.tx = .valid → CdcStaged s' c'.sending)
    (hpipe : rxPacketBytes s' cdcEpIdn = c.received → cdcPipe s' = c') (hwf : c'.Wf) :
    CdcRefines fed s' c' where
  configured := hconf
  rxSlot := by
    rw [hkept.desc, hkept.record]
    exact h.rxSlot
  txSlot := hslot
  staged := hstaged
  pipe := by
    apply hpipe
    rw [hkept.packet h.rxSlot (h.rxCount.trans_le h.wf.size), ← h.pipe]
    rfl
  wf := hwf

/-! ### Arming the receiver -/

theorem CdcRefines.queueOut (h : CdcRefines fed s c) (hring : c.ring = []) :
    CdcRefines fed (usbEpQueueTransferHal s cdcEpIdn 0 ⟨.epOutBuffer, 0⟩ usbCdcEpBufferSize).2
      { c with reg := { c.reg with rx := .valid }, received := [] } := by
  have hdesc : rxDesc (usbEpQueueTransferHal s cdcEpIdn 0 ⟨.epOutBuffer, 0⟩ usbCdcEpBufferSize).2
      cdcEpIdn = descSetBlocks (rxDesc s cdcEpIdn) 64 := rfl
  have hkept : CdcTxKept s
      (usbEpQueueTransferHal s cdcEpIdn 0 ⟨.epOutBuffer, 0⟩ usbCdcEpBufferSize).2 := by
    refine ⟨rfl, ?_, rfl, rfl⟩
    intro w hw
    exact Function.update_of_ne (show w ≠ 5 by omega) _ _
  refine h.rxSide hkept h.configured ?_ ?_ rfl rfl ?_
  · rw [hdesc]
    exact
      { addr := (descAddr_descSetBlocks ..).trans h.rxSlot.addr
        capacity := descCapacity_descSetBlocks _ (by decide)
        buffer := rfl
        maxPacketSize := h.rxSlot.maxPacketSize
        fed := .inl rfl }
  · intro hsending
    have hpipe := h.pipe
    subst hpipe
    apply CdcPipe.ext
    · exact epView_rxValid _ (by decide)
    · rfl
    · show rxPacketBytes _ cdcEpIdn = []
      simp only [rxPacketBytes]
      rw [hdesc, descCount_descSetBlocks]
      rfl
    · exact hsending
    all_goals exact (trace_log ..).trans (List.append_nil _)
  · have hwf := h.wf.rearm
    rwa [CdcPipe.rearm, if_pos hring] at hwf

/-- `usb_cdc_read_ep` queues a transfer exactly when the ring is empty. -/
theorem usbCdcReadEp_eq (h : CdcConfigured s.usbDevice s.usbCdc) :
    (usbCdcReadEp s).2 = if s.usbCdc.rxBuffer.contents = []
      then (usbEpQueueTransferHal s cdcEpIdn 0 ⟨.epOutBuffer, 0⟩ usbCdcEpBufferSize).2 else s := by
  have hgate : (!(usbConfigured s && s.usbCdc.epAddrOut != 0#8)) = false := by
    rw [h.epAddrOut, usbConfigured, bne_iff_ne.mpr h.configNum]
    rfl
  have hcount := h.rxRing.count_lt
  have hspace := h.rxRing.space_eq
  rw [h.rxSize] at hcount hspace
  unfold usbCdcEpBufferSize at hcount hspace
  unfold usbCdcReadEp
  rw [if_neg (ne_true_of_eq_false hgate)]
  dsimp only
  rw [hspace, u16_of_lt (by omega), h.epAddrOut]
  by_cases hempty : circularBufferCount s.usbCdc.rxBuffer = 0
  · rw [hempty, if_pos (by decide), if_pos (CircularBuffer.contents_eq_nil.mpr hempty)]
    rfl
  · rw [if_neg (by unfold usbCdcEpBufferSize; omega),
      if_neg (mt CircularBuffer.contents_eq_nil.mp hempty)]

theorem CdcRefines.readEp (h : CdcRefines fed s c) : CdcRefines fed (usbCdcReadEp s).2 c.rearm := by
  have hring : s.usbCdc.rxBuffer.contents = c.ring := by
    rw [← h.pipe]
    rfl
  rw [usbCdcReadEp_eq h.configured, hring, CdcPipe.rearm]
  split
  · rename_i hempty
    exact h.queueOut hempty
  · exact h

/-! ### The calls of the application -/

theorem CdcConfigured.setRx {d : UsbDevice} {cdc : UsbCdc} (h : CdcConfigured d cdc)
    {cb : CircularBuffer} (hwf : cb.Wf) (hsize : cb.size = usbCdcEpBufferSize) :
    CdcConfigured d { cdc with rxBuffer := cb } :=
  { h with rxRing := hwf, rxSize := hsize }

theorem CdcRefines.read (h : CdcRefines fed s c) (bufsize : ℕ) :
    CdcRefines fed (usbCdcRead s bufsize).2 (c.read bufsize) := by
  have hwf := h.wf.read bufsize
  have hready := h.readEp
  have hring : (usbCdcReadEp s).2.usbCdc.rxBuffer.contents = c.ring := by
    rw [← c.rearm_ring, ← hready.pipe]
    rfl
  have hbytes := circularBufferRead_bytes hready.configured.rxRing bufsize
  have hrest := circularBufferRead_contents hready.configured.rxRing bufsize
  rw [hring] at hbytes hrest
  refine CdcRefines.rxSide hready ⟨rfl, fun _ _ => rfl, rfl, rfl⟩
    (hready.configured.setRx (circularBufferRead_wf hready.configured.rxRing bufsize)
      hready.configured.rxSize) hready.rxSlot ?_ rfl rfl hwf
  intro hsending
  apply CdcPipe.ext
  · exact (congrArg CdcPipe.reg hready.pipe :)
  · exact hrest
  · exact (congrArg CdcPipe.received hready.pipe :)
  · exact hsending
  · exact (trace_log ..).trans ((List.append_nil _).trans (congrArg CdcPipe.accepted hready.pipe))
  · have hreturned : cdcReturned (usbCdcReadEp s).2 = c.returned := by
      rw [← c.rearm_returned, ← hready.pipe]
      rfl
    refine (trace_log ..).trans ?_
    show cdcReturned (usbCdcReadEp s).2 ++ _ = c.returned ++ c.ring.take bufsize
    rw [hreturned, ← hbytes]
    rfl
  · exact (trace_log ..).trans ((List.append_nil _).trans (congrArg CdcPipe.written hready.pipe))
  · exact (trace_log ..).trans ((List.append_nil _).trans (congrArg CdcPipe.sent hready.pipe))

/-! ### Sending -/

/-- The record of a transfer being queued. -/
def queuedIn (s : Usb) (n : ℕ) : Usb :=
  (s.log (.queued cdcEpIdn 1 n)).setTransfer cdcEpIdn 1
    { s.epTransferSet cdcEpIdn 1 with
      feed := { buffer := ⟨.epInBuffer, 0⟩, totalCount := n, fedCount := 0 } }

theorem queueIn_eq (s : Usb) (n : ℕ) :
    (usbEpQueueTransferHal s cdcEpIdn 1 ⟨.epInBuffer, 0⟩ n).2 =
      usbTxPacket (queuedIn s n) cdcEpIdn := rfl

variable {n : ℕ}

theorem queuedIn_remaining (hn : n < usbCdcEpBufferSize)
    (hmax : (s.epTransferSet cdcEpIdn 1).maxPacketSize = usbCdcEpBufferSize) :
    feedForwardRemainingCount ((queuedIn s n).epTransferSet cdcEpIdn 1).feed
      ((queuedIn s n).epTransferSet cdcEpIdn 1).maxPacketSize = n := by
  have hstart := feedForwardRemainingCount_start ⟨.epInBuffer, 0⟩ (n := n) hn.le
  rw [← show _ = 64 from hmax] at hstart
  exact hstart

/-- A transfer that fits one packet is fed at once. -/
theorem queueIn_slot (h : CdcTxSlot (txDesc s cdcEpIdn) (s.epTransferSet cdcEpIdn 1))
    (hn : n < usbCdcEpBufferSize) :
    (usbTxPacket (queuedIn s n) cdcEpIdn).epTransferSet cdcEpIdn 1 =
      { s.epTransferSet cdcEpIdn 1 with
        feed := { buffer := ⟨.epInBuffer, 0⟩, totalCount := n, fedCount := n } } := by
  have hrecord : (usbTxPacket (queuedIn s n) cdcEpIdn).epTransferSet cdcEpIdn 1 =
      { s.epTransferSet cdcEpIdn 1 with
        feed := { buffer := ⟨.epInBuffer, 0⟩, totalCount := n
                  fedCount := add16 0 (feedForwardRemainingCount
                    ((queuedIn s n).epTransferSet cdcEpIdn 1).feed
                    ((queuedIn s n).epTransferSet cdcEpIdn 1).maxPacketSize) } } := rfl
  simp only [usbCdcEpBufferSize] at hn
  rw [hrecord, queuedIn_remaining hn h.maxPacketSize, add16_of_lt (by omega), Nat.zero_add]

theorem queueIn_pma (h : CdcTxSlot (txDesc s cdcEpIdn) (s.epTransferSet cdcEpIdn 1))
    (hn : n < usbCdcEpBufferSize) :
    (usbTxPacket (queuedIn s n) cdcEpIdn).pma = Function.update
      (storeBytes s.pma 264 (s.load ⟨.epInBuffer, 0⟩ n)) 4 (descSetCount (txDesc s cdcEpIdn) n) := by
  have hrecord : ((queuedIn s n).epTransferSet cdcEpIdn 1).epIdn = cdcEpIdn := h.epIdn
  have haddr : descAddr (txDesc (queuedIn s n) cdcEpIdn) = 264 := h.addr
  have hpma := usbTxPacket_pma hrecord (by decide) (by omega)
    (queuedIn_remaining hn h.maxPacketSize)
  rw [haddr] at hpma
  exact hpma

theorem queueIn_desc (h : CdcTxSlot (txDesc s cdcEpIdn) (s.epTransferSet cdcEpIdn 1))
    (hn : n < usbCdcEpBufferSize) :
    txDesc (usbTxPacket (queuedIn s n) cdcEpIdn) cdcEpIdn =
      descSetCount (txDesc s cdcEpIdn) n := by
  rw [txDesc, queueIn_pma h hn]
  rfl

/-- The packet is what the staging buffer held. -/
theorem queueIn_packet (h : CdcTxSlot (txDesc s cdcEpIdn) (s.epTransferSet cdcEpIdn 1))
    (hn : n < usbCdcEpBufferSize) (hload : (s.load ⟨.epInBuffer, 0⟩ n).length = n) :
    txPacketBytes (usbTxPacket (queuedIn s n) cdcEpIdn) cdcEpIdn = s.load ⟨.epInBuffer, 0⟩ n := by
  have hlt : n < 64 := hn
  have hcount := descCount_descSetCount (txDesc s cdcEpIdn) (n := n) (by omega)
  rw [txPacketBytes, queueIn_desc h hn, descAddr_descSetCount, h.addr, hcount, queueIn_pma h hn]
  have hstored := loadBytes_storeBytes s.pma (a := 264) (by decide) (s.load ⟨.epInBuffer, 0⟩ n)
  rw [hload] at hstored
  refine Eq.trans (loadBytes_congr ?_) hstored
  intro w hw _
  exact Function.update_of_ne (by omega) _ _

theorem queueIn_rxKept (h : CdcTxSlot (txDesc s cdcEpIdn) (s.epTransferSet cdcEpIdn 1))
    (hn : n < usbCdcEpBufferSize) : CdcRxKept s (usbTxPacket (queuedIn s n) cdcEpIdn) := by
  have hwords : ∀ w, w < 66 → w ≠ 4 →
      (usbTxPacket (queuedIn s n) cdcEpIdn).pma w = s.pma w := by
    intro w hw h4
    rw [queueIn_pma h hn, Function.update_of_ne h4]
    exact storeBytes_of_lt _ _ (by omega)
  exact ⟨hwords 5 (by decide) (by decide), hwords, rfl⟩

theorem queueIn_txSlot (h : CdcTxSlot (txDesc s cdcEpIdn) (s.epTransferSet cdcEpIdn 1))
    (hn : n < usbCdcEpBufferSize) :
    CdcTxSlot (txDesc (usbTxPacket (queuedIn s n) cdcEpIdn) cdcEpIdn)
      ((usbTxPacket (queuedIn s n) cdcEpIdn).epTransferSet cdcEpIdn 1) := by
  have hlt : n < 64 := hn
  have hcount := descCount_descSetCount (txDesc s cdcEpIdn) (n := n) (by omega)
  rw [queueIn_desc h hn, queueIn_slot h hn]
  exact
    { addr := (descAddr_descSetCount ..).trans h.addr
      maxPacketSize := h.maxPacketSize
      epIdn := h.epIdn
      total := hcount.symm
      fed := hcount.symm
      short := hcount.trans_lt hn }

theorem queueIn_chep (h : CdcTxSlot (txDesc s cdcEpIdn) (s.epTransferSet cdcEpIdn 1)) (n : ℕ) :
    (usbTxPacket (queuedIn s n) cdcEpIdn).chep cdcEpIdn =
      regSetPreserve (s.chep cdcEpIdn) (txValidValue (s.chep cdcEpIdn)) := by
  have hrecord : ((queuedIn s n).epTransferSet cdcEpIdn 1).epIdn = cdcEpIdn := h.epIdn
  rw [usbTxPacket_chep hrecord, Function.update_self]
  rfl

theorem queueIn_trace (s : Usb) (n : ℕ) {f : UsbEvent → List Byte}
    (hf : f (.queued cdcEpIdn 1 n) = []) :
    (usbTxPacket (queuedIn s n) cdcEpIdn).trace.flatMap f = s.trace.flatMap f := by
  rw [usbTxPacket_trace]
  refine (trace_log s (.queued cdcEpIdn 1 n) f).trans ?_
  rw [hf, List.append_nil]

/-- The state `usb_cdc_write_ep` queues the bytes of a write in. -/
def cdcFlushed (s : Usb) (txBuffer : CircularBuffer) (buffer : List Byte) : Usb :=
  ((s.log (.cdcWrite buffer)).setCdc { s.usbCdc with txBuffer := txBuffer }).store
    ⟨.epInBuffer, 0⟩ buffer

theorem CdcRefines.send (h : CdcRefines fed s c) {txBuffer : CircularBuffer} {buffer : List Byte}
    (hconf : CdcConfigured s.usbDevice { s.usbCdc with txBuffer := txBuffer })
    (hshort : buffer.length < usbCdcEpBufferSize) (hne : buffer ≠ []) :
    CdcRefines fed (usbTxPacket (queuedIn (cdcFlushed s txBuffer buffer) buffer.length) cdcEpIdn)
      { c with
        reg := { c.reg with tx := .valid }
        sending := buffer
        written := c.written ++ buffer } := by
  have hload : (cdcFlushed s txBuffer buffer).load ⟨.epInBuffer, 0⟩ buffer.length = buffer :=
    Usb.load_store _ (p := ⟨.epInBuffer, 0⟩) rfl buffer
  have hslot : CdcTxSlot (txDesc (cdcFlushed s txBuffer buffer) cdcEpIdn)
      ((cdcFlushed s txBuffer buffer).epTransferSet cdcEpIdn 1) := h.txSlot
  have hrecord := queueIn_slot hslot hshort
  have hkept : CdcRxKept s
      (usbTxPacket (queuedIn (cdcFlushed s txBuffer buffer) buffer.length) cdcEpIdn) := by
    have hkept := queueIn_rxKept hslot hshort
    exact ⟨hkept.desc, hkept.words, hkept.record⟩
  refine h.txSide hkept ?_ (queueIn_txSlot hslot hshort) ?_ ?_ { h.wf with sending := fun _ => hne }
  · rw [usbTxPacket_usbDevice, usbTxPacket_usbCdc]
    exact hconf
  · intro _
    constructor
    · rw [hrecord]
    · rw [hrecord]
      exact hload
  · intro hreceived
    have hpipe := h.pipe
    subst hpipe
    have htrace : ∀ f : UsbEvent → List Byte, f (.queued cdcEpIdn 1 buffer.length) = [] →
        (usbTxPacket (queuedIn (cdcFlushed s txBuffer buffer) buffer.length)
          cdcEpIdn).trace.flatMap f = s.trace.flatMap f ++ f (.cdcWrite buffer) := fun f hf =>
      (queueIn_trace _ _ hf).trans (trace_log s (.cdcWrite buffer) f)
    apply CdcPipe.ext
    · exact (congrArg epView (queueIn_chep hslot buffer.length)).trans (epView_txValid _)
    · show (usbTxPacket (queuedIn (cdcFlushed s txBuffer buffer) buffer.length)
        cdcEpIdn).usbCdc.rxBuffer.contents = _
      rw [usbTxPacket_usbCdc]
      rfl
    · exact hreceived
    · exact (queueIn_packet hslot hshort (congrArg List.length hload)).trans hload
    · exact (htrace _ rfl).trans (List.append_nil _)
    · exact (htrace _ rfl).trans (List.append_nil _)
    · exact htrace _ rfl
    · exact (htrace _ rfl).trans (List.append_nil _)

/-- An empty ring is not flushed. -/
theorem usbCdcWriteEp_empty (h : s.usbCdc.txBuffer.contents = []) : usbCdcWriteEp s = (0, s) := by
  simp only [usbCdcWriteEp]
  rw [CircularBuffer.contents_eq_nil.mp h, if_pos rfl]
  exact ite_self _

/-- A flush sends all that is in the ring. -/
theorem usbCdcWriteEp_send {cb : CircularBuffer}
    (hconf : CdcConfigured s.usbDevice { s.usbCdc with txBuffer := cb })
    (hwf : s.usbCdc.txBuffer.Wf) {buffer : List Byte} (hbuffer : s.usbCdc.txBuffer.contents = buffer)
    (hne : buffer ≠ []) (hshort : buffer.length < usbCdcEpBufferSize) :
    (usbCdcWriteEp s).2 = usbTxPacket (queuedIn ((s.setCdc { s.usbCdc with
      txBuffer := (circularBufferRead s.usbCdc.txBuffer usbCdcEpBufferSize).2 }).store
        ⟨.epInBuffer, 0⟩ buffer) buffer.length) cdcEpIdn := by
  have hgate : (!(usbConfigured s && s.usbCdc.epAddrIn != 0#8)) = false := by
    rw [show s.usbCdc.epAddrIn = 0x82#8 from hconf.epAddrIn, usbConfigured,
      bne_iff_ne.mpr hconf.configNum]
    rfl
  have hbytes : (circularBufferRead s.usbCdc.txBuffer usbCdcEpBufferSize).1 = buffer := by
    rw [circularBufferRead_bytes hwf, hbuffer]
    exact List.take_of_length_le hshort.le
  have hcount : circularBufferCount s.usbCdc.txBuffer ≠ 0 := by
    rw [← CircularBuffer.contents_length, hbuffer]
    exact mt List.length_eq_zero_iff.mp hne
  have hshort' : buffer.length < 64 := hshort
  have hpos : 0 < buffer.length := List.length_pos_iff.mpr hne
  unfold usbCdcWriteEp
  rw [if_neg (ne_true_of_eq_false hgate), if_neg hcount]
  dsimp only
  rw [hbytes, u16_of_lt (by omega), if_pos hpos]
  have haddr : ((s.setCdc { s.usbCdc with
      txBuffer := (circularBufferRead s.usbCdc.txBuffer usbCdcEpBufferSize).2 }).store
        ⟨.epInBuffer, 0⟩ buffer).usbCdc.epAddrIn = 0x82#8 := hconf.epAddrIn
  rw [haddr]
  exact queueIn_eq _ _

/-- Bytes that go into the ring and leave it empty are taken and not sent. -/
theorem CdcRefines.logWrite (h : CdcRefines fed s c) {txBuffer : CircularBuffer}
    (hconf : CdcConfigured s.usbDevice { s.usbCdc with txBuffer := txBuffer }) (bytes : List Byte) :
    CdcRefines fed ((s.setCdc { s.usbCdc with txBuffer := txBuffer }).log (.cdcWrite bytes))
      { c with written := c.written ++ bytes } := by
  refine h.txSide ⟨rfl, fun _ _ _ => rfl, rfl⟩ hconf h.txSlot ?_ ?_ { h.wf with }
  · intro hvalid
    have hstaged := h.staged hvalid
    exact ⟨hstaged.buffer, hstaged.load⟩
  · intro hreceived
    have hpipe := h.pipe
    subst hpipe
    apply CdcPipe.ext
    · rfl
    · rfl
    · exact hreceived
    · rfl
    · exact (trace_log ..).trans (List.append_nil _)
    · exact (trace_log ..).trans (List.append_nil _)
    · exact trace_log ..
    · exact (trace_log ..).trans (List.append_nil _)

theorem CdcConfigured.setTx {d : UsbDevice} {cdc : UsbCdc} (h : CdcConfigured d cdc)
    {cb : CircularBuffer} (hwf : cb.Wf) (hsize : cb.size = usbCdcEpBufferSize)
    (hempty : cb.contents = []) : CdcConfigured d { cdc with txBuffer := cb } :=
  { h with txRing := hwf, txSize := hsize, txEmpty := hempty }

/-- An empty ring takes up to one packet, and a whole one leaves it reading empty. -/
theorem circularBufferWrite_of_empty {cb : CircularBuffer} (h : cb.Wf)
    (hsize : cb.size = usbCdcEpBufferSize) (hempty : cb.contents = []) (data : List Byte) :
    circularBufferWriteLen cb data.length = min data.length usbCdcEpBufferSize ∧
      (circularBufferWrite cb data).2.contents =
        if data.length < usbCdcEpBufferSize then data else [] := by
  have hcount := CircularBuffer.contents_eq_nil.mp hempty
  have hlen := circularBufferWriteLen_eq h data.length
  rw [hcount, hsize, Nat.sub_zero] at hlen
  refine ⟨hlen, ?_⟩
  rw [circularBufferWrite_contents h, hlen, hcount, hsize, hempty, Nat.zero_add]
  by_cases hshort : data.length < usbCdcEpBufferSize
  · rw [if_neg (by omega), if_pos hshort, List.nil_append, Nat.min_eq_left hshort.le,
      List.take_length]
  · rw [if_pos (by omega), if_neg hshort]

theorem CdcRefines.write (h : CdcRefines fed s c) (buffer : List Byte) :
    CdcRefines fed (usbCdcWrite s buffer).2 (c.write buffer) := by
  have hconf := h.configured
  have hring := circularBufferWrite_wf hconf.txRing buffer
  obtain ⟨hlen, hcontents⟩ := circularBufferWrite_of_empty hconf.txRing hconf.txSize hconf.txEmpty
    buffer
  have hwrite : (usbCdcWrite s buffer).2 = (usbCdcWriteEp ((s.setCdc { s.usbCdc with
      txBuffer := (circularBufferWrite s.usbCdc.txBuffer buffer).2 }).log
        (.cdcWrite (buffer.take (circularBufferWriteLen s.usbCdc.txBuffer buffer.length))))).2 := rfl
  rw [hwrite, hlen]
  simp only [CdcPipe.write]
  by_cases hshort : buffer.length < usbCdcEpBufferSize
  · rw [if_pos hshort] at hcontents ⊢
    rw [Nat.min_eq_left hshort.le, List.take_length]
    by_cases hne : buffer = []
    · subst hne
      rw [if_pos rfl, usbCdcWriteEp_empty hcontents]
      have hlog := h.logWrite (hconf.setTx hring hconf.txSize hcontents) []
      rwa [List.append_nil] at hlog
    · rw [if_neg hne]
      have hread := circularBufferRead_contents hring usbCdcEpBufferSize
      rw [hcontents, List.drop_eq_nil_of_le hshort.le] at hread
      have hconf' := hconf.setTx (circularBufferRead_wf hring usbCdcEpBufferSize) hconf.txSize hread
      have hsend := usbCdcWriteEp_send (s := (s.setCdc { s.usbCdc with
        txBuffer := (circularBufferWrite s.usbCdc.txBuffer buffer).2 }).log (.cdcWrite buffer))
        hconf' hring hcontents hne hshort
      rw [hsend]
      exact h.send hconf' hshort hne
  · rw [if_neg hshort] at hcontents ⊢
    rw [Nat.min_eq_right (by omega), usbCdcWriteEp_empty hcontents]
    exact h.logWrite (hconf.setTx hring hconf.txSize hcontents) _

theorem CdcRefines.flush (h : CdcRefines fed s c) : CdcRefines fed (usbCdcWriteEp s).2 c := by
  rw [usbCdcWriteEp_empty h.configured.txEmpty]
  exact h

/-! ### The transactions of the host -/

theorem CdcRefines.arrive (h : CdcRefines fed s c) (packet : List Byte) :
    CdcRefines fed (busOut s cdcEpIdn packet) (c.arrive packet) := by
  have hwf := h.wf.arrive packet
  have hok : busOutOk s cdcEpIdn packet = true ↔
      c.reg.rx = .valid ∧ packet.length ≤ usbCdcEpBufferSize := by
    rw [busOutOk, Bool.and_eq_true, beq_iff_eq, decide_eq_true_iff, h.rxSlot.capacity, ← h.pipe]
    rfl
  simp only [busOut]
  simp only [CdcPipe.arrive] at hwf ⊢
  by_cases htake : c.reg.rx = .valid ∧ packet.length ≤ usbCdcEpBufferSize
  · rw [if_pos htake] at hwf ⊢
    rw [if_pos (hok.mpr htake)]
    have haddr := h.rxSlot.addr
    have hlen : packet.length ≤ 64 := htake.2
    have hdesc : rxDesc (((rxDeposit s cdcEpIdn packet).setChep cdcEpIdn
        (hwRxPacket ((rxDeposit s cdcEpIdn packet).chep cdcEpIdn))).log (.rxPacket cdcEpIdn packet))
        cdcEpIdn = descSetCount (rxDesc s cdcEpIdn) packet.length := rfl
    have hkept : CdcTxKept s (((rxDeposit s cdcEpIdn packet).setChep cdcEpIdn
        (hwRxPacket ((rxDeposit s cdcEpIdn packet).chep cdcEpIdn))).log
          (.rxPacket cdcEpIdn packet)) := by
      have hword : ∀ w, w ≠ 5 → w < 50 ∨ 66 ≤ w → (Function.update (storeBytes s.pma
          (descAddr (rxDesc s cdcEpIdn)) packet) 5
          (descSetCount (rxDesc s cdcEpIdn) packet.length)) w = s.pma w := by
        intro w h5 hout
        rw [Function.update_of_ne h5, haddr]
        rcases hout with hbefore | hbehind
        · exact storeBytes_of_lt _ _ (by omega)
        · exact storeBytes_of_ge _ _ (by omega)
      exact ⟨hword 4 (by decide) (.inl (by decide)), fun w hw => hword w (by omega) (.inr hw), rfl,
        rfl⟩
    refine h.rxSide hkept h.configured ?_ ?_ rfl rfl hwf
    · rw [hdesc]
      exact
        { addr := (descAddr_descSetCount ..).trans haddr
          capacity := (descCapacity_descSetCount ..).trans h.rxSlot.capacity
          buffer := h.rxSlot.buffer
          maxPacketSize := h.rxSlot.maxPacketSize
          fed := h.rxSlot.fed }
    · intro hsending
      have hpipe := h.pipe
      subst hpipe
      apply CdcPipe.ext
      · exact epView_hwRxPacket _
      · rfl
      · show rxPacketBytes _ cdcEpIdn = packet
        simp only [rxPacketBytes]
        rw [hdesc, descAddr_descSetCount, haddr, descCount_descSetCount _ (by omega)]
        refine Eq.trans (loadBytes_congr ?_) (loadBytes_storeBytes s.pma (by decide) packet)
        intro w hw _
        show (Function.update (storeBytes s.pma (descAddr (rxDesc s cdcEpIdn)) packet) 5 _) w = _
        rw [Function.update_of_ne (by omega), haddr]
      · exact hsending
      · exact trace_log ..
      all_goals exact (trace_log ..).trans (List.append_nil _)
  · rw [if_neg htake] at hwf ⊢
    rw [if_neg (mt hok.mp htake)]
    exact h

theorem CdcRefines.poll (h : CdcRefines fed s c) : CdcRefines fed (busIn s cdcEpIdn) c.poll := by
  have hwf := h.wf.poll
  have hpipe := h.pipe
  subst hpipe
  simp only [busIn]
  simp only [CdcPipe.poll] at hwf ⊢
  by_cases hvalid : epState (s.chep cdcEpIdn) 1 = .valid
  · rw [if_pos hvalid]
    rw [if_pos (show (cdcPipe s).reg.tx = .valid from hvalid)] at hwf ⊢
    refine h.txSide ⟨rfl, fun _ _ _ => rfl, rfl⟩ h.configured h.txSlot
      (fun hv => EpState.noConfusion hv) ?_ hwf
    intro hreceived
    apply CdcPipe.ext
    · exact epView_hwTxPacket _
    · rfl
    · exact hreceived
    · rfl
    · exact (trace_log ..).trans (List.append_nil _)
    · exact (trace_log ..).trans (List.append_nil _)
    · exact (trace_log ..).trans (List.append_nil _)
    · exact trace_log ..
  · rw [if_neg hvalid, if_neg (show (cdcPipe s).reg.tx ≠ .valid from hvalid)]
    exact h

theorem CdcRefines.act (h : CdcRefines fed s c) (a : CdcAction) :
    CdcRefines fed (cdcAct s a) (c.act a) := by
  cases a with
  | read bufsize => exact h.read bufsize
  | write buffer => exact h.write buffer
  | flush => exact h.flush
  | arrive packet => exact h.arrive packet
  | poll => exact h.poll

theorem CdcRefines.run (h : CdcRefines fed s c) (script : List CdcAction) :
    CdcRefines fed (runFrom cdcAct s script) (runFrom CdcPipe.act c script) := by
  induction script generalizing s c with
  | nil => exact h
  | cons a script ih => exact ih (h.act a)

/-! ### The receive half of an iteration -/

/-- The state `usb_rx_packet` completes the transfer in. -/
def cdcReceived (s : Usb) : Usb :=
  usbRxPacketStore (usbEpClearCorrectTransfer s cdcEpIdn usbDirDeviceInHostOutIdx) cdcEpIdn

/-- The state the receive callback is called in. -/
def cdcStored (s : Usb) : Usb :=
  let s := cdcReceived s
  s.setCdc { s.usbCdc with
    rxBuffer := (circularBufferWrite s.usbCdc.rxBuffer
      (s.load ⟨.epOutBuffer, 0⟩
        (s.epTransferSet cdcEpIdn usbDirDeviceInHostOutIdx).feed.fedCount)).2 }

/-- What the receive callback does; it is not called on an empty ring. -/
def cdcRxScript (s : Usb) (rxCb : Option (List CdcAction)) : List CdcAction :=
  if 0 < circularBufferCount s.usbCdc.rxBuffer then rxCb.getD [] else []

/-- The state the receive callback leaves. -/
def cdcCalled (s : Usb) (rxCb : Option (List CdcAction)) : Usb :=
  runFrom cdcAct (cdcStored s) (cdcRxScript (cdcStored s) rxCb)

/-- The end of `usb_rx_packet`. -/
def cdcRxClosed (s : Usb) : Usb :=
  s.setTransfer cdcEpIdn usbDirDeviceInHostOutIdx
    { s.epTransferSet cdcEpIdn usbDirDeviceInHostOutIdx with
      feed := { (s.epTransferSet cdcEpIdn usbDirDeviceInHostOutIdx).feed with
        totalCount := 0, fedCount := 0 } }

section Received

variable (h : CdcRefines 0 s c)
include h

theorem CdcRefines.received_record :
    (cdcReceived s).epTransferSet cdcEpIdn 0 = { s.epTransferSet cdcEpIdn 0 with
      feed := { (s.epTransferSet cdcEpIdn 0).feed with fedCount := c.received.length } } := by
  have hadd : (cdcReceived s).epTransferSet cdcEpIdn 0 = { s.epTransferSet cdcEpIdn 0 with
      feed := { (s.epTransferSet cdcEpIdn 0).feed with
        fedCount := add16 (s.epTransferSet cdcEpIdn 0).feed.fedCount
          (descCount (rxDesc s cdcEpIdn)) } } := rfl
  have hfed : (s.epTransferSet cdcEpIdn 0).feed.fedCount = 0 := h.rxSlot.fed.elim id id
  have hlen : c.received.length ≤ 64 := h.wf.size
  rw [hadd, hfed, h.rxCount, add16_of_lt (by omega), Nat.zero_add]

theorem CdcRefines.received_dst :
    (s.epTransferSet cdcEpIdn 0).feed.buffer.add (s.epTransferSet cdcEpIdn 0).feed.fedCount =
      ⟨.epOutBuffer, 0⟩ := by
  have hfed : (s.epTransferSet cdcEpIdn 0).feed.fedCount = 0 := h.rxSlot.fed.elim id id
  rw [hfed, h.rxSlot.buffer]
  rfl

theorem CdcRefines.received_ram :
    (cdcReceived s).ram = (s.store ⟨.epOutBuffer, 0⟩ c.received).ram := by
  have hreceived : loadBytes s.pma (descAddr (rxDesc s cdcEpIdn)) (descCount (rxDesc s cdcEpIdn)) =
      c.received := by
    rw [← h.pipe]
    rfl
  have hram : (cdcReceived s).ram = (s.store ((s.epTransferSet cdcEpIdn 0).feed.buffer.add
      (s.epTransferSet cdcEpIdn 0).feed.fedCount) (usbRxPmaRead s.pma
        (descAddr (rxDesc s cdcEpIdn)) (descCount (rxDesc s cdcEpIdn)))).ram := rfl
  have haddr := h.rxSlot.addr
  rwa [h.received_dst, usbRxPmaRead_eq s.pma (by omega), hreceived] at hram

theorem CdcRefines.received_load :
    (cdcReceived s).load ⟨.epOutBuffer, 0⟩ c.received.length = c.received := by
  have hback := Usb.load_store s (p := ⟨.epOutBuffer, 0⟩) rfl c.received
  simp only [Usb.load, Usb.memory] at hback ⊢
  rw [h.received_ram]
  exact hback

theorem CdcRefines.received_pma :
    (cdcReceived s).pma = Function.update s.pma 5 (descSetBlocks (rxDesc s cdcEpIdn) 64) := by
  have hmax : (cdcReceived s).pma = Function.update s.pma 5 (descSetBlocks (rxDesc s cdcEpIdn)
      ((s.epTransferSet cdcEpIdn 0).maxPacketSize % 2 ^ 16)) := rfl
  rw [hmax, h.rxSlot.maxPacketSize]
  rfl

theorem CdcRefines.stored_eq :
    cdcStored s = (cdcReceived s).setCdc { s.usbCdc with
      rxBuffer := (circularBufferWrite s.usbCdc.rxBuffer c.received).2 } := by
  have hstored : cdcStored s = (cdcReceived s).setCdc { (cdcReceived s).usbCdc with
      rxBuffer := (circularBufferWrite (cdcReceived s).usbCdc.rxBuffer ((cdcReceived s).load
        ⟨.epOutBuffer, 0⟩ ((cdcReceived s).epTransferSet cdcEpIdn 0).feed.fedCount)).2 } := rfl
  rw [hstored, h.received_record]
  dsimp only
  rw [h.received_load]
  rfl

theorem CdcRefines.received_kept : CdcTxKept s (cdcReceived s) where
  desc := by
    rw [txDesc, h.received_pma]
    rfl
  words := by
    intro w hw
    rw [h.received_pma, Function.update_of_ne (by omega)]
  record := rfl
  memory := by
    have hother := Usb.memory_store_of_ne s (p := ⟨.epOutBuffer, 0⟩) (g := .epInBuffer) (by decide)
      c.received
    simp only [Usb.memory] at hother ⊢
    rw [h.received_ram]
    exact hother

theorem CdcRefines.store (hvtrx : c.reg.vtrx = true) :
    CdcRefines c.received.length (cdcStored s) c.store := by
  have hring : s.usbCdc.rxBuffer.contents = [] := by
    rw [← h.wf.unhandled hvtrx, ← h.pipe]
    rfl
  obtain ⟨-, hcontents⟩ := circularBufferWrite_of_empty h.configured.rxRing h.configured.rxSize
    hring c.received
  have hkept : CdcTxKept s (cdcStored s) := by
    rw [h.stored_eq]
    exact ⟨h.received_kept.desc, h.received_kept.words, rfl, h.received_kept.memory⟩
  have hdesc : rxDesc (cdcStored s) cdcEpIdn = descSetBlocks (rxDesc s cdcEpIdn) 64 := by
    rw [rxDesc, h.stored_eq]
    show (cdcReceived s).pma 5 = _
    rw [h.received_pma]
    rfl
  have hsides : CdcRefines c.received.length s c :=
    { h with rxSlot := { h.rxSlot with fed := .inl (h.rxSlot.fed.elim id id) } }
  refine hsides.rxSide hkept ?_ ?_ ?_ rfl rfl h.wf.store
  · rw [h.stored_eq]
    exact h.configured.setRx (circularBufferWrite_wf h.configured.rxRing _) h.configured.rxSize
  · rw [hdesc, h.stored_eq]
    show CdcRxSlot _ _ ((cdcReceived s).epTransferSet cdcEpIdn 0)
    rw [h.received_record]
    exact
      { addr := (descAddr_descSetBlocks ..).trans h.rxSlot.addr
        capacity := descCapacity_descSetBlocks _ (by decide)
        buffer := h.rxSlot.buffer
        maxPacketSize := h.rxSlot.maxPacketSize
        fed := .inr rfl }
  · intro hsending
    have hpipe := h.pipe
    have hlen := h.wf.size
    rw [h.stored_eq] at hsending hdesc ⊢
    subst hpipe
    apply CdcPipe.ext
    · exact epView_clearCorrectTransfer _ 0
    · refine hcontents.trans ?_
      show _ = if (cdcPipe s).received.length = usbCdcEpBufferSize then [] else (cdcPipe s).received
      split <;> split <;> first | rfl | omega
    · show rxPacketBytes _ cdcEpIdn = []
      simp only [rxPacketBytes]
      rw [hdesc, descCount_descSetBlocks]
      rfl
    · exact hsending
    all_goals exact (trace_log ..).trans (List.append_nil _)

end Received

theorem cdcRxScript_eq (h : CdcRefines fed s c) (rxCb : Option (List CdcAction)) :
    cdcRxScript s rxCb = c.rxScript rxCb := by
  have hcount : circularBufferCount s.usbCdc.rxBuffer = 0 ↔ c.ring = [] := by
    rw [← h.pipe]
    exact CircularBuffer.contents_eq_nil.symm
  simp only [cdcRxScript, CdcPipe.rxScript]
  by_cases hring : c.ring = []
  · rw [if_pos hring, if_neg (by rw [hcount.mpr hring]; decide)]
  · rw [if_neg hring, if_pos (Nat.pos_of_ne_zero (mt hcount.mp hring))]

theorem CdcRefines.called (h : CdcRefines 0 s c) (hvtrx : c.reg.vtrx = true)
    (rxCb : Option (List CdcAction)) :
    CdcRefines c.received.length (cdcCalled s rxCb) (c.called rxCb) := by
  have hstored := h.store hvtrx
  simp only [cdcCalled]
  rw [cdcRxScript_eq hstored]
  exact hstored.run _

theorem usbEpBufferTransferOut_cdc (s : Usb) (rxCb txCompleteCb : Option (List CdcAction)) :
    usbEpBufferTransferOut (cdcCallbacks rxCb txCompleteCb) (cdcReceived s)
        ((cdcReceived s).epTransferSet cdcEpIdn 0).feed.fedCount =
      (usbCdcReadEp (cdcCalled s rxCb)).2 := by
  cases rxCb with
  | none =>
    have hnone : cdcRxScript (cdcStored s) none = [] := ite_self _
    rw [cdcCalled, hnone]
    rfl
  | some script =>
    show (usbCdcReadEp (if 0 < circularBufferCount (cdcStored s).usbCdc.rxBuffer
      then runFrom cdcAct (cdcStored s) script else cdcStored s)).2 = _
    rw [cdcCalled, cdcRxScript]
    split <;> rfl

theorem usbRxPacket_cdc (h : CdcRefines 0 s c) (hvtrx : c.reg.vtrx = true)
    (rxCb txCompleteCb : Option (List CdcAction)) :
    usbRxPacket (cdcCallbacks rxCb txCompleteCb)
        (usbEpClearCorrectTransfer s cdcEpIdn usbDirDeviceInHostOutIdx) cdcEpIdn =
      cdcRxClosed (usbCdcReadEp (cdcCalled s rxCb)).2 := by
  have hafter := (h.called hvtrx rxCb).readEp
  have hcomplete : usbEpTransferComplete (cdcCallbacks rxCb txCompleteCb) (cdcReceived s)
      (BitVec.ofNat 8 cdcEpIdn) ((cdcReceived s).epTransferSet cdcEpIdn 0).feed.fedCount =
        (usbCdcReadEp (cdcCalled s rxCb)).2 := by
    have haddrOut : (cdcReceived s).usbCdc.epAddrOut = BitVec.ofNat 8 cdcEpIdn :=
      h.configured.epAddrOut
    unfold usbEpTransferComplete usbEpBufferTransfer
    rw [if_neg (by decide), if_pos haddrOut.symm, usbEpBufferTransferOut_cdc]
    dsimp only
    rw [if_neg]
    rw [hafter.configured.epAddrIn]
    decide
  exact congrArg cdcRxClosed hcomplete

theorem usbIrqRx_cdc (h : CdcRefines 0 s c) (rxCb txCompleteCb : Option (List CdcAction)) :
    usbIrqRx (cdcCallbacks rxCb txCompleteCb) s cdcEpIdn (s.chep cdcEpIdn) =
      if vtrx (s.chep cdcEpIdn) then cdcRxClosed (usbCdcReadEp (cdcCalled s rxCb)).2 else s := by
  have hsetup : setupFlag (s.chep cdcEpIdn) = false := by
    rw [← h.wf.setup, ← h.pipe]
    rfl
  have hreg : c.reg.vtrx = vtrx (s.chep cdcEpIdn) := by
    rw [← h.pipe]
    rfl
  simp only [usbIrqRx]
  by_cases hvtrx : vtrx (s.chep cdcEpIdn) = true
  · rw [if_pos hvtrx, if_pos hvtrx, if_neg (ne_true_of_eq_false hsetup),
      usbRxPacket_cdc h (hreg.trans hvtrx)]
  · rw [if_neg hvtrx, if_neg hvtrx]

/-- Closing the record of a received packet changes nothing the pipe shows. -/
theorem CdcRefines.rxClosed (h : CdcRefines fed s c) : CdcRefines 0 (cdcRxClosed s) c where
  configured := h.configured
  rxSlot := { h.rxSlot with fed := .inl rfl }
  txSlot := h.txSlot
  staged := fun hvalid => ⟨(h.staged hvalid).buffer, (h.staged hvalid).load⟩
  pipe := h.pipe
  wf := h.wf

theorem CdcRefines.irqRx (h : CdcRefines 0 s c) (rxCb txCompleteCb : Option (List CdcAction)) :
    CdcRefines 0 (usbIrqRx (cdcCallbacks rxCb txCompleteCb) s cdcEpIdn (s.chep cdcEpIdn))
      (c.irqRx rxCb) := by
  have hreg : c.reg.vtrx = vtrx (s.chep cdcEpIdn) := by
    rw [← h.pipe]
    rfl
  rw [usbIrqRx_cdc h, CdcPipe.irqRx, hreg]
  split
  · rename_i hvtrx
    exact (h.called (hreg.trans hvtrx) rxCb).readEp.rxClosed
  · exact h

/-! ### The transmit half of an iteration -/

theorem CdcRefines.complete (h : CdcRefines fed s c) :
    CdcRefines fed (usbEpClearCorrectTransfer s cdcEpIdn usbDirDeviceOutHostInIdx) c.complete := by
  have hpipe := h.pipe
  subst hpipe
  refine h.txSide ⟨rfl, fun _ _ _ => rfl, rfl⟩ h.configured h.txSlot ?_ ?_ h.wf.complete
  · intro hvalid
    exact ⟨(h.staged hvalid).buffer, (h.staged hvalid).load⟩
  · intro hreceived
    apply CdcPipe.ext
    · exact epView_clearCorrectTransfer _ 1
    · rfl
    · exact hreceived
    all_goals rfl

/-- A short transfer needs no empty packet behind it. -/
theorem not_zlp_of_lt {n : ℕ} (hn : n < usbCdcEpBufferSize) :
    ¬(n ≠ 0 ∧ n &&& (usbCdcEpBufferSize - 1) = 0) := by
  rintro ⟨hne, hmask⟩
  have hand : n &&& (2 ^ 6 - 1) = n := Nat.and_two_pow_sub_one_of_lt_two_pow hn
  exact hne (hand.symm.trans hmask)

/-- The flush that follows the callback finds an empty ring. -/
theorem usbEpBufferTransferIn_cdc (h : CdcRefines fed s c)
    (rxCb txCompleteCb : Option (List CdcAction)) {n : ℕ} (hn : n < usbCdcEpBufferSize) :
    usbEpBufferTransferIn (cdcCallbacks rxCb txCompleteCb) s n =
      runFrom cdcAct s (txCompleteCb.getD []) := by
  have hcalled := h.run (txCompleteCb.getD [])
  have hflush := usbCdcWriteEp_empty hcalled.configured.txEmpty
  have hcount := CircularBuffer.contents_eq_nil.mp hcalled.configured.txEmpty
  unfold usbEpBufferTransferIn
  cases txCompleteCb with
  | none =>
    change usbCdcWriteEp s = _ at hflush
    dsimp only [cdcCallbacks, Option.map]
    rw [hflush, if_pos ⟨rfl, hcount⟩, if_neg (not_zlp_of_lt hn)]
  | some script =>
    change usbCdcWriteEp (runFrom cdcAct s script) = _ at hflush
    dsimp only [cdcCallbacks, Option.map]
    rw [hflush, if_pos ⟨rfl, hcount⟩, if_neg (not_zlp_of_lt hn)]

theorem usbIrqTx_cdc (h : CdcRefines fed s c) (rxCb txCompleteCb : Option (List CdcAction))
    (epReg : Word) : usbIrqTx (cdcCallbacks rxCb txCompleteCb) s cdcEpIdn epReg =
      if vttx epReg then runFrom cdcAct
        (usbEpClearCorrectTransfer s cdcEpIdn usbDirDeviceOutHostInIdx) (txCompleteCb.getD [])
      else s := by
  have hcomplete := h.complete
  have hslot := hcomplete.txSlot
  have hfed : (s.epTransferSet cdcEpIdn 1).feed.fedCount < usbCdcEpBufferSize :=
    hslot.fed.trans_lt hslot.short
  unfold usbIrqTx
  split
  · dsimp only
    have hall : ¬(s.epTransferSet cdcEpIdn 1).feed.totalCount ≠
        (s.epTransferSet cdcEpIdn 1).feed.fedCount :=
      not_not_intro (hslot.total.trans hslot.fed.symm)
    refine (if_neg hall).trans ?_
    unfold usbEpTransferComplete usbEpBufferTransfer
    have hout : BitVec.ofNat 8 cdcEpIdn ||| usbDirDeviceOutHostIn ≠
        (usbEpClearCorrectTransfer s cdcEpIdn usbDirDeviceOutHostInIdx).usbCdc.epAddrOut := by
      rw [hcomplete.configured.epAddrOut]
      decide
    have hin : BitVec.ofNat 8 cdcEpIdn ||| usbDirDeviceOutHostIn =
        (usbEpClearCorrectTransfer s cdcEpIdn usbDirDeviceOutHostInIdx).usbCdc.epAddrIn := by
      rw [hcomplete.configured.epAddrIn]
      decide
    dsimp only
    rw [if_neg (by decide), if_neg hout, if_pos hin]
    exact usbEpBufferTransferIn_cdc hcomplete rxCb txCompleteCb hfed
  · rfl

theorem CdcRefines.irqTx (h : CdcRefines fed s c) (rxCb txCompleteCb : Option (List CdcAction))
    (epReg : Word) :
    CdcRefines fed (usbIrqTx (cdcCallbacks rxCb txCompleteCb) s cdcEpIdn epReg)
      (c.irqTx (vttx epReg) txCompleteCb) := by
  rw [usbIrqTx_cdc h, CdcPipe.irqTx]
  split
  · exact h.complete.run _
  · exact h

/-! ### Runs -/

theorem CdcRefines.step (h : CdcRefines 0 s c) (e : CdcEvent) :
    CdcRefines 0 (cdcStep s e) (c.step e) := by
  cases e with
  | act a => exact h.act a
  | irq rxCb txCompleteCb =>
    have hreg : c.reg.vttx = vttx (s.chep cdcEpIdn) := by
      rw [← h.pipe]
      rfl
    show CdcRefines 0 _ ((c.irqRx rxCb).irqTx c.reg.vttx txCompleteCb)
    rw [hreg]
    exact (h.irqRx rxCb txCompleteCb).irqTx rxCb txCompleteCb _

end PcbMill
