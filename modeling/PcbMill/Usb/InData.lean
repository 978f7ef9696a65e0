import PcbMill.Lib.Packets
import PcbMill.Usb.Ep0Refinement

/-!
# The data stage of a response

A response to a device-to-host request leaves in packets of 64 bytes, one for each completion
of the packet before it.  The loop over the completions is the host's: it reads a packet, the
interrupt handler runs, and it stops at a short packet or at `wLength` bytes.
-/

namespace PcbMill

open FixedWidth WordMemory Packets Run Segment

/-! ### The host -/

/-- A host that reads a data stage to its end, with the packets it got. -/
def hostReadData (wLength : ℕ) : ℕ → ℕ → Usb → Option (List (List Byte) × Usb)
  | 0, _, _ => none
  | fuel + 1, got, s =>
    if epState (s.chep 0) 1 = .valid then
      let packet := txPacketBytes s 0
      let s := ep0Step (ep0Step s .poll) .irq
      if packet.length < usbEp0BufferSize ∨ wLength ≤ got + packet.length then some ([packet], s)
      else (hostReadData wLength fuel (got + packet.length) s).map fun (packets, s) =>
        (packet :: packets, s)
    -- the device answers NAK, and the host tries again
    else hostReadData wLength fuel got s

/-- The completion callback accepts the data stage of the request. -/
def CallbackAccepts (cb : Option ControlCompleteCb) (r : UsbControlRequest) : Prop :=
  ∀ f, cb = some f → ∀ s : Usb, s.controlTransfer.request = r → (controlCompleteCb s f .data).1 = true

/-- The calls and packets of one packet of a data stage. -/
def packetTrace (r : UsbControlRequest) (packet : List Byte) : List UsbEvent :=
  [.queued 0 1 packet.length, .txPacket 0 packet, .dataStage r packet.length]

/-- What comes of a packet that is queued. -/
def sentTrace (r : UsbControlRequest) (packet : List Byte) : List UsbEvent :=
  [.txPacket 0 packet, .dataStage r packet.length]

theorem packetTrace_eq (r : UsbControlRequest) (packet : List Byte) :
    packetTrace r packet = [.queued 0 1 packet.length] ++ sentTrace r packet := rfl

/-- The calls at the end of a data stage: the callback once, and the OUT status stage. -/
def dataEndTrace (cb : Option ControlCompleteCb) (r : UsbControlRequest) : List UsbEvent :=
  (cb.toList.map fun f => .callback f .data r) ++ [.queued 0 0 0]

/-- What reading a response gives from the state its first packet was queued in. -/
structure ReadExactly (s s' : Usb) (cb : Option ControlCompleteCb) (r : UsbControlRequest)
    (bytes : List Byte) (packets : List (List Byte)) : Prop where
  packeted : Packeted usbEp0BufferSize r.wLength.toNat bytes packets
  trace : s'.trace = s.trace ++ packets.flatMap (packetTrace r) ++ dataEndTrace cb r
  armed : epState (s'.chep 0) 0 = .valid

/-! ### The packet of a queued transfer -/

variable {s : Usb} {e : Ep0}

theorem usbEpQueueTransferHal_memory (s : Usb) (epIdn dirIdx : ℕ) (buffer : Ptr) (n : ℕ)
    (g : Region) : (usbEpQueueTransferHal s epIdn dirIdx buffer n).2.memory g = s.memory g := by
  simp only [Usb.memory]
  rw [usbEpQueueTransferHal_ram]

/-- The packet in the packet memory is the one the transfer was queued with. -/
theorem txPacketBytes_queue (h : Ep0Ready s) (buffer : Ptr) {n : ℕ} (hn : n ≤ 64) :
    txPacketBytes (usbEpQueueTransferHal s 0 1 buffer n).2 0 = s.load buffer n := by
  have hcount := feedForwardRemainingCount_start buffer hn
  rw [← h.txMax] at hcount
  have haddr := h.txAddr
  have hpacket := txPacketBytes_usbTxPacket (s := (s.log (.queued 0 1 n)).setTransfer 0 1
    { s.epTransferSet 0 1 with feed := { buffer := buffer, totalCount := n, fedCount := 0 } })
    (n := n) (by decide : 0 < usbEpMax) h.txIdn (by show descAddr (txDesc s 0) % 4 = 0; omega)
    (by show 64 ≤ descAddr (txDesc s 0); omega) (by omega) hcount
  exact hpacket

/-! ### One packet of a data stage -/

/-- The bytes of the packet at offset `f` of `total` bytes. -/
def chunk (total f : ℕ) : ℕ := min (total - f) usbEp0BufferSize

/-- The control transfer of a response with `f` of its `total` bytes done. -/
def sendingTransfer (r : UsbControlRequest) (cb : Option ControlCompleteCb) (buffer : Ptr)
    (total f : ℕ) : ControlTransfer :=
  { feed := { buffer := buffer.add f, totalCount := total, fedCount := f }
    request := r
    controlCompleteCb := cb }

/-- The response of the state `s₀` is still in memory from offset `f` on. -/
def ResponseKept (s₀ s : Usb) (buffer : Ptr) (f : ℕ) : Prop :=
  ∀ i, f ≤ i → s.memory buffer.region (buffer.offset + i) =
    s₀.memory buffer.region (buffer.offset + i)

theorem ResponseKept.load {s₀ s : Usb} {buffer : Ptr} {f : ℕ} (h : ResponseKept s₀ s buffer f)
    (n : ℕ) : s.load (buffer.add f) n = s₀.load (buffer.add f) n := by
  apply readSegment_congr
  intro i h₁ _
  show s.memory buffer.region i = s₀.memory buffer.region i
  have hi : buffer.offset + f ≤ i := h₁
  have hkept := h (i - buffer.offset) (by omega)
  rwa [show buffer.offset + (i - buffer.offset) = i by omega] at hkept

/-- Before the data stage at offset `f` is queued. -/
structure SendReady (s₀ : Usb) (r : UsbControlRequest) (cb : Option ControlCompleteCb)
    (buffer : Ptr) (total f : ℕ) (s : Usb) (e : Ep0) : Prop where
  refines : Ep0Refines s e
  quiet : e.reg.vtrx = false
  control : e.control = sendingTransfer r cb buffer total f
  kept : ResponseKept s₀ s buffer f

/-- The packet at offset `f` waits for the host. -/
structure Sending (s₀ : Usb) (r : UsbControlRequest) (cb : Option ControlCompleteCb)
    (buffer : Ptr) (total f : ℕ) (s : Usb) (e : Ep0) : Prop where
  refines : Ep0Refines s e
  quiet : e.reg.vtrx = false
  tx : e.reg.tx = .valid
  totalCount : e.txFeed.totalCount = chunk total f
  fedCount : e.txFeed.fedCount = chunk total f
  control : e.control = sendingTransfer r cb buffer total f
  packet : txPacketBytes s 0 = s₀.load (buffer.add f) (chunk total f)
  kept : ResponseKept s₀ s buffer (f + chunk total f)

section Stage

variable {s₀ : Usb} {r : UsbControlRequest} {cb : Option ControlCompleteCb} {buffer : Ptr}
  {total f : ℕ}

theorem chunk_le (total f : ℕ) : chunk total f ≤ usbEp0BufferSize := Nat.min_le_right _ _

theorem SendReady.len (h : SendReady s₀ r cb buffer total f s e) (hf : f ≤ total)
    (htotal : total < 2 ^ 16) : dataStageLen s = chunk total f := by
  simp only [dataStageLen]
  rw [h.refines.control, h.control]
  exact feedForwardRemainingCount_eq hf htotal _

/-- The packet the data stage queues: the next bytes of the response. -/
theorem SendReady.packet (h : SendReady s₀ r cb buffer total f s e) (hf : f ≤ total)
    (htotal : total < 2 ^ 16)
    (hin : usbRequestDirection s.controlTransfer.request.bmRequestType = 1) :
    txPacketBytes (usbControlDataStage s).2 0 = s₀.load (buffer.add f) (chunk total f) := by
  have hlen := h.len hf htotal
  have hready : Ep0Ready (dataStageCopy s) := (h.refines.store _ _).ready
  have hfeed : s.controlTransfer.feed.buffer = buffer.add f := by
    rw [h.refines.control, h.control]
    rfl
  have hpacket := txPacketBytes_queue hready (dataStageBuffer s) (chunk_le total f)
  rw [usbControlDataStage_in hin, hlen, ← h.kept.load, ← hfeed]
  refine hpacket.trans ?_
  by_cases hpos : 0 < chunk total f
  · have hbuffer : dataStageBuffer s = ⟨.ep0ControlBuffer, 0⟩ :=
      if_pos (by rw [hlen]; exact hpos)
    have hcopy := s.load_store (p := ⟨.ep0ControlBuffer, 0⟩) rfl
      (s.load s.controlTransfer.feed.buffer (chunk total f))
    rw [Usb.load_length] at hcopy
    rw [hbuffer, dataStageCopy, hlen]
    exact hcopy
  · rw [Nat.eq_zero_of_not_pos hpos]
    rfl

/-- Queueing a data stage puts the next bytes of the response before the host. -/
theorem SendReady.dataStage (h : SendReady s₀ r cb buffer total f s e) (hf : f ≤ total)
    (htotal : total < 2 ^ 16) (hin : usbRequestDirection r.bmRequestType = 1) :
    Sending s₀ r cb buffer total f (usbControlDataStage s).2 e.dataStage ∧
      (usbControlDataStage s).2.trace = s.trace ++ [.queued 0 1 (chunk total f)] := by
  have hlen := h.len hf htotal
  have hle : chunk total f ≤ 64 := chunk_le total f
  have hrequest : s.controlTransfer.request = r := by rw [h.refines.control, h.control]; rfl
  have hdir : usbRequestDirection s.controlTransfer.request.bmRequestType = 1 := by
    rw [hrequest]
    exact hin
  have hqueue : e.dataStage = e.queueIn (dataStageBuffer s) (chunk total f) := by
    simp only [Ep0.dataStage, Ep0.queue, dataStageBuffer]
    rw [← hlen, dataStageLen, h.refines.control, ← h.refines.control, hdir]
    rfl
  have hremaining : feedForwardRemainingCount
      { buffer := dataStageBuffer s, totalCount := chunk total f, fedCount := 0 } usbEp0BufferSize =
        chunk total f := feedForwardRemainingCount_start _ hle
  have hmemory : ∀ g i, (g = .ep0ControlBuffer → chunk total f ≤ i) →
      (usbControlDataStage s).2.memory g i = s.memory g i := by
    intro g i hi
    rw [usbControlDataStage_in hdir, usbEpQueueTransferHal_memory]
    refine s.memory_store_of_ge g ?_
    intro hg
    rw [Usb.load_length, hlen]
    show 0 + _ ≤ i
    rw [Nat.zero_add]
    exact hi hg
  constructor
  · exact
      { refines := h.refines.dataStage
        quiet := by rw [hqueue]; exact h.quiet
        tx := by rw [hqueue]; rfl
        totalCount := by rw [hqueue]; rfl
        fedCount := by
          rw [hqueue]
          show add16 0 (feedForwardRemainingCount _ _) = _
          rw [hremaining, add16_of_lt (by omega), Nat.zero_add]
        control := by rw [hqueue]; exact h.control
        packet := h.packet hf htotal hdir
        kept := by
          intro i hi
          rw [hmemory _ _ (fun _ => by omega)]
          exact h.kept i (by omega) }
  · rw [usbControlDataStage_trace, hdir, hlen]

/-! ### A completion -/

/-- The state in which `usb_control_transfer` has recorded a packet of the data stage. -/
def recordedState (s : Usb) (r : UsbControlRequest) (n : ℕ) : Usb :=
  usbControlDataReceived ((usbEpClearCorrectTransfer s 0 usbDirDeviceOutHostInIdx).log
    (.dataStage r n)) n

/-- The state in which it has recorded the packet the host has read. -/
def sentState (s : Usb) (r : UsbControlRequest) (n : ℕ) : Usb := recordedState (busIn s 0) r n

theorem usbControlDataReceived_in {s : Usb}
    (h : usbRequestDirection s.controlTransfer.request.bmRequestType = 1) (n : ℕ) :
    usbControlDataReceived s n = s.setControl (Ep0.advance s.controlTransfer n) := by
  have hout : ¬usbRequestDirection s.controlTransfer.request.bmRequestType =
      usbDirDeviceInHostOutIdx := by
    rw [h]
    decide
  simp only [usbControlDataReceived]
  rw [if_neg hout]
  rfl

/-- The callbacks queue nothing after the SETUP stage. -/
theorem controlCompleteCb_later (s : Usb) (g : ControlCompleteCb) {stage : ControlStage}
    (hstage : stage ≠ .setup) :
    (controlCompleteCb s g stage).2.trace =
        s.trace ++ [.callback g stage s.controlTransfer.request] ∧
      (controlCompleteCb s g stage).2.controlTransfer = s.controlTransfer := by
  simp only [controlCompleteCb]
  cases g with
  | usbDeviceSetAddressComplete =>
    simp only [usbDeviceSetAddressComplete]
    split
    · exact ⟨rfl, rfl⟩
    · exact ⟨rfl, rfl⟩
  | usbCdcControlTransfer =>
    dsimp only
    obtain ⟨-, c, hstate⟩ := usbCdcControlTransfer_later
      (s.log (.callback .usbCdcControlTransfer stage s.controlTransfer.request)) hstage
      s.controlTransfer.request
    rw [hstate]
    exact ⟨rfl, rfl⟩

theorem Sending.poll (h : Sending s₀ r cb buffer total f s e) :
    Ep0Refines (busIn s 0) { e with reg := { e.reg with tx := .nak, vttx := true } } := by
  have hpolled : e.poll = { e with reg := { e.reg with tx := .nak, vttx := true } } := if_pos h.tx
  exact hpolled ▸ h.refines.poll

/-- The VTTX half with everything fed: the packet is recorded, and the data stage ends or goes on. -/
theorem usbIrqTx_recorded {n : ℕ} {epReg : Word} (hvttx : vttx epReg = true)
    (htotal : (s.epTransferSet 0 1).feed.totalCount = n)
    (hfed : (s.epTransferSet 0 1).feed.fedCount = n) (hrequest : s.controlTransfer.request = r)
    (hin : usbRequestDirection r.bmRequestType = 1) :
    usbIrqTx noCallbacks s 0 epReg =
      (if r.wLength.toNat = (recordedState s r n).controlTransfer.feed.fedCount ∨
          n < usbEp0BufferSize then usbControlDataComplete (recordedState s r n)
        else usbControlDataStage (recordedState s r n)).2 := by
  have htotal' : ((usbEpClearCorrectTransfer s 0 usbDirDeviceOutHostInIdx).epTransferSet 0
      usbDirDeviceOutHostInIdx).feed.totalCount = n := htotal
  have hfed' : ((usbEpClearCorrectTransfer s 0 usbDirDeviceOutHostInIdx).epTransferSet 0
      usbDirDeviceOutHostInIdx).feed.fedCount = n := hfed
  have hrequest' : (usbEpClearCorrectTransfer s 0
      usbDirDeviceOutHostInIdx).controlTransfer.request = r := hrequest
  have htx : usbIrqTx noCallbacks s 0 epReg = (usbControlTransfer
      (usbEpClearCorrectTransfer s 0 usbDirDeviceOutHostInIdx) 0x80#8 n).2 := by
    simp only [usbIrqTx]
    rw [if_pos hvttx, htotal', hfed', if_neg (not_not.mpr rfl)]
    rfl
  have hdir : usbRequestDirection r.bmRequestType = usbEpDirIdx 0x80#8 := hin
  have hout : ∀ feed : FeedForwardBuffer, ¬(usbRequestDirection r.bmRequestType =
      usbDirDeviceInHostOutIdx ∧ feed.buffer = .null) :=
    fun _ hc => absurd (hin.symm.trans hc.1) (by decide)
  rw [htx]
  simp only [usbControlTransfer]
  rw [hrequest', if_neg (not_not.mpr hdir), if_neg (hout _)]
  rfl

theorem Sending.step_eq (h : Sending s₀ r cb buffer total f s e)
    (hin : usbRequestDirection r.bmRequestType = 1) :
    ep0Step (ep0Step s .poll) .irq =
      (if r.wLength.toNat = (sentState s r (chunk total f)).controlTransfer.feed.fedCount ∨
          chunk total f < usbEp0BufferSize then usbControlDataComplete (sentState s r (chunk total f))
        else usbControlDataStage (sentState s r (chunk total f))).2 := by
  have hpoll := h.poll
  have hvtrx : vtrx ((busIn s 0).chep 0) = false := (congrArg EpView.vtrx hpoll.reg).trans h.quiet
  have hvttx : vttx ((busIn s 0).chep 0) = true := congrArg EpView.vttx hpoll.reg
  have hrx : usbIrqRx noCallbacks (busIn s 0) 0 ((busIn s 0).chep 0) = busIn s 0 :=
    if_neg (by rw [hvtrx]; decide)
  have hfeed : ((busIn s 0).epTransferSet 0 1).feed = e.txFeed := hpoll.txFeed
  have hrequest : (busIn s 0).controlTransfer.request = r := by
    rw [hpoll.control, h.control]
    rfl
  show usbIrqTx noCallbacks (usbIrqRx noCallbacks (busIn s 0) 0 ((busIn s 0).chep 0)) 0
    ((busIn s 0).chep 0) = _
  rw [hrx]
  exact usbIrqTx_recorded hvttx (hfeed ▸ h.totalCount) (hfeed ▸ h.fedCount) hrequest hin

/-- The completion of a packet moves the control transfer on by its bytes. -/
theorem Sending.sent (h : Sending s₀ r cb buffer total f s e)
    (hin : usbRequestDirection r.bmRequestType = 1) (hf : f + chunk total f < 2 ^ 16) :
    (∃ e', SendReady s₀ r cb buffer total (f + chunk total f) (sentState s r (chunk total f)) e') ∧
      (sentState s r (chunk total f)).trace = s.trace ++ [.txPacket 0 (txPacketBytes s 0),
        .dataStage r (chunk total f)] := by
  have hle : chunk total f ≤ 64 := chunk_le total f
  have hcleared : Ep0Refines (usbEpClearCorrectTransfer (busIn s 0) 0 usbDirDeviceOutHostInIdx)
      { e with reg := { e.reg with tx := .nak, vttx := false } } := h.poll.clearFlag 1
  have hlog : Ep0Refines ((usbEpClearCorrectTransfer (busIn s 0) 0 usbDirDeviceOutHostInIdx).log
      (.dataStage r (chunk total f)))
      (Ep0.log { e with reg := { e.reg with tx := .nak, vttx := false } }
        (.dataStage r (chunk total f))) := hcleared.log rfl
  have hreceived : sentState s r (chunk total f) =
      ((usbEpClearCorrectTransfer (busIn s 0) 0 usbDirDeviceOutHostInIdx).log
        (.dataStage r (chunk total f))).setControl (Ep0.advance e.control (chunk total f)) := by
    have hdir : usbRequestDirection e.control.request.bmRequestType = 1 := by
      rw [h.control]
      exact hin
    rw [sentState, recordedState, usbControlDataReceived_in (hlog.control ▸ hdir), hlog.control]
    rfl
  have hadvance : Ep0.advance e.control (chunk total f) =
      sendingTransfer r cb buffer total (f + chunk total f) := by
    rw [h.control]
    simp only [Ep0.advance, sendingTransfer]
    rw [u16_of_lt (by omega), add16_of_lt hf, Ptr.add_add]
  rw [hreceived, hadvance]
  refine ⟨⟨_, hlog.setControl _, h.quiet, rfl, ?_⟩, ?_⟩
  · have hbus : ∀ g, (busIn s 0).memory g = s.memory g := by
      intro g
      simp only [busIn]
      split
      · rfl
      · rfl
    intro i hi
    show (busIn s 0).memory buffer.region _ = _
    rw [hbus]
    exact h.kept i hi
  · have hvalid : epState (s.chep 0) 1 = .valid := (congrArg EpView.tx h.refines.reg).trans h.tx
    have hbus : (busIn s 0).trace = s.trace ++ [.txPacket 0 (txPacketBytes s 0)] := by
      simp only [busIn]
      rw [if_pos hvalid]
      rfl
    show (busIn s 0).trace ++ [.dataStage r (chunk total f)] = _
    rw [hbus, List.append_assoc]
    rfl

/-- The end of the data stage: the callback once, and the OUT status stage. -/
theorem SendReady.complete (h : SendReady s₀ r cb buffer total f s e)
    (hin : usbRequestDirection r.bmRequestType = 1) (haccept : CallbackAccepts cb r) :
    (usbControlDataComplete s).2.trace = s.trace ++ dataEndTrace cb r ∧
      epState ((usbControlDataComplete s).2.chep 0) 0 = .valid := by
  have hcontrol : s.controlTransfer = sendingTransfer r cb buffer total f :=
    h.refines.control.trans h.control
  have hcallback : (usbControlDataCallback s).1 = true ∧
      (usbControlDataCallback s).2.trace =
        s.trace ++ (cb.toList.map fun g => .callback g .data r) ∧
      (usbControlDataCallback s).2.controlTransfer = s.controlTransfer ∧
      ∃ e', Ep0Refines (usbControlDataCallback s).2 e' := by
    simp only [usbControlDataCallback]
    have hcb : s.controlTransfer.controlCompleteCb = cb := by rw [hcontrol]; rfl
    rw [hcb]
    cases cb with
    | none => exact ⟨rfl, (List.append_nil _).symm, rfl, e, h.refines⟩
    | some g =>
      obtain ⟨htrace, hsame⟩ := controlCompleteCb_later s g
        (show ControlStage.data ≠ .setup from ControlStage.noConfusion)
      rw [show s.controlTransfer.request = r by rw [hcontrol]; rfl] at htrace
      have href := h.refines.callback g (show ControlStage.data ≠ .setup from
        ControlStage.noConfusion)
      exact ⟨haccept g rfl s (by rw [hcontrol]; rfl), htrace, hsame, _, href.2⟩
  obtain ⟨hok, htrace, hsame, e', href⟩ := hcallback
  have hrequest : (usbControlDataCallback s).2.controlTransfer.request = r := by
    rw [hsame, hcontrol]
    rfl
  have hstatus : usbControlDataComplete s =
      usbControlStatusStage (usbControlDataCallback s).2 r := by
    simp only [usbControlDataComplete]
    rw [if_pos hok, hrequest]
  have harmed := (href.statusStage r).reg
  simp only [Ep0.statusStage] at harmed
  rw [hin] at harmed
  constructor
  · rw [hstatus, usbControlStatusStage_eq, usbEpQueueTransferHal_trace, htrace, hin,
      List.append_assoc]
    rfl
  · rw [hstatus]
    exact congrArg EpView.rx harmed

/-! ### The whole data stage -/

/-- A response from `f` on is its next packet of 64 bytes and the response behind it. -/
theorem load_packet (buffer : Ptr) (hmore : f + 64 ≤ total) :
    s₀.load (buffer.add f) (total - f) =
      s₀.load (buffer.add f) 64 ++ s₀.load (buffer.add (f + 64)) (total - (f + 64)) := by
  have hload := s₀.load_append (buffer.add f) 64 (total - (f + 64))
  rw [show 64 + (total - (f + 64)) = total - f by omega] at hload
  rw [← hload, Ptr.add_add]

/-- The host's loop from a packet that waits. -/
theorem Sending.read (hin : usbRequestDirection r.bmRequestType = 1)
    (haccept : CallbackAccepts cb r) (htotal : total ≤ r.wLength.toNat) (fuel : ℕ) :
    ∀ (f : ℕ) (s : Usb) (e : Ep0), Sending s₀ r cb buffer total f s e → f ≤ total →
      f < r.wLength.toNat → (total - f) / 64 < fuel →
      ∃ first rest s', hostReadData r.wLength.toNat fuel f s = some (first :: rest, s') ∧
        first.length = chunk total f ∧
        Packeted usbEp0BufferSize (r.wLength.toNat - f) (s₀.load (buffer.add f) (total - f))
          (first :: rest) ∧
        s'.trace = s.trace ++ sentTrace r first ++ rest.flatMap (packetTrace r) ++
          dataEndTrace cb r ∧
        epState (s'.chep 0) 0 = .valid := by
  have hsize : usbEp0BufferSize = 64 := rfl
  have hwLength : r.wLength.toNat < 2 ^ 16 := r.wLength.isLt
  induction fuel with
  | zero => exact fun f s e _ _ _ hfuel => absurd hfuel (Nat.not_lt_zero _)
  | succ fuel ih =>
    intro f s e h hf hlt hfuel
    have hle : chunk total f ≤ 64 := chunk_le total f
    have hchunk : chunk total f = min (total - f) 64 := rfl
    have hvalid : epState (s.chep 0) 1 = .valid := (congrArg EpView.tx h.refines.reg).trans h.tx
    have hlen : (txPacketBytes s 0).length = chunk total f := by
      rw [h.packet, Usb.load_length]
    obtain ⟨⟨e', hsent⟩, hsentTrace⟩ := h.sent hin (by omega)
    have hfed : (sentState s r (chunk total f)).controlTransfer.feed.fedCount =
        f + chunk total f := by
      rw [hsent.refines.control, hsent.control]
      rfl
    have hrecorded : (sentState s r (chunk total f)).trace =
        s.trace ++ sentTrace r (txPacketBytes s 0) := by
      rw [hsentTrace, sentTrace, hlen]
    rw [hostReadData, if_pos hvalid]
    dsimp only
    rw [hlen, h.step_eq hin, hfed]
    by_cases hend : chunk total f < usbEp0BufferSize ∨ r.wLength.toNat ≤ f + chunk total f
    · have hdevice : r.wLength.toNat = f + chunk total f ∨ chunk total f < usbEp0BufferSize := by
        omega
      have hall : chunk total f = total - f := by omega
      obtain ⟨hcomplete, harmed⟩ := hsent.complete hin haccept
      rw [if_pos hend, if_pos hdevice]
      refine ⟨_, _, _, rfl, hlen, ?_, ?_, harmed⟩
      · rw [h.packet, hall]
        refine Packeted.single (by omega) ?_
        rw [Usb.load_length]
        omega
      · rw [hcomplete, hrecorded, List.flatMap_nil, List.append_nil]
    · have hdevice : ¬(r.wLength.toNat = f + chunk total f ∨ chunk total f < usbEp0BufferSize) := by
        omega
      have hfull : chunk total f = 64 := by omega
      have hmore : f + 64 ≤ total := by omega
      rw [hfull] at hsent hend hdevice hrecorded hlen ⊢
      obtain ⟨hsending, hqueued⟩ := hsent.dataStage hmore (by omega) hin
      obtain ⟨next, rest, s', hread, hnext, hpackets, htrace, harmed⟩ :=
        ih (f + 64) _ _ hsending hmore (by omega) (by omega)
      rw [if_neg hend, if_neg hdevice, hread]
      refine ⟨_, _, _, rfl, hlen, ?_, ?_, harmed⟩
      · have hsplit : s₀.load (buffer.add f) (total - f) =
            txPacketBytes s 0 ++ s₀.load (buffer.add (f + 64)) (total - (f + 64)) := by
          rw [h.packet, hfull]
          exact load_packet buffer hmore
        rw [hsplit]
        refine Packeted.cons ?_ hlen
        rw [hsize, Nat.sub_sub]
        exact hpackets
      · rw [htrace, hqueued, hrecorded, ← hnext, List.flatMap_cons, packetTrace_eq]
        simp only [List.append_assoc]

end Stage

/-! ### The call -/

section Call

variable {r : UsbControlRequest}

/-- `usb_ep_initiate_control_response` puts the first packet before the host. -/
theorem sending_response (h : Ep0Refines s e) (hquiet : e.reg.vtrx = false) (buffer : Ptr)
    (len : ℕ) (hin : usbRequestDirection r.bmRequestType = 1) (hlength : 0 < r.wLength.toNat) :
    (∃ e', Sending (responseState s r buffer len) r e.control.controlCompleteCb buffer
        (min len r.wLength.toNat) 0 (usbEpInitiateControlResponse s r buffer len).2 e') ∧
      (usbEpInitiateControlResponse s r buffer len).2.trace =
        s.trace ++ [.queued 0 1 (chunk (min len r.wLength.toNat) 0)] := by
  have hstart : SendReady (responseState s r buffer len) r e.control.controlCompleteCb buffer
      (min len r.wLength.toNat) 0 (responseState s r buffer len)
      { e with
        control := sendingTransfer r e.control.controlCompleteCb buffer
          (min len r.wLength.toNat) 0 } := by
    refine ⟨?_, hquiet, rfl, fun i _ => rfl⟩
    simp only [responseState]
    rw [responseTotal, h.control]
    exact h.setControl _
  obtain ⟨hsending, hqueued⟩ :=
    hstart.dataStage (Nat.zero_le _) (responseTotal_lt r len) hin
  rw [usbEpInitiateControlResponse_data hlength]
  exact ⟨⟨_, hsending⟩, hqueued⟩

/-- Reading from the state the call leaves: the first `wLength` bytes of the response in order, in
full packets but for the last, with an empty packet when they end at a packet boundary before
`wLength`; then the callback once, and one OUT status stage.  The iteration of the handler that
made the call may still have a finished IN packet to handle, which is left out here. -/
theorem response_read_exactly {s : Usb} {e : Ep0} (h : Ep0Refines s e)
    (hquiet : e.reg.vtrx = false) {r : UsbControlRequest} (buffer : Ptr) (len : ℕ)
    (hin : usbRequestDirection r.bmRequestType = 1) (hlength : 0 < r.wLength.toNat)
    (haccept : CallbackAccepts e.control.controlCompleteCb r) {fuel : ℕ}
    (hfuel : min len r.wLength.toNat / 64 < fuel) :
    ∃ packets s',
      hostReadData r.wLength.toNat fuel 0 (usbEpInitiateControlResponse s r buffer len).2 =
        some (packets, s') ∧
      ReadExactly s s' e.control.controlCompleteCb r (s.load buffer (min len r.wLength.toNat))
        packets := by
  obtain ⟨⟨e', hsending⟩, hqueued⟩ := sending_response h hquiet buffer len hin hlength
  obtain ⟨first, rest, s', hread, hfirst, hpackets, htrace, harmed⟩ := Sending.read hin haccept
    (Nat.min_le_right _ _) fuel 0 _ _ hsending (Nat.zero_le _) hlength hfuel
  refine ⟨_, s', hread, hpackets, ?_, harmed⟩
  rw [htrace, hqueued, ← hfirst, List.flatMap_cons, packetTrace_eq]
  simp only [List.append_assoc]

/-! ### The iteration of the handler -/

/-- What is left of the iteration that handles a SETUP packet when its request handler calls for a
response: the call, and then the VTTX half. -/
def responseIteration (s : Usb) (r : UsbControlRequest) (buffer : Ptr) (len : ℕ) : Usb :=
  usbIrqTx noCallbacks ((usbEpInitiateControlResponse s r buffer len).2.log (.setupHandled r true)) 0
    (s.chep 0)

/-- The calls and packets of a response whose handler returns with the first packet queued. -/
def responseTrace (cb : Option ControlCompleteCb) (r : UsbControlRequest) :
    List (List Byte) → List UsbEvent
  | [] => []
  | first :: rest => [.queued 0 1 first.length, .setupHandled r true] ++ sentTrace r first ++
      rest.flatMap (packetTrace r) ++ dataEndTrace cb r

/-- What a host that reads the response to its end should get from the device. -/
structure ResponseRead (s s' : Usb) (r : UsbControlRequest) (bytes : List Byte)
    (packets : List (List Byte)) : Prop where
  packeted : Packeted usbEp0BufferSize r.wLength.toNat bytes packets
  trace : s'.trace = s.trace ++ responseTrace s.controlTransfer.controlCompleteCb r packets
  armed : epState (s'.chep 0) 0 = .valid

/-- The data stage that a call in the state `s` starts is exact. -/
def ResponseExact (s : Usb) (r : UsbControlRequest) (buffer : Ptr) (len : ℕ) : Prop :=
  ∀ fuel, min len r.wLength.toNat / 64 < fuel → ∃ packets s',
    hostReadData r.wLength.toNat fuel 0 (responseIteration s r buffer len) = some (packets, s') ∧
      ResponseRead s s' r (s.load buffer (min len r.wLength.toNat)) packets

theorem Sending.log {s₀ : Usb} {cb : Option ControlCompleteCb} {buffer : Ptr} {total f : ℕ}
    (h : Sending s₀ r cb buffer total f s e) {ev : UsbEvent} (hev : ev.isEp0 = true) :
    Sending s₀ r cb buffer total f (s.log ev) (e.log ev) :=
  { refines := h.refines.log hev, quiet := h.quiet, tx := h.tx, totalCount := h.totalCount
    fedCount := h.fedCount, control := h.control, packet := h.packet, kept := h.kept }

/-- With no finished IN packet to handle the data stage is exact. -/
theorem response_exact (h : Ep0Refines s e) (hquiet : e.reg.vtrx = false) (buffer : Ptr) (len : ℕ)
    (hin : usbRequestDirection r.bmRequestType = 1) (hlength : 0 < r.wLength.toNat)
    (haccept : CallbackAccepts s.controlTransfer.controlCompleteCb r)
    (hflag : vttx (s.chep 0) = false) : ResponseExact s r buffer len := by
  intro fuel hfuel
  have hcontrol := h.control
  obtain ⟨⟨e', hsending⟩, hqueued⟩ := sending_response h hquiet buffer len hin hlength
  have hlogged := hsending.log (show UsbEvent.isEp0 (.setupHandled r true) = true from rfl)
  rw [hcontrol] at haccept
  obtain ⟨first, rest, s', hread, hfirst, hpackets, htrace, harmed⟩ := Sending.read hin haccept
    (Nat.min_le_right _ _) fuel 0 _ _ hlogged (Nat.zero_le _) hlength hfuel
  have hiteration : responseIteration s r buffer len =
      (usbEpInitiateControlResponse s r buffer len).2.log (.setupHandled r true) :=
    if_neg (ne_true_of_eq_false hflag)
  refine ⟨first :: rest, s', by rw [hiteration]; exact hread, hpackets, ?_, harmed⟩
  have hlog : ((usbEpInitiateControlResponse s r buffer len).2.log (.setupHandled r true)).trace =
      (usbEpInitiateControlResponse s r buffer len).2.trace ++ [.setupHandled r true] := rfl
  rw [htrace, hlog, hqueued, ← hfirst, hcontrol, responseTrace]
  simp only [List.append_assoc, List.cons_append, List.nil_append]

/-! ### The trace only grows -/

theorem usbControlDataReceived_trace (s : Usb) (n : ℕ) :
    s.trace <+: (usbControlDataReceived s n).trace := by
  simp only [usbControlDataReceived]
  split
  · exact List.prefix_append _ _
  · exact List.prefix_rfl

theorem usbControlDataComplete_trace (s : Usb) : s.trace <+: (usbControlDataComplete s).2.trace := by
  have hcb : s.trace <+: (usbControlDataCallback s).2.trace := by
    simp only [usbControlDataCallback]
    split
    · rw [(controlCompleteCb_later s _ ControlStage.noConfusion).1]
      exact List.prefix_append _ _
    · exact List.prefix_rfl
  simp only [usbControlDataComplete]
  split
  · rw [usbControlStatusStage_eq, usbEpQueueTransferHal_trace]
    exact hcb.trans (List.prefix_append _ _)
  · exact hcb

/-- The end of a data stage and its next packet both add to the trace. -/
theorem stage_trace {p : Prop} [Decidable p] (s : Usb) :
    s.trace <+: (if p then usbControlDataComplete s else usbControlDataStage s).2.trace := by
  split
  · exact usbControlDataComplete_trace s
  · rw [usbControlDataStage_trace]
    exact List.prefix_append _ _

theorem usbControlTransfer_trace (s : Usb) (epAddr : Byte) (n : ℕ) :
    s.trace <+: (usbControlTransfer s epAddr n).2.trace := by
  simp only [usbControlTransfer]
  split
  · split
    · exact List.prefix_rfl
    · split
      · rw [(controlCompleteCb_later s _ ControlStage.noConfusion).1]
        exact List.prefix_append _ _
      · exact List.prefix_rfl
  · have hlog : s.trace <+: (s.log (.dataStage s.controlTransfer.request n)).trace :=
      List.prefix_append _ _
    split
    · exact hlog
    · exact (hlog.trans (usbControlDataReceived_trace _ n)).trans (stage_trace _)

theorem usbIrqTx_trace (s : Usb) (epReg : Word) :
    s.trace <+: (usbIrqTx noCallbacks s 0 epReg).trace := by
  simp only [usbIrqTx]
  split
  · split
    · exact List.prefix_rfl
    · exact usbControlTransfer_trace (usbEpClearCorrectTransfer s 0 usbDirDeviceOutHostInIdx) _ _
  · exact List.prefix_rfl

/-- While no packet comes in, an iteration of the handler is its VTTX half. -/
theorem ep0Step_irq (h : Ep0Refines s e) (hquiet : e.reg.vtrx = false) :
    ep0Step s .irq = usbIrqTx noCallbacks s 0 (s.chep 0) := by
  have hvtrx : vtrx (s.chep 0) = false := (congrArg EpView.vtrx h.reg).trans hquiet
  show usbIrqTx noCallbacks (usbIrqRx noCallbacks s 0 (s.chep 0)) 0 (s.chep 0) = _
  rw [usbIrqRx, if_neg (ne_true_of_eq_false hvtrx)]

theorem busIn_trace (s : Usb) (epIdn : ℕ) : s.trace <+: (busIn s epIdn).trace := by
  simp only [busIn]
  split
  · exact List.prefix_append _ _
  · exact List.prefix_rfl

/-- What a host reads adds to the trace. -/
theorem hostReadData_trace {wLength : ℕ} (fuel : ℕ) : ∀ {got : ℕ} {s : Usb} {e : Ep0},
    Ep0Refines s e → e.reg.vtrx = false → ∀ {packets : List (List Byte)} {s' : Usb},
      hostReadData wLength fuel got s = some (packets, s') → s.trace <+: s'.trace := by
  induction fuel with
  | zero =>
    intro got s e _ _ packets s' hread
    cases hread
  | succ fuel ih =>
    intro got s e h hquiet packets s' hread
    have hpolled := h.poll
    have hpollQuiet : e.poll.reg.vtrx = false := by
      simp only [Ep0.poll]
      split
      · exact hquiet
      · exact hquiet
    have hirq := ep0Step_irq hpolled hpollQuiet
    have hnext : Ep0Refines (ep0Step (ep0Step s .poll) .irq)
        (e.poll.irqTx (vttx ((busIn s 0).chep 0))) := by
      show Ep0Refines (ep0Step (busIn s 0) .irq) _
      rw [hirq]
      exact hpolled.irqTx rfl
    have hgrows : s.trace <+: (ep0Step (ep0Step s .poll) .irq).trace := by
      show s.trace <+: (ep0Step (busIn s 0) .irq).trace
      rw [hirq]
      exact (busIn_trace s 0).trans (usbIrqTx_trace _ _)
    rw [hostReadData] at hread
    split at hread
    · dsimp only at hread
      split at hread
      · obtain ⟨-, rfl⟩ := Prod.mk.inj (Option.some.inj hread)
        exact hgrows
      · obtain ⟨⟨rest, last⟩, hrest, heq⟩ := Option.map_eq_some_iff.mp hread
        obtain ⟨-, rfl⟩ := Prod.mk.inj heq
        exact hgrows.trans (ih hnext ((Ep0.irqTx_vtrx _ _).trans hpollQuiet) hrest)
    · exact ih h hquiet hread

/-! ### An older packet that waits to be handled -/

theorem recordedState_trace (hin : usbRequestDirection s.controlTransfer.request.bmRequestType = 1)
    (n : ℕ) : (recordedState s r n).trace = s.trace ++ [.dataStage r n] := by
  have hlogged : usbRequestDirection ((usbEpClearCorrectTransfer s 0 usbDirDeviceOutHostInIdx).log
      (.dataStage r n)).controlTransfer.request.bmRequestType = 1 := hin
  rw [recordedState, usbControlDataReceived_in hlogged]
  rfl

/-- With an older IN packet to handle, the first packet of the response is recorded as read before
the host can have it. -/
theorem responseIteration_recorded (h : Ep0Refines s e) (hquiet : e.reg.vtrx = false) (buffer : Ptr)
    (len : ℕ) (hin : usbRequestDirection r.bmRequestType = 1) (hlength : 0 < r.wLength.toNat)
    (hflag : vttx (s.chep 0) = true) :
    (∃ e', Ep0Refines (responseIteration s r buffer len) e' ∧ e'.reg.vtrx = false) ∧
      s.trace ++ [.queued 0 1 (chunk (min len r.wLength.toNat) 0), .setupHandled r true,
          .dataStage r (chunk (min len r.wLength.toNat) 0)] <+:
        (responseIteration s r buffer len).trace := by
  obtain ⟨⟨e', hsending⟩, hqueued⟩ := sending_response h hquiet buffer len hin hlength
  have hlogged := hsending.log (show UsbEvent.isEp0 (.setupHandled r true) = true from rfl)
  have hrequest : ((usbEpInitiateControlResponse s r buffer len).2.log
      (.setupHandled r true)).controlTransfer.request = r := by
    rw [hlogged.refines.control, hlogged.control]
    rfl
  constructor
  · exact ⟨_, hlogged.refines.irqTx rfl, (Ep0.irqTx_vtrx _ _).trans hlogged.quiet⟩
  · rw [responseIteration, usbIrqTx_recorded hflag (hlogged.refines.txFeed ▸ hlogged.totalCount)
      (hlogged.refines.txFeed ▸ hlogged.fedCount) hrequest hin]
    have hrecorded := recordedState_trace (hrequest.symm ▸ hin) (r := r)
      (s := (usbEpInitiateControlResponse s r buffer len).2.log (.setupHandled r true))
      (chunk (min len r.wLength.toNat) 0)
    refine List.IsPrefix.trans ?_ (stage_trace _)
    have hlog : ((usbEpInitiateControlResponse s r buffer len).2.log
        (.setupHandled r true)).trace =
          (usbEpInitiateControlResponse s r buffer len).2.trace ++ [.setupHandled r true] := rfl
    rw [hrecorded, hlog, hqueued, List.append_assoc, List.append_assoc]
    exact List.prefix_rfl

theorem not_response_exact (h : Ep0Refines s e) (hquiet : e.reg.vtrx = false) (buffer : Ptr)
    (len : ℕ) (hin : usbRequestDirection r.bmRequestType = 1) (hlength : 0 < r.wLength.toNat)
    (hflag : vttx (s.chep 0) = true) : ¬ResponseExact s r buffer len := by
  intro hexact
  obtain ⟨packets, s', hread, hpackets⟩ := hexact _ (Nat.lt_succ_self _)
  obtain ⟨⟨e', hrefines, hquiet'⟩, hearly⟩ :=
    responseIteration_recorded h hquiet buffer len hin hlength hflag
  have hgrown := hearly.trans (hostReadData_trace _ hrefines hquiet' hread)
  rw [hpackets.trace, List.prefix_append_right_inj] at hgrown
  cases packets with
  | nil => exact absurd (List.prefix_nil.mp hgrown) (List.cons_ne_nil _ _)
  | cons first rest =>
    -- the third event is the record of the packet, where the packet itself should be
    simp only [responseTrace, sentTrace, List.cons_append, List.nil_append, List.cons_prefix_cons,
      reduceCtorEq, false_and, and_false] at hgrown

end Call

/-- **The iteration of a SETUP packet** that is answered with a response: the state its handler
calls in has the VTTX of the register value that the iteration has read. -/
theorem ep0Step_irq_response {s : Usb} {buffer : Ptr} {len : ℕ} (hvtrx : vtrx (s.chep 0) = true)
    (hsetup : setupFlag (s.chep 0) = true)
    (hcount : usbPmaCountGet s 0 usbEpRxCountAddrIdx = 8)
    (haction : requestAction (pendingRequest s) = .response buffer len) :
    ∃ s', Handled (pendingRequest s) (usbEpClearCorrectTransfer s 0 usbDirDeviceInHostOutIdx) s' ∧
      vttx (s'.chep 0) = vttx (s.chep 0) ∧
      ep0Step s .irq = responseIteration s' (pendingRequest s) buffer len := by
  have hflag : vttx ((usbEpClearCorrectTransfer s 0 usbDirDeviceInHostOutIdx).chep 0) =
      vttx (s.chep 0) := by
    show vttx (Function.update s.chep 0 _ 0) = _
    rw [Function.update_self]
    exact congrArg EpView.vttx (epView_clearCorrectTransfer (s.chep 0) usbDirDeviceInHostOutIdx)
  have hrx : usbIrqRx noCallbacks s 0 (s.chep 0) = processControlRequestHal
      (usbEpClearCorrectTransfer s 0 usbDirDeviceInHostOutIdx) (pendingRequest s) := by
    rw [usbIrqRx, if_pos hvtrx, if_pos hsetup]
    exact if_pos hcount
  have hout := usbProcessControlRequest_outcome
    (usbEpClearCorrectTransfer s 0 usbDirDeviceInHostOutIdx) (pendingRequest s)
  generalize hprocess : usbProcessControlRequest
    (usbEpClearCorrectTransfer s 0 usbDirDeviceInHostOutIdx) (pendingRequest s) = p at hout
  cases hout with
  | response buffer' len' s' hact hhandled =>
    obtain ⟨rfl, rfl⟩ : buffer' = buffer ∧ len' = len := by
      rw [haction] at hact
      exact ⟨(RequestAction.response.inj hact).1.symm, (RequestAction.response.inj hact).2.symm⟩
    have hkept : vttx (s'.chep 0) = vttx (s.chep 0) := by
      rw [hhandled.chep]
      exact hflag
    refine ⟨s', hhandled, hkept, ?_⟩
    show usbIrqTx noCallbacks (usbIrqRx noCallbacks s 0 (s.chep 0)) 0 (s.chep 0) = _
    rw [hrx, processControlRequestHal, hprocess]
    simp only [responseIteration, usbIrqTx, hkept]
  | reject s' hact | status s' hact | setAddress s' hact | setConfiguration s' hact
  | endpointFeature s' hact =>
    rw [haction] at hact
    cases hact

/-- **The data stage of a response**, exactly: in every state of EP0 in which a request handler calls
for one, a host that reads it to the end gets the first `wLength` bytes in order, in full packets
but for the last, with an empty packet when they end at a packet boundary before `wLength`, and then
the callback is called once and one OUT status stage queued, if and only if no finished IN packet
waits to be handled. -/
theorem response_exact_iff {s : Usb} {e : Ep0} (h : Ep0Refines s e) (hquiet : e.reg.vtrx = false)
    {r : UsbControlRequest} (buffer : Ptr) (len : ℕ)
    (hin : usbRequestDirection r.bmRequestType = 1) (hlength : 0 < r.wLength.toNat)
    (haccept : CallbackAccepts s.controlTransfer.controlCompleteCb r) :
    ResponseExact s r buffer len ↔ vttx (s.chep 0) = false := by
  constructor
  · intro hexact
    rw [← Bool.not_eq_true]
    exact fun hflag => not_response_exact h hquiet buffer len hin hlength hflag hexact
  · exact response_exact h hquiet buffer len hin hlength haccept

/-- GET_DESCRIPTOR for the configuration, as a host asks for all of it. -/
def getConfigurationDescriptor : UsbControlRequest :=
  { bmRequestType := 0x80#8, bRequest := usbStdGetDescriptor, wValue := 0x0200#16, wIndex := 0#16
    wLength := 255#16 }

theorem response_exact_configuration :
    ResponseExact usbBoot getConfigurationDescriptor ⟨.usbConfigurationDescriptor, 0⟩ 75 :=
  (response_exact_iff ep0Refines_boot rfl ⟨.usbConfigurationDescriptor, 0⟩ 75
    (r := getConfigurationDescriptor) (by decide) (by decide) (fun f hf => by cases hf)).mpr
    (by decide)

/-- The status stage of SET_ADDRESS has been read, and the next SETUP packet is there too before the
handler has run. -/
def lateSetup : Usb :=
  runFrom ep0Step usbBoot [.setup setAddressFive, .irq, .poll, .setup getConfigurationDescriptor]

/-- The state in which the handler of a GET_DESCRIPTOR packet calls for the response. -/
def descriptorCall (s : Usb) : Usb :=
  let s := usbControlSetCompleteCallback (usbEpClearCorrectTransfer s 0 usbDirDeviceInHostOutIdx) none
  s.setDevice { s.usbDevice with connected := true }

theorem ep0Refines_descriptorCall {s : Usb} {e : Ep0} (h : Ep0Refines s e) :
    ∃ e', Ep0Refines (descriptorCall s) e' ∧ e'.reg.vtrx = false := by
  have hcleared := h.clearFlag usbDirDeviceInHostOutIdx
  refine ⟨_, (hcleared.setControl { s.controlTransfer with controlCompleteCb := none }).of_same
    ⟨rfl, fun _ _ => rfl, rfl, rfl⟩ rfl rfl, rfl⟩

theorem ep0Refines_lateCall :
    ∃ e, Ep0Refines (descriptorCall lateSetup) e ∧ e.reg.vtrx = false :=
  ep0Refines_descriptorCall ((((ep0Refines_boot.step (.setup setAddressFive)).step .irq).step
    .poll).step (.setup getConfigurationDescriptor))

theorem lateSetup_irq :
    ep0Step lateSetup .irq = responseIteration (descriptorCall lateSetup) getConfigurationDescriptor
      ⟨.usbConfigurationDescriptor, 0⟩ 75 := rfl

/-- The host then reads the last 11 bytes of the configuration descriptor only. -/
theorem late_response_truncated :
    ¬ ∀ (s : Usb) (e : Ep0) (r : UsbControlRequest) (buffer : Ptr) (len : ℕ), Ep0Refines s e →
      e.reg.vtrx = false → usbRequestDirection r.bmRequestType = 1 → 0 < r.wLength.toNat →
      CallbackAccepts s.controlTransfer.controlCompleteCb r → ResponseExact s r buffer len := by
  intro h
  obtain ⟨e, hrefines, hquiet⟩ := ep0Refines_lateCall
  obtain ⟨packets, s', hread, hpackets⟩ := h (descriptorCall lateSetup) e getConfigurationDescriptor
    ⟨.usbConfigurationDescriptor, 0⟩ 75 hrefines hquiet (by decide) (by decide)
    (fun f hf => by cases hf) 2 (by decide)
  have hlengths : (hostReadData 255 2 0 (ep0Step lateSetup .irq)).map
      (fun p => p.1.map List.length) = some [11] := by decide +kernel
  rw [← lateSetup_irq] at hread
  have hflat := congrArg List.length hpackets.packeted.flatten
  have hsome : packets.map List.length = [11] := by
    have hmap := congrArg (Option.map fun p => p.1.map List.length) hread
    exact (Option.some.inj (hlengths.symm.trans hmap)).symm
  rw [List.length_flatten, hsome, Usb.load_length] at hflat
  exact absurd hflat (by decide)

end PcbMill
