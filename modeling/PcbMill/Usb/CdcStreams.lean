import PcbMill.Usb.CdcRefinement

/-!
# The streams of the CDC interface

From the configured device on, in every interleaving of the application's calls, the host's
packets and the interrupt handler with its callbacks: the receive stream is whole exactly while
no handled packet fills the ring and no call of `usb_cdc_read_ep` clears a packet that waits to
be handled, and the transmit stream exactly while no write meets a transfer in flight or fills
the ring.
-/

namespace PcbMill

open Run Conservation

/-- `CdcRefines` holds of the configured device. -/
theorem cdcRefines_boot : CdcRefines 0 cdcBoot (cdcPipe cdcBoot) where
  configured :=
    { configNum := by decide
      epAddrIn := by decide
      epAddrOut := by decide
      rxRing := ⟨by decide, by decide, by decide, by decide⟩
      rxSize := by decide
      txRing := ⟨by decide, by decide, by decide, by decide⟩
      txSize := by decide
      txEmpty := by decide }
  rxSlot :=
    { addr := by decide
      capacity := by decide
      buffer := by decide
      maxPacketSize := by decide
      fed := by decide }
  txSlot :=
    { addr := by decide
      maxPacketSize := by decide
      epIdn := by decide
      total := by decide
      fed := by decide
      short := by decide }
  staged := by
    intro hvalid
    exact absurd hvalid (by decide)
  pipe := rfl
  wf :=
    { setup := by decide
      armed := by decide
      unhandled := by decide
      size := by decide
      sending := by decide }

variable {fed : ℕ} {s : Usb} {c : CdcPipe}

/-! ### The receive stream -/

/-- The bytes the host's packets brought are those `usb_cdc_read` returned, those in the ring
and those of the packet not yet handled. -/
def RxIntact (s : Usb) : Prop :=
  cdcReturned s ++ s.usbCdc.rxBuffer.contents ++
      (if vtrx (s.chep cdcEpIdn) then rxPacketBytes s cdcEpIdn else []) = cdcAccepted s

/-- `usb_cdc_read_ep` finds data in the ring or no packet to clear. -/
def ReadEpOk (s : Usb) : Prop :=
  circularBufferCount s.usbCdc.rxBuffer = 0 → vtrx (s.chep cdcEpIdn) = true →
    usbPmaCountGet s cdcEpIdn usbEpRxCountAddrIdx = 0

def RxActOk (s : Usb) : CdcAction → Prop
  | .read _ => ReadEpOk s
  | _ => True

/-- The state of the device after the receive half of an iteration. -/
def afterCdcRx (s : Usb) (rxCb txCompleteCb : Option (List CdcAction)) : Usb :=
  usbIrqRx (cdcCallbacks rxCb txCompleteCb) s cdcEpIdn (s.chep cdcEpIdn)

/-- The state the transmit callback is called in. -/
def cdcCompleted (s : Usb) (rxCb txCompleteCb : Option (List CdcAction)) : Usb :=
  usbEpClearCorrectTransfer (afterCdcRx s rxCb txCompleteCb) cdcEpIdn usbDirDeviceOutHostInIdx

/-- Every handled packet is shorter than the ring, and every call of `usb_cdc_read_ep`, by
`usb_cdc_read` or at the end of a completion, finds data in the ring or no packet to clear. -/
def RxEventOk (s : Usb) : CdcEvent → Prop
  | .act a => RxActOk s a
  | .irq rxCb txCompleteCb =>
    (vtrx (s.chep cdcEpIdn) = true →
      (usbPmaCountGet s cdcEpIdn usbEpRxCountAddrIdx < usbCdcEpBufferSize ∧
        Guarded cdcAct RxActOk (cdcStored s) (cdcRxScript (cdcStored s) rxCb)) ∧
      ReadEpOk (cdcCalled s rxCb)) ∧
    (vttx (s.chep cdcEpIdn) = true →
      Guarded cdcAct RxActOk (cdcCompleted s rxCb txCompleteCb) (txCompleteCb.getD []))

theorem CdcRefines.vtrx_eq (h : CdcRefines fed s c) : vtrx (s.chep cdcEpIdn) = c.reg.vtrx := by
  rw [← h.pipe]
  rfl

theorem CdcRefines.vttx_eq (h : CdcRefines fed s c) : vttx (s.chep cdcEpIdn) = c.reg.vttx := by
  rw [← h.pipe]
  rfl

theorem CdcRefines.count_eq_zero (h : CdcRefines fed s c) :
    circularBufferCount s.usbCdc.rxBuffer = 0 ↔ c.ring = [] := by
  rw [← h.pipe]
  exact CircularBuffer.contents_eq_nil.symm

theorem CdcRefines.rxIntact_iff (h : CdcRefines fed s c) : RxIntact s ↔ c.RxIntact := by
  rw [← h.pipe]
  exact Iff.rfl

theorem CdcRefines.readEpOk_iff (h : CdcRefines fed s c) : ReadEpOk s ↔ c.RearmOk := by
  have hcount : usbPmaCountGet s cdcEpIdn usbEpRxCountAddrIdx = c.received.length := h.rxCount
  simp only [ReadEpOk, CdcPipe.RearmOk]
  rw [h.count_eq_zero, h.vtrx_eq, hcount, List.length_eq_zero_iff, CdcPipe.pending]
  refine imp_congr_right fun _ => ?_
  cases c.reg.vtrx with
  | false => exact iff_of_true (fun hv => absurd hv Bool.false_ne_true) rfl
  | true => exact forall_prop_of_true rfl

theorem CdcRefines.rxActOk_iff (h : CdcRefines fed s c) (a : CdcAction) :
    RxActOk s a ↔ c.RxActOk a := by
  cases a with
  | read bufsize => exact h.readEpOk_iff
  | write buffer => exact Iff.rfl
  | flush => exact Iff.rfl
  | arrive packet => exact Iff.rfl
  | poll => exact Iff.rfl

/-- A guard of the calls that agrees with one on the pipe agrees over a callback. -/
theorem CdcRefines.guarded_iff {ok : Usb → CdcAction → Prop} {ok' : CdcPipe → CdcAction → Prop}
    (hok : ∀ s c a, CdcRefines fed s c → (ok s a ↔ ok' c a)) (h : CdcRefines fed s c)
    (script : List CdcAction) :
    Guarded cdcAct ok s script ↔ Guarded CdcPipe.act ok' c script :=
  guarded_iff_of_simulation (fun _ _ a h => h.act a) hok h

theorem CdcRefines.completed (h : CdcRefines 0 s c) (rxCb txCompleteCb : Option (List CdcAction)) :
    CdcRefines 0 (cdcCompleted s rxCb txCompleteCb) (c.irqRx rxCb).complete :=
  (h.irqRx rxCb txCompleteCb).complete

theorem CdcRefines.rxEventOk_iff (h : CdcRefines 0 s c) (e : CdcEvent) :
    RxEventOk s e ↔ c.RxEventOk e := by
  cases e with
  | act a => exact h.rxActOk_iff a
  | irq rxCb txCompleteCb =>
    have hcount : usbPmaCountGet s cdcEpIdn usbEpRxCountAddrIdx = c.received.length := h.rxCount
    simp only [RxEventOk, CdcPipe.RxEventOk]
    rw [h.vtrx_eq, h.vttx_eq, hcount]
    refine and_congr ?_ (imp_congr_right fun _ => ?_)
    · refine imp_congr_right fun hvtrx => ?_
      have hstored := h.store hvtrx
      rw [cdcRxScript_eq hstored]
      refine and_congr (and_congr ?_ ?_) (h.called hvtrx rxCb).readEpOk_iff
      · exact ⟨Nat.ne_of_lt, fun hne => Nat.lt_of_le_of_ne h.wf.size hne⟩
      · exact hstored.guarded_iff (fun _ _ a h => h.rxActOk_iff a) _
    · exact (h.completed rxCb txCompleteCb).guarded_iff (fun _ _ a h => h.rxActOk_iff a) _

/-- **The receive stream.**  In every run of the configured device no byte is lost, duplicated
or reordered exactly when every handled packet is shorter than the ring and no packet is cleared
before it is handled.  A call and a pass of the handler are one event each: what comes between the
statements of one is left out. -/
theorem receive_intact_iff (es : List CdcEvent) :
    Always cdcStep RxIntact cdcBoot es ↔ Guarded cdcStep RxEventOk cdcBoot es := by
  have hboot : CdcPipe.RxAccount 0 (cdcPipe cdcBoot) := by
    refine ⟨cdcRefines_boot.wf, ?_⟩
    have hempty : (cdcPipe cdcBoot).returned ++ (cdcPipe cdcBoot).ring ++
        (cdcPipe cdcBoot).pending = (cdcPipe cdcBoot).accepted := by decide
    rw [hempty]
    exact ⟨rfl, fun _ => rfl⟩
  rw [always_iff_of_simulation (R := CdcRefines 0) (fun _ _ e h => h.step e)
      (fun _ _ h => h.rxIntact_iff) cdcRefines_boot,
    guarded_iff_of_simulation (R := CdcRefines 0) (fun _ _ e h => h.step e)
      (fun _ _ e h => h.rxEventOk_iff e) cdcRefines_boot]
  exact CdcPipe.always_rxIntact_iff hboot es

/-- A full packet is taken from the host, handled, and gone. -/
theorem fullPacket_lost :
    ¬Always cdcStep RxIntact cdcBoot [.act (.arrive (List.replicate 64 7#8)), .irq none none] := by
  intro h
  have hlast := h.last
  simp only [RxIntact] at hlast
  revert hlast
  decide

/-! ### The transmit stream -/

/-- The packet memory, the staging buffer and the transfer record agree on what is in flight. -/
structure InFlight (s : Usb) (bytes : List Byte) : Prop where
  packet : txPacketBytes s cdcEpIdn = bytes
  staged : CdcStaged s bytes

/-- The bytes `usb_cdc_write` took are those the host received, those in flight and those in the
ring, and what is in flight is where it was put. -/
def TxIntact (s : Usb) : Prop :=
  ∃ bytes, (epState (s.chep cdcEpIdn) 1 = .valid → InFlight s bytes) ∧
    (epState (s.chep cdcEpIdn) 1 ≠ .valid → bytes = []) ∧
    cdcSent s ++ bytes ++ s.usbCdc.txBuffer.contents = cdcWritten s

/-- A write neither meets a transfer in flight nor fills the ring. -/
def TxActOk (s : Usb) : CdcAction → Prop
  | .write buffer =>
    buffer ≠ [] → epState (s.chep cdcEpIdn) 1 ≠ .valid ∧ buffer.length < usbCdcEpBufferSize
  | _ => True

/-- The same of the writes from the callbacks. -/
def TxEventOk (s : Usb) : CdcEvent → Prop
  | .act a => TxActOk s a
  | .irq rxCb txCompleteCb =>
    (vtrx (s.chep cdcEpIdn) = true →
      Guarded cdcAct TxActOk (cdcStored s) (cdcRxScript (cdcStored s) rxCb)) ∧
    (vttx (s.chep cdcEpIdn) = true →
      Guarded cdcAct TxActOk (cdcCompleted s rxCb txCompleteCb) (txCompleteCb.getD []))

theorem CdcRefines.tx_eq (h : CdcRefines fed s c) : epState (s.chep cdcEpIdn) 1 = c.reg.tx := by
  rw [← h.pipe]
  rfl

theorem CdcRefines.txIntact_iff (h : CdcRefines fed s c) : TxIntact s ↔ c.TxIntact := by
  have hstreams : ∀ bytes, cdcSent s ++ bytes ++ s.usbCdc.txBuffer.contents = cdcWritten s ↔
      c.sent ++ bytes = c.written := by
    intro bytes
    rw [h.configured.txEmpty, List.append_nil, ← h.pipe]
    exact Iff.rfl
  have hpacket : txPacketBytes s cdcEpIdn = c.sending := by
    rw [← h.pipe]
    rfl
  simp only [TxIntact, CdcPipe.TxIntact, CdcPipe.inFlight]
  rw [h.tx_eq]
  by_cases hvalid : c.reg.tx = .valid
  · rw [if_pos hvalid]
    constructor
    · rintro ⟨bytes, hheld, -, hsum⟩
      rw [← hpacket, (hheld hvalid).packet]
      exact (hstreams bytes).mp hsum
    · intro hsum
      exact ⟨c.sending, fun _ => ⟨hpacket, h.staged hvalid⟩, fun hne => absurd hvalid hne,
        (hstreams _).mpr hsum⟩
  · rw [if_neg hvalid]
    constructor
    · rintro ⟨bytes, -, hnone, hsum⟩
      rw [← hnone hvalid]
      exact (hstreams bytes).mp hsum
    · intro hsum
      exact ⟨[], fun hv => absurd hv hvalid, fun _ => rfl, (hstreams _).mpr hsum⟩

theorem CdcRefines.txActOk_iff (h : CdcRefines fed s c) (a : CdcAction) :
    TxActOk s a ↔ c.TxActOk a := by
  cases a with
  | write buffer =>
    simp only [TxActOk, CdcPipe.TxActOk]
    rw [h.tx_eq]
  | read bufsize => exact Iff.rfl
  | flush => exact Iff.rfl
  | arrive packet => exact Iff.rfl
  | poll => exact Iff.rfl

theorem CdcRefines.txEventOk_iff (h : CdcRefines 0 s c) (e : CdcEvent) :
    TxEventOk s e ↔ c.TxEventOk e := by
  cases e with
  | act a => exact h.txActOk_iff a
  | irq rxCb txCompleteCb =>
    simp only [TxEventOk, CdcPipe.TxEventOk]
    rw [h.vtrx_eq, h.vttx_eq]
    refine and_congr (imp_congr_right fun hvtrx => ?_) (imp_congr_right fun _ => ?_)
    · have hstored := h.store hvtrx
      rw [cdcRxScript_eq hstored]
      exact hstored.guarded_iff (fun _ _ a h => h.txActOk_iff a) _
    · exact (h.completed rxCb txCompleteCb).guarded_iff (fun _ _ a h => h.txActOk_iff a) _

/-- **The transmit stream.**  In every run of the configured device the bytes written reach the
host whole and in order, and none in flight is overwritten, exactly when no write, from the main
loop or from a callback, meets a transfer in flight or fills the ring. -/
theorem transmit_intact_iff (es : List CdcEvent) :
    Always cdcStep TxIntact cdcBoot es ↔ Guarded cdcStep TxEventOk cdcBoot es := by
  have hboot : CdcPipe.TxAccount 0 (cdcPipe cdcBoot) := by
    refine ⟨cdcRefines_boot.wf, ?_⟩
    have hempty : (cdcPipe cdcBoot).sent ++ (cdcPipe cdcBoot).inFlight =
        (cdcPipe cdcBoot).written := by decide
    rw [hempty]
    exact ⟨rfl, fun _ => rfl⟩
  rw [always_iff_of_simulation (R := CdcRefines 0) (fun _ _ e h => h.step e)
      (fun _ _ h => h.txIntact_iff) cdcRefines_boot,
    guarded_iff_of_simulation (R := CdcRefines 0) (fun _ _ e h => h.step e)
      (fun _ _ e h => h.txEventOk_iff e) cdcRefines_boot]
  exact CdcPipe.always_txIntact_iff hboot es

/-- Two bytes written one after the other, before the host polls: the first is overwritten. -/
theorem secondWrite_overwrites :
    ¬Always cdcStep TxIntact cdcBoot [.act (.write [1#8]), .act (.write [2#8])] := by
  intro h
  obtain ⟨bytes, hheld, -, hsum⟩ := h.last
  have hvalid : epState ((runFrom cdcStep cdcBoot
      [.act (.write [1#8]), .act (.write [2#8])]).chep cdcEpIdn) 1 = .valid := by decide
  rw [← (hheld hvalid).packet] at hsum
  revert hsum
  decide

/-! ### Liveness of reception -/

/-- While the ring can take a packet, the receiver is armed or a packet waits. -/
def RxLive (s : Usb) : Prop :=
  usbCdcEpBufferSize ≤ circularBufferSpace s.usbCdc.rxBuffer →
    epState (s.chep cdcEpIdn) 0 = .valid ∨ vtrx (s.chep cdcEpIdn) = true

/-- A read leaves something in a ring that held something. -/
def DrainOk (s : Usb) : CdcAction → Prop
  | .read bufsize => circularBufferCount s.usbCdc.rxBuffer ≠ 0 →
    bufsize < circularBufferCount s.usbCdc.rxBuffer
  | _ => True

/-- No read of the main loop or of the transmit callback empties the ring.  A completion arms
the receiver after its callback. -/
def LiveEventOk (s : Usb) : CdcEvent → Prop
  | .act a => DrainOk s a
  | .irq rxCb txCompleteCb => vttx (s.chep cdcEpIdn) = true →
    Guarded cdcAct DrainOk (cdcCompleted s rxCb txCompleteCb) (txCompleteCb.getD [])

/-- The calls of the transmit callback, after which nothing arms the receiver, keep reception
live too. -/
def LiveCallback (s : Usb) : CdcEvent → Prop
  | .act _ => True
  | .irq rxCb txCompleteCb => vttx (s.chep cdcEpIdn) = true →
    Always cdcAct RxLive (cdcCompleted s rxCb txCompleteCb) (txCompleteCb.getD [])

theorem CdcRefines.space_iff (h : CdcRefines fed s c) :
    usbCdcEpBufferSize ≤ circularBufferSpace s.usbCdc.rxBuffer ↔ c.ring = [] := by
  have hlt := h.configured.rxRing.count_lt
  rw [← h.count_eq_zero, h.configured.rxRing.space_eq, h.configured.rxSize]
  rw [h.configured.rxSize] at hlt
  omega

theorem CdcRefines.rxLive_iff (h : CdcRefines fed s c) : RxLive s ↔ c.RxLive := by
  have hrx : epState (s.chep cdcEpIdn) 0 = c.reg.rx := by
    rw [← h.pipe]
    rfl
  simp only [RxLive, CdcPipe.RxLive]
  rw [h.space_iff, hrx, h.vtrx_eq]

theorem CdcRefines.drainOk_iff (h : CdcRefines fed s c) (a : CdcAction) :
    DrainOk s a ↔ c.DrainOk a := by
  cases a with
  | read bufsize =>
    have hlength : circularBufferCount s.usbCdc.rxBuffer = c.ring.length := by
      rw [← h.pipe]
      exact CircularBuffer.contents_length.symm
    simp only [DrainOk, CdcPipe.DrainOk]
    rw [hlength, Ne, Ne, List.length_eq_zero_iff]
  | write buffer => exact Iff.rfl
  | flush => exact Iff.rfl
  | arrive packet => exact Iff.rfl
  | poll => exact Iff.rfl

theorem CdcRefines.liveEventOk_iff (h : CdcRefines 0 s c) (e : CdcEvent) :
    LiveEventOk s e ↔ c.LiveEventOk e := by
  cases e with
  | act a => exact h.drainOk_iff a
  | irq rxCb txCompleteCb =>
    simp only [LiveEventOk, CdcPipe.LiveEventOk]
    rw [h.vttx_eq]
    refine imp_congr_right fun _ => ?_
    exact (h.completed rxCb txCompleteCb).guarded_iff (fun _ _ a h => h.drainOk_iff a) _

theorem CdcRefines.liveCallback_iff (h : CdcRefines 0 s c) (e : CdcEvent) :
    LiveCallback s e ↔ c.LiveCallback e := by
  cases e with
  | act a => exact Iff.rfl
  | irq rxCb txCompleteCb =>
    simp only [LiveCallback, CdcPipe.LiveCallback]
    rw [h.vttx_eq]
    refine imp_congr_right fun _ => ?_
    exact always_iff_of_simulation (R := CdcRefines 0) (fun _ _ a h => h.act a)
      (fun _ _ h => h.rxLive_iff) (h.completed rxCb txCompleteCb)

/-- **Liveness of reception.**  After every call, packet and completion the receiver is armed or
a packet waits whenever the ring can take a packet, exactly when no read empties a ring that
held something.  Calls and passes of the handler are taken whole, so races inside them are left
out. -/
theorem reception_live_iff (es : List CdcEvent) :
    Always cdcStep RxLive cdcBoot es ∧ Guarded cdcStep LiveCallback cdcBoot es ↔
      Guarded cdcStep LiveEventOk cdcBoot es := by
  have hlive : (cdcPipe cdcBoot).RxLive := fun _ => .inl (by decide)
  rw [always_iff_of_simulation (R := CdcRefines 0) (fun _ _ e h => h.step e)
      (fun _ _ h => h.rxLive_iff) cdcRefines_boot,
    guarded_iff_of_simulation (R := CdcRefines 0) (fun _ _ e h => h.step e)
      (fun _ _ e h => h.liveCallback_iff e) cdcRefines_boot,
    guarded_iff_of_simulation (R := CdcRefines 0) (fun _ _ e h => h.step e)
      (fun _ _ e h => h.liveEventOk_iff e) cdcRefines_boot]
  exact CdcPipe.always_rxLive_iff cdcRefines_boot.wf hlive es

/-- One byte received and read: the receiver stays at NAK behind an empty ring. -/
theorem drained_not_live :
    ¬(Always cdcStep RxLive cdcBoot [.act (.arrive [7#8]), .irq none none, .act (.read 1)] ∧
      Guarded cdcStep LiveCallback cdcBoot
        [.act (.arrive [7#8]), .irq none none, .act (.read 1)]) := by
  rintro ⟨h, -⟩
  have hlast := h.last
  simp only [RxLive] at hlast
  revert hlast
  decide

end PcbMill
