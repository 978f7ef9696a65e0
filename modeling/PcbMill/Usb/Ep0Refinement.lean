import PcbMill.Usb.ControlErrors
import PcbMill.Usb.Ep0
import PcbMill.Usb.PacketMemory

/-!
# The firmware follows the control endpoint machine

Each operation on EP0 leaves the state refining the same operation of `Ep0`.  The layout that
initialisation sets up is part of the relation, so nothing has to be assumed of a reachable
state.
-/

namespace PcbMill

open FixedWidth WordMemory

/-- Where initialisation has put EP0: slot 0, its buffers in the packet memory, and its
packet sizes. -/
structure Ep0Ready (s : Usb) : Prop where
  assigned : Ep0Assigned s
  txAddr : descAddr (txDesc s 0) = 64
  rxAddr : descAddr (rxDesc s 0) = 128
  rxMax : (s.epTransferSet 0 0).maxPacketSize = 64
  txMax : (s.epTransferSet 0 1).maxPacketSize = 64
  txIdn : (s.epTransferSet 0 1).epIdn = 0

/-- The state of the device seen at EP0. -/
structure Ep0Refines (s : Usb) (e : Ep0) : Prop where
  ready : Ep0Ready s
  reg : epView (s.chep 0) = e.reg
  rxCapacity : descCapacity (rxDesc s 0) = e.rxCapacity
  rxCount : descCount (rxDesc s 0) = e.rxCount
  txCount : descCount (txDesc s 0) = e.txCount
  rxFeed : (s.epTransferSet 0 0).feed = e.rxFeed
  txFeed : (s.epTransferSet 0 1).feed = e.txFeed
  control : s.controlTransfer = e.control
  trace : s.trace.filter UsbEvent.isEp0 = e.trace
  fits : e.rxCapacity ≤ 64

variable {s : Usb} {e : Ep0}

/-! ### The layout -/

theorem Ep0Ready.of_layout {s' : Usb} (h : Ep0Ready s)
    (hassigned : s'.epAssignment 0 = s.epAssignment 0)
    (htx : descAddr (txDesc s' 0) = descAddr (txDesc s 0))
    (hrx : descAddr (rxDesc s' 0) = descAddr (rxDesc s 0))
    (hrxMax : (s'.epTransferSet 0 0).maxPacketSize = (s.epTransferSet 0 0).maxPacketSize)
    (htxMax : (s'.epTransferSet 0 1).maxPacketSize = (s.epTransferSet 0 1).maxPacketSize)
    (htxIdn : (s'.epTransferSet 0 1).epIdn = (s.epTransferSet 0 1).epIdn) : Ep0Ready s' :=
  { assigned := ⟨hassigned ▸ h.assigned.epIdn, hassigned ▸ h.assigned.epType,
      hassigned ▸ h.assigned.rx, hassigned ▸ h.assigned.tx⟩
    txAddr := htx.trans h.txAddr
    rxAddr := hrx.trans h.rxAddr
    rxMax := hrxMax.trans h.rxMax
    txMax := htxMax.trans h.txMax
    txIdn := htxIdn.trans h.txIdn }

/-- Variables apart from EP0 do not matter. -/
theorem Ep0Refines.of_same {s' : Usb} (h : Ep0Refines s e) (hs : Ep0Same s s')
    (hcontrol : s'.controlTransfer = s.controlTransfer)
    (htrace : s'.trace.filter UsbEvent.isEp0 = s.trace.filter UsbEvent.isEp0) :
    Ep0Refines s' e := by
  have htx : txDesc s' 0 = txDesc s 0 := hs.pma _ (.inl (by decide))
  have hrx : rxDesc s' 0 = rxDesc s 0 := hs.pma _ (.inl (by decide))
  exact { ready := h.ready.of_layout hs.epAssignment (htx ▸ rfl) (hrx ▸ rfl)
            (hs.epTransferSet ▸ rfl) (hs.epTransferSet ▸ rfl) (hs.epTransferSet ▸ rfl)
          reg := hs.chep ▸ h.reg
          rxCapacity := hrx ▸ h.rxCapacity
          rxCount := hrx ▸ h.rxCount
          txCount := htx ▸ h.txCount
          rxFeed := hs.epTransferSet ▸ h.rxFeed
          txFeed := hs.epTransferSet ▸ h.txFeed
          control := hcontrol.trans h.control
          trace := htrace.trans h.trace
          fits := h.fits }

/-! ### One variable at a time -/

theorem Ep0Refines.log (h : Ep0Refines s e) {ev : UsbEvent} (hev : ev.isEp0 = true) :
    Ep0Refines (s.log ev) (e.log ev) :=
  { h with
    ready := h.ready.of_layout rfl rfl rfl rfl rfl rfl
    trace := by
      show (s.trace ++ [ev]).filter UsbEvent.isEp0 = e.trace ++ [ev]
      rw [List.filter_append, h.trace, List.filter_singleton, hev]
      rfl }

/-- An event EP0 has no part in. -/
theorem Ep0Refines.log_other (h : Ep0Refines s e) {ev : UsbEvent} (hev : ev.isEp0 = false) :
    Ep0Refines (s.log ev) e := by
  refine h.of_same ⟨rfl, fun _ _ => rfl, rfl, rfl⟩ rfl ?_
  show (s.trace ++ [ev]).filter UsbEvent.isEp0 = _
  rw [List.filter_append, List.filter_singleton, hev]
  exact List.append_nil _

theorem Usb.setChep_chep (s : Usb) (epIdn : ℕ) (v : Word) : (s.setChep epIdn v).chep epIdn = v := by
  show Function.update s.chep epIdn v epIdn = v
  rw [Function.update_self]

theorem Ep0Refines.setChep (h : Ep0Refines s e) {v : Word} {reg : EpView} (hv : epView v = reg) :
    Ep0Refines (s.setChep 0 v) { e with reg := reg } :=
  { h with
    ready := h.ready.of_layout rfl rfl rfl rfl rfl rfl
    reg := by
      rw [Usb.setChep_chep]
      exact hv }

theorem Ep0Refines.setControl (h : Ep0Refines s e) (c : ControlTransfer) :
    Ep0Refines (s.setControl c) { e with control := c } :=
  { h with ready := h.ready.of_layout rfl rfl rfl rfl rfl rfl, control := rfl }

theorem Ep0Refines.setRx (h : Ep0Refines s e) {t : EpTransfer} (hmax : t.maxPacketSize = 64) :
    Ep0Refines (s.setTransfer 0 0 t) { e with rxFeed := t.feed } :=
  { h with
    ready := h.ready.of_layout rfl rfl rfl (hmax.trans h.ready.rxMax.symm) rfl rfl
    rxFeed := rfl }

theorem Ep0Refines.setTx (h : Ep0Refines s e) {t : EpTransfer} (hmax : t.maxPacketSize = 64)
    (hidn : t.epIdn = 0) : Ep0Refines (s.setTransfer 0 1 t) { e with txFeed := t.feed } :=
  { h with
    ready := h.ready.of_layout rfl rfl rfl rfl (hmax.trans h.ready.txMax.symm)
      (hidn.trans h.ready.txIdn.symm)
    txFeed := rfl }

/-- The packet memory from word 2 on does not matter. -/
theorem Ep0Refines.setPmaBuffers (h : Ep0Refines s e) {pma : ℕ → Word}
    (hpma : ∀ w, w < 2 → pma w = s.pma w) : Ep0Refines { s with pma := pma } e := by
  have htx : txDesc { s with pma := pma } 0 = txDesc s 0 := hpma 0 (by decide)
  have hrx : rxDesc { s with pma := pma } 0 = rxDesc s 0 := hpma 1 (by decide)
  exact { h with
          ready := h.ready.of_layout rfl (htx ▸ rfl) (hrx ▸ rfl) rfl rfl rfl
          rxCapacity := hrx ▸ h.rxCapacity
          rxCount := hrx ▸ h.rxCount
          txCount := htx ▸ h.txCount }

theorem Ep0Refines.setTxCount (h : Ep0Refines s e) {n : ℕ} (hn : n < 1024) :
    Ep0Refines (usbPmaCountSet s 0 usbEpTxCountAddrIdx n) { e with txCount := n } :=
  { h with
    ready := h.ready.of_layout rfl (descAddr_descSetCount _ _) rfl rfl rfl rfl
    txCount := descCount_descSetCount _ hn }

/-- A receive block programmed within the memory of EP0. -/
theorem Ep0Refines.programBlock (h : Ep0Refines s e) {n : ℕ} (hn : n < 2 ^ 16)
    (hfits : blockCapacity n ≤ 64) :
    Ep0Refines (usbEpSetRxBufferBlockSize s 0 n)
      { e with rxCapacity := blockCapacity n, rxCount := 0 } := by
  have hrx : rxDesc (usbEpSetRxBufferBlockSize s 0 n) 0 = descSetBlocks (rxDesc s 0) n := by
    simp only [usbEpSetRxBufferBlockSize]
    rw [Nat.mod_eq_of_lt hn]
    rfl
  exact { h with
          ready := h.ready.of_layout rfl rfl (by rw [hrx, descAddr_descSetBlocks]) rfl rfl rfl
          rxCapacity := by rw [hrx, descCapacity_descSetBlocks_eq _ hn]
          rxCount := by rw [hrx, descCount_descSetBlocks]
          fits := hfits }

theorem Ep0Refines.program (h : Ep0Refines s e) {n : ℕ} (hn : n ≤ 64) :
    Ep0Refines (usbEpSetRxBufferBlockSize s 0 n) (e.program n) := by
  have hcapacity := blockCapacity_of_le hn
  have hfits : blockCapacity n ≤ 64 := by
    rw [hcapacity]
    split <;> omega
  have hblock := h.programBlock (by omega) hfits
  rw [hcapacity] at hblock
  exact hblock

/-! ### Queueing -/

theorem Ep0Refines.sendPacket (h : Ep0Refines s e) : Ep0Refines (usbTxPacket s 0) e.sendPacket := by
  have hlen : feedForwardRemainingCount (s.epTransferSet 0 1).feed
      (s.epTransferSet 0 1).maxPacketSize = feedForwardRemainingCount e.txFeed usbEp0BufferSize := by
    rw [h.txFeed, h.ready.txMax]
    rfl
  have haddr : usbPmaEpAddrGet s 0 usbEpTxCountAddrIdx = 64 := h.ready.txAddr
  have hpma : ∀ (data : List Byte) (w : ℕ), w < 2 →
      usbWriteUnalignedData s.pma 64 data w = s.pma w := by
    intro data w hw
    rw [usbWriteUnalignedData_eq]
    exact storeBytes_of_lt _ _ (by omega)
  simp only [usbTxPacket, Ep0.sendPacket]
  simp only [usbDirDeviceOutHostInIdx, hlen, h.ready.txIdn, haddr]
  have hle : feedForwardRemainingCount e.txFeed usbEp0BufferSize ≤ 64 :=
    feedForwardRemainingCount_le _ _
  generalize feedForwardRemainingCount e.txFeed usbEp0BufferSize = len at hle ⊢
  rw [← h.txFeed]
  refine (((h.setPmaBuffers (hpma _)).setTx ?_ ?_).setTxCount (by omega)).setChep ?_
  · exact h.ready.txMax
  · rfl
  rw [epView_txValid]
  exact congrArg (fun v : EpView => { v with tx := .valid }) h.reg

/-- A transfer of at most one packet queued on EP0. -/
theorem Ep0Refines.queue (h : Ep0Refines s e) {dirIdx : ℕ} (hdir : dirIdx = 0 ∨ dirIdx = 1)
    (buffer : Ptr) {n : ℕ} (hn : n ≤ 64) :
    Ep0Refines (usbEpQueueTransferHal s 0 dirIdx buffer n).2 (e.queue dirIdx buffer n) := by
  have hlog : Ep0Refines (s.log (.queued 0 dirIdx n)) (e.log (.queued 0 dirIdx n)) := h.log rfl
  rcases hdir with rfl | rfl
  · have hprogram := (hlog.setRx (t := { s.epTransferSet 0 0 with
      feed := { buffer := buffer, totalCount := n, fedCount := 0 } }) h.ready.rxMax).program hn
    refine hprogram.setChep ?_
    exact (epView_rxValid _ (by decide)).trans
      (congrArg (fun v : EpView => { v with rx := .valid }) h.reg)
  · exact (hlog.setTx (t := { s.epTransferSet 0 1 with
      feed := { buffer := buffer, totalCount := n, fedCount := 0 } }) h.ready.txMax
      h.ready.txIdn).sendPacket

/-! ### Stages -/

/-- Stores to the program's variables do not matter. -/
theorem Ep0Refines.store (h : Ep0Refines s e) (p : Ptr) (data : List Byte) :
    Ep0Refines (s.store p data) e :=
  h.of_same ⟨rfl, fun _ _ => rfl, rfl, rfl⟩ rfl rfl

theorem Ep0Refines.statusStage (h : Ep0Refines s e) (r : UsbControlRequest) :
    Ep0Refines (usbControlStatusStage s r).2 (e.statusStage r) := by
  have hdir : 1 - usbRequestDirection r.bmRequestType = 0 ∨
      1 - usbRequestDirection r.bmRequestType = 1 := by
    rcases usbRequestDirection_cases r.bmRequestType with hd | hd <;> rw [hd] <;> decide
  rw [usbControlStatusStage_eq]
  exact h.queue hdir .null (by decide)

theorem Ep0Refines.dataStage (h : Ep0Refines s e) :
    Ep0Refines (usbControlDataStage s).2 e.dataStage := by
  have hle : dataStageLen s ≤ 64 := dataStageLen_le s
  have hstage : e.dataStage = e.queue (usbRequestDirection s.controlTransfer.request.bmRequestType)
      (dataStageBuffer s) (dataStageLen s) := by
    unfold Ep0.dataStage dataStageBuffer dataStageLen
    rw [h.control]
  rw [hstage]
  rcases usbRequestDirection_cases s.controlTransfer.request.bmRequestType with hdir | hdir
  · rw [usbControlDataStage_out hdir, hdir]
    exact h.queue (.inl rfl) _ hle
  · rw [usbControlDataStage_in hdir, hdir]
    exact (h.store _ _).queue (.inr rfl) _ hle

theorem Ep0Refines.initStatusStage (h : Ep0Refines s e) (r : UsbControlRequest) :
    Ep0Refines (usbControlInitStatusStage s r).2 (e.initStatusStage r) := by
  have hset := h.setControl { s.controlTransfer with
    request := r, feed := { buffer := .null, fedCount := 0, totalCount := 0 } }
  rw [h.control] at hset
  have hstage := hset.statusStage r
  rw [← h.control] at hstage
  rw [Ep0.initStatusStage, ← h.control]
  exact hstage

theorem Ep0Refines.response (h : Ep0Refines s e) (r : UsbControlRequest) (buffer : Ptr)
    (len : ℕ) :
    Ep0Refines (usbEpInitiateControlResponse s r buffer len).2 (e.response r buffer len) := by
  have hset : Ep0Refines (responseState s r buffer len) { e with control := { e.control with
      request := r
      feed := { buffer := buffer, fedCount := 0
                totalCount := if len < r.wLength.toNat then len else r.wLength.toNat } } } := by
    rw [← h.control]
    exact h.setControl _
  simp only [Ep0.response]
  by_cases hlen : 0 < r.wLength.toNat
  · rw [usbEpInitiateControlResponse_data hlen, if_pos hlen]
    exact hset.dataStage
  · rw [usbEpInitiateControlResponse_status hlen, if_neg hlen]
    exact hset.statusStage r

/-! ### SETUP packets -/

/-- What a handler does before its stage changes the callback only. -/
theorem Ep0Refines.of_handled {s' : Usb} {r : UsbControlRequest} (h : Ep0Refines s e)
    (hs : Handled r s s') {cb : Option ControlCompleteCb}
    (hcb : s'.controlTransfer.controlCompleteCb = cb) : Ep0Refines s' (e.setCb cb) := by
  have hsame : Ep0Same s { s' with controlTransfer := s.controlTransfer } :=
    ⟨congrFun hs.chep 0, fun w _ => congrFun hs.pma w, congrFun hs.epTransferSet 0,
      congrFun hs.epAssignment 0⟩
  have hset := (h.of_same hsame rfl (congrArg _ hs.trace)).setControl s'.controlTransfer
  have hcontrol : s'.controlTransfer = { e.control with controlCompleteCb := cb } := by
    rw [← h.control, ← hcb]
    exact (congrArg₂ (fun f q : _ => ControlTransfer.mk f q _) hs.feed hs.request)
  simp only [Ep0.setCb]
  rw [← hcontrol]
  exact hset

theorem Ep0Refines.stallSet (h : Ep0Refines s e) (dirIdx : ℕ) :
    Ep0Refines (usbEpStallSetHal s 0 dirIdx) (e.setState dirIdx .stall) := by
  refine h.setChep ?_
  rw [epView_stallSet, h.reg]

theorem Ep0Refines.stallClear (h : Ep0Refines s e) (dirIdx : ℕ) :
    Ep0Refines (usbEpStallClearHal s 0 dirIdx) (e.setState dirIdx .disabled) := by
  refine h.setChep ?_
  rw [epView_stallClear, h.reg]

theorem Ep0Refines.endpointFeature (h : Ep0Refines s e) (r : UsbControlRequest) :
    Ep0Refines (endpointFeatureState s r) (e.endpointFeature r) := by
  have hother : ∀ (epIdn : ℕ) (v : Word), epIdn ≠ 0 → Ep0Refines (s.setChep epIdn v) e := by
    intro epIdn v hne
    exact h.of_same ⟨Function.update_of_ne hne.symm _ _, fun _ _ => rfl, rfl, rfl⟩ rfl rfl
  unfold endpointFeatureState Ep0.endpointFeature
  generalize u16Low (r.wIndex &&& 0xFF#16) = epAddr
  dsimp only
  by_cases hhalt : r.wValue = usbFeatureEndpointHalt
  · rw [if_pos hhalt]
    by_cases hidn : usbEpIdn epAddr = 0
    · rw [if_pos (And.intro hhalt hidn), hidn]
      split
      · exact h.stallClear _
      · exact h.stallSet _
    · have hnot : ¬(r.wValue = usbFeatureEndpointHalt ∧ usbEpIdn epAddr = 0) := fun hc => hidn hc.2
      rw [if_neg hnot]
      split
      · exact hother _ _ hidn
      · exact hother _ _ hidn
  · rw [if_neg hhalt, if_neg (fun hc => hhalt hc.1)]
    exact h

theorem Ep0Refines.clearFlag (h : Ep0Refines s e) (dirIdx : ℕ) :
    Ep0Refines (usbEpClearCorrectTransfer s 0 dirIdx)
      { e with reg := if dirIdx = 1 then { e.reg with vttx := false }
        else { e.reg with vtrx := false } } := by
  refine h.setChep ?_
  rw [epView_clearCorrectTransfer, h.reg]

/-- **A SETUP packet** is handled as `Ep0.handle` says. -/
theorem Ep0Refines.handle (h : Ep0Refines s e) (r : UsbControlRequest) :
    Ep0Refines (processControlRequestHal s r) (e.handle r) := by
  have hout := usbProcessControlRequest_outcome s r
  simp only [processControlRequestHal, Ep0.handle]
  generalize usbProcessControlRequest s r = p at hout ⊢
  cases hout with
  | reject s' hact hs hcb =>
    rw [hact]
    exact (((h.of_handled hs hcb).stallSet usbDirDeviceOutHostIn.toNat).stallSet
      usbDirDeviceInHostOut.toNat).log rfl
  | response buffer len s' hact hs hcb =>
    rw [hact]
    exact ((h.of_handled hs hcb).response r buffer len).log rfl
  | status s' hact hs hcb =>
    rw [hact]
    exact ((h.of_handled hs hcb).initStatusStage r).log rfl
  | setAddress s' hact hs hcb =>
    rw [hact]
    exact (((h.of_handled hs hcb).initStatusStage r).queue (.inr rfl) .null (by decide)).log rfl
  | setConfiguration s' hact hs hcb =>
    obtain ⟨s₁, hconf, heq⟩ := usbSetConfiguration_eq s' r
    have h' := h.of_handled hs hcb
    have htrace : s₁.trace.filter UsbEvent.isEp0 = s'.trace.filter UsbEvent.isEp0 := by
      rcases hconf.trace with ht | ht
      · rw [ht]
      · rw [ht, List.filter_append]
        exact List.append_nil _
    have h₁ := h'.of_same (hconf.ep0 h'.ready.assigned) hconf.controlTransfer htrace
    rw [hact, heq]
    exact (h₁.initStatusStage r).log rfl
  | endpointFeature s' hact hs hcb =>
    rw [hact]
    exact ((h.of_handled hs hcb).endpointFeature r).log rfl

/-! ### Completions -/

/-- The CDC driver has nothing to queue after the SETUP stage. -/
theorem usbCdcControlTransfer_later (s : Usb) {stage : ControlStage} (hstage : stage ≠ .setup)
    (r : UsbControlRequest) :
    (usbCdcControlTransfer s stage r).1 = Ep0.cdcAccepts r ∧
      ∃ c, (usbCdcControlTransfer s stage r).2 = s.setCdc c := by
  have hkeep : s = s.setCdc s.usbCdc := rfl
  simp only [usbCdcControlTransfer, Ep0.cdcAccepts, classAction]
  by_cases htype : usbRequestType r.bmRequestType = .classSpecific
  · rw [if_neg (not_not.mpr htype), htype]
    by_cases hline : r.bRequest = cdcRequestSetLineCoding ∨ r.bRequest = cdcRequestGetLineCoding
    · rw [if_pos hline, if_pos hline, if_neg hstage]
      exact ⟨rfl, _, hkeep⟩
    · rw [if_neg hline, if_neg hline]
      by_cases hstate : r.bRequest = cdcRequestSetControlLineState
      · rw [if_pos hstate, if_pos (Or.inl hstate), if_neg hstage]
        split
        · exact ⟨rfl, _, rfl⟩
        · exact ⟨rfl, _, hkeep⟩
      · rw [if_neg hstate]
        by_cases hbreak : r.bRequest = cdcRequestSendBreak
        · rw [if_pos hbreak, if_pos (Or.inr hbreak), if_neg hstage]
          exact ⟨rfl, _, hkeep⟩
        · have hnot : ¬(r.bRequest = cdcRequestSetControlLineState ∨
              r.bRequest = cdcRequestSendBreak) := fun hc => hc.elim hstate hbreak
          rw [if_neg hbreak, if_neg hnot]
          exact ⟨rfl, _, hkeep⟩
  · rw [if_pos htype]
    refine ⟨?_, _, hkeep⟩
    rw [decide_eq_false htype]
    rfl

theorem Ep0Refines.setCdc (h : Ep0Refines s e) (c : UsbCdc) : Ep0Refines (s.setCdc c) e :=
  h.of_same ⟨rfl, fun _ _ => rfl, rfl, rfl⟩ rfl rfl

theorem Ep0Refines.callback (h : Ep0Refines s e) (cb : ControlCompleteCb) {stage : ControlStage}
    (hstage : stage ≠ .setup) :
    (controlCompleteCb s cb stage).1 = (e.callback cb stage).1 ∧
      Ep0Refines (controlCompleteCb s cb stage).2 (e.callback cb stage).2 := by
  simp only [controlCompleteCb, Ep0.callback]
  rw [← h.control]
  have hlog : Ep0Refines (s.log (.callback cb stage s.controlTransfer.request))
      (e.log (.callback cb stage s.controlTransfer.request)) := h.log rfl
  cases cb with
  | usbDeviceSetAddressComplete =>
    dsimp only
    simp only [usbDeviceSetAddressComplete, usbDeviceSetAddrHal]
    by_cases hstatus : stage = .status
    · have hset : ∀ (d : UsbDevice) (a : Byte), Ep0Refines { (s.log (.callback
          .usbDeviceSetAddressComplete stage s.controlTransfer.request)).setDevice d with daddr := a }
          (e.log (.callback .usbDeviceSetAddressComplete stage s.controlTransfer.request)) :=
        fun d a => hlog.of_same ⟨rfl, fun _ _ => rfl, rfl, rfl⟩ rfl rfl
      rw [if_pos hstatus, if_pos hstatus]
      dsimp only
      exact ⟨rfl, (hset _ _).program (by decide)⟩
    · rw [if_neg hstatus, if_neg hstatus]
      exact ⟨rfl, hlog⟩
  | usbCdcControlTransfer =>
    dsimp only
    obtain ⟨haccept, c, hstate⟩ := usbCdcControlTransfer_later
      (s.log (.callback .usbCdcControlTransfer stage s.controlTransfer.request)) hstage
      s.controlTransfer.request
    rw [hstate]
    refine ⟨?_, hlog.setCdc c⟩
    rw [haccept, show (e.log _).control = e.control from rfl, h.control]

theorem Ep0Refines.dataComplete (h : Ep0Refines s e) :
    Ep0Refines (usbControlDataComplete s).2 e.dataComplete := by
  have hcallback : (usbControlDataCallback s).1 = e.dataCallback.1 ∧
      Ep0Refines (usbControlDataCallback s).2 e.dataCallback.2 := by
    simp only [usbControlDataCallback, Ep0.dataCallback]
    rw [h.control]
    cases e.control.controlCompleteCb with
    | none => exact ⟨rfl, h⟩
    | some cb => exact h.callback cb ControlStage.noConfusion
  obtain ⟨hok, hstate⟩ := hcallback
  simp only [usbControlDataComplete, Ep0.dataComplete]
  rw [hok]
  split
  · rw [← hstate.control]
    exact hstate.statusStage _
  · exact (hstate.stallSet 0).stallSet 1

theorem Ep0Refines.dataReceived (h : Ep0Refines s e) (n : ℕ) :
    Ep0Refines (usbControlDataReceived s n) (e.dataReceived n) := by
  unfold usbControlDataReceived Ep0.dataReceived
  rw [← h.control]
  dsimp only
  by_cases hdir : usbRequestDirection s.controlTransfer.request.bmRequestType = 0
  · have hlog : Ep0Refines ((s.store s.controlTransfer.feed.buffer
        (s.load ⟨.ep0ControlBuffer, 0⟩ n)).log (.controlStored s.controlTransfer.request
          s.controlTransfer.feed.buffer n)) (e.log (.controlStored s.controlTransfer.request
          s.controlTransfer.feed.buffer n)) := (h.store _ _).log rfl
    rw [if_pos hdir, if_pos (show _ = usbDirDeviceInHostOutIdx from hdir)]
    exact hlog.setControl _
  · rw [if_neg hdir, if_neg (show ¬_ = usbDirDeviceInHostOutIdx from hdir)]
    exact h.setControl _

/-- **A completed packet** is taken as `Ep0.transfer` says. -/
theorem Ep0Refines.transfer (h : Ep0Refines s e) (epAddr : Byte) {dirIdx : ℕ}
    (hdir : usbEpDirIdx epAddr = dirIdx) (n : ℕ) :
    Ep0Refines (usbControlTransfer s epAddr n).2 (e.transfer dirIdx n) := by
  unfold usbControlTransfer Ep0.transfer
  rw [← h.control, hdir]
  dsimp only
  split
  · split
    · exact h
    · cases hcb : s.controlTransfer.controlCompleteCb with
      | none => exact h
      | some cb => exact (h.callback cb ControlStage.noConfusion).2
  · have hlog : Ep0Refines (s.log (.dataStage s.controlTransfer.request n))
        (e.log (.dataStage s.controlTransfer.request n)) := h.log rfl
    by_cases hnull : usbRequestDirection s.controlTransfer.request.bmRequestType = 0 ∧
        s.controlTransfer.feed.buffer = .null
    · rw [if_pos hnull]
      split
      · exact hlog
      · exact absurd hnull ‹_›
    · have hreceived := hlog.dataReceived n
      rw [if_neg hnull, ← hreceived.control]
      split
      · exact absurd ‹_› hnull
      · split
        · exact hreceived.dataComplete
        · exact hreceived.dataStage

/-! ### The interrupt handler -/

theorem Ep0Refines.rxStore (h : Ep0Refines s e) : Ep0Refines (usbRxPacketStore s 0) e.rxStore := by
  have hcount : usbPmaCountGet s 0 usbEpRxCountAddrIdx = e.rxCount := h.rxCount
  have hmax : (s.epTransferSet 0 usbDirDeviceInHostOutIdx).maxPacketSize = 64 := h.ready.rxMax
  have hfeed : (s.epTransferSet 0 usbDirDeviceInHostOutIdx).feed = e.rxFeed := h.rxFeed
  have hlog : ∀ data, Ep0Refines ((s.store (e.rxFeed.buffer.add e.rxFeed.fedCount) data).log
      (.rxStored 0 (e.rxFeed.buffer.add e.rxFeed.fedCount) e.rxCount))
      (e.log (.rxStored 0 (e.rxFeed.buffer.add e.rxFeed.fedCount) e.rxCount)) :=
    fun data => (h.store _ data).log rfl
  simp only [usbRxPacketStore, Ep0.rxStore]
  simp only [hcount, hmax, hfeed]
  exact ((hlog _).setRx (by rfl)).program (le_refl 64)

theorem Ep0Refines.rxPacket (h : Ep0Refines s e) :
    Ep0Refines (usbRxPacket noCallbacks s 0) e.rxPacket := by
  have hstore := h.rxStore
  have hcount : ((usbRxPacketStore s 0).epTransferSet 0 usbDirDeviceInHostOutIdx).feed.fedCount =
      e.rxStore.rxFeed.fedCount := congrArg _ hstore.rxFeed
  have htransfer := hstore.transfer 0x00#8 (show usbEpDirIdx 0x00#8 = 0 by decide)
    e.rxStore.rxFeed.fedCount
  simp only [usbRxPacket, Ep0.rxPacket, Ep0.clearRxFeed, usbEpTransferComplete]
  rw [hcount, if_pos (by decide)]
  rw [← htransfer.rxFeed]
  exact htransfer.setRx (t := { (usbControlTransfer (usbRxPacketStore s 0) 0x00#8
    e.rxStore.rxFeed.fedCount).2.epTransferSet 0 0 with
      feed := { ((usbControlTransfer (usbRxPacketStore s 0) 0x00#8
        e.rxStore.rxFeed.fedCount).2.epTransferSet 0 0).feed with totalCount := 0, fedCount := 0 } })
    htransfer.ready.rxMax

theorem Ep0Refines.irqRx (h : Ep0Refines s e) :
    Ep0Refines (afterIrqRx s) (e.irqRx (pendingRequest s)) := by
  have hclear : Ep0Refines (usbEpClearCorrectTransfer s 0 usbDirDeviceInHostOutIdx)
      { e with reg := { e.reg with vtrx := false } } := h.clearFlag 0
  have hcount : usbPmaCountGet s 0 usbEpRxCountAddrIdx = e.rxCount := h.rxCount
  have hvtrx : vtrx (s.chep 0) = e.reg.vtrx := congrArg EpView.vtrx h.reg
  have hsetup : setupFlag (s.chep 0) = e.reg.setup := congrArg EpView.setup h.reg
  unfold afterIrqRx usbIrqRx Ep0.irqRx
  rw [hvtrx, hsetup]
  dsimp only
  split
  · split
    · have hsetup : usbEpSetup s 0 = if usbPmaCountGet s 0 usbEpRxCountAddrIdx = 8 then
          processControlRequestHal (usbEpClearCorrectTransfer s 0 usbDirDeviceInHostOutIdx)
            (pendingRequest s)
          else usbEpSetRxBufferBlockSize
            (usbEpClearCorrectTransfer s 0 usbDirDeviceInHostOutIdx) 0 8 := rfl
      rw [hsetup, hcount]
      split
      · exact hclear.handle (pendingRequest s)
      · exact hclear.program (by decide)
    · exact hclear.rxPacket
  · exact h

theorem Ep0Refines.irqTx (h : Ep0Refines s e) {epReg : Word} {flag : Bool}
    (hflag : vttx epReg = flag) : Ep0Refines (usbIrqTx noCallbacks s 0 epReg) (e.irqTx flag) := by
  have hclear : Ep0Refines (usbEpClearCorrectTransfer s 0 usbDirDeviceOutHostInIdx)
      { e with reg := { e.reg with vttx := false } } := h.clearFlag 1
  have hfeed : ((usbEpClearCorrectTransfer s 0 usbDirDeviceOutHostInIdx).epTransferSet 0
      usbDirDeviceOutHostInIdx).feed = e.txFeed := h.txFeed
  unfold usbIrqTx Ep0.irqTx usbEpTransferComplete
  rw [hflag]
  dsimp only
  rw [hfeed, if_pos (by decide : usbEpIdn (BitVec.ofNat 8 0 ||| usbDirDeviceOutHostIn) = 0)]
  split
  · split
    · exact hclear.sendPacket
    · exact hclear.transfer _ (by decide) _
  · exact h

/-! ### The bus -/

theorem Ep0Refines.rxDeposit (h : Ep0Refines s e) {data : List Byte} (hlen : data.length ≤ 64) :
    Ep0Refines (rxDeposit s 0 data) { e with rxCount := data.length } := by
  have hrx : rxDesc (PcbMill.rxDeposit s 0 data) 0 = descSetCount (rxDesc s 0) data.length := by
    simp only [PcbMill.rxDeposit, rxDesc]
    rw [Function.update_self]
  have htx : txDesc (PcbMill.rxDeposit s 0 data) 0 = txDesc s 0 := by
    simp only [PcbMill.rxDeposit, txDesc]
    rw [Function.update_of_ne (by decide), storeBytes_of_lt]
    rw [h.ready.rxAddr]
    decide
  exact { h with
          ready := h.ready.of_layout rfl (htx ▸ rfl) (by rw [hrx, descAddr_descSetCount]) rfl rfl rfl
          rxCapacity := by
            rw [hrx, descCapacity_descSetCount]
            exact h.rxCapacity
          rxCount := by
            rw [hrx]
            exact descCount_descSetCount _ (by omega)
          txCount := htx ▸ h.txCount }

theorem Ep0Refines.setupOk (h : Ep0Refines s e) : busSetupOk s = e.setupOk := by
  simp only [busSetupOk, Ep0.setupOk]
  rw [← h.reg, ← h.rxCapacity]
  rfl

theorem Ep0Refines.outOk (h : Ep0Refines s e) (data : List Byte) :
    busOutOk s 0 data = e.outOk data := by
  simp only [busOutOk, Ep0.outOk]
  rw [← h.reg, ← h.rxCapacity]
  rfl

theorem Ep0Refines.setup (h : Ep0Refines s e) (r : UsbControlRequest) :
    Ep0Refines (busSetup s r) (e.setup r) := by
  simp only [busSetup, Ep0.setup]
  rw [h.setupOk]
  split
  · have hdeposit : Ep0Refines (PcbMill.rxDeposit s 0 r.bytes) { e with rxCount := 8 } :=
      h.rxDeposit (by decide : (8 : ℕ) ≤ 64)
    have hchep := hdeposit.setChep (epView_hwSetupPacket ((PcbMill.rxDeposit s 0 r.bytes).chep 0))
    have hvttx : vttx ((PcbMill.rxDeposit s 0 r.bytes).chep 0) = e.reg.vttx :=
      congrArg EpView.vttx h.reg
    rw [hvttx] at hchep
    exact hchep.log rfl
  · exact h

theorem Ep0Refines.out (h : Ep0Refines s e) (data : List Byte) :
    Ep0Refines (busOut s 0 data) (e.out data) := by
  simp only [busOut, Ep0.out]
  rw [h.outOk]
  split
  · rename_i hout
    have hlen : data.length ≤ 64 := by
      simp only [Ep0.outOk] at hout
      simp only [Bool.and_eq_true, decide_eq_true_eq] at hout
      exact hout.2.trans h.fits
    have hdeposit := h.rxDeposit hlen
    have hchep := hdeposit.setChep (epView_hwRxPacket ((PcbMill.rxDeposit s 0 data).chep 0))
    rw [show epView ((PcbMill.rxDeposit s 0 data).chep 0) = e.reg from h.reg] at hchep
    exact hchep.log rfl
  · exact h

theorem Ep0Refines.poll (h : Ep0Refines s e) : Ep0Refines (busIn s 0) e.poll := by
  have htx : epState (s.chep 0) 1 = e.reg.tx := congrArg EpView.tx h.reg
  simp only [busIn, Ep0.poll]
  rw [htx]
  split
  · have hchep := h.setChep (epView_hwTxPacket (s.chep 0))
    rw [h.reg] at hchep
    exact hchep.log_other rfl
  · exact h

/-! ### Reset and the step -/

/-- Bus reset assigns slot 0 to both directions of the control endpoint. -/
theorem usbReset_epAssignment (s : Usb) : Ep0Assigned (usbReset s) :=
  ⟨rfl, rfl, rfl, rfl⟩

/-- A bus reset lays out the buffers anew. -/
theorem usbReset_txDesc (s : Usb) : txDesc (usbReset s) 0 = descSetAddr (txDesc s 0) 64 := rfl

theorem usbReset_rxDesc (s : Usb) :
    rxDesc (usbReset s) 0 = descSetBlocks (descSetAddr (rxDesc s 0) 128) 8 := rfl

theorem usbReset_chep (s : Usb) :
    (usbReset s).chep 0 = regSet (s.chep 0) (controlInitValue (s.chep 0)) := rfl

theorem usbReset_epTransferSet (s : Usb) (dirIdx : ℕ) (hdir : dirIdx = 0 ∨ dirIdx = 1) :
    (usbReset s).epTransferSet 0 dirIdx =
      { s.epTransferSet 0 dirIdx with maxPacketSize := 64, epIdn := 0 } := by
  rcases hdir with rfl | rfl
  · rfl
  · rfl

theorem usbEpAssign_trace (s : Usb) (epAddr : Byte) (epType : ℕ) :
    (usbEpAssign s epAddr epType).2.trace = s.trace := by
  simp only [usbEpAssign]
  split
  · rfl
  · split
    · rfl
    · rfl

theorem usbEpControlInit_trace (s : Usb) : (usbEpControlInit s).trace = s.trace := by
  simp only [usbEpControlInit]
  dsimp only [usbEpSetRxBufferBlockSize, usbPmaEpAddrSet, usbPmaNextAddr, Usb.setTransfer,
    Usb.setPma, Usb.setChep]
  rw [usbEpAssign_trace, usbEpAssign_trace]

theorem usbReset_trace (s : Usb) : (usbReset s).trace = s.trace := by
  simp only [usbReset, usbConfigurationReset, usbCdcReset, usbInitEnableHal]
  dsimp only [Usb.setControl, Usb.setDevice, Usb.setCdc]
  rw [usbEpControlInit_trace]
  rfl

theorem ep0Ready_reset (s : Usb) : Ep0Ready (usbReset s) where
  assigned := usbReset_epAssignment s
  txAddr := by
    rw [usbReset_txDesc, descAddr_descSetAddr]
    decide
  rxAddr := by
    rw [usbReset_rxDesc, descAddr_descSetBlocks, descAddr_descSetAddr]
    decide
  rxMax := rfl
  txMax := rfl
  txIdn := rfl

theorem Ep0Refines.reset (h : Ep0Refines s e) : Ep0Refines (usbReset s) e.reset where
  ready := ep0Ready_reset s
  reg := by
    rw [usbReset_chep, epView_controlInit, show setupFlag (s.chep 0) = e.reg.setup from
      congrArg EpView.setup h.reg]
    rfl
  rxCapacity := by
    rw [usbReset_rxDesc, descCapacity_descSetBlocks _ (by decide)]
    rfl
  rxCount := by
    rw [usbReset_rxDesc, descCount_descSetBlocks]
    rfl
  txCount := by
    rw [usbReset_txDesc, descCount_descSetAddr]
    exact h.txCount
  rxFeed := by
    rw [usbReset_epTransferSet s 0 (.inl rfl)]
    exact h.rxFeed
  txFeed := by
    rw [usbReset_epTransferSet s 1 (.inr rfl)]
    exact h.txFeed
  control := rfl
  trace := by
    rw [usbReset_trace]
    exact h.trace
  fits := show (if 62 < 8 then 64 else 2 * ((8 + 1) / 2)) ≤ 64 by decide

/-- **Refinement, one step.** -/
theorem Ep0Refines.step (h : Ep0Refines s e) (ev : Ep0Event) :
    Ep0Refines (ep0Step s ev) (e.step (pendingRequest s) ev) := by
  cases ev with
  | reset => exact h.reset
  | setup r => exact h.setup r
  | out data => exact h.out data
  | poll => exact h.poll
  | irq => exact h.irqRx.irqTx (congrArg EpView.vttx h.reg)

/-- The control endpoint after initialisation and the first bus reset. -/
def ep0Boot : Ep0 :=
  { reg := { tx := .nak, rx := .nak, vttx := false, vtrx := false, setup := false }
    rxCapacity := 8
    rxCount := 0
    txCount := 0
    rxFeed := { buffer := .null, totalCount := 0, fedCount := 0 }
    txFeed := { buffer := .null, totalCount := 0, fedCount := 0 }
    control := Ep0.noTransfer
    trace := [] }

theorem ep0Refines_boot : Ep0Refines usbBoot ep0Boot where
  ready := ep0Ready_reset _
  reg := by decide
  rxCapacity := by decide
  rxCount := by decide
  txCount := by decide
  rxFeed := rfl
  txFeed := rfl
  control := rfl
  trace := rfl
  fits := by decide

/-! ### The pending SETUP packet -/

theorem usbControlRequestOfBytes_bytes (r : UsbControlRequest) :
    usbControlRequestOfBytes r.bytes = r := by
  have hword : ∀ v : BitVec 16, (v >>> 8).setWidth 8 ++ v.setWidth 8 = v := by
    intro v
    apply BitVec.eq_of_getLsbD_eq
    intro i hi
    rw [BitVec.getLsbD_append]
    by_cases hlow : i < 8
    · simp [hlow]
    · simp [hlow, show i - 8 < 8 by omega, show 8 + (i - 8) = i by omega]
  simp only [usbControlRequestOfBytes, UsbControlRequest.bytes]
  simp only [List.getD_cons_zero, List.getD_cons_succ, hword]

/-- The SETUP packet read from the packet memory is the one on the bus. -/
theorem pendingRequest_busSetup (h : Ep0Ready s) (hok : busSetupOk s = true)
    (r : UsbControlRequest) : pendingRequest (busSetup s r) = r := by
  have hpma : (busSetup s r).pma = (rxDeposit s 0 r.bytes).pma := by
    simp only [busSetup]
    rw [if_pos hok]
    rfl
  have hdesc : rxDesc (busSetup s r) 0 = descSetCount (rxDesc s 0) 8 := by
    simp only [rxDesc]
    rw [hpma]
    simp only [PcbMill.rxDeposit, rxDesc]
    rw [Function.update_self]
    rfl
  have haddr : usbPmaEpAddrGet (busSetup s r) 0 usbEpRxCountAddrIdx = 128 := by
    show descAddr (rxDesc (busSetup s r) 0) = 128
    rw [hdesc, descAddr_descSetCount, h.rxAddr]
  have hcount : usbPmaCountGet (busSetup s r) 0 usbEpRxCountAddrIdx = 8 := by
    show descCount (rxDesc (busSetup s r) 0) = 8
    rw [hdesc, descCount_descSetCount _ (by decide)]
  have hload : loadBytes (busSetup s r).pma 128 8 = r.bytes := by
    rw [hpma]
    simp only [PcbMill.rxDeposit]
    rw [h.rxAddr]
    refine Eq.trans (loadBytes_congr ?_) (loadBytes_storeBytes s.pma (by decide) r.bytes)
    intro w hw _
    exact Function.update_of_ne (by unfold bufferDesc usbEpRxCountAddrIdx; omega) _ _
  rw [pendingRequest, haddr, hcount, usbRxPmaRead_eq _ (by decide), hload,
    usbControlRequestOfBytes_bytes]

end PcbMill
