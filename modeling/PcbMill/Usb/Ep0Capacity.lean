import PcbMill.Usb.Ep0Refinement

/-!
# The receive buffer of EP0 and the next SETUP packet

A SETUP packet can come at any time and needs 8 of the 64 bytes allocated to EP0.  Every OUT
transfer on EP0 programs the receive block from its own length, status stages included, so the
buffer has room for a SETUP packet exactly as long as those lengths fit.
-/

namespace PcbMill

open FixedWidth Run

/-! ### Runs -/

/-- The events of EP0, and OUT transfers queued on it directly. -/
inductive Ep0QueueEvent where
  | ep0 (e : Ep0Event)
  | queueOut (buffer : Ptr) (totalBytes : BitVec 16)
  deriving DecidableEq, Repr

def ep0QueueStep (s : Usb) : Ep0QueueEvent → Usb
  | .ep0 e => ep0Step s e
  | .queueOut buffer totalBytes =>
    (usbEpQueueTransferHal s 0 usbDirDeviceInHostOutIdx buffer totalBytes.toNat).2

/-- The receive block takes a SETUP packet and stays in the memory allocated to EP0. -/
def SetupFits (s : Usb) : Prop :=
  8 ≤ descCapacity (rxDesc s 0) ∧ descCapacity (rxDesc s 0) ≤ usbEp0BufferSize

instance (s : Usb) : Decidable (SetupFits s) := inferInstanceAs (Decidable (_ ∧ _))

/-! ### The lengths -/

/-- An OUT transfer of this length leaves room for a SETUP packet.  From 1025 bytes on the block
count wraps around. -/
def LengthFits (n : ℕ) : Prop := 7 ≤ n ∧ n ≤ 62 ∨ 62 < n ∧ ((n + 31) / 32 + 31) % 32 ≤ 1

theorem lengthFits_iff (n : ℕ) :
    LengthFits n ↔ 8 ≤ blockCapacity n ∧ blockCapacity n ≤ usbEp0BufferSize := by
  simp only [LengthFits, blockCapacity, usbEp0BufferSize]
  split <;> omega

/-- The capacity after a length has been programmed, if one is. -/
def reprogrammed (capacity : ℕ) (length : Option ℕ) : ℕ := (length.map blockCapacity).getD capacity

@[simp] theorem reprogrammed_none (capacity : ℕ) : reprogrammed capacity none = capacity := rfl

@[simp] theorem reprogrammed_some (capacity n : ℕ) :
    reprogrammed capacity (some n) = blockCapacity n := rfl

/-- The later of two programmings counts. -/
theorem reprogrammed_reprogrammed (capacity : ℕ) (l l' : Option ℕ) :
    reprogrammed (reprogrammed capacity l) l' = reprogrammed capacity (l'.or l) := by
  cases l' with
  | none => simp
  | some n => simp

/-! ### The lengths of the stages -/

/-- The status stage of a device-to-host request is an OUT transfer of no bytes. -/
def statusLength (r : UsbControlRequest) : Option ℕ :=
  if usbRequestDirection r.bmRequestType = 1 then some 0 else none

/-- The next chunk of a host-to-device data stage. -/
def dataLength (c : ControlTransfer) : Option ℕ :=
  if usbRequestDirection c.request.bmRequestType = 0 then
    some (feedForwardRemainingCount c.feed usbEp0BufferSize)
  else none

/-- The first stage of a response of `len` bytes. -/
def responseLength (r : UsbControlRequest) (len : ℕ) : Option ℕ :=
  if 0 < r.wLength.toNat then
    if usbRequestDirection r.bmRequestType = 0 then
      some (min (min len r.wLength.toNat) usbEp0BufferSize)
    else none
  else statusLength r

/-- The handling of a SETUP packet. -/
def setupLength (r : UsbControlRequest) : Option ℕ :=
  match requestAction r with
  | .response _ len => responseLength r len
  | .status | .setConfiguration | .setAddress => statusLength r
  | .reject | .endpointFeature => none

/-- SET_ADDRESS resets the receive block once its status stage is over. -/
def completeLength (c : ControlTransfer) : Option ℕ :=
  if c.controlCompleteCb = some .usbDeviceSetAddressComplete then some 8 else none

/-- The class driver accepts the data stage. -/
def DataAccepted (c : ControlTransfer) : Prop :=
  c.controlCompleteCb = some .usbCdcControlTransfer → Ep0.cdcAccepts c.request = true

instance (c : ControlTransfer) : Decidable (DataAccepted c) :=
  inferInstanceAs (Decidable (_ → _))

/-- The completion of a packet of `n` bytes in a direction. -/
def transferLength (c : ControlTransfer) (dirIdx n : ℕ) : Option ℕ :=
  if usbRequestDirection c.request.bmRequestType ≠ dirIdx then
    if n ≠ 0 then none else completeLength c
  else if usbRequestDirection c.request.bmRequestType = 0 ∧ c.feed.buffer = .null then none
  else if c.request.wLength.toNat = (Ep0.advance c n).feed.fedCount ∨ n < usbEp0BufferSize then
    if DataAccepted c then statusLength c.request else none
  else dataLength (Ep0.advance c n)

/-- The receiving half of an iteration.  A SETUP packet of the wrong size resets the block, a
data packet programs the full buffer before its completion. -/
def irqRxLength (s : Usb) : Option ℕ :=
  if vtrx (s.chep 0) then
    if setupFlag (s.chep 0) then
      if usbPmaCountGet s 0 usbEpRxCountAddrIdx = 8 then setupLength (pendingRequest s) else some 8
    else (transferLength s.controlTransfer 0 (add16
      (s.epTransferSet 0 usbDirDeviceInHostOutIdx).feed.fedCount
      (usbPmaCountGet s 0 usbEpRxCountAddrIdx))).or (some usbEp0BufferSize)
  else none

/-- The transmitting half, with the flag read at the start of the iteration. -/
def irqTxLength (s : Usb) (flag : Bool) : Option ℕ :=
  let feed := (s.epTransferSet 0 usbDirDeviceOutHostInIdx).feed
  if flag ∧ feed.totalCount = feed.fedCount then transferLength s.controlTransfer 1 feed.fedCount
  else none

/-- The length an event programs last. -/
def programmedLength (s : Usb) : Ep0QueueEvent → Option ℕ
  | .ep0 .reset => some 8
  | .ep0 .irq => (irqTxLength (afterIrqRx s) (vttx (s.chep 0))).or (irqRxLength s)
  | .ep0 _ => none
  | .queueOut _ totalBytes => some totalBytes.toNat

/-- The condition: what the event programs, if anything, leaves room for a SETUP packet. -/
def LengthsFit (s : Usb) (e : Ep0QueueEvent) : Prop := ∀ n ∈ programmedLength s e, LengthFits n

/-! ### The capacity after an operation -/

namespace Ep0

variable {e : Ep0}

theorem program_capacity (e : Ep0) {n : ℕ} (hn : n ≤ 64) :
    (e.program n).rxCapacity = blockCapacity n := by
  simp only [program, blockCapacity_of_le hn]

theorem rxStore_capacity (e : Ep0) : e.rxStore.rxCapacity = blockCapacity usbEp0BufferSize :=
  program_capacity (n := usbEp0BufferSize)
    (e.log (.rxStored 0 (e.rxFeed.buffer.add e.rxFeed.fedCount) e.rxCount)) (by decide)

theorem queue_capacity (e : Ep0) (dirIdx : ℕ) (buffer : Ptr) {n : ℕ} (hn : n ≤ 64) :
    (e.queue dirIdx buffer n).rxCapacity =
      reprogrammed e.rxCapacity (if dirIdx = 1 then none else some n) := by
  simp only [queue]
  split
  · rfl
  · exact program_capacity (e.log (.queued 0 0 n)) hn

theorem statusStage_capacity (e : Ep0) (r : UsbControlRequest) :
    (e.statusStage r).rxCapacity = reprogrammed e.rxCapacity (statusLength r) := by
  have hqueue := e.queue_capacity (1 - usbRequestDirection r.bmRequestType) .null (Nat.zero_le 64)
  simp only [statusStage, statusLength]
  rw [hqueue]
  rcases usbRequestDirection_cases r.bmRequestType with hdir | hdir
  · simp [hdir]
  · simp [hdir]

theorem dataStage_capacity (e : Ep0) :
    e.dataStage.rxCapacity = reprogrammed e.rxCapacity (dataLength e.control) := by
  have hqueue := e.queue_capacity (usbRequestDirection e.control.request.bmRequestType)
    (if 0 < feedForwardRemainingCount e.control.feed usbEp0BufferSize then ⟨.ep0ControlBuffer, 0⟩
      else .null) (feedForwardRemainingCount_le e.control.feed usbEp0BufferSize)
  simp only [dataStage, dataLength]
  rw [hqueue]
  rcases usbRequestDirection_cases e.control.request.bmRequestType with hdir | hdir
  · simp [hdir]
  · simp [hdir]

theorem initStatusStage_capacity (e : Ep0) (r : UsbControlRequest) :
    (e.initStatusStage r).rxCapacity = reprogrammed e.rxCapacity (statusLength r) :=
  statusStage_capacity _ r

theorem response_capacity (e : Ep0) (r : UsbControlRequest) (buffer : Ptr) (len : ℕ) :
    (e.response r buffer len).rxCapacity = reprogrammed e.rxCapacity (responseLength r len) := by
  simp only [response, responseLength]
  split
  · rw [dataStage_capacity]
    simp only [dataLength]
    have hrest : feedForwardRemainingCount ⟨buffer, min len r.wLength.toNat, 0⟩ usbEp0BufferSize =
        min (min len r.wLength.toNat) usbEp0BufferSize := by
      simp only [feedForwardRemainingCount]
      rw [sub16_of_le (Nat.zero_le _) (responseTotal_lt r len)]
      split <;> omega
    rw [responseTotal, hrest]
  · exact statusStage_capacity _ r

theorem handle_capacity (e : Ep0) (r : UsbControlRequest) :
    (e.handle r).rxCapacity = reprogrammed e.rxCapacity (setupLength r) := by
  simp only [handle, setupLength]
  cases requestAction r with
  | reject => rfl
  | response buffer len => exact response_capacity _ r buffer len
  | status => exact initStatusStage_capacity _ r
  | setConfiguration => exact initStatusStage_capacity _ r
  | setAddress =>
    have hqueue := queue_capacity ((e.setCb (requestCb r)).initStatusStage r) 1 .null
      (Nat.zero_le 64)
    exact hqueue.trans (initStatusStage_capacity _ r)
  | endpointFeature =>
    show (endpointFeature _ r).rxCapacity = _
    simp only [endpointFeature]
    split
    · rfl
    · rfl

/-! ### Completions -/

theorem callback_capacity (e : Ep0) (cb : ControlCompleteCb) (stage : ControlStage) :
    (e.callback cb stage).2.rxCapacity = reprogrammed e.rxCapacity
      (if cb = .usbDeviceSetAddressComplete ∧ stage = .status then some 8 else none) := by
  simp only [callback]
  cases cb with
  | usbDeviceSetAddressComplete =>
    by_cases hstatus : stage = .status
    · simp only [hstatus, if_true, and_self]
      exact program_capacity _ (by decide)
    · simp [hstatus, log]
  | usbCdcControlTransfer => simp [log]

theorem dataComplete_capacity (e : Ep0) :
    e.dataComplete.rxCapacity = reprogrammed e.rxCapacity
      (if DataAccepted e.control then statusLength e.control.request else none) := by
  have hcallback : (e.dataCallback.1 = true ↔ DataAccepted e.control) ∧
      e.dataCallback.2.rxCapacity = e.rxCapacity ∧ e.dataCallback.2.control = e.control := by
    simp only [dataCallback, DataAccepted]
    cases hcb : e.control.controlCompleteCb with
    | none => simp
    | some cb =>
      cases cb with
      | usbDeviceSetAddressComplete => simp [callback, log]
      | usbCdcControlTransfer => simp [callback, log]
  obtain ⟨hok, hcapacity, hcontrol⟩ := hcallback
  simp only [dataComplete]
  by_cases haccept : DataAccepted e.control
  · rw [if_pos (hok.mpr haccept), if_pos haccept, statusStage_capacity, hcapacity, hcontrol]
  · rw [if_neg (fun h => haccept (hok.mp h)), if_neg haccept]
    exact hcapacity

theorem transfer_capacity (e : Ep0) (dirIdx n : ℕ) :
    (e.transfer dirIdx n).rxCapacity =
      reprogrammed e.rxCapacity (transferLength e.control dirIdx n) := by
  have hreceived : ∀ ev, ((e.log ev).dataReceived n).rxCapacity = e.rxCapacity ∧
      ((e.log ev).dataReceived n).control = advance e.control n := by
    intro ev
    simp only [dataReceived]
    split
    · exact ⟨rfl, rfl⟩
    · exact ⟨rfl, rfl⟩
  obtain ⟨hcapacity, hcontrol⟩ := hreceived (.dataStage e.control.request n)
  simp only [transfer, transferLength]
  split
  · split
    · rfl
    · simp only [completeLength]
      cases e.control.controlCompleteCb with
      | none => rfl
      | some cb =>
        dsimp only
        rw [callback_capacity]
        simp
  · split
    · rfl
    · rw [hcontrol]
      split
      · rw [dataComplete_capacity, hcapacity, hcontrol]
        rfl
      · rw [dataStage_capacity, hcapacity, hcontrol]

end Ep0

/-! ### The firmware -/

section Firmware

variable {s : Usb} {e : Ep0}

theorem irqRx_capacity (h : Ep0Refines s e) :
    (e.irqRx (pendingRequest s)).rxCapacity = reprogrammed e.rxCapacity (irqRxLength s) := by
  have hvtrx : vtrx (s.chep 0) = e.reg.vtrx := congrArg EpView.vtrx h.reg
  have hsetup : setupFlag (s.chep 0) = e.reg.setup := congrArg EpView.setup h.reg
  have hcount : usbPmaCountGet s 0 usbEpRxCountAddrIdx = e.rxCount := h.rxCount
  have hfeed : (s.epTransferSet 0 usbDirDeviceInHostOutIdx).feed = e.rxFeed := h.rxFeed
  unfold Ep0.irqRx irqRxLength
  rw [hvtrx, hsetup, hcount, hfeed, h.control]
  dsimp only
  split
  · split
    · split
      · exact Ep0.handle_capacity _ _
      · exact Ep0.program_capacity _ (by decide)
    · unfold Ep0.rxPacket Ep0.clearRxFeed
      dsimp only
      rw [Ep0.transfer_capacity, ← reprogrammed_reprogrammed]
      rw [Ep0.rxStore_capacity]
      rfl
  · rfl

theorem irqTx_capacity (h : Ep0Refines s e) (flag : Bool) :
    (e.irqTx flag).rxCapacity = reprogrammed e.rxCapacity (irqTxLength s flag) := by
  have hfeed : (s.epTransferSet 0 usbDirDeviceOutHostInIdx).feed = e.txFeed := h.txFeed
  unfold Ep0.irqTx irqTxLength
  rw [hfeed, h.control]
  dsimp only
  cases flag with
  | false => simp
  | true =>
    by_cases hmore : e.txFeed.totalCount = e.txFeed.fedCount
    · simp only [hmore, ne_eq, not_true_eq_false, if_true, if_false, and_self]
      exact Ep0.transfer_capacity _ 1 _
    · simp only [hmore, ne_eq, not_false_eq_true, if_true, if_false, and_false, reprogrammed_none]
      rfl

/-- What an event leaves as the capacity of EP0's receive buffer. -/
theorem ep0QueueStep_capacity (h : Ep0Refines s e) (ev : Ep0QueueEvent) :
    descCapacity (rxDesc (ep0QueueStep s ev) 0) =
      reprogrammed (descCapacity (rxDesc s 0)) (programmedLength s ev) := by
  rw [h.rxCapacity]
  cases ev with
  | ep0 ev =>
    refine (h.step ev).rxCapacity.trans ?_
    cases ev with
    | reset => exact Ep0.program_capacity (n := 8) e (by decide)
    | setup r =>
      show (e.setup r).rxCapacity = _
      simp only [Ep0.setup]
      split <;> rfl
    | out data =>
      show (e.out data).rxCapacity = _
      simp only [Ep0.out]
      split <;> rfl
    | poll =>
      show e.poll.rxCapacity = _
      simp only [Ep0.poll]
      split <;> rfl
    | irq =>
      have hflag : vttx (s.chep 0) = e.reg.vttx := congrArg EpView.vttx h.reg
      show ((e.irqRx (pendingRequest s)).irqTx e.reg.vttx).rxCapacity = _
      rw [irqTx_capacity h.irqRx, irqRx_capacity h, reprogrammed_reprogrammed, ← hflag]
      rfl
  | queueOut buffer totalBytes =>
    show descCapacity (descSetBlocks _ (totalBytes.toNat % 2 ^ 16)) = _
    rw [Nat.mod_eq_of_lt totalBytes.isLt, descCapacity_descSetBlocks_eq _ totalBytes.isLt]
    rfl

/-- A queued OUT transfer whose programmed capacity stays within the buffer. -/
theorem Ep0Refines.queueOut (h : Ep0Refines s e) (buffer : Ptr) {n : ℕ} (hn : n < 2 ^ 16)
    (hfits : blockCapacity n ≤ 64) :
    Ep0Refines (usbEpQueueTransferHal s 0 usbDirDeviceInHostOutIdx buffer n).2
      { e.queueOut buffer n with rxCapacity := blockCapacity n } := by
  have hlog : Ep0Refines (s.log (.queued 0 0 n)) (e.log (.queued 0 0 n)) := h.log rfl
  have hprogram := (hlog.setRx (t := { s.epTransferSet 0 0 with
    feed := { buffer := buffer, totalCount := n, fedCount := 0 } }) h.ready.rxMax).programBlock hn
    hfits
  refine hprogram.setChep ?_
  exact (epView_rxValid _ (by decide)).trans
    (congrArg (fun v : EpView => { v with rx := .valid }) h.reg)

end Firmware

/-! ### Runs -/

/-- EP0 is laid out and its receive block takes a SETUP packet. -/
def SetupReady (s : Usb) : Prop := SetupFits s ∧ ∃ e, Ep0Refines s e

theorem setupReady_boot : SetupReady usbBoot := ⟨by decide, _, ep0Refines_boot⟩

/-- An event keeps the capacity in its bounds exactly when the length it programs fits. -/
theorem setupFits_step {s : Usb} (h : SetupReady s) (ev : Ep0QueueEvent) :
    SetupFits (ep0QueueStep s ev) ↔ LengthsFit s ev := by
  obtain ⟨hfits, e, href⟩ := h
  simp only [SetupFits, LengthsFit] at *
  rw [ep0QueueStep_capacity href]
  cases programmedLength s ev with
  | none => simpa using hfits
  | some n => simp [lengthFits_iff]

theorem setupReady_step {s : Usb} (h : SetupReady s) {ev : Ep0QueueEvent} (hev : LengthsFit s ev) :
    SetupReady (ep0QueueStep s ev) := by
  have hfits := (setupFits_step h ev).mpr hev
  obtain ⟨-, e, href⟩ := h
  refine ⟨hfits, ?_⟩
  cases ev with
  | ep0 ev => exact ⟨_, href.step ev⟩
  | queueOut buffer totalBytes =>
    have hlength := (lengthFits_iff _).mp (hev _ rfl)
    exact ⟨_, href.queueOut buffer totalBytes.isLt hlength.2⟩

/-- **A SETUP packet fits EP0's receive buffer in every state of a run exactly when every OUT
transfer of the run has a length that leaves room for it.** -/
theorem setup_receivable_iff (es : List Ep0QueueEvent) :
    Always ep0QueueStep SetupFits usbBoot es ↔ Guarded ep0QueueStep LengthsFit usbBoot es :=
  always_iff_guarded (I := SetupReady) (fun _ h => h.1) (fun _ _ h hev => setupReady_step h hev)
    (fun _ _ h hev hfits => hev ((setupFits_step h _).mp hfits)) setupReady_boot

/-- GET_STATUS. -/
def getStatusRequest : UsbControlRequest :=
  { bmRequestType := 0x80#8, bRequest := usbStdGetStatus, wValue := 0#16, wIndex := 0#16
    wLength := 2#16 }

/-- A GET_STATUS up to the end of its data stage, where the status stage is queued. -/
def getStatusRun : List Ep0QueueEvent :=
  [.ep0 (.setup getStatusRequest), .ep0 .irq, .ep0 .poll, .ep0 .irq]

/-- The status stage programs a buffer of no bytes, which takes no SETUP packet. -/
theorem getStatus_refuses_setup : ¬Always ep0QueueStep SetupFits usbBoot getStatusRun := by
  intro h
  have hlast := h.last
  revert hlast
  decide

end PcbMill
