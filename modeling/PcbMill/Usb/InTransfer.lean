import PcbMill.Lib.Packets
import PcbMill.Usb.EndpointRegisters
import PcbMill.Usb.InData

/-!
# A transfer of several packets to the host

The loop over the packets is unrolled over the completions: queueing a transfer puts its first
packet in the packet memory, and the interrupt handler answers each completion with the next one or,
when everything has been fed, by calling `usb_ep_transfer_complete`.  Between these steps anything
may run that leaves the transmitter of the slot and the buffer alone.  The handler takes the flag of
an older packet for the first packet of the transfer.
-/

namespace PcbMill

open FixedWidth WordMemory Packets Segment

/-! ### The handler up to the call -/

/-- The VTTX half of an iteration without the call of `usb_ep_transfer_complete`, whose byte count
is returned when there is one. -/
def usbIrqTxHal (s : Usb) (epIdn : ℕ) (epReg : Word) : Usb × Option ℕ :=
  if vttx epReg then
    let s := usbEpClearCorrectTransfer s epIdn usbDirDeviceOutHostInIdx
    let t := s.epTransferSet epIdn usbDirDeviceOutHostInIdx
    if t.feed.totalCount ≠ t.feed.fedCount then (usbTxPacket s epIdn, none)
    else (s, some t.feed.fedCount)
  else (s, none)

/-- The call at the end of the half. -/
def usbIrqTxCall (cbs : CdcCallbacks) (epIdn : ℕ) : Usb × Option ℕ → Usb
  | (s, none) => s
  | (s, some n) =>
    usbEpTransferComplete cbs s (BitVec.ofNat 8 epIdn ||| usbDirDeviceOutHostIn) n

theorem usbIrqTx_eq (cbs : CdcCallbacks) (s : Usb) (epIdn : ℕ) (epReg : Word) :
    usbIrqTx cbs s epIdn epReg = usbIrqTxCall cbs epIdn (usbIrqTxHal s epIdn epReg) := by
  simp only [usbIrqTx, usbIrqTxHal]
  split_ifs <;> rfl

/-! ### The system -/

/-- A transfer on its way: the device, the packets written to the packet memory so far, those the
host has taken, and the byte counts `usb_ep_transfer_complete` has been called with. -/
structure InTransfer where
  usb : Usb
  written : List (List Byte)
  sent : List (List Byte)
  completed : List ℕ

/-- The transfer that `usb_ep_queue_transfer_hal` starts. -/
def InTransfer.queue (s : Usb) (idn : ℕ) (buffer : Ptr) (totalBytes : ℕ) : InTransfer :=
  let s := (usbEpQueueTransferHal s idn usbDirDeviceOutHostInIdx buffer totalBytes).2
  { usb := s, written := [txPacketBytes s idn], sent := [], completed := [] }

/-- The host asks for a packet. -/
def InTransfer.poll (idn : ℕ) (x : InTransfer) : InTransfer :=
  { x with
    usb := busIn x.usb idn
    sent := if epState (x.usb.chep idn) 1 = .valid then x.sent ++ [txPacketBytes x.usb idn]
      else x.sent }

/-- The interrupt handler looks at the slot. -/
def InTransfer.irq (idn : ℕ) (x : InTransfer) : InTransfer :=
  let r := usbIrqTxHal x.usb idn (x.usb.chep idn)
  { x with
    usb := r.1
    written := if vttx (x.usb.chep idn) ∧ r.2 = none then x.written ++ [txPacketBytes r.1 idn]
      else x.written
    completed := x.completed ++ r.2.toList }

/-- The transmitter of the slot and the buffer of its transfer are left alone. -/
structure InKept (idn : ℕ) (s s' : Usb) : Prop where
  record : s'.epTransferSet idn 1 = s.epTransferSet idn 1
  buffer : s'.load (s.epTransferSet idn 1).feed.buffer (s.epTransferSet idn 1).feed.totalCount =
    s.load (s.epTransferSet idn 1).feed.buffer (s.epTransferSet idn 1).feed.totalCount
  desc : txDesc s' idn = txDesc s idn
  packet : txPacketBytes s' idn = txPacketBytes s idn
  state : epState (s'.chep idn) 1 = epState (s.chep idn) 1
  flag : vttx (s'.chep idn) = vttx (s.chep idn)

/-- An iteration of the handler whose receive half leaves the transmitter alone is that half, the
step on the transmitter, and the call. -/
theorem usbIrqCtr_eq (cbs : CdcCallbacks) {s s' : Usb} {idn : ℕ}
    (hrx : usbIrqRx cbs s idn (s.chep idn) = s') (hkept : InKept idn s s') :
    usbIrqCtr cbs s idn = usbIrqTxCall cbs idn (usbIrqTxHal s' idn (s'.chep idn)) := by
  have hflag : usbIrqTxHal s' idn (s.chep idn) = usbIrqTxHal s' idn (s'.chep idn) := by
    simp only [usbIrqTxHal]
    rw [hkept.flag]
  simp only [usbIrqCtr]
  rw [hrx, usbIrqTx_eq, hflag]

/-- The steps while nothing is queued again. -/
inductive InTransfer.Step (idn : ℕ) : InTransfer → InTransfer → Prop
  | poll (x : InTransfer) : Step idn x (x.poll idn)
  | irq (x : InTransfer) : Step idn x (x.irq idn)
  | other (x : InTransfer) (s : Usb) (h : InKept idn x.usb s) : Step idn x { x with usb := s }

/-- A completion: the host takes a packet and the handler runs. -/
def InTransfer.completion (idn : ℕ) (x : InTransfer) : InTransfer := (x.poll idn).irq idn

/-- An open IN endpoint in slot `idn`. -/
structure InReady (idn : ℕ) (s : Usb) : Prop where
  slot : idn < usbEpMax
  record : (s.epTransferSet idn 1).epIdn = idn
  size_pos : 1 ≤ (s.epTransferSet idn 1).maxPacketSize
  size_le : (s.epTransferSet idn 1).maxPacketSize ≤ 1023
  aligned : descAddr (txDesc s idn) % 4 = 0
  behind : 64 ≤ descAddr (txDesc s idn)

/-- Opening an IN endpoint gets its slot ready. -/
theorem inReady_opened {s : Usb} {d : EpDescriptor} {i : ℕ} {typeBits : Word}
    (hi : SlotFound s d.bEndpointAddress d.type i) (htype : usbEpOpenType d.type = some typeBits)
    (hin : d.dirIdx = 1) (hpos : 1 ≤ d.packetSize) (hle : d.packetSize ≤ 1023)
    (hnext : 64 ≤ s.usbPmaNextAvailable) (hlt : s.usbPmaNextAvailable < 2 ^ 16) :
    InReady i (usbEpOpenHal s d).2 := by
  rw [usbEpOpenHal_opened hi htype]
  have hrecord : (openSlot s d i typeBits).epTransferSet i 1 =
      { s.epTransferSet i 1 with maxPacketSize := d.packetSize, epIdn := i } := by
    simp only [openSlot, hin, Function.update_self]
  have haddr : descAddr (txDesc (openSlot s d i typeBits) i) = s.usbPmaNextAvailable / 4 * 4 := by
    have hdesc : txDesc (openSlot s d i typeBits) i =
        descSetAddr (s.pma (bufferDesc i (dirBuffer d.dirIdx))) s.usbPmaNextAvailable := by
      simp only [txDesc, openSlot, hin]
      exact Function.update_self ..
    rw [hdesc, descAddr_descSetAddr_eq, Nat.mod_eq_of_lt hlt]
  constructor
  · exact hi.lt
  · rw [hrecord]
  · rw [hrecord]
    exact hpos
  · rw [hrecord]
    exact hle
  · rw [haddr]
    omega
  · rw [haddr]
    omega

/-- EP0 always is one. -/
theorem Ep0Ready.inReady {s : Usb} (h : Ep0Ready s) : InReady 0 s where
  slot := by decide
  record := h.txIdn
  size_pos := by rw [h.txMax]; decide
  size_le := by rw [h.txMax]; decide
  aligned := by rw [h.txAddr]
  behind := by rw [h.txAddr]

/-- What is true of the transfer of `bytes` in packets of `size` bytes at any time. -/
structure InTransfer.Ok (idn size : ℕ) (bytes : List Byte) (x : InTransfer) : Prop where
  total : (x.usb.epTransferSet idn 1).feed.totalCount = bytes.length
  fed : (x.usb.epTransferSet idn 1).feed.fedCount ≤ (x.usb.epTransferSet idn 1).feed.totalCount
  flatten : x.written.flatten = bytes.take (x.usb.epTransferSet idn 1).feed.fedCount
  full : ∀ p ∈ x.written.dropLast, p.length = size
  bounded : ∀ p ∈ x.written, p.length ≤ size
  empty : [] ∈ x.written ↔ bytes = []
  single : bytes = [] → x.written = [[]]
  sent : x.sent = x.written ∨ x.sent = x.written.dropLast
  completed : x.completed = [] ∨
    x.completed = [bytes.length] ∧ x.sent = x.written ∧ x.written.flatten = bytes

/-! ### The device after some packets -/

/-- The slot has been fed the first `n` packets of the bytes. -/
structure InFed (idn size : ℕ) (bytes : List Byte) (buffer : Ptr) (n : ℕ) (s : Usb) : Prop where
  slot : idn < usbEpMax
  record : (s.epTransferSet idn 1).epIdn = idn
  size_eq : (s.epTransferSet idn 1).maxPacketSize = size
  size_pos : 1 ≤ size
  size_le : size ≤ 1023
  short : bytes.length < 2 ^ 16
  aligned : descAddr (txDesc s idn) % 4 = 0
  behind : 64 ≤ descAddr (txDesc s idn)
  feed : (s.epTransferSet idn 1).feed =
    { buffer := buffer, totalCount := bytes.length, fedCount := min (n * size) bytes.length }
  load : s.load buffer bytes.length = bytes

section Device

variable {idn size n : ℕ} {bytes : List Byte} {buffer : Ptr} {s s' : Usb}

/-- Part of a buffer whose contents are known. -/
theorem Usb.load_add (h : s.load buffer bytes.length = bytes) {f m : ℕ} (hm : f + m ≤ bytes.length) :
    s.load (buffer.add f) m = (bytes.drop f).take m := by
  have happend := s.load_append buffer f (bytes.length - f)
  rw [show f + (bytes.length - f) = bytes.length by omega, h] at happend
  have hdrop : bytes.drop f = s.load (buffer.add f) (bytes.length - f) :=
    (congrArg (List.drop f) happend.symm).trans (List.drop_left' (s.load_length buffer f))
  have htake : s.load (buffer.add f) (bytes.length - f) =
      s.load (buffer.add f) m ++ s.load ((buffer.add f).add m) (bytes.length - f - m) := by
    rw [s.load_append, Nat.add_sub_cancel' (by omega)]
  rw [hdrop, htake]
  exact (List.take_left' (s.load_length (buffer.add f) m)).symm

theorem InFed.of_same (h : InFed idn size bytes buffer n s)
    (hrecord : s'.epTransferSet idn 1 = s.epTransferSet idn 1) (hdesc : txDesc s' idn = txDesc s idn)
    (hload : s'.load buffer bytes.length = s.load buffer bytes.length) :
    InFed idn size bytes buffer n s' where
  slot := h.slot
  record := by rw [hrecord]; exact h.record
  size_eq := by rw [hrecord]; exact h.size_eq
  size_pos := h.size_pos
  size_le := h.size_le
  short := h.short
  aligned := by rw [hdesc]; exact h.aligned
  behind := by rw [hdesc]; exact h.behind
  feed := by rw [hrecord]; exact h.feed
  load := hload.trans h.load

theorem InFed.remaining (h : InFed idn size bytes buffer n s) :
    feedForwardRemainingCount (s.epTransferSet idn 1).feed (s.epTransferSet idn 1).maxPacketSize =
      min (bytes.length - min (n * size) bytes.length) size := by
  rw [h.size_eq, h.feed]
  exact feedForwardRemainingCount_eq (Nat.min_le_right _ _) h.short size

/-- **Writing a packet** takes the next bytes of the buffer and arms the transmitter. -/
theorem InFed.txPacket (h : InFed idn size bytes buffer n s) (hmore : n * size ≤ bytes.length) :
    InFed idn size bytes buffer (n + 1) (usbTxPacket s idn) ∧
      txPacketBytes (usbTxPacket s idn) idn = (bytes.drop (n * size)).take size := by
  have hremaining := h.remaining
  rw [Nat.min_eq_left hmore] at hremaining
  have hsize := h.size_le
  have hshort := h.short
  have hfeed := h.feed
  rw [Nat.min_eq_left hmore] at hfeed
  have hpacket := txPacketBytes_usbTxPacket h.slot h.record h.aligned h.behind
    (show min (bytes.length - n * size) size < 1024 by omega) hremaining
  have hpma := usbTxPacket_pma h.record h.slot h.behind hremaining
  have hdesc : txDesc (usbTxPacket s idn) idn =
      descSetCount (txDesc s idn) (min (bytes.length - n * size) size) := by
    rw [txDesc, hpma, Function.update_self]
  constructor
  · have hrecord := usbTxPacket_record s idn
    rw [hremaining, hfeed] at hrecord
    constructor
    · exact h.slot
    · rw [hrecord]
      exact h.record
    · rw [hrecord]
      exact h.size_eq
    · exact h.size_pos
    · exact h.size_le
    · exact h.short
    · rw [hdesc, descAddr_descSetCount]
      exact h.aligned
    · rw [hdesc, descAddr_descSetCount]
      exact h.behind
    · rw [hrecord, Nat.succ_mul]
      dsimp only
      rw [add16_of_lt (by omega)]
      congr 1
      omega
    · exact h.load
  · rw [hpacket, hfeed]
    dsimp only
    rw [Usb.load_add h.load (by omega), ← List.length_drop, Nat.min_comm, ← List.take_eq_take_min]

/-- Queueing writes the first packet. -/
theorem InReady.queue (h : InReady idn s) (buffer : Ptr) {total : ℕ} (htotal : total < 2 ^ 16) :
    InFed idn (s.epTransferSet idn 1).maxPacketSize (s.load buffer total) buffer 1
        (usbEpQueueTransferHal s idn 1 buffer total).2 ∧
      txPacketBytes (usbEpQueueTransferHal s idn 1 buffer total).2 idn =
        (s.load buffer total).take (s.epTransferSet idn 1).maxPacketSize := by
  have hself := setTransfer_self (s.log (.queued idn 1 total)) idn 1 { s.epTransferSet idn 1 with
    feed := { buffer := buffer, totalCount := total, fedCount := 0 } }
  have hlength : (s.load buffer total).length = total := s.load_length buffer total
  have hfed : InFed idn (s.epTransferSet idn 1).maxPacketSize (s.load buffer total) buffer 0
      (recordTransfer s idn 1 buffer total) := by
    constructor
    · exact h.slot
    · rw [recordTransfer, hself]
      exact h.record
    · rw [recordTransfer, hself]
    · exact h.size_pos
    · exact h.size_le
    · rw [hlength]
      exact htotal
    · exact h.aligned
    · exact h.behind
    · rw [recordTransfer, hself, hlength, Nat.zero_mul, Nat.zero_min]
    · rw [hlength]
      rfl
  have hfirst := hfed.txPacket (by rw [Nat.zero_mul]; exact Nat.zero_le _)
  rw [Nat.zero_mul, List.drop_zero] at hfirst
  exact hfirst

/-! ### The registers of the slot -/

theorem usbTxPacket_state (hrecord : (s.epTransferSet idn 1).epIdn = idn) :
    epState ((usbTxPacket s idn).chep idn) 1 = .valid ∧
      vttx ((usbTxPacket s idn).chep idn) = vttx (s.chep idn) := by
  refine ⟨epState_usbTxPacket hrecord, ?_⟩
  rw [usbTxPacket_chep hrecord, Function.update_self]
  exact congrArg EpView.vttx (epView_txValid _)

theorem clearTx_state (s : Usb) (idn : ℕ) :
    epState ((usbEpClearCorrectTransfer s idn 1).chep idn) 1 = epState (s.chep idn) 1 ∧
      vttx ((usbEpClearCorrectTransfer s idn 1).chep idn) = false := by
  have hview := epView_clearCorrectTransfer (s.chep idn) 1
  rw [if_pos rfl] at hview
  have hchep : (usbEpClearCorrectTransfer s idn 1).chep idn =
      regSet (s.chep idn) (clearCorrectTransferValue (s.chep idn) 1) := Function.update_self ..
  rw [hchep]
  exact ⟨congrArg EpView.tx hview, congrArg EpView.vttx hview⟩

theorem busIn_state (hvalid : epState (s.chep idn) 1 = .valid) :
    epState ((busIn s idn).chep idn) 1 ≠ .valid ∧ vttx ((busIn s idn).chep idn) = true := by
  have hview := epView_hwTxPacket (s.chep idn)
  have hchep : (busIn s idn).chep idn = hwTxPacket (s.chep idn) := by
    rw [busIn, if_pos hvalid]
    exact Function.update_self ..
  have hnak : epState (hwTxPacket (s.chep idn)) 1 = .nak := congrArg EpView.tx hview
  rw [hchep, hnak]
  exact ⟨EpState.noConfusion, congrArg EpView.vttx hview⟩

theorem busIn_of_not_valid (h : epState (s.chep idn) 1 ≠ .valid) : busIn s idn = s := if_neg h

theorem InFed.busIn (h : InFed idn size bytes buffer n s) :
    InFed idn size bytes buffer n (busIn s idn) := by
  rw [PcbMill.busIn]
  split
  · exact h.of_same rfl rfl rfl
  · exact h

end Device

/-! ### The phases of a transfer -/

section Phases

variable {idn size k : ℕ} {bytes : List Byte} {buffer : Ptr} {x y : InTransfer}

/-- `k + 1` packets have been written, and the bytes did not end before the last of them. -/
structure InWritten (idn size : ℕ) (bytes : List Byte) (buffer : Ptr) (k : ℕ) (x : InTransfer) :
    Prop where
  fed : InFed idn size bytes buffer (k + 1) x.usb
  more : k * size < bytes.length ∨ k = 0
  written : x.written = firstPackets size bytes (k + 1)

/-- The last packet waits for the host. -/
structure InArmed (idn size : ℕ) (bytes : List Byte) (buffer : Ptr) (k : ℕ) (x : InTransfer) :
    Prop extends InWritten idn size bytes buffer k x where
  state : epState (x.usb.chep idn) 1 = .valid
  flag : vttx (x.usb.chep idn) = false
  packet : txPacketBytes x.usb idn = (bytes.drop (k * size)).take size
  sent : x.sent = firstPackets size bytes k
  completed : x.completed = []

/-- The host has taken it, and the handler has not run. -/
structure InTaken (idn size : ℕ) (bytes : List Byte) (buffer : Ptr) (k : ℕ) (x : InTransfer) :
    Prop extends InWritten idn size bytes buffer k x where
  state : epState (x.usb.chep idn) 1 ≠ .valid
  flag : vttx (x.usb.chep idn) = true
  sent : x.sent = x.written
  completed : x.completed = []

/-- Everything has been sent and reported. -/
structure InDone (idn size : ℕ) (bytes : List Byte) (buffer : Ptr) (k : ℕ) (x : InTransfer) :
    Prop extends InWritten idn size bytes buffer k x where
  state : epState (x.usb.chep idn) 1 ≠ .valid
  flag : vttx (x.usb.chep idn) = false
  sent : x.sent = x.written
  completed : x.completed = [bytes.length]
  all : bytes.length ≤ (k + 1) * size

/-- Where a transfer can be. -/
def InPhase (idn size : ℕ) (bytes : List Byte) (buffer : Ptr) (k : ℕ) (x : InTransfer) : Prop :=
  InArmed idn size bytes buffer k x ∨ InTaken idn size bytes buffer k x ∨
    InDone idn size bytes buffer k x

theorem InPhase.toInWritten (h : InPhase idn size bytes buffer k x) :
    InWritten idn size bytes buffer k x := by
  rcases h with h | h | h
  · exact h.toInWritten
  · exact h.toInWritten
  · exact h.toInWritten

/-! ### The steps -/

theorem InTransfer.irq_of_flag (h : vttx (x.usb.chep idn) = false) : x.irq idn = x := by
  have hhal : usbIrqTxHal x.usb idn (x.usb.chep idn) = (x.usb, none) := by
    rw [usbIrqTxHal, if_neg (ne_true_of_eq_false h)]
  simp only [InTransfer.irq, hhal, h]
  simp

theorem InTransfer.poll_of_state (h : epState (x.usb.chep idn) 1 ≠ .valid) : x.poll idn = x := by
  simp only [InTransfer.poll, busIn_of_not_valid h, if_neg h]

theorem InArmed.poll (h : InArmed idn size bytes buffer k x) :
    InTaken idn size bytes buffer k (x.poll idn) where
  fed := h.fed.busIn
  more := h.more
  written := h.written
  state := (busIn_state h.state).1
  flag := (busIn_state h.state).2
  sent := by
    show (if epState (x.usb.chep idn) 1 = .valid then x.sent ++ [txPacketBytes x.usb idn]
      else x.sent) = x.written
    rw [if_pos h.state, h.sent, h.packet, h.written, firstPackets_succ]
  completed := h.completed

theorem InTaken.fed_cleared (h : InTaken idn size bytes buffer k x) :
    InFed idn size bytes buffer (k + 1) (usbEpClearCorrectTransfer x.usb idn 1) :=
  h.fed.of_same rfl rfl rfl

/-- While bytes are left the handler answers a completion with the next packet. -/
theorem InTaken.irq_next (h : InTaken idn size bytes buffer k x)
    (hmore : (k + 1) * size < bytes.length) : InArmed idn size bytes buffer (k + 1) (x.irq idn) := by
  have hclear := clearTx_state x.usb idn
  have hnext := h.fed_cleared.txPacket hmore.le
  have hstate := usbTxPacket_state h.fed_cleared.record
  have hhal : usbIrqTxHal x.usb idn (x.usb.chep idn) =
      (usbTxPacket (usbEpClearCorrectTransfer x.usb idn 1) idn, none) := by
    rw [usbIrqTxHal, if_pos h.flag]
    dsimp only [usbDirDeviceOutHostInIdx]
    rw [h.fed_cleared.feed,
      if_pos (show bytes.length ≠ min ((k + 1) * size) bytes.length by omega)]
  have hirq : x.irq idn = { x with
      usb := usbTxPacket (usbEpClearCorrectTransfer x.usb idn 1) idn
      written := x.written ++ [(bytes.drop ((k + 1) * size)).take size] } := by
    simp only [InTransfer.irq, hhal, h.flag, hnext.2, Option.toList_none, List.append_nil, and_self,
      if_true]
  rw [hirq]
  exact
    { fed := hnext.1
      more := .inl hmore
      written := by
        rw [h.written]
        exact (firstPackets_succ size bytes (k + 1)).symm
      state := hstate.1
      flag := hstate.2.trans hclear.2
      packet := hnext.2
      sent := h.sent.trans h.written
      completed := h.completed }

/-- When none is left it reports the end. -/
theorem InTaken.irq_end (h : InTaken idn size bytes buffer k x)
    (hall : bytes.length ≤ (k + 1) * size) : InDone idn size bytes buffer k (x.irq idn) := by
  have hclear := clearTx_state x.usb idn
  have hhal : usbIrqTxHal x.usb idn (x.usb.chep idn) =
      (usbEpClearCorrectTransfer x.usb idn 1, some bytes.length) := by
    rw [usbIrqTxHal, if_pos h.flag]
    dsimp only [usbDirDeviceOutHostInIdx]
    rw [h.fed_cleared.feed, Nat.min_eq_right hall, if_neg (not_not.mpr rfl)]
  have hirq : x.irq idn = { x with
      usb := usbEpClearCorrectTransfer x.usb idn 1, completed := [bytes.length] } := by
    simp only [InTransfer.irq, hhal, h.completed, Option.toList_some, List.nil_append,
      reduceCtorEq, and_false, if_false]
  rw [hirq]
  exact
    { fed := h.fed_cleared
      more := h.more
      written := h.written
      state := by
        rw [hclear.1]
        exact h.state
      flag := hclear.2
      sent := h.sent
      completed := rfl
      all := hall }

theorem InTaken.irq (h : InTaken idn size bytes buffer k x) :
    InArmed idn size bytes buffer (k + 1) (x.irq idn) ∨ InDone idn size bytes buffer k (x.irq idn) :=
  (Nat.lt_or_ge ((k + 1) * size) bytes.length).imp h.irq_next h.irq_end

theorem InWritten.other {s : Usb} (h : InWritten idn size bytes buffer k x)
    (hkept : InKept idn x.usb s) : InWritten idn size bytes buffer k { x with usb := s } where
  fed := by
    refine h.fed.of_same hkept.record hkept.desc ?_
    have hload := hkept.buffer
    rw [h.fed.feed] at hload
    exact hload
  more := h.more
  written := h.written

theorem InPhase.other {s : Usb} (h : InPhase idn size bytes buffer k x) (hkept : InKept idn x.usb s) :
    InPhase idn size bytes buffer k { x with usb := s } := by
  rcases h with h | h | h
  · exact .inl
      { h.toInWritten.other hkept with
        state := hkept.state.trans h.state
        flag := hkept.flag.trans h.flag
        packet := hkept.packet.trans h.packet
        sent := h.sent
        completed := h.completed }
  · exact .inr (.inl
      { h.toInWritten.other hkept with
        state := fun hvalid => h.state (hkept.state.symm.trans hvalid)
        flag := hkept.flag.trans h.flag
        sent := h.sent
        completed := h.completed })
  · exact .inr (.inr
      { h.toInWritten.other hkept with
        state := fun hvalid => h.state (hkept.state.symm.trans hvalid)
        flag := hkept.flag.trans h.flag
        sent := h.sent
        completed := h.completed
        all := h.all })

theorem InPhase.step (h : InPhase idn size bytes buffer k x) (hstep : InTransfer.Step idn x y) :
    ∃ k', InPhase idn size bytes buffer k' y := by
  cases hstep with
  | poll =>
    rcases h with h | h | h
    · exact ⟨k, .inr (.inl h.poll)⟩
    · rw [InTransfer.poll_of_state h.state]
      exact ⟨k, .inr (.inl h)⟩
    · rw [InTransfer.poll_of_state h.state]
      exact ⟨k, .inr (.inr h)⟩
  | irq =>
    rcases h with h | h | h
    · rw [InTransfer.irq_of_flag h.flag]
      exact ⟨k, .inl h⟩
    · rcases h.irq with hnext | hdone
      · exact ⟨k + 1, .inl hnext⟩
      · exact ⟨k, .inr (.inr hdone)⟩
    · rw [InTransfer.irq_of_flag h.flag]
      exact ⟨k, .inr (.inr h)⟩
  | other s hkept => exact ⟨k, h.other hkept⟩

theorem InPhase.run (h : InPhase idn size bytes buffer k x)
    (hrun : Relation.ReflTransGen (InTransfer.Step idn) x y) :
    ∃ k', InPhase idn size bytes buffer k' y := by
  induction hrun with
  | refl => exact ⟨k, h⟩
  | tail _ hstep ih =>
    obtain ⟨k', h'⟩ := ih
    exact h'.step hstep

/-! ### Completions bring a transfer to its end -/

/-- One completion writes one more packet or ends the transfer. -/
theorem InPhase.completion (h : InPhase idn size bytes buffer k x) :
    InPhase idn size bytes buffer (k + 1) (x.completion idn) ∨
      InDone idn size bytes buffer k (x.completion idn) := by
  rw [InTransfer.completion]
  have htaken : ∀ z, InTaken idn size bytes buffer k z →
      InPhase idn size bytes buffer (k + 1) (z.irq idn) ∨
        InDone idn size bytes buffer k (z.irq idn) :=
    fun z hz => hz.irq.imp .inl id
  rcases h with h | h | h
  · exact htaken _ h.poll
  · rw [InTransfer.poll_of_state h.state]
    exact htaken x h
  · rw [InTransfer.poll_of_state h.state, InTransfer.irq_of_flag h.flag]
    exact .inr h

theorem InDone.completions (h : InDone idn size bytes buffer k x) (m : ℕ) :
    (InTransfer.completion idn)^[m] x = x := by
  refine Function.iterate_fixed ?_ m
  rw [InTransfer.completion, InTransfer.poll_of_state h.state, InTransfer.irq_of_flag h.flag]

/-- As many completions as there are packets are enough from anywhere. -/
theorem InPhase.completions (m : ℕ) : ∀ {k : ℕ} {x : InTransfer},
    InPhase idn size bytes buffer k x → packetCount size bytes.length ≤ k + m →
      ((InTransfer.completion idn)^[m] x).completed = [bytes.length] := by
  induction m with
  | zero =>
    intro k x h hm
    have hlt := lt_packetCount h.toInWritten.fed.size_pos h.toInWritten.more
    omega
  | succ m ih =>
    intro k x h hm
    rw [Function.iterate_succ_apply]
    rcases h.completion with hnext | hdone
    · exact ih hnext (by omega)
    · rw [hdone.completions m]
      exact hdone.completed

/-! ### What the phases say -/

theorem InWritten.flatten (h : InWritten idn size bytes buffer k x) :
    x.written.flatten = bytes.take ((k + 1) * size) := by
  rw [h.written, firstPackets_flatten]

theorem InWritten.whole (h : InWritten idn size bytes buffer k x) : k * size ≤ bytes.length := by
  rcases h.more with hlt | rfl
  · exact hlt.le
  · rw [Nat.zero_mul]
    exact Nat.zero_le _

theorem InWritten.ok (h : InWritten idn size bytes buffer k x)
    (hsent : x.sent = x.written ∨ x.sent = firstPackets size bytes k)
    (hcompleted : x.completed = [] ∨
      x.completed = [bytes.length] ∧ x.sent = x.written ∧ bytes.length ≤ (k + 1) * size) :
    x.Ok idn size bytes where
  total := by rw [h.fed.feed]
  fed := by
    rw [h.fed.feed]
    exact Nat.min_le_right _ _
  flatten := by
    rw [h.flatten, h.fed.feed]
    exact List.take_eq_take_min
  full := by
    rw [h.written, firstPackets_dropLast]
    exact firstPackets_full h.whole
  bounded := by
    intro p hp
    rw [h.written] at hp
    obtain ⟨i, -, rfl⟩ := List.mem_map.mp hp
    exact List.length_take_le _ _
  empty := by
    rw [h.written]
    exact nil_mem_firstPackets h.fed.size_pos h.more
  single := by
    rintro rfl
    have hzero : k = 0 := h.more.resolve_left (Nat.not_lt_zero _)
    rw [h.written, hzero]
    simp [firstPackets]
  sent := by
    rw [h.written, firstPackets_dropLast, ← h.written]
    exact hsent
  completed := by
    refine hcompleted.imp_right fun hend => ⟨hend.1, hend.2.1, ?_⟩
    rw [h.flatten, List.take_of_length_le hend.2.2]

theorem InPhase.ok (h : InPhase idn size bytes buffer k x) : x.Ok idn size bytes := by
  rcases h with h | h | h
  · exact h.toInWritten.ok (.inr h.sent) (.inl h.completed)
  · exact h.toInWritten.ok (.inl h.sent) (.inl h.completed)
  · exact h.toInWritten.ok (.inl h.sent) (.inr ⟨h.completed, h.sent, h.all⟩)

theorem InReady.phase {s : Usb} (h : InReady idn s) (hidle : vttx (s.chep idn) = false)
    (buffer : Ptr) {total : ℕ} (htotal : total < 2 ^ 16) :
    InPhase idn (s.epTransferSet idn 1).maxPacketSize (s.load buffer total) buffer 0
      (InTransfer.queue s idn buffer total) := by
  obtain ⟨hfed, hpacket⟩ := h.queue buffer htotal
  have hrecord : ((recordTransfer s idn 1 buffer total).epTransferSet idn 1).epIdn = idn := by
    rw [recordTransfer_epIdn]
    exact h.record
  have hstate := usbTxPacket_state hrecord
  exact .inl
    { fed := hfed
      more := .inr rfl
      written := by
        refine (congrArg (fun p => [p]) hpacket).trans ?_
        simp [firstPackets]
      state := hstate.1
      flag := hstate.2.trans hidle
      packet := by
        rw [Nat.zero_mul, List.drop_zero]
        exact hpacket
      sent := rfl
      completed := rfl }

end Phases

/-! ### The transfer and the flag -/

/-- What a transfer queued in the state `s` should do whatever the order of the steps: at any time the
packets written carry the bytes fed, all but the last are full and none is empty unless there are no
bytes, when there is one; `usb_ep_transfer_complete` is called at most once, with all bytes sent;
and as many completions as there are packets bring that call. -/
def InTransferOk (idn : ℕ) (s : Usb) (buffer : Ptr) (total : ℕ) : Prop :=
  ∀ x, Relation.ReflTransGen (InTransfer.Step idn) (InTransfer.queue s idn buffer total) x →
    x.Ok idn (s.epTransferSet idn 1).maxPacketSize (s.load buffer total) ∧
      ∀ m, packetCount (s.epTransferSet idn 1).maxPacketSize total ≤ m →
        ((InTransfer.completion idn)^[m] x).completed = [total]

theorem in_transfer_ok {idn : ℕ} {s : Usb} (hready : InReady idn s)
    (hidle : vttx (s.chep idn) = false) (buffer : Ptr) {total : ℕ} (htotal : total < 2 ^ 16) :
    InTransferOk idn s buffer total := by
  intro x hrun
  obtain ⟨k, hphase⟩ := (hready.phase hidle buffer htotal).run hrun
  refine ⟨hphase.ok, fun m hm => ?_⟩
  have hlength : (s.load buffer total).length = total := s.load_length buffer total
  have hend := hphase.completions m (by rw [hlength]; omega)
  rwa [hlength] at hend

/-- An iteration of the handler that finds the flag set writes a packet or reports the end. -/
theorem InTransfer.irq_flag {idn : ℕ} {x : InTransfer} (h : vttx (x.usb.chep idn) = true) :
    (∃ p, (x.irq idn).written = x.written ++ [p]) ∨ (x.irq idn).completed ≠ [] := by
  cases hcall : (usbIrqTxHal x.usb idn (x.usb.chep idn)).2 with
  | none =>
    left
    simp only [InTransfer.irq, hcall, h, and_self, if_true]
    exact ⟨_, rfl⟩
  | some n =>
    right
    simp only [InTransfer.irq, hcall, Option.toList_some]
    exact List.append_ne_nil_of_right_ne_nil _ (List.cons_ne_nil _ _)

/-- Before the host has taken anything, at most the first packet is written and nothing reported. -/
theorem InTransfer.Ok.unsent {idn size : ℕ} {bytes : List Byte} {x : InTransfer}
    (h : x.Ok idn size bytes) (hsent : x.sent = []) : x.written.length ≤ 1 ∧
      (x.written ≠ [] → x.completed = []) := by
  constructor
  · rcases h.sent with hall | hlast
    · rw [← hall, hsent]
      exact Nat.zero_le _
    · have hlength := congrArg List.length hlast
      rw [hsent, List.length_dropLast, List.length_nil] at hlength
      omega
  · intro hwritten
    refine h.completed.resolve_right fun hend => hwritten ?_
    rw [← hend.2.1, hsent]

/-- A flag that is set when the transfer is queued counts for its first packet. -/
theorem not_in_transfer_ok {idn : ℕ} {s : Usb} (hready : InReady idn s)
    (hflag : vttx (s.chep idn) = true) (buffer : Ptr) (total : ℕ) :
    ¬InTransferOk idn s buffer total := by
  intro h
  have hrecord : ((recordTransfer s idn 1 buffer total).epTransferSet idn 1).epIdn = idn := by
    rw [recordTransfer_epIdn]
    exact hready.record
  have hqueued : vttx ((InTransfer.queue s idn buffer total).usb.chep idn) = true :=
    (usbTxPacket_state hrecord).2.trans hflag
  obtain ⟨hlength, hnone⟩ :=
    (h _ (Relation.ReflTransGen.single (.irq _))).1.unsent rfl
  rcases InTransfer.irq_flag hqueued with ⟨p, hwritten⟩ | hreported
  · rw [hwritten] at hlength
    exact absurd hlength (by simp [InTransfer.queue])
  · refine hreported (hnone ?_)
    simp only [InTransfer.irq]
    split
    · exact List.append_ne_nil_of_left_ne_nil (List.cons_ne_nil _ _) _
    · exact List.cons_ne_nil _ _

/-- **A transfer to the host** of any number of bytes below 2^16, in packets of 1 to 1023 bytes, does
what it should exactly if no completion of an older packet waits in its slot when it is queued. -/
theorem in_transfer_ok_iff {idn : ℕ} {s : Usb} (hready : InReady idn s) (buffer : Ptr) {total : ℕ}
    (htotal : total < 2 ^ 16) :
    InTransferOk idn s buffer total ↔ vttx (s.chep idn) = false := by
  constructor
  · intro h
    rw [← Bool.not_eq_true]
    exact fun hflag => not_in_transfer_ok hready hflag buffer total h
  · exact fun hidle => in_transfer_ok hready hidle buffer htotal

/-- The 75 bytes of the configuration descriptor on EP0. -/
theorem in_transfer_ok_configuration :
    InTransferOk 0 usbBoot ⟨.usbConfigurationDescriptor, 0⟩ 75 :=
  (in_transfer_ok_iff ep0Refines_boot.ready.inReady _ (by decide)).mpr (by decide)

/-- The packet of a GET_DESCRIPTOR that reaches the handler together with the completion before it is
reported as sent while the host still has to take it. -/
theorem late_transfer_reported :
    ¬ ∀ (idn : ℕ) (s : Usb) (buffer : Ptr) (total : ℕ), InReady idn s → total < 2 ^ 16 →
      InTransferOk idn s buffer total := by
  intro h
  obtain ⟨e, hrefines, -⟩ := ep0Refines_lateCall
  have hready : InReady 0 (dataStageCopy (responseState (descriptorCall lateSetup)
      getConfigurationDescriptor ⟨.usbConfigurationDescriptor, 0⟩ 75)) :=
    ((hrefines.setControl _).store _ _).ready.inReady
  have hrun := h 0 _ ⟨.ep0ControlBuffer, 0⟩ 64 hready (by decide) _
    (Relation.ReflTransGen.single (.irq _))
  have hreported := (hrun.1.unsent rfl).2 (List.cons_ne_nil _ _)
  exact absurd hreported (by decide +kernel)

end PcbMill
