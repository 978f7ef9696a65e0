import PcbMill.Lib.Spans
import PcbMill.Usb.EndpointRegisters

/-!
# The packet memory given to endpoints

The allocator advances by the packet size asked for, an address loses its low two bits, and what
the hardware fills is the receive block, which every transfer programs anew from its total.  So
buffers stay apart where the sizes are multiples of 4, fit into the memory, and are not exceeded by
a receive block.
-/

namespace PcbMill

open FixedWidth WordMemory Run Spans

/-! ### Buffers in use -/

/-- The memory a buffer is given, by slot and direction: the address in its descriptor, and the
packet size for transmission, the programmed receive block for reception. -/
def bufferSpan (s : Usb) (b : ℕ × ℕ) : Span :=
  { start := descAddr (s.pma (bufferDesc b.1 (dirBuffer b.2)))
    size := if b.2 = usbDirDeviceOutHostInIdx then
        (s.epTransferSet b.1 usbDirDeviceOutHostInIdx).maxPacketSize
      else descCapacity (rxDesc s b.1) }

/-- A device and the buffers opened since they were last released. -/
structure PmaRun where
  usb : Usb
  live : Finset (ℕ × ℕ)

def ep0Buffers : Finset (ℕ × ℕ) := {(0, 0), (0, 1)}

def pmaStep (r : PmaRun) (c : HalCall) : PmaRun :=
  { usb := halCall r.usb c
    live := match c with
      | .init => ep0Buffers
      | .closeAll => r.live.filter fun b => b.1 = 0
      | .openEp d =>
        if (usbEpOpenHal r.usb d).1 then
          insert ((usbEpAssign r.usb d.bEndpointAddress d.type).1, d.dirIdx) r.live
        else r.live
      | _ => r.live }

/-- The device after `usb_device_init`, whatever the packet memory held at power-on. -/
def pmaBoot (pma : ℕ → Word) : PmaRun :=
  { usb := usbDeviceInit { usbPowerOn with pma := pma }, live := ep0Buffers }

/-- The live buffers are pairwise disjoint, behind the descriptor table and inside the memory. -/
def PmaPacked (r : PmaRun) : Prop := Packed 64 2048 (r.live : Set (ℕ × ℕ)) (bufferSpan r.usb)

/-- The span is free for the buffer: behind the table, inside the memory, and apart from the
spans of the other live buffers. -/
def FreeFor (r : PmaRun) (b : ℕ × ℕ) (a : Span) : Prop :=
  Fits 64 2048 (r.live : Set (ℕ × ℕ)) (bufferSpan r.usb) b a

/-- The address the next buffer gets, and the memory it then has. -/
def nextSpan (s : Usb) (i : ℕ) (d : EpDescriptor) : Span :=
  { start := s.usbPmaNextAvailable % 2 ^ 16 / 4 * 4
    size := if d.dirIdx = usbDirDeviceOutHostInIdx then d.packetSize
      else descCapacity (rxDesc s i) }

/-- The condition on one call, in the state before it: the span a new buffer gets is free for
it, and so is the span of a live receive buffer at the block size of the transfer. -/
def AllocOk (r : PmaRun) : HalCall → Prop
  | .openEp d => ∀ i, SlotFound r.usb d.bEndpointAddress d.type i →
      (usbEpOpenType d.type).isSome = true → FreeFor r (i, d.dirIdx) (nextSpan r.usb i d)
  | .queue epAddr _ totalBytes => usbEpDirIdx epAddr = usbDirDeviceInHostOutIdx →
      (usbEpIdn epAddr, 0) ∈ r.live → FreeFor r (usbEpIdn epAddr, 0)
        { start := (bufferSpan r.usb (usbEpIdn epAddr, 0)).start
          size := blockCapacity (totalBytes % 2 ^ 16) }
  | _ => True

/-! ### Descriptors -/

theorem dirBuffer_le (x : ℕ) : dirBuffer x ≤ 1 := by
  simp only [dirBuffer, usbEpTxCountAddrIdx, usbEpRxCountAddrIdx]
  split <;> omega

/-- A buffer of the eight slots. -/
structure SlotBuffer (b : ℕ × ℕ) : Prop where
  slot : b.1 < usbEpMax
  dir : b.2 ≤ 1

theorem SlotBuffer.desc_lt {b : ℕ × ℕ} (h : SlotBuffer b) :
    bufferDesc b.1 (dirBuffer b.2) < 16 := by
  have := h.slot
  have := dirBuffer_le b.2
  simp only [usbEpMax] at *
  simp only [bufferDesc]
  omega

theorem bufferDesc_injective {b c : ℕ × ℕ} (hb : b.2 ≤ 1) (hc : c.2 ≤ 1)
    (h : bufferDesc b.1 (dirBuffer b.2) = bufferDesc c.1 (dirBuffer c.2)) : b = c := by
  unfold bufferDesc dirBuffer usbEpTxCountAddrIdx usbEpRxCountAddrIdx usbDirDeviceOutHostInIdx at h
  apply Prod.ext <;> split_ifs at h <;> omega

/-- A span is read off one descriptor and, for transmission, one record. -/
theorem bufferSpan_congr {s s' : Usb} {b : ℕ × ℕ}
    (haddr : descAddr (s'.pma (bufferDesc b.1 (dirBuffer b.2))) =
      descAddr (s.pma (bufferDesc b.1 (dirBuffer b.2))))
    (hcapacity : descCapacity (s'.pma (bufferDesc b.1 (dirBuffer b.2))) =
      descCapacity (s.pma (bufferDesc b.1 (dirBuffer b.2))))
    (hsize : b.2 = 1 →
      (s'.epTransferSet b.1 1).maxPacketSize = (s.epTransferSet b.1 1).maxPacketSize) :
    bufferSpan s' b = bufferSpan s b := by
  simp only [bufferSpan, rxDesc]
  rw [haddr]
  by_cases hdir : b.2 = usbDirDeviceOutHostInIdx
  · rw [if_pos hdir, if_pos hdir]
    exact congrArg _ (hsize hdir)
  · have hrx : dirBuffer b.2 = usbEpRxCountAddrIdx := if_neg hdir
    rw [hrx] at hcapacity
    rw [if_neg hdir, if_neg hdir, hcapacity]

theorem bufferSpan_of_pma {s s' : Usb} {b : ℕ × ℕ}
    (hpma : s'.pma (bufferDesc b.1 (dirBuffer b.2)) = s.pma (bufferDesc b.1 (dirBuffer b.2)))
    (hsize : b.2 = 1 →
      (s'.epTransferSet b.1 1).maxPacketSize = (s.epTransferSet b.1 1).maxPacketSize) :
    bufferSpan s' b = bufferSpan s b :=
  bufferSpan_congr (congrArg _ hpma) (congrArg _ hpma) hsize

/-- Nothing a buffer has depends on changes of the received and sent counts and on the data. -/
structure BuffersKept (s s' : Usb) : Prop where
  addr : ∀ w, w < 16 → descAddr (s'.pma w) = descAddr (s.pma w)
  capacity : ∀ w, w < 16 → descCapacity (s'.pma w) = descCapacity (s.pma w)
  size : ∀ k, (s'.epTransferSet k 1).maxPacketSize = (s.epTransferSet k 1).maxPacketSize
  idn : ∀ k, (s'.epTransferSet k 1).epIdn = (s.epTransferSet k 1).epIdn

theorem BuffersKept.of_same {s s' : Usb} (hpma : s'.pma = s.pma)
    (hrecord : s'.epTransferSet = s.epTransferSet) : BuffersKept s s' := by
  constructor <;> simp [hpma, hrecord]

theorem BuffersKept.bufferSpan {s s' : Usb} (h : BuffersKept s s') {b : ℕ × ℕ}
    (hb : SlotBuffer b) : bufferSpan s' b = bufferSpan s b :=
  bufferSpan_congr (h.addr _ hb.desc_lt) (h.capacity _ hb.desc_lt) fun _ => h.size b.1

/-- A transmission record that sends anything names its slot, whose buffer is behind the table. -/
def TxRecords (s : Usb) : Prop :=
  ∀ k, (s.epTransferSet k 1).maxPacketSize = 0 ∨
    ((s.epTransferSet k 1).epIdn = k ∧ k < usbEpMax ∧ 64 ≤ descAddr (txDesc s k))

theorem TxRecords.of_kept {s s' : Usb} (h : TxRecords s) (hkept : BuffersKept s s') :
    TxRecords s' := by
  intro k
  rw [hkept.size, hkept.idn]
  refine (h k).imp_right fun ⟨hidn, hk, haddr⟩ => ⟨hidn, hk, ?_⟩
  have hdesc : bufferDesc k usbEpTxCountAddrIdx < 16 := by
    simp only [usbEpMax] at hk
    simp only [bufferDesc, usbEpTxCountAddrIdx]
    omega
  simp only [txDesc] at haddr ⊢
  rw [hkept.addr _ hdesc]
  exact haddr

/-! ### What the calls do to the buffers -/

section Calls

variable {s : Usb}

/-- A record with a new feed keeps its packet size and its slot. -/
theorem setTransfer_feed (s : Usb) (k x : ℕ) (feed : FeedForwardBuffer) (i y : ℕ) :
    ((s.setTransfer k x { s.epTransferSet k x with feed := feed }).epTransferSet i y).maxPacketSize =
        (s.epTransferSet i y).maxPacketSize ∧
      ((s.setTransfer k x { s.epTransferSet k x with feed := feed }).epTransferSet i y).epIdn =
        (s.epTransferSet i y).epIdn := by
  by_cases hi : i = k ∧ y = x
  · obtain ⟨rfl, rfl⟩ := hi
    rw [setTransfer_self]
    exact ⟨rfl, rfl⟩
  · rw [setTransfer_record (not_and_or.mp hi)]
    exact ⟨rfl, rfl⟩

theorem recordTransfer_kept (s : Usb) (k x : ℕ) (buffer : Ptr) (n : ℕ) :
    BuffersKept s (recordTransfer s k x buffer n) :=
  ⟨fun _ _ => rfl, fun _ _ => rfl,
    fun i => (setTransfer_feed (s.log (.queued k x n)) k x _ i 1).1,
    fun i => (setTransfer_feed (s.log (.queued k x n)) k x _ i 1).2⟩

theorem feedForwardRemainingCount_zero (feed : FeedForwardBuffer) :
    feedForwardRemainingCount feed 0 = 0 := by
  simp [feedForwardRemainingCount]

/-- In the table, sending a packet changes the count of one descriptor at most. -/
theorem TxRecords.usbTxPacket_pma (h : TxRecords s) (k : ℕ) {w : ℕ} (hw : w < 16) :
    (usbTxPacket s k).pma w = s.pma w ∨
      ∃ n, (usbTxPacket s k).pma w = descSetCount (s.pma w) n := by
  generalize hn : feedForwardRemainingCount (s.epTransferSet k 1).feed
    (s.epTransferSet k 1).maxPacketSize = n
  generalize hdata : s.load ((s.epTransferSet k 1).feed.buffer.add
    (s.epTransferSet k 1).feed.fedCount) n = data
  have hkept : storeBytes s.pma (descAddr (txDesc s (s.epTransferSet k 1).epIdn)) data w =
      s.pma w := by
    rcases h k with hzero | ⟨hidn, -, haddr⟩
    · rw [hzero, feedForwardRemainingCount_zero] at hn
      rw [← hn] at hdata
      rw [← hdata]
      exact congrFun (storeBytes_nil _ _) w
    · rw [hidn]
      exact storeBytes_of_lt _ _ (by omega)
  have hpma : (usbTxPacket s k).pma = Function.update
      (storeBytes s.pma (descAddr (txDesc s (s.epTransferSet k 1).epIdn)) data)
      (bufferDesc (s.epTransferSet k 1).epIdn usbEpTxCountAddrIdx)
      (descSetCount (storeBytes s.pma (descAddr (txDesc s (s.epTransferSet k 1).epIdn)) data
        (bufferDesc (s.epTransferSet k 1).epIdn usbEpTxCountAddrIdx)) n) := by
    rw [← hdata, ← hn, ← usbWriteUnalignedData_eq]
    rfl
  rw [hpma]
  by_cases hdesc : w = bufferDesc (s.epTransferSet k 1).epIdn usbEpTxCountAddrIdx
  · right
    rw [← hdesc, Function.update_self, hkept]
    exact ⟨n, rfl⟩
  · left
    rw [Function.update_of_ne hdesc, hkept]

/-- Sending a packet leaves every buffer where it is. -/
theorem TxRecords.usbTxPacket_kept (h : TxRecords s) (k : ℕ) : BuffersKept s (usbTxPacket s k) where
  addr := by
    intro w hw
    obtain heq | ⟨n, heq⟩ := h.usbTxPacket_pma k hw
    · rw [heq]
    · rw [heq, descAddr_descSetCount]
  capacity := by
    intro w hw
    obtain heq | ⟨n, heq⟩ := h.usbTxPacket_pma k hw
    · rw [heq]
    · rw [heq, descCapacity_descSetCount]
  size := fun i => (setTransfer_feed s k 1 _ i 1).1
  idn := fun i => (setTransfer_feed s k 1 _ i 1).2

theorem BuffersKept.trans {s' s'' : Usb} (h : BuffersKept s s') (h' : BuffersKept s' s'') :
    BuffersKept s s'' where
  addr := fun w hw => (h'.addr w hw).trans (h.addr w hw)
  capacity := fun w hw => (h'.capacity w hw).trans (h.capacity w hw)
  size := fun k => (h'.size k).trans (h.size k)
  idn := fun k => (h'.idn k).trans (h.idn k)

/-- Queueing a transmission keeps the buffers. -/
theorem TxRecords.queue_in_kept (h : TxRecords s) (k : ℕ) (buffer : Ptr) (n : ℕ) :
    BuffersKept s (usbEpQueueTransferHal s k 1 buffer n).2 := by
  have hrecorded := recordTransfer_kept s k 1 buffer n
  rw [usbEpQueueTransferHal_in]
  exact hrecorded.trans ((h.of_kept hrecorded).usbTxPacket_kept k)

theorem queue_out_pma (s : Usb) (k : ℕ) (buffer : Ptr) (n : ℕ) :
    (usbEpQueueTransferHal s k 0 buffer n).2.pma = Function.update s.pma
      (bufferDesc k usbEpRxCountAddrIdx) (descSetBlocks (rxDesc s k) (n % 2 ^ 16)) := rfl

theorem queue_out_record (s : Usb) (k : ℕ) (buffer : Ptr) (n i : ℕ) :
    ((usbEpQueueTransferHal s k 0 buffer n).2.epTransferSet i 1).maxPacketSize =
        (s.epTransferSet i 1).maxPacketSize ∧
      ((usbEpQueueTransferHal s k 0 buffer n).2.epTransferSet i 1).epIdn =
        (s.epTransferSet i 1).epIdn :=
  setTransfer_feed (s.log (.queued k 0 n)) k 0 _ i 1

/-- Queueing a reception programs one receive block. -/
theorem queue_out_span (s : Usb) (k : ℕ) (buffer : Ptr) (n : ℕ) {b : ℕ × ℕ} (hb : b.2 ≤ 1) :
    bufferSpan (usbEpQueueTransferHal s k 0 buffer n).2 b =
      if b = (k, 0) then
        { start := (bufferSpan s (k, 0)).start, size := blockCapacity (n % 2 ^ 16) }
      else bufferSpan s b := by
  split_ifs with hk
  · subst hk
    show Span.mk (descAddr ((usbEpQueueTransferHal s k 0 buffer n).2.pma
      (bufferDesc k usbEpRxCountAddrIdx))) (descCapacity
      ((usbEpQueueTransferHal s k 0 buffer n).2.pma (bufferDesc k usbEpRxCountAddrIdx))) = _
    rw [queue_out_pma, Function.update_self, descAddr_descSetBlocks,
      descCapacity_descSetBlocks_eq _ (Nat.mod_lt _ (by norm_num))]
    rfl
  · refine bufferSpan_of_pma ?_ fun _ => (queue_out_record s k buffer n b.1).1
    rw [queue_out_pma]
    exact Function.update_of_ne (fun heq => hk (bufferDesc_injective (c := (k, 0)) hb (by simp) heq))
      _ _

/-- A transmission descriptor is not one of a reception. -/
theorem txDesc_update (s : Usb) {k i : ℕ} {pma : ℕ → Word} {w : Word}
    (hpma : pma = Function.update s.pma (bufferDesc k usbEpRxCountAddrIdx) w) :
    pma (bufferDesc i usbEpTxCountAddrIdx) = txDesc s i := by
  rw [hpma]
  refine Function.update_of_ne ?_ _ _
  simp only [bufferDesc, usbEpTxCountAddrIdx, usbEpRxCountAddrIdx]
  omega

theorem TxRecords.queue_out (h : TxRecords s) (k : ℕ) (buffer : Ptr) (n : ℕ) :
    TxRecords (usbEpQueueTransferHal s k 0 buffer n).2 := by
  intro i
  obtain ⟨hsize, hidn⟩ := queue_out_record s k buffer n i
  rw [hsize, hidn, txDesc, txDesc_update s (queue_out_pma s k buffer n)]
  exact h i

theorem openSlot_pma (s : Usb) (d : EpDescriptor) (i : ℕ) (typeBits : Word) :
    (openSlot s d i typeBits).pma = Function.update s.pma (bufferDesc i (dirBuffer d.dirIdx))
      (descSetAddr (s.pma (bufferDesc i (dirBuffer d.dirIdx))) s.usbPmaNextAvailable) := rfl

theorem openSlot_pma_of_ne (s : Usb) (d : EpDescriptor) (i : ℕ) (typeBits : Word) {b : ℕ × ℕ}
    (hb : b.2 ≤ 1) (hne : b ≠ (i, d.dirIdx)) :
    (openSlot s d i typeBits).pma (bufferDesc b.1 (dirBuffer b.2)) =
      s.pma (bufferDesc b.1 (dirBuffer b.2)) := by
  rw [openSlot_pma]
  refine Function.update_of_ne (fun heq => hne ?_) _ _
  exact bufferDesc_injective (c := (i, d.dirIdx)) hb (usbEpDirIdx_le d.bEndpointAddress) heq

/-- The buffer opened is the next span. -/
theorem openSlot_span_self (s : Usb) (d : EpDescriptor) (i : ℕ) (typeBits : Word) :
    bufferSpan (openSlot s d i typeBits) (i, d.dirIdx) = nextSpan s i d := by
  have hdesc : (openSlot s d i typeBits).pma (bufferDesc i (dirBuffer d.dirIdx)) =
      descSetAddr (s.pma (bufferDesc i (dirBuffer d.dirIdx))) s.usbPmaNextAvailable := by
    rw [openSlot_pma, Function.update_self]
  have hrecord := openSlot_record s d i typeBits
  simp only [bufferSpan, nextSpan, rxDesc]
  rw [hdesc, descAddr_descSetAddr_eq]
  by_cases hdir : d.dirIdx = usbDirDeviceOutHostInIdx
  · rw [hdir] at hrecord
    rw [if_pos hdir, if_pos hdir, hrecord]
  · have hrx : dirBuffer d.dirIdx = usbEpRxCountAddrIdx := if_neg hdir
    rw [hrx] at hdesc
    rw [if_neg hdir, if_neg hdir, hdesc, descCapacity_descSetAddr]

/-- Opening an endpoint moves one buffer. -/
theorem openSlot_span_of_ne (s : Usb) (d : EpDescriptor) (i : ℕ) (typeBits : Word) {b : ℕ × ℕ}
    (hb : b.2 ≤ 1) (hne : b ≠ (i, d.dirIdx)) :
    bufferSpan (openSlot s d i typeBits) b = bufferSpan s b := by
  have hpma := openSlot_pma_of_ne s d i typeBits hb hne
  refine bufferSpan_of_pma hpma fun hdir => congrArg _ (openSlot_record_of_ne s d i typeBits ?_)
  rwa [← hdir]

theorem TxRecords.openSlot (h : TxRecords s) {d : EpDescriptor} {i : ℕ} (hi : i < usbEpMax)
    (typeBits : Word) (habove : 64 ≤ (nextSpan s i d).start) :
    TxRecords (openSlot s d i typeBits) := by
  intro j
  have hdesc : ∀ s : Usb, descAddr (txDesc s j) = (bufferSpan s (j, 1)).start := fun _ => rfl
  by_cases hj : (j, 1) = (i, d.dirIdx)
  · obtain ⟨rfl, hdir⟩ := Prod.mk.inj hj
    have hrecord := openSlot_record s d j typeBits
    rw [← hdir] at hrecord
    rw [hrecord, hdesc, hj, openSlot_span_self]
    exact .inr ⟨rfl, hi, habove⟩
  · rw [openSlot_record_of_ne s d i typeBits hj, hdesc,
      openSlot_span_of_ne s d i typeBits le_rfl hj]
    exact h j

end Calls

/-! ### The run -/

/-- The live buffers are packed, they are buffers of the eight slots, and transmissions stay out
of the descriptor table. -/
structure PmaSound (r : PmaRun) : Prop where
  packed : PmaPacked r
  slots : ∀ b ∈ r.live, SlotBuffer b
  records : TxRecords r.usb

variable {r : PmaRun}

theorem mem_ep0Buffers {b : ℕ × ℕ} : b ∈ ep0Buffers ↔ b = (0, 0) ∨ b = (0, 1) := by
  simp [ep0Buffers]

theorem slotBuffer_ep0Buffers : ∀ b ∈ ep0Buffers, SlotBuffer b := by
  intro b hb
  obtain rfl | rfl := mem_ep0Buffers.mp hb
  · exact ⟨by decide, by decide⟩
  · exact ⟨by decide, by decide⟩

theorem packed_ep0Buffers {hi : ℕ} {span : ℕ × ℕ → Span}
    (hrx : 64 ≤ (span (0, 0)).start ∧ (span (0, 0)).stop ≤ hi)
    (htx : 64 ≤ (span (0, 1)).start ∧ (span (0, 1)).stop ≤ hi)
    (hapart : (span (0, 0)).Apart (span (0, 1))) :
    Packed 64 hi (ep0Buffers : Set (ℕ × ℕ)) span := by
  rw [packed_iff_apart]
  constructor
  · intro b hb
    obtain rfl | rfl := mem_ep0Buffers.mp hb
    · exact hrx
    · exact htx
  · intro b hb c hc hne
    obtain rfl | rfl := mem_ep0Buffers.mp hb <;> obtain rfl | rfl := mem_ep0Buffers.mp hc
    · exact absurd rfl hne
    · exact hapart
    · exact hapart.symm
    · exact absurd rfl hne

/-- EP0 gets 64 bytes for transmission and room for a SETUP packet. -/
theorem bufferSpan_init (s : Usb) :
    bufferSpan (usbInitEnableHal s) (0, 0) = { start := 128, size := 8 } ∧
      bufferSpan (usbInitEnableHal s) (0, 1) = { start := 64, size := 64 } := by
  constructor
  · show Span.mk (descAddr ((usbInitEnableHal s).pma 1)) (descCapacity ((usbInitEnableHal s).pma 1)) = _
    rw [usbInitEnableHal_rxDesc, descAddr_descSetBlocks, descAddr_descSetAddr_eq,
      descCapacity_descSetBlocks _ (by decide)]
    rfl
  · show Span.mk (descAddr ((usbInitEnableHal s).pma 0)) usbEp0BufferSize = _
    rw [usbInitEnableHal_txDesc, descAddr_descSetAddr_eq]
    rfl

theorem packed_usbInitEnableHal (s : Usb) :
    Packed 64 2048 (ep0Buffers : Set (ℕ × ℕ)) (bufferSpan (usbInitEnableHal s)) := by
  obtain ⟨hrx, htx⟩ := bufferSpan_init s
  apply packed_ep0Buffers
  · rw [hrx]
    decide
  · rw [htx]
    decide
  · rw [hrx, htx]
    decide

theorem usbInitEnableHal_pma (s : Usb) : (usbInitEnableHal s).pma =
    Function.update (Function.update (Function.update s.pma 0 (descSetAddr (s.pma 0) 64)) 1
      (descSetAddr (s.pma 1) 128)) 1 (descSetBlocks (descSetAddr (s.pma 1) 128) 8) := rfl

/-- Only the records and the descriptors of EP0 are written. -/
theorem usbInitEnableHal_record (s : Usb) {k : ℕ} (hk : k ≠ 0) :
    (usbInitEnableHal s).epTransferSet k = s.epTransferSet k :=
  (Function.update_of_ne hk _ _).trans (Function.update_of_ne hk _ _)

theorem TxRecords.init {s : Usb} (h : TxRecords s) : TxRecords (usbInitEnableHal s) := by
  intro k
  by_cases hk : k = 0
  · subst hk
    have hdesc : txDesc (usbInitEnableHal s) 0 = descSetAddr (s.pma 0) 64 := usbInitEnableHal_txDesc s
    rw [usbInitEnableHal_epTransferSet s (.inr rfl), hdesc, descAddr_descSetAddr_eq]
    exact .inr ⟨rfl, by decide, by decide⟩
  · have hdesc : txDesc (usbInitEnableHal s) k = txDesc s k := by
      have hne : bufferDesc k usbEpTxCountAddrIdx ≠ 0 ∧ bufferDesc k usbEpTxCountAddrIdx ≠ 1 := by
        simp only [bufferDesc, usbEpTxCountAddrIdx]
        omega
      rw [txDesc, usbInitEnableHal_pma, Function.update_of_ne hne.2, Function.update_of_ne hne.2,
        Function.update_of_ne hne.1]
      rfl
    rw [usbInitEnableHal_record s hk, hdesc]
    exact h k

theorem PmaSound.init (h : PmaSound r) : PmaSound (pmaStep r .init) where
  packed := packed_usbInitEnableHal r.usb
  slots := slotBuffer_ep0Buffers
  records := h.records.init

theorem PmaSound.closeAll (h : PmaSound r) : PmaSound (pmaStep r .closeAll) := by
  have hclosed := closedAt_usbEpCloseAll r.usb
  have hkept : BuffersKept r.usb (usbEpCloseAll r.usb) := .of_same hclosed.pma hclosed.epTransferSet
  have hslots : ∀ b ∈ r.live.filter (fun b => b.1 = 0), SlotBuffer b :=
    fun b hb => h.slots b (Finset.mem_of_mem_filter b hb)
  refine ⟨h.packed.mono ?_ ?_, hslots, h.records.of_kept hkept⟩
  · exact Finset.coe_subset.mpr (Finset.filter_subset _ _)
  · exact fun b hb => hkept.bufferSpan (hslots b hb)

/-- A call that keeps the buffers and opens none. -/
theorem PmaSound.kept (h : PmaSound r) {s : Usb} (hkept : BuffersKept r.usb s) :
    PmaSound { r with usb := s } where
  packed := h.packed.mono subset_rfl fun b hb => hkept.bufferSpan (h.slots b hb)
  slots := h.slots
  records := h.records.of_kept hkept

/-- A live buffer, or one that becomes live, gets a span. -/
theorem PmaSound.packed_iff (h : PmaSound r) {s : Usb} {b : ℕ × ℕ}
    (hspan : ∀ c ∈ r.live, c ≠ b → bufferSpan s c = bufferSpan r.usb c) :
    Packed 64 2048 ((insert b r.live : Finset (ℕ × ℕ)) : Set (ℕ × ℕ)) (bufferSpan s) ↔
      FreeFor r b (bufferSpan s b) := by
  rw [Finset.coe_insert]
  exact h.packed.insert_iff hspan

/-! #### Opening -/

theorem pmaStep_opened {d : EpDescriptor} {i : ℕ} {typeBits : Word}
    (hi : SlotFound r.usb d.bEndpointAddress d.type i)
    (htype : usbEpOpenType d.type = some typeBits) : pmaStep r (.openEp d) =
      { usb := openSlot r.usb d i typeBits, live := insert (i, d.dirIdx) r.live } := by
  simp only [pmaStep, halCall, usbEpOpenHal_opened hi htype, usbEpAssign_found hi, if_true]

theorem PmaSound.opened (h : PmaSound r) {d : EpDescriptor} {i : ℕ} {typeBits : Word}
    (hi : SlotFound r.usb d.bEndpointAddress d.type i)
    (htype : usbEpOpenType d.type = some typeBits) :
    (PmaPacked (pmaStep r (.openEp d)) ↔ FreeFor r (i, d.dirIdx) (nextSpan r.usb i d)) ∧
      (FreeFor r (i, d.dirIdx) (nextSpan r.usb i d) → PmaSound (pmaStep r (.openEp d))) := by
  have hspan : ∀ c ∈ r.live, c ≠ (i, d.dirIdx) →
      bufferSpan (openSlot r.usb d i typeBits) c = bufferSpan r.usb c :=
    fun c hc hne => openSlot_span_of_ne r.usb d i typeBits (h.slots c hc).dir hne
  have hpacked := h.packed_iff hspan
  rw [openSlot_span_self] at hpacked
  rw [pmaStep_opened hi htype]
  refine ⟨hpacked, fun hfree => ⟨hpacked.mpr hfree, ?_, ?_⟩⟩
  · intro c hc
    obtain rfl | hc := Finset.mem_insert.mp hc
    · exact ⟨hi.lt, usbEpDirIdx_le d.bEndpointAddress⟩
    · exact h.slots c hc
  · exact h.records.openSlot hi.lt typeBits hfree.above

theorem pmaStep_refused {d : EpDescriptor} {s : Usb} (hopen : usbEpOpenHal r.usb d = (false, s)) :
    pmaStep r (.openEp d) = { r with usb := s } := by
  simp [pmaStep, halCall, hopen]

/-- A refused call takes a slot at most. -/
theorem PmaSound.refused (h : PmaSound r) {d : EpDescriptor} {s : Usb}
    (hopen : usbEpOpenHal r.usb d = (false, s)) (hkept : BuffersKept r.usb s) :
    PmaSound (pmaStep r (.openEp d)) := by
  rw [pmaStep_refused hopen]
  exact h.kept hkept

/-- Opening an endpoint, whatever its outcome. -/
theorem PmaSound.openEp (h : PmaSound r) (d : EpDescriptor) :
    (PmaPacked (pmaStep r (.openEp d)) ↔ AllocOk r (.openEp d)) ∧
      (AllocOk r (.openEp d) → PmaSound (pmaStep r (.openEp d))) := by
  rcases slotFound_or_noSlot r.usb d.bEndpointAddress d.type with ⟨i, hi⟩ | hnone
  · cases htype : usbEpOpenType d.type with
    | none =>
      have hsound := h.refused (usbEpOpenHal_unsupported hi htype) (.of_same rfl rfl)
      refine ⟨iff_of_true hsound.packed fun j _ hsome => ?_, fun _ => hsound⟩
      rw [htype] at hsome
      cases hsome
    | some typeBits =>
      have hok : AllocOk r (.openEp d) ↔ FreeFor r (i, d.dirIdx) (nextSpan r.usb i d) := by
        constructor
        · exact fun hok => hok i hi (by rw [htype]; rfl)
        · intro hfree j hj _
          rw [hj.unique hi]
          exact hfree
      rw [hok]
      exact h.opened hi htype
  · have hsound := h.refused (usbEpOpenHal_noSlot hnone) (.of_same rfl rfl)
    exact ⟨iff_of_true hsound.packed fun j hj => absurd hnone hj.not_noSlot, fun _ => hsound⟩

/-! #### Queueing -/

theorem PmaSound.queue_in (h : PmaSound r) {epAddr : Byte} (hdir : usbEpDirIdx epAddr = 1)
    (buffer : Ptr) (n : ℕ) : PmaSound (pmaStep r (.queue epAddr buffer n)) := by
  have hkept := h.records.queue_in_kept (usbEpIdn epAddr) buffer n
  rw [← hdir] at hkept
  exact h.kept hkept

theorem pmaStep_queue_out {epAddr : Byte} (hdir : usbEpDirIdx epAddr = 0) {buffer : Ptr} {n : ℕ} :
    pmaStep r (.queue epAddr buffer n) =
      { r with usb := (usbEpQueueTransferHal r.usb (usbEpIdn epAddr) 0 buffer n).2 } := by
  rw [← hdir]
  rfl

/-- The receive block of a live buffer is widened or narrowed in place. -/
theorem PmaSound.queue_out (h : PmaSound r) {epAddr : Byte} (hdir : usbEpDirIdx epAddr = 0)
    (buffer : Ptr) (n : ℕ) :
    (PmaPacked (pmaStep r (.queue epAddr buffer n)) ↔ AllocOk r (.queue epAddr buffer n)) ∧
      (AllocOk r (.queue epAddr buffer n) → PmaSound (pmaStep r (.queue epAddr buffer n))) := by
  have hspan : ∀ c ∈ r.live,
      bufferSpan (usbEpQueueTransferHal r.usb (usbEpIdn epAddr) 0 buffer n).2 c =
        if c = (usbEpIdn epAddr, 0) then
          { start := (bufferSpan r.usb (usbEpIdn epAddr, 0)).start
            size := blockCapacity (n % 2 ^ 16) }
        else bufferSpan r.usb c :=
    fun c hc => queue_out_span r.usb _ buffer n (h.slots c hc).dir
  have hrecords := h.records.queue_out (usbEpIdn epAddr) buffer n
  rw [pmaStep_queue_out hdir]
  by_cases hlive : (usbEpIdn epAddr, 0) ∈ r.live
  · have hpacked := h.packed_iff fun c hc hne => (hspan c hc).trans (if_neg hne)
    rw [Finset.insert_eq_of_mem hlive, hspan _ hlive, if_pos rfl] at hpacked
    have hok : AllocOk r (.queue epAddr buffer n) ↔ FreeFor r (usbEpIdn epAddr, 0)
        { start := (bufferSpan r.usb (usbEpIdn epAddr, 0)).start
          size := blockCapacity (n % 2 ^ 16) } :=
      ⟨fun hok => hok hdir hlive, fun hfree _ _ => hfree⟩
    rw [hok]
    exact ⟨hpacked, fun hfree => ⟨hpacked.mpr hfree, h.slots, hrecords⟩⟩
  · have hsame : ∀ c ∈ r.live,
        bufferSpan (usbEpQueueTransferHal r.usb (usbEpIdn epAddr) 0 buffer n).2 c =
          bufferSpan r.usb c := by
      intro c hc
      rw [hspan c hc, if_neg]
      rintro rfl
      exact hlive hc
    have hpacked := h.packed.mono subset_rfl hsame
    exact ⟨iff_of_true hpacked fun _ hin => absurd hin hlive, fun _ => ⟨hpacked, h.slots, hrecords⟩⟩

theorem PmaSound.queue (h : PmaSound r) (epAddr : Byte) (buffer : Ptr) (n : ℕ) :
    (PmaPacked (pmaStep r (.queue epAddr buffer n)) ↔ AllocOk r (.queue epAddr buffer n)) ∧
      (AllocOk r (.queue epAddr buffer n) → PmaSound (pmaStep r (.queue epAddr buffer n))) := by
  rcases usbEpDirIdx_cases epAddr with hdir | hdir
  · exact h.queue_out hdir buffer n
  · have hsound := h.queue_in hdir buffer n
    refine ⟨iff_of_true hsound.packed fun hout => ?_, fun _ => hsound⟩
    cases hdir.symm.trans hout

/-- **One call.**  It keeps the buffers packed exactly when it meets its condition. -/
theorem PmaSound.step (h : PmaSound r) (c : HalCall) :
    (PmaPacked (pmaStep r c) ↔ AllocOk r c) ∧ (AllocOk r c → PmaSound (pmaStep r c)) := by
  cases c with
  | init => exact ⟨iff_of_true h.init.packed trivial, fun _ => h.init⟩
  | openEp d => exact h.openEp d
  | closeAll => exact ⟨iff_of_true h.closeAll.packed trivial, fun _ => h.closeAll⟩
  | queue epAddr buffer n => exact h.queue epAddr buffer n
  | stallSet epAddr =>
    have hkept : BuffersKept r.usb (halCall r.usb (.stallSet epAddr)) := .of_same rfl rfl
    exact ⟨iff_of_true (h.kept hkept).packed trivial, fun _ => h.kept hkept⟩
  | stallClear epAddr =>
    have hkept : BuffersKept r.usb (halCall r.usb (.stallClear epAddr)) := .of_same rfl rfl
    exact ⟨iff_of_true (h.kept hkept).packed trivial, fun _ => h.kept hkept⟩

theorem pmaSound_pmaBoot (pma : ℕ → Word) : PmaSound (pmaBoot pma) where
  packed := packed_usbInitEnableHal _
  slots := slotBuffer_ep0Buffers
  records := by
    refine TxRecords.init fun k => .inl rfl

/-! ### Calls that keep to the sizes -/

/-- The memory a buffer was opened with. -/
def reservedSpan (s : Usb) (b : ℕ × ℕ) : Span :=
  { start := (bufferSpan s b).start, size := (s.epTransferSet b.1 b.2).maxPacketSize }

/-- The packet size of an endpoint that is opened is a multiple of 4 the memory suffices for, a
receive block left in its slot is not longer, and the receive block of a transfer is not longer than
the packet size its endpoint was opened with. -/
def SizesOk (r : PmaRun) : HalCall → Prop
  | .openEp d => ∀ i, SlotFound r.usb d.bEndpointAddress d.type i →
      (usbEpOpenType d.type).isSome = true →
        d.packetSize % 4 = 0 ∧ r.usb.usbPmaNextAvailable + d.packetSize ≤ 2048 ∧
          (d.dirIdx = usbDirDeviceInHostOutIdx → descCapacity (rxDesc r.usb i) ≤ d.packetSize)
  | .queue epAddr _ totalBytes => usbEpDirIdx epAddr = usbDirDeviceInHostOutIdx →
      (usbEpIdn epAddr, 0) ∈ r.live → blockCapacity (totalBytes % 2 ^ 16) ≤
        (r.usb.epTransferSet (usbEpIdn epAddr) usbDirDeviceInHostOutIdx).maxPacketSize
  | _ => True

/-- The reserved spans are packed below the next address, and no buffer is longer than its. -/
structure PmaReserved (r : PmaRun) : Prop where
  sound : PmaSound r
  ep0 : Ep0Assigned r.usb
  reserved : Packed 64 r.usb.usbPmaNextAvailable (r.live : Set (ℕ × ℕ)) (reservedSpan r.usb)
  within : ∀ b ∈ r.live, (bufferSpan r.usb b).size ≤ (reservedSpan r.usb b).size
  ep0Reserved : ∀ b ∈ r.live, b.1 = 0 → (reservedSpan r.usb b).stop ≤ 192
  behindEp0 : 192 ≤ r.usb.usbPmaNextAvailable
  below : r.usb.usbPmaNextAvailable ≤ 2048
  aligned : r.usb.usbPmaNextAvailable % 4 = 0

theorem PmaReserved.stop_le (h : PmaReserved r) {b : ℕ × ℕ} (hb : b ∈ r.live) :
    (bufferSpan r.usb b).stop ≤ r.usb.usbPmaNextAvailable := by
  have hwithin := h.within b hb
  have hreserved := h.reserved.below b hb
  simp only [Span.stop, reservedSpan] at *
  omega

theorem PmaReserved.nextSpan_start (h : PmaReserved r) (i : ℕ) (d : EpDescriptor) :
    (nextSpan r.usb i d).start = r.usb.usbPmaNextAvailable := by
  have hbelow := h.below
  have haligned := h.aligned
  show r.usb.usbPmaNextAvailable % 2 ^ 16 / 4 * 4 = _
  omega

theorem nextSpan_size {d : EpDescriptor} {i : ℕ}
    (hblock : d.dirIdx = usbDirDeviceInHostOutIdx → descCapacity (rxDesc r.usb i) ≤ d.packetSize) :
    (nextSpan r.usb i d).size ≤ d.packetSize := by
  simp only [nextSpan]
  split_ifs with hdir
  · exact le_rfl
  · exact hblock ((usbEpDirIdx_cases d.bEndpointAddress).resolve_right hdir)

theorem PmaReserved.open_ok (h : PmaReserved r) {d : EpDescriptor} (hsizes : SizesOk r (.openEp d)) :
    AllocOk r (.openEp d) := by
  have hbehind := h.behindEp0
  intro i hi htype
  obtain ⟨-, hroom, hblock⟩ := hsizes i hi htype
  have hstart := h.nextSpan_start i d
  have hsize := nextSpan_size hblock
  refine ⟨by omega, by simp only [Span.stop]; omega, fun c hc _ => ?_⟩
  exact .inr (.inr (.inr ((h.stop_le (Finset.mem_coe.mp hc)).trans hstart.ge)))

theorem PmaReserved.queue_ok (h : PmaReserved r) {epAddr : Byte} {buffer : Ptr} {n : ℕ}
    (hsizes : SizesOk r (.queue epAddr buffer n)) : AllocOk r (.queue epAddr buffer n) := by
  intro hdir hlive
  have hblock := hsizes hdir hlive
  have hbelow := h.below
  have hreserved := h.reserved.below _ (Finset.mem_coe.mpr hlive)
  refine ⟨h.sound.packed.above _ hlive, ?_, fun c hc hne => ?_⟩
  · simp only [Span.stop, reservedSpan, usbDirDeviceInHostOutIdx] at *
    omega
  · have hapart := h.reserved.apart (Finset.mem_coe.mpr hlive) hc hne.symm
    exact hapart.shorten rfl hblock rfl (h.within c hc)

theorem PmaReserved.ok (h : PmaReserved r) (c : HalCall) (hsizes : SizesOk r c) : AllocOk r c := by
  cases c with
  | openEp d => exact h.open_ok hsizes
  | queue epAddr buffer n => exact h.queue_ok hsizes
  | init => trivial
  | closeAll => trivial
  | stallSet epAddr => trivial
  | stallClear epAddr => trivial

theorem reservedSpan_of_same {s s' : Usb} {b : ℕ × ℕ} (hspan : bufferSpan s' b = bufferSpan s b)
    (hsize : (s'.epTransferSet b.1 b.2).maxPacketSize = (s.epTransferSet b.1 b.2).maxPacketSize) :
    reservedSpan s' b = reservedSpan s b := by
  simp only [reservedSpan]
  rw [hspan, hsize]

/-- A call that opens no buffer and keeps what the live ones were opened with. -/
theorem PmaReserved.of_spans (h : PmaReserved r) {s : Usb} (hsound : PmaSound { r with usb := s })
    (hep0 : Ep0Assigned s) (hnext : s.usbPmaNextAvailable = r.usb.usbPmaNextAvailable)
    (hspan : ∀ b ∈ r.live, reservedSpan s b = reservedSpan r.usb b)
    (hwithin : ∀ b ∈ r.live, (bufferSpan s b).size ≤ (reservedSpan s b).size) :
    PmaReserved { r with usb := s } where
  sound := hsound
  ep0 := hep0
  reserved := by
    rw [hnext]
    exact h.reserved.mono subset_rfl hspan
  within := hwithin
  ep0Reserved := by
    intro b hb hslot
    rw [hspan b hb]
    exact h.ep0Reserved b hb hslot
  behindEp0 := h.behindEp0.trans hnext.ge
  below := hnext.le.trans h.below
  aligned := by
    rw [hnext]
    exact h.aligned

theorem PmaReserved.kept (h : PmaReserved r) {s : Usb} (hkept : BuffersKept r.usb s)
    (hep0 : Ep0Assigned s) (hnext : s.usbPmaNextAvailable = r.usb.usbPmaNextAvailable)
    (hsize : ∀ b : ℕ × ℕ, (s.epTransferSet b.1 b.2).maxPacketSize =
      (r.usb.epTransferSet b.1 b.2).maxPacketSize) : PmaReserved { r with usb := s } := by
  have hbuffer : ∀ b ∈ r.live, bufferSpan s b = bufferSpan r.usb b :=
    fun b hb => hkept.bufferSpan (h.sound.slots b hb)
  have hspan : ∀ b ∈ r.live, reservedSpan s b = reservedSpan r.usb b :=
    fun b hb => reservedSpan_of_same (hbuffer b hb) (hsize b)
  refine h.of_spans (h.sound.kept hkept) hep0 hnext hspan fun b hb => ?_
  rw [hspan b hb, hbuffer b hb]
  exact h.within b hb

/-- EP0 is opened with 64 bytes in each direction. -/
theorem reservedSpan_init (s : Usb) :
    reservedSpan (usbInitEnableHal s) (0, 0) = { start := 128, size := 64 } ∧
      reservedSpan (usbInitEnableHal s) (0, 1) = { start := 64, size := 64 } := by
  obtain ⟨hrx, htx⟩ := bufferSpan_init s
  simp only [reservedSpan]
  rw [hrx, htx]
  exact ⟨rfl, rfl⟩

theorem reserved_usbInitEnableHal {s : Usb}
    (hsound : PmaSound { usb := usbInitEnableHal s, live := ep0Buffers }) :
    PmaReserved { usb := usbInitEnableHal s, live := ep0Buffers } := by
  obtain ⟨hrx, htx⟩ := reservedSpan_init s
  obtain ⟨hbrx, hbtx⟩ := bufferSpan_init s
  have hnext := usbInitEnableHal_usbPmaNextAvailable s
  refine ⟨hsound, ep0Assigned_usbInitEnableHal s, ?_, ?_, ?_, hnext.ge, ?_, ?_⟩ <;> dsimp only
  · rw [hnext]
    apply packed_ep0Buffers
    · rw [hrx]
      decide
    · rw [htx]
      decide
    · rw [hrx, htx]
      decide
  · intro b hb
    obtain rfl | rfl := mem_ep0Buffers.mp hb
    · rw [hbrx, hrx]
      decide
    · rw [hbtx, htx]
  · intro b hb _
    obtain rfl | rfl := mem_ep0Buffers.mp hb
    · rw [hrx]
      decide
    · rw [htx]
      decide
  · rw [hnext]
    decide
  · rw [hnext]

theorem PmaReserved.closeAll (h : PmaReserved r) : PmaReserved (pmaStep r .closeAll) := by
  have hsound := h.sound.closeAll
  have hclosed := closedAt_usbEpCloseAll r.usb
  have hlive : ∀ b ∈ r.live.filter (fun b => b.1 = 0), b ∈ r.live ∧ b.1 = 0 :=
    fun b hb => Finset.mem_filter.mp hb
  have hbuffer : ∀ b, bufferSpan (usbEpCloseAll r.usb) b = bufferSpan r.usb b := by
    intro b
    simp only [bufferSpan, rxDesc]
    rw [hclosed.pma, hclosed.epTransferSet]
  have hspan : ∀ b, reservedSpan (usbEpCloseAll r.usb) b = reservedSpan r.usb b :=
    fun b => reservedSpan_of_same (hbuffer b) (by rw [hclosed.epTransferSet])
  have hep0 : ∀ b ∈ r.live.filter (fun b => b.1 = 0),
      (reservedSpan (usbEpCloseAll r.usb) b).stop ≤ 192 := by
    intro b hb
    rw [hspan b]
    exact h.ep0Reserved b (hlive b hb).1 (hlive b hb).2
  have hsubset := Finset.coe_subset.mpr (Finset.filter_subset (fun b => b.1 = 0) r.live)
  have hkept := h.reserved.mono hsubset fun b _ => hspan b
  have hnext : (usbEpCloseAll r.usb).usbPmaNextAvailable = 192 := rfl
  refine ⟨hsound, h.ep0.closeAll, ?_, ?_, fun b hb _ => hep0 b hb, hnext.ge, ?_, ?_⟩ <;>
    dsimp only [pmaStep, halCall]
  · exact hkept.below_of hep0
  · intro b hb
    show (bufferSpan (usbEpCloseAll r.usb) b).size ≤ (reservedSpan (usbEpCloseAll r.usb) b).size
    rw [hspan b, hbuffer b]
    exact h.within b (hlive b hb).1
  · rw [hnext]
    decide
  · rw [hnext]

theorem PmaReserved.slot_ne_zero (h : PmaReserved r) {d : EpDescriptor} {i : ℕ} {typeBits : Word}
    (hi : SlotFound r.usb d.bEndpointAddress d.type i)
    (htype : usbEpOpenType d.type = some typeBits) : i ≠ 0 := by
  rintro rfl
  cases hi.offers.symm.trans (h.ep0.refuses (usbEpOpenType_ne_control htype) d.bEndpointAddress)

/-- The buffer opened lies behind all others. -/
theorem PmaReserved.opened (h : PmaReserved r) {d : EpDescriptor} {i : ℕ} {typeBits : Word}
    (hi : SlotFound r.usb d.bEndpointAddress d.type i) (htype : usbEpOpenType d.type = some typeBits)
    (hsizes : SizesOk r (.openEp d)) : PmaReserved (pmaStep r (.openEp d)) := by
  have hsound := h.sound.openEp d |>.2 (h.open_ok hsizes)
  have hstart := h.nextSpan_start i d
  obtain ⟨hmultiple, hroom, hblock⟩ := hsizes i hi (by rw [htype]; rfl)
  have hfits := nextSpan_size hblock
  have hbehind := h.behindEp0
  have haligned := h.aligned
  have hdir := usbEpDirIdx_le d.bEndpointAddress
  have hnext : (openSlot r.usb d i typeBits).usbPmaNextAvailable =
      r.usb.usbPmaNextAvailable + d.packetSize := by
    show (r.usb.usbPmaNextAvailable + d.packetSize) % 2 ^ 16 = _
    omega
  have hself : reservedSpan (openSlot r.usb d i typeBits) (i, d.dirIdx) =
      { start := r.usb.usbPmaNextAvailable, size := d.packetSize } := by
    simp only [reservedSpan]
    rw [openSlot_span_self, openSlot_record, hstart]
  have hothers : ∀ c ∈ r.live, c ≠ (i, d.dirIdx) →
      bufferSpan (openSlot r.usb d i typeBits) c = bufferSpan r.usb c ∧
        reservedSpan (openSlot r.usb d i typeBits) c = reservedSpan r.usb c := by
    intro c hc hne
    have hbuffer := openSlot_span_of_ne r.usb d i typeBits (h.sound.slots c hc).dir hne
    exact ⟨hbuffer, reservedSpan_of_same hbuffer (by rw [openSlot_record_of_ne _ _ _ _ hne])⟩
  have hwider : Packed 64 (r.usb.usbPmaNextAvailable + d.packetSize) (r.live : Set (ℕ × ℕ))
      (reservedSpan r.usb) :=
    h.reserved.below_of fun c hc => (h.reserved.below c hc).trans (Nat.le_add_right _ _)
  rw [pmaStep_opened hi htype] at hsound ⊢
  refine ⟨hsound, (h.ep0.takeSlot hi).of_table rfl, ?_, ?_, ?_, ?_, ?_, ?_⟩ <;> dsimp only
  · rw [hnext, Finset.coe_insert, hwider.insert_iff fun c hc hne => (hothers c hc hne).2, hself]
    refine ⟨by dsimp only; omega, le_rfl, fun c hc _ => ?_⟩
    exact .inr (.inr (.inr (h.reserved.below c hc)))
  · intro c hc
    by_cases hci : c = (i, d.dirIdx)
    · rw [hci, hself, openSlot_span_self]
      exact hfits
    · have hmem := Finset.mem_of_mem_insert_of_ne hc hci
      rw [(hothers c hmem hci).1, (hothers c hmem hci).2]
      exact h.within c hmem
  · intro c hc hslot
    have hci : c ≠ (i, d.dirIdx) := by
      rintro rfl
      exact h.slot_ne_zero hi htype hslot
    have hmem := Finset.mem_of_mem_insert_of_ne hc hci
    rw [(hothers c hmem hci).2]
    exact h.ep0Reserved c hmem hslot
  · rw [hnext]
    omega
  · rw [hnext]
    exact hroom
  · rw [hnext]
    omega

theorem PmaReserved.openEp (h : PmaReserved r) {d : EpDescriptor} (hsizes : SizesOk r (.openEp d)) :
    PmaReserved (pmaStep r (.openEp d)) := by
  rcases slotFound_or_noSlot r.usb d.bEndpointAddress d.type with ⟨i, hi⟩ | hnone
  · cases htype : usbEpOpenType d.type with
    | none =>
      rw [pmaStep_refused (usbEpOpenHal_unsupported hi htype)]
      exact h.kept (.of_same rfl rfl) (h.ep0.takeSlot hi) rfl fun _ => rfl
    | some typeBits => exact h.opened hi htype hsizes
  · rw [pmaStep_refused (usbEpOpenHal_noSlot hnone)]
    exact h

theorem PmaReserved.queue_in (h : PmaReserved r) {epAddr : Byte} (hdir : usbEpDirIdx epAddr = 1)
    (buffer : Ptr) (n : ℕ) : PmaReserved (pmaStep r (.queue epAddr buffer n)) := by
  have hkept := h.sound.records.queue_in_kept (usbEpIdn epAddr) buffer n
  have hep0 := h.ep0.halStep (.call (.queue epAddr buffer n))
  have hsize : ∀ b : ℕ × ℕ,
      ((usbEpQueueTransferHal r.usb (usbEpIdn epAddr) 1 buffer n).2.epTransferSet b.1 b.2).maxPacketSize =
        (r.usb.epTransferSet b.1 b.2).maxPacketSize := by
    intro b
    have hrecord := setTransfer_feed (r.usb.log (.queued (usbEpIdn epAddr) 1 n)) (usbEpIdn epAddr) 1
      { buffer := buffer, totalCount := n, fedCount := 0 } b.1 b.2
    exact (setTransfer_feed (recordTransfer r.usb (usbEpIdn epAddr) 1 buffer n) (usbEpIdn epAddr) 1
      _ b.1 b.2).1.trans hrecord.1
  have hnext : (usbEpQueueTransferHal r.usb (usbEpIdn epAddr) 1 buffer n).2.usbPmaNextAvailable =
      r.usb.usbPmaNextAvailable := rfl
  rw [← hdir] at hkept hsize hnext
  exact h.kept hkept hep0 hnext hsize

theorem PmaReserved.queue_out (h : PmaReserved r) {epAddr : Byte} (hdir : usbEpDirIdx epAddr = 0)
    {buffer : Ptr} {n : ℕ} (hsizes : SizesOk r (.queue epAddr buffer n)) :
    PmaReserved (pmaStep r (.queue epAddr buffer n)) := by
  have hsound := (h.sound.queue_out hdir buffer n).2 (h.queue_ok hsizes)
  have hep0 := h.ep0.halStep (.call (.queue epAddr buffer n))
  have hsize : ∀ b : ℕ × ℕ,
      ((usbEpQueueTransferHal r.usb (usbEpIdn epAddr) 0 buffer n).2.epTransferSet b.1 b.2).maxPacketSize =
        (r.usb.epTransferSet b.1 b.2).maxPacketSize :=
    fun b => (setTransfer_feed (r.usb.log (.queued (usbEpIdn epAddr) 0 n)) (usbEpIdn epAddr) 0
      { buffer := buffer, totalCount := n, fedCount := 0 } b.1 b.2).1
  have hspan : ∀ b ∈ r.live,
      bufferSpan (usbEpQueueTransferHal r.usb (usbEpIdn epAddr) 0 buffer n).2 b =
        if b = (usbEpIdn epAddr, 0) then
          { start := (bufferSpan r.usb (usbEpIdn epAddr, 0)).start
            size := blockCapacity (n % 2 ^ 16) }
        else bufferSpan r.usb b :=
    fun b hb => queue_out_span r.usb _ buffer n (h.sound.slots b hb).dir
  have hreserved : ∀ b ∈ r.live,
      reservedSpan (usbEpQueueTransferHal r.usb (usbEpIdn epAddr) 0 buffer n).2 b =
        reservedSpan r.usb b := by
    intro b hb
    simp only [reservedSpan]
    rw [hspan b hb, hsize b]
    split_ifs with hself
    · rw [hself]
    · rfl
  rw [pmaStep_queue_out hdir] at hsound ⊢
  refine h.of_spans hsound ?_ rfl hreserved fun b hb => ?_
  · rw [← hdir]
    exact hep0
  · rw [hreserved b hb, hspan b hb]
    split_ifs with hself
    · rw [hself] at hb ⊢
      exact hsizes hdir hb
    · exact h.within b hb

/-- **One call that keeps to the sizes** keeps the reservations. -/
theorem PmaReserved.step (h : PmaReserved r) (c : HalCall) (hsizes : SizesOk r c) :
    PmaReserved (pmaStep r c) := by
  cases c with
  | init => exact reserved_usbInitEnableHal h.sound.init
  | openEp d => exact h.openEp hsizes
  | closeAll => exact h.closeAll
  | queue epAddr buffer n =>
    rcases usbEpDirIdx_cases epAddr with hdir | hdir
    · exact h.queue_out hdir hsizes
    · exact h.queue_in hdir buffer n
  | stallSet epAddr => exact h.kept (.of_same rfl rfl) (h.ep0.of_table rfl) rfl fun _ => rfl
  | stallClear epAddr => exact h.kept (.of_same rfl rfl) (h.ep0.of_table rfl) rfl fun _ => rfl

/-- Span by span, the packet memory is never given out twice exactly in the runs whose calls each
find free what they take. -/
theorem allocations_packed_iff (pma : ℕ → Word) (cs : List HalCall) :
    Always pmaStep PmaPacked (pmaBoot pma) cs ↔ Guarded pmaStep AllocOk (pmaBoot pma) cs :=
  always_iff_guarded (I := PmaSound) (fun _ h => h.packed) (fun _ c h hok => (h.step c).2 hok)
    (fun _ c h hok hpacked => hok ((h.step c).1.mp hpacked)) (pmaSound_pmaBoot pma)

/-- **The packet memory is never given out twice** in a run that keeps to the sizes: multiples of 4
that the memory has room for, and receive blocks no longer than the packets the endpoints were opened
for. -/
theorem packed_of_sizes (pma : ℕ → Word) {cs : List HalCall}
    (h : Guarded pmaStep SizesOk (pmaBoot pma) cs) : Always pmaStep PmaPacked (pmaBoot pma) cs :=
  (always_of_guarded (I := PmaReserved) (fun _ c h hsizes => h.step c hsizes)
    (reserved_usbInitEnableHal (pmaSound_pmaBoot pma)) h).mono fun _ h => h.sound.packed

/-- The endpoints of a CDC function, and a transfer each way. -/
theorem packed_of_sizes_cdc :
    Always pmaStep PmaPacked (pmaBoot fun _ => 0#32)
      [.openEp { bEndpointAddress := 0x81#8, type := usbEpTypeInterrupt, wMaxPacketSize := 8 },
        .openEp { bEndpointAddress := 0x02#8, type := usbEpTypeBulk, wMaxPacketSize := 64 },
        .openEp { bEndpointAddress := 0x82#8, type := usbEpTypeBulk, wMaxPacketSize := 64 },
        .queue 0x02#8 .null 64, .queue 0x82#8 .null 200] := by
  refine packed_of_sizes _ ⟨?_, ?_, ?_, ?_, ?_, trivial⟩
  · exact fun i _ _ => ⟨by decide, by decide, fun hdir => absurd hdir (by decide)⟩
  · intro i hi _
    have hlt : i < 8 := hi.lt
    refine ⟨by decide, by decide, fun _ => ?_⟩
    interval_cases i <;> decide
  · exact fun i _ _ => ⟨by decide, by decide, fun hdir => absurd hdir (by decide)⟩
  · exact fun _ _ => by decide
  · exact fun hdir => absurd hdir (by decide)

/-- Both directions of an endpoint of 64 bytes, and a reception of 128: its receive block runs over
the transmission buffer behind it. -/
theorem long_reception_overlaps :
    ¬ ∀ (pma : ℕ → Word) (cs : List HalCall), Always pmaStep PmaPacked (pmaBoot pma) cs := by
  intro h
  have hpacked := (h (fun _ => 0#32)
    [.openEp { bEndpointAddress := 0x01#8, type := usbEpTypeBulk, wMaxPacketSize := 64 },
      .openEp { bEndpointAddress := 0x81#8, type := usbEpTypeBulk, wMaxPacketSize := 64 },
      .queue 0x01#8 .null 128]).last
  have hapart := Packed.apart hpacked (Finset.mem_coe.mpr (by decide : (1, 0) ∈ _))
    (Finset.mem_coe.mpr (by decide : (1, 1) ∈ _)) (by decide)
  exact absurd hapart (by decide)

end PcbMill
