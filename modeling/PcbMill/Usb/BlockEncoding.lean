import PcbMill.Usb.PacketMemory

/-!
# The receive blocks of a buffer descriptor

A receive buffer is described by a block size and a number of blocks, which
`usb_ep_calc_rx_buffer_block_size` puts together from a size in bytes.  The number passes through
an 8-bit variable and ends in a field of five bits, which counts up to 32 blocks of 32 bytes.
-/

namespace PcbMill

open FixedWidth

/-- The size of a block, in bytes. -/
def rxBlockSize (bufferSize : ℕ) : ℕ := if 62 < bufferSize then 32 else 2

/-- The value `block_count` is assigned, which is an `int`. -/
def rxBlockCount (bufferSize : ℕ) : ℕ :=
  let blockSizeLog2 := if 62 < bufferSize then 5 else 1
  (bufferSize + (2 ^ blockSizeLog2 - 1)) >>> blockSizeLog2

/-- A descriptor word programmed for `bufferSize` bytes decodes to the capacity asked for, up to
the longest packet and for no more than that within one block; nothing is truncated or spills out
of its field on the way, and the address and all other words are kept. -/
structure BlocksProgrammed (pma pma' : ℕ → Word) (epIdn bufferSize : ℕ) : Prop where
  capacity : min bufferSize 1024 ≤ descCapacity (pma' (bufferDesc epIdn usbEpRxCountAddrIdx))
  tight : bufferSize ≤ 1024 →
    descCapacity (pma' (bufferDesc epIdn usbEpRxCountAddrIdx)) <
      bufferSize + rxBlockSize bufferSize
  blockCount : rxBlockCount bufferSize < 2 ^ 8
  noBorrow : (usbEpCalcRxBufferBlockSize bufferSize).1 ≤ rxBlockCount bufferSize
  blsize : (usbEpCalcRxBufferBlockSize bufferSize).1 < 2
  numBlock : (usbEpCalcRxBufferBlockSize bufferSize).2 < 2 ^ 5
  address : descAddr (pma' (bufferDesc epIdn usbEpRxCountAddrIdx)) =
    descAddr (pma (bufferDesc epIdn usbEpRxCountAddrIdx))
  others : ∀ w, w ≠ bufferDesc epIdn usbEpRxCountAddrIdx → pma' w = pma w

variable {s : Usb} {epIdn n : ℕ}

theorem usbEpSetRxBufferBlockSize_pma (s : Usb) (epIdn : ℕ) {n : ℕ} (hn : n < 2 ^ 16) :
    (usbEpSetRxBufferBlockSize s epIdn n).pma = Function.update s.pma
      (bufferDesc epIdn usbEpRxCountAddrIdx)
      (descSetBlocks (s.pma (bufferDesc epIdn usbEpRxCountAddrIdx)) n) := by
  simp only [usbEpSetRxBufferBlockSize, Usb.setPma]
  rw [Nat.mod_eq_of_lt hn]

/-- A reception is queued with the words the block size is programmed into. -/
theorem usbEpQueueTransferHal_pma (s : Usb) (epIdn : ℕ) (buffer : Ptr) (n : ℕ) :
    (usbEpQueueTransferHal s epIdn usbDirDeviceInHostOutIdx buffer n).2.pma =
      (usbEpSetRxBufferBlockSize s epIdn n).pma := rfl

theorem rxBlockCount_eq (n : ℕ) :
    rxBlockCount n = if 62 < n then (n + 31) / 32 else (n + 1) / 2 := by
  simp only [rxBlockCount, Nat.shiftRight_eq_div_pow]
  split <;> rfl

/-- As long as the count fits its variable it is not truncated. -/
theorem usbEpCalcRxBufferBlockSize_eq (h : rxBlockCount n < 2 ^ 8) :
    usbEpCalcRxBufferBlockSize n =
      (if 62 < n then 1 else 0, if 62 < n then (n + 31) / 32 - 1 else (n + 1) / 2) := by
  have hcalc : usbEpCalcRxBufferBlockSize n = (if 62 < n then 1 else 0,
      sub32 (rxBlockCount n % 2 ^ 8) (if 62 < n then 1 else 0)) := rfl
  rw [hcalc, Nat.mod_eq_of_lt h]
  have hcount := rxBlockCount_eq n
  split at hcount
  · rw [if_pos ‹_›, if_pos ‹_›, sub32_of_le (by omega) (by omega), hcount]
  · rw [if_neg ‹_›, if_neg ‹_›, sub32_of_le (by omega) (by omega), hcount, Nat.sub_zero]

/-- The capacity falls short of the longest packet unless the count of blocks comes round to a
multiple of 32. -/
theorem capacity_iff (w : Word) (hn : n < 2 ^ 16) :
    min n 1024 ≤ descCapacity (descSetBlocks w n) ↔ n ≤ 1024 ∨ (n + 31) / 32 % 32 = 0 := by
  rw [descCapacity_descSetBlocks_eq w hn, blockCapacity]
  split <;> omega

theorem blocksProgrammed_of_le (s : Usb) (epIdn : ℕ) (h : n ≤ 1024) :
    BlocksProgrammed s.pma (usbEpSetRxBufferBlockSize s epIdn n).pma epIdn n := by
  have hn : n < 2 ^ 16 := by omega
  have hcount : rxBlockCount n < 2 ^ 8 := by
    rw [rxBlockCount_eq]
    split <;> omega
  have hcalc := usbEpCalcRxBufferBlockSize_eq hcount
  rw [usbEpSetRxBufferBlockSize_pma s epIdn hn]
  constructor
  · rw [Function.update_self]
    exact (capacity_iff _ hn).mpr (.inl h)
  · intro _
    rw [Function.update_self, descCapacity_descSetBlocks_eq _ hn, blockCapacity, rxBlockSize]
    split <;> omega
  · exact hcount
  · rw [hcalc, rxBlockCount_eq]
    dsimp only
    split <;> omega
  · rw [hcalc]
    dsimp only
    split <;> omega
  · rw [hcalc]
    dsimp only
    split <;> omega
  · rw [Function.update_self, descAddr_descSetBlocks]
  · intro w hw
    exact Function.update_of_ne hw ..

/-- Above 1024 bytes the count is truncated or the number of blocks spills out of its field. -/
theorem le_of_blocksProgrammed {pma pma' : ℕ → Word} (h : BlocksProgrammed pma pma' epIdn n) :
    n ≤ 1024 := by
  have hnum := h.numBlock
  have hcount := h.blockCount
  rw [usbEpCalcRxBufferBlockSize_eq hcount] at hnum
  dsimp only at hnum
  split at hnum <;> omega

/-- **The block encoding** of a 16-bit size is right exactly up to the longest packet of 1024
bytes, also where the size is that of a transfer queued. -/
theorem rx_block_encoding_iff (s : Usb) (epIdn : ℕ) (buffer : Ptr) (bufferSize : BitVec 16) :
    (BlocksProgrammed s.pma (usbEpSetRxBufferBlockSize s epIdn bufferSize.toNat).pma epIdn
        bufferSize.toNat ↔ bufferSize.toNat ≤ 1024) ∧
      (BlocksProgrammed s.pma (usbEpQueueTransferHal s epIdn usbDirDeviceInHostOutIdx buffer
        bufferSize.toNat).2.pma epIdn bufferSize.toNat ↔ bufferSize.toNat ≤ 1024) := by
  rw [usbEpQueueTransferHal_pma]
  exact ⟨⟨le_of_blocksProgrammed, blocksProgrammed_of_le s epIdn⟩,
    ⟨le_of_blocksProgrammed, blocksProgrammed_of_le s epIdn⟩⟩

/-- A transfer of 1025 bytes is given a buffer of 32. -/
theorem rx_block_encoding_short :
    descCapacity ((usbEpQueueTransferHal usbPowerOn 1 usbDirDeviceInHostOutIdx .null
        1025).2.pma (bufferDesc 1 usbEpRxCountAddrIdx)) = 32 ∧
      ¬ BlocksProgrammed usbPowerOn.pma (usbEpQueueTransferHal usbPowerOn 1
        usbDirDeviceInHostOutIdx .null 1025).2.pma 1 1025 := by
  refine ⟨?_, fun h => absurd (le_of_blocksProgrammed h) (by decide)⟩
  rw [usbEpQueueTransferHal_pma, usbEpSetRxBufferBlockSize_pma _ _ (by decide),
    Function.update_self]
  rfl

end PcbMill
