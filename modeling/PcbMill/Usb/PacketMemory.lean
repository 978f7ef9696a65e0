import PcbMill.Usb.Irq

/-!
# What the packet memory routines do

The word and odd-byte loops of the HAL are the byte load and store of a word memory, and each
update of a buffer descriptor changes one of its fields.
-/

namespace PcbMill

open FixedWidth WordMemory Segment

/-! ### Copies -/

theorem unalignedRead32_eq (p : List Byte) : unalignedRead32 p = packWord p := rfl

theorem setWidth_ushiftRight (w : Word) (n : ℕ) :
    (w >>> n).setWidth 8 = w.extractLsb' n 8 := by
  apply BitVec.eq_of_getLsbD_eq
  intro j hj
  simp [BitVec.getLsbD_extractLsb']

theorem unalignedWrite32_eq (w : Word) : unalignedWrite32 w = (List.range 4).map (byteOf w) := by
  have h0 := setWidth_ushiftRight w 0
  rw [BitVec.ushiftRight_zero] at h0
  simp only [unalignedWrite32, h0, setWidth_ushiftRight]
  rfl

theorem oddBytes_eq (odd : ℕ) : ∀ w : Word, oddBytes odd w = (List.range odd).map (byteOf w) := by
  induction odd with
  | zero => exact fun w => rfl
  | succ odd ih =>
    intro w
    rw [List.range_succ_eq_map, List.map_cons, List.map_map, oddBytes, ih]
    congr 1
    · apply BitVec.eq_of_getLsbD_eq
      intro j hj
      interval_cases j <;> simp [byteOf]
    · -- the shifted word holds the bytes one place further down
      apply List.map_congr_left
      intro i _
      apply BitVec.eq_of_getLsbD_eq
      intro j hj
      simp [byteOf, hj, show 8 + (8 * i + j) = 8 * (i + 1) + j by omega]

theorem map_byteOf_eq (pma : ℕ → Word) {a : ℕ} (ha : a % 4 = 0) {n : ℕ} (hn : n ≤ 4) :
    (List.range n).map (byteOf (pma (a / 4))) = loadBytes pma a n := by
  apply List.map_congr_left
  intro i hi
  have hi := List.mem_range.mp hi
  rw [byteAt, show (a + i) / 4 = a / 4 by omega, show (a + i) % 4 = i by omega]

/-- `usb_rx_pma_read` reads consecutive bytes. -/
theorem usbRxPmaRead_eq (pma : ℕ → Word) {src : ℕ} (hsrc : src % 4 = 0) (byteCount : ℕ) :
    usbRxPmaRead pma src byteCount = loadBytes pma src byteCount := by
  have hword : ∀ k n, n ≤ 4 → (List.range n).map (byteOf (pma (src / 4 + k))) =
      loadBytes pma (src + 4 * k) n := by
    intro k n hn
    rw [show src / 4 + k = (src + 4 * k) / 4 by omega]
    exact map_byteOf_eq pma (by omega) hn
  have hwords : ∀ k, ((List.range k).flatMap fun i => unalignedWrite32 (pma (src / 4 + i))) =
      loadBytes pma src (4 * k) := by
    intro k
    induction k with
    | zero => rfl
    | succ k ih =>
      rw [List.range_succ, List.flatMap_append, ih, Nat.mul_succ, loadBytes_add,
        List.flatMap_singleton, unalignedWrite32_eq, hword k 4 le_rfl]
  rw [usbRxPmaRead, hwords, oddBytes_eq, hword _ _ (by omega), ← loadBytes_add,
    Nat.div_add_mod]

theorem writeWords_eq (pma : ℕ → Word) (dst : ℕ) (src : List Byte) (n w : ℕ) :
    writeWords pma dst src n w =
      if dst / 4 ≤ w ∧ w < dst / 4 + n then packWord (src.drop (4 * (w - dst / 4))) else pma w := by
  induction n with
  | zero => rw [if_neg (by omega)]; rfl
  | succ n ih =>
    rw [writeWords, unalignedRead32_eq]
    by_cases hw : w = dst / 4 + n
    · subst hw
      rw [Function.update_self, if_pos (by omega), Nat.add_sub_cancel_left]
    · rw [Function.update_of_ne hw, ih]
      by_cases hin : dst / 4 ≤ w ∧ w < dst / 4 + n
      · rw [if_pos hin, if_pos (by omega)]
      · rw [if_neg hin, if_neg (by omega)]

/-- The odd bytes make up a word whose other bytes are zero. -/
theorem oddWord_eq {src : List Byte} {odd : ℕ} (h : src.length = odd) (hodd : odd < 4) :
    oddWord src odd = packWord src := by
  match src, h with
  | [], h => subst h; rfl
  | [a], h => subst h; simp [oddWord, packWord]
  | [a, b], h => subst h; simp [oddWord, packWord]
  | [a, b, c], h => subst h; simp [oddWord, packWord]
  | a :: b :: c :: d :: src, h => simp at h; omega

/-- `usb_write_unaligned_data` stores bytes and zeroes the rest of the last word. -/
theorem usbWriteUnalignedData_eq (pma : ℕ → Word) (dst : ℕ) (src : List Byte) :
    usbWriteUnalignedData pma dst src = storeBytes pma dst src := by
  funext w
  have hdrop : (src.drop (4 * (src.length / 4))).length = src.length % 4 := by
    rw [List.length_drop]
    omega
  rw [usbWriteUnalignedData, storeBytes]
  split
  · rw [writeWords_eq]
    exact if_congr (by omega) rfl rfl
  · by_cases hw : w = dst / 4 + src.length / 4
    · subst hw
      rw [Function.update_self, oddWord_eq hdrop (by omega), if_pos (by omega),
        Nat.add_sub_cancel_left]
    · rw [Function.update_of_ne hw, writeWords_eq]
      exact if_congr (by omega) rfl rfl

/-! ### Buffer descriptors -/

@[simp] theorem descAddr_descSetCount (w : Word) (n : ℕ) :
    descAddr (descSetCount w n) = descAddr w := by
  simp only [descAddr, descSetCount]
  congr 1
  apply BitVec.eq_of_getLsbD_eq
  intro i hi
  interval_cases i <;> simp

theorem descCount_descSetCount (w : Word) {n : ℕ} (h : n < 1024) :
    descCount (descSetCount w n) = n := by
  have hn : (BitVec.ofNat 32 n &&& 0x3FF#32).toNat = n := by
    rw [BitVec.toNat_and, BitVec.toNat_ofNat, Nat.mod_eq_of_lt (by omega)]
    exact Nat.and_two_pow_sub_one_of_lt_two_pow (n := 10) h
  rw [descCount]
  refine Eq.trans (congrArg BitVec.toNat ?_) hn
  simp only [descSetCount]
  apply BitVec.eq_of_getLsbD_eq
  intro i hi
  interval_cases i <;> simp

/-- The capacity depends on bits 26 to 31 only. -/
theorem descCapacity_congr {w v : Word} (h : ∀ i, 26 ≤ i → i < 32 → w.getLsbD i = v.getLsbD i) :
    descCapacity w = descCapacity v := by
  have hblock : (w >>> 26) &&& 0x1F#32 = (v >>> 26) &&& 0x1F#32 := by
    apply BitVec.eq_of_getLsbD_eq
    intro i hi
    by_cases hi5 : i < 6
    · simp [h (26 + i) (by omega) (by omega)]
    · simp [show 32 ≤ 26 + i by omega]
  simp only [descCapacity, h 31 (by omega) (by omega), hblock]

@[simp] theorem descCapacity_descSetCount (w : Word) (n : ℕ) :
    descCapacity (descSetCount w n) = descCapacity w := by
  apply descCapacity_congr
  intro i h₁ h₂
  interval_cases i <;> simp [descSetCount]

@[simp] theorem descAddr_descSetBlocks (w : Word) (n : ℕ) :
    descAddr (descSetBlocks w n) = descAddr w := by
  simp only [descAddr, descSetBlocks]
  congr 1
  apply BitVec.eq_of_getLsbD_eq
  intro i hi
  interval_cases i <;> simp

/-- Setting the block size clears the received count. -/
@[simp] theorem descCount_descSetBlocks (w : Word) (n : ℕ) :
    descCount (descSetBlocks w n) = 0 := by
  simp only [descCount, descSetBlocks]
  refine Eq.trans (b := (0#32).toNat) (congrArg BitVec.toNat ?_) rfl
  apply BitVec.eq_of_getLsbD_eq
  intro i hi
  interval_cases i <;> simp

/-- The bytes a receive block programmed for `n` bytes takes: blocks of 2 bytes up to 62 bytes,
of 32 bytes above, where the five-bit field counts at most 32 of them. -/
def blockCapacity (n : ℕ) : ℕ :=
  if 62 < n then 32 * (((n + 31) / 32 + 31) % 32 + 1) else 2 * ((n + 1) / 2)

/-- What the hardware decodes from BLSIZE and NUM_BLOCK. -/
theorem descCapacity_blocks (w : Word) {blsize k : ℕ} (hblsize : blsize = 0 ∨ blsize = 1)
    (hk : k < 32 ∨ blsize = 1) :
    descCapacity ((BitVec.ofNat 32 blsize <<< 31 ||| BitVec.ofNat 32 k <<< 26) |||
      (w &&& 0xFFFF#32)) = if blsize = 1 then 32 * (k % 32 + 1) else 2 * k := by
  have hfield : (((BitVec.ofNat 32 blsize <<< 31 ||| BitVec.ofNat 32 k <<< 26) |||
      (w &&& 0xFFFF#32)) >>> 26) &&& 0x1F#32 = BitVec.ofNat 32 k &&& 0x1F#32 := by
    apply BitVec.eq_of_getLsbD_eq
    intro i hi
    interval_cases i <;> simp
  have hmod : (BitVec.ofNat 32 k &&& 0x1F#32).toNat = k % 32 := by
    rw [BitVec.toNat_and, BitVec.toNat_ofNat]
    show k % 2 ^ 32 &&& (2 ^ 5 - 1) = k % 32
    rw [Nat.and_two_pow_sub_one_eq_mod]
    omega
  have hbit : ((BitVec.ofNat 32 blsize <<< 31 ||| BitVec.ofNat 32 k <<< 26) |||
      (w &&& 0xFFFF#32)).getLsbD 31 = decide (blsize = 1) := by
    rcases hblsize with rfl | rfl
    · have hbit5 : (BitVec.ofNat 32 k).getLsbD 5 = false := by
        rw [BitVec.getLsbD_ofNat, Nat.testBit_lt_two_pow (by omega)]
        rfl
      simp [-BitVec.getLsbD_eq_getElem, hbit5]
    · simp
  simp only [descCapacity]
  rw [hfield, hmod, hbit]
  rcases hblsize with rfl | rfl
  · rw [if_neg (by decide), if_neg (by decide), Nat.mod_eq_of_lt (by omega)]
  · rfl

/-- The capacity programmed for a transfer. -/
theorem descCapacity_descSetBlocks_eq (w : Word) {n : ℕ} (h : n < 2 ^ 16) :
    descCapacity (descSetBlocks w n) = blockCapacity n := by
  simp only [descSetBlocks, usbEpCalcRxBufferBlockSize, blockCapacity, sub32]
  by_cases hn : 62 < n
  · simp only [hn, if_true]
    rw [descCapacity_blocks w (.inr rfl) (.inr rfl), if_pos rfl]
    simp only [Nat.shiftRight_eq_div_pow]
    omega
  · simp only [hn, if_false, Nat.shiftRight_eq_div_pow]
    rw [descCapacity_blocks w (.inl rfl) (.inl (by omega)), if_neg (by decide)]
    omega

/-- For at most 64 bytes it is their number rounded up to the block size. -/
theorem blockCapacity_of_le {n : ℕ} (h : n ≤ 64) :
    blockCapacity n = if 62 < n then 64 else 2 * ((n + 1) / 2) := by
  simp only [blockCapacity]
  split
  · omega
  · rfl

theorem descCapacity_descSetBlocks (w : Word) {n : ℕ} (h : n ≤ 64) :
    descCapacity (descSetBlocks w n) = if 62 < n then 64 else 2 * ((n + 1) / 2) := by
  rw [descCapacity_descSetBlocks_eq w (by omega), blockCapacity_of_le h]

theorem descAddr_descSetAddr (w : Word) (a : ℕ) :
    descAddr (descSetAddr w a) = (BitVec.ofNat 32 a &&& 0xFFFC#32).toNat := by
  simp only [descAddr, descSetAddr]
  congr 1
  apply BitVec.eq_of_getLsbD_eq
  intro i hi
  interval_cases i <;> simp

theorem and_fffc (n : ℕ) : n &&& 0xFFFC = n % 2 ^ 16 / 4 * 4 := by
  have hmask : n &&& 0xFFFC = (n >>> 2 &&& (2 ^ 14 - 1)) <<< 2 := by
    apply Nat.eq_of_testBit_eq
    intro i
    show (n &&& (2 ^ 14 - 1) <<< 2).testBit i = _
    simp only [Nat.testBit_and, Nat.testBit_shiftLeft, Nat.testBit_shiftRight,
      Nat.testBit_two_pow_sub_one]
    by_cases hi : 2 ≤ i
    · simp [hi]
    · simp [hi]
  rw [hmask, Nat.and_two_pow_sub_one_eq_mod, Nat.shiftRight_eq_div_pow, Nat.shiftLeft_eq]
  omega

/-- An address set in a descriptor loses its low two bits. -/
theorem descAddr_descSetAddr_eq (w : Word) (a : ℕ) :
    descAddr (descSetAddr w a) = a % 2 ^ 16 / 4 * 4 := by
  rw [descAddr_descSetAddr, BitVec.toNat_and, BitVec.toNat_ofNat]
  show a % 2 ^ 32 &&& 0xFFFC = _
  rw [and_fffc]
  omega

@[simp] theorem descCapacity_descSetAddr (w : Word) (a : ℕ) :
    descCapacity (descSetAddr w a) = descCapacity w := by
  apply descCapacity_congr
  intro i h₁ h₂
  interval_cases i <;> simp [descSetAddr]

@[simp] theorem descCount_descSetAddr (w : Word) (a : ℕ) :
    descCount (descSetAddr w a) = descCount w := by
  simp only [descCount, descSetAddr]
  congr 1
  apply BitVec.eq_of_getLsbD_eq
  intro i hi
  interval_cases i <;> simp

/-! ### Memory -/

theorem Usb.memory_store_of_ne (s : Usb) {p : Ptr} {g : Region} (h : g ≠ p.region)
    (data : List Byte) : (s.store p data).memory g = s.memory g := by
  simp only [Usb.memory, Usb.store]
  split
  · rfl
  · split
    · rfl
    · exact Function.update_of_ne h _ _

/-- A store leaves the bytes behind it. -/
theorem Usb.memory_store_of_ge (s : Usb) {p : Ptr} (g : Region) {data : List Byte} {i : ℕ}
    (h : g = p.region → p.offset + data.length ≤ i) : (s.store p data).memory g i = s.memory g i := by
  by_cases hg : g = p.region
  · subst hg
    simp only [Usb.memory, Usb.store]
    cases hflash : p.region.flash with
    | some bytes => rfl
    | none =>
      dsimp only
      rw [if_neg (by decide), Function.update_self]
      exact writeSegment_of_ge _ _ (h rfl)
  · rw [s.memory_store_of_ne hg]

/-- Reading back a store to RAM. -/
theorem Usb.load_store (s : Usb) {p : Ptr} (h : p.region.flash = none) (data : List Byte) :
    (s.store p data).load p data.length = data := by
  simp only [Usb.load, Usb.memory, Usb.store]
  rw [h]
  dsimp only
  rw [if_neg (by decide), Function.update_self]
  exact readSegment_writeSegment _ _ _

theorem Usb.load_length (s : Usb) (p : Ptr) (n : ℕ) : (s.load p n).length = n :=
  readSegment_length ..

theorem Usb.load_append (s : Usb) (p : Ptr) (a b : ℕ) :
    s.load p a ++ s.load (p.add a) b = s.load p (a + b) :=
  readSegment_append ..

/-! ### The packet of an armed transmitter -/

theorem feedForwardRemainingCount_eq {feed : FeedForwardBuffer}
    (hfed : feed.fedCount ≤ feed.totalCount) (htotal : feed.totalCount < 2 ^ 16) (n : ℕ) :
    feedForwardRemainingCount feed n = min (feed.totalCount - feed.fedCount) n := by
  simp only [feedForwardRemainingCount]
  rw [sub16_of_le hfed htotal]
  split <;> omega

theorem feedForwardRemainingCount_start (buffer : Ptr) {n : ℕ} (hn : n ≤ 64) :
    feedForwardRemainingCount { buffer := buffer, totalCount := n, fedCount := 0 } 64 = n :=
  (feedForwardRemainingCount_eq (Nat.zero_le n) (by show n < 2 ^ 16; omega) 64).trans
    (Nat.min_eq_left hn)

/-- `usb_tx_packet` changes the words of the packet and the descriptor. -/
theorem usbTxPacket_pma {s : Usb} {idn n : ℕ} (hrecord : (s.epTransferSet idn 1).epIdn = idn)
    (hidn : idn < usbEpMax) (hbehind : 64 ≤ descAddr (txDesc s idn))
    (hn : feedForwardRemainingCount (s.epTransferSet idn 1).feed
      (s.epTransferSet idn 1).maxPacketSize = n) :
    (usbTxPacket s idn).pma = Function.update
      (storeBytes s.pma (descAddr (txDesc s idn)) (s.load ((s.epTransferSet idn 1).feed.buffer.add
        (s.epTransferSet idn 1).feed.fedCount) n))
      (bufferDesc idn usbEpTxCountAddrIdx) (descSetCount (txDesc s idn) n) := by
  generalize hdata : s.load ((s.epTransferSet idn 1).feed.buffer.add
    (s.epTransferSet idn 1).feed.fedCount) n = data
  have hword : bufferDesc idn usbEpTxCountAddrIdx < 16 := by
    simp only [bufferDesc, usbEpTxCountAddrIdx]
    simp only [usbEpMax] at hidn
    omega
  have hdesc : storeBytes s.pma (descAddr (txDesc s idn)) data (bufferDesc idn usbEpTxCountAddrIdx) =
      txDesc s idn := storeBytes_of_lt _ _ (by omega)
  simp only [usbTxPacket]
  simp only [usbDirDeviceOutHostInIdx, hn, hrecord, hdata, usbWriteUnalignedData_eq]
  show Function.update (storeBytes s.pma (descAddr (txDesc s idn)) data) _ (descSetCount
    (storeBytes s.pma (descAddr (txDesc s idn)) data (bufferDesc idn usbEpTxCountAddrIdx)) n) = _
  rw [hdesc]

theorem usbTxPacket_chep {s : Usb} {idn : ℕ} (hrecord : (s.epTransferSet idn 1).epIdn = idn) :
    (usbTxPacket s idn).chep = Function.update s.chep idn
      (regSetPreserve (s.chep idn) (txValidValue (s.chep idn))) := by
  have hchep : (usbTxPacket s idn).chep = Function.update s.chep (s.epTransferSet idn 1).epIdn
      (regSetPreserve (s.chep (s.epTransferSet idn 1).epIdn)
        (txValidValue (s.chep (s.epTransferSet idn 1).epIdn))) := rfl
  rw [hchep, hrecord]

theorem usbTxPacket_usbDevice (s : Usb) (idn : ℕ) : (usbTxPacket s idn).usbDevice = s.usbDevice := rfl

theorem usbTxPacket_trace (s : Usb) (idn : ℕ) : (usbTxPacket s idn).trace = s.trace := rfl

theorem usbTxPacket_usbCdc (s : Usb) (idn : ℕ) : (usbTxPacket s idn).usbCdc = s.usbCdc := rfl

/-- `usb_tx_packet` leaves the next bytes of the record in the packet memory. -/
theorem txPacketBytes_usbTxPacket {s : Usb} {idn n : ℕ} (hidn : idn < usbEpMax)
    (hrecord : (s.epTransferSet idn 1).epIdn = idn) (halign : descAddr (txDesc s idn) % 4 = 0)
    (hbehind : 64 ≤ descAddr (txDesc s idn)) (hcount : n < 1024)
    (hn : feedForwardRemainingCount (s.epTransferSet idn 1).feed
      (s.epTransferSet idn 1).maxPacketSize = n) :
    txPacketBytes (usbTxPacket s idn) idn = s.load ((s.epTransferSet idn 1).feed.buffer.add
      (s.epTransferSet idn 1).feed.fedCount) n := by
  have hpma := usbTxPacket_pma hrecord hidn hbehind hn
  generalize hdata : s.load ((s.epTransferSet idn 1).feed.buffer.add
    (s.epTransferSet idn 1).feed.fedCount) n = data at hpma ⊢
  have hlen : data.length = n := by
    rw [← hdata]
    exact Segment.readSegment_length ..
  have hword : bufferDesc idn usbEpTxCountAddrIdx < 16 := by
    simp only [bufferDesc, usbEpTxCountAddrIdx]
    simp only [usbEpMax] at hidn
    omega
  have hdesc' : txDesc (usbTxPacket s idn) idn = descSetCount (txDesc s idn) n := by
    rw [txDesc, hpma, Function.update_self]
  rw [txPacketBytes, hdesc', descAddr_descSetCount, descCount_descSetCount _ hcount, hpma, ← hlen]
  refine Eq.trans (loadBytes_congr ?_) (loadBytes_storeBytes s.pma halign data)
  intro w hw _
  exact Function.update_of_ne (by omega) _ _

end PcbMill
