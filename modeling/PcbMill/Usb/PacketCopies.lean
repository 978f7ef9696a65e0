import PcbMill.Lib.DurableWrites
import PcbMill.Usb.PacketMemory

/-!
# Copies to and from the packet memory, store by store

The loops of `usb_write_unaligned_data` and `usb_rx_pma_read` as the stores they make, in order,
with the pointers they move.  The writer goes through the words that hold the bytes once each, and
the reader through the bytes of the destination.
-/

namespace PcbMill

open FixedWidth WordMemory Segment DurableWrites

/-! ### The stores -/

/-- The loop over the whole words: the stores to `*pma_buf`. -/
def wordStores (pmaBuf : ℕ) (src8 : List Byte) : ℕ → List (ℕ × Word)
  | 0 => []
  | writeCount + 1 =>
    (pmaBuf, unalignedRead32 src8) :: wordStores (pmaBuf + 1) (src8.drop 4) writeCount

/-- The stores of `usb_write_unaligned_data`. -/
def usbWriteUnalignedStores (dst : ℕ) (src : List Byte) : List (ℕ × Word) :=
  let writeCount := src.length / 4
  let odd := src.length % 4
  wordStores (dst / 4) src writeCount ++
    if odd = 0 then [] else [(dst / 4 + writeCount, oddWord (src.drop (4 * writeCount)) odd)]

/-- The loop over the whole words: the stores of `unaligned_write_32`. -/
def readStores (pma : ℕ → Word) (pmaBuf dst8 : ℕ) : ℕ → List (ℕ × Byte)
  | 0 => []
  | readCount + 1 =>
    storesFrom dst8 (unalignedWrite32 (pma pmaBuf)) ++ readStores pma (pmaBuf + 1) (dst8 + 4) readCount

/-- The stores of `usb_rx_pma_read`. -/
def usbRxPmaReadStores (pma : ℕ → Word) (dst8 src byteCount : ℕ) : List (ℕ × Byte) :=
  let readCount := byteCount / 4
  readStores pma (src / 4) dst8 readCount ++
    storesFrom (dst8 + 4 * readCount) (oddBytes (byteCount % 4) (pma (src / 4 + readCount)))

/-! ### What the writer stores -/

theorem wordStores_addresses (n : ℕ) :
    ∀ (a : ℕ) (src : List Byte), (wordStores a src n).map Prod.fst = List.range' a n := by
  induction n with
  | zero => exact fun _ _ => rfl
  | succ n ih =>
    intro a src
    rw [wordStores, List.map_cons, ih, List.range'_succ]

/-- Each word that holds bytes is stored once. -/
theorem usbWriteUnalignedStores_addresses (dst : ℕ) (src : List Byte) :
    (usbWriteUnalignedStores dst src).map Prod.fst = List.range' (dst / 4) ((src.length + 3) / 4) := by
  simp only [usbWriteUnalignedStores]
  rw [List.map_append, wordStores_addresses]
  split
  · rw [List.map_nil, List.append_nil]
    congr 1
    omega
  · have hwords : (src.length + 3) / 4 = src.length / 4 + 1 := by omega
    rw [List.map_cons, List.map_nil, hwords, List.range'_1_concat]

/-- The words stored one after another are those of `writeWords`. -/
theorem applyWrites_wordStores (dst : ℕ) (src : List Byte) (n : ℕ) :
    ∀ (k : ℕ) (pma : ℕ → Word),
      applyWrites (writeWords pma dst src k) (wordStores (dst / 4 + k) (src.drop (4 * k)) n) =
        writeWords pma dst src (k + n) := by
  induction n with
  | zero => exact fun _ _ => rfl
  | succ n ih =>
    intro k pma
    have hnext := ih (k + 1) pma
    rw [writeWords] at hnext
    rw [wordStores, applyWrites_cons, List.drop_drop, Nat.add_assoc, ← Nat.mul_succ, hnext,
      Nat.add_right_comm, Nat.add_assoc]

/-- The stores of the writer make `usb_write_unaligned_data`. -/
theorem applyWrites_usbWriteUnalignedStores (pma : ℕ → Word) (dst : ℕ) (src : List Byte) :
    applyWrites pma (usbWriteUnalignedStores dst src) = usbWriteUnalignedData pma dst src := by
  have hwords := applyWrites_wordStores dst src (src.length / 4) 0 pma
  rw [Nat.zero_add, Nat.mul_zero, List.drop_zero, Nat.add_zero] at hwords
  have hzero : writeWords pma dst src 0 = pma := rfl
  rw [hzero] at hwords
  simp only [usbWriteUnalignedStores, usbWriteUnalignedData]
  rw [applyWrites_append, hwords]
  split
  · rfl
  · rfl

/-! ### What the reader stores -/

theorem readStores_eq (pma : ℕ → Word) (n : ℕ) :
    ∀ a d, readStores pma a d n =
      storesFrom d ((List.range n).flatMap fun i => unalignedWrite32 (pma (a + i))) := by
  induction n with
  | zero => exact fun _ _ => rfl
  | succ n ih =>
    intro a d
    rw [readStores, ih, List.range_succ_eq_map, List.flatMap_cons, storesFrom_append, Nat.add_zero,
      List.flatMap_map]
    congr 2
    refine List.flatMap_congr fun i _ => ?_
    rw [Nat.add_right_comm, Nat.add_assoc]

/-- The stores of the reader put the bytes of `usb_rx_pma_read` at consecutive addresses. -/
theorem usbRxPmaReadStores_eq (pma : ℕ → Word) (d src byteCount : ℕ) :
    usbRxPmaReadStores pma d src byteCount = storesFrom d (usbRxPmaRead pma src byteCount) := by
  have hlength : ((List.range (byteCount / 4)).flatMap fun i =>
      unalignedWrite32 (pma (src / 4 + i))).length = 4 * (byteCount / 4) := by
    rw [List.length_flatMap]
    simp [unalignedWrite32, Nat.mul_comm]
  simp only [usbRxPmaReadStores, usbRxPmaRead]
  rw [readStores_eq, storesFrom_append, hlength]

/-! ### The round trip -/

/-- Bytes written to a word boundary read back.  The writer stores the words from there on, as many
as hold bytes, once each, and the reader one byte at each address of the destination. -/
structure CopiesBack (pma : ℕ → Word) (addr dst : ℕ) (bytes : List Byte) : Prop where
  back : usbRxPmaRead (usbWriteUnalignedData pma addr bytes) addr bytes.length = bytes
  written : applyWrites pma (usbWriteUnalignedStores addr bytes) =
    usbWriteUnalignedData pma addr bytes
  words : (usbWriteUnalignedStores addr bytes).map Prod.fst =
    List.range' (addr / 4) ((bytes.length + 3) / 4)
  read : (usbRxPmaReadStores (usbWriteUnalignedData pma addr bytes) dst addr bytes.length).map
    Prod.snd = bytes
  destination : (usbRxPmaReadStores (usbWriteUnalignedData pma addr bytes) dst addr
    bytes.length).map Prod.fst = List.range' dst bytes.length

/-- **Copies to the packet memory and back**, of any bytes at any word boundary. -/
theorem packet_copies_back (pma : ℕ → Word) {addr : ℕ} (haligned : addr % 4 = 0) (dst : ℕ)
    (bytes : List Byte) : CopiesBack pma addr dst bytes := by
  have hback : usbRxPmaRead (usbWriteUnalignedData pma addr bytes) addr bytes.length = bytes := by
    rw [usbRxPmaRead_eq _ haligned, usbWriteUnalignedData_eq, loadBytes_storeBytes pma haligned]
  constructor
  · exact hback
  · exact applyWrites_usbWriteUnalignedStores pma addr bytes
  · exact usbWriteUnalignedStores_addresses addr bytes
  · rw [usbRxPmaReadStores_eq, storesFrom_values, hback]
  · rw [usbRxPmaReadStores_eq, storesFrom_addresses, hback]

/-- Five bytes at address 64. -/
theorem packet_copies_back_five :
    CopiesBack (fun _ => 0xFFFFFFFF#32) 64 0 [1#8, 2#8, 3#8, 4#8, 5#8] :=
  packet_copies_back _ rfl 0 _

end PcbMill
