import PcbMill.Core.PersistedConfig
import PcbMill.Lib.FixedWidth
import PcbMill.Lib.Spans

/-!
# Blocks with a checksum in the EEPROM

`memcpy_to_eeprom_with_checksum` stores a block and its checksum one after the other, and
`memcpy_from_eeprom_with_checksum` reads both back.  The prototype of `eeprom_get_char_hal` has no
parameter, and `eeprom_get_char` calls it without its address.  The driver then takes for the
address what it finds in the place of the argument.
-/

namespace PcbMill

open DurableWrites FixedWidth Spans

/-- The driver: `mem_addr` has 16 bits. -/
def eepromGetCharHal (m : Eeprom) (addr : ℕ) : Byte := at24c32ReadByte m (addr % 2 ^ 16)

def eepromPutCharHal (m : Eeprom) (addr : ℕ) (newValue : Byte) : Eeprom :=
  at24c32WriteByte m (addr % 2 ^ 16) newValue

/-- `eeprom_get_char` calls the driver without `addr`, and the driver finds `argument`. -/
def eepromGetChar (m : Eeprom) (argument : BitVec 32) (_addr : ℕ) : Byte :=
  eepromGetCharHal m argument.toNat

def eepromPutChar (m : Eeprom) (addr : ℕ) (newValue : Byte) : Eeprom :=
  eepromPutCharHal m addr newValue

/-- The two statements that take a byte into the checksum. -/
def checksumAdd (checksum data : Byte) : Byte := (checksum <<< 1 ||| checksum >>> 7) + data

/-- `memcpy_to_eeprom_with_checksum` from its loop on. -/
def memcpyToLoop (m : Eeprom) (destination : ℕ) (checksum : Byte) : List Byte → Eeprom
  | [] => eepromPutChar m destination checksum
  | b :: source =>
    memcpyToLoop (eepromPutChar m destination b) (add32 destination 1) (checksumAdd checksum b)
      source

def memcpyToEepromWithChecksum (m : Eeprom) (destination : ℕ) (source : List Byte) : Eeprom :=
  memcpyToLoop m destination 0#8 source

/-- `memcpy_from_eeprom_with_checksum` from its loop on, with the calls of `eeprom_get_char`
counted by `call`. -/
def memcpyFromLoop (m : Eeprom) (argument : ℕ → BitVec 32) (call source : ℕ) (checksum : Byte)
    (destination : List Byte) : ℕ → Bool × List Byte
  | 0 => (decide (checksum = eepromGetChar m (argument call) source), destination)
  | size + 1 =>
    let data := eepromGetChar m (argument call) source
    memcpyFromLoop m argument (call + 1) (add32 source 1) (checksumAdd checksum data)
      (destination ++ [data]) size

def memcpyFromEepromWithChecksum (m : Eeprom) (argument : ℕ → BitVec 32) (source size : ℕ) :
    Bool × List Byte :=
  memcpyFromLoop m argument 0 source 0#8 [] size

/-! ### Records -/

/-- A block and its checksum. -/
def checksumRecord (block : List Byte) : List Byte := block ++ [block.foldl checksumAdd 0#8]

/-- The cells of a block at `addr`. -/
def recordSpan (addr : ℕ) (block : List Byte) : Span := { start := addr, size := block.length + 1 }

/-- Blocks written one after another, each at its address. -/
def writeBlocks (m : Eeprom) (blocks : List (ℕ × List Byte)) : Eeprom :=
  blocks.foldl (fun m b => memcpyToEepromWithChecksum m b.1 b.2) m

variable {m : Eeprom} {addr : ℕ} {block : List Byte} {blocks : List (ℕ × List Byte)}

theorem eepromPutChar_eq (m : Eeprom) {addr : ℕ} (h : addr < 2 ^ 16) (b : Byte) :
    eepromPutChar m addr b = Function.update m addr b := by
  simp only [eepromPutChar, eepromPutCharHal]
  rw [Nat.mod_eq_of_lt h]
  rfl

/-- The loop stores what is left of the block and then the checksum of all of it. -/
theorem memcpyToLoop_eq (source : List Byte) :
    ∀ (m : Eeprom) (destination : ℕ) (checksum : Byte), destination + source.length < 2 ^ 16 →
      memcpyToLoop m destination checksum source =
        applyWrites m (storesFrom destination (source ++ [source.foldl checksumAdd checksum])) := by
  induction source with
  | nil =>
    intro m destination checksum h
    rw [List.length_nil, Nat.add_zero] at h
    rw [memcpyToLoop, eepromPutChar_eq m h]
    rfl
  | cons b source ih =>
    intro m destination checksum h
    rw [List.length_cons] at h
    rw [memcpyToLoop, eepromPutChar_eq m (by omega), add32_of_lt (by omega), ih _ _ _ (by omega),
      List.foldl_cons, List.cons_append, storesFrom, applyWrites_cons]

theorem memcpyTo_eq (m : Eeprom) (h : addr + block.length < 2 ^ 16) :
    memcpyToEepromWithChecksum m addr block =
      applyWrites m (storesFrom addr (checksumRecord block)) :=
  memcpyToLoop_eq block m addr 0#8 h

theorem checksumRecord_length (block : List Byte) :
    (checksumRecord block).length = block.length + 1 := by
  rw [checksumRecord, List.length_append, List.length_singleton]

theorem memcpyTo_getElem (m : Eeprom) (h : addr + block.length < 2 ^ 16) {i : ℕ}
    (hi : i < (checksumRecord block).length) :
    memcpyToEepromWithChecksum m addr block (addr + i) = (checksumRecord block)[i] := by
  rw [memcpyTo_eq m h, applyWrites_storesFrom_getElem]

theorem memcpyTo_of_not_mem (m : Eeprom) (h : addr + block.length < 2 ^ 16) {i : ℕ}
    (hi : i ∉ (recordSpan addr block).addresses) :
    memcpyToEepromWithChecksum m addr block i = m i := by
  rw [memcpyTo_eq m h]
  apply applyWrites_storesFrom_of_outside
  rw [checksumRecord_length]
  simp only [Span.addresses, Span.stop, recordSpan, Set.mem_Ico, not_and_or, not_le, not_lt] at hi
  exact hi

/-- Blocks apart from a cell leave it as it is. -/
theorem writeBlocks_of_not_mem (blocks : List (ℕ × List Byte)) :
    ∀ (m : Eeprom) {i : ℕ}, (∀ b ∈ blocks, b.1 + b.2.length < 2 ^ 16) →
      (∀ b ∈ blocks, i ∉ (recordSpan b.1 b.2).addresses) → writeBlocks m blocks i = m i := by
  induction blocks with
  | nil => exact fun _ _ _ _ => rfl
  | cons b blocks ih =>
    intro m i hfit hmem
    rw [List.forall_mem_cons] at hfit hmem
    rw [writeBlocks, List.foldl_cons, ← writeBlocks, ih _ hfit.2 hmem.2,
      memcpyTo_of_not_mem m hfit.1 hmem.1]

/-- The record is still there after blocks at other cells. -/
theorem writeBlocks_getElem (m : Eeprom) (h : addr + block.length < 2 ^ 16)
    (hfit : ∀ b ∈ blocks, b.1 + b.2.length < 2 ^ 16)
    (hapart : ∀ b ∈ blocks, (recordSpan addr block).Apart (recordSpan b.1 b.2)) {i : ℕ}
    (hi : i < (checksumRecord block).length) :
    writeBlocks (memcpyToEepromWithChecksum m addr block) blocks (addr + i) =
      (checksumRecord block)[i] := by
  rw [writeBlocks_of_not_mem blocks _ hfit, memcpyTo_getElem m h hi]
  intro b hb hmem
  have hown : addr + i ∈ (recordSpan addr block).addresses := by
    rw [checksumRecord_length] at hi
    simp only [Span.addresses, Span.stop, recordSpan, Set.mem_Ico]
    omega
  exact Set.disjoint_left.mp (Span.apart_iff.mp (hapart b hb)) hown hmem

/-! ### Reading back -/

/-- What the calls of `eeprom_get_char` from `call` on return. -/
def charsRead (m : Eeprom) (argument : ℕ → BitVec 32) (call size : ℕ) : List Byte :=
  (List.range' call size).map fun k => m ((argument k).toNat % 2 ^ 16)

theorem charsRead_succ (m : Eeprom) (argument : ℕ → BitVec 32) (call size : ℕ) :
    charsRead m argument call (size + 1) =
      m ((argument call).toNat % 2 ^ 16) :: charsRead m argument (call + 1) size := by
  rw [charsRead, List.range'_succ, List.map_cons, charsRead]

theorem memcpyFromLoop_eq (m : Eeprom) (argument : ℕ → BitVec 32) (size : ℕ) :
    ∀ (call source : ℕ) (checksum : Byte) (destination : List Byte),
      memcpyFromLoop m argument call source checksum destination size =
        (decide ((charsRead m argument call size).foldl checksumAdd checksum =
            m ((argument (call + size)).toNat % 2 ^ 16)),
          destination ++ charsRead m argument call size) := by
  induction size with
  | zero =>
    intro call source checksum destination
    rw [charsRead, List.range'_zero, List.map_nil, List.append_nil]
    rfl
  | succ size ih =>
    intro call source checksum destination
    rw [memcpyFromLoop, ih, charsRead_succ, List.foldl_cons, List.append_assoc, Nat.add_right_comm]
    rfl

/-- The copy succeeds with the block exactly when the calls return its record. -/
theorem memcpyFrom_eq_iff (m : Eeprom) (argument : ℕ → BitVec 32) (addr : ℕ) (block : List Byte) :
    memcpyFromEepromWithChecksum m argument addr block.length = (true, block) ↔
      charsRead m argument 0 (block.length + 1) = checksumRecord block := by
  have hlength : (charsRead m argument 0 block.length).length = block.length := by
    rw [charsRead, List.length_map, List.length_range']
  have hchars : charsRead m argument 0 (block.length + 1) =
      charsRead m argument 0 block.length ++
        [m ((argument block.length).toNat % 2 ^ 16)] := by
    rw [charsRead, List.range'_1_concat, List.map_append, List.map_singleton, Nat.zero_add]
    rfl
  rw [memcpyFromEepromWithChecksum, memcpyFromLoop_eq, List.nil_append, Nat.zero_add, hchars,
    checksumRecord, Prod.mk.injEq, decide_eq_true_eq]
  constructor
  · rintro ⟨hsum, hblock⟩
    rw [hblock] at hsum ⊢
    rw [hsum]
  · intro h
    obtain ⟨hblock, hsum⟩ := List.append_inj h hlength
    rw [hblock]
    exact ⟨(List.singleton_inj.mp hsum).symm, rfl⟩

theorem charsRead_eq_iff (m : Eeprom) (argument : ℕ → BitVec 32) (size : ℕ) (bytes : List Byte)
    (h : bytes.length = size) :
    charsRead m argument 0 size = bytes ↔
      ∀ (i : ℕ) (hi : i < bytes.length), m ((argument i).toNat % 2 ^ 16) = bytes[i] := by
  subst h
  rw [List.ext_getElem_iff, charsRead]
  simp

/-- **A block copied to the EEPROM is copied back** exactly when every call of `eeprom_get_char`
happens on a cell with the content of the one it is called for, as on that cell itself. -/
theorem eeprom_copied_back_iff (m : Eeprom) (argument : ℕ → BitVec 32) (addr : ℕ)
    (block : List Byte) (blocks : List (ℕ × List Byte)) (hfit : addr + block.length < 2 ^ 16)
    (hfits : ∀ b ∈ blocks, b.1 + b.2.length < 2 ^ 16)
    (hapart : ∀ b ∈ blocks, (recordSpan addr block).Apart (recordSpan b.1 b.2)) :
    memcpyFromEepromWithChecksum
        (writeBlocks (memcpyToEepromWithChecksum m addr block) blocks) argument addr
        block.length = (true, block) ↔
      ∀ i ≤ block.length,
        writeBlocks (memcpyToEepromWithChecksum m addr block) blocks
            ((argument i).toNat % 2 ^ 16) =
          writeBlocks (memcpyToEepromWithChecksum m addr block) blocks (addr + i) := by
  rw [memcpyFrom_eq_iff, charsRead_eq_iff _ _ _ _ (checksumRecord_length block)]
  constructor
  · intro h i hi
    have hrecord : i < (checksumRecord block).length := by
      rw [checksumRecord_length]
      omega
    rw [h i hrecord, writeBlocks_getElem m hfit hfits hapart hrecord]
  · intro h i hi
    rw [h i (by rw [checksumRecord_length] at hi; omega),
      writeBlocks_getElem m hfit hfits hapart hi]

/-- With the addresses still where the driver looks for its argument. -/
theorem eeprom_copied_back_iff_address :
    memcpyFromEepromWithChecksum
        (writeBlocks (memcpyToEepromWithChecksum (fun _ => 0#8) 16 [0x2A#8, 7#8]) [(19, [1#8])])
        (fun i => BitVec.ofNat 32 (16 + i)) 16 2 = (true, [0x2A#8, 7#8]) := by
  refine (eeprom_copied_back_iff (fun _ => 0#8) _ 16 [0x2A#8, 7#8] [(19, [1#8])] (by decide)
    (by decide) (by decide)).mpr fun i hi => ?_
  have hlt : i < 3 := Nat.lt_succ_of_le hi
  interval_cases i <;> rfl

/-- With 0 there another cell is read twice, and its 0 is found right. -/
theorem eeprom_copied_back_wrong :
    memcpyFromEepromWithChecksum (memcpyToEepromWithChecksum (fun _ => 0#8) 16 [0x2A#8])
        (fun _ => 0#32) 16 1 = (true, [0#8]) ∧
      memcpyFromEepromWithChecksum (memcpyToEepromWithChecksum (fun _ => 0#8) 16 [0x2A#8])
        (fun _ => 0#32) 16 1 ≠ (true, [0x2A#8]) := by
  decide

end PcbMill
