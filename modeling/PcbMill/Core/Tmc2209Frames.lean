import PcbMill.Core.Tmc2209
import PcbMill.Core.UsartReceive
import PcbMill.Lib.BitSerialCrc

/-!
# The frames the drivers answer with

A call of `tmc2209_read_reg` is followed from the moment it clears the buffers to the moment it
returns, with the bytes the interrupt takes from `RDR` in between.  What it makes of them is a
function of these bytes alone, as long as they leave a place of the receive ring free.
-/

namespace PcbMill

open FixedWidth RingBuffer Run BitSerialCrc

/-! ### The checksum -/

theorem tmc2209CrcBit_eq (c b : Byte) :
    tmc2209CrcBit (c, b) = (crcBit 0x07 c (b.getLsbD 0), b >>> 1) := by
  have htop : ∀ c : Byte, c >>> 7 = if c.msb then 1 else 0 := by decide
  have hbottom : ∀ b : Byte, b &&& 1 = if b.getLsbD 0 then 1 else 0 := by decide
  rw [tmc2209CrcBit, htop, hbottom, crcBit]
  cases c.msb <;> cases b.getLsbD 0 <;> rfl

theorem tmc2209CrcBit_iterate (n : ℕ) (c b : Byte) :
    tmc2209CrcBit^[n] (c, b) = (crcBits 0x07 c ((List.range n).map b.getLsbD), b >>> n) := by
  induction n with
  | zero => simp
  | succ n ih =>
    rw [Function.iterate_succ_apply', ih, tmc2209CrcBit_eq, List.range_succ, List.map_append,
      crcBits_append, ← BitVec.shiftRight_add]
    simp

/-- `tmc2209_crc8` takes the bits of a byte from the least significant on. -/
theorem tmc2209Crc8_eq (data : List Byte) :
    tmc2209Crc8 data = crcBits 0x07 0#8 (data.flatMap lsbFirst) := by
  have hfold : ∀ (data : List Byte) (c : Byte),
      data.foldl (fun crc currentByte => (tmc2209CrcBit^[8] (crc, currentByte)).1) c =
        crcBits 0x07 c (data.flatMap lsbFirst) := by
    intro data
    induction data with
    | nil => exact fun _ => rfl
    | cons b data ih =>
      intro c
      rw [List.foldl_cons, ih, tmc2209CrcBit_iterate, List.flatMap_cons, crcBits_append]
      rfl
  exact hfold data 0

/-! ### Frames -/

/-- The four bytes of a value, the most significant first. -/
def valueBytes (value : BitVec 32) : List Byte :=
  [(value >>> 24).setWidth 8, (value >>> 16).setWidth 8, (value >>> 8).setWidth 8,
    value.setWidth 8]

/-- The frame with which a driver answers. -/
def tmc2209ReplyFrame (reg : Byte) (data : List Byte) : List Byte :=
  tmc2209Datagram ([0x05, 0xFF, reg] ++ data)

/-- The bytes are a frame for the register, with its sync, its address and a right checksum, and
these are its four data bytes. -/
def IsReply (reg : Byte) (data frame : List Byte) : Prop :=
  data.length = 4 ∧ frame = tmc2209ReplyFrame reg data

instance (reg : Byte) (data frame : List Byte) : Decidable (IsReply reg data frame) :=
  inferInstanceAs (Decidable (_ ∧ _))

/-- The checks of `tmc2209_parse_response` on the eight bytes after the echo. -/
def parseFrame (reg : Byte) (frame : List Byte) : Except ParseError (List Byte) :=
  if frame[0]? ≠ some 0x05 then .error .badSync else
  if frame[1]? ≠ some 0xFF then .error .badAddress else
  if frame[2]? ≠ some reg then .error .badRegister else
  let data := (frame.drop 3).take 4
  if frame[7]? ≠ some (tmc2209Crc8 ([0x05, 0xFF, reg] ++ data)) then .error .badCrc else .ok data

theorem parseFrame_eq_ok_iff {reg : Byte} {data frame : List Byte} (hlength : frame.length = 8) :
    parseFrame reg frame = .ok data ↔ IsReply reg data frame := by
  obtain ⟨s, a, r, b₀, b₁, b₂, b₃, c, rfl⟩ :
      ∃ s a r b₀ b₁ b₂ b₃ c, frame = [s, a, r, b₀, b₁, b₂, b₃, c] := by
    match frame, hlength with
    | [s, a, r, b₀, b₁, b₂, b₃, c], _ => exact ⟨s, a, r, b₀, b₁, b₂, b₃, c, rfl⟩
  constructor
  · intro h
    simp only [parseFrame] at h
    split_ifs at h with hs ha hr hc
    simp at hs ha hr hc h
    subst hs ha hr hc h
    exact ⟨rfl, rfl⟩
  · rintro ⟨hdata, hframe⟩
    match data, hdata with
    | [d₀, d₁, d₂, d₃], _ =>
      simp [tmc2209ReplyFrame, tmc2209Datagram] at hframe
      obtain ⟨rfl, rfl, rfl, rfl, rfl, rfl, rfl, rfl⟩ := hframe
      simp [parseFrame]

theorem parseFrame_replyFrame (reg : Byte) {data : List Byte} (hdata : data.length = 4) :
    parseFrame reg (tmc2209ReplyFrame reg data) = .ok data :=
  (parseFrame_eq_ok_iff (by simp [tmc2209ReplyFrame, hdata])).mpr ⟨hdata, rfl⟩

/-- A byte put behind the bits above it. -/
theorem shiftRight_byte (value : BitVec 32) (n : ℕ) :
    (value >>> (n + 8)) <<< 8 ||| ((value >>> n).setWidth 8).setWidth 32 = value >>> n := by
  refine BitVec.eq_of_getLsbD_eq fun i hi => ?_
  simp only [BitVec.getLsbD_or, BitVec.getLsbD_shiftLeft, BitVec.getLsbD_ushiftRight,
    BitVec.getLsbD_setWidth]
  by_cases hlow : i < 8
  · simp [hi, hlow]
  · simp [hi, hlow, show n + 8 + (i - 8) = n + i by omega]

/-- The value comes back from its bytes. -/
theorem tmc2209Value_valueBytes (value : BitVec 32) :
    tmc2209Value (.ok (valueBytes value)) = value := by
  have htop : (0 : BitVec 32) = value >>> (24 + 8) := (BitVec.ushiftRight_eq_zero le_rfl).symm
  have hlast : value.setWidth 8 = (value >>> 0).setWidth 8 := by simp
  simp only [tmc2209Value, valueBytes, List.foldl_cons, List.foldl_nil]
  rw [htop, shiftRight_byte value 24, shiftRight_byte value 16, shiftRight_byte value 8, hlast,
    shiftRight_byte value 0, BitVec.ushiftRight_zero]

/-! ### Reading the ring -/

/-- The receive ring has the bytes of `q` and a place left, so that its indices tell. -/
structure UsartInstance.Holding (u : UsartInstance) (q : List Byte) : Prop where
  holds : u.RingHolds q
  room : q.length < u.rxBufferSize

variable {u u' : UsartInstance} {q : List Byte} {b : Byte}

theorem usartReadByte_of_ne (h : u.rxBufferTail ≠ u.rxBufferHead) : usartReadByte u =
    (u.rxBuffer u.rxBufferTail,
      { u with rxBufferTail := next u.rxBufferSize u.rxBufferTail, rxCount := sub32 u.rxCount 1,
               hal := { u.hal with rxneie := true } }) := by
  have hne : (u.setRxneie false).rxBufferTail ≠ (u.setRxneie false).rxBufferHead := h
  simp only [usartReadByte, usartRead]
  rw [if_pos hne, BitVec.ofInt_natCast, BitVec.ofNat_toNat, BitVec.setWidth_eq]
  rfl

/-- A ring filled to its last place reads as empty, and every byte read of it is `0xFF`. -/
theorem usartReadByte_of_eq (h : u.rxBufferTail = u.rxBufferHead) : usartReadByte u =
    (0xFF, { u with rxCount := 0, hal := { u.hal with rxneie := true } }) := by
  have hnot : ¬ (u.setRxneie false).rxBufferTail ≠ (u.setRxneie false).rxBufferHead := not_not.mpr h
  simp only [usartReadByte, usartRead]
  rw [if_neg hnot]
  rfl

theorem UsartInstance.Holding.usartReadByte (h : u.Holding (b :: q)) :
    (usartReadByte u).1 = b ∧ (usartReadByte u).2.Holding q := by
  have hne : u.rxBufferTail ≠ u.rxBufferHead :=
    (h.holds.tail_ne_head_iff (.inr h.room)).mpr (List.cons_ne_nil b q)
  obtain ⟨hbyte, hrest⟩ := h.holds.pop
  have hroom := h.room
  rw [List.length_cons] at hroom
  rw [usartReadByte_of_ne hne]
  exact ⟨hbyte, hrest, show q.length < u.rxBufferSize by omega⟩

theorem UsartInstance.Holding.usartReadBytes (bs : List Byte) :
    ∀ {u : UsartInstance}, u.Holding (bs ++ q) →
      (usartReadBytes bs.length u).1 = bs ∧ (usartReadBytes bs.length u).2.Holding q := by
  induction bs with
  | nil => exact fun h => ⟨rfl, h⟩
  | cons b bs ih =>
    intro u h
    obtain ⟨hbyte, hnext⟩ := h.usartReadByte
    obtain ⟨hbytes, hrest⟩ := ih hnext
    exact ⟨congrArg₂ List.cons hbyte hbytes, hrest⟩

/-- What is parsed are the eight bytes behind the echo. -/
theorem UsartInstance.Holding.tmc2209ParseResponse {echo frame : List Byte} (reg : Byte)
    (h : u.Holding (echo ++ (frame ++ q))) (hframe : frame.length = 8)
    (hcount : echo.length + 8 ≤ u.rxCount) :
    (tmc2209ParseResponse u echo.length reg).1 = parseFrame reg frame := by
  match frame, hframe with
  | [s, a, r, b₀, b₁, b₂, b₃, c], _ =>
    obtain ⟨-, hecho⟩ := UsartInstance.Holding.usartReadBytes echo h
    obtain ⟨hs, hsync⟩ := hecho.usartReadByte
    obtain ⟨ha, haddr⟩ := hsync.usartReadByte
    obtain ⟨hr, hregister⟩ := haddr.usartReadByte
    obtain ⟨hdata, hvalue⟩ := UsartInstance.Holding.usartReadBytes [b₀, b₁, b₂, b₃] hregister
    obtain ⟨hc, -⟩ := hvalue.usartReadByte
    change (PcbMill.usartReadBytes 4 _).1 = _ at hdata
    change (PcbMill.usartReadByte (PcbMill.usartReadBytes 4 _).2).1 = _ at hc
    rw [PcbMill.tmc2209ParseResponse, if_neg (by omega)]
    simp only [hs, ha, hr, hdata, hc, parseFrame]
    split_ifs <;> simp_all

theorem usartReadBytes_of_eq (n : ℕ) : ∀ {u : UsartInstance}, u.rxBufferTail = u.rxBufferHead →
    (usartReadBytes n u).2.rxBufferTail = (usartReadBytes n u).2.rxBufferHead := by
  induction n with
  | zero => exact fun h => h
  | succ n ih =>
    intro u h
    refine ih ?_
    rw [usartReadByte_of_eq h]
    exact h

/-- In a full ring no frame is found. -/
theorem tmc2209ParseResponse_of_eq (h : u.rxBufferTail = u.rxBufferHead) (sentCount : ℕ)
    (reg : Byte) : ∃ e, (tmc2209ParseResponse u sentCount reg).1 = .error e := by
  have hsync : (usartReadByte (usartReadBytes sentCount u).2).1 ≠ 0x05 := by
    rw [usartReadByte_of_eq (usartReadBytes_of_eq sentCount h)]
    exact (by decide : (0xFF : Byte) ≠ 0x05)
  rw [tmc2209ParseResponse]
  split_ifs
  · exact ⟨_, rfl⟩
  · dsimp only
    rw [if_pos hsync]
    exact ⟨_, rfl⟩

/-! ### Bytes received -/

/-- The byte an event on the line brings into the ring. -/
def LineEvent.takes (u : UsartInstance) : LineEvent → List Byte
  | .irq => irqTakes u
  | _ => []

/-- The bytes the interrupt takes while the line goes on. -/
def lineTakes : UsartInstance → List LineEvent → List Byte
  | _, [] => []
  | u, e :: es => e.takes u ++ lineTakes (lineStep u e) es

/-- The receive ring and the count have the bytes of `q`. -/
structure UsartInstance.Counting (u : UsartInstance) (q : List Byte) : Prop where
  size : u.rxBufferSize = 16
  holds : u.RingHolds q
  count : u.rxCount = q.length

theorem UsartInstance.Counting.of_same (h : u.Counting q) (hsame : u.SameReceive u') :
    u'.Counting q :=
  ⟨hsame.size.trans h.size, h.holds.of_same hsame, hsame.count.trans h.count⟩

theorem UsartInstance.Counting.length_le (h : u.Counting q) : q.length ≤ 16 :=
  h.size ▸ h.holds.length_le

theorem UsartInstance.Counting.lineStep (h : u.Counting q) (e : LineEvent)
    (hroom : (q ++ e.takes u).length ≤ 16) :
    (PcbMill.lineStep u e).Counting (q ++ e.takes u) := by
  by_cases hirq : e = .irq
  · subst hirq
    simp only [LineEvent.takes] at hroom ⊢
    obtain ⟨htakes, hsame⟩ | ⟨b, htakes, hreceived⟩ := lineStep_irq_receive u
    · rw [htakes, List.append_nil]
      exact h.of_same hsame
    · rw [htakes] at hroom ⊢
      rw [List.length_append, List.length_singleton] at hroom
      refine ⟨hreceived.size.trans h.size, h.holds.received hreceived (by rw [h.size]; omega), ?_⟩
      rw [hreceived.count, h.count, List.length_append, List.length_singleton]
      exact add32_of_lt (by omega)
  · have htakes : e.takes u = [] := by cases e <;> first | rfl | exact absurd rfl hirq
    rw [htakes, List.append_nil]
    exact h.of_same (sameReceive_lineStep hirq)

theorem UsartInstance.Counting.lineSteps (es : List LineEvent) :
    ∀ {u : UsartInstance} {q : List Byte}, u.Counting q → (q ++ lineTakes u es).length ≤ 16 →
      (runFrom PcbMill.lineStep u es).Counting (q ++ lineTakes u es) := by
  induction es with
  | nil =>
    intro u q h _
    rw [lineTakes, List.append_nil]
    exact h
  | cons e es ih =>
    intro u q h hlength
    rw [lineTakes, ← List.append_assoc] at hlength ⊢
    refine ih (h.lineStep e ?_) hlength
    exact le_trans (by simp) hlength

/-- The bytes arrive one after another, each taken before the next. -/
def receiveAll (bs : List Byte) : List LineEvent := bs.flatMap fun b => [.receive b, .irq]

theorem counting_serialBuffer (txBuffer rxBuffer : ℕ → Byte) :
    (tmc2209Uart4Init (serialBuffer txBuffer rxBuffer)).Counting [] := ⟨rfl, Holds.zero _ _, rfl⟩

theorem UsartInstance.Counting.holding (h : u.Counting q) (hroom : q.length < 16) :
    u.Holding q := ⟨h.holds, h.size.symm ▸ hroom⟩

theorem UsartInstance.Counting.tail_eq_head (h : u.Counting q) (hfull : q.length = 16) :
    u.rxBufferTail = u.rxBufferHead := by
  have htail := h.holds.inRing.tail_lt
  rw [h.holds.head_eq, hfull, h.size, Nat.add_mod_right, Nat.mod_eq_of_lt]
  rw [h.size] at htail
  omega

end PcbMill
