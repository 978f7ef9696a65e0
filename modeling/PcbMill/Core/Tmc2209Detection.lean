import PcbMill.Core.Tmc2209Frames

/-!
# What the checksum of a frame detects

A frame that was corrupted and is accepted has an error that is itself a datagram: the checksum
of the flipped bits of the first seven bytes is the flipped bits of the eighth.  The polynomial
`0x107` has an even number of terms, and a one comes round to itself only after 127 shifts.
-/

namespace PcbMill

open RingBuffer BitSerialCrc

/-- The bytes with the bits of the error flipped. -/
def flipBits (bytes error : List Byte) : List Byte := List.zipWith (· ^^^ ·) bytes error

/-- The corruptions of a frame the checksum is meant for. -/
inductive Detectable (error : List Byte) : Prop
  | odd (h : Odd ((error.flatMap lsbFirst).count true))
  | few (h : (error.flatMap lsbFirst).count true = 1 ∨ (error.flatMap lsbFirst).count true = 2)
  /-- Flipped bits within eight consecutive ones, none of them in the checksum. -/
  | burst (k : ℕ) (h : Burst (error.flatMap lsbFirst) k 8) (hcovered : error[7]? = some 0)
      (hsome : ∃ b ∈ error, b ≠ 0)

variable {body error : List Byte} {c : Byte}

/-- **Linearity.** -/
theorem tmc2209Crc8_flipBits {data data' : List Byte} (h : data.length = data'.length) :
    tmc2209Crc8 (flipBits data data') = tmc2209Crc8 data ^^^ tmc2209Crc8 data' := by
  have hbits : (data.flatMap lsbFirst).length = (data'.flatMap lsbFirst).length := by
    rw [flatMap_lsbFirst_length, flatMap_lsbFirst_length, h]
  have hxor := crcBits_xor 0x07#8 0#8 0#8 hbits
  rw [BitVec.xor_self] at hxor
  rw [tmc2209Crc8_eq, tmc2209Crc8_eq, tmc2209Crc8_eq, flipBits, flatMap_lsbFirst_xor h]
  exact hxor

theorem flipBits_datagram (h : body.length = error.length) :
    flipBits (tmc2209Datagram body) (error ++ [c]) =
      flipBits body error ++ [tmc2209Crc8 body ^^^ c] := by
  rw [flipBits, tmc2209Datagram, List.zipWith_append h]
  rfl

/-- A corrupted datagram that is one again differs from it by a datagram. -/
theorem crc_error_of_datagram {body' : List Byte} (h : body.length = error.length)
    (hlength : body'.length = error.length)
    (hframe : flipBits (tmc2209Datagram body) (error ++ [c]) = tmc2209Datagram body') :
    tmc2209Crc8 error = c := by
  rw [flipBits_datagram h, tmc2209Datagram] at hframe
  have hflip : (flipBits body error).length = body'.length := by simp [flipBits, h, hlength]
  obtain ⟨hbody, hcrc⟩ := List.append_inj hframe hflip
  rw [← hbody, tmc2209Crc8_flipBits h] at hcrc
  exact (BitVec.xor_right_inj _).mp (List.singleton_inj.mp hcrc).symm

/-- A one comes back to itself after 127 shifts, and a frame has 64 bits. -/
theorem zeros_one_ne : ∀ n < 64, 0 < n → zeros 0x07#8 n 1#8 ≠ 1#8 := by decide +kernel

/-- None of these corruptions is a datagram. -/
theorem Detectable.crc_ne (h : Detectable (error ++ [c])) (hlength : error.length = 7) :
    tmc2209Crc8 error ≠ c := by
  intro hcrc
  rw [tmc2209Crc8_eq] at hcrc
  change crcBits 0x07#8 0#8 (error.flatMap lsbFirst) = c at hcrc
  have hbits : (error.flatMap lsbFirst).length = 56 := by rw [flatMap_lsbFirst_length, hlength]
  have hcount : ((error ++ [c]).flatMap lsbFirst).count true =
      (error.flatMap lsbFirst).count true + (lsbFirst c).count true := by
    simp [List.flatMap_append]
  have heven : ((error ++ [c]).flatMap lsbFirst).count true % 2 = 0 := by
    have hparity := count_crcBits (p := 0x07#8) (by decide) (error.flatMap lsbFirst) 0#8
    rw [hcrc, lsbFirst_zero, List.count_replicate] at hparity
    simp only [beq_iff_eq, Bool.false_eq_true, if_false] at hparity
    omega
  cases h with
  | odd h =>
    rw [Nat.odd_iff] at h
    omega
  | few h =>
    obtain h | h := h
    · omega
    · rw [hcount] at h
      obtain ⟨n, hpos, hlt, hperiod⟩ := exists_period_of_count_two (p := 0x07#8) (by decide) hcrc h
      rw [hbits] at hlt
      exact zeros_one_ne n hlt hpos hperiod
  | burst k h hcovered hsome =>
    have hzero : c = 0 := by simpa [List.getElem?_append_right, hlength] using hcovered
    subst hzero
    have hburst : Burst (error.flatMap lsbFirst) k 8 := by
      intro i hi
      refine h i ?_
      rw [List.flatMap_append, List.getElem?_append_left (List.getElem?_eq_some_iff.mp hi).1, hi]
    have hnone := hburst.eq_false (by decide) le_rfl hcrc
    obtain ⟨b, hb, hne⟩ := hsome
    obtain hb | hb : b ∈ error ∨ b = 0 := by simpa using hb
    · refine hne (eq_zero_of_count_zero (List.count_eq_zero.mpr fun htrue => ?_))
      exact absurd (hnone true (List.mem_flatMap.mpr ⟨b, hb, htrue⟩)) (by decide)
    · exact hne hb

/-- A corrupted reply is a reply to no request. -/
theorem Detectable.not_isReply (h : Detectable error) (hlength : error.length = 8)
    (reg reg' : Byte) {data data' : List Byte} (hdata : data.length = 4) :
    ¬ IsReply reg' data' (flipBits (tmc2209ReplyFrame reg data) error) := by
  rintro ⟨hdata', hframe⟩
  obtain rfl | ⟨front, c, rfl⟩ := List.eq_nil_or_concat' error
  · simp at hlength
  · have hfront : front.length = 7 := by simpa using hlength
    have hbody : ([0x05, 0xFF, reg] ++ data).length = front.length := by simp [hdata, hfront]
    have hbody' : ([0x05, 0xFF, reg'] ++ data').length = front.length := by simp [hdata', hfront]
    exact h.crc_ne hfront (crc_error_of_datagram hbody hbody' hframe)

variable {u : UsartInstance}

/-- What is not a reply is not accepted, wherever in the ring it is. -/
theorem rejects_of_not_isReply {echo frame rest : List Byte} {reg : Byte}
    (hring : u.RingHolds (echo ++ (frame ++ rest))) (hframe : frame.length = 8)
    (hnot : ∀ data, ¬ IsReply reg data frame) :
    ∃ e, (tmc2209ParseResponse u echo.length reg).1 = .error e := by
  by_cases hshort : u.rxCount < echo.length + 8
  · exact ⟨.notEnoughData, by rw [tmc2209ParseResponse, if_pos hshort]⟩
  obtain hroom | hfull := hring.length_le.lt_or_eq
  · have hholding : u.Holding (echo ++ (frame ++ rest)) := ⟨hring, hroom⟩
    rw [hholding.tmc2209ParseResponse reg hframe (by omega)]
    cases hparse : parseFrame reg frame with
    | error e => exact ⟨e, rfl⟩
    | ok data => exact absurd ((parseFrame_eq_ok_iff hframe).mp hparse) (hnot data)
  · refine tmc2209ParseResponse_of_eq ?_ echo.length reg
    have htail := hring.inRing.tail_lt
    rw [hring.head_eq, hfull, Nat.add_mod_right, Nat.mod_eq_of_lt]
    have hpos : 0 < (echo ++ (frame ++ rest)).length := by simp [hframe]
    omega

/-- **Error detection.**  The checksum is linear, and every such corruption of a valid frame is
rejected, whatever register is asked for, wherever in the ring the frame is and whatever comes
before and behind it. -/
theorem tmc2209_crc_detection :
    (∀ data data' : List Byte, data.length = data'.length →
      tmc2209Crc8 (flipBits data data') = tmc2209Crc8 data ^^^ tmc2209Crc8 data') ∧
    ∀ (u : UsartInstance) (reg reg' : Byte) (data error echo rest : List Byte),
      data.length = 4 → error.length = 8 → Detectable error →
      u.RingHolds (echo ++ (flipBits (tmc2209ReplyFrame reg data) error ++ rest)) →
        ∃ e, (tmc2209ParseResponse u echo.length reg').1 = .error e := by
  constructor
  · exact fun data data' h => tmc2209Crc8_flipBits h
  · intro u reg reg' data error echo rest hdata hlength herror hring
    refine rejects_of_not_isReply hring ?_ fun data' => ?_
    · simp [flipBits, tmc2209ReplyFrame, hdata, hlength]
    · exact herror.not_isReply hlength reg reg' hdata

/-- Two bits of a data byte flipped on the way. -/
theorem tmc2209_crc_detection_two_bits :
    tmc2209Crc8 (flipBits [0x05, 0xff] [0x00, 0x81]) =
      tmc2209Crc8 [0x05, 0xff] ^^^ tmc2209Crc8 [0x00, 0x81] ∧
    ∃ e, (tmc2209ParseResponse (Run.runFrom lineStep
      (tmc2209Uart4Init (serialBuffer (fun _ => 0) fun _ => 0)) (receiveAll
        (tmc2209ReadPacket 0x02 0x02 ++ flipBits (tmc2209ReplyFrame 0x02 [0x00, 0x00, 0x00, 0x01])
          [0x00, 0x00, 0x00, 0x81, 0x00, 0x00, 0x00, 0x00]))) 4 0x02).1 = .error e := by
  obtain ⟨hlinear, hrejects⟩ := tmc2209_crc_detection
  refine ⟨hlinear _ _ rfl, hrejects _ 0x02 0x02 [0x00, 0x00, 0x00, 0x01]
    [0x00, 0x00, 0x00, 0x81, 0x00, 0x00, 0x00, 0x00] (tmc2209ReadPacket 0x02 0x02) [] rfl rfl
    (.few (by decide)) ?_⟩
  have hcounting := (counting_serialBuffer (fun _ => 0) fun _ => 0).lineSteps (receiveAll
    (tmc2209ReadPacket 0x02 0x02 ++ flipBits (tmc2209ReplyFrame 0x02 [0x00, 0x00, 0x00, 0x01])
      [0x00, 0x00, 0x00, 0x81, 0x00, 0x00, 0x00, 0x00])) (by decide +kernel)
  convert hcounting.holds using 1
  decide +kernel

end PcbMill
