import PcbMill.Core.Tmc2209Drivers

/-!
# The other reader of `GCONF` (`grbl-ext`)

The firmware in `grbl-ext` receives into a flat buffer, parses the reply where it lies, and its
`main` assembles the register from the data bytes.  It accepts the same sequences, and takes the
bytes in the other order.
-/

namespace PcbMill

open RingBuffer

namespace GrblExt

/-- `rx_buf` and `rx_index`. -/
structure Uart where
  rxBuf : ℕ → Byte
  rxIndex : ℕ

/-- `RX_BUF_SIZE` -/
def rxBufSize : ℕ := 64

/-- `USART3_4_LPUART1_IRQHandler`, with a byte in `RDR`. -/
def irqHandler (u : Uart) (b : Byte) : Uart :=
  { rxBuf := Function.update u.rxBuf u.rxIndex b
    rxIndex := if rxBufSize ≤ u.rxIndex + 1 then 0 else u.rxIndex + 1 }

/-- The bytes received since the start, when `rx_index` is zero. -/
def received (rxBuf : ℕ → Byte) (bs : List Byte) : Uart :=
  bs.foldl irqHandler { rxBuf := rxBuf, rxIndex := 0 }

def tmcCrc8 (data : List Byte) : Byte :=
  data.foldl (fun crc currentByte => (tmc2209CrcBit^[8] (crc, currentByte)).1) 0

/-- The bytes of the buffer from an index on. -/
def Uart.bytes (u : Uart) (start length : ℕ) : List Byte :=
  (List.range length).map fun i => u.rxBuf (start + i)

def tmc2209ParseReply (u : Uart) (sentCount : ℕ) : Except ParseError (List Byte) :=
  if u.rxIndex < 8 + sentCount then .error .notEnoughData else
  if u.rxBuf (0 + sentCount) ≠ 0x05 then .error .badSync else
  if u.rxBuf (1 + sentCount) ≠ 0xFF then .error .badAddress else
  if u.rxBuf (2 + sentCount) ≠ 0x00 then .error .badRegister else
  if u.rxBuf (7 + sentCount) ≠ tmcCrc8 (u.bytes sentCount 7) then .error .badCrc else
  .ok ((List.range 4).map fun i => u.rxBuf (3 + i + sentCount))

/-- The value `main` assembles of the data bytes: the first is the least significant. -/
def gconf (data : List Byte) : BitVec 32 :=
  (data.getD 0 0).setWidth 32 ||| (data.getD 1 0).setWidth 32 <<< 8 |||
    (data.getD 2 0).setWidth 32 <<< 16 ||| (data.getD 3 0).setWidth 32 <<< 24

/-! ### The same acceptance -/

theorem received_append (rxBuf : ℕ → Byte) (bs : List Byte) (b : Byte) :
    received rxBuf (bs ++ [b]) = irqHandler (received rxBuf bs) b := by
  rw [received, List.foldl_append]
  rfl

/-- What has not yet gone round the buffer lies in it in order. -/
theorem received_spec (rxBuf : ℕ → Byte) (bs : List Byte) (h : bs.length < rxBufSize) :
    (received rxBuf bs).rxIndex = bs.length ∧
      ∀ i (hi : i < bs.length), (received rxBuf bs).rxBuf i = bs[i] := by
  induction bs using List.reverseRecOn with
  | nil => exact ⟨rfl, fun i hi => absurd hi (Nat.not_lt_zero i)⟩
  | append_singleton bs b ih =>
    rw [List.length_append, List.length_singleton] at h
    obtain ⟨hindex, hcells⟩ := ih (by omega)
    rw [received_append, irqHandler, hindex]
    refine ⟨by simp [show ¬ rxBufSize ≤ bs.length + 1 by omega], fun i hi => ?_⟩
    rw [List.length_append, List.length_singleton] at hi
    by_cases hlast : i = bs.length
    · subst hlast
      simp
    · have hold : i < bs.length := by omega
      show Function.update _ _ _ i = _
      rw [Function.update_of_ne hlast, hcells i hold, List.getElem_append_left hold]

/-- Both firmwares make the same checks of the same bytes. -/
theorem tmc2209ParseReply_eq (rxBuf : ℕ → Byte) {echo frame : List Byte} (hecho : echo.length = 4)
    (hframe : frame.length = 8) :
    tmc2209ParseReply (received rxBuf (echo ++ frame)) 4 = parseFrame tmc2209RegGconf frame := by
  have hlength : (echo ++ frame).length = 12 := by simp [hecho, hframe]
  obtain ⟨hindex, hcells⟩ := received_spec rxBuf (echo ++ frame) (by rw [hlength]; decide)
  have hcell : ∀ i < 8, some ((received rxBuf (echo ++ frame)).rxBuf (i + 4)) = frame[i]? := by
    intro i hi
    rw [hcells (i + 4) (by omega), List.getElem_append_right (by omega)]
    simp [hecho, hframe, hi]
  generalize received rxBuf (echo ++ frame) = u at hindex hcell
  match frame, hframe with
  | [s, a, r, b₀, b₁, b₂, b₃, c], _ =>
    have h₀ := Option.some.inj (hcell 0 (by decide))
    have h₁ := Option.some.inj (hcell 1 (by decide))
    have h₂ := Option.some.inj (hcell 2 (by decide))
    have h₃ := Option.some.inj (hcell 3 (by decide))
    have h₄ := Option.some.inj (hcell 4 (by decide))
    have h₅ := Option.some.inj (hcell 5 (by decide))
    have h₆ := Option.some.inj (hcell 6 (by decide))
    have h₇ := Option.some.inj (hcell 7 (by decide))
    simp only [Nat.reduceAdd] at h₀ h₁ h₂ h₃ h₄ h₅ h₆ h₇
    rw [tmc2209ParseReply, hindex, hlength, if_neg (by decide)]
    simp [Uart.bytes, List.range_succ, h₀, h₁, h₂, h₃, h₄, h₅, h₆, h₇, parseFrame]
    have hcrc : ∀ data, tmcCrc8 data = tmc2209Crc8 data := fun _ => rfl
    have hreg : tmc2209RegGconf = 0#8 := rfl
    rw [hcrc, hreg]
    split_ifs <;> simp_all

/-! ### The two values -/

theorem gconf_eq {data : List Byte} (h : data.length = 4) :
    gconf data = tmc2209Value (.ok data.reverse) := by
  match data, h with
  | [b₀, b₁, b₂, b₃], _ =>
    have hassemble : ∀ x₀ x₁ x₂ x₃ : BitVec 32,
        x₀ ||| x₁ <<< 8 ||| x₂ <<< 16 ||| x₃ <<< 24 =
          ((x₃ <<< 8 ||| x₂) <<< 8 ||| x₁) <<< 8 ||| x₀ := by
      intro x₀ x₁ x₂ x₃
      simp only [BitVec.shiftLeft_or_distrib, ← BitVec.shiftLeft_add, Nat.reduceAdd]
      generalize x₁ <<< 8 = y₁, x₂ <<< 16 = y₂, x₃ <<< 24 = y₃
      ac_rfl
    have hfirst : (0 : BitVec 32) <<< 8 ||| b₃.setWidth 32 = b₃.setWidth 32 := by simp
    simp only [tmc2209Value, List.reverse_cons, List.reverse_nil, List.nil_append,
      List.cons_append, List.foldl_cons, List.foldl_nil]
    rw [hfirst]
    exact hassemble _ _ _ _

end GrblExt

theorem setWidth_shiftLeft_or (v : BitVec 32) (b : Byte) :
    (v <<< 8 ||| b.setWidth 32).setWidth 8 = b := by
  refine BitVec.eq_of_getLsbD_eq fun i hi => ?_
  simp [hi]

theorem shiftRight_shiftLeft_or (v : BitVec 32) (b : Byte) {n : ℕ} (hn : n + 16 ≤ 32) :
    ((v <<< 8 ||| b.setWidth 32) >>> (n + 8)).setWidth 8 = (v >>> n).setWidth 8 := by
  refine BitVec.eq_of_getLsbD_eq fun i hi => ?_
  have hhigh : b.getLsbD (n + 8 + i) = false := BitVec.getLsbD_of_ge _ _ (by omega)
  simp only [BitVec.getLsbD_setWidth, BitVec.getLsbD_ushiftRight, BitVec.getLsbD_or,
    BitVec.getLsbD_shiftLeft, hhigh]
  simp [show n + 8 + i < 32 by omega, show n + 8 + i - 8 = n + i by omega,
    show ¬ n + 8 + i < 8 by omega]

/-- The bytes come back from their value. -/
theorem valueBytes_tmc2209Value {data : List Byte} (h : data.length = 4) :
    valueBytes (tmc2209Value (.ok data)) = data := by
  match data, h with
  | [b₀, b₁, b₂, b₃], _ =>
    simp only [valueBytes, tmc2209Value, List.foldl_cons, List.foldl_nil]
    have hstep := fun (v : BitVec 32) (b : Byte) (n : ℕ) (hn : n + 16 ≤ 32) =>
      shiftRight_shiftLeft_or v b hn
    rw [setWidth_shiftLeft_or, hstep _ _ 16 (by decide), hstep _ _ 8 (by decide),
      hstep _ _ 0 (by decide), hstep _ _ 8 (by decide), hstep _ _ 0 (by decide),
      hstep _ _ 0 (by decide)]
    simp only [BitVec.ushiftRight_zero, setWidth_shiftLeft_or]

/-- The two assemblies give one value exactly for bytes that read the same both ways. -/
theorem GrblExt.gconf_eq_tmc2209Value_iff {data : List Byte} (h : data.length = 4) :
    GrblExt.gconf data = tmc2209Value (.ok data) ↔ data.reverse = data := by
  rw [GrblExt.gconf_eq h]
  constructor
  · intro hvalue
    have hbytes := congrArg valueBytes hvalue
    rwa [valueBytes_tmc2209Value (by simpa using h), valueBytes_tmc2209Value h] at hbytes
  · intro hreverse
    rw [hreverse]

/-- Both firmwares accept what they received or neither does, and the values are the same. -/
def SameGconf (g : GrblExt.Uart) (u : UsartInstance) : Prop :=
  ((∃ data, GrblExt.tmc2209ParseReply g 4 = .ok data) ↔
    ∃ data, (tmc2209ParseResponse u 4 tmc2209RegGconf).1 = .ok data) ∧
  ∀ data data', GrblExt.tmc2209ParseReply g 4 = .ok data →
    (tmc2209ParseResponse u 4 tmc2209RegGconf).1 = .ok data' →
      GrblExt.gconf data = tmc2209Value (.ok data')

variable {u : UsartInstance} {echo frame : List Byte}

/-- What either firmware makes of the bytes, before it assembles the value. -/
theorem parseFrame_of_received (rxBuf : ℕ → Byte) (hecho : echo.length = 4) (hframe : frame.length = 8)
    (hcounting : u.Counting (echo ++ frame)) :
    GrblExt.tmc2209ParseReply (GrblExt.received rxBuf (echo ++ frame)) 4 =
        parseFrame tmc2209RegGconf frame ∧
      (tmc2209ParseResponse u 4 tmc2209RegGconf).1 = parseFrame tmc2209RegGconf frame := by
  refine ⟨GrblExt.tmc2209ParseReply_eq rxBuf hecho hframe, ?_⟩
  rw [hcounting.tmc2209ParseResponse (by simp [hecho, hframe]) tmc2209RegGconf,
    readAnswer_append _ hecho hframe]

/-- **The two readers of `GCONF`** agree on twelve bytes exactly when these carry no value or one
whose bytes read the same both ways. -/
theorem same_gconf_iff (rxBuf : ℕ → Byte) (u : UsartInstance) (echo frame : List Byte)
    (hecho : echo.length = 4) (hframe : frame.length = 8) (hcounting : u.Counting (echo ++ frame)) :
    SameGconf (GrblExt.received rxBuf (echo ++ frame)) u ↔
      ∀ data, IsReply tmc2209RegGconf data frame → data.reverse = data := by
  obtain ⟨hgrbl, hmill⟩ := parseFrame_of_received rxBuf hecho hframe hcounting
  rw [SameGconf, hgrbl, hmill]
  constructor
  · rintro ⟨-, hvalues⟩ data hreply
    have hok := (parseFrame_eq_ok_iff hframe).mpr hreply
    exact (GrblExt.gconf_eq_tmc2209Value_iff hreply.1).mp (hvalues data data hok hok)
  · intro hpalindrome
    refine ⟨Iff.rfl, fun data data' hok hok' => ?_⟩
    obtain rfl : data = data' := Except.ok.inj (hok.symm.trans hok')
    have hreply := (parseFrame_eq_ok_iff hframe).mp hok
    exact (GrblExt.gconf_eq_tmc2209Value_iff hreply.1).mpr (hpalindrome data hreply)

/-- The serial buffer once the bytes have arrived. -/
def serialReceived (bs : List Byte) : UsartInstance :=
  Run.runFrom lineStep (tmc2209Uart4Init (serialBuffer (fun _ => 0) fun _ => 0)) (receiveAll bs)

theorem counting_serialReceived {bs : List Byte} (hbs : bs.length ≤ 16)
    (htakes : lineTakes (tmc2209Uart4Init (serialBuffer (fun _ => 0) fun _ => 0)) (receiveAll bs) =
      bs) : (serialReceived bs).Counting bs := by
  have hcounting := (counting_serialBuffer (fun _ => 0) fun _ => 0).lineSteps (receiveAll bs)
    (by rwa [htakes])
  rwa [htakes] at hcounting

/-- The value `0x01c0c001` is the same to both. -/
theorem same_gconf_palindrome :
    IsReply tmc2209RegGconf [0x01, 0xc0, 0xc0, 0x01] (tmc2209ReplyFrame 0 [0x01, 0xc0, 0xc0, 0x01]) ∧
    SameGconf (GrblExt.received (fun _ => 0)
        (tmc2209ReadPacket 0 0 ++ tmc2209ReplyFrame 0 [0x01, 0xc0, 0xc0, 0x01]))
      (serialReceived (tmc2209ReadPacket 0 0 ++ tmc2209ReplyFrame 0 [0x01, 0xc0, 0xc0, 0x01])) := by
  have hframe : (tmc2209ReplyFrame 0 [0x01, 0xc0, 0xc0, 0x01]).length = 8 := by decide
  have hok : parseFrame tmc2209RegGconf (tmc2209ReplyFrame 0 [0x01, 0xc0, 0xc0, 0x01]) =
      .ok [0x01, 0xc0, 0xc0, 0x01] := by decide +kernel
  refine ⟨(parseFrame_eq_ok_iff hframe).mp hok, ?_⟩
  refine (same_gconf_iff _ _ (tmc2209ReadPacket 0 0) (tmc2209ReplyFrame 0 [0x01, 0xc0, 0xc0, 0x01])
    (by decide) hframe (counting_serialReceived (by decide) (by decide +kernel))).mpr ?_
  intro data hreply
  cases ((parseFrame_eq_ok_iff hframe).mpr hreply).symm.trans hok
  rfl

/-- The value `0x00000101` of `GCONF` after reset is `0x01010000` to the other firmware. -/
theorem gconf_readers_differ :
    ¬ ∀ (rxBuf : ℕ → Byte) (u : UsartInstance) (echo frame : List Byte), echo.length = 4 →
      frame.length = 8 → u.Counting (echo ++ frame) →
      SameGconf (GrblExt.received rxBuf (echo ++ frame)) u := by
  intro h
  have hsame := h (fun _ => 0) (serialReceived (tmc2209ReadPacket 0 0 ++
    tmc2209ReplyFrame 0 [0, 0, 1, 1])) (tmc2209ReadPacket 0 0) (tmc2209ReplyFrame 0 [0, 0, 1, 1])
    (by decide) (by decide) (counting_serialReceived (by decide) (by decide +kernel))
  have hvalue := hsame.2 [0, 0, 1, 1] [0, 0, 1, 1] (by decide +kernel) (by decide +kernel)
  exact absurd hvalue (by decide)

end PcbMill
