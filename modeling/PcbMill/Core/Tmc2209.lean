import PcbMill.Core.Usart

/-!
# The stepper drivers on their serial line (`tmc2209.c`)

A register is written by one datagram and read by a request the driver answers.  The line has
one wire, so every byte sent is received again before the answer.
-/

namespace PcbMill

open RingBuffer

/-- `serial_buffer` -/
def serialBuffer (txBuffer rxBuffer : ℕ → Byte) : UsartInstance :=
  usartInstance txBuffer 8 rxBuffer 16

/-- `tmc2209_uart4_init`: the transmit interrupt is enabled at once. -/
def tmc2209Uart4Init (u : UsartInstance) : UsartInstance := (u.setTxeie true).setRxneie true

/-! ### Datagrams -/

/-- One bit of `tmc2209_crc8`: the checksum and the byte, shifted. -/
def tmc2209CrcBit (c : Byte × Byte) : Byte × Byte :=
  ((if (c.1 >>> 7) ^^^ (c.2 &&& 1) ≠ 0 then (c.1 <<< 1) ^^^ 0x07 else c.1 <<< 1), c.2 >>> 1)

def tmc2209Crc8 (data : List Byte) : Byte :=
  data.foldl (fun crc currentByte => (tmc2209CrcBit^[8] (crc, currentByte)).1) 0

def tmc2209Datagram (body : List Byte) : List Byte := body ++ [tmc2209Crc8 body]

/-- The packet of `tmc2209_send_write_reg`. -/
def tmc2209WritePacket (addr reg : Byte) (data : BitVec 32) : List Byte :=
  tmc2209Datagram [0x05, addr, reg ||| 0x80, (data >>> 24).setWidth 8, (data >>> 16).setWidth 8,
    (data >>> 8).setWidth 8, data.setWidth 8]

/-- The packet of `tmc2209_send_read_reg`. -/
def tmc2209ReadPacket (addr reg : Byte) : List Byte := tmc2209Datagram [0x05, addr, reg]

@[simp] theorem tmc2209Datagram_length (body : List Byte) :
    (tmc2209Datagram body).length = body.length + 1 := by
  simp [tmc2209Datagram]

/-! ### The answer to a read -/

/-- The codes `tmc2209_parse_response` fails with, -1 to -5. -/
inductive ParseError where
  | notEnoughData
  | badSync
  | badAddress
  | badRegister
  | badCrc
  deriving DecidableEq

def ParseError.code : ParseError → ℤ
  | notEnoughData => -1
  | badSync => -2
  | badAddress => -3
  | badRegister => -4
  | badCrc => -5

/-- `usart_read(..) & 0xFF`: no data reads as `0xFF`. -/
def usartReadByte (u : UsartInstance) : Byte × UsartInstance :=
  (BitVec.ofInt 8 (usartRead u).1, (usartRead u).2)

/-- `n` bytes read one after the other. -/
def usartReadBytes : ℕ → UsartInstance → List Byte × UsartInstance
  | 0, u => ([], u)
  | n + 1, u =>
    let r := usartReadByte u
    let rest := usartReadBytes n r.2
    (r.1 :: rest.1, rest.2)

/-- `tmc2209_parse_response` once its wait is over: the four data bytes. -/
def tmc2209ParseResponse (u : UsartInstance) (sentCount : ℕ) (reg : Byte) :
    Except ParseError (List Byte) × UsartInstance :=
  if u.rxCount < sentCount + 8 then (.error .notEnoughData, u) else
  let u := (usartReadBytes sentCount u).2
  let sync := usartReadByte u
  if sync.1 ≠ 0x05 then (.error .badSync, sync.2) else
  let addr := usartReadByte sync.2
  if addr.1 ≠ 0xFF then (.error .badAddress, addr.2) else
  let register := usartReadByte addr.2
  if register.1 ≠ reg then (.error .badRegister, register.2) else
  let value := usartReadBytes 4 register.2
  let crc := usartReadByte value.2
  if crc.1 ≠ tmc2209Crc8 ([0x05, 0xFF, reg] ++ value.1) then (.error .badCrc, crc.2) else
  (.ok value.1, crc.2)

/-- The value `tmc2209_read_reg` makes of the answer: zero when there is none. -/
def tmc2209Value : Except ParseError (List Byte) → BitVec 32
  | .ok bytes => bytes.foldl (fun value b => value <<< 8 ||| b.setWidth 32) 0
  | .error _ => 0

/-! ### The program on its line -/

/-- What the main loop asks for: `tmc2209_read_reg` and `tmc2209_send_write_reg_with_wait`. -/
inductive Tmc2209Operation where
  | readReg (addr reg : Byte)
  | writeReg (addr reg : Byte) (data : BitVec 32)

def Tmc2209Operation.packet : Tmc2209Operation → List Byte
  | readReg addr reg => tmc2209ReadPacket addr reg
  | writeReg addr reg data => tmc2209WritePacket addr reg data

/-- Where the main loop stands in an operation. -/
inductive Tmc2209Main where
  | idle
  /-- The `usart_send` calls still to come. -/
  | send (op : Tmc2209Operation) (rest : List Byte)
  /-- The two loops of `usart_wait_data_sent`. -/
  | waitTxe
  | waitTc
  /-- The loop of `usart_wait_for_count`. -/
  | waitForCount (reg : Byte) (maxWaitMs : ℕ)
  | parse (reg : Byte)

/-- The serial buffer, the main loop, the values it has read, and the packets of the operations
begun so far. -/
structure Tmc2209 where
  usart : UsartInstance
  main : Tmc2209Main
  values : List (BitVec 32)
  packets : List (List Byte)

def tmc2209Init (txBuffer rxBuffer : ℕ → Byte) : Tmc2209 :=
  { usart := tmc2209Uart4Init (serialBuffer txBuffer rxBuffer), main := .idle, values := [],
    packets := [] }

inductive Tmc2209Event where
  /-- The main loop begins an operation, which clears the buffers. -/
  | start (op : Tmc2209Operation)
  /-- The main loop goes on with the operation: a call of `usart_send`, one test of a wait. -/
  | run
  | line (e : LineEvent)

/-- Where the operation goes on once its packet has been passed to `usart_send`. -/
def Tmc2209Operation.afterSend : Tmc2209Operation → Tmc2209Main
  | readReg _ reg => .waitForCount reg 100
  | writeReg .. => .waitTxe

/-- An operation begins when the one before it has returned. -/
def tmc2209Start (t : Tmc2209) (op : Tmc2209Operation) : Tmc2209 :=
  match t.main with
  | .idle => { t with usart := usartClearBuffers t.usart, main := .send op op.packet,
                      packets := t.packets ++ [op.packet] }
  | _ => t

def tmc2209Run (t : Tmc2209) : Tmc2209 :=
  match t.main with
  | .idle => t
  | .send op (b :: rest) => { t with usart := usartSend t.usart b, main := .send op rest }
  | .send op [] => { t with main := op.afterSend }
  | .waitTxe => if t.usart.hal.txe then { t with main := .waitTc } else t
  | .waitTc => if t.usart.hal.tc then { t with main := .idle } else t
  | .waitForCount reg maxWaitMs =>
    match usartWaitForCount t.usart (4 + 8) maxWaitMs with
    | some left => { t with main := .waitForCount reg left }
    | none => { t with main := .parse reg }
  | .parse reg =>
    let r := tmc2209ParseResponse t.usart 4 reg
    { t with usart := r.2, main := .idle, values := t.values ++ [tmc2209Value r.1] }

def tmc2209Step (t : Tmc2209) : Tmc2209Event → Tmc2209
  | .start op => tmc2209Start t op
  | .run => tmc2209Run t
  | .line e => { t with usart := lineStep t.usart e }

theorem sameTransmit_usartReadByte (u : UsartInstance) : u.SameTransmit (usartReadByte u).2 :=
  sameTransmit_usartRead u

theorem sameTransmit_usartReadBytes (n : ℕ) :
    ∀ u : UsartInstance, u.SameTransmit (usartReadBytes n u).2 := by
  induction n with
  | zero => exact .refl
  | succ n ih => exact fun u => (sameTransmit_usartReadByte u).trans (ih _)

/-- Whatever the answer, parsing it leaves the transmit side alone. -/
theorem sameTransmit_tmc2209ParseResponse (u : UsartInstance) (sentCount : ℕ) (reg : Byte) :
    u.SameTransmit (tmc2209ParseResponse u sentCount reg).2 := by
  have hsync := (sameTransmit_usartReadBytes sentCount u).trans (sameTransmit_usartReadByte _)
  have haddr := hsync.trans (sameTransmit_usartReadByte _)
  have hregister := haddr.trans (sameTransmit_usartReadByte _)
  have hcrc := (hregister.trans (sameTransmit_usartReadBytes 4 _)).trans
    (sameTransmit_usartReadByte _)
  simp only [tmc2209ParseResponse]
  split_ifs
  · exact .refl u
  · exact hsync
  · exact haddr
  · exact hregister
  · exact hcrc
  · exact hcrc

/-! ### The serial buffer in every run -/

/-- What the driver keeps of its serial buffer. -/
structure Tmc2209.Wf (t : Tmc2209) : Prop where
  usart : t.usart.Wf
  size : t.usart.txBufferSize = 8

variable {t : Tmc2209}

theorem wf_tmc2209Init (txBuffer rxBuffer : ℕ → Byte) : (tmc2209Init txBuffer rxBuffer).Wf where
  usart := ⟨InRing.zero 8, fun hne => absurd (contents_self _ _ _) hne, rfl⟩
  size := rfl

theorem Tmc2209.Wf.start (h : t.Wf) (op : Tmc2209Operation) : (tmc2209Start t op).Wf := by
  simp only [tmc2209Start]
  cases t.main with
  | idle => exact ⟨h.usart.usartClearBuffers, h.size⟩
  | _ => exact h

theorem Tmc2209.Wf.run (h : t.Wf) : (tmc2209Run t).Wf := by
  simp only [tmc2209Run]
  cases t.main with
  | idle => exact h
  | send op rest =>
    cases rest with
    | nil => exact ⟨h.usart, h.size⟩
    | cons b rest => exact ⟨h.usart.usartSend b, h.size⟩
  | waitTxe =>
    dsimp only
    split_ifs
    · exact ⟨h.usart, h.size⟩
    · exact h
  | waitTc =>
    dsimp only
    split_ifs
    · exact ⟨h.usart, h.size⟩
    · exact h
  | waitForCount reg maxWaitMs =>
    dsimp only
    cases usartWaitForCount t.usart (4 + 8) maxWaitMs <;> exact ⟨h.usart, h.size⟩
  | parse reg =>
    have hsame := sameTransmit_tmc2209ParseResponse t.usart 4 reg
    exact ⟨hsame.wf h.usart, hsame.size.trans h.size⟩

theorem Tmc2209.Wf.step (h : t.Wf) (e : Tmc2209Event) : (tmc2209Step t e).Wf := by
  cases e with
  | start op => exact h.start op
  | run => exact h.run
  | line e =>
    have hmoved := moved_lineStep h.usart e
    exact ⟨hmoved.wf, hmoved.size.trans h.size⟩

theorem wf_runFrom_tmc2209Step (es : List Tmc2209Event) :
    ∀ {t : Tmc2209}, t.Wf → (Run.runFrom tmc2209Step t es).Wf := by
  induction es with
  | nil => exact fun h => h
  | cons e es ih => exact fun h => ih (h.step e)

end PcbMill
