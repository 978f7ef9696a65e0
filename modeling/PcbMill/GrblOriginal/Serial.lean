import PcbMill.Core.Usart

/-!
# The serial port of the controller

The main program puts bytes into the transmit ring, waiting while it is full, and the interrupt
handler takes them out.  `serial_data_can_send` returns the byte it took, or `SERIAL_NO_DATA`
when there is none, which is a byte as well.

The interrupt comes between any two statements of `serial_write`, so each is a step here; the
handler runs through.  The peripheral is that of the buffered USART.
-/

namespace PcbMill

open RingBuffer Run

def txBufferSize : ℕ := 64

def rxBufferSize : ℕ := 128

def serialNoData : Byte := 0xFF#8

/-! ### Realtime commands -/

def execStatusReport : Byte := 0x01#8
def execCycleStart : Byte := 0x02#8
def execFeedHold : Byte := 0x08#8
def execReset : Byte := 0x10#8
def execSafetyDoor : Byte := 0x20#8

def cmdStatusReport : Byte := 0x3F#8
def cmdFeedHold : Byte := 0x21#8
def cmdCycleStart : Byte := 0x7E#8
def cmdReset : Byte := 0x18#8
def cmdSafetyDoor : Byte := 0x40#8

/-- The variables of `serial.c`, with `sys_rt_exec_state` and the peripheral. -/
structure Serial where
  serialRxBuffer : ℕ → Byte
  serialRxBufferHead : ℕ
  serialRxBufferTail : ℕ
  serialTxBuffer : ℕ → Byte
  serialTxBufferHead : ℕ
  serialTxBufferTail : ℕ
  sysRtExecState : Byte
  hal : UsartHal

/-- The index after `i` in a `uint8_t`, back to 0 at the size. -/
def nextIndex (size i : ℕ) : ℕ := if (i + 1) % 2 ^ 8 = size then 0 else (i + 1) % 2 ^ 8

def serialTxEnableHal (s : Serial) : Serial := { s with hal := { s.hal with txeie := true } }

def serialTxDisableHal (s : Serial) : Serial := { s with hal := { s.hal with txeie := false } }

/-- `serial_init`, for a peripheral in `hal`: only the receive interrupt is enabled. -/
def serialInit (s : Serial) : Serial :=
  { s with hal := { s.hal with txeie := false, rxneie := true } }

def serialDataCanSend (s : Serial) : Byte × Serial :=
  let tail := s.serialTxBufferTail
  if tail = s.serialTxBufferHead then (serialNoData, s)
  else
    let data := s.serialTxBuffer tail
    let tail := nextIndex txBufferSize tail
    let s := { s with serialTxBufferTail := tail }
    (data, if tail = s.serialTxBufferHead then serialTxDisableHal s else s)

/-- `bit_true_atomic` on `sys_rt_exec_state`. -/
def bitTrueAtomic (s : Serial) (mask : Byte) : Serial :=
  { s with sysRtExecState := s.sysRtExecState ||| mask }

/-- `mc_reset`, as far as it concerns the serial port. -/
def mcReset (s : Serial) : Serial :=
  if s.sysRtExecState &&& execReset = 0#8 then bitTrueAtomic s execReset else s

def serialDataReceived (s : Serial) (data : Byte) : Serial :=
  if data = cmdStatusReport then bitTrueAtomic s execStatusReport
  else if data = cmdCycleStart then bitTrueAtomic s execCycleStart
  else if data = cmdFeedHold then bitTrueAtomic s execFeedHold
  else if data = cmdSafetyDoor then bitTrueAtomic s execSafetyDoor
  else if data = cmdReset then mcReset s
  else
    let nextHead := nextIndex rxBufferSize s.serialRxBufferHead
    if nextHead ≠ s.serialRxBufferTail then
      { s with serialRxBuffer := Function.update s.serialRxBuffer s.serialRxBufferHead data,
               serialRxBufferHead := nextHead }
    else s

/-- The transmit half of `USART2_IRQHandler`. -/
def usart2IrqTransmit (s : Serial) : Serial :=
  if s.hal.txe then
    let (data, s) := serialDataCanSend s
    if data ≠ serialNoData then
      { s with hal := { s.hal with tdr := some data, written := s.hal.written ++ [data] } }
    else s
  else s

/-- The receive half.  Reading `RDR` empties it. -/
def usart2IrqReceive (s : Serial) : Serial :=
  match s.hal.rdr with
  | none => s
  | some data =>
    if s.hal.rxneie then serialDataReceived { s with hal := { s.hal with rdr := none } } data
    else s

def usart2IrqHandler (s : Serial) : Serial := usart2IrqReceive (usart2IrqTransmit s)

/-! ### The main program -/

/-- The statement of `serial_write` that puts the byte at the head. -/
def serialStore (s : Serial) (data : Byte) : Serial :=
  { s with serialTxBuffer := Function.update s.serialTxBuffer s.serialTxBufferHead data }

/-- Where the main program is: between two calls, or before a statement of `serial_write`. -/
inductive WritePc where
  | idle
  | wait (data : Byte) (nextHead : ℕ)
  | store (data : Byte) (nextHead : ℕ)
  | advance (data : Byte) (nextHead : ℕ)
  | enable
  deriving DecidableEq

/-- The byte a call has not yet put into the ring. -/
def WritePc.inCall : WritePc → List Byte
  | .idle | .enable => []
  | .wait data _ | .store data _ | .advance data _ => [data]

/-- The serial port, and the main program with the bytes it is still going to write. -/
structure SerialRun where
  serial : Serial
  pc : WritePc
  todo : List Byte

/-- One statement of `serial_write`, or the next call of it. -/
def mainStep (r : SerialRun) : SerialRun :=
  match r.pc with
  | .idle =>
    match r.todo with
    | [] => r
    | data :: todo =>
      { r with pc := .wait data (nextIndex txBufferSize r.serial.serialTxBufferHead),
               todo := todo }
  | .wait data nextHead =>
    if nextHead = r.serial.serialTxBufferTail then
      if r.serial.sysRtExecState &&& execReset ≠ 0#8 then { r with pc := .idle } else r
    else { r with pc := .store data nextHead }
  | .store data nextHead =>
    { r with serial := serialStore r.serial data, pc := .advance data nextHead }
  | .advance _ nextHead =>
    { r with serial := { r.serial with serialTxBufferHead := nextHead }, pc := .enable }
  | .enable => { r with serial := serialTxEnableHal r.serial, pc := .idle }

/-- What happens beside the main program. -/
def serialLineStep (s : Serial) : LineEvent → Serial
  | .irq => if usartIrqPending s.hal then usart2IrqHandler s else s
  | .load => { s with hal := s.hal.load }
  | .shift => { s with hal := s.hal.shift }
  | .receive data => { s with hal := s.hal.receive data }

inductive SerialEvent where
  | main
  | line (e : LineEvent)

def serialStep (r : SerialRun) : SerialEvent → SerialRun
  | .main => mainStep r
  | .line e => { r with serial := serialLineStep r.serial e }

/-- After the start of the controller, with `bytes` to write. -/
def serialStart (bytes : List Byte) : SerialRun where
  serial := serialInit
    { serialRxBuffer := fun _ => 0#8, serialRxBufferHead := 0, serialRxBufferTail := 0,
      serialTxBuffer := fun _ => 0#8, serialTxBufferHead := 0, serialTxBufferTail := 0,
      sysRtExecState := 0#8,
      hal := { txeie := false, rxneie := false, tdr := none, shiftRegister := none, rdr := none,
               written := [], wire := [] } }
  pc := .idle
  todo := bytes

/-- The bytes of the transmit ring. -/
def Serial.queued (s : Serial) : List Byte :=
  contents s.serialTxBuffer txBufferSize s.serialTxBufferHead s.serialTxBufferTail

/-- What was written to `TDR` and what the ring holds are the bytes passed so far, but for the one
of a call still under way, and a ring with bytes in it has its interrupt enabled, at the latest by
the statement that comes next. -/
structure SerialRun.Intact (bytes : List Byte) (r : SerialRun) : Prop where
  inOrder : r.serial.hal.written ++ r.serial.queued ++ r.pc.inCall ++ r.todo = bytes
  enabled : r.serial.queued ≠ [] → r.serial.hal.txeie = true ∨ r.pc = .enable

/-- No reset is asked for. -/
def NoReset (_ : SerialRun) (e : SerialEvent) : Prop := e ≠ .line (.receive cmdReset)

/-! ### The handler -/

variable {s s' : Serial} {r : SerialRun} {bytes : List Byte}

theorem nextIndex_eq {size i : ℕ} (hsize : size < 2 ^ 8) (hi : i < size) :
    nextIndex size i = next size i := by
  simp only [nextIndex, next]
  rw [Nat.mod_eq_of_lt (by omega)]
  split_ifs <;> omega

def Serial.InTxRing (s : Serial) : Prop :=
  InRing txBufferSize s.serialTxBufferHead s.serialTxBufferTail

theorem Serial.InTxRing.head_lt (h : s.InTxRing) : s.serialTxBufferHead < txBufferSize :=
  InRing.head_lt h

theorem Serial.InTxRing.tail_lt (h : s.InTxRing) : s.serialTxBufferTail < txBufferSize :=
  InRing.tail_lt h

/-- The transmit side has not moved, and no reset has come up. -/
structure Serial.SameTransmit (s s' : Serial) : Prop where
  buffer : s'.serialTxBuffer = s.serialTxBuffer
  head : s'.serialTxBufferHead = s.serialTxBufferHead
  tail : s'.serialTxBufferTail = s.serialTxBufferTail
  txeie : s'.hal.txeie = s.hal.txeie
  written : s'.hal.written = s.hal.written
  reset : s.sysRtExecState &&& execReset = 0#8 → s'.sysRtExecState &&& execReset = 0#8

theorem Serial.SameTransmit.queued (h : s.SameTransmit s') : s'.queued = s.queued := by
  simp only [Serial.queued]
  rw [h.buffer, h.head, h.tail]

theorem Serial.SameTransmit.refl (s : Serial) : s.SameTransmit s :=
  ⟨rfl, rfl, rfl, rfl, rfl, fun h => h⟩

theorem sameTransmit_bitTrueAtomic (s : Serial) {mask : Byte} (h : mask &&& execReset = 0#8) :
    s.SameTransmit (bitTrueAtomic s mask) where
  buffer := rfl
  head := rfl
  tail := rfl
  txeie := rfl
  written := rfl
  reset := fun hs => by
    simp only [bitTrueAtomic]
    rw [BitVec.and_or_distrib_right, hs, h]
    rfl

theorem sameTransmit_serialDataReceived (s : Serial) {data : Byte} (h : data ≠ cmdReset) :
    s.SameTransmit (serialDataReceived s data) := by
  simp only [serialDataReceived]
  split_ifs
  · exact sameTransmit_bitTrueAtomic s (by decide)
  · exact sameTransmit_bitTrueAtomic s (by decide)
  · exact sameTransmit_bitTrueAtomic s (by decide)
  · exact sameTransmit_bitTrueAtomic s (by decide)
  · exact ⟨rfl, rfl, rfl, rfl, rfl, fun hs => hs⟩
  · exact Serial.SameTransmit.refl s

theorem sameTransmit_usart2IrqReceive (h : s.hal.rdr ≠ some cmdReset) :
    s.SameTransmit (usart2IrqReceive s) := by
  simp only [usart2IrqReceive]
  split
  · exact Serial.SameTransmit.refl s
  · rename_i data hdata
    have hne : data ≠ cmdReset := fun heq => h (heq ▸ hdata)
    split
    · have hreceived := sameTransmit_serialDataReceived
        { s with hal := { s.hal with rdr := none } } hne
      exact ⟨hreceived.buffer, hreceived.head, hreceived.tail, hreceived.txeie,
        hreceived.written, hreceived.reset⟩
    · exact Serial.SameTransmit.refl s

/-- The oldest byte has been taken out of the ring, and `out` written to `TDR`. -/
structure Serial.Taken (b : Byte) (out : List Byte) (s s' : Serial) : Prop where
  ring : s'.InTxRing
  queued : s.queued = b :: s'.queued
  written : s'.hal.written = s.hal.written ++ out
  txeie : s'.queued ≠ [] → s'.hal.txeie = s.hal.txeie
  buffer : s'.serialTxBuffer = s.serialTxBuffer
  head : s'.serialTxBufferHead = s.serialTxBufferHead
  exec : s'.sysRtExecState = s.sysRtExecState
  rdr : s'.hal.rdr = s.hal.rdr
  shiftRegister : s'.hal.shiftRegister = s.hal.shiftRegister

theorem serialDataCanSend_empty (h : s.serialTxBufferTail = s.serialTxBufferHead) :
    serialDataCanSend s = (serialNoData, s) := if_pos h

/-- `serial_data_can_send` takes the oldest byte, and disables the interrupt after the last. -/
theorem serialDataCanSend_taken (hring : s.InTxRing)
    (h : s.serialTxBufferTail ≠ s.serialTxBufferHead) :
    s.Taken (serialDataCanSend s).1 [] (serialDataCanSend s).2 := by
  have hqueued : s.queued = s.serialTxBuffer s.serialTxBufferTail ::
      contents s.serialTxBuffer txBufferSize s.serialTxBufferHead
        (next txBufferSize s.serialTxBufferTail) := hring.contents_pop (Ne.symm h)
  have hwritten := (List.append_nil s.hal.written).symm
  simp only [serialDataCanSend, if_neg h]
  rw [nextIndex_eq (by decide) hring.tail_lt]
  split_ifs with hlast
  · refine ⟨hring.pop, hqueued, hwritten, fun hne => ?_, rfl, rfl, rfl, rfl, rfl⟩
    rw [Serial.queued, serialTxDisableHal, hlast, contents_self] at hne
    exact absurd rfl hne
  · exact ⟨hring.pop, hqueued, hwritten, fun _ => rfl, rfl, rfl, rfl, rfl, rfl⟩

/-- With `TDR` free, the transmit half of the handler takes a byte and writes it to `TDR`, unless it
is the one that stands for no data. -/
theorem usart2IrqTransmit_taken (hring : s.InTxRing) (htxe : s.hal.txe = true)
    (hne : s.serialTxBufferTail ≠ s.serialTxBufferHead) :
    ∃ b, s.Taken b ([b].filter (· ≠ serialNoData)) (usart2IrqTransmit s) := by
  have htaken := serialDataCanSend_taken hring hne
  refine ⟨(serialDataCanSend s).1, ?_⟩
  simp only [usart2IrqTransmit, if_pos htxe]
  by_cases hdata : (serialDataCanSend s).1 = serialNoData
  · rw [if_neg (not_not.mpr hdata), List.filter_cons_of_neg (by simpa using hdata)]
    exact htaken
  · rw [if_pos hdata, List.filter_cons_of_pos (by simpa using hdata)]
    have hwritten := htaken.written
    rw [List.append_nil] at hwritten
    exact ⟨htaken.ring, htaken.queued, congrArg (· ++ _) hwritten, htaken.txeie, htaken.buffer,
      htaken.head, htaken.exec, htaken.rdr, htaken.shiftRegister⟩

/-- Otherwise it does nothing. -/
theorem usart2IrqTransmit_cases (hring : s.InTxRing) :
    usart2IrqTransmit s = s ∨
      ∃ b, s.Taken b ([b].filter (· ≠ serialNoData)) (usart2IrqTransmit s) := by
  by_cases htxe : s.hal.txe = true
  · by_cases hempty : s.serialTxBufferTail = s.serialTxBufferHead
    · left
      simp only [usart2IrqTransmit, if_pos htxe]
      rw [serialDataCanSend_empty hempty]
      exact if_neg (not_not.mpr rfl)
    · exact .inr (usart2IrqTransmit_taken hring htxe hempty)
  · exact .inl (if_neg htxe)

/-! ### The bytes on their way -/

/-- What holds of the local variables of a call, and of the ring, while it is under way. -/
def WritePc.Sound (s : Serial) : WritePc → Prop
  | .idle | .enable => True
  | .wait _ nextHead => nextHead = next txBufferSize s.serialTxBufferHead
  | .store _ nextHead =>
    nextHead = next txBufferSize s.serialTxBufferHead ∧ s.queued.length + 1 < txBufferSize
  | .advance data nextHead =>
    nextHead = next txBufferSize s.serialTxBufferHead ∧ s.queued.length + 1 < txBufferSize ∧
      s.serialTxBuffer s.serialTxBufferHead = data

theorem WritePc.Sound.mono {pc : WritePc} (h : pc.Sound s)
    (hhead : s'.serialTxBufferHead = s.serialTxBufferHead)
    (hbuffer : s'.serialTxBuffer = s.serialTxBuffer)
    (hlength : s'.queued.length ≤ s.queued.length) : pc.Sound s' := by
  cases pc with
  | idle => trivial
  | enable => trivial
  | wait data nextHead =>
    rw [WritePc.Sound, hhead]
    exact h
  | store data nextHead =>
    rw [WritePc.Sound, hhead]
    exact ⟨h.1, by have := h.2; omega⟩
  | advance data nextHead =>
    rw [WritePc.Sound, hhead, hbuffer]
    exact ⟨h.1, by have := h.2.1; omega, h.2.2⟩

/-- Every byte is still to be passed, in the call under way, in the ring or taken out of it, and
those taken have been written to `TDR` but for the bytes that stand for no data. -/
structure SerialAccount (bytes : List Byte) (r : SerialRun) : Prop where
  ring : r.serial.InTxRing
  accounts : ∃ taken, r.serial.hal.written = taken.filter (· ≠ serialNoData) ∧
    taken ++ r.serial.queued ++ r.pc.inCall ++ r.todo = bytes
  enabled : r.serial.queued ≠ [] → r.serial.hal.txeie = true ∨ r.pc = .enable
  call : r.pc.Sound r.serial
  reset : r.serial.sysRtExecState &&& execReset = 0#8
  rdr : r.serial.hal.rdr ≠ some cmdReset

theorem SerialAccount.same (h : SerialAccount bytes r) (hs : r.serial.SameTransmit s')
    (hrdr : s'.hal.rdr ≠ some cmdReset) : SerialAccount bytes { r with serial := s' } where
  ring := by
    show InRing txBufferSize s'.serialTxBufferHead s'.serialTxBufferTail
    rw [hs.head, hs.tail]
    exact h.ring
  accounts := by
    rw [hs.queued, hs.written]
    exact h.accounts
  enabled := by
    rw [hs.queued, hs.txeie]
    exact h.enabled
  call := h.call.mono hs.head hs.buffer (by rw [hs.queued])
  reset := hs.reset h.reset
  rdr := hrdr

theorem SerialAccount.taken {b : Byte} (h : SerialAccount bytes r)
    (ht : r.serial.Taken b ([b].filter (· ≠ serialNoData)) s') :
    SerialAccount bytes { r with serial := s' } where
  ring := ht.ring
  accounts := by
    obtain ⟨taken, hwritten, hbytes⟩ := h.accounts
    refine ⟨taken ++ [b], ?_, ?_⟩
    · rw [ht.written, hwritten, List.filter_append]
    · rw [ht.queued] at hbytes
      rw [← hbytes, List.append_assoc taken [b], List.singleton_append]
  enabled := fun hne => by
    rw [ht.txeie hne]
    exact h.enabled (ht.queued ▸ List.cons_ne_nil b _)
  call := h.call.mono ht.head ht.buffer (by rw [ht.queued]; exact Nat.le_succ _)
  reset := by
    rw [ht.exec]
    exact h.reset
  rdr := by
    rw [ht.rdr]
    exact h.rdr

theorem usart2IrqReceive_rdr (h : s.hal.rdr ≠ some cmdReset) :
    (usart2IrqReceive s).hal.rdr ≠ some cmdReset := by
  simp only [usart2IrqReceive]
  split
  · exact h
  · split
    · simp only [serialDataReceived, bitTrueAtomic, mcReset]
      split_ifs <;> exact (Option.some_ne_none _).symm
    · exact h

/-- **The interrupt handler.** -/
theorem SerialAccount.handler (h : SerialAccount bytes r) :
    SerialAccount bytes { r with serial := usart2IrqHandler r.serial } := by
  have htransmit : SerialAccount bytes { r with serial := usart2IrqTransmit r.serial } := by
    obtain heq | ⟨b, ht⟩ := usart2IrqTransmit_cases h.ring
    · rw [heq]
      exact h
    · exact h.taken ht
  exact htransmit.same (sameTransmit_usart2IrqReceive htransmit.rdr)
    (usart2IrqReceive_rdr htransmit.rdr)

/-- A step of the peripheral that leaves the transmit interrupt and `TDR`'s history alone. -/
theorem SerialAccount.hal (h : SerialAccount bytes r) {hal : UsartHal}
    (htxeie : hal.txeie = r.serial.hal.txeie) (hwritten : hal.written = r.serial.hal.written)
    (hrdr : hal.rdr ≠ some cmdReset) :
    SerialAccount bytes { r with serial := { r.serial with hal := hal } } :=
  h.same ⟨rfl, rfl, rfl, htxeie, hwritten, fun hs => hs⟩ hrdr

theorem SerialAccount.line (h : SerialAccount bytes r) {e : LineEvent}
    (he : e ≠ .receive cmdReset) : SerialAccount bytes (serialStep r (.line e)) := by
  simp only [serialStep, serialLineStep]
  cases e with
  | irq =>
    dsimp only
    split_ifs
    · exact h.handler
    · exact h
  | load =>
    obtain ⟨htxeie, hwritten, -⟩ := r.serial.hal.load_same
    exact h.hal htxeie hwritten (by rw [UsartHal.load_rdr]; exact h.rdr)
  | shift => exact h.hal rfl rfl h.rdr
  | receive data =>
    obtain ⟨htxeie, hwritten, hrdr⟩ := r.serial.hal.receive_same data
    refine h.hal htxeie hwritten ?_
    obtain hdata | hkept := hrdr
    · rw [hdata]
      exact fun heq => he (congrArg LineEvent.receive (Option.some.inj heq))
    · rw [hkept]
      exact h.rdr

/-- **A statement of the main program.** -/
theorem SerialAccount.main (h : SerialAccount bytes r) : SerialAccount bytes (mainStep r) := by
  obtain ⟨taken, hwritten, hbytes⟩ := h.accounts
  obtain ⟨s, pc, todo⟩ := r
  have hhead := h.ring.head_lt
  cases pc with
  | idle =>
    cases todo with
    | nil => exact h
    | cons data todo =>
      refine ⟨h.ring, ⟨taken, hwritten, ?_⟩, fun hne => ?_, ?_, h.reset, h.rdr⟩
      · simpa [mainStep, WritePc.inCall] using hbytes
      · exact .inl ((h.enabled hne).resolve_right nofun)
      · exact nextIndex_eq (by decide) hhead
  | wait data nextHead =>
    have hnext : nextHead = next txBufferSize s.serialTxBufferHead := h.call
    have henabled : s.queued ≠ [] → s.hal.txeie = true :=
      fun hne => (h.enabled hne).resolve_right nofun
    simp only [mainStep]
    split_ifs with hfull hreset
    · exact absurd h.reset hreset
    · exact h
    · refine ⟨h.ring, ⟨taken, hwritten, hbytes⟩, fun hne => .inl (henabled hne), ⟨hnext, ?_⟩,
        h.reset, h.rdr⟩
      rw [Serial.queued, contents_length]
      by_contra hroom
      exact hfull (hnext.trans (h.ring.next_eq_of_full hroom))
  | store data nextHead =>
    have hqueued : (serialStore s data).queued = s.queued := h.ring.contents_store data
    have hnext := h.call
    rw [WritePc.Sound, ← hqueued] at hnext
    refine ⟨h.ring, ⟨taken, hwritten, ?_⟩, fun hne => ?_, ⟨hnext.1, hnext.2, ?_⟩, h.reset, h.rdr⟩
    · rw [← hqueued] at hbytes
      exact hbytes
    · have hne' : s.queued ≠ [] := hqueued ▸ hne
      exact .inl ((h.enabled hne').resolve_right nofun)
    · exact Function.update_self ..
  | advance data nextHead =>
    have hnext : nextHead = next txBufferSize s.serialTxBufferHead := h.call.1
    have hroom : s.queued.length + 1 < txBufferSize := h.call.2.1
    have hdata : s.serialTxBuffer s.serialTxBufferHead = data := h.call.2.2
    subst hnext
    rw [Serial.queued, contents_length] at hroom
    have hqueued : contents s.serialTxBuffer txBufferSize (next txBufferSize s.serialTxBufferHead)
        s.serialTxBufferTail = s.queued ++ [s.serialTxBuffer s.serialTxBufferHead] :=
      h.ring.contents_advance hroom
    refine ⟨h.ring.push, ⟨taken, hwritten, ?_⟩, fun _ => .inr rfl, trivial, h.reset, h.rdr⟩
    rw [hdata] at hqueued
    simp only [mainStep, Serial.queued, WritePc.inCall] at hbytes ⊢
    rw [hqueued, ← List.append_assoc, List.append_nil]
    exact hbytes
  | enable =>
    exact ⟨h.ring, ⟨taken, hwritten, hbytes⟩, fun _ => .inl rfl, trivial, h.reset, h.rdr⟩

theorem serialAccount_start (bytes : List Byte) : SerialAccount bytes (serialStart bytes) where
  ring := InRing.zero txBufferSize
  accounts := ⟨[], rfl, rfl⟩
  enabled := fun hne => absurd (contents_self _ _ _) hne
  call := trivial
  reset := by
    show 0#8 &&& execReset = 0#8
    decide
  rdr := nofun

theorem SerialAccount.step (h : SerialAccount bytes r) {e : SerialEvent} (he : NoReset r e) :
    SerialAccount bytes (serialStep r e) := by
  cases e with
  | main => exact h.main
  | line e => exact h.line fun heq => he (congrArg SerialEvent.line heq)

/-- Without the byte that stands for no data, what was taken was written. -/
theorem SerialAccount.intact (h : SerialAccount bytes r) (hbytes : serialNoData ∉ bytes) :
    r.Intact bytes := by
  obtain ⟨taken, hwritten, haccounts⟩ := h.accounts
  refine ⟨?_, h.enabled⟩
  have htaken : taken.filter (· ≠ serialNoData) = taken := by
    rw [List.filter_eq_self]
    intro b hb
    have hmem : b ∈ bytes := by
      rw [← haccounts]
      simp [hb]
    exact decide_eq_true fun heq => hbytes (heq ▸ hmem)
  rw [hwritten, htaken, haccounts]

/-! ### One byte after another -/

/-- A call, its interrupt, and the byte out on the wire. -/
def sendEvents : List SerialEvent :=
  List.replicate 5 .main ++ [.line .irq, .line .load, .line .shift]

/-- Nothing is under way. -/
structure SerialRun.Quiet (r : SerialRun) : Prop where
  pc : r.pc = .idle
  ring : r.serial.InTxRing
  empty : r.serial.queued = []
  tdr : r.serial.hal.tdr = none
  shiftRegister : r.serial.hal.shiftRegister = none
  rdr : r.serial.hal.rdr = none

/-- What a whole call of `serial_write` does to a ring with room. -/
def serialWrite (s : Serial) (data : Byte) : Serial :=
  let s := serialStore s data
  serialTxEnableHal { s with serialTxBufferHead := next txBufferSize s.serialTxBufferHead }

/-- An undisturbed call. -/
theorem SerialRun.Quiet.call (h : r.Quiet) {data : Byte} {todo : List Byte}
    (htodo : r.todo = data :: todo) :
    runFrom serialStep r (List.replicate 5 .main) =
      { serial := serialWrite r.serial data, pc := .idle, todo := todo } := by
  obtain ⟨s, pc, todo'⟩ := r
  obtain rfl : pc = .idle := h.pc
  obtain rfl : todo' = data :: todo := htodo
  have hempty : s.serialTxBufferHead = s.serialTxBufferTail := h.ring.contents_eq_nil.mp h.empty
  have hroom : next txBufferSize s.serialTxBufferHead ≠ s.serialTxBufferTail := by
    rw [← hempty, next]
    split_ifs with hlast
    · intro hzero
      rw [← hzero] at hlast
      exact absurd hlast (by decide)
    · exact Nat.succ_ne_self _
  simp only [List.replicate, runFrom_cons, runFrom_nil, serialStep, mainStep,
    nextIndex_eq (show txBufferSize < 2 ^ 8 by decide) h.ring.head_lt, if_neg hroom]
  rfl

theorem SerialRun.Quiet.serialWrite_queued (h : r.Quiet) (data : Byte) :
    (serialWrite r.serial data).queued = [data] := by
  have hheld : held txBufferSize r.serial.serialTxBufferHead r.serial.serialTxBufferTail = 0 := by
    exact h.ring.held_eq_zero.mpr (h.ring.contents_eq_nil.mp h.empty)
  have hpush : (serialWrite r.serial data).queued = r.serial.queued ++ [data] :=
    h.ring.contents_push (by rw [hheld]; decide) data
  rw [hpush, h.empty, List.nil_append]

/-- A byte sent undisturbed reaches `TDR`, unless it is the one that stands for no data. -/
theorem SerialRun.Quiet.send (h : r.Quiet) {data : Byte} {todo : List Byte}
    (htodo : r.todo = data :: todo) :
    (runFrom serialStep r sendEvents).Quiet ∧ (runFrom serialStep r sendEvents).todo = todo ∧
      (runFrom serialStep r sendEvents).serial.hal.written =
        r.serial.hal.written ++ [data].filter (· ≠ serialNoData) := by
  have hqueued := h.serialWrite_queued data
  have hring : (serialWrite r.serial data).InTxRing := h.ring.push
  have htxe : (serialWrite r.serial data).hal.txe = true := Option.isNone_iff_eq_none.mpr h.tdr
  have hne : (serialWrite r.serial data).serialTxBufferTail ≠
      (serialWrite r.serial data).serialTxBufferHead := by
    intro heq
    rw [Serial.queued, heq, contents_self] at hqueued
    exact List.cons_ne_nil _ _ hqueued.symm
  obtain ⟨b, ht⟩ := usart2IrqTransmit_taken hring htxe hne
  have hpending : usartIrqPending (serialWrite r.serial data).hal = true := by
    rw [usartIrqPending, htxe]
    rfl
  have hreceive : usart2IrqReceive (usart2IrqTransmit (serialWrite r.serial data)) =
      usart2IrqTransmit (serialWrite r.serial data) := by
    have hrdr : (usart2IrqTransmit (serialWrite r.serial data)).hal.rdr = none :=
      ht.rdr.trans h.rdr
    rw [usart2IrqReceive, hrdr]
  have hload : (usart2IrqTransmit (serialWrite r.serial data)).hal.shiftRegister = none :=
    ht.shiftRegister.trans h.shiftRegister
  rw [sendEvents, runFrom_append, h.call htodo]
  simp only [runFrom_cons, runFrom_nil, serialStep, serialLineStep, if_pos hpending,
    usart2IrqHandler, hreceive, UsartHal.load, hload, Option.isNone_none, if_true]
  have hdata := hqueued.symm.trans ht.queued
  obtain ⟨rfl, hrest⟩ := List.cons.inj hdata
  exact ⟨⟨rfl, ht.ring, hrest.symm, rfl, rfl, ht.rdr.trans h.rdr⟩, trivial, ht.written⟩

/-- All of them, one after another. -/
theorem SerialRun.Quiet.sendAll (bytes : List Byte) :
    ∀ r : SerialRun, r.Quiet → r.todo = bytes →
      ∃ r', runFrom serialStep r (bytes.flatMap fun _ => sendEvents) = r' ∧ r'.Quiet ∧
        r'.todo = [] ∧
        r'.serial.hal.written = r.serial.hal.written ++ bytes.filter (· ≠ serialNoData) := by
  induction bytes with
  | nil => exact fun r h htodo => ⟨r, rfl, h, htodo, (List.append_nil _).symm⟩
  | cons data bytes ih =>
    intro r h htodo
    obtain ⟨hquiet, hnext, hwritten⟩ := h.send htodo
    obtain ⟨r', hrun, hquiet', htodo', hwritten'⟩ := ih _ hquiet hnext
    refine ⟨r', ?_, hquiet', htodo', ?_⟩
    · rw [List.flatMap_cons, runFrom_append]
      exact hrun
    · rw [hwritten', hwritten, List.append_assoc, ← List.filter_append, List.singleton_append]

theorem quiet_start (bytes : List Byte) : (serialStart bytes).Quiet where
  pc := rfl
  ring := InRing.zero txBufferSize
  empty := contents_self _ _ _
  tdr := rfl
  shiftRegister := rfl
  rdr := rfl

theorem guarded_sendEvents (bytes : List Byte) :
    ∀ r : SerialRun, Guarded serialStep NoReset r (bytes.flatMap fun _ => sendEvents) := by
  induction bytes with
  | nil => exact fun _ => trivial
  | cons data bytes ih =>
    intro r
    rw [List.flatMap_cons, guarded_append]
    refine ⟨?_, ih _⟩
    simp only [sendEvents, List.replicate, List.cons_append, List.nil_append, Guarded, NoReset]
    simp

/-- **The bytes written are sent in order** on every run without a reset, with the interrupt
enabled while there are any, exactly when the byte that stands for no data is not among them. -/
theorem serial_transmit_intact_iff (bytes : List Byte) :
    (∀ es, Guarded serialStep NoReset (serialStart bytes) es →
        Always serialStep (SerialRun.Intact bytes) (serialStart bytes) es) ↔
      serialNoData ∉ bytes := by
  constructor
  · intro h hmem
    obtain ⟨r, hrun, hquiet, htodo, hwritten⟩ :=
      SerialRun.Quiet.sendAll bytes _ (quiet_start bytes) rfl
    have hintact := (h _ (guarded_sendEvents bytes _)).last
    rw [hrun] at hintact
    have hbytes := hintact.inOrder
    rw [hquiet.pc, hquiet.empty, htodo, hwritten] at hbytes
    have hfilter : bytes.filter (· ≠ serialNoData) = bytes := by
      simpa [serialStart, serialInit, WritePc.inCall] using hbytes
    exact of_decide_eq_true (List.filter_eq_self.mp hfilter _ hmem) rfl
  · intro hbytes es hes
    exact (always_of_guarded (fun r e h he => h.step he) (serialAccount_start bytes) hes).mono
      fun r h => h.intact hbytes

/-- The byte 0xFF is lost. -/
theorem serial_transmit_no_data :
    (runFrom serialStep (serialStart [0xFF#8]) sendEvents).serial.hal.written = [] ∧
      ¬ (runFrom serialStep (serialStart [0xFF#8]) sendEvents).Intact [0xFF#8] := by
  obtain ⟨hquiet, htodo, hwritten⟩ := (quiet_start [0xFF#8]).send rfl
  have hnone : (runFrom serialStep (serialStart [0xFF#8]) sendEvents).serial.hal.written = [] :=
    hwritten
  refine ⟨hnone, fun hintact => ?_⟩
  have hbytes := hintact.inOrder
  rw [hquiet.pc, hquiet.empty, htodo, hnone] at hbytes
  exact List.cons_ne_nil _ _ hbytes.symm

end PcbMill
