import PcbMill.Core.CircularBuffer
import PcbMill.Lib.RingBuffer
import PcbMill.Lib.Run

/-!
# The buffered USART (`usart_hal.h`, `usart_hal.c`)

The driver keeps a receive and a transmit ring, which the interrupt handler fills and empties.
The peripheral is its data registers, the shift register behind `TDR`, and the two interrupt
enables of `CR1` the driver switches; the flags of `ISR` are read off the registers.  The FIFO
mode is never enabled, so `TDR` and `RDR` hold one byte each.

A function masks the interrupt of the ring it works on while it works on it, so towards that
interrupt it is one step, and it is one step here; a wait loop is the test it polls.
-/

namespace PcbMill

open FixedWidth RingBuffer

/-- The peripheral, with the bytes written to `TDR` and those that have left on the wire. -/
structure UsartHal where
  txeie : Bool
  rxneie : Bool
  tdr : Option Byte
  shiftRegister : Option Byte
  rdr : Option Byte
  written : List Byte
  wire : List Byte

/-- `ISR_TXE_TXFNF`: `TDR` can take a byte. -/
def UsartHal.txe (h : UsartHal) : Bool := h.tdr.isNone

/-- `ISR_TC`: the last byte has left the shift register and `TDR` is empty. -/
def UsartHal.tc (h : UsartHal) : Bool := h.tdr.isNone && h.shiftRegister.isNone

/-- `ISR_RXNE_RXFNE` -/
def UsartHal.rxne (h : UsartHal) : Bool := h.rdr.isSome

/-- `usart_instance_t`.  The backing arrays are stores, indexed below their sizes; an index stays
below the size of its array, so its increment does not wrap. -/
structure UsartInstance where
  rxBufferSize : ℕ
  rxBufferHead : ℕ
  rxBufferTail : ℕ
  rxCount : ℕ
  txBufferSize : ℕ
  txBufferHead : ℕ
  txBufferTail : ℕ
  txBuffer : ℕ → Byte
  rxBuffer : ℕ → Byte
  hal : UsartHal

/-- An instance as its static initialiser leaves it, before its peripheral is enabled. -/
def usartInstance (txBuffer : ℕ → Byte) (txBufferSize : ℕ) (rxBuffer : ℕ → Byte)
    (rxBufferSize : ℕ) : UsartInstance :=
  { rxBufferSize := rxBufferSize, rxBufferHead := 0, rxBufferTail := 0, rxCount := 0,
    txBufferSize := txBufferSize, txBufferHead := 0, txBufferTail := 0,
    txBuffer := txBuffer, rxBuffer := rxBuffer,
    hal := { txeie := false, rxneie := false, tdr := none, shiftRegister := none, rdr := none,
             written := [], wire := [] } }

def UsartInstance.setTxeie (u : UsartInstance) (b : Bool) : UsartInstance :=
  { u with hal := { u.hal with txeie := b } }

def UsartInstance.setRxneie (u : UsartInstance) (b : Bool) : UsartInstance :=
  { u with hal := { u.hal with rxneie := b } }

/-- `usart_init_hal`: the transmit interrupt waits for data. -/
def usartInitHal (u : UsartInstance) : UsartInstance := (u.setTxeie false).setRxneie true

/-- `usart_read`: a byte, or -1. -/
def usartRead (u : UsartInstance) : ℤ × UsartInstance :=
  let u := u.setRxneie false
  let r : ℤ × UsartInstance :=
    if u.rxBufferTail ≠ u.rxBufferHead then
      ((u.rxBuffer u.rxBufferTail).toNat,
        { u with rxBufferTail := next u.rxBufferSize u.rxBufferTail,
                 rxCount := sub32 u.rxCount 1 })
    else (-1, { u with rxCount := 0 })
  (r.1, r.2.setRxneie true)

/-- The statement of `usart_send` that puts the byte into the ring, and the wrap after it. -/
def usartStore (u : UsartInstance) (b : Byte) : UsartInstance :=
  { u with txBuffer := Function.update u.txBuffer u.txBufferHead b,
           txBufferHead := next u.txBufferSize u.txBufferHead }

def usartSend (u : UsartInstance) (b : Byte) : UsartInstance :=
  (usartStore (u.setTxeie false) b).setTxeie true

/-- The transmit half of `usart_irq_handler`. -/
def usartIrqTransmit (u : UsartInstance) : UsartInstance :=
  if u.hal.txe then
    if u.txBufferTail ≠ u.txBufferHead then
      let data := u.txBuffer u.txBufferTail
      { u with txBufferTail := next u.txBufferSize u.txBufferTail,
               hal := { u.hal with tdr := some data, written := u.hal.written ++ [data] } }
    else u.setTxeie false
  else u

/-- The receive half of `usart_irq_handler`.  Reading `RDR` empties it. -/
def usartIrqReceive (u : UsartInstance) : UsartInstance :=
  match u.hal.rdr with
  | none => u
  | some data =>
    { u with rxBuffer := Function.update u.rxBuffer u.rxBufferHead data,
             rxCount := add32 u.rxCount 1,
             rxBufferHead := next u.rxBufferSize u.rxBufferHead,
             hal := { u.hal with rdr := none } }

def usartIrqHandler (u : UsartInstance) : UsartInstance := usartIrqReceive (usartIrqTransmit u)

/-- One test of the loop of `usart_wait_for_count`: the milliseconds left when it goes round
again. -/
def usartWaitForCount (u : UsartInstance) (count maxWaitMs : ℕ) : Option ℕ :=
  if u.rxCount < count ∧ 0 < maxWaitMs then some (maxWaitMs - 1) else none

def usartClearBuffers (u : UsartInstance) : UsartInstance :=
  let u := (u.setTxeie false).setRxneie false
  let u := { u with txBufferHead := 0, txBufferTail := 0, rxBufferHead := 0, rxBufferTail := 0,
                    rxCount := 0 }
  u.setRxneie true

/-! ### The peripheral beside the program -/

/-- What happens without the program: the interrupt is served, `TDR` moves to the shift register,
the shift register has sent its byte, a byte arrives. -/
inductive LineEvent where
  | irq
  | load
  | shift
  | receive (data : Byte)

/-- The interrupt line: an enabled flag is set. -/
def usartIrqPending (h : UsartHal) : Bool := (h.txeie && h.txe) || (h.rxneie && h.rxne)

/-- `TDR` moves to the shift register once that is free. -/
def UsartHal.load (h : UsartHal) : UsartHal :=
  if h.shiftRegister.isNone then { h with tdr := none, shiftRegister := h.tdr } else h

def UsartHal.shift (h : UsartHal) : UsartHal :=
  { h with shiftRegister := none, wire := h.wire ++ h.shiftRegister.toList }

/-- A byte that arrives while `RDR` is full is lost. -/
def UsartHal.receive (h : UsartHal) (data : Byte) : UsartHal :=
  if h.rdr.isNone then { h with rdr := some data } else h

def lineStep (u : UsartInstance) : LineEvent → UsartInstance
  | .irq => if usartIrqPending u.hal then usartIrqHandler u else u
  | .load => { u with hal := u.hal.load }
  | .shift => { u with hal := u.hal.shift }
  | .receive data => { u with hal := u.hal.receive data }

/-! ### The bytes on their way -/

/-- The bytes of the transmit ring. -/
def UsartInstance.queued (u : UsartInstance) : List Byte :=
  contents u.txBuffer u.txBufferSize u.txBufferHead u.txBufferTail

/-- The bytes in the two registers of the transmitter. -/
def UsartHal.inTransmitter (h : UsartHal) : List Byte := h.shiftRegister.toList ++ h.tdr.toList

/-- The transmit ring has room for one byte more. -/
def UsartInstance.HasRoom (u : UsartInstance) : Prop :=
  held u.txBufferSize u.txBufferHead u.txBufferTail + 1 < u.txBufferSize

instance (u : UsartInstance) : Decidable u.HasRoom := inferInstanceAs (Decidable (_ < _))

/-- What the functions and the peripheral keep: the indices lie in the ring, a ring with bytes in
it has its interrupt enabled, and what was written to `TDR` has left or is in the transmitter. -/
structure UsartInstance.Wf (u : UsartInstance) : Prop where
  ring : InRing u.txBufferSize u.txBufferHead u.txBufferTail
  enabled : u.queued ≠ [] → u.hal.txeie = true
  written : u.hal.wire ++ u.hal.inTransmitter = u.hal.written

variable {u : UsartInstance}

theorem UsartHal.tc_iff {h : UsartHal} : h.tc = true ↔ h.inTransmitter = [] := by
  cases hs : h.shiftRegister <;> cases ht : h.tdr <;> simp [tc, inTransmitter, hs, ht]

theorem UsartInstance.Wf.queued_eq_nil (h : u.Wf) :
    u.queued = [] ↔ u.txBufferHead = u.txBufferTail := h.ring.contents_eq_nil

theorem UsartInstance.HasRoom.queued_usartSend (hroom : u.HasRoom) (h : u.Wf) (b : Byte) :
    (usartSend u b).queued = u.queued ++ [b] := h.ring.contents_push hroom b

/-- A byte sent into a ring without room empties it. -/
theorem UsartInstance.Wf.queued_usartSend_full (h : u.Wf) (hfull : ¬ u.HasRoom) (b : Byte) :
    (usartSend u b).queued = [] := by
  have hnext : next u.txBufferSize u.txBufferHead = u.txBufferTail := h.ring.next_eq_of_full hfull
  show contents _ u.txBufferSize (next u.txBufferSize u.txBufferHead) u.txBufferTail = []
  rw [hnext, contents_self]

theorem UsartInstance.Wf.usartSend (h : u.Wf) (b : Byte) : (usartSend u b).Wf where
  ring := h.ring.push
  enabled := fun _ => rfl
  written := h.written

/-- The transmit half of the handler moves the oldest byte of the ring to `TDR`, when `TDR` is
free, and switches its interrupt off when there is none. -/
theorem usartIrqTransmit_cases (h : u.Wf) :
    (∃ b rest, u.queued = b :: rest ∧ (usartIrqTransmit u).queued = rest ∧ u.hal.txe = true ∧
      (usartIrqTransmit u).hal = { u.hal with tdr := some b, written := u.hal.written ++ [b] }) ∨
    (u.queued = [] ∧ usartIrqTransmit u = u.setTxeie false) ∨
    (u.hal.txe = false ∧ usartIrqTransmit u = u) := by
  simp only [usartIrqTransmit]
  split_ifs with htxe hne
  · exact .inl ⟨_, _, h.ring.contents_pop (Ne.symm hne), rfl, htxe, rfl⟩
  · exact .inr (.inl ⟨h.queued_eq_nil.mpr (not_not.mp hne).symm, rfl⟩)
  · exact .inr (.inr ⟨by simpa using htxe, rfl⟩)

theorem inRing_usartIrqTransmit (h : u.Wf) : InRing (usartIrqTransmit u).txBufferSize
    (usartIrqTransmit u).txBufferHead (usartIrqTransmit u).txBufferTail := by
  simp only [usartIrqTransmit]
  split_ifs
  · exact h.ring.pop
  · exact h.ring
  · exact h.ring

theorem UsartInstance.Wf.usartIrqTransmit (h : u.Wf) : (usartIrqTransmit u).Wf := by
  refine ⟨inRing_usartIrqTransmit h, ?_, ?_⟩
  · intro hne
    obtain ⟨b, rest, hqueued, -, -, hhal⟩ | ⟨hqueued, heq⟩ | ⟨-, heq⟩ := usartIrqTransmit_cases h
    · rw [hhal]
      exact h.enabled (hqueued ▸ List.cons_ne_nil b rest)
    · rw [heq] at hne
      exact absurd hqueued hne
    · rw [heq] at hne ⊢
      exact h.enabled hne
  · have hwritten := h.written
    obtain ⟨b, rest, -, -, htxe, hhal⟩ | ⟨-, heq⟩ | ⟨-, heq⟩ := usartIrqTransmit_cases h
    · have htdr : u.hal.tdr = none := Option.isNone_iff_eq_none.mp htxe
      rw [hhal]
      simp only [UsartHal.inTransmitter, htdr, Option.toList_none, List.append_nil,
        Option.toList_some] at hwritten ⊢
      rw [← List.append_assoc, hwritten]
    · rwa [heq]
    · rwa [heq]

/-- Bytes have moved from the front of the ring to `TDR`, and none has gone elsewhere. -/
structure UsartInstance.Moved (u u' : UsartInstance) : Prop where
  wf : u'.Wf
  size : u'.txBufferSize = u.txBufferSize
  bytes : ∃ d, u.queued = d ++ u'.queued ∧ u'.hal.written = u.hal.written ++ d

theorem usartIrqTransmit_txBufferSize (u : UsartInstance) :
    (usartIrqTransmit u).txBufferSize = u.txBufferSize := by
  simp only [usartIrqTransmit]
  split_ifs <;> rfl

theorem moved_usartIrqTransmit (h : u.Wf) : u.Moved (usartIrqTransmit u) where
  wf := h.usartIrqTransmit
  size := usartIrqTransmit_txBufferSize u
  bytes := by
    obtain ⟨b, rest, hqueued, hrest, -, hhal⟩ | ⟨-, heq⟩ | ⟨-, heq⟩ := usartIrqTransmit_cases h
    · refine ⟨[b], ?_, ?_⟩
      · rw [hrest, hqueued, List.singleton_append]
      · rw [hhal]
    · rw [heq]
      exact ⟨[], rfl, (List.append_nil _).symm⟩
    · rw [heq]
      exact ⟨[], rfl, (List.append_nil _).symm⟩

namespace UsartInstance.Moved

variable {u' u'' : UsartInstance}

theorem refl (h : u.Wf) : u.Moved u := ⟨h, rfl, [], rfl, (List.append_nil _).symm⟩

theorem trans (h : u.Moved u') (h' : u'.Moved u'') : u.Moved u'' where
  wf := h'.wf
  size := h'.size.trans h.size
  bytes := by
    obtain ⟨d, hqueued, hwritten⟩ := h.bytes
    obtain ⟨d', hqueued', hwritten'⟩ := h'.bytes
    refine ⟨d ++ d', ?_, ?_⟩
    · rw [hqueued, hqueued', List.append_assoc]
    · rw [hwritten', hwritten, List.append_assoc]

/-- **The transmit side loses nothing.** -/
theorem written_queued (h : u.Moved u') :
    u'.hal.written ++ u'.queued = u.hal.written ++ u.queued := by
  obtain ⟨d, hqueued, hwritten⟩ := h.bytes
  rw [hwritten, hqueued, List.append_assoc]

theorem length_le (h : u.Moved u') : u'.queued.length ≤ u.queued.length := by
  obtain ⟨d, hqueued, -⟩ := h.bytes
  rw [hqueued, List.length_append]
  omega

end UsartInstance.Moved

/-! ### The receive side is apart -/

/-- Two instances that differ in the receive side alone. -/
structure UsartInstance.SameTransmit (u u' : UsartInstance) : Prop where
  size : u'.txBufferSize = u.txBufferSize
  head : u'.txBufferHead = u.txBufferHead
  tail : u'.txBufferTail = u.txBufferTail
  buffer : u'.txBuffer = u.txBuffer
  txeie : u'.hal.txeie = u.hal.txeie
  tdr : u'.hal.tdr = u.hal.tdr
  shiftRegister : u'.hal.shiftRegister = u.hal.shiftRegister
  written : u'.hal.written = u.hal.written
  wire : u'.hal.wire = u.hal.wire

namespace UsartInstance.SameTransmit

variable {u' u'' : UsartInstance}

theorem refl (u : UsartInstance) : u.SameTransmit u := by constructor <;> rfl

theorem trans (h : u.SameTransmit u') (h' : u'.SameTransmit u'') : u.SameTransmit u'' where
  size := h'.size.trans h.size
  head := h'.head.trans h.head
  tail := h'.tail.trans h.tail
  buffer := h'.buffer.trans h.buffer
  txeie := h'.txeie.trans h.txeie
  tdr := h'.tdr.trans h.tdr
  shiftRegister := h'.shiftRegister.trans h.shiftRegister
  written := h'.written.trans h.written
  wire := h'.wire.trans h.wire

theorem queued (h : u.SameTransmit u') : u'.queued = u.queued := by
  rw [UsartInstance.queued, h.size, h.head, h.tail, h.buffer]
  rfl

theorem inTransmitter (h : u.SameTransmit u') : u'.hal.inTransmitter = u.hal.inTransmitter := by
  rw [UsartHal.inTransmitter, h.shiftRegister, h.tdr]
  rfl

theorem wf (h : u.SameTransmit u') (hwf : u.Wf) : u'.Wf where
  ring := by
    rw [h.size, h.head, h.tail]
    exact hwf.ring
  enabled := by
    rw [h.queued, h.txeie]
    exact hwf.enabled
  written := by
    rw [h.wire, h.inTransmitter, h.written]
    exact hwf.written

end UsartInstance.SameTransmit

theorem sameTransmit_usartIrqReceive (u : UsartInstance) :
    u.SameTransmit (usartIrqReceive u) := by
  simp only [usartIrqReceive]
  cases u.hal.rdr <;> constructor <;> rfl

theorem sameTransmit_receive (u : UsartInstance) (data : Byte) :
    u.SameTransmit (lineStep u (.receive data)) := by
  simp only [lineStep, UsartHal.receive]
  split <;> constructor <;> rfl

theorem sameTransmit_usartRead (u : UsartInstance) : u.SameTransmit (usartRead u).2 := by
  simp only [usartRead]
  split <;> constructor <;> rfl

/-! ### What the peripheral does to the bytes on their way -/

theorem UsartHal.inTransmitter_load (h : UsartHal) : h.load.inTransmitter = h.inTransmitter := by
  simp only [load]
  split_ifs with hfree
  · simp [inTransmitter, Option.isNone_iff_eq_none.mp hfree]
  · rfl

theorem UsartHal.load_same (h : UsartHal) :
    h.load.txeie = h.txeie ∧ h.load.written = h.written ∧ h.load.wire = h.wire := by
  simp only [load]
  split_ifs <;> exact ⟨rfl, rfl, rfl⟩

theorem UsartHal.load_rdr (h : UsartHal) : h.load.rdr = h.rdr := by
  simp only [load]
  split_ifs <;> rfl

theorem UsartHal.receive_same (h : UsartHal) (data : Byte) :
    (h.receive data).txeie = h.txeie ∧ (h.receive data).written = h.written ∧
      ((h.receive data).rdr = some data ∨ (h.receive data).rdr = h.rdr) := by
  simp only [receive]
  split_ifs
  · exact ⟨rfl, rfl, .inl rfl⟩
  · exact ⟨rfl, rfl, .inr rfl⟩

theorem UsartHal.wire_shift (h : UsartHal) :
    h.shift.wire ++ h.shift.inTransmitter = h.wire ++ h.inTransmitter := by
  simp [shift, inTransmitter]

theorem UsartInstance.SameTransmit.moved {u' : UsartInstance} (h : u.SameTransmit u')
    (hwf : u.Wf) : u.Moved u' where
  wf := h.wf hwf
  size := h.size
  bytes := ⟨[], h.queued.symm, h.written.trans (List.append_nil _).symm⟩

theorem moved_load (h : u.Wf) : u.Moved { u with hal := u.hal.load } := by
  obtain ⟨htxeie, hwritten, hwire⟩ := u.hal.load_same
  refine ⟨⟨h.ring, fun hne => htxeie.trans (h.enabled hne), ?_⟩, rfl, [], rfl, ?_⟩
  · show u.hal.load.wire ++ u.hal.load.inTransmitter = u.hal.load.written
    rw [hwire, hwritten, UsartHal.inTransmitter_load, h.written]
  · rw [hwritten, List.append_nil]

theorem moved_shift (h : u.Wf) : u.Moved { u with hal := u.hal.shift } :=
  ⟨⟨h.ring, h.enabled, u.hal.wire_shift.trans h.written⟩, rfl, [], rfl, (List.append_nil _).symm⟩

/-- **Beside the program, bytes only move from the ring to `TDR` and on.** -/
theorem moved_lineStep (h : u.Wf) (e : LineEvent) : u.Moved (lineStep u e) := by
  cases e with
  | irq =>
    simp only [lineStep]
    split_ifs
    · have hmoved := moved_usartIrqTransmit h
      exact hmoved.trans ((sameTransmit_usartIrqReceive _).moved hmoved.wf)
    · exact .refl h
  | load => exact moved_load h
  | shift => exact moved_shift h
  | receive data => exact (sameTransmit_receive u data).moved h

theorem moved_runFrom_lineStep (es : List LineEvent) :
    ∀ {u : UsartInstance}, u.Wf → u.Moved (Run.runFrom lineStep u es) := by
  induction es with
  | nil => exact fun h => .refl h
  | cons e es ih => exact fun h => (moved_lineStep h e).trans (ih (moved_lineStep h e).wf)

/-! ### Inside a call -/

/-- Inside `usart_send` the transmit-empty interrupt is masked: with no byte received, the
handler is not entered at any of its statements. -/
theorem usartIrqPending_inside_usartSend (hrdr : u.hal.rdr = none) (b : Byte) :
    usartIrqPending (u.setTxeie false).hal = false ∧
      usartIrqPending (usartStore (u.setTxeie false) b).hal = false := by
  simp [usartIrqPending, UsartHal.rxne, UsartInstance.setTxeie, usartStore, hrdr]

theorem UsartInstance.Wf.usartClearBuffers (h : u.Wf) : (usartClearBuffers u).Wf where
  ring := InRing.zero _
  enabled := fun hne => absurd (contents_self _ _ _) hne
  written := h.written

@[simp] theorem queued_usartClearBuffers (u : UsartInstance) : (usartClearBuffers u).queued = [] :=
  contents_self _ _ _

end PcbMill
