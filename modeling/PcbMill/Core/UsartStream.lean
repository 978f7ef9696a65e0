import PcbMill.Core.Tmc2209
import PcbMill.Lib.Conservation

/-!
# What becomes of the bytes passed to `usart_send`

`usart_send` does not look at the tail.  A byte sent into a ring with one place left makes the
indices equal, and the whole ring is taken for empty: the stream is whole exactly as long as no
byte is sent into such a ring.  The ring of the stepper drivers is one write datagram long, so
the last byte of a datagram is sent into such a ring unless the interrupt has taken one before.
-/

namespace PcbMill

open Run Conservation RingBuffer

inductive UsartEvent where
  | send (b : Byte)
  | line (e : LineEvent)

/-- A USART and the bytes passed to `usart_send` so far. -/
structure SendRun where
  usart : UsartInstance
  passed : List Byte

def sendStep (r : SendRun) : UsartEvent → SendRun
  | .send b => { usart := usartSend r.usart b, passed := r.passed ++ [b] }
  | .line e => { r with usart := lineStep r.usart e }

/-- The bytes written to `TDR` and those queued are the bytes passed, in order. -/
def SendRun.Intact (r : SendRun) : Prop := r.usart.hal.written ++ r.usart.queued = r.passed

instance (r : SendRun) : Decidable r.Intact := inferInstanceAs (Decidable (_ = _))

/-- A byte is sent into a ring with room for it. -/
def SendOk (r : SendRun) : UsartEvent → Prop
  | .send _ => r.usart.HasRoom
  | .line _ => True

/-- The ring is sound, and `k` bytes passed to it are lost. -/
structure SendAccount (k : ℕ) (r : SendRun) : Prop where
  wf : r.usart.Wf
  accounts : Accounts r.passed (r.usart.hal.written ++ r.usart.queued) k

variable {k : ℕ} {r : SendRun}

theorem SendAccount.intact_iff (h : SendAccount k r) : r.Intact ↔ k = 0 := h.accounts.intact_iff

/-- **One byte or one event beside the program.** -/
theorem SendAccount.step (h : SendAccount k r) (e : UsartEvent) :
    Loses SendAccount k (sendStep r e) (SendOk r e) := by
  cases e with
  | line e =>
    have hmoved := moved_lineStep h.wf e
    refine .none ⟨hmoved.wf, ?_⟩ trivial
    show Accounts r.passed ((lineStep r.usart e).hal.written ++ (lineStep r.usart e).queued) k
    rw [hmoved.written_queued]
    exact h.accounts
  | send b =>
    have haccounts : Accounts (r.passed ++ [b])
        (r.usart.hal.written ++ (r.usart.queued ++ [b])) k := by
      rw [← List.append_assoc]
      exact h.accounts.append [b]
    by_cases hroom : r.usart.HasRoom
    · refine .none ⟨h.wf.usartSend b, ?_⟩ hroom
      show Accounts _ (r.usart.hal.written ++ (usartSend r.usart b).queued) k
      rw [hroom.queued_usartSend h.wf]
      exact haccounts
    · -- The ring reads as empty: everything in it is lost, and the byte with it.
      have hlost : r.usart.queued ++ [b] = [] ↔ r.usart.HasRoom := iff_of_false (by simp) hroom
      refine .some ⟨h.wf.usartSend b, ?_⟩ hlost
      show Accounts _ (r.usart.hal.written ++ (usartSend r.usart b).queued) _
      rw [h.wf.queued_usartSend_full hroom, List.append_nil]
      exact haccounts.drop

theorem sendAccount_init (txBuffer rxBuffer : ℕ → Byte) (txSize rxSize : ℕ) :
    SendAccount 0 ⟨usartInitHal (usartInstance txBuffer txSize rxBuffer rxSize), []⟩ where
  wf := ⟨InRing.zero txSize, fun hne => absurd (contents_self _ _ _) hne, rfl⟩
  accounts := by
    show Accounts [] ([] ++ contents txBuffer txSize 0 0) 0
    rw [contents_self]
    exact .nil

/-! ### A datagram and what happens between its bytes -/

/-- The bytes are sent one after another, with `gaps i` before byte `i` and after the last. -/
def sendAll : List Byte → (ℕ → List LineEvent) → List UsartEvent
  | [], gaps => (gaps 0).map .line
  | b :: bs, gaps => (gaps 0).map .line ++ .send b :: sendAll bs fun i => gaps (i + 1)

theorem sendAll_append_singleton (b : Byte) (bs : List Byte) :
    ∀ gaps : ℕ → List LineEvent, sendAll (bs ++ [b]) gaps =
      sendAll bs gaps ++ .send b :: (gaps (bs.length + 1)).map .line := by
  induction bs with
  | nil => exact fun _ => rfl
  | cons c bs ih =>
    intro gaps
    show _ ++ .send c :: sendAll (bs ++ [b]) _ = _
    rw [ih, sendAll, List.append_assoc, List.cons_append]
    rfl

theorem runFrom_line (es : List LineEvent) : ∀ r : SendRun,
    runFrom sendStep r (es.map .line) = { r with usart := runFrom lineStep r.usart es } := by
  induction es with
  | nil => exact fun _ => rfl
  | cons e es ih => exact fun r => ih (sendStep r (.line e))

theorem guarded_line (es : List LineEvent) :
    ∀ r : SendRun, Guarded sendStep SendOk r (es.map .line) := by
  induction es with
  | nil => exact fun _ => trivial
  | cons e es ih => exact fun r => ⟨trivial, ih _⟩

theorem runFrom_sendAll_passed (bs : List Byte) :
    ∀ (r : SendRun) (gaps : ℕ → List LineEvent),
      (runFrom sendStep r (sendAll bs gaps)).passed = r.passed ++ bs := by
  induction bs with
  | nil =>
    intro r gaps
    rw [sendAll, runFrom_line, List.append_nil]
  | cons b bs ih =>
    intro r gaps
    rw [sendAll, runFrom_append, runFrom_cons, ih, runFrom_line]
    exact List.append_assoc _ _ _

theorem UsartInstance.HasRoom.of_length {u : UsartInstance}
    (h : u.queued.length + 1 < u.txBufferSize) : u.HasRoom := by
  rwa [UsartInstance.queued, contents_length] at h

/-- As long as the bytes do not reach the size of the ring, each finds room. -/
theorem guarded_sendAll (bs : List Byte) :
    ∀ (r : SendRun) (gaps : ℕ → List LineEvent), r.usart.Wf →
      r.usart.queued.length + bs.length < r.usart.txBufferSize →
      Guarded sendStep SendOk r (sendAll bs gaps) := by
  induction bs with
  | nil => exact fun r gaps _ _ => guarded_line _ r
  | cons b bs ih =>
    intro r gaps hwf hlength
    have hmoved := moved_runFrom_lineStep (gaps 0) hwf
    have hle := hmoved.length_le
    have hsize := hmoved.size
    rw [List.length_cons] at hlength
    rw [sendAll, guarded_append, runFrom_line]
    have hroom : (runFrom lineStep r.usart (gaps 0)).HasRoom := .of_length (by omega)
    refine ⟨guarded_line _ r, hroom, ih _ _ (hmoved.wf.usartSend b) ?_⟩
    show (usartSend _ b).queued.length + bs.length < (runFrom lineStep r.usart (gaps 0)).txBufferSize
    rw [hroom.queued_usartSend hmoved.wf, List.length_append, List.length_singleton]
    omega

/-- A run that starts with an intact ring ends with one exactly when every byte found room. -/
theorem intact_runFrom_iff (h : SendAccount 0 r) (es : List UsartEvent) :
    (runFrom sendStep r es).Intact ↔ Guarded sendStep SendOk r es := by
  obtain ⟨k, hk, -, hiff⟩ := loses_run (fun k r e h => SendAccount.step h e) h
  rw [hk.intact_iff, hiff]

/-- A buffer has been cleared: the bytes written so far count as passed. -/
theorem sendAccount_cleared {u : UsartInstance} (h : u.Wf) :
    SendAccount 0 ⟨usartClearBuffers u, u.hal.written⟩ where
  wf := h.usartClearBuffers
  accounts := by
    show Accounts u.hal.written (u.hal.written ++ (usartClearBuffers u).queued) 0
    rw [queued_usartClearBuffers, List.append_nil]
    exact ⟨rfl, fun _ => rfl⟩

/-- What a run keeps: the ring is sound, of its size, and no byte written is taken back. -/
structure UsartInstance.Grown (u u' : UsartInstance) : Prop where
  wf : u'.Wf
  size : u'.txBufferSize = u.txBufferSize
  written : u.hal.written <+: u'.hal.written

theorem UsartInstance.Grown.trans {u u' u'' : UsartInstance} (h : u.Grown u')
    (h' : u'.Grown u'') : u.Grown u'' :=
  ⟨h'.wf, h'.size.trans h.size, h.written.trans h'.written⟩

theorem grown_sendStep (h : r.usart.Wf) (e : UsartEvent) :
    r.usart.Grown (sendStep r e).usart := by
  cases e with
  | send b => exact ⟨h.usartSend b, rfl, List.prefix_rfl⟩
  | line e =>
    have hmoved := moved_lineStep h e
    obtain ⟨d, -, hwritten⟩ := hmoved.bytes
    exact ⟨hmoved.wf, hmoved.size, d, hwritten.symm⟩

theorem grown_runFrom_sendStep (es : List UsartEvent) :
    ∀ {r : SendRun}, r.usart.Wf → r.usart.Grown (runFrom sendStep r es).usart := by
  induction es with
  | nil => exact fun h => ⟨h, rfl, List.prefix_rfl⟩
  | cons e es ih => exact fun h => (grown_sendStep h e).trans (ih (grown_sendStep h e).wf)

/-- With a ring that holds what is left of `bs`, there is room exactly when some of it has gone. -/
theorem hasRoom_iff_written_ne {u : UsartInstance} (h : u.Wf) {sent bs : List Byte}
    (hsize : u.txBufferSize = bs.length + 1) (hintact : u.hal.written ++ u.queued = sent ++ bs)
    (hsent : sent <+: u.hal.written) : u.HasRoom ↔ u.hal.written ≠ sent := by
  have hheld : u.queued.length = held u.txBufferSize u.txBufferHead u.txBufferTail :=
    contents_length
  have hlt := h.ring.held_lt
  constructor
  · intro hroom hwritten
    rw [hwritten] at hintact
    have hqueued := List.append_cancel_left hintact
    rw [hqueued] at hheld
    simp only [UsartInstance.HasRoom] at hroom
    omega
  · intro hne
    have hlength := congrArg List.length hintact
    rw [List.length_append, List.length_append] at hlength
    have hlong : sent.length < u.hal.written.length :=
      lt_of_le_of_ne hsent.length_le fun heq => hne (hsent.eq_of_length heq).symm
    simp only [UsartInstance.HasRoom]
    omega

/-- A datagram as long as the ring fits exactly when one byte has gone before its last. -/
theorem intact_sendAll_iff {u : UsartInstance} (h : u.Wf) (b : Byte) (bs : List Byte)
    (hsize : u.txBufferSize = bs.length + 1) (gaps : ℕ → List LineEvent) :
    (runFrom sendStep ⟨usartClearBuffers u, u.hal.written⟩ (sendAll (bs ++ [b]) gaps)).Intact ↔
      (runFrom sendStep ⟨usartClearBuffers u, u.hal.written⟩ (sendAll bs gaps)).usart.hal.written ≠
        u.hal.written := by
  have hcleared := sendAccount_cleared h
  have hfirst : Guarded sendStep SendOk ⟨usartClearBuffers u, u.hal.written⟩ (sendAll bs gaps) := by
    refine guarded_sendAll bs _ gaps h.usartClearBuffers ?_
    show (usartClearBuffers u).queued.length + bs.length < u.txBufferSize
    rw [queued_usartClearBuffers, List.length_nil]
    omega
  have hintact := (intact_runFrom_iff hcleared _).mpr hfirst
  rw [SendRun.Intact, runFrom_sendAll_passed] at hintact
  have hgrown := grown_runFrom_sendStep (sendAll bs gaps) hcleared.wf
  rw [intact_runFrom_iff hcleared, sendAll_append_singleton, guarded_append,
    ← hasRoom_iff_written_ne hgrown.wf (hgrown.size.trans hsize) hintact hgrown.written]
  exact ⟨fun hg => hg.2.1, fun hroom => ⟨hfirst, hroom, guarded_line _ _⟩⟩

/-! ### The stream and the datagrams -/

/-- The datagram of `tmc2209_send_write_reg` without its checksum. -/
def writeBody (addr reg : Byte) (data : BitVec 32) : List Byte :=
  (tmc2209WritePacket addr reg data).take 7

/-- **The transmit stream.**  A freshly initialised USART keeps every byte passed to it exactly
when each is sent into a ring with room for it, and a write datagram of the stepper drivers is
queued completely exactly when the interrupt has moved at least one of its bytes to `TDR` before
the eighth call of `usart_send`.  The interrupt comes between calls: inside of one the transmit
interrupt is masked. -/
theorem stream_intact_iff (txBuffer rxBuffer : ℕ → Byte) (txSize rxSize : ℕ)
    (es : List UsartEvent) (tes : List Tmc2209Event) (addr reg : Byte) (data : BitVec 32)
    (gaps : ℕ → List LineEvent) :
    (Always sendStep SendRun.Intact
        ⟨usartInitHal (usartInstance txBuffer txSize rxBuffer rxSize), []⟩ es ↔
      Guarded sendStep SendOk
        ⟨usartInitHal (usartInstance txBuffer txSize rxBuffer rxSize), []⟩ es) ∧
    (let u := (runFrom tmc2209Step (tmc2209Init txBuffer rxBuffer) tes).usart
     let r : SendRun := ⟨usartClearBuffers u, u.hal.written⟩
     (runFrom sendStep r (sendAll (tmc2209WritePacket addr reg data) gaps)).Intact ↔
      (runFrom sendStep r (sendAll (writeBody addr reg data) gaps)).usart.hal.written ≠
        u.hal.written) := by
  constructor
  · exact always_iff_guarded_of_loses (fun k r h => h.intact_iff) (fun k r e h => h.step e)
      (sendAccount_init txBuffer rxBuffer txSize rxSize)
  · have hwf := wf_runFrom_tmc2209Step tes (wf_tmc2209Init txBuffer rxBuffer)
    exact intact_sendAll_iff hwf.usart _ (writeBody addr reg data) hwf.size gaps

/-- The bytes of two frames are in the transmitter, and eight more are sent before the first of
them has left: the ring of the stepper drivers is full, and reads as empty. -/
theorem full_ring_reads_empty :
    ¬ ∀ (txBuffer rxBuffer : ℕ → Byte) (es : List UsartEvent),
      Always sendStep SendRun.Intact ⟨usartInitHal (serialBuffer txBuffer rxBuffer), []⟩ es := by
  intro h
  have hrun := (h (fun _ => 0) (fun _ => 0) ([.send 0x05, .line .irq, .line .load, .send 0x00,
    .line .irq] ++ (tmc2209WritePacket 0 1 0xb111).map .send)).last
  exact absurd hrun (by decide)

end PcbMill
