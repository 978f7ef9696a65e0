import PcbMill.Core.Tmc2209

/-!
# The datagrams on the wire

`usart_wait_data_sent` looks at the flags of the peripheral and not at the ring.  Once the byte
in the shift register has left before the interrupt has fetched the next one, both flags are set
with bytes still queued, and the operation that follows clears them.  A read does not wait for
its request at all.  So the datagrams stay whole as long as the interrupt is never late.

`usart_send` is taken apart into its statements here: it masks the transmit interrupt alone, and the
handler that an echoed byte calls runs its transmit half too.
-/

namespace PcbMill

open Run RingBuffer

/-! ### The statements of `usart_send` -/

/-- Where the program is in `usart_send`, with what it holds there. -/
inductive SendPc where
  | outside
  /-- before `tx_buffer_head` is incremented -/
  | increment (b : Byte)
  /-- before the byte is stored at the index that was read -/
  | store (b : Byte) (index : ℕ)
  /-- before `tx_buffer_head` is compared with the size -/
  | wrap
  /-- before the interrupt is enabled and the function returns -/
  | unmask
  deriving DecidableEq

/-- One statement of `usart_send` after the first, which masks the interrupt. -/
def usartSendStep (u : UsartInstance) : SendPc → UsartInstance × SendPc
  | .outside => (u, .outside)
  | .increment b => ({ u with txBufferHead := u.txBufferHead + 1 }, .store b u.txBufferHead)
  | .store b index => ({ u with txBuffer := Function.update u.txBuffer index b }, .wrap)
  | .wrap =>
    ({ u with txBufferHead := if u.txBufferSize ≤ u.txBufferHead then 0 else u.txBufferHead },
      .unmask)
  | .unmask => (u.setTxeie true, .outside)

/-- The byte is not in the ring yet. -/
def SendPc.held : SendPc → List Byte
  | .increment b => [b]
  | .store b _ => [b]
  | _ => []

/-- `tx_buffer_head` does not say what is in the ring. -/
def SendPc.storing : SendPc → Bool
  | .store .. => true
  | .wrap => true
  | _ => false

/-- The ring without the byte that is being put into it, or with it once it is stored. -/
def SendPc.settled (pc : SendPc) (u : UsartInstance) : UsartInstance :=
  match pc with
  | .store _ index => { u with txBufferHead := index }
  | .wrap =>
    { u with txBufferHead := if u.txBufferSize ≤ u.txBufferHead then 0 else u.txBufferHead }
  | _ => u

/-! ### Runs -/

/-- The driver, and where it is in `usart_send`. -/
structure WireRun where
  driver : Tmc2209
  pc : SendPc

def wireInit (txBuffer rxBuffer : ℕ → Byte) : WireRun :=
  { driver := tmc2209Init txBuffer rxBuffer, pc := .outside }

def wireStart (r : WireRun) (op : Tmc2209Operation) : WireRun :=
  match r.pc with
  | .outside => { r with driver := tmc2209Start r.driver op }
  | _ => r

/-- The main loop goes on: a statement of `usart_send`, or a step of the rest of the operation. -/
def wireRun (r : WireRun) : WireRun :=
  match r.pc, r.driver.main with
  | .outside, .send op (b :: rest) =>
    { driver := { r.driver with usart := r.driver.usart.setTxeie false, main := .send op rest }
      pc := .increment b }
  | .outside, _ => { r with driver := tmc2209Run r.driver }
  | pc, _ =>
    { driver := { r.driver with usart := (usartSendStep r.driver.usart pc).1 }
      pc := (usartSendStep r.driver.usart pc).2 }

def wireStep (r : WireRun) : Tmc2209Event → WireRun
  | .start op => wireStart r op
  | .run => wireRun r
  | .line e => { r with driver := tmc2209Step r.driver (.line e) }

/-- Undisturbed, the statements are `usart_send`. -/
theorem wireStep_send {t : Tmc2209} {op : Tmc2209Operation} {b : Byte} {rest : List Byte}
    (hmain : t.main = .send op (b :: rest)) :
    runFrom wireStep ⟨t, .outside⟩ (List.replicate 5 .run) = ⟨tmc2209Run t, .outside⟩ := by
  obtain ⟨usart, main, values, packets⟩ := t
  subst hmain
  rfl

/-! ### What becomes of the bytes -/

/-- The bytes of the current packet not yet passed to `usart_send`. -/
def Tmc2209Main.rest : Tmc2209Main → List Byte
  | send _ rest => rest
  | _ => []

/-- Every byte of every packet has left or is on its way, in order: nothing is cut off. -/
def WireRun.Whole (r : WireRun) : Prop :=
  r.driver.usart.hal.wire ++ r.driver.usart.hal.inTransmitter ++
    (r.pc.settled r.driver.usart).queued ++ (r.pc.held ++ r.driver.main.rest) =
      r.driver.packets.flatten

/-- The byte stream on the wire is the packets of all operations so far, each complete. -/
def Tmc2209.Sent (t : Tmc2209) : Prop := t.usart.hal.wire = t.packets.flatten

instance (r : WireRun) : Decidable r.Whole := inferInstanceAs (Decidable (_ = _))

/-- When an operation clears the buffers, and when the wait returns, everything has left. -/
def WireDrained (r : WireRun) : Tmc2209Event → Prop
  | .start _ =>
    match r.pc, r.driver.main with
    | .outside, .idle => r.driver.Sent
    | _, _ => True
  | .run =>
    match r.driver.main with
    | .waitTc => r.driver.usart.hal.tc = true → r.driver.usart.queued = [] ∧ r.driver.Sent
    | _ => True
  | .line _ => True

/-! ### A prompt interrupt -/

/-- The main loop takes no step while the interrupt is pending, begins an operation with `TC` set,
and is not interrupted with `TDR` empty between the increment of `tx_buffer_head` and its
wrap. -/
def WirePrompt (r : WireRun) : Tmc2209Event → Prop
  | .start _ => usartIrqPending r.driver.usart.hal = false ∧ r.driver.usart.hal.tc = true
  | .run => usartIrqPending r.driver.usart.hal = false
  | .line .irq => r.pc.storing = true → usartIrqPending r.driver.usart.hal = true →
      r.driver.usart.hal.txe = false
  | .line _ => True

instance (r : WireRun) (e : Tmc2209Event) : Decidable (WirePrompt r e) :=
  match e with
  | .start _ => inferInstanceAs (Decidable (_ ∧ _))
  | .run => inferInstanceAs (Decidable (_ = _))
  | .line .irq => inferInstanceAs (Decidable (_ → _ → _))
  | .line .load => .isTrue trivial
  | .line .shift => .isTrue trivial
  | .line (.receive _) => .isTrue trivial

/-- The instance with its ring settled and the transmit interrupt enabled. -/
def WireRun.opened (r : WireRun) : UsartInstance := (r.pc.settled r.driver.usart).setTxeie true

/-- A packet of eight bytes that is being sent and has not gone further than the ring finds `TDR`
empty. -/
def Tmc2209.FirstWaits (t : Tmc2209) : Prop :=
  ∀ op rest, t.main = .send op rest →
    t.packets.flatten.length ≤ t.usart.hal.written.length + 8 ∧
      (t.packets.flatten.length = t.usart.hal.written.length + 8 → t.usart.hal.tdr = none)

/-- What a prompt interrupt keeps. -/
structure WireRun.Prompt (r : WireRun) : Prop where
  opened : r.opened.Wf
  size : r.driver.usart.txBufferSize = 8
  enabled : r.pc = .outside → r.driver.usart.queued ≠ [] → r.driver.usart.hal.txeie = true
  index : ∀ b i, r.pc = .store b i → r.driver.usart.txBufferHead = i + 1
  sending : r.pc ≠ .outside → ∃ op rest, r.driver.main = .send op rest
  whole : r.Whole
  first : r.driver.FirstWaits
  /-- Only the first byte of a packet of eight is put into the ring before one is fetched. -/
  fetched : r.pc.held ≠ [] →
    r.driver.packets.flatten.length = r.driver.usart.hal.written.length + 8 →
      r.opened.queued = []

variable {r : WireRun} {t : Tmc2209} {u : UsartInstance}

theorem UsartInstance.Wf.setTxeie_true (h : u.Wf) : (u.setTxeie true).Wf :=
  ⟨h.ring, fun _ => rfl, h.written⟩

/-! ### Beside the program -/

/-- The handler does to the ring what it does with the interrupt enabled. -/
theorem moved_usartIrqHandler (h : (u.setTxeie true).Wf) :
    (u.setTxeie true).Moved ((usartIrqHandler u).setTxeie true) := by
  have htransmit : (u.setTxeie true).Moved ((usartIrqTransmit u).setTxeie true) := by
    by_cases htxe : u.hal.txe = true
    · by_cases hne : u.txBufferTail ≠ u.txBufferHead
      · have hsame : (usartIrqTransmit u).setTxeie true = usartIrqTransmit (u.setTxeie true) := by
          have htxe' : (u.setTxeie true).hal.txe = true := htxe
          have hne' : (u.setTxeie true).txBufferTail ≠ (u.setTxeie true).txBufferHead := hne
          rw [usartIrqTransmit, usartIrqTransmit, if_pos htxe, if_pos hne, if_pos htxe',
            if_pos hne']
          rfl
        rw [hsame]
        exact moved_usartIrqTransmit h
      · rw [usartIrqTransmit, if_pos htxe, if_neg hne]
        exact .refl h
    · rw [usartIrqTransmit, if_neg htxe]
      exact .refl h
  have hreceive : ((usartIrqTransmit u).setTxeie true).SameTransmit
      ((usartIrqHandler u).setTxeie true) := by
    obtain ⟨size, head, tail, buffer, -, tdr, shiftRegister, written, wire⟩ :=
      sameTransmit_usartIrqReceive (usartIrqTransmit u)
    exact ⟨size, head, tail, buffer, rfl, tdr, shiftRegister, written, wire⟩
  exact htransmit.trans (hreceive.moved htransmit.wf)

theorem SendPc.settled_of_not_storing {pc : SendPc} (h : pc.storing = false) (u : UsartInstance) :
    pc.settled u = u := by
  cases pc <;> first | rfl | cases h

theorem SendPc.settled_hal (pc : SendPc) (u : UsartInstance) (hal : UsartHal) :
    pc.settled { u with hal := hal } = { pc.settled u with hal := hal } := by
  cases pc <;> rfl

theorem SendPc.hal_settled (pc : SendPc) (u : UsartInstance) : (pc.settled u).hal = u.hal := by
  cases pc <;> rfl

/-- What does not touch the transmit side does not touch the settled ring. -/
theorem UsartInstance.SameTransmit.opened {u' : UsartInstance} (h : u.SameTransmit u')
    (pc : SendPc) :
    ((pc.settled u).setTxeie true).SameTransmit ((pc.settled u').setTxeie true) := by
  obtain ⟨size, head, tail, buffer, -, tdr, shiftRegister, written, wire⟩ := h
  cases pc with
  | store b index => exact ⟨size, rfl, tail, buffer, rfl, tdr, shiftRegister, written, wire⟩
  | wrap =>
    refine ⟨size, ?_, tail, buffer, rfl, tdr, shiftRegister, written, wire⟩
    show (if u'.txBufferSize ≤ u'.txBufferHead then 0 else u'.txBufferHead) =
      if u.txBufferSize ≤ u.txBufferHead then 0 else u.txBufferHead
    rw [size, head]
  | outside | increment b | unmask =>
    exact ⟨size, head, tail, buffer, rfl, tdr, shiftRegister, written, wire⟩

/-- **Beside the program, bytes only move from the ring to `TDR` and on**, also inside
`usart_send`. -/
theorem moved_opened (h : r.opened.Wf) (e : LineEvent) (hprompt : WirePrompt r (.line e)) :
    r.opened.Moved (wireStep r (.line e)).opened := by
  cases e with
  | irq =>
    show r.opened.Moved ((r.pc.settled (lineStep r.driver.usart .irq)).setTxeie true)
    by_cases hpending : usartIrqPending r.driver.usart.hal = true
    · rw [lineStep, if_pos hpending]
      cases hstoring : r.pc.storing with
      | true =>
        -- with `TDR` full the handler runs its receive half only
        have htxe := hprompt hstoring hpending
        rw [usartIrqHandler, usartIrqTransmit, if_neg (ne_true_of_eq_false htxe)]
        exact ((sameTransmit_usartIrqReceive r.driver.usart).opened r.pc).moved h
      | false =>
        rw [WireRun.opened, r.pc.settled_of_not_storing hstoring] at h ⊢
        rw [r.pc.settled_of_not_storing hstoring]
        exact moved_usartIrqHandler h
    · rw [lineStep, if_neg hpending]
      exact .refl h
  | load =>
    have hmoved := moved_load h
    have hopened : ({ r.opened with hal := r.opened.hal.load } : UsartInstance) =
        (wireStep r (.line .load)).opened := by
      show _ = (r.pc.settled { r.driver.usart with hal := r.driver.usart.hal.load }).setTxeie true
      rw [r.pc.settled_hal]
      simp only [WireRun.opened, UsartInstance.setTxeie, r.pc.hal_settled, UsartHal.load]
      split <;> rfl
    rwa [hopened] at hmoved
  | shift =>
    have hmoved := moved_shift h
    have hopened : ({ r.opened with hal := r.opened.hal.shift } : UsartInstance) =
        (wireStep r (.line .shift)).opened := by
      show _ = (r.pc.settled { r.driver.usart with hal := r.driver.usart.hal.shift }).setTxeie true
      rw [r.pc.settled_hal]
      simp only [WireRun.opened, UsartInstance.setTxeie, r.pc.hal_settled, UsartHal.shift]
    rwa [hopened] at hmoved
  | receive data => exact ((sameTransmit_receive r.driver.usart data).opened r.pc).moved h

/-- `TDR` stays empty as long as nothing is written to it. -/
theorem tdr_lineStep (e : LineEvent) (htdr : u.hal.tdr = none)
    (hwritten : (lineStep u e).hal.written.length = u.hal.written.length) :
    (lineStep u e).hal.tdr = none := by
  cases e with
  | irq =>
    simp only [lineStep] at hwritten ⊢
    split_ifs at hwritten ⊢
    · have hsame := sameTransmit_usartIrqReceive (usartIrqTransmit u)
      rw [usartIrqHandler, hsame.written] at hwritten
      rw [usartIrqHandler, hsame.tdr]
      simp only [usartIrqTransmit] at hwritten ⊢
      split_ifs at hwritten ⊢
      · simp at hwritten
      · exact htdr
      · exact htdr
    · exact htdr
  | load =>
    simp only [lineStep, UsartHal.load]
    split_ifs
    · rfl
    · exact htdr
  | shift => exact htdr
  | receive data => exact (sameTransmit_receive u data).tdr.trans htdr

theorem lineStep_txBufferHead (u : UsartInstance) (e : LineEvent) :
    (lineStep u e).txBufferHead = u.txBufferHead := by
  cases e with
  | irq =>
    simp only [lineStep]
    split_ifs
    · rw [usartIrqHandler, (sameTransmit_usartIrqReceive _).head]
      simp only [usartIrqTransmit]
      split_ifs <;> rfl
    · rfl
  | load => rfl
  | shift => rfl
  | receive data => exact (sameTransmit_receive u data).head

theorem WireRun.opened_hal (r : WireRun) :
    r.opened.hal = { r.driver.usart.hal with txeie := true } := by
  rw [opened, UsartInstance.setTxeie, r.pc.hal_settled]

theorem WireRun.opened_size (r : WireRun) : r.opened.txBufferSize = r.driver.usart.txBufferSize := by
  cases hpc : r.pc <;> simp only [opened, SendPc.settled, hpc, UsartInstance.setTxeie]

theorem WireRun.whole_iff (h : r.opened.Wf) : r.Whole ↔
    r.opened.hal.written ++ r.opened.queued ++ (r.pc.held ++ r.driver.main.rest) =
      r.driver.packets.flatten := by
  have hwritten := h.written
  rw [r.opened_hal] at hwritten ⊢
  rw [← hwritten]
  rfl

/-! ### The steps of an operation that send nothing -/

theorem packet_length_le (op : Tmc2209Operation) : op.packet.length ≤ 8 := by
  cases op <;> simp [Tmc2209Operation.packet, tmc2209ReadPacket, tmc2209WritePacket]

/-- Where the main loop stands when it is not sending does not matter. -/
theorem firstWaits_of_main {m : Tmc2209Main} (hm : ∀ op rest, m ≠ .send op rest)
    (usart : UsartInstance) (values : List (BitVec 32)) (packets : List (List Byte)) :
    Tmc2209.FirstWaits ⟨usart, m, values, packets⟩ :=
  fun op rest heq => absurd heq (hm op rest)

theorem first_tmc2209Run (h : t.FirstWaits) : (tmc2209Run t).FirstWaits := by
  simp only [tmc2209Run]
  cases hmain : t.main with
  | idle => exact h
  | send op rest =>
    cases rest with
    | nil => exact firstWaits_of_main (by cases op <;> simp [Tmc2209Operation.afterSend]) _ _ _
    | cons b rest => exact fun _ _ _ => h _ _ hmain
  | waitTxe =>
    dsimp only
    split_ifs
    · exact firstWaits_of_main (by simp) _ _ _
    · exact h
  | waitTc =>
    dsimp only
    split_ifs
    · exact firstWaits_of_main (by simp) _ _ _
    · exact h
  | waitForCount reg maxWaitMs =>
    dsimp only
    cases usartWaitForCount t.usart (4 + 8) maxWaitMs <;> exact firstWaits_of_main (by simp) _ _ _
  | parse reg => exact firstWaits_of_main (by simp) _ _ _

/-- They keep the transmit side and what is left. -/
theorem whole_tmc2209Run
    (hwhole : t.usart.hal.wire ++ t.usart.hal.inTransmitter ++ t.usart.queued ++ t.main.rest =
      t.packets.flatten) (hmain : ∀ op b rest, t.main ≠ .send op (b :: rest)) :
    (tmc2209Run t).usart.hal.wire ++ (tmc2209Run t).usart.hal.inTransmitter ++
      (tmc2209Run t).usart.queued ++ (tmc2209Run t).main.rest = (tmc2209Run t).packets.flatten := by
  have hnone : t.main.rest = [] := by
    cases hm : t.main with
    | send op rest =>
      cases rest with
      | nil => rfl
      | cons b rest => exact absurd hm (hmain op b rest)
    | _ => rfl
  have hkeep : ∀ m : Tmc2209Main, m.rest = [] → t.usart.hal.wire ++ t.usart.hal.inTransmitter ++
      t.usart.queued ++ m.rest = t.packets.flatten := by
    intro m hm
    rw [hm, ← hnone]
    exact hwhole
  simp only [tmc2209Run]
  cases hm : t.main with
  | idle => exact hwhole
  | send op rest =>
    cases rest with
    | nil => exact hkeep _ (by cases op <;> rfl)
    | cons b rest => exact absurd hm (hmain op b rest)
  | waitTxe =>
    dsimp only
    split_ifs
    · exact hkeep _ rfl
    · exact hwhole
  | waitTc =>
    dsimp only
    split_ifs
    · exact hkeep _ rfl
    · exact hwhole
  | waitForCount reg maxWaitMs =>
    dsimp only
    cases usartWaitForCount t.usart (4 + 8) maxWaitMs <;> exact hkeep _ rfl
  | parse reg =>
    have hsame := sameTransmit_tmc2209ParseResponse t.usart 4 reg
    dsimp only
    rw [hsame.wire, hsame.inTransmitter, hsame.queued]
    exact hkeep .idle rfl

namespace WireRun.Prompt

/-- Outside `usart_send` the driver is as if it had no statements. -/
theorem wf (h : r.Prompt) (hpc : r.pc = .outside) : r.driver.Wf := by
  have hopened := h.opened
  rw [WireRun.opened, hpc] at hopened
  exact ⟨⟨hopened.ring, h.enabled hpc, hopened.written⟩, h.size⟩

theorem line (h : r.Prompt) (e : LineEvent) (hprompt : WirePrompt r (.line e)) :
    (wireStep r (.line e)).Prompt := by
  have hmoved := moved_opened h.opened e hprompt
  obtain ⟨d, hqueued, hwritten⟩ := hmoved.bytes
  have hgrown : (lineStep r.driver.usart e).hal.written = r.driver.usart.hal.written ++ d := by
    have hold := congrArg UsartHal.written (opened_hal r)
    have hnew := congrArg UsartHal.written (opened_hal (wireStep r (.line e)))
    rw [hold] at hwritten
    exact hnew.symm.trans hwritten
  have hlength := congrArg List.length hgrown
  rw [List.length_append] at hlength
  exact
    { opened := hmoved.wf
      size := by
        have hsize := hmoved.size
        rw [opened_size, opened_size] at hsize
        exact hsize.trans h.size
      enabled := fun hpc => (moved_lineStep (h.wf hpc).usart e).wf.enabled
      index := fun b i hpc => (lineStep_txBufferHead _ e).trans (h.index b i hpc)
      sending := h.sending
      whole := by
        have hwhole := (whole_iff h.opened).mp h.whole
        rw [whole_iff hmoved.wf, hmoved.written_queued]
        exact hwhole
      first := by
        intro op rest hmain
        obtain ⟨hle, hfirst⟩ := h.first op rest hmain
        show r.driver.packets.flatten.length ≤ (lineStep r.driver.usart e).hal.written.length + 8 ∧
          (r.driver.packets.flatten.length = (lineStep r.driver.usart e).hal.written.length + 8 →
            (lineStep r.driver.usart e).hal.tdr = none)
        exact ⟨by omega, fun heq => tdr_lineStep e (hfirst (by omega)) (by omega)⟩
      fetched := by
        intro hheld heq
        have heq : r.driver.packets.flatten.length =
          (lineStep r.driver.usart e).hal.written.length + 8 := heq
        obtain ⟨op, rest, hmain⟩ := h.sending fun hout => hheld (by
          show r.pc.held = []
          rw [hout]
          rfl)
        have hle := (h.first op rest hmain).1
        have hempty := h.fetched hheld (by omega)
        rw [hempty] at hqueued
        exact (List.append_eq_nil_iff.mp hqueued.symm).2 }

/-- Where no interrupt is pending and `TDR` is empty, so is the ring. -/
theorem queued_eq_nil (h : r.Prompt) (hpc : r.pc = .outside)
    (hpending : usartIrqPending r.driver.usart.hal = false) (htdr : r.driver.usart.hal.tdr = none) :
    r.driver.usart.queued = [] := by
  by_contra hqueued
  simp [usartIrqPending, UsartHal.txe, h.enabled hpc hqueued, htdr] at hpending

theorem whole_outside (h : r.Prompt) (hpc : r.pc = .outside) :
    r.driver.usart.hal.wire ++ r.driver.usart.hal.inTransmitter ++ r.driver.usart.queued ++
      r.driver.main.rest = r.driver.packets.flatten := by
  have hwhole := h.whole
  rw [WireRun.Whole, hpc] at hwhole
  exact hwhole

/-- With the interrupt served, `TC` set and nothing left to pass, everything is out. -/
theorem drained_of_tc (h : r.Prompt) (hpc : r.pc = .outside)
    (hpending : usartIrqPending r.driver.usart.hal = false) (htc : r.driver.usart.hal.tc = true)
    (hrest : r.driver.main.rest = []) : r.driver.usart.queued = [] ∧ r.driver.Sent := by
  have hempty := UsartHal.tc_iff.mp htc
  simp only [UsartHal.tc, Bool.and_eq_true, Option.isNone_iff_eq_none] at htc
  have hqueued := h.queued_eq_nil hpc hpending htc.1
  have hwhole := h.whole_outside hpc
  rw [hempty, hqueued, hrest] at hwhole
  simp only [List.append_nil] at hwhole
  exact ⟨hqueued, hwhole⟩

/-! ### The main loop -/

/-- Outside `usart_send` what is to be kept is about the driver alone. -/
theorem of_outside {t : Tmc2209} (hwf : t.Wf)
    (hwhole : t.usart.hal.wire ++ t.usart.hal.inTransmitter ++ t.usart.queued ++ t.main.rest =
      t.packets.flatten) (hfirst : t.FirstWaits) : WireRun.Prompt ⟨t, .outside⟩ where
  opened := hwf.usart.setTxeie_true
  size := hwf.size
  enabled := fun _ => hwf.usart.enabled
  index := fun _ _ hpc => SendPc.noConfusion hpc
  sending := fun hpc => absurd rfl hpc
  whole := hwhole
  first := hfirst
  fetched := fun hheld => absurd rfl hheld

theorem start (h : r.Prompt) (op : Tmc2209Operation) (hprompt : WirePrompt r (.start op)) :
    (wireStart r op).Prompt := by
  cases hpc : r.pc with
  | outside =>
    rw [wireStart, hpc]
    dsimp only
    have hstarted := (h.wf hpc).start op
    cases hmain : r.driver.main with
    | idle =>
      obtain ⟨hqueued, hsent⟩ := h.drained_of_tc hpc hprompt.1 hprompt.2 (by rw [hmain]; rfl)
      rw [tmc2209Start, hmain] at hstarted ⊢
      have hempty := UsartHal.tc_iff.mp hprompt.2
      refine of_outside hstarted ?_ ?_
      · show r.driver.usart.hal.wire ++ r.driver.usart.hal.inTransmitter ++
          (usartClearBuffers r.driver.usart).queued ++ op.packet =
            (r.driver.packets ++ [op.packet]).flatten
        rw [hempty, queued_usartClearBuffers, List.append_nil, List.append_nil, hsent,
          List.flatten_append, List.flatten_singleton]
      · intro op' rest _
        have hwritten := (h.wf hpc).usart.written
        rw [hempty, List.append_nil, hsent] at hwritten
        have htc := hprompt.2
        simp only [UsartHal.tc, Bool.and_eq_true, Option.isNone_iff_eq_none] at htc
        have hle := packet_length_le op
        show (r.driver.packets ++ [op.packet]).flatten.length ≤
          r.driver.usart.hal.written.length + 8 ∧ (_ → r.driver.usart.hal.tdr = none)
        refine ⟨?_, fun _ => htc.1⟩
        rw [List.flatten_append, ← hwritten, List.flatten_singleton, List.length_append]
        omega
    | _ =>
      rw [tmc2209Start, hmain]
      exact of_outside (h.wf hpc) (h.whole_outside hpc) h.first
  | _ =>
    rw [wireStart, hpc]
    exact h

/-- The steps of an operation that send nothing. -/
theorem run_outside (h : r.Prompt) (hpc : r.pc = .outside)
    (hmain : ∀ op b rest, r.driver.main ≠ .send op (b :: rest)) :
    WireRun.Prompt ⟨tmc2209Run r.driver, .outside⟩ :=
  of_outside (h.wf hpc).run (whole_tmc2209Run (h.whole_outside hpc) hmain) (first_tmc2209Run h.first)

/-- `usart_send` begins. -/
theorem mask (h : r.Prompt) (hpc : r.pc = .outside)
    (hpending : usartIrqPending r.driver.usart.hal = false) {op : Tmc2209Operation} {b : Byte}
    {rest : List Byte} (hmain : r.driver.main = .send op (b :: rest)) :
    WireRun.Prompt ⟨{ r.driver with usart := r.driver.usart.setTxeie false, main := .send op rest },
      .increment b⟩ where
  opened := (h.wf hpc).usart.setTxeie_true
  size := h.size
  enabled := fun hout => SendPc.noConfusion hout
  index := fun _ _ hstore => SendPc.noConfusion hstore
  sending := fun _ => ⟨op, rest, rfl⟩
  whole := by
    have hwhole := h.whole_outside hpc
    rw [hmain] at hwhole
    exact hwhole
  first := fun _ _ _ => h.first _ _ hmain
  fetched := fun _ heq => h.queued_eq_nil hpc hpending ((h.first _ _ hmain).2 heq)

theorem increment (h : r.Prompt) {b : Byte} (hpc : r.pc = .increment b) :
    WireRun.Prompt ⟨{ r.driver with usart := (usartSendStep r.driver.usart r.pc).1 },
      (usartSendStep r.driver.usart r.pc).2⟩ := by
  have hopened := h.opened
  have hwhole := h.whole
  have hfetched := h.fetched
  rw [WireRun.opened, hpc] at hopened
  rw [WireRun.Whole, hpc] at hwhole
  rw [WireRun.opened, hpc] at hfetched
  rw [hpc]
  exact
    { opened := hopened
      size := h.size
      enabled := fun hout => SendPc.noConfusion hout
      index := by
        intro b i hstore
        cases hstore
        rfl
      sending := fun _ => h.sending (by rw [hpc]; exact SendPc.noConfusion)
      whole := hwhole
      first := h.first
      fetched := hfetched }

/-- Once it is stored, the byte is in the ring: there is room for it. -/
theorem store (h : r.Prompt) {b : Byte} {i : ℕ} (hpc : r.pc = .store b i) :
    WireRun.Prompt ⟨{ r.driver with usart := (usartSendStep r.driver.usart r.pc).1 },
      (usartSendStep r.driver.usart r.pc).2⟩ := by
  have hsending := h.sending (by rw [hpc]; exact SendPc.noConfusion)
  obtain ⟨op, rest, hmain⟩ := hsending
  have hle := (h.first _ _ hmain).1
  have hwhole := (whole_iff h.opened).mp h.whole
  have hfetched := h.fetched (by rw [hpc]; exact List.cons_ne_nil _ _)
  have hroom : r.opened.HasRoom := by
    by_contra hfull
    have hheld : r.opened.queued.length =
      held r.opened.txBufferSize r.opened.txBufferHead r.opened.txBufferTail := contents_length
    have hlength := congrArg List.length hwhole
    have hwritten := congrArg (List.length ∘ UsartHal.written) r.opened_hal
    have hsize := r.opened_size.trans h.size
    simp only [Function.comp_apply] at hwritten
    simp only [List.length_append, hpc, SendPc.held, List.length_cons, List.length_nil] at hlength
    simp only [UsartInstance.HasRoom] at hfull
    -- all eight bytes would still be here, and the first of them is fetched before the second
    have hempty := congrArg List.length (hfetched (by omega))
    rw [List.length_nil] at hempty
    omega
  have hstored : WireRun.opened ⟨{ r.driver with usart := (usartSendStep r.driver.usart r.pc).1 },
      (usartSendStep r.driver.usart r.pc).2⟩ = usartSend r.opened b := by
    rw [WireRun.opened, WireRun.opened, hpc]
    simp only [usartSendStep, SendPc.settled, h.index b i hpc]
    rfl
  have hopened := h.opened.usartSend b
  rw [← hstored] at hopened
  refine
    { opened := hopened
      size := by rw [hpc]; exact h.size
      enabled := by rw [hpc]; exact fun hout => SendPc.noConfusion hout
      index := by rw [hpc]; exact fun _ _ hstore => SendPc.noConfusion hstore
      sending := fun _ => ⟨op, rest, hmain⟩
      whole := ?_
      first := by rw [hpc]; exact h.first
      fetched := by rw [hpc]; exact fun hheld => absurd rfl hheld }
  rw [whole_iff hopened, hstored, hroom.queued_usartSend h.opened]
  rw [hpc] at hwhole ⊢
  simp only [SendPc.held, usartSendStep, List.nil_append] at hwhole ⊢
  rw [← hwhole, List.append_assoc, List.append_assoc, List.append_assoc]
  rfl

theorem wrap (h : r.Prompt) (hpc : r.pc = .wrap) :
    WireRun.Prompt ⟨{ r.driver with usart := (usartSendStep r.driver.usart r.pc).1 },
      (usartSendStep r.driver.usart r.pc).2⟩ := by
  have hopened := h.opened
  have hwhole := h.whole
  rw [WireRun.opened, hpc] at hopened
  rw [WireRun.Whole, hpc] at hwhole
  rw [hpc]
  exact
    { opened := hopened
      size := h.size
      enabled := fun hout => SendPc.noConfusion hout
      index := fun _ _ hstore => SendPc.noConfusion hstore
      sending := fun _ => h.sending (by rw [hpc]; exact SendPc.noConfusion)
      whole := hwhole
      first := h.first
      fetched := fun hheld => absurd rfl hheld }

theorem unmask (h : r.Prompt) (hpc : r.pc = .unmask) :
    WireRun.Prompt ⟨{ r.driver with usart := (usartSendStep r.driver.usart r.pc).1 },
      (usartSendStep r.driver.usart r.pc).2⟩ := by
  have hopened := h.opened
  have hwhole := h.whole
  rw [WireRun.opened, hpc] at hopened
  rw [WireRun.Whole, hpc] at hwhole
  rw [hpc]
  exact of_outside ⟨hopened, h.size⟩ hwhole h.first

theorem run (h : r.Prompt) (hprompt : WirePrompt r .run) : (wireRun r).Prompt := by
  obtain ⟨driver, pc⟩ := r
  cases hpc : pc with
  | outside =>
    subst hpc
    by_cases hsend : ∃ op b rest, driver.main = .send op (b :: rest)
    · obtain ⟨op, b, rest, hmain⟩ := hsend
      have hrun : wireRun ⟨driver, .outside⟩ =
          ⟨{ driver with usart := driver.usart.setTxeie false, main := .send op rest },
            .increment b⟩ := by
        simp only [wireRun, hmain]
      rw [hrun]
      exact h.mask rfl hprompt hmain
    · have hmain : ∀ op b rest, driver.main ≠ .send op (b :: rest) :=
        fun op b rest heq => hsend ⟨op, b, rest, heq⟩
      have hrun : wireRun ⟨driver, .outside⟩ = ⟨tmc2209Run driver, .outside⟩ := by
        obtain ⟨usart, main, values, packets⟩ := driver
        cases main with
        | send op rest =>
          cases rest with
          | nil => rfl
          | cons b rest => exact absurd rfl (hmain op b rest)
        | _ => rfl
      rw [hrun]
      exact h.run_outside rfl hmain
  | increment b =>
    subst hpc
    exact h.increment rfl
  | store b i =>
    subst hpc
    exact h.store rfl
  | wrap =>
    subst hpc
    exact h.wrap rfl
  | unmask =>
    subst hpc
    exact h.unmask rfl

theorem step (h : r.Prompt) (e : Tmc2209Event) (hprompt : WirePrompt r e) :
    (wireStep r e).Prompt := by
  cases e with
  | start op => exact h.start op hprompt
  | run => exact h.run hprompt
  | line e => exact h.line e hprompt

theorem drained (h : r.Prompt) (e : Tmc2209Event) (hprompt : WirePrompt r e) : WireDrained r e := by
  cases e with
  | start op =>
    simp only [WireDrained]
    split
    · rename_i hpc hmain
      exact (h.drained_of_tc hpc hprompt.1 hprompt.2 (by rw [hmain]; rfl)).2
    · trivial
  | run =>
    simp only [WireDrained]
    split
    · rename_i hmain
      have hpc : r.pc = .outside := by
        by_contra hpc
        obtain ⟨op, rest, hsend⟩ := h.sending hpc
        exact Tmc2209Main.noConfusion (hmain.symm.trans hsend)
      exact fun htc => h.drained_of_tc hpc hprompt htc (by rw [hmain]; rfl)
    · trivial
  | line e => trivial

end WireRun.Prompt

theorem prompt_wireInit (txBuffer rxBuffer : ℕ → Byte) : (wireInit txBuffer rxBuffer).Prompt := by
  have hwf := wf_tmc2209Init txBuffer rxBuffer
  have hidle : (tmc2209Init txBuffer rxBuffer).main = .idle := rfl
  refine WireRun.Prompt.of_outside hwf ?_ fun op rest hmain =>
    Tmc2209Main.noConfusion (hidle.symm.trans hmain)
  rw [hwf.usart.written, hwf.usart.queued_eq_nil.mpr rfl]
  rfl

/-- **A prompt interrupt keeps the datagrams.**  In a run of the driver whose interrupt is never late
for the main loop nor served with `TDR` empty while `usart_send` moves the head of the ring, and that
begins no operation while a request is still leaving, nothing is cut off, and everything has left
whenever an operation clears the buffers or a wait returns. -/
theorem whole_of_prompt (txBuffer rxBuffer : ℕ → Byte) (es : List Tmc2209Event)
    (h : Guarded wireStep WirePrompt (wireInit txBuffer rxBuffer) es) :
    Always wireStep WireRun.Whole (wireInit txBuffer rxBuffer) es ∧
      Guarded wireStep WireDrained (wireInit txBuffer rxBuffer) es := by
  have hinit := prompt_wireInit txBuffer rxBuffer
  constructor
  · have hprompt : Always wireStep WireRun.Prompt (wireInit txBuffer rxBuffer) es :=
      always_of_guarded (fun r e hI => hI.step e) hinit h
    exact hprompt.mono fun r hI => hI.whole
  · exact guarded_mono_of_invariant (fun r e hI hp => hI.drained e hp) (fun r e hI => hI.step e)
      hinit h

/-- A write and then a read with the interrupt served after each step; the echo of the first byte
interrupts the `usart_send` of the fourth, and the handler fetches the third. -/
def promptRun : List Tmc2209Event :=
  let served (n : ℕ) : List Tmc2209Event := (List.replicate n [.run, .line .irq]).flatten
  [[.line .irq, .start (.writeReg 0 1 0xb111)], served 5, [.line .load, .line .irq], served 10,
    [.run, .line .shift, .line .load, .line (.receive 0x05), .line .irq], served 25,
    (List.replicate 6 [.line .shift, .line .load, .line .irq]).flatten,
    [.run, .line .shift, .run, .start (.readReg 0 2)]].flatten

theorem whole_of_prompt_run :
    Always wireStep WireRun.Whole (wireInit (fun _ => 0) fun _ => 0) promptRun ∧
      Guarded wireStep WireDrained (wireInit (fun _ => 0) fun _ => 0) promptRun :=
  whole_of_prompt _ _ promptRun (by decide +kernel)

/-- The first byte of a write leaves before the interrupt fetches the second: the wait returns
with seven bytes queued. -/
theorem late_interrupt_truncates :
    ¬ ∀ (txBuffer rxBuffer : ℕ → Byte) (es : List Tmc2209Event),
      Always wireStep WireRun.Whole (wireInit txBuffer rxBuffer) es ∧
        Guarded wireStep WireDrained (wireInit txBuffer rxBuffer) es := by
  intro h
  have hrun := (h (fun _ => 0) (fun _ => 0) (List.flatten [[.start (.writeReg 0 1 0xb111)],
    List.replicate 5 .run, [.line .irq, .line .load], List.replicate 37 .run,
    [.line .shift, .run, .start (.readReg 0 2)]])).1.last
  exact absurd hrun (by decide +kernel)

end PcbMill
