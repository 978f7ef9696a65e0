import PcbMill.Usb.ControlStages
import PcbMill.Usb.Ep0Run
import PcbMill.Usb.PacketMemory

/-!
# What `usb_cdc_write` returns

The transmit stream is the bytes handed to the IN endpoint so far, followed by those in the ring.
A call moves bytes from the ring to the endpoint, which leaves the stream as it is; what it
appends is what the ring took, and what it returns is whether that was anything.
-/

namespace PcbMill

open FixedWidth

/-- The bytes a queued transfer of the CDC interface takes from its buffer. -/
def UsbEvent.handedBytes (s : Usb) : UsbEvent → List Byte
  | .queued _ _ totalBytes => s.load ⟨.epInBuffer, 0⟩ totalBytes
  | _ => []

/-- The bytes handed to the IN endpoint in a call that queues at most one transfer. -/
def cdcHanded (s s' : Usb) : List Byte :=
  (s'.trace.drop s.trace.length).flatMap (UsbEvent.handedBytes s')

/-- The call appended the bytes to the transmit stream. -/
def CdcAppends (s s' : Usb) (bytes : List Byte) : Prop :=
  cdcHanded s s' ++ s'.usbCdc.txBuffer.contents = s.usbCdc.txBuffer.contents ++ bytes

/-- The value returned is the number of bytes of the buffer appended to the stream. -/
def WriteReports (s : Usb) (buffer : List Byte) : Prop :=
  (usbCdcWrite s buffer).1 ≤ buffer.length ∧
    CdcAppends s (usbCdcWrite s buffer).2 (buffer.take (usbCdcWrite s buffer).1)

/-- A caller that goes on by the value returned until its message is done: the bytes handed to the
endpoint and the state it ends in.  `between` is what happens between two calls, with the bytes
handed to the endpoint meanwhile. -/
def usbCdcWriteAll (between : Usb → List Byte × Usb) : ℕ → Usb → List Byte → Option (List Byte × Usb)
  | 0, s, message => if message = [] then some ([], s) else none
  | fuel + 1, s, message =>
    if message = [] then some ([], s)
    else
      let r := usbCdcWrite s message
      let rest := message.drop r.1
      let waited := if rest = [] then ([], r.2) else between r.2
      (usbCdcWriteAll between fuel waited.2 rest).map fun done =>
        (cdcHanded s r.2 ++ waited.1 ++ done.1, done.2)

/-- The caller comes to an end, and its message has been appended to the stream once. -/
def CallerDelivers (s : Usb) (message : List Byte) : Prop :=
  ∀ between : Usb → List Byte × Usb, ∃ fuel handed s',
    usbCdcWriteAll between fuel s message = some (handed, s') ∧
      handed ++ s'.usbCdc.txBuffer.contents = s.usbCdc.txBuffer.contents ++ message

/-- There is nothing to write, or one byte and room for it beside the place that stays free. -/
def OneByteFits (s : Usb) (buffer : List Byte) : Prop :=
  buffer = [] ∨
    (buffer.length = 1 ∧ circularBufferCount s.usbCdc.txBuffer + 1 < s.usbCdc.txBuffer.size)

instance (s : Usb) (buffer : List Byte) : Decidable (OneByteFits s buffer) :=
  inferInstanceAs (Decidable (_ ∨ _))

variable {s s' : Usb} {buffer : List Byte}

/-! ### The flush -/

theorem cdcHanded_of_trace {events : List UsbEvent} (h : s'.trace = s.trace ++ events) :
    cdcHanded s s' = events.flatMap (UsbEvent.handedBytes s') := by
  rw [cdcHanded, h, List.drop_left]

theorem usbEpQueueTransferHal_usbCdc (s : Usb) (epIdn dirIdx : ℕ) (buffer : Ptr) (n : ℕ) :
    (usbEpQueueTransferHal s epIdn dirIdx buffer n).2.usbCdc = s.usbCdc := by
  simp only [usbEpQueueTransferHal]
  split <;> rfl

/-- What a flush hands to the endpoint it takes from the front of the ring. -/
theorem usbCdcWriteEp_handed (h : s.usbCdc.txBuffer.Wf) :
    ∃ events, (usbCdcWriteEp s).2.trace = s.trace ++ events ∧
      events.flatMap (UsbEvent.handedBytes (usbCdcWriteEp s).2) ++
        (usbCdcWriteEp s).2.usbCdc.txBuffer.contents = s.usbCdc.txBuffer.contents := by
  rw [usbCdcWriteEp]
  split_ifs with hgate hempty
  · exact ⟨[], (List.append_nil _).symm, rfl⟩
  · exact ⟨[], (List.append_nil _).symm, rfl⟩
  · generalize hread : circularBufferRead s.usbCdc.txBuffer usbCdcEpBufferSize = r
    have hbytes : r.1 = s.usbCdc.txBuffer.contents.take usbCdcEpBufferSize := by
      rw [← hread]
      exact circularBufferRead_bytes h _
    have hrest : r.2.contents = s.usbCdc.txBuffer.contents.drop usbCdcEpBufferSize := by
      rw [← hread]
      exact circularBufferRead_contents h _
    have hlength : r.1.length ≤ 64 := by
      rw [hbytes]
      exact List.length_take_le _ _
    have hpos : 0 < r.1.length := by
      rw [hbytes, List.length_take, CircularBuffer.contents_length]
      simp only [usbCdcEpBufferSize]
      omega
    dsimp only
    rw [u16_of_lt (by omega), if_pos hpos]
    refine ⟨[.queued _ _ r.1.length], usbEpQueueTransferHal_trace .., ?_⟩
    rw [List.flatMap_singleton, UsbEvent.handedBytes]
    have hstaged := Usb.load_store (s.setCdc { s.usbCdc with txBuffer := r.2 })
      (p := ⟨.epInBuffer, 0⟩) rfl r.1
    have hload : (usbEpQueueTransfer ((s.setCdc { s.usbCdc with txBuffer := r.2 }).store
        ⟨.epInBuffer, 0⟩ r.1) s.usbCdc.epAddrIn ⟨.epInBuffer, 0⟩ r.1.length).2.load
          ⟨.epInBuffer, 0⟩ r.1.length = r.1 := by
      refine Eq.trans ?_ hstaged
      simp only [usbEpQueueTransfer, Usb.load, Usb.memory, usbEpQueueTransferHal_ram]
    refine Eq.trans (congrArg₂ (· ++ ·) hload (congrArg (fun c : UsbCdc => c.txBuffer.contents)
      (usbEpQueueTransferHal_usbCdc ..))) ?_
    show r.1 ++ r.2.contents = _
    rw [hbytes, hrest, List.take_append_drop]

/-! ### A call -/

/-- After a call the stream is what the ring held once it had taken its bytes. -/
theorem usbCdcWrite_stream (h : s.usbCdc.txBuffer.Wf) (buffer : List Byte) :
    cdcHanded s (usbCdcWrite s buffer).2 ++ (usbCdcWrite s buffer).2.usbCdc.txBuffer.contents =
      (circularBufferWrite s.usbCdc.txBuffer buffer).2.contents := by
  generalize hlogged : (s.setCdc { s.usbCdc with
      txBuffer := (circularBufferWrite s.usbCdc.txBuffer buffer).2 }).log
    (.cdcWrite (buffer.take (circularBufferWriteLen s.usbCdc.txBuffer buffer.length))) = t
  have hring : t.usbCdc.txBuffer = (circularBufferWrite s.usbCdc.txBuffer buffer).2 := by
    rw [← hlogged]
    rfl
  have hcall : (usbCdcWrite s buffer).2 = (usbCdcWriteEp t).2 := by
    rw [← hlogged]
    rfl
  have hwf : t.usbCdc.txBuffer.Wf := by
    rw [hring]
    exact circularBufferWrite_wf h buffer
  obtain ⟨events, htrace, hhanded⟩ := usbCdcWriteEp_handed hwf
  have hevents : (usbCdcWriteEp t).2.trace = s.trace ++ (.cdcWrite (buffer.take
      (circularBufferWriteLen s.usbCdc.txBuffer buffer.length)) :: events) := by
    rw [htrace, ← hlogged]
    exact List.append_assoc ..
  rw [hcall, cdcHanded_of_trace hevents, ← hring]
  exact hhanded

/-- The ring has a place for the first byte: it never takes nothing of something. -/
theorem usbCdcWrite_value (h : s.usbCdc.txBuffer.Wf) (hbuffer : buffer ≠ []) :
    (usbCdcWrite s buffer).1 = 1 := by
  have hlen := circularBufferWriteLen_eq h buffer.length
  have hlt := h.count_lt
  have hpos := List.length_pos_iff.mpr hbuffer
  have hwritten : (circularBufferWrite s.usbCdc.txBuffer buffer).1 = true := by
    show decide (0 < circularBufferWriteLen s.usbCdc.txBuffer buffer.length) = true
    apply decide_eq_true
    omega
  show (if (circularBufferWrite s.usbCdc.txBuffer buffer).1 = true then 1 else 0) = 1
  rw [if_pos hwritten]

theorem usbCdcWrite_nil (s : Usb) : (usbCdcWrite s []).1 = 0 := by
  have hwritten : (circularBufferWrite s.usbCdc.txBuffer []).1 = false := by
    show decide (0 < circularBufferWriteLen s.usbCdc.txBuffer 0) = false
    apply decide_eq_false
    simp [circularBufferWriteLen]
  show (if (circularBufferWrite s.usbCdc.txBuffer []).1 = true then 1 else 0) = 0
  rw [hwritten]
  rfl

/-- A call whose bytes do not fill the ring appends the ones it took. -/
theorem usbCdcWrite_appends (h : s.usbCdc.txBuffer.Wf)
    (hroom : circularBufferCount s.usbCdc.txBuffer + buffer.length < s.usbCdc.txBuffer.size) :
    CdcAppends s (usbCdcWrite s buffer).2 buffer := by
  have hlen := circularBufferWriteLen_eq h buffer.length
  rw [CdcAppends, usbCdcWrite_stream h, circularBufferWrite_contents h, if_neg (by omega),
    List.take_of_length_le (by omega)]

/-- **What a call reports** is right for nothing to write, and for one byte that leaves a place of
the ring free; the value says one where the ring took more, or lost what it held. -/
theorem writeReports_iff (h : s.usbCdc.txBuffer.Wf) : WriteReports s buffer ↔ OneByteFits s buffer := by
  have hlt := h.count_lt
  rcases eq_or_ne buffer [] with rfl | hbuffer
  · refine iff_of_true ⟨(usbCdcWrite_nil s).le, ?_⟩ (.inl rfl)
    rw [usbCdcWrite_nil]
    exact usbCdcWrite_appends h (by simpa using hlt)
  · have hpos := List.length_pos_iff.mpr hbuffer
    have hlen := circularBufferWriteLen_eq h buffer.length
    rw [WriteReports, usbCdcWrite_value h hbuffer]
    constructor
    · rintro ⟨-, happends⟩
      rw [CdcAppends, usbCdcWrite_stream h, circularBufferWrite_contents h] at happends
      have hlength := congrArg List.length happends
      refine .inr ?_
      split at hlength
      · simp only [List.length_nil, List.length_append, List.length_take] at hlength
        omega
      · simp only [List.length_append, List.length_take] at hlength
        omega
    · rintro (hnil | ⟨hone, hroom⟩)
      · exact absurd hnil hbuffer
      · refine ⟨hpos, ?_⟩
        rw [List.take_of_length_le hone.le]
        exact usbCdcWrite_appends h (by omega)

/-! ### A caller -/

theorem callerDelivers_nil (s : Usb) : CallerDelivers s [] :=
  fun _ => ⟨0, [], s, rfl, (List.append_nil _).symm⟩

/-- Where one byte fits, one call is enough. -/
theorem callerDelivers_of_oneByteFits (h : s.usbCdc.txBuffer.Wf) (hfits : OneByteFits s buffer) :
    CallerDelivers s buffer := by
  rcases eq_or_ne buffer [] with rfl | hbuffer
  · exact callerDelivers_nil s
  · obtain hnil | ⟨hone, hroom⟩ := hfits
    · exact absurd hnil hbuffer
    intro between
    have hrest : buffer.drop (usbCdcWrite s buffer).1 = [] := by
      rw [usbCdcWrite_value h hbuffer]
      exact List.drop_eq_nil_of_le hone.le
    refine ⟨1, cdcHanded s (usbCdcWrite s buffer).2, (usbCdcWrite s buffer).2, ?_,
      usbCdcWrite_appends h (by omega)⟩
    rw [usbCdcWriteAll, if_neg hbuffer]
    simp only [hrest, if_true, usbCdcWriteAll, Option.map_some, List.append_nil]

/-- **`usb_cdc_write` reports what it took**, and a caller going on by its value passes its message
to the transmit stream once, exactly for an empty buffer and for a single byte that does not fill
the ring. -/
theorem usb_cdc_write_reports_iff (s : Usb) (buffer : List Byte) (hwf : s.usbCdc.txBuffer.Wf) :
    (WriteReports s buffer ∧ CallerDelivers s buffer) ↔ OneByteFits s buffer := by
  rw [← writeReports_iff hwf]
  constructor
  · exact fun h => h.1
  · exact fun h => ⟨h, callerDelivers_of_oneByteFits hwf ((writeReports_iff hwf).mp h)⟩

theorem usb_cdc_write_reports_one :
    WriteReports usbBoot [0x2A#8] ∧ CallerDelivers usbBoot [0x2A#8] :=
  (usb_cdc_write_reports_iff usbBoot [0x2A#8]
    ⟨by decide, by decide, by decide, by decide⟩).mpr (by decide)

theorem usbCdcWriteAll_nil (between : Usb → List Byte × Usb) (fuel : ℕ) (s : Usb) :
    usbCdcWriteAll between fuel s [] = some ([], s) := by
  cases fuel with
  | zero => rfl
  | succ fuel => rfl

/-- Two bytes written to the empty ring of the device at start are both taken, and the value
returned is one: a caller going on by it writes the second byte twice. -/
theorem two_bytes_reported_as_one :
    usbBoot.usbCdc.txBuffer.Wf ∧ ¬WriteReports usbBoot [0x2A#8, 0x2B#8] ∧
      ¬CallerDelivers usbBoot [0x2A#8, 0x2B#8] := by
  have hwf : usbBoot.usbCdc.txBuffer.Wf := ⟨by decide, by decide, by decide, by decide⟩
  refine ⟨hwf, fun hreports => absurd ((writeReports_iff hwf).mp hreports) (by decide), ?_⟩
  intro hdelivers
  have hfirst : (usbCdcWrite usbBoot [0x2A#8, 0x2B#8]).1 = 1 := usbCdcWrite_value hwf (by decide)
  have hagain : (usbCdcWrite (usbCdcWrite usbBoot [0x2A#8, 0x2B#8]).2 [0x2B#8]).1 = 1 := by decide
  have hlength : (usbCdcWrite (usbCdcWrite usbBoot [0x2A#8, 0x2B#8]).2
      [0x2B#8]).2.usbCdc.txBuffer.contents.length = 3 := by decide
  have hempty : usbBoot.usbCdc.txBuffer.contents = [] := by decide
  obtain ⟨fuel, handed, s', hall, hstream⟩ := hdelivers fun s => ([], s)
  match fuel with
  | 0 => exact absurd hall (by simp [usbCdcWriteAll])
  | 1 => exact absurd hall (by simp [usbCdcWriteAll, hfirst])
  | fuel + 2 =>
    simp only [usbCdcWriteAll, hfirst, hagain, List.drop_succ_cons, List.drop_zero, if_true,
      usbCdcWriteAll_nil, Option.map_some, Option.some.injEq, Prod.mk.injEq, List.cons_ne_nil,
      if_false] at hall
    have hthree := congrArg List.length hstream
    rw [hempty, ← hall.2, List.length_append, hlength] at hthree
    simp only [List.nil_append, List.length_cons, List.length_nil] at hthree
    omega

end PcbMill
