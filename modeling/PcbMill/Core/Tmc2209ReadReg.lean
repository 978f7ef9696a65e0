import PcbMill.Core.Tmc2209Frames

/-!
# What `tmc2209_read_reg` returns

Whatever the interrupt and the line do between the statements of a call, the value returned is
that of the answer parsed from the bytes received since the buffers were cleared.
-/

namespace PcbMill

open FixedWidth RingBuffer Run

/-- A call of `tmc2209_read_reg` under way, with the bytes received since it cleared the
buffers. -/
structure ReadRegCall where
  driver : Tmc2209
  delivered : List Byte

def ReadRegCall.Returned (c : ReadRegCall) : Prop := c.driver.main = .idle

/-- The call clears the buffers and is about to send its request. -/
def readRegCall (t : Tmc2209) (addr reg : Byte) : ReadRegCall :=
  { driver := tmc2209Step t (.start (.readReg addr reg)), delivered := [] }

def Tmc2209Event.takes (u : UsartInstance) : Tmc2209Event → List Byte
  | .line e => e.takes u
  | _ => []

/-- One event of the call.  Once it has returned nothing belongs to it any more. -/
def readRegStep (c : ReadRegCall) (e : Tmc2209Event) : ReadRegCall :=
  match c.driver.main with
  | .idle => c
  | _ => { driver := tmc2209Step c.driver e, delivered := c.delivered ++ e.takes c.driver.usart }

/-- The answer in the bytes received: behind the echo of the request. -/
def readAnswer (reg : Byte) (received : List Byte) : Except ParseError (List Byte) :=
  if received.length < 4 + 8 then .error .notEnoughData
  else parseFrame reg ((received.drop 4).take 8)

/-- What the call returns for the bytes received. -/
def tmc2209ReadValue (reg : Byte) (received : List Byte) : BitVec 32 :=
  tmc2209Value (readAnswer reg received)

variable {u : UsartInstance} {t : Tmc2209} {c : ReadRegCall} {addr reg : Byte}

/-- An echo of four bytes with a frame behind it. -/
theorem readAnswer_append (reg : Byte) {echo frame : List Byte} (hecho : echo.length = 4)
    (hframe : frame.length = 8) : readAnswer reg (echo ++ frame) = parseFrame reg frame := by
  rw [readAnswer, if_neg (by simp [hecho, hframe]), List.drop_left' hecho,
    List.take_of_length_le hframe.le]

theorem UsartInstance.Counting.tmc2209ParseResponse {q : List Byte} (h : u.Counting q)
    (hroom : q.length < 16) (reg : Byte) :
    (tmc2209ParseResponse u 4 reg).1 = readAnswer reg q := by
  rw [readAnswer]
  split_ifs with hshort
  · rw [PcbMill.tmc2209ParseResponse, if_pos (by rw [h.count]; exact hshort)]
  · have hq : q = q.take 4 ++ ((q.drop 4).take 8 ++ (q.drop 4).drop 8) := by
      rw [List.take_append_drop, List.take_append_drop]
    have hecho : (q.take 4).length = 4 := by
      rw [List.length_take]
      omega
    have hholding := h.holding hroom
    rw [hq] at hholding
    have hparsed := hholding.tmc2209ParseResponse reg (by simp; omega)
      (by rw [h.count, hecho]; omega)
    rwa [hecho] at hparsed

/-! ### A call under way -/

/-- Where a call of `tmc2209_read_reg` stands. -/
inductive ReadRegMain (reg : Byte) : Tmc2209Main → Prop
  | send (addr : Byte) (rest : List Byte) : ReadRegMain reg (.send (.readReg addr reg) rest)
  | waitForCount (maxWaitMs : ℕ) : ReadRegMain reg (.waitForCount reg maxWaitMs)
  | parse : ReadRegMain reg (.parse reg)

/-- The call has not returned, and the ring holds what was delivered. -/
structure ReadRegCall.Running (t : Tmc2209) (reg : Byte) (c : ReadRegCall) : Prop where
  main : ReadRegMain reg c.driver.main
  values : c.driver.values = t.values
  counting : c.delivered.length < 16 → c.driver.usart.Counting c.delivered

/-- The call has returned the value of what was delivered. -/
structure ReadRegCall.Answered (t : Tmc2209) (reg : Byte) (c : ReadRegCall) : Prop where
  returned : c.Returned
  values : c.delivered.length < 16 →
    c.driver.values = t.values ++ [tmc2209ReadValue reg c.delivered]

theorem ReadRegMain.ne_idle {m : Tmc2209Main} (h : ReadRegMain reg m) : m ≠ .idle := by
  cases h <;> simp

theorem ReadRegCall.Running.step_eq (h : c.Running t reg) (e : Tmc2209Event) :
    readRegStep c e =
      { driver := tmc2209Step c.driver e, delivered := c.delivered ++ e.takes c.driver.usart } := by
  have hne := h.main.ne_idle
  rw [readRegStep]
  split
  · contradiction
  · rfl

theorem ReadRegCall.Returned.step_eq (h : c.Returned) (e : Tmc2209Event) :
    readRegStep c e = c := by
  rw [readRegStep]
  split
  · rfl
  · contradiction

theorem sameReceive_usartSend (u : UsartInstance) (b : Byte) : u.SameReceive (usartSend u b) := by
  constructor <;> rfl

theorem ReadRegCall.Running.line (h : c.Running t reg) (e : LineEvent) :
    (readRegStep c (.line e)).Running t reg := by
  rw [h.step_eq]
  refine ⟨h.main, h.values, fun hlength => ?_⟩
  have hle : c.delivered.length < 16 := lt_of_le_of_lt (by simp) hlength
  exact (h.counting hle).lineStep e hlength.le

theorem ReadRegCall.Running.start (h : c.Running t reg) (op : Tmc2209Operation) :
    readRegStep c (.start op) = c := by
  have hne := h.main.ne_idle
  have htakes : (Tmc2209Event.start op).takes c.driver.usart = [] := rfl
  rw [h.step_eq, tmc2209Step, tmc2209Start, htakes, List.append_nil]
  split
  · contradiction
  · rfl

/-- How many steps of the main loop the call can still take. -/
def Tmc2209Main.stepsLeft : Tmc2209Main → ℕ
  | send _ rest => rest.length + 103
  | waitForCount _ maxWaitMs => maxWaitMs + 2
  | parse _ => 1
  | _ => 0

theorem ReadRegMain.stepsLeft_pos {m : Tmc2209Main} (h : ReadRegMain reg m) :
    0 < m.stepsLeft := by
  cases h <;> simp [Tmc2209Main.stepsLeft]

/-- **One step of the main loop** brings the call nearer to its return. -/
theorem ReadRegCall.Running.run (h : c.Running t reg) :
    ((readRegStep c .run).Running t reg ∨ (readRegStep c .run).Answered t reg) ∧
      (readRegStep c .run).driver.main.stepsLeft < c.driver.main.stepsLeft := by
  rw [h.step_eq]
  obtain ⟨hmain, hvalues, hcounting⟩ := h
  rcases c with ⟨driver, delivered⟩
  simp only [Tmc2209Event.takes, List.append_nil] at *
  generalize hm : driver.main = m at hmain
  simp only [tmc2209Step, tmc2209Run, hm]
  cases hmain with
  | send addr rest =>
    cases rest with
    | nil => exact ⟨.inl ⟨.waitForCount 100, hvalues, hcounting⟩, show 100 + 2 < 0 + 103 by omega⟩
    | cons b rest =>
      refine ⟨.inl ⟨.send addr rest, hvalues, fun hlength => ?_⟩, by simp [Tmc2209Main.stepsLeft]⟩
      exact (hcounting hlength).of_same (sameReceive_usartSend _ b)
  | waitForCount maxWaitMs =>
    dsimp only [usartWaitForCount]
    split_ifs with hwait
    · refine ⟨.inl ⟨.waitForCount _, hvalues, hcounting⟩, ?_⟩
      simp only [Tmc2209Main.stepsLeft]
      omega
    · exact ⟨.inl ⟨.parse, hvalues, hcounting⟩, by simp [Tmc2209Main.stepsLeft]⟩
  | parse =>
    refine ⟨.inr ⟨rfl, fun hlength => ?_⟩, by simp [Tmc2209Main.stepsLeft]⟩
    show driver.values ++ _ = _
    rw [(hcounting hlength).tmc2209ParseResponse hlength reg, hvalues, tmc2209ReadValue]

def Tmc2209Event.isRun : Tmc2209Event → Bool
  | .run => true
  | _ => false

theorem ReadRegCall.Returned.runs (h : c.Returned) (es : List Tmc2209Event) :
    runFrom readRegStep c es = c := by
  induction es with
  | nil => rfl
  | cons e es ih => rw [runFrom_cons, h.step_eq, ih]

/-- **A call in its whole course**: it is still under way, and nearer to its return by every step
of the main loop, or it has returned. -/
theorem ReadRegCall.Running.runs (es : List Tmc2209Event) :
    ∀ {c : ReadRegCall}, c.Running t reg → (runFrom readRegStep c es).Answered t reg ∨
      ((runFrom readRegStep c es).Running t reg ∧
        (runFrom readRegStep c es).driver.main.stepsLeft + es.countP Tmc2209Event.isRun ≤
          c.driver.main.stepsLeft) := by
  induction es with
  | nil => exact fun h => .inr ⟨h, by simp⟩
  | cons e es ih =>
    intro c h
    rw [runFrom_cons]
    cases e with
    | start op =>
      rw [h.start op, List.countP_cons_of_neg (by simp [Tmc2209Event.isRun])]
      exact ih h
    | line e =>
      have hsteps : (readRegStep c (.line e)).driver.main = c.driver.main := by
        rw [h.step_eq]
        rfl
      have hrest := ih (h.line e)
      rwa [hsteps, ← List.countP_cons_of_neg (a := .line e) (by simp [Tmc2209Event.isRun])] at hrest
    | run =>
      obtain ⟨hrunning | hanswered, hlt⟩ := h.run
      · refine (ih hrunning).imp_right fun hrest => ⟨hrest.1, ?_⟩
        have hle := hrest.2
        rw [List.countP_cons_of_pos (by simp [Tmc2209Event.isRun])]
        omega
      · rw [hanswered.returned.runs]
        exact .inl hanswered

theorem readRegCall_running (hidle : t.main = .idle) (hsize : t.usart.rxBufferSize = 16)
    (addr reg : Byte) : (readRegCall t addr reg).Running t reg := by
  rw [readRegCall, tmc2209Step, tmc2209Start, hidle]
  exact ⟨.send addr _, rfl, fun _ => ⟨hsize, Holds.zero _ _, rfl⟩⟩

/-- 107 steps of the main loop are enough for the call to return, and it returns the value of what
was delivered. -/
theorem readRegCall_returns (hidle : t.main = .idle) (hsize : t.usart.rxBufferSize = 16)
    (addr reg : Byte) (es : List Tmc2209Event) :
    (107 ≤ es.countP Tmc2209Event.isRun → (runFrom readRegStep (readRegCall t addr reg) es).Returned) ∧
      ((runFrom readRegStep (readRegCall t addr reg) es).Returned →
        (runFrom readRegStep (readRegCall t addr reg) es).delivered.length < 16 →
        (runFrom readRegStep (readRegCall t addr reg) es).driver.values =
          t.values ++ [tmc2209ReadValue reg
            (runFrom readRegStep (readRegCall t addr reg) es).delivered]) := by
  have hstart := readRegCall_running hidle hsize addr reg
  have hsteps : (readRegCall t addr reg).driver.main.stepsLeft = 107 := by
    rw [readRegCall, tmc2209Step, tmc2209Start, hidle]
    rfl
  obtain hanswered | ⟨hrunning, hle⟩ := hstart.runs es
  · exact ⟨fun _ => hanswered.returned, fun _ => hanswered.values⟩
  · refine ⟨fun henough => ?_, fun hreturned => absurd hreturned hrunning.main.ne_idle⟩
    have hpos := hrunning.main.stepsLeft_pos
    omega

/-! ### The framing -/

/-- The parse accepts what was received exactly when a frame for the register comes behind the
echo, and its data are the data bytes of the frame. -/
def ParsesFrame (u : UsartInstance) (reg : Byte) (echo frame : List Byte) : Prop :=
  ∀ data, (tmc2209ParseResponse u echo.length reg).1 = .ok data ↔ IsReply reg data frame

theorem UsartInstance.Counting.parsesFrame_iff {echo frame : List Byte}
    (h : u.Counting (echo ++ frame)) (hframe : frame.length = 8) (reg : Byte) :
    ParsesFrame u reg echo frame ↔ echo.length + 8 < 16 ∨ ¬ ∃ data, IsReply reg data frame := by
  have hle := h.length_le
  rw [List.length_append, hframe] at hle
  by_cases hroom : echo.length + 8 < 16
  · refine iff_of_true (fun data => ?_) (.inl hroom)
    have hholding := h.holding (by rw [List.length_append, hframe]; exact hroom)
    have hparsed := UsartInstance.Holding.tmc2209ParseResponse (q := []) reg (by simpa using hholding)
      hframe (by simp [h.count, hframe])
    rw [hparsed, parseFrame_eq_ok_iff hframe]
  · have hfull := h.tail_eq_head (by rw [List.length_append, hframe]; omega)
    obtain ⟨e, herror⟩ := tmc2209ParseResponse_of_eq hfull echo.length reg
    have hnever : ∀ data, (PcbMill.tmc2209ParseResponse u echo.length reg).1 ≠ .ok data := by
      intro data hok
      rw [herror] at hok
      cases hok
    simp only [ParsesFrame, or_iff_right hroom, not_exists]
    exact forall_congr' fun data => ⟨fun h hreply => hnever data (h.mpr hreply),
      fun h => ⟨fun hok => absurd hok (hnever data), fun hreply => absurd hreply h⟩⟩

/-- **Read framing.**  A call to which the echo of its request and the frame for a value are
delivered returns the value, and it does return.  A sequence received behind an empty ring, at
whatever place of the array, is parsed as a frame exactly when it is one, unless it is a frame
that fills the ring to its last place. -/
theorem tmc2209_read_framing (reg : Byte) :
    (∀ (t : Tmc2209) (addr : Byte) (value : BitVec 32) (es : List Tmc2209Event),
      t.main = .idle → t.usart.rxBufferSize = 16 →
      let c := runFrom readRegStep (readRegCall t addr reg) es
      c.delivered = tmc2209ReadPacket addr reg ++ tmc2209ReplyFrame reg (valueBytes value) →
        (107 ≤ es.countP Tmc2209Event.isRun → c.Returned) ∧
          (c.Returned → c.driver.values = t.values ++ [value])) ∧
    ∀ (u : UsartInstance) (es : List LineEvent) (echo frame : List Byte),
      u.Counting [] → lineTakes u es = echo ++ frame → frame.length = 8 →
      (lineTakes u es).length ≤ 16 →
        (ParsesFrame (runFrom lineStep u es) reg echo frame ↔
          echo.length + 8 < 16 ∨ ¬ ∃ data, IsReply reg data frame) := by
  constructor
  · intro t addr value es hidle hsize c hdelivered
    obtain ⟨henough, hvalue⟩ := readRegCall_returns hidle hsize addr reg es
    have hecho : (tmc2209ReadPacket addr reg).length = 4 := by simp [tmc2209ReadPacket]
    have hreply : (tmc2209ReplyFrame reg (valueBytes value)).length = 8 := by
      simp [tmc2209ReplyFrame, valueBytes]
    refine ⟨henough, fun hreturned => ?_⟩
    have hshort : c.delivered.length < 16 := by
      rw [hdelivered, List.length_append, hecho, hreply]
      decide
    have hread : tmc2209ReadValue reg c.delivered = value := by
      rw [hdelivered, tmc2209ReadValue, readAnswer_append reg hecho hreply,
        parseFrame_replyFrame reg rfl, tmc2209Value_valueBytes]
    rw [hvalue hreturned hshort]
    show t.values ++ [tmc2209ReadValue reg c.delivered] = _
    rw [hread]
  · intro u es echo frame hempty htakes hframe hfits
    have hcounting := hempty.lineSteps es (by simpa using hfits)
    rw [List.nil_append, htakes] at hcounting
    exact hcounting.parsesFrame_iff hframe reg

/-- The value `0x00061f0a` of register `0x10`, read from driver 2, and its frame behind an echo of
four bytes. -/
theorem tmc2209_read_framing_one :
    (runFrom readRegStep (readRegCall (tmc2209Init (fun _ => 0) fun _ => 0) 0x02 0x10)
      ((receiveAll (tmc2209ReadPacket 0x02 0x10 ++
        tmc2209ReplyFrame 0x10 (valueBytes 0x00061f0a))).map .line ++
          List.replicate 107 .run)).driver.values = [0x00061f0a] ∧
    ParsesFrame (runFrom lineStep (tmc2209Uart4Init (serialBuffer (fun _ => 0) fun _ => 0))
      (receiveAll (tmc2209ReadPacket 0x02 0x10 ++ tmc2209ReplyFrame 0x10 [0x00, 0x06, 0x1f, 0x0a])))
        0x10 (tmc2209ReadPacket 0x02 0x10) (tmc2209ReplyFrame 0x10 [0x00, 0x06, 0x1f, 0x0a]) := by
  constructor
  · obtain ⟨henough, hread⟩ := (tmc2209_read_framing 0x10).1 (tmc2209Init (fun _ => 0) fun _ => 0)
      0x02 0x00061f0a
      ((receiveAll (tmc2209ReadPacket 0x02 0x10 ++
        tmc2209ReplyFrame 0x10 (valueBytes 0x00061f0a))).map .line ++
          List.replicate 107 .run) rfl rfl (by decide +kernel)
    exact hread (henough (by decide +kernel))
  · exact ((tmc2209_read_framing 0x10).2 _ (receiveAll (tmc2209ReadPacket 0x02 0x10 ++
      tmc2209ReplyFrame 0x10 [0x00, 0x06, 0x1f, 0x0a])) _ _ (counting_serialBuffer _ _)
      (by decide +kernel) (by decide) (by decide +kernel)).mpr (.inl (by decide))

/-- Behind an echo of eight bytes a frame is not found. -/
theorem tmc2209_full_ring_rejects_frame :
    ¬ ∀ (u : UsartInstance) (es : List LineEvent) (reg : Byte) (echo frame : List Byte),
      u.Counting [] → lineTakes u es = echo ++ frame → frame.length = 8 →
      (lineTakes u es).length ≤ 16 → ParsesFrame (runFrom lineStep u es) reg echo frame := by
  intro h
  have hparses := h (tmc2209Uart4Init (serialBuffer (fun _ => 0) fun _ => 0))
    (receiveAll (tmc2209WritePacket 0x02 0x10 0x00061f0a ++
      tmc2209ReplyFrame 0x02 [0x00, 0x00, 0x00, 0x01])) 0x02
    (tmc2209WritePacket 0x02 0x10 0x00061f0a) (tmc2209ReplyFrame 0x02 [0x00, 0x00, 0x00, 0x01])
    (counting_serialBuffer _ _) (by decide +kernel) (by decide) (by decide +kernel)
  have haccepted := (hparses [0x00, 0x00, 0x00, 0x01]).mpr ⟨rfl, rfl⟩
  exact absurd haccepted (by decide +kernel)

end PcbMill
