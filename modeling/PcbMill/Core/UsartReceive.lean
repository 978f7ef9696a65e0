import PcbMill.Core.Usart

/-!
# What becomes of the bytes received

`usart_read` is taken apart into its statements here, with `rx_count--` as a load and a store.
It masks the receive interrupt alone, and the handler serves both halves whatever it is entered
for: while the transmit interrupt is enabled, a byte can be received between any two statements
of a read.  Beside the driver, the run keeps the bytes taken from `RDR` and not yet read or
cleared, and what each read ought to return.
-/

namespace PcbMill

open FixedWidth RingBuffer Run

/-! ### The statements of `usart_read` -/

/-- Where the program is in `usart_read`, with the locals it holds there. -/
inductive ReadPc where
  | outside
  /-- before the comparison of the indices -/
  | test
  /-- before the byte at the tail is taken -/
  | fetch
  /-- before `rx_count` is loaded -/
  | loadCount (data : ℤ)
  /-- before `rx_count`, loaded, is stored less one -/
  | storeCount (data : ℤ) (count : ℕ)
  /-- before `rx_count` is set to zero -/
  | clearCount
  /-- before the receive interrupt is enabled and the function returns -/
  | unmask (data : ℤ)
  deriving DecidableEq

/-- One statement of `usart_read`.  Nothing outside it looks at the tail, so the wrap is one with
the increment. -/
def usartReadStep (u : UsartInstance) : ReadPc → UsartInstance × ReadPc
  | .outside => (u, .outside)
  | .test => (u, if u.rxBufferTail ≠ u.rxBufferHead then .fetch else .clearCount)
  | .fetch => ({ u with rxBufferTail := next u.rxBufferSize u.rxBufferTail },
      .loadCount (u.rxBuffer u.rxBufferTail).toNat)
  | .loadCount data => (u, .storeCount data u.rxCount)
  | .storeCount data count => ({ u with rxCount := sub32 count 1 }, .unmask data)
  | .clearCount => ({ u with rxCount := 0 }, .unmask (-1))
  | .unmask _ => (u.setRxneie true, .outside)

/-- What the function returns, once it is known. -/
def ReadPc.answer : ReadPc → Option ℤ
  | .loadCount data => some data
  | .storeCount data _ => some data
  | .unmask data => some data
  | .clearCount => some (-1)
  | _ => none

/-- The statements one after another, to the one that returns. -/
def usartReadSteps : ℕ → UsartInstance × ReadPc → UsartInstance × ReadPc
  | 0, c => c
  | n + 1, (u, .unmask data) => usartReadSteps n (u, .unmask data)
  | n + 1, (u, pc) => usartReadSteps n (usartReadStep u pc)

/-- Undisturbed, the statements are `usart_read`. -/
theorem usartReadSteps_eq (u : UsartInstance) :
    usartReadSteps 4 (u.setRxneie false, .test) =
      ({ (usartRead u).2 with hal := { u.hal with rxneie := false } }, .unmask (usartRead u).1) := by
  by_cases hne : u.rxBufferTail ≠ u.rxBufferHead
  · simp [usartReadSteps, usartReadStep, usartRead, UsartInstance.setRxneie, hne]
  · simp [usartReadSteps, usartReadStep, usartRead, UsartInstance.setRxneie, hne]

/-! ### Runs -/

inductive ReceiveEvent where
  | line (e : LineEvent)
  | send (b : Byte)
  /-- `usart_read` is called -/
  | read
  /-- the next statement of a read -/
  | advance
  /-- one test of the loop of `usart_wait_for_count` -/
  | wait (count maxWaitMs : ℕ)
  | clear

structure ReceiveRun where
  usart : UsartInstance
  pc : ReadPc
  /-- The bytes taken from `RDR` and not yet read or cleared. -/
  unread : List Byte
  /-- What the read under way ought to return. -/
  due : ℤ
  /-- What the reads so far have returned, and what they ought to have. -/
  answers : List ℤ
  expected : List ℤ

/-- The byte an interrupt takes from `RDR`. -/
def irqTakes (u : UsartInstance) : List Byte :=
  if usartIrqPending u.hal then u.hal.rdr.toList else []

/-- The first byte unread, or -1. -/
def dueAnswer : List Byte → ℤ
  | [] => -1
  | b :: _ => b.toNat

/-- The next statement of a read.  A read answers for the moment of its test. -/
def receiveAdvance (r : ReceiveRun) : ReceiveRun :=
  let c := usartReadStep r.usart r.pc
  match r.pc with
  | .test => { r with usart := c.1, pc := c.2, due := dueAnswer r.unread, unread := r.unread.tail }
  | .unmask data => { r with usart := c.1, pc := c.2, answers := r.answers ++ [data],
                             expected := r.expected ++ [r.due] }
  | _ => { r with usart := c.1, pc := c.2 }

def receiveStep (r : ReceiveRun) : ReceiveEvent → ReceiveRun
  | .line e =>
    { r with usart := lineStep r.usart e
             unread := r.unread ++ match e with | .irq => irqTakes r.usart | _ => [] }
  | .advance => receiveAdvance r
  | .wait _ _ => r
  | .send b => if r.pc = .outside then { r with usart := usartSend r.usart b } else r
  | .read =>
    if r.pc = .outside then { r with usart := r.usart.setRxneie false, pc := .test } else r
  | .clear =>
    if r.pc = .outside then { r with usart := usartClearBuffers r.usart, unread := [] } else r

/-- An initialised USART with a receive buffer of any 32-bit size. -/
def receiveInit (txBuffer rxBuffer : ℕ → Byte) (txSize : ℕ) (rxSize : BitVec 32) : ReceiveRun :=
  { usart := usartInitHal (usartInstance txBuffer txSize rxBuffer rxSize.toNat), pc := .outside,
    unread := [], due := 0, answers := [], expected := [] }

/-- Outside `usart_read` the count is the number of unread bytes, and every read has returned what
it ought to. -/
structure ReceiveRun.Accurate (r : ReceiveRun) : Prop where
  count : r.pc = .outside → r.usart.rxCount = r.unread.length
  answers : r.answers = r.expected

/-- No more than `rx_buffer_size` bytes are unread. -/
def ReceiveRun.AtMostSize (r : ReceiveRun) : Prop := r.unread.length ≤ r.usart.rxBufferSize

instance (r : ReceiveRun) : Decidable r.AtMostSize := inferInstanceAs (Decidable (_ ≤ _))

/-- The condition on one event, in the state before it.  A read tests a ring that is not full to
its last place.  An interrupt that takes a byte comes neither between the load and the store of
`rx_count`, nor between a test that found nothing and the zero stored for it, nor, with the ring
full, before the byte at the tail is taken. -/
def ReceiveOk (r : ReceiveRun) : ReceiveEvent → Prop
  | .advance => r.pc = .test → r.unread = [] ∨ r.unread.length < r.usart.rxBufferSize
  | .line .irq => irqTakes r.usart ≠ [] →
      match r.pc with
      | .storeCount _ _ => False
      | .clearCount => False
      | .fetch => r.unread.length + 1 < r.usart.rxBufferSize
      | _ => True
  | _ => True

instance (r : ReceiveRun) (e : ReceiveEvent) : Decidable (ReceiveOk r e) :=
  match e with
  | .advance => inferInstanceAs (Decidable (_ → _))
  | .line .irq => by
    simp only [ReceiveOk]
    cases r.pc <;> infer_instance
  | .line (.receive _) | .line .load | .line .shift => isTrue trivial
  | .send _ | .read | .wait _ _ | .clear => isTrue trivial

/-! ### The receive ring -/

/-- Two instances whose receive sides are the same. -/
structure UsartInstance.SameReceive (u u' : UsartInstance) : Prop where
  size : u'.rxBufferSize = u.rxBufferSize
  head : u'.rxBufferHead = u.rxBufferHead
  tail : u'.rxBufferTail = u.rxBufferTail
  buffer : u'.rxBuffer = u.rxBuffer
  count : u'.rxCount = u.rxCount

/-- A byte has gone into the receive ring. -/
structure UsartInstance.Received (b : Byte) (u u' : UsartInstance) : Prop where
  size : u'.rxBufferSize = u.rxBufferSize
  head : u'.rxBufferHead = next u.rxBufferSize u.rxBufferHead
  tail : u'.rxBufferTail = u.rxBufferTail
  buffer : u'.rxBuffer = Function.update u.rxBuffer u.rxBufferHead b
  count : u'.rxCount = add32 u.rxCount 1

variable {u u' u'' : UsartInstance} {b : Byte}

theorem UsartInstance.SameReceive.refl (u : UsartInstance) : u.SameReceive u := by
  constructor <;> rfl

theorem sameReceive_usartIrqTransmit (u : UsartInstance) :
    u.SameReceive (usartIrqTransmit u) ∧ (usartIrqTransmit u).hal.rdr = u.hal.rdr := by
  simp only [usartIrqTransmit]
  split_ifs
  · exact ⟨by constructor <;> rfl, rfl⟩
  · exact ⟨by constructor <;> rfl, rfl⟩
  · exact ⟨.refl u, rfl⟩

/-- An interrupt takes the byte in `RDR`, if it is entered and there is one. -/
theorem lineStep_irq_receive (u : UsartInstance) :
    (irqTakes u = [] ∧ u.SameReceive (lineStep u .irq)) ∨
      ∃ b, irqTakes u = [b] ∧ u.Received b (lineStep u .irq) := by
  obtain ⟨hsame, hrdr⟩ := sameReceive_usartIrqTransmit u
  simp only [irqTakes, lineStep]
  by_cases hpending : usartIrqPending u.hal = true
  · rw [if_pos hpending, if_pos hpending, usartIrqHandler, usartIrqReceive, hrdr]
    cases u.hal.rdr with
    | none => exact .inl ⟨rfl, hsame⟩
    | some b =>
      refine .inr ⟨b, rfl, hsame.size, ?_, hsame.tail, ?_, ?_⟩
      · show next _ _ = _
        rw [hsame.size, hsame.head]
      · show Function.update _ _ _ = _
        rw [hsame.buffer, hsame.head]
      · show add32 _ 1 = _
        rw [hsame.count]
  · rw [if_neg hpending, if_neg hpending]
    exact .inl ⟨rfl, .refl u⟩

theorem sameReceive_lineStep {e : LineEvent} (he : e ≠ .irq) : u.SameReceive (lineStep u e) := by
  cases e with
  | irq => exact absurd rfl he
  | load => constructor <;> rfl
  | shift => constructor <;> rfl
  | receive data => constructor <;> rfl

/-- The receive ring has the bytes of `q`. -/
def UsartInstance.RingHolds (u : UsartInstance) (q : List Byte) : Prop :=
  Holds u.rxBuffer u.rxBufferSize u.rxBufferHead u.rxBufferTail q

variable {q : List Byte}

theorem UsartInstance.RingHolds.of_same (h : u.RingHolds q) (hsame : u.SameReceive u') :
    u'.RingHolds q := by
  rw [RingHolds, hsame.size, hsame.head, hsame.tail, hsame.buffer]
  exact h

theorem UsartInstance.RingHolds.received (h : u.RingHolds q) (hreceived : u.Received b u')
    (hroom : q.length < u.rxBufferSize) : u'.RingHolds (q ++ [b]) := by
  rw [RingHolds, hreceived.size, hreceived.head, hreceived.tail, hreceived.buffer]
  exact h.push hroom b

/-! ### What a run keeps -/

/-- The bytes in the ring and what `rx_count` stands at, by the place in `usart_read`: from its
test to its fetch the byte it reads is still in the ring, and to its store still counted. -/
def ReceiveRun.Accounts (r : ReceiveRun) : Prop :=
  match r.pc with
  | .fetch => (∃ b : Byte, r.due = b.toNat ∧ r.usart.RingHolds (b :: r.unread)) ∧
      r.usart.rxCount = u32 (r.unread.length + 1)
  | .loadCount _ => r.usart.RingHolds r.unread ∧ r.usart.rxCount = u32 (r.unread.length + 1)
  | .storeCount _ count => r.usart.RingHolds r.unread ∧ count = u32 (r.unread.length + 1)
  | .clearCount => r.usart.RingHolds r.unread ∧ r.unread = []
  | _ => r.usart.RingHolds r.unread ∧ r.usart.rxCount = u32 r.unread.length

structure ReceiveSound (r : ReceiveRun) : Prop where
  size_lt : r.usart.rxBufferSize < 2 ^ 32
  accounts : r.Accounts
  due : ∀ a, r.pc.answer = some a → a = r.due
  answers : r.answers = r.expected

variable {r : ReceiveRun}

theorem ReceiveSound.accurate (h : ReceiveSound r) : r.Accurate where
  count := by
    intro hpc
    have haccounts := h.accounts
    simp only [ReceiveRun.Accounts, hpc] at haccounts
    have hle := haccounts.1.length_le
    rw [haccounts.2]
    exact Nat.mod_eq_of_lt (lt_of_le_of_lt hle h.size_lt)
  answers := h.answers

/-- What the loop of `usart_wait_for_count` tests is the number of unread bytes. -/
theorem ReceiveRun.Accurate.wait (h : r.Accurate) (hpc : r.pc = .outside) (count maxWaitMs : ℕ) :
    usartWaitForCount r.usart count maxWaitMs =
      if r.unread.length < count ∧ 0 < maxWaitMs then some (maxWaitMs - 1) else none := by
  rw [usartWaitForCount, h.count hpc]

theorem ReceiveRun.Accounts.of_same (h : r.Accounts) (hsame : r.usart.SameReceive u) :
    ReceiveRun.Accounts { r with usart := u } := by
  have hcount := hsame.count
  rcases r with ⟨usart, pc, unread, due, answers, expected⟩
  cases pc with
  | fetch =>
    obtain ⟨⟨b, hdue, hring⟩, hc⟩ := h
    exact ⟨⟨b, hdue, hring.of_same hsame⟩, hcount.trans hc⟩
  | storeCount data count => exact ⟨h.1.of_same hsame, h.2⟩
  | clearCount => exact ⟨h.1.of_same hsame, h.2⟩
  | loadCount data => exact ⟨h.1.of_same hsame, hcount.trans h.2⟩
  | outside => exact ⟨h.1.of_same hsame, hcount.trans h.2⟩
  | test => exact ⟨h.1.of_same hsame, hcount.trans h.2⟩
  | unmask data => exact ⟨h.1.of_same hsame, hcount.trans h.2⟩

theorem ReceiveSound.same (h : ReceiveSound r) (hsame : r.usart.SameReceive u) :
    ReceiveSound { r with usart := u } :=
  ⟨hsame.size ▸ h.size_lt, h.accounts.of_same hsame, h.due, h.answers⟩

theorem u32_succ (n : ℕ) : add32 (u32 n) 1 = u32 (n + 1) := by
  simp only [add32, u32]
  omega

theorem sub32_u32_succ (n : ℕ) : sub32 (u32 (n + 1)) 1 = u32 n := by
  simp only [sub32, u32]
  omega

/-- A byte received where the condition allows it. -/
theorem ReceiveRun.Accounts.received (h : r.Accounts) (hreceived : r.usart.Received b u)
    (hroom : r.unread.length < r.usart.rxBufferSize) (htakes : irqTakes r.usart ≠ [])
    (hok : ReceiveOk r (.line .irq)) :
    ReceiveRun.Accounts { r with usart := u, unread := r.unread ++ [b] } := by
  have hcount := hreceived.count
  have hlength : (r.unread ++ [b]).length = r.unread.length + 1 := List.length_append
  have hcounted : ∀ n, r.usart.rxCount = u32 n → u.rxCount = u32 (n + 1) := by
    intro n hn
    rw [hcount, hn, u32_succ]
  have hallowed := hok htakes
  rcases r with ⟨usart, pc, unread, due, answers, expected⟩
  simp only [Accounts] at h ⊢
  rw [hlength]
  cases pc with
  | storeCount data count => exact absurd hallowed id
  | clearCount => exact absurd hallowed id
  | fetch =>
    obtain ⟨⟨c, hdue, hring⟩, hc⟩ := h
    exact ⟨⟨c, hdue, hring.received hreceived hallowed⟩, hcounted _ hc⟩
  | loadCount data => exact ⟨h.1.received hreceived hroom, hcounted _ h.2⟩
  | outside => exact ⟨h.1.received hreceived hroom, hcounted _ h.2⟩
  | test => exact ⟨h.1.received hreceived hroom, hcounted _ h.2⟩
  | unmask data => exact ⟨h.1.received hreceived hroom, hcounted _ h.2⟩

theorem ReceiveSound.irq (h : ReceiveSound r) (hsize : (receiveStep r (.line .irq)).AtMostSize)
    (hok : ReceiveOk r (.line .irq)) : ReceiveSound (receiveStep r (.line .irq)) := by
  obtain ⟨htakes, hsame⟩ | ⟨b, htakes, hreceived⟩ := lineStep_irq_receive r.usart
  · have hstep : receiveStep r (.line .irq) = { r with usart := lineStep r.usart .irq } := by
      simp [receiveStep, htakes]
    rw [hstep]
    exact h.same hsame
  · have hstep : receiveStep r (.line .irq) =
        { r with usart := lineStep r.usart .irq, unread := r.unread ++ [b] } := by
      simp [receiveStep, htakes]
    have hne : irqTakes r.usart ≠ [] := by
      rw [htakes]
      exact List.cons_ne_nil b []
    rw [hstep] at hsize ⊢
    have hroom : r.unread.length < r.usart.rxBufferSize := by
      rw [← hreceived.size]
      simpa [ReceiveRun.AtMostSize] using hsize
    exact ⟨hreceived.size ▸ h.size_lt, h.accounts.received hreceived hroom hne hok, h.due, h.answers⟩

/-- The test of a read tells whether a byte is unread, unless the ring is full to its last place. -/
theorem ReceiveSound.test (h : ReceiveSound r) (hpc : r.pc = .test)
    (hok : r.unread = [] ∨ r.unread.length < r.usart.rxBufferSize) :
    ReceiveSound (receiveAdvance r) := by
  obtain ⟨hsize, haccounts, -, hanswers⟩ := h
  rcases r with ⟨usart, pc, unread, due, answers, expected⟩
  subst hpc
  obtain ⟨hring, hcount⟩ := haccounts
  have htell := hring.tail_ne_head_iff hok
  cases unread with
  | nil =>
    have hempty : ¬ usart.rxBufferTail ≠ usart.rxBufferHead := fun hne => htell.mp hne rfl
    simp only [receiveAdvance, usartReadStep, if_neg hempty]
    refine ⟨hsize, ⟨hring, rfl⟩, ?_, hanswers⟩
    intro a ha
    exact (Option.some.inj ha).symm
  | cons b rest =>
    have hne := htell.mpr (List.cons_ne_nil b rest)
    simp only [receiveAdvance, usartReadStep, if_pos hne]
    exact ⟨hsize, ⟨⟨b, rfl, hring⟩, hcount⟩, fun a ha => (by cases ha), hanswers⟩

theorem ReceiveSound.advance (h : ReceiveSound r) (hok : ReceiveOk r .advance) :
    ReceiveSound (receiveAdvance r) := by
  by_cases hpc : r.pc = .test
  · exact h.test hpc (hok hpc)
  · obtain ⟨hsize, haccounts, hdue, hanswers⟩ := h
    rcases r with ⟨usart, pc, unread, due, answers, expected⟩
    simp only [ReceiveRun.Accounts] at haccounts
    cases pc with
    | outside => exact ⟨hsize, haccounts, hdue, hanswers⟩
    | test => exact absurd rfl hpc
    | fetch =>
      obtain ⟨⟨b, hb, hring⟩, hcount⟩ := haccounts
      obtain ⟨hbyte, hrest⟩ := hring.pop
      refine ⟨hsize, ⟨hrest, hcount⟩, ?_, hanswers⟩
      intro a ha
      rw [← Option.some.inj ha, hbyte]
      exact hb.symm
    | loadCount data => exact ⟨hsize, haccounts, hdue, hanswers⟩
    | storeCount data count =>
      obtain ⟨hring, hcount⟩ := haccounts
      have hstored : sub32 count 1 = u32 unread.length := by rw [hcount, sub32_u32_succ]
      simp only [receiveAdvance, usartReadStep]
      rw [hstored]
      exact ⟨hsize, ⟨hring, rfl⟩, hdue, hanswers⟩
    | clearCount =>
      obtain ⟨hring, rfl⟩ : usart.RingHolds unread ∧ unread = [] := haccounts
      exact ⟨hsize, ⟨hring, rfl⟩, hdue, hanswers⟩
    | unmask data =>
      refine ⟨hsize, haccounts, fun a ha => (by cases ha), ?_⟩
      show answers ++ [data] = expected ++ [due]
      rw [hdue data rfl, show answers = expected from hanswers]

theorem ReceiveSound.clear (h : ReceiveSound r) : ReceiveSound (receiveStep r .clear) := by
  simp only [receiveStep]
  split_ifs with hpc
  · obtain ⟨hsize, -, hdue, hanswers⟩ := h
    rcases r with ⟨usart, pc, unread, due, answers, expected⟩
    subst hpc
    exact ⟨hsize, ⟨Holds.zero usart.rxBuffer usart.rxBufferSize, rfl⟩, hdue, hanswers⟩
  · exact h

theorem ReceiveSound.read (h : ReceiveSound r) : ReceiveSound (receiveStep r .read) := by
  simp only [receiveStep]
  split_ifs with hpc
  · obtain ⟨hsize, haccounts, -, hanswers⟩ := h
    rcases r with ⟨usart, pc, unread, due, answers, expected⟩
    subst hpc
    exact ⟨hsize, haccounts, fun a ha => (by cases ha), hanswers⟩
  · exact h

/-- **One event.** -/
theorem ReceiveSound.step (h : ReceiveSound r) (e : ReceiveEvent)
    (hsize : (receiveStep r e).AtMostSize) (hok : ReceiveOk r e) :
    ReceiveSound (receiveStep r e) := by
  cases e with
  | line e =>
    by_cases hirq : e = .irq
    · subst hirq
      exact h.irq hsize hok
    · have hstep : receiveStep r (.line e) = { r with usart := lineStep r.usart e } := by
        cases e <;> simp_all [receiveStep]
      rw [hstep]
      exact h.same (sameReceive_lineStep hirq)
  | send b =>
    simp only [receiveStep]
    split_ifs
    · exact h.same (by constructor <;> rfl)
    · exact h
  | read => exact h.read
  | advance => exact h.advance hok
  | wait count maxWaitMs => exact h
  | clear => exact h.clear

theorem receiveSound_init (txBuffer rxBuffer : ℕ → Byte) (txSize : ℕ) (rxSize : BitVec 32) :
    ReceiveSound (receiveInit txBuffer rxBuffer txSize rxSize) where
  size_lt := rxSize.isLt
  accounts := ⟨Holds.zero rxBuffer rxSize.toNat, rfl⟩
  due := fun a ha => by cases ha
  answers := rfl

/-- **Receive accounting.**  As long as no more than `rx_buffer_size` bytes are unread, in a run
whose reads and interrupts meet their conditions. -/
theorem reception_accurate (txBuffer rxBuffer : ℕ → Byte) (txSize : ℕ) (rxSize : BitVec 32)
    (es : List ReceiveEvent)
    (hunread : Always receiveStep ReceiveRun.AtMostSize
      (receiveInit txBuffer rxBuffer txSize rxSize) es)
    (hok : Guarded receiveStep ReceiveOk (receiveInit txBuffer rxBuffer txSize rxSize) es) :
    Always receiveStep ReceiveRun.Accurate (receiveInit txBuffer rxBuffer txSize rxSize) es :=
  (always_of_guarded_of_always (I := ReceiveSound) (fun _ e h hsize hg => h.step e hsize hg)
    (receiveSound_init txBuffer rxBuffer txSize rxSize) hunread hok).mono fun _ h => h.accurate

/-- Four bytes through a ring of three.  The third comes with the transmit interrupt while the
first is read, and the last goes to the start of the ring again. -/
def wrappedReception : List ReceiveEvent :=
  let received (b : Byte) : List ReceiveEvent := [.line (.receive b), .line .irq]
  let reads : List ReceiveEvent := .read :: List.replicate 5 .advance
  [received 0x05, received 0xff, [.send 0x11, .read, .advance, .advance], received 0x2a,
    List.replicate 3 .advance, reads, received 0x80, reads, reads, reads].flatten

theorem reception_accurate_wrapped :
    Always receiveStep ReceiveRun.Accurate (receiveInit (fun _ => 0) (fun _ => 0) 3 3)
        wrappedReception ∧
      (runFrom receiveStep (receiveInit (fun _ => 0) (fun _ => 0) 3 3) wrappedReception).answers =
        [0x05, 0xff, 0x2a, 0x80, -1] :=
  ⟨reception_accurate _ _ _ _ _ (by decide +kernel) (by decide +kernel), by decide +kernel⟩

/-- Two bytes fill a ring of two: the read finds none, and the count is set to zero. -/
theorem full_receive_ring_reads_none :
    ¬ ∀ (txBuffer rxBuffer : ℕ → Byte) (txSize : ℕ) (rxSize : BitVec 32) (es : List ReceiveEvent),
      Always receiveStep ReceiveRun.AtMostSize (receiveInit txBuffer rxBuffer txSize rxSize) es →
      Always receiveStep ReceiveRun.Accurate (receiveInit txBuffer rxBuffer txSize rxSize) es := by
  intro h
  have haccurate := (h (fun _ => 0) (fun _ => 0) 2 2 [.line (.receive 0x05), .line .irq,
    .line (.receive 0xff), .line .irq, .read, .advance, .advance, .advance] (by decide)).last
  exact absurd haccurate.answers (by decide)

end PcbMill
