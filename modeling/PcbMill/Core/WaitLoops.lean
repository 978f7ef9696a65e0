import PcbMill.Lib.PollLoop

/-!
# The wait loops (`timers.c`, `eeprom_ack_polling`)

Each compares a counter with its value at the start.  The difference is taken in 32 bits, which
is right for the millisecond tick; the count of TIM6 has 16, and the deadline of the
acknowledge polling is not a difference at all.
-/

namespace PcbMill

open PollLoop

/-- `TIMx->ARR` as `timer_init` leaves it: a register of 16 bits. -/
def timerInitArr (ticks : BitVec 32) : BitVec 16 := (ticks - 1).setWidth 16

/-- `TIMx->CNT`, `n` ticks after it stood at `start`: it counts up to `ARR` and begins again. -/
def timerCnt (arr start : BitVec 16) (n : ℕ) : BitVec 16 :=
  BitVec.ofNat 16 ((start.toNat + n) % (arr.toNat + 1))

/-- `TIM6->CNT`, for the ticks `timer6_init` passes. -/
def tim6Cnt (start : BitVec 16) (n : ℕ) : BitVec 16 := timerCnt (timerInitArr 0) start n

/-- `systick_global`, `n` ticks after it stood at `start`. -/
def systickGlobal (start : BitVec 32) (n : ℕ) : BitVec 32 := start + BitVec.ofNat 32 n

/-- The test of `delay_us`, `n` ticks after its start. -/
def delayUsWaits (start : BitVec 16) (us : BitVec 32) (n : ℕ) : Bool :=
  decide ((tim6Cnt start n).setWidth 32 - start.setWidth 32 < us)

/-- The test of `delay_ms`. -/
def delayMsWaits (start ms : BitVec 32) (n : ℕ) : Bool :=
  decide (systickGlobal start n - start < ms)

/-- The test of `eeprom_ack_polling`, against the tick at which it `expires`. -/
def eepromAckPollingWaits (start : BitVec 32) (n : ℕ) : Bool :=
  decide (systickGlobal start n < start + 100)

/-- A call of one of the three, with the count it starts at. -/
inductive WaitLoop where
  | delayUs (start : BitVec 16) (us : BitVec 32)
  | delayMs (start ms : BitVec 32)
  | eepromAckPolling (start : BitVec 32)

def WaitLoop.waits : WaitLoop → ℕ → Bool
  | delayUs start us => delayUsWaits start us
  | delayMs start ms => delayMsWaits start ms
  | eepromAckPolling start => eepromAckPollingWaits start

/-- The ticks it is to wait for. -/
def WaitLoop.ticks : WaitLoop → ℕ
  | delayUs _ us => us.toNat
  | delayMs _ ms => ms.toNat
  | eepromAckPolling _ => 100

/-- What may answer the loop: a delay waits for nothing, the polling for an acknowledge at any of its
ticks. -/
def WaitLoop.answers : WaitLoop → Set (ℕ → Bool)
  | eepromAckPolling _ => Set.univ
  | _ => {fun _ => false}

/-- The loop gives up when, and only when, its ticks have elapsed. -/
def WaitLoop.WrapSafe (w : WaitLoop) : Prop := WaitsFor w.answers w.waits w.ticks

/-- The deadline does not pass the end of the counter it is compared in: TIM6 gets to its last tick
but one, or starts anew at the very tick the delay ends; the expiry of the polling is a tick. -/
def WaitLoop.Within : WaitLoop → Prop
  | delayUs start us =>
    start.toNat + us.toNat < 2 ^ 16 ∨ (start.toNat + us.toNat = 2 ^ 16 ∧ start ≠ 0)
  | delayMs _ _ => True
  | eepromAckPolling start => start.toNat + 100 < 2 ^ 32

theorem WaitLoop.silence_mem (w : WaitLoop) : (fun _ => false) ∈ w.answers := by
  cases w <;> simp [answers]

/-! ### The counters -/

theorem tim6Cnt_toNat (start : BitVec 16) (n : ℕ) :
    (tim6Cnt start n).toNat = (start.toNat + n) % 2 ^ 16 := by
  have hperiod : (timerInitArr 0).toNat + 1 = 2 ^ 16 := by decide
  rw [tim6Cnt, timerCnt, hperiod, BitVec.toNat_ofNat, Nat.mod_mod]

theorem delayUsWaits_iff (start : BitVec 16) (us : BitVec 32) (n : ℕ) :
    delayUsWaits start us n = true ↔
      ((start.toNat + n) % 2 ^ 16 + (2 ^ 32 - start.toNat)) % 2 ^ 32 < us.toNat := by
  have hstart := start.isLt
  have hcnt : ((tim6Cnt start n).setWidth 32).toNat = (start.toNat + n) % 2 ^ 16 := by
    rw [BitVec.toNat_setWidth_of_le (by decide), tim6Cnt_toNat]
  have hbase : (start.setWidth 32).toNat = start.toNat := BitVec.toNat_setWidth_of_le (by decide)
  rw [delayUsWaits, decide_eq_true_iff, BitVec.lt_def, BitVec.toNat_sub, hcnt, hbase, Nat.add_comm]

theorem delayMsWaits_iff (start ms : BitVec 32) (n : ℕ) :
    delayMsWaits start ms n = true ↔ n % 2 ^ 32 < ms.toNat := by
  have helapsed : systickGlobal start n - start = BitVec.ofNat 32 n := by
    rw [systickGlobal, BitVec.add_comm, BitVec.add_sub_cancel]
  rw [delayMsWaits, decide_eq_true_iff, helapsed, BitVec.lt_def, BitVec.toNat_ofNat]

theorem eepromAckPollingWaits_iff (start : BitVec 32) (n : ℕ) :
    eepromAckPollingWaits start n = true ↔
      (start.toNat + n) % 2 ^ 32 < (start.toNat + 100) % 2 ^ 32 := by
  rw [eepromAckPollingWaits, decide_eq_true_iff, BitVec.lt_def, systickGlobal, BitVec.toNat_add,
    BitVec.toNat_add, BitVec.toNat_ofNat, Nat.add_mod_mod]
  rfl

/-! ### When they are right -/

/-- The test of a delay of `us` from a count of `s`: true before the delay is over, and false then. -/
theorem delayUs_exact_iff {s us : ℕ} (hs : s < 2 ^ 16) (hus : us < 2 ^ 32) :
    ((∀ j < us, ((s + j) % 2 ^ 16 + (2 ^ 32 - s)) % 2 ^ 32 < us) ∧
        ¬ ((s + us) % 2 ^ 16 + (2 ^ 32 - s)) % 2 ^ 32 < us) ↔
      s + us < 2 ^ 16 ∨ (s + us = 2 ^ 16 ∧ s ≠ 0) := by
  constructor
  · rintro ⟨hbefore, hend⟩
    by_contra hlate
    obtain rfl | hpos := Nat.eq_zero_or_pos s
    · -- from zero the count never differs from its start by more than 16 bits
      omega
    · -- the difference jumps to nearly `2 ^ 32` where the count wraps
      have hwrap := hbefore (2 ^ 16 - s) (by omega)
      have hreached := hbefore (2 ^ 16 - s + (us + s - 2 ^ 32)) (by omega)
      omega
  · intro hwithin
    exact ⟨fun j hj => by omega, by omega⟩

/-- The test against the tick at which the polling expires. -/
theorem ackPolling_exact_iff {s : ℕ} (hs : s < 2 ^ 32) :
    ((∀ j < 100, (s + j) % 2 ^ 32 < (s + 100) % 2 ^ 32) ∧
        ¬ (s + 100) % 2 ^ 32 < (s + 100) % 2 ^ 32) ↔ s + 100 < 2 ^ 32 := by
  constructor
  · rintro ⟨hbefore, -⟩
    have hfirst := hbefore 0 (by omega)
    omega
  · exact fun h => ⟨fun j hj => by omega, lt_irrefl _⟩

/-- **The wait loops** give up after the ticks they were asked for exactly where their deadline does
not pass the end of the counter. -/
theorem wait_loop_wrapSafe_iff (w : WaitLoop) : w.WrapSafe ↔ w.Within := by
  rw [WaitLoop.WrapSafe, waitsFor_iff w.silence_mem]
  cases w with
  | delayUs start us =>
    simp only [WaitLoop.waits, WaitLoop.ticks, WaitLoop.Within, delayUsWaits_iff,
      ← Bool.not_eq_true]
    rw [delayUs_exact_iff start.isLt us.isLt]
    have hzero : start ≠ 0 ↔ start.toNat ≠ 0 := by
      rw [Ne, ← BitVec.toNat_inj]
      rfl
    rw [hzero]
  | delayMs start ms =>
    have hms := ms.isLt
    simp only [WaitLoop.waits, WaitLoop.ticks, WaitLoop.Within, delayMsWaits_iff,
      ← Bool.not_eq_true, iff_true]
    exact ⟨fun j hj => by omega, by omega⟩
  | eepromAckPolling start =>
    simp only [WaitLoop.waits, WaitLoop.ticks, WaitLoop.Within, eepromAckPollingWaits_iff,
      ← Bool.not_eq_true]
    exact ackPolling_exact_iff start.isLt

/-- A delay of 10 µs begun at the last count of TIM6 is over after one tick. -/
theorem wait_loops_fail_at_wrap : ¬ ∀ w : WaitLoop, w.WrapSafe := by
  intro h
  have hgaveUp := (h (.delayUs 0xFFFF 10) (fun _ => false) rfl 1).mp (by decide)
  exact absurd hgaveUp.1 (by decide)

end PcbMill
