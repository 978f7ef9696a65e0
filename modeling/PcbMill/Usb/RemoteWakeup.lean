import PcbMill.Usb.Suspension

/-!
# Remote wake-up (`usb_remote_wakeup_start`)

The call sets L2RES and then the countdown, and the ESOF interrupt counts down and clears L2RES
with the last count.  The interrupts come between any two steps of the call.  A call that finds
the count at one is not refused: the count starts again on a bit that is already set.
-/

namespace PcbMill

open Run

/-- Where the main loop is in `usb_remote_wakeup_start`: before the test of the counter, before
the read of `USB_CNTR`, before the write of what was read, before the write of the counter. -/
inductive WakePc where
  | outside | test | load
  | store (cntr : UsbCntr)
  | arm
  deriving DecidableEq

inductive WakeEvent where
  | irq (istr : UsbIstr) (ctr : List ℕ)
  | call
  | advance

structure WakeRun where
  power : UsbPower
  pc : WakePc
  /-- The ESOF interrupts since L2RES was last set, while it stayed set. -/
  held : ℕ

/-- The interrupt takes the ESOF branch. -/
def UsbIstr.countsFrame (istr : UsbIstr) : Bool := !istr.reset && istr.esof

/-- One step of the call. -/
def wakeAdvance (r : WakeRun) : WakeRun :=
  match r.pc with
  | .outside => r
  | .test => { r with pc := if 1 < r.power.remoteWakeCounter then .outside else .load }
  | .load => { r with pc := .store r.power.cntr }
  | .store cntr =>
    { power := { r.power with cntr := { cntr with l2res := true } }
      pc := .arm
      held := if r.power.cntr.l2res then r.held else 0 }
  | .arm => { r with power := { r.power with remoteWakeCounter := 10 }, pc := .outside }

/-- One call at a time: the calls are made from the main loop. -/
def wakeCall (r : WakeRun) : WakeRun :=
  if r.pc ≠ .outside ∨ (!r.power.suspended || !r.power.remoteWakeup) then r
  else { r with pc := .test }

def wakeStep (cbs : CdcCallbacks) (r : WakeRun) : WakeEvent → WakeRun
  | .irq istr ctr =>
    { r with
      power := usbIrqHandler cbs r.power istr ctr
      held := if istr.countsFrame && r.power.cntr.l2res then r.held + 1 else r.held }
  | .call => wakeCall r
  | .advance => wakeAdvance r

def wakeStart (s : Usb) : WakeRun := { power := usbPowerStart s, pc := .outside, held := 0 }

/-- L2RES is set exactly while the countdown runs, but for the moment in which a call has set the
one and not yet the other, and no longer than 15 ESOF periods. -/
structure WakeRun.Bounded (r : WakeRun) : Prop where
  counted : r.pc ≠ .arm → (r.power.cntr.l2res = true ↔ r.power.remoteWakeCounter ≠ 0)
  bound : r.held ≤ 15

/-- The next step of the call writes `USB_CNTR`. -/
def WakePc.storing : WakePc → Bool
  | .store _ => true
  | _ => false

/-- The condition on an event: a call sets L2RES only while it is clear, and at most five ESOF
interrupts come before it has set the countdown. -/
def WakeOk (r : WakeRun) : WakeEvent → Prop
  | .advance => r.pc.storing = true → r.power.cntr.l2res = false
  | .irq istr _ => r.pc = .arm → istr.countsFrame = true → r.held < 5
  | .call => True

instance (r : WakeRun) : (e : WakeEvent) → Decidable (WakeOk r e)
  | .advance => inferInstanceAs (Decidable (_ → _))
  | .irq _ _ => inferInstanceAs (Decidable (_ → _ → _))
  | .call => inferInstanceAs (Decidable True)

/-- A call that has passed its test. -/
def WakePc.admitted : WakePc → Bool
  | .load | .store _ => true
  | _ => false

/-- The invariant of the runs that meet the condition: the periods held and the periods to come
make ten, and what a slow call has added. -/
structure WakeInv (r : WakeRun) : Prop where
  counted : r.pc ≠ .arm → (r.power.cntr.l2res = true ↔ r.power.remoteWakeCounter ≠ 0)
  span : r.pc ≠ .arm → r.power.cntr.l2res = true →
    10 ≤ r.held + r.power.remoteWakeCounter ∧ r.held + r.power.remoteWakeCounter ≤ 15
  arming : r.pc = .arm →
    r.power.cntr.l2res = true ∧ r.power.remoteWakeCounter = 0 ∧ r.held ≤ 5
  admitted : r.pc.admitted = true → r.power.remoteWakeCounter ≤ 1
  bound : r.held ≤ 15

/-! ### What the steps do -/

variable {cbs : CdcCallbacks} {p : UsbPower} {r : WakeRun} {istr : UsbIstr} {ctr : List ℕ}

theorem usbIrqEsof_wake (p : UsbPower) :
    (usbIrqEsof p).cntr.l2res = (p.cntr.l2res && decide (p.remoteWakeCounter ≠ 1)) ∧
      (usbIrqEsof p).remoteWakeCounter = p.remoteWakeCounter - 1 := by
  by_cases hlast : p.remoteWakeCounter = 1
  · simp [usbIrqEsof, hlast]
  · simp only [usbIrqEsof, if_neg hlast, decide_eq_true hlast, Bool.and_true]
    split_ifs with hpos
    · exact ⟨rfl, rfl⟩
    · exact ⟨rfl, by omega⟩

/-- The handler touches L2RES and the countdown in the ESOF branch only. -/
theorem usbIrqHandler_wake (cbs : CdcCallbacks) (p : UsbPower) (istr : UsbIstr) (ctr : List ℕ) :
    (usbIrqHandler cbs p istr ctr).cntr.l2res =
        (if istr.countsFrame then usbIrqEsof p else p).cntr.l2res ∧
      (usbIrqHandler cbs p istr ctr).remoteWakeCounter =
        (if istr.countsFrame then usbIrqEsof p else p).remoteWakeCounter := by
  rcases istr with ⟨reset, sof, esof, wkup, susp⟩
  simp only [usbIrqHandler, UsbIstr.countsFrame]
  cases reset with
  | true => exact ⟨rfl, rfl⟩
  | false =>
    have hesof : ∀ q : UsbPower, q.cntr = p.cntr → q.remoteWakeCounter = p.remoteWakeCounter →
        (usbIrqEsof q).cntr.l2res = (usbIrqEsof p).cntr.l2res ∧
          (usbIrqEsof q).remoteWakeCounter = (usbIrqEsof p).remoteWakeCounter := by
      intro q hcntr hcounter
      simp only [usbIrqEsof_wake, hcntr, hcounter, and_self]
    cases esof with
    | false => cases sof <;> cases wkup <;> cases susp <;> exact ⟨rfl, rfl⟩
    | true =>
      cases sof <;> cases wkup <;> cases susp <;> exact hesof _ rfl rfl

/-- An interrupt that counts no frame. -/
theorem wakeStep_irq_other (cbs : CdcCallbacks) (r : WakeRun) (ctr : List ℕ)
    (h : istr.countsFrame = false) :
    (wakeStep cbs r (.irq istr ctr)).power.cntr.l2res = r.power.cntr.l2res ∧
      (wakeStep cbs r (.irq istr ctr)).power.remoteWakeCounter = r.power.remoteWakeCounter ∧
      (wakeStep cbs r (.irq istr ctr)).held = r.held := by
  obtain ⟨hl2res, hcounter⟩ := usbIrqHandler_wake cbs r.power istr ctr
  rw [h] at hl2res hcounter
  simp only [wakeStep, hl2res, hcounter, h, Bool.false_and, Bool.false_eq_true, if_false,
    and_self]

/-- An interrupt that counts a frame. -/
theorem wakeStep_irq_frame (cbs : CdcCallbacks) (r : WakeRun) (ctr : List ℕ)
    (h : istr.countsFrame = true) :
    (wakeStep cbs r (.irq istr ctr)).power.cntr.l2res =
        (r.power.cntr.l2res && decide (r.power.remoteWakeCounter ≠ 1)) ∧
      (wakeStep cbs r (.irq istr ctr)).power.remoteWakeCounter =
        r.power.remoteWakeCounter - 1 ∧
      (wakeStep cbs r (.irq istr ctr)).held =
        if r.power.cntr.l2res then r.held + 1 else r.held := by
  obtain ⟨hl2res, hcounter⟩ := usbIrqHandler_wake cbs r.power istr ctr
  rw [h] at hl2res hcounter
  simp only [if_true] at hl2res hcounter
  simp only [wakeStep, hl2res, hcounter, usbIrqEsof_wake, h, Bool.true_and, and_self]

@[simp] theorem wakeStep_irq_pc : (wakeStep cbs r (.irq istr ctr)).pc = r.pc := rfl

/-- Without an interrupt the steps of a call make the call. -/
theorem wakeStep_call (cbs : CdcCallbacks) (p : UsbPower) (held : ℕ) :
    (runFrom (wakeStep cbs) { power := p, pc := .outside, held := held }
        [.call, .advance, .advance, .advance, .advance]).power = (usbRemoteWakeupStart p).2 := by
  simp only [runFrom_cons, runFrom_nil, wakeStep, wakeCall, usbRemoteWakeupStart,
    usbRemoteWakeupStartHal, ne_eq, not_true_eq_false, false_or]
  by_cases hdevice : (!p.suspended || !p.remoteWakeup) = true
  · simp [hdevice, wakeAdvance]
  · by_cases hcounter : 1 < p.remoteWakeCounter
    · simp [hdevice, hcounter, wakeAdvance]
    · simp [hdevice, hcounter, wakeAdvance]

/-! ### Runs that meet the condition -/

theorem WakeInv.bounded (h : WakeInv r) : r.Bounded := ⟨h.counted, h.bound⟩

theorem wakeInv_start (s : Usb) : WakeInv (wakeStart s) where
  counted _ := by simp [wakeStart, usbPowerStart]
  span _ h := absurd h (by simp [wakeStart, usbPowerStart])
  arming h := by cases h
  admitted _ := Nat.zero_le 1
  bound := Nat.zero_le 15

/-- A clear bit has no countdown. -/
theorem WakeInv.counter_eq_zero (h : WakeInv r) (hpc : r.pc ≠ .arm)
    (hclear : r.power.cntr.l2res = false) : r.power.remoteWakeCounter = 0 := by
  by_contra hne
  exact Bool.noConfusion (hclear.symm.trans ((h.counted hpc).mpr hne))

theorem wakeInv_irq_other (h : WakeInv r) (hframe : istr.countsFrame = false) :
    WakeInv (wakeStep cbs r (.irq istr ctr)) := by
  obtain ⟨hl2res, hcounter, hheld⟩ := wakeStep_irq_other cbs r ctr hframe
  refine ⟨?_, ?_, ?_, ?_, ?_⟩
  · rw [hl2res, hcounter]; exact h.counted
  · rw [hl2res, hcounter, hheld]; exact h.span
  · rw [hl2res, hcounter, hheld]; exact h.arming
  · rw [hcounter]; exact h.admitted
  · rw [hheld]; exact h.bound

/-- The countdown is not set yet, so nothing clears the bit. -/
theorem wakeInv_irq_arming (h : WakeInv r) (hpc : r.pc = .arm) (hframe : istr.countsFrame = true)
    (hshort : r.held < 5) : WakeInv (wakeStep cbs r (.irq istr ctr)) := by
  obtain ⟨hl2res, hcounter, hheld⟩ := wakeStep_irq_frame cbs r ctr hframe
  obtain ⟨hset, hzero, _⟩ := h.arming hpc
  rw [hset, if_pos rfl] at hheld
  rw [hset, hzero] at hl2res
  refine ⟨fun hne => absurd hpc hne, fun hne => absurd hpc hne, fun _ => ?_, fun _ => ?_, ?_⟩
  · exact ⟨by rw [hl2res]; rfl, by omega, by omega⟩
  · omega
  · omega

theorem wakeInv_irq_counting (h : WakeInv r) (hpc : r.pc ≠ .arm)
    (hframe : istr.countsFrame = true) : WakeInv (wakeStep cbs r (.irq istr ctr)) := by
  obtain ⟨hl2res, hcounter, hheld⟩ := wakeStep_irq_frame cbs r ctr hframe
  cases hset : r.power.cntr.l2res with
  | false =>
    have hzero := h.counter_eq_zero hpc hset
    rw [hset, Bool.false_and] at hl2res
    rw [hset, if_neg Bool.false_ne_true] at hheld
    refine ⟨fun _ => ?_, fun _ hbit => ?_, fun harm => absurd harm hpc, fun _ => ?_, ?_⟩
    · rw [hl2res, hcounter, hzero]; simp
    · exact Bool.noConfusion (hl2res.symm.trans hbit)
    · omega
    · rw [hheld]; exact h.bound
  | true =>
    have hpos := (h.counted hpc).mp hset
    obtain ⟨hten, hfifteen⟩ := h.span hpc hset
    rw [hset, Bool.true_and] at hl2res
    rw [hset, if_pos rfl] at hheld
    refine ⟨fun _ => ?_, fun _ _ => ?_, fun harm => absurd harm hpc, fun hadmitted => ?_, ?_⟩
    · rw [hl2res, hcounter, decide_eq_true_eq]
      omega
    · omega
    · have := h.admitted hadmitted
      omega
    · omega

theorem wakeInv_irq (h : WakeInv r) (hok : WakeOk r (.irq istr ctr)) :
    WakeInv (wakeStep cbs r (.irq istr ctr)) := by
  cases hframe : istr.countsFrame with
  | false => exact wakeInv_irq_other h hframe
  | true =>
    by_cases hpc : r.pc = .arm
    · exact wakeInv_irq_arming h hpc hframe (hok hpc hframe)
    · exact wakeInv_irq_counting h hpc hframe

theorem wakeInv_call (h : WakeInv r) : WakeInv (wakeStep cbs r .call) := by
  simp only [wakeStep, wakeCall]
  split_ifs with hrefused
  · exact h
  · have hout : r.pc = .outside := by
      by_contra hne
      exact hrefused (.inl hne)
    have harm : r.pc ≠ .arm := by simp [hout]
    exact ⟨fun _ => h.counted harm, fun _ => h.span harm, fun hpc => (by cases hpc),
      fun hpc => (by cases hpc), h.bound⟩

theorem wakeInv_advance (h : WakeInv r) (hok : WakeOk r .advance) :
    WakeInv (wakeStep cbs r .advance) := by
  rcases r with ⟨power, pc, held⟩
  cases pc with
  | outside => exact h
  | test =>
    have hcounted := h.counted WakePc.noConfusion
    have hspan := h.span WakePc.noConfusion
    by_cases hcounter : 1 < power.remoteWakeCounter
    · simp only [wakeStep, wakeAdvance, if_pos hcounter]
      exact ⟨fun _ => hcounted, fun _ => hspan, fun hpc => (by cases hpc),
        fun hpc => (by cases hpc), h.bound⟩
    · simp only [wakeStep, wakeAdvance, if_neg hcounter]
      exact ⟨fun _ => hcounted, fun _ => hspan, fun hpc => (by cases hpc),
        fun _ => Nat.le_of_not_lt hcounter, h.bound⟩
  | load =>
    exact ⟨fun _ => h.counted WakePc.noConfusion, fun _ => h.span WakePc.noConfusion,
      fun hpc => (by cases hpc), fun _ => h.admitted rfl, h.bound⟩
  | store cntr =>
    -- the bit is clear, so the countdown is over and a new hold begins
    have hclear : power.cntr.l2res = false := hok rfl
    have hzero : power.remoteWakeCounter = 0 := h.counter_eq_zero WakePc.noConfusion hclear
    simp only [wakeStep, wakeAdvance, hclear, Bool.false_eq_true, if_false]
    exact ⟨fun hne => absurd rfl hne, fun hne => absurd rfl hne,
      fun _ => ⟨rfl, hzero, Nat.zero_le 5⟩, fun hpc => (by cases hpc),
      Nat.zero_le 15⟩
  | arm =>
    obtain ⟨hset, _, hheld⟩ := h.arming rfl
    have hset : power.cntr.l2res = true := hset
    have hheld : held ≤ 5 := hheld
    simp only [wakeStep, wakeAdvance]
    refine ⟨fun _ => ?_, fun _ _ => ?_, fun hpc => (by cases hpc),
      fun hpc => (by cases hpc), h.bound⟩
    · simp [hset]
    · show 10 ≤ held + 10 ∧ held + 10 ≤ 15
      omega

/-- What one event keeps. -/
theorem wakeInv_step (r : WakeRun) (e : WakeEvent) (h : WakeInv r) (hok : WakeOk r e) :
    WakeInv (wakeStep cbs r e) := by
  cases e with
  | irq istr ctr => exact wakeInv_irq h hok
  | call => exact wakeInv_call h
  | advance => exact wakeInv_advance h hok

/-! ### Runs that do not -/

/-- The ESOF interrupts that end a hold. -/
def esofs (n : ℕ) : List WakeEvent := List.replicate n (.irq { UsbIstr.none with esof := true } [])

/-- A countdown of `n` holds the bit for `n` periods. -/
theorem held_esofs (n : ℕ) : ∀ r : WakeRun, r.power.cntr.l2res = true →
    n ≤ r.power.remoteWakeCounter → (runFrom (wakeStep cbs) r (esofs n)).held = r.held + n := by
  induction n with
  | zero => intro r _ _; rfl
  | succ n ih =>
    intro r hset hcounter
    have hframe : ({ UsbIstr.none with esof := true } : UsbIstr).countsFrame = true := rfl
    obtain ⟨hl2res, hcount, hheld⟩ := wakeStep_irq_frame cbs r [] hframe
    rw [hset, if_pos rfl] at hheld
    show (runFrom (wakeStep cbs) (wakeStep cbs r (.irq { UsbIstr.none with esof := true } []))
      (esofs n)).held = r.held + (n + 1)
    cases n with
    | zero => exact hheld
    | succ n =>
      rw [ih _ (by rw [hl2res, hset, Bool.true_and, decide_eq_true_eq]; omega) (by omega), hheld]
      omega

/-- Once an event has missed the condition, the rest of the call and its countdown hold the bit
for more than 15 periods. -/
theorem overrun_of_not_wakeOk (cbs : CdcCallbacks) {e : WakeEvent} (h : WakeInv r)
    (hok : ¬ WakeOk r e) :
    15 < (runFrom (wakeStep cbs) (wakeStep cbs r e) (.advance :: esofs 10)).held := by
  rcases r with ⟨power, pc, held⟩
  cases e with
  | call => exact absurd trivial hok
  | irq istr ctr =>
    simp only [WakeOk, Classical.not_imp, not_lt] at hok
    obtain ⟨hpc, hframe, hheld⟩ := hok
    subst hpc
    obtain ⟨hset, hzero, _⟩ := h.arming rfl
    obtain ⟨hl2res, _, hcount⟩ := wakeStep_irq_frame cbs
      { power := power, pc := .arm, held := held } ctr hframe
    rw [hset, if_pos rfl] at hcount
    have hcount : (wakeStep cbs { power := power, pc := .arm, held := held }
        (.irq istr ctr)).held = held + 1 := hcount
    have hheld : 5 ≤ held := hheld
    rw [runFrom_cons, held_esofs 10 _ ?_ (le_refl 10)]
    · show 15 < (wakeStep cbs _ (.irq istr ctr)).held + 10
      omega
    · show (wakeStep cbs _ (.irq istr ctr)).power.cntr.l2res = true
      rw [hl2res, hset, hzero]
      rfl
  | advance =>
    simp only [WakeOk, Classical.not_imp, Bool.not_eq_false] at hok
    obtain ⟨hpc, hset⟩ := hok
    obtain ⟨cntr, rfl⟩ : ∃ cntr, pc = .store cntr := by
      cases pc with
      | store cntr => exact ⟨cntr, rfl⟩
      | outside => cases hpc
      | test => cases hpc
      | load => cases hpc
      | arm => cases hpc
    have hspan := h.span WakePc.noConfusion hset
    have hcounter := h.admitted rfl
    have hlong : 9 ≤ held := by
      simp only at hspan hcounter
      omega
    rw [runFrom_cons, held_esofs 10 _ rfl (le_refl 10)]
    simp only [wakeStep, wakeAdvance, hset, if_true]
    omega

/-- In every run whose events meet the condition the resume signal is bounded; and whichever
event is the first to miss it, the run goes on to exceed the bound when the call is finished and
its countdown runs out. -/
theorem remoteWakeup_bounded (cbs : CdcCallbacks) (s : Usb) (es : List WakeEvent)
    (h : Guarded (wakeStep cbs) WakeOk (wakeStart s) es) :
    Always (wakeStep cbs) WakeRun.Bounded (wakeStart s) es ∧
      ∀ e, ¬ WakeOk (runFrom (wakeStep cbs) (wakeStart s) es) e →
        ¬ Always (wakeStep cbs) WakeRun.Bounded (wakeStart s)
          (es ++ e :: .advance :: esofs 10) := by
  have hinv := always_of_guarded wakeInv_step (wakeInv_start s) h
  refine ⟨hinv.mono fun _ h => h.bounded, fun e hok hbounded => ?_⟩
  have hlast := hbounded.last.bound
  rw [runFrom_append, runFrom_cons] at hlast
  have := overrun_of_not_wakeOk cbs hinv.last hok
  omega

/-- The bus suspends and the device calls, without an interrupt in the call. -/
def suspendAndCall : List WakeEvent :=
  [.irq { UsbIstr.none with susp := true } [], .call, .advance, .advance, .advance, .advance]

theorem remoteWakeup_bounded_once :
    Always (wakeStep noCallbacks) WakeRun.Bounded (wakeStart usbWakeEnabled)
      (suspendAndCall ++ esofs 10) :=
  (remoteWakeup_bounded noCallbacks usbWakeEnabled _ (by decide)).1

/-- A second call, nine periods into the first: L2RES stays set for 19 periods, here seen at the
16th. -/
theorem restart_exceeds_bound :
    ¬ ∀ (cbs : CdcCallbacks) (s : Usb) (es : List WakeEvent),
      Always (wakeStep cbs) WakeRun.Bounded (wakeStart s) es := by
  intro h
  have hlast := (h noCallbacks usbWakeEnabled
    (suspendAndCall ++ (esofs 9 ++ (suspendAndCall ++ esofs 7)))).last.bound
  rw [runFrom_append, runFrom_append, runFrom_append, held_esofs 7 _ rfl (by decide)] at hlast
  have hheld : (runFrom (wakeStep noCallbacks) (runFrom (wakeStep noCallbacks)
      (runFrom (wakeStep noCallbacks) (wakeStart usbWakeEnabled) suspendAndCall) (esofs 9))
        suspendAndCall).held = 9 := by decide
  omega

end PcbMill
