import PcbMill.Lib.Run
import PcbMill.Usb.Ep0Run

/-!
# Suspend and resume (`USB_UCPD1_2_IRQHandler`, `usb_systick_hal`)

The bus reports that it is suspended by SUSP, or by the lack of any SOF for 100 ticks, and that
it is in use again by WKUP, SOF or RESET.  `usb_device.suspended` is to say which of the two was
reported last: the remote wake-up drives the bus on its word.
-/

namespace PcbMill

open Run

/-- The bits of `USB_CNTR` that are changed once the peripheral runs. -/
structure UsbCntr where
  l2res : Bool
  suspen : Bool
  susprdy : Bool
  deriving DecidableEq, Repr

/-- The flags of `USB_ISTR`, but for the correct transfers. -/
structure UsbIstr where
  reset : Bool
  sof : Bool
  esof : Bool
  wkup : Bool
  susp : Bool
  deriving DecidableEq, Repr

/-- No flag is set. -/
def UsbIstr.none : UsbIstr :=
  { reset := false, sof := false, esof := false, wkup := false, susp := false }

/-- The device with what its power management adds. -/
structure UsbPower where
  usb : Usb
  cntr : UsbCntr
  remoteWakeCounter : ℕ
  usbOfflineCounter : ℕ

namespace UsbPower

def suspended (p : UsbPower) : Bool := p.usb.usbDevice.suspended

def remoteWakeup (p : UsbPower) : Bool := p.usb.usbDevice.remoteWakeup

end UsbPower

def usbDeviceSuspended (s : Usb) : Usb := s.setDevice { s.usbDevice with suspended := true }

/-- `usb_device_suspended_sof_timeout`; the callback only prints. -/
def usbDeviceSuspendedSofTimeout (s : Usb) : Usb :=
  s.setDevice { s.usbDevice with suspended := true }

/-! ### The branches of the handler -/

def usbIrqSof (p : UsbPower) : UsbPower := { p with usbOfflineCounter := 0 }

def usbIrqEsof (p : UsbPower) : UsbPower :=
  let p := if p.remoteWakeCounter = 1 then { p with cntr := { p.cntr with l2res := false } } else p
  if 0 < p.remoteWakeCounter then { p with remoteWakeCounter := p.remoteWakeCounter - 1 } else p

def usbIrqWkup (p : UsbPower) : UsbPower :=
  { p with cntr := { p.cntr with susprdy := false, suspen := false } }

def usbIrqSusp (p : UsbPower) : UsbPower :=
  let p := { p with cntr := { p.cntr with suspen := true } }
  let p := { p with cntr := { p.cntr with susprdy := true } }
  { p with usb := usbDeviceSuspended p.usb }

/-- `USB_UCPD1_2_IRQHandler`: `istr` is the value read at its start, `ctr` the endpoints of the
correct transfers it finds. -/
def usbIrqHandler (cbs : CdcCallbacks) (p : UsbPower) (istr : UsbIstr) (ctr : List ℕ) :
    UsbPower :=
  if istr.reset then { p with usb := usbReset p.usb }
  else
    let p := { p with usb := ctr.foldl (usbIrqCtr cbs) p.usb }
    let p := if istr.sof then usbIrqSof p else p
    let p := if istr.esof then usbIrqEsof p else p
    let p := if istr.wkup then usbIrqWkup p else p
    if istr.susp then usbIrqSusp p else p

def usbSystickHal (p : UsbPower) : UsbPower :=
  -- only one timeout
  if 100 ≤ p.usbOfflineCounter then p
  else
    let p := { p with usbOfflineCounter := p.usbOfflineCounter + 1 }
    if 100 ≤ p.usbOfflineCounter then { p with usb := usbDeviceSuspendedSofTimeout p.usb } else p

def usbRemoteWakeupStartHal (p : UsbPower) : Bool × UsbPower :=
  if 1 < p.remoteWakeCounter then (false, p)
  else
    let p := { p with cntr := { p.cntr with l2res := true } }
    (true, { p with remoteWakeCounter := 10 })

def usbRemoteWakeupStart (p : UsbPower) : Bool × UsbPower :=
  if !p.suspended || !p.remoteWakeup then (false, p) else usbRemoteWakeupStartHal p

/-! ### What the branches do -/

variable {cbs : CdcCallbacks} {p : UsbPower} {istr : UsbIstr}

theorem usbIrqEsof_usb (p : UsbPower) :
    (usbIrqEsof p).usb = p.usb ∧ (usbIrqEsof p).usbOfflineCounter = p.usbOfflineCounter := by
  simp only [usbIrqEsof]
  split_ifs <;> exact ⟨rfl, rfl⟩

/-- A reset clears the flag with the rest of `usb_device`. -/
theorem usbIrqHandler_reset_suspended (cbs : CdcCallbacks) (p : UsbPower)
    (h : istr.reset = true) (ctr : List ℕ) :
    (usbIrqHandler cbs p istr ctr).suspended = false ∧
      (usbIrqHandler cbs p istr ctr).usbOfflineCounter = p.usbOfflineCounter := by
  rw [usbIrqHandler, if_pos h]
  exact ⟨rfl, rfl⟩

/-- Without a reset the flag is set by SUSP alone and cleared by nothing. -/
theorem usbIrqHandler_suspended (cbs : CdcCallbacks) (p : UsbPower) (h : istr.reset = false) :
    (usbIrqHandler cbs p istr []).suspended = (istr.susp || p.suspended) ∧
      (usbIrqHandler cbs p istr []).usbOfflineCounter =
        if istr.sof then 0 else p.usbOfflineCounter := by
  rcases istr with ⟨reset, sof, esof, wkup, susp⟩
  cases h
  have hesof : ∀ q : UsbPower, (if esof then usbIrqEsof q else q).usb = q.usb ∧
      (if esof then usbIrqEsof q else q).usbOfflineCounter = q.usbOfflineCounter := by
    intro q
    cases esof with
    | false => exact ⟨rfl, rfl⟩
    | true => exact usbIrqEsof_usb q
  have hwkup : ∀ q : UsbPower, (if wkup then usbIrqWkup q else q).usb = q.usb ∧
      (if wkup then usbIrqWkup q else q).usbOfflineCounter = q.usbOfflineCounter := by
    intro q
    cases wkup with
    | false => exact ⟨rfl, rfl⟩
    | true => exact ⟨rfl, rfl⟩
  simp only [usbIrqHandler, Bool.false_eq_true, if_false, List.foldl_nil]
  cases susp with
  | false =>
    simp only [Bool.false_eq_true, if_false, UsbPower.suspended, hwkup, hesof, Bool.false_or]
    cases sof with
    | false => exact ⟨rfl, rfl⟩
    | true => exact ⟨rfl, rfl⟩
  | true =>
    simp only [if_true, UsbPower.suspended, usbIrqSusp, usbDeviceSuspended, Usb.setDevice, hwkup,
      hesof, Bool.true_or]
    cases sof with
    | false => exact ⟨trivial, rfl⟩
    | true => exact ⟨trivial, rfl⟩

/-- The hundredth tick sets the flag, no other tick touches it. -/
theorem usbSystickHal_suspended (p : UsbPower) :
    (usbSystickHal p).suspended = (p.suspended || decide (p.usbOfflineCounter = 99)) ∧
      (usbSystickHal p).usbOfflineCounter = if 100 ≤ p.usbOfflineCounter
        then p.usbOfflineCounter else p.usbOfflineCounter + 1 := by
  by_cases hpast : 100 ≤ p.usbOfflineCounter
  · have hne : p.usbOfflineCounter ≠ 99 := by omega
    rw [usbSystickHal, if_pos hpast, if_pos hpast, decide_eq_false hne, Bool.or_false]
    exact ⟨rfl, rfl⟩
  · rw [if_neg hpast]
    by_cases hlast : p.usbOfflineCounter = 99
    · have hreached : 100 ≤ p.usbOfflineCounter + 1 := by omega
      rw [usbSystickHal, if_neg hpast, if_pos hreached, decide_eq_true hlast, Bool.or_true]
      exact ⟨rfl, rfl⟩
    · have hshort : ¬ 100 ≤ p.usbOfflineCounter + 1 := by omega
      rw [usbSystickHal, if_neg hpast, if_neg hshort, decide_eq_false hlast, Bool.or_false]
      exact ⟨rfl, rfl⟩

/-- A call drives the bus only while the flag is set, and leaves the flag. -/
theorem usbRemoteWakeupStart_suspended (p : UsbPower) :
    (usbRemoteWakeupStart p).2.suspended = p.suspended ∧
      (usbRemoteWakeupStart p).2.usbOfflineCounter = p.usbOfflineCounter ∧
      ((usbRemoteWakeupStart p).1 = true → p.suspended = true) := by
  simp only [usbRemoteWakeupStart, usbRemoteWakeupStartHal]
  split_ifs with hdevice hcounter
  · exact ⟨rfl, rfl, fun h => by cases h⟩
  · exact ⟨rfl, rfl, fun h => by cases h⟩
  · refine ⟨rfl, rfl, fun _ => ?_⟩
    simp only [Bool.or_eq_true, Bool.not_eq_true', not_or, Bool.not_eq_false] at hdevice
    exact hdevice.1

/-! ### Runs -/

inductive SuspensionEvent where
  | irq (istr : UsbIstr)
  | systick
  | remoteWakeup

structure SuspensionRun where
  power : UsbPower
  /-- Of the suspend, timeout, wake-up, start-of-frame and reset events, the latest was one of
  the first two. -/
  busSuspended : Bool
  /-- The ticks since the latest start of frame. -/
  quietTicks : ℕ
  /-- A call has driven resume on a bus that was not suspended. -/
  strayResume : Bool

/-- What an interrupt says about the bus, its flags taken in the order of the handler. -/
def busSuspendedAfter (busSuspended : Bool) (istr : UsbIstr) : Bool :=
  if istr.reset then false
  else if istr.susp then true
  else if istr.sof || istr.wkup then false
  else busSuspended

def suspensionStep (cbs : CdcCallbacks) (r : SuspensionRun) : SuspensionEvent → SuspensionRun
  | .irq istr =>
    { r with
      power := usbIrqHandler cbs r.power istr []
      busSuspended := busSuspendedAfter r.busSuspended istr
      -- a start of frame reported along with a reset stays pending
      quietTicks := if !istr.reset && istr.sof then 0 else r.quietTicks }
  | .systick =>
    { r with
      power := usbSystickHal r.power
      busSuspended := r.busSuspended || decide (r.quietTicks + 1 = 100)
      quietTicks := r.quietTicks + 1 }
  | .remoteWakeup =>
    { r with
      power := (usbRemoteWakeupStart r.power).2
      strayResume := r.strayResume || ((usbRemoteWakeupStart r.power).1 && !r.busSuspended) }

/-- The peripheral as `usb_device_start_hal` leaves it, with the device in any state. -/
def usbPowerStart (s : Usb) : UsbPower :=
  { usb := s, cntr := { l2res := false, suspen := false, susprdy := false }
    remoteWakeCounter := 0, usbOfflineCounter := 0 }

def suspensionStart (s : Usb) : SuspensionRun :=
  { power := usbPowerStart s, busSuspended := false, quietTicks := 0, strayResume := false }

/-- The flag is set exactly while the bus is suspended, and no call has driven resume at another
time. -/
structure SuspensionRun.Truthful (r : SuspensionRun) : Prop where
  flag : r.power.suspended = true ↔ r.busSuspended = true
  resume : r.strayResume = false

/-- The condition on an interrupt: SOF and WKUP are reported only while the bus is not
suspended, unless a reset or a suspend comes with them. -/
def ResumeOk (r : SuspensionRun) : SuspensionEvent → Prop
  | .irq istr => istr.reset = false → istr.susp = false → (istr.sof || istr.wkup) = true →
      r.busSuspended = false
  | _ => True

/-- The invariant of the runs that meet the condition. -/
structure Tracked (r : SuspensionRun) : Prop where
  flag : r.power.suspended = r.busSuspended
  offline : r.power.usbOfflineCounter = min r.quietTicks 100
  resume : r.strayResume = false

variable {r : SuspensionRun}

theorem Tracked.truthful (h : Tracked r) : r.Truthful :=
  ⟨by rw [h.flag], h.resume⟩

theorem tracked_start {s : Usb} (h : s.usbDevice.suspended = false) :
    Tracked (suspensionStart s) :=
  ⟨h, rfl, rfl⟩

theorem tracked_irq (h : Tracked r) (hok : ResumeOk r (.irq istr)) :
    Tracked (suspensionStep cbs r (.irq istr)) := by
  cases hreset : istr.reset with
  | true =>
    obtain ⟨hflag, hoffline⟩ := usbIrqHandler_reset_suspended cbs r.power hreset []
    refine ⟨?_, ?_, h.resume⟩
    · simp only [suspensionStep, hflag, busSuspendedAfter, hreset, if_true]
    · simp only [suspensionStep, hoffline, hreset, Bool.not_true, Bool.false_and,
        Bool.false_eq_true, if_false, h.offline]
  | false =>
    obtain ⟨hflag, hoffline⟩ := usbIrqHandler_suspended cbs r.power hreset
    refine ⟨?_, ?_, h.resume⟩
    · simp only [suspensionStep, hflag, busSuspendedAfter, hreset, Bool.false_eq_true, if_false]
      cases hsusp : istr.susp with
      | true => simp
      | false =>
        by_cases hback : (istr.sof || istr.wkup) = true
        · rw [if_pos hback, h.flag, hok hreset hsusp hback]
          simp
        · rw [if_neg hback, h.flag]
          simp
    · simp only [suspensionStep, hoffline, hreset, Bool.not_false, Bool.true_and, h.offline]
      split_ifs <;> simp

theorem tracked_systick (h : Tracked r) : Tracked (suspensionStep cbs r .systick) := by
  obtain ⟨hflag, hoffline⟩ := usbSystickHal_suspended r.power
  have hlast : r.power.usbOfflineCounter = 99 ↔ r.quietTicks + 1 = 100 := by
    rw [h.offline]
    omega
  refine ⟨?_, ?_, h.resume⟩
  · simp only [suspensionStep, hflag, h.flag, hlast]
  · simp only [suspensionStep, hoffline, h.offline]
    split_ifs <;> omega

theorem tracked_remoteWakeup (h : Tracked r) :
    Tracked (suspensionStep cbs r .remoteWakeup) := by
  obtain ⟨hflag, hoffline, hdriven⟩ := usbRemoteWakeupStart_suspended r.power
  refine ⟨?_, ?_, ?_⟩
  · simp only [suspensionStep, hflag, h.flag]
  · simp only [suspensionStep, hoffline, h.offline]
  · simp only [suspensionStep, h.resume, Bool.false_or, Bool.and_eq_false_iff,
      Bool.not_eq_false']
    cases hresult : (usbRemoteWakeupStart r.power).1 with
    | false => exact .inl rfl
    | true => exact .inr (h.flag ▸ hdriven hresult)

/-- What one event keeps. -/
theorem tracked_step (r : SuspensionRun) (e : SuspensionEvent) (h : Tracked r)
    (hok : ResumeOk r e) : Tracked (suspensionStep cbs r e) := by
  cases e with
  | irq istr => exact tracked_irq h hok
  | systick => exact tracked_systick h
  | remoteWakeup => exact tracked_remoteWakeup h

/-- The flag outlives the suspension when the bus resumes. -/
theorem not_truthful_of_not_resumeOk (r : SuspensionRun) (e : SuspensionEvent) (h : Tracked r)
    (hok : ¬ ResumeOk r e) : ¬ (suspensionStep cbs r e).Truthful := by
  cases e with
  | systick => exact absurd trivial hok
  | remoteWakeup => exact absurd trivial hok
  | irq istr =>
    simp only [ResumeOk, Classical.not_imp, Bool.not_eq_false] at hok
    obtain ⟨hreset, hsusp, hback, hbus⟩ := hok
    intro htrue
    have hflag := (usbIrqHandler_suspended cbs r.power hreset).1
    have hset : (suspensionStep cbs r (.irq istr)).power.suspended = true := by
      rw [suspensionStep, hflag, hsusp, h.flag, hbus, Bool.or_true]
    have hclear : (suspensionStep cbs r (.irq istr)).busSuspended = false := by
      simp [suspensionStep, busSuspendedAfter, hreset, hsusp, hback]
    exact Bool.noConfusion (hclear.symm.trans (htrue.flag.mp hset))

/-- In every run from a device that is not suspended, the flag tells the truth exactly when SOF
and WKUP never end a suspension.  The handler runs to its end, and a call of the main program is not
interrupted, so that the flag is compared with the bus behind each of them. -/
theorem suspended_truthful_iff (cbs : CdcCallbacks) {s : Usb}
    (h : s.usbDevice.suspended = false) (es : List SuspensionEvent) :
    Always (suspensionStep cbs) SuspensionRun.Truthful (suspensionStart s) es ↔
      Guarded (suspensionStep cbs) ResumeOk (suspensionStart s) es :=
  always_iff_guarded (fun _ h => h.truthful) tracked_step not_truthful_of_not_resumeOk
    (tracked_start h)

/-- A device the host has allowed to wake it. -/
def usbWakeEnabled : Usb := usbPowerOn.setDevice { usbPowerOn.usbDevice with remoteWakeup := true }

/-- Such a device, suspended and resumed by the host: the flag stays
set, and the device drives resume on a bus in use. -/
theorem flag_outlives_suspension :
    ¬ ∀ (cbs : CdcCallbacks) (s : Usb) (es : List SuspensionEvent),
      s.usbDevice.suspended = false →
        Always (suspensionStep cbs) SuspensionRun.Truthful (suspensionStart s) es := by
  intro h
  have hlast := (h noCallbacks usbWakeEnabled [.irq { UsbIstr.none with susp := true },
    .irq { UsbIstr.none with wkup := true }, .remoteWakeup] rfl).last
  have hstray : (runFrom (suspensionStep noCallbacks) (suspensionStart usbWakeEnabled)
      [.irq { UsbIstr.none with susp := true }, .irq { UsbIstr.none with wkup := true },
        .remoteWakeup]).strayResume = true := by decide
  exact Bool.noConfusion (hstray.symm.trans hlast.resume)

/-- A suspension that a reset ends. -/
theorem suspended_truthful_iff_reset :
    Always (suspensionStep noCallbacks) SuspensionRun.Truthful (suspensionStart usbPowerOn)
      [.irq { UsbIstr.none with susp := true }, .irq { UsbIstr.none with reset := true }] :=
  (suspended_truthful_iff noCallbacks rfl _).mpr
    ⟨fun _ h => Bool.noConfusion h, fun h => Bool.noConfusion h, trivial⟩

end PcbMill
