import PcbMill.Lib.Reading
import PcbMill.Usb.FailedConfiguration

/-!
# What the walk over the configuration descriptor reads

The walk again, with the bytes it reads.  The end of the table is compared with the start of an
interface only, so whether the walk stays inside is decided by the descriptors it comes to; and
it ends unless it comes to a class-specific descriptor of length 0.
-/

namespace PcbMill

open FixedWidth Reading

section Walk

variable {σ : Type*} (drv : ConfigDriver σ) (m : DescriptorMemory)

/-! ### The walk with its reads -/

/-- The bytes `usb_ep_open_hal` reads of an endpoint descriptor. -/
def epOpenReads (d : ℕ) : List ℕ := [d + 2, d + 3, d + 4, d + 5]

/-- The device with the address of an opened endpoint of a pair. -/
def setEpAddr (s : σ) (d : ℕ) : σ :=
  if usbEpDirIdx (m.bEndpointAddress d) = usbDirDeviceOutHostInIdx
  then drv.setEpAddrIn s (m.bEndpointAddress d)
  else drv.setEpAddrOut s (m.bEndpointAddress d)

def readEpOpenInOutPairLoop (transferType : ℕ) : ℕ → σ → ℕ → Reading (Bool × σ)
  | 0, s, _ => pure (true, s)
  | k + 1, s, d => after [d + 1] <|
    if m.bDescriptorType d ≠ usbDescriptorTypeEndpoint then pure (false, s)
    else after [d + 3] <|
      if m.epType d ≠ transferType then pure (false, s)
      else after (epOpenReads d) <|
        if (drv.epOpenHal s d).1 then
          after [d + 2, d] <|
            readEpOpenInOutPairLoop transferType k (setEpAddr drv m (drv.epOpenHal s d).2 d)
              (m.next d)
        else pure (false, (drv.epOpenHal s d).2)

def readCdcOpenFunctional (descriptorEnd : ℕ) : ℕ → ℕ → ℕ → Reading (ℕ × ℕ)
  | 0, _, _ => running
  | fuel + 1, d, descriptorLen => after [d + 1] <|
    if m.bDescriptorType d = usbDescriptorTypeCsInterface ∧ descriptorLen ≤ descriptorEnd then
      after [d, d] <|
        readCdcOpenFunctional descriptorEnd fuel (m.next d) (add16 descriptorLen (m.bLength d))
    else pure (d, descriptorLen)

def readCdcOpenNotification (s : σ) (d descriptorLen : ℕ) : Reading (Bool × σ × ℕ × ℕ) :=
  after [d + 1] <|
    if m.bDescriptorType d = usbDescriptorTypeEndpoint then
      after (epOpenReads d) <|
        if (drv.epOpenHal s d).1 then
          after [d, d] <|
            pure (true, (drv.epOpenHal s d).2, m.next d, add16 descriptorLen (m.bLength d))
        else pure (false, (drv.epOpenHal s d).2, d, descriptorLen)
    else pure (true, s, d, descriptorLen)

def readCdcOpenData (s : σ) (d descriptorLen : ℕ) : Reading (Bool × σ × ℕ) :=
  after [d + 1] <|
    if m.bDescriptorType d = usbDescriptorTypeInterface then
      after [d + 5] <|
        if m.bInterfaceClass d = usbClassCdcData then
          after [d, d] <|
            (readEpOpenInOutPairLoop drv m usbEpTypeBulk 2 s (m.next d)).bind fun p =>
              if p.1 then pure (true, p.2, add16 (add16 descriptorLen (m.bLength d)) (2 * 7))
              else pure (false, p.2, add16 descriptorLen (m.bLength d))
        else pure (true, s, descriptorLen)
    else pure (true, s, descriptorLen)

def readCdcOpenRest (n : Bool × σ × ℕ × ℕ) : Reading (ℕ × σ) :=
  if n.1 then
    (readCdcOpenData drv m n.2.1 n.2.2.1 n.2.2.2).bind fun p =>
      if p.1 then pure (p.2.2, drv.cdcReadEp p.2.1) else pure (0, p.2.1)
  else pure (0, n.2.1)

def readCdcOpen (fuel : ℕ) (s : σ) (d descriptorEnd : ℕ) : Reading (ℕ × σ) :=
  after [d + 5, d + 6] <|
    if AcmInterface m d then
      after [d] <|
        (readCdcOpenFunctional m descriptorEnd fuel (m.next d) 9).bind fun p =>
          (readCdcOpenNotification drv m (drv.visit s d) p.1 p.2).bind (readCdcOpenRest drv m)
    else pure (0, drv.visit s d)

/-- The messages printed for an interface read its class and its subclass, whatever they are. -/
def readConfigurationLoop (descriptorEnd : ℕ) : ℕ → σ → ℕ → Reading (Bool × σ)
  | 0, _, _ => running
  | fuel + 1, s, d =>
    if descriptorEnd ≤ d then pure (true, s)
    else after [d + 1] <|
      after (if m.bDescriptorType d = usbDescriptorTypeInterfaceAssociation then [d] else []) <|
        after [skipAssociation m d + 1] <|
          if m.bDescriptorType (skipAssociation m d) = usbDescriptorTypeInterface then
            after [skipAssociation m d + 5, skipAssociation m d + 6] <|
              if AcmInterface m (skipAssociation m d) then
                (readCdcOpen drv m fuel s (skipAssociation m d)
                  (sub16 descriptorEnd (skipAssociation m d))).bind fun p =>
                    if p.1 = 0 then pure (false, p.2)
                    else readConfigurationLoop descriptorEnd fuel p.2
                      (skipAssociation m d + 2 * p.1)
              else pure (false, s)
          else pure (false, s)

def readConfiguration (fuel : ℕ) (s : σ) : Reading (Bool × σ) :=
  after [1] <|
    if m.bDescriptorType 0 = usbDescriptorTypeConfiguration then
      after [7, 7, 0, 2, 3] <|
        readConfigurationLoop drv m (m.wTotalLength 0) fuel (drv.setPower s (m.bmAttributes 0))
          (m.next 0)
    else pure (false, s)

/-! ### It is the same walk -/

variable {drv m}

theorem value_readEpOpenInOutPairLoop (transferType : ℕ) :
    ∀ {k : ℕ} {s : σ} {d : ℕ}, (readEpOpenInOutPairLoop drv m transferType k s d).value =
      some (usbEpOpenInOutPairLoop drv m transferType k s d) := by
  intro k
  induction k with
  | zero => exact rfl
  | succ k ih =>
    intro s d
    rw [readEpOpenInOutPairLoop, usbEpOpenInOutPairLoop, value_after]
    by_cases htype : m.bDescriptorType d = usbDescriptorTypeEndpoint
    · rw [if_neg (not_not.mpr htype), value_after]
      by_cases hep : m.epType d = transferType
      · have hboth : ¬(m.bDescriptorType d ≠ usbDescriptorTypeEndpoint ∨
            m.epType d ≠ transferType) := fun h => h.elim (fun h' => h' htype) fun h' => h' hep
        rw [if_neg (not_not.mpr hep), value_after, if_neg hboth]
        cases hopen : drv.epOpenHal s d with
        | mk ok s' =>
          cases ok with
          | false => rfl
          | true => exact ih
      · rw [if_pos hep, if_pos (.inr hep)]
        rfl
    · rw [if_pos htype, if_pos (.inl htype)]
      rfl

theorem value_readCdcOpenFunctional {descriptorEnd : ℕ} :
    ∀ {fuel d len : ℕ}, (readCdcOpenFunctional m descriptorEnd fuel d len).value =
      usbCdcOpenFunctional m descriptorEnd fuel d len := by
  intro fuel
  induction fuel with
  | zero => exact rfl
  | succ fuel ih =>
    intro d len
    rw [readCdcOpenFunctional, usbCdcOpenFunctional, value_after]
    split
    · exact ih
    · rfl

theorem value_readCdcOpenNotification {s : σ} {d len : ℕ} :
    (readCdcOpenNotification drv m s d len).value =
      some (usbCdcOpenNotification drv m s d len) := by
  rw [readCdcOpenNotification, usbCdcOpenNotification, value_after]
  split
  · rw [value_after]
    cases hopen : drv.epOpenHal s d with
    | mk ok s' =>
      cases ok with
      | false => rfl
      | true => rfl
  · rfl

theorem value_readCdcOpenData {s : σ} {d len : ℕ} :
    (readCdcOpenData drv m s d len).value = some (usbCdcOpenData drv m s d len) := by
  rw [readCdcOpenData, usbCdcOpenData, value_after]
  by_cases htype : m.bDescriptorType d = usbDescriptorTypeInterface
  · rw [if_pos htype, value_after]
    by_cases hclass : m.bInterfaceClass d = usbClassCdcData
    · rw [if_pos hclass, if_pos ⟨htype, hclass⟩, value_after, value_bind,
        value_readEpOpenInOutPairLoop, Option.bind_some]
      rw [usbEpOpenInOutPair]
      cases usbEpOpenInOutPairLoop drv m usbEpTypeBulk 2 s (m.next d) with
      | mk ok s' =>
        cases ok with
        | false => rfl
        | true => rfl
    · rw [if_neg hclass, if_neg (fun h => hclass h.2)]
      rfl
  · rw [if_neg htype, if_neg (fun h => htype h.1)]
    rfl

theorem value_readCdcOpenRest {n : Bool × σ × ℕ × ℕ} :
    (readCdcOpenRest drv m n).value = some (usbCdcOpenRest drv m n) := by
  simp only [readCdcOpenRest, usbCdcOpenRest]
  split
  · rw [value_bind, value_readCdcOpenData, Option.bind_some]
    split
    · rfl
    · rfl
  · rfl

theorem value_readCdcOpen {fuel : ℕ} {s : σ} {d descriptorEnd : ℕ} :
    (readCdcOpen drv m fuel s d descriptorEnd).value =
      usbCdcOpen drv m fuel s d descriptorEnd := by
  rw [readCdcOpen, usbCdcOpen_eq, value_after]
  split
  · rw [value_after, value_bind, value_readCdcOpenFunctional]
    cases usbCdcOpenFunctional m descriptorEnd fuel (m.next d) 9 with
    | none => rfl
    | some p =>
      rw [Option.bind_some, value_bind, value_readCdcOpenNotification, Option.bind_some,
        value_readCdcOpenRest]
      rfl
  · rfl

theorem value_readConfigurationLoop {descriptorEnd : ℕ} :
    ∀ {fuel : ℕ} {s : σ} {d : ℕ}, (readConfigurationLoop drv m descriptorEnd fuel s d).value =
      usbResetConfigurationLoop drv m descriptorEnd fuel s d := by
  intro fuel
  induction fuel with
  | zero => exact rfl
  | succ fuel ih =>
    intro s d
    rw [readConfigurationLoop, usbResetConfigurationLoop_eq]
    by_cases hend : descriptorEnd ≤ d
    · rw [if_pos hend, if_pos hend, value_pure]
    · rw [if_neg hend, if_neg hend, value_after, value_after, value_after]
      by_cases htype : m.bDescriptorType (skipAssociation m d) = usbDescriptorTypeInterface
      · rw [if_pos htype, value_after]
        by_cases hacm : AcmInterface m (skipAssociation m d)
        · rw [if_pos hacm, if_pos ⟨htype, hacm⟩, value_bind, value_readCdcOpen]
          congr 1
          funext p
          split
          · rfl
          · exact ih
        · rw [if_neg hacm, if_neg (fun h => hacm h.2), value_pure]
      · rw [if_neg htype, if_neg (fun h => htype h.1), value_pure]

/-- **The walk with its reads is the walk.** -/
theorem value_readConfiguration {fuel : ℕ} {s : σ} :
    (readConfiguration drv m fuel s).value = usbResetConfiguration drv m fuel s := by
  rw [readConfiguration, usbResetConfiguration, value_after]
  by_cases htype : m.bDescriptorType 0 = usbDescriptorTypeConfiguration
  · rw [if_pos htype, if_neg (not_not.mpr htype), value_after, value_readConfigurationLoop]
  · rw [if_neg htype, if_pos htype, value_pure]

/-! ### More steps change nothing -/

theorem settled_readCdcOpenFunctional {descriptorEnd : ℕ} :
    ∀ {k d len : ℕ}, Settled (readCdcOpenFunctional m descriptorEnd k d len)
      (readCdcOpenFunctional m descriptorEnd (k + 1) d len) := by
  intro k
  induction k with
  | zero => exact settled_running _
  | succ k ih =>
    intro d len
    rw [readCdcOpenFunctional, readCdcOpenFunctional]
    refine Settled.after ?_ _
    split
    · exact ih.after _
    · exact Settled.refl _

theorem settled_readCdcOpen {k : ℕ} {s : σ} {d descriptorEnd : ℕ} :
    Settled (readCdcOpen drv m k s d descriptorEnd) (readCdcOpen drv m (k + 1) s d descriptorEnd) := by
  simp only [readCdcOpen]
  refine Settled.after ?_ _
  split
  · exact (settled_readCdcOpenFunctional.bind fun _ => Settled.refl _).after _
  · exact Settled.refl _

theorem settled_readCdcOpen_le {k l : ℕ} (hkl : k ≤ l) {s : σ} {d descriptorEnd : ℕ} :
    Settled (readCdcOpen drv m k s d descriptorEnd) (readCdcOpen drv m l s d descriptorEnd) :=
  settled_le (x := fun k => readCdcOpen drv m k s d descriptorEnd) (fun _ => settled_readCdcOpen) hkl

theorem settled_readConfigurationLoop {descriptorEnd : ℕ} :
    ∀ {k : ℕ} {s : σ} {d : ℕ}, Settled (readConfigurationLoop drv m descriptorEnd k s d)
      (readConfigurationLoop drv m descriptorEnd (k + 1) s d) := by
  intro k
  induction k with
  | zero => exact settled_running _
  | succ k ih =>
    intro s d
    rw [readConfigurationLoop, readConfigurationLoop]
    split
    · exact Settled.refl _
    · refine Settled.after (Settled.after (Settled.after ?_ _) _) _
      split
      · refine Settled.after ?_ _
        split
        · refine settled_readCdcOpen.bind fun p => ?_
          split
          · exact Settled.refl _
          · exact ih
        · exact Settled.refl _
      · exact Settled.refl _

theorem settled_readConfigurationLoop_le {k l : ℕ} (hkl : k ≤ l) {s : σ} {d descriptorEnd : ℕ} :
    Settled (readConfigurationLoop drv m descriptorEnd k s d)
      (readConfigurationLoop drv m descriptorEnd l s d) :=
  settled_le (x := fun k => readConfigurationLoop drv m descriptorEnd k s d)
    (fun _ => settled_readConfigurationLoop) hkl

/-! ### The tables the walk stays inside of -/

section Fits

variable (drv m) (n : ℕ)

/-- The descriptors from `d` on, taken as `k` bulk endpoints: two bytes of each descriptor looked
at, four if it is an endpoint, six if it is opened. -/
def PairFits : ℕ → σ → ℕ → Prop
  | 0, _, _ => True
  | k + 1, s, d => d + 1 < n ∧ (m.bDescriptorType d = usbDescriptorTypeEndpoint →
      d + 3 < n ∧ (m.epType d = usbEpTypeBulk →
        d + 5 < n ∧ ((drv.epOpenHal s d).1 = true →
          PairFits k (setEpAddr drv m (drv.epOpenHal s d).2 d) (m.next d))))

/-- The class-specific descriptors from `d` on: there is an end to them, none has length 0, and
the two bytes looked at of each, and of the descriptor after them, are inside. -/
inductive FunctionalFits (remaining : ℕ) : ℕ → ℕ → ℕ → ℕ → Prop where
  | stop {d len : ℕ} (hd : d + 1 < n)
      (h : ¬(m.bDescriptorType d = usbDescriptorTypeCsInterface ∧ len ≤ remaining)) :
      FunctionalFits remaining d len d len
  | next {d len d' len' : ℕ} (hd : d + 1 < n)
      (h : m.bDescriptorType d = usbDescriptorTypeCsInterface ∧ len ≤ remaining)
      (hlength : m.bLength d ≠ 0)
      (rest : FunctionalFits remaining (m.next d) (add16 len (m.bLength d)) d' len') :
      FunctionalFits remaining d len d' len'

/-- The descriptor that may be the notification endpoint. -/
def NotificationFits (d : ℕ) : Prop :=
  d + 1 < n ∧ (m.bDescriptorType d = usbDescriptorTypeEndpoint → d + 5 < n)

/-- The descriptor that may be the data interface, and its endpoints. -/
def DataFits (s : σ) (d : ℕ) : Prop :=
  d + 1 < n ∧ (m.bDescriptorType d = usbDescriptorTypeInterface →
    d + 5 < n ∧ (m.bInterfaceClass d = usbClassCdcData → PairFits drv m n 2 s (m.next d)))

/-- The function whose control interface is at `d`, behind that interface. -/
def FunctionFits (s : σ) (d : ℕ) : Prop :=
  ∃ d' len', FunctionalFits m n (sub16 n d) (m.next d) 9 d' len' ∧ NotificationFits m n d' ∧
    let p := usbCdcOpenNotification drv m (drv.visit s d) d' len'
    p.1 = true → DataFits drv m n p.2.1 p.2.2.1

/-- The functions from `d` on, each with an interface of which seven bytes are inside. -/
inductive FunctionsFit : σ → ℕ → Prop where
  | done {s : σ} {d : ℕ} (h : n ≤ d) : FunctionsFit s d
  | other {s : σ} {d : ℕ} (h : d + 1 < n) (hskip : skipAssociation m d + 1 < n)
      (hother : m.bDescriptorType (skipAssociation m d) ≠ usbDescriptorTypeInterface) :
      FunctionsFit s d
  | unknown {s : σ} {d : ℕ} (h : d + 1 < n) (hskip : skipAssociation m d + 6 < n)
      (hunknown : ¬AcmInterface m (skipAssociation m d)) : FunctionsFit s d
  | function {s : σ} {d : ℕ} (h : d + 1 < n) (hskip : skipAssociation m d + 6 < n)
      (hinterface : m.bDescriptorType (skipAssociation m d) = usbDescriptorTypeInterface)
      (hacm : AcmInterface m (skipAssociation m d))
      (hfits : FunctionFits drv m n s (skipAssociation m d))
      (rest : ∀ fuel len s', usbCdcOpen drv m fuel s (skipAssociation m d)
        (sub16 n (skipAssociation m d)) = some (len, s') → len ≠ 0 →
          FunctionsFit s' (skipAssociation m d + 2 * len)) :
      FunctionsFit s d

/-- The table: its header, if it has one, and its functions. -/
def TableFits (s : σ) : Prop :=
  1 < m.wTotalLength 0 ∧ (m.bDescriptorType 0 = usbDescriptorTypeConfiguration →
    7 < m.wTotalLength 0 ∧
      FunctionsFit drv m (m.wTotalLength 0) (drv.setPower s (m.bmAttributes 0)) (m.next 0))

end Fits

/-! ### They are exactly those -/

variable {n : ℕ}

theorem within_epOpenReads {d : ℕ} : (∀ i ∈ epOpenReads d, i < n) ↔ d + 5 < n := by
  constructor
  · exact fun h => h (d + 5) (by simp [epOpenReads])
  · intro h i hi
    simp only [epOpenReads, List.mem_cons, List.not_mem_nil, or_false] at hi
    omega

theorem within_readEpOpenInOutPairLoop :
    ∀ {k : ℕ} {s : σ} {d : ℕ},
      (readEpOpenInOutPairLoop drv m usbEpTypeBulk k s d).Within n ↔ PairFits drv m n k s d := by
  intro k
  induction k with
  | zero => simp [readEpOpenInOutPairLoop, PairFits]
  | succ k ih =>
    intro s d
    rw [readEpOpenInOutPairLoop, PairFits, within_after]
    refine and_congr (by simp) ?_
    by_cases htype : m.bDescriptorType d = usbDescriptorTypeEndpoint
    · rw [if_neg (not_not.mpr htype), within_after]
      simp only [htype, true_implies]
      refine and_congr (by simp) ?_
      by_cases hep : m.epType d = usbEpTypeBulk
      · rw [if_neg (not_not.mpr hep), within_after, within_epOpenReads]
        simp only [hep, true_implies]
        refine and_congr_right fun h5 => ?_
        by_cases hopen : (drv.epOpenHal s d).1 = true
        · have hlength : ∀ i ∈ [d + 2, d], i < n := by
            intro i hi
            simp only [List.mem_cons, List.not_mem_nil, or_false] at hi
            omega
          rw [if_pos hopen, within_after, ih]
          exact ⟨fun h _ => h.2, fun h => ⟨hlength, h hopen⟩⟩
        · simp [hopen]
      · simp [hep]
    · simp [htype]

theorem within_readCdcOpenNotification {s : σ} {d len : ℕ} :
    (readCdcOpenNotification drv m s d len).Within n ↔ NotificationFits m n d := by
  rw [readCdcOpenNotification, NotificationFits, within_after]
  refine and_congr (by simp) ?_
  by_cases htype : m.bDescriptorType d = usbDescriptorTypeEndpoint
  · rw [if_pos htype, within_after, within_epOpenReads]
    simp only [htype, true_implies]
    refine and_iff_left_of_imp fun h5 => ?_
    split
    · have hlength : d < n := by omega
      simp [hlength]
    · exact within_pure _
  · simp [htype]

theorem within_readCdcOpenData {s : σ} {d len : ℕ} :
    (readCdcOpenData drv m s d len).Within n ↔ DataFits drv m n s d := by
  rw [readCdcOpenData, DataFits, within_after]
  refine and_congr (by simp) ?_
  by_cases htype : m.bDescriptorType d = usbDescriptorTypeInterface
  · rw [if_pos htype, within_after]
    simp only [htype, true_implies]
    have hfive : (∀ i ∈ [d + 5], i < n) ↔ d + 5 < n := by simp
    rw [hfive]
    refine and_congr_right fun h5 => ?_
    by_cases hclass : m.bInterfaceClass d = usbClassCdcData
    · have hlength : ∀ i ∈ [d, d], i < n := by
        intro i hi
        simp only [List.mem_cons, List.not_mem_nil, or_false, or_self] at hi
        omega
      have hrest : ∀ p : Bool × σ,
          (if p.1 then pure (true, p.2, add16 (add16 len (m.bLength d)) (2 * 7))
            else pure (false, p.2, add16 len (m.bLength d)) :
            Reading (Bool × σ × ℕ)).Within n := by
        intro p
        split
        · exact within_pure _
        · exact within_pure _
      rw [if_pos hclass, within_after, within_bind, within_readEpOpenInOutPairLoop]
      simp only [hclass, true_implies]
      exact ⟨fun h => h.2.1, fun h => ⟨hlength, h, _, value_readEpOpenInOutPairLoop _, hrest _⟩⟩
    · simp [hclass]
  · simp [htype]

theorem within_readCdcOpenRest {p : Bool × σ × ℕ × ℕ} :
    (readCdcOpenRest drv m p).Within n ↔ (p.1 = true → DataFits drv m n p.2.1 p.2.2.1) := by
  simp only [readCdcOpenRest]
  by_cases hp : p.1 = true
  · have hrest : ∀ q : Bool × σ × ℕ,
        (if q.1 then pure (q.2.2, drv.cdcReadEp q.2.1) else pure (0, q.2.1) :
          Reading (ℕ × σ)).Within n := by
      intro q
      split
      · exact within_pure _
      · exact within_pure _
    rw [if_pos hp, within_bind, within_readCdcOpenData]
    exact ⟨fun h _ => h.1, fun h => ⟨h hp, _, value_readCdcOpenData, hrest _⟩⟩
  · simp [hp]

/-- Each step forward is a step of the derivation. -/
theorem functionalFits_of_within {remaining : ℕ} :
    ∀ {fuel d len : ℕ} {p : ℕ × ℕ}, (readCdcOpenFunctional m remaining fuel d len).Within n →
      (readCdcOpenFunctional m remaining fuel d len).value = some p →
      FunctionalFits m n remaining d len p.1 p.2 := by
  intro fuel
  induction fuel with
  | zero => exact fun h => absurd h not_within_running
  | succ fuel ih =>
    intro d len p h hp
    rw [readCdcOpenFunctional] at h hp
    rw [within_after] at h
    rw [value_after] at hp
    have hd : d + 1 < n := h.1 _ (List.mem_singleton_self _)
    by_cases hcs : m.bDescriptorType d = usbDescriptorTypeCsInterface ∧ len ≤ remaining
    · rw [if_pos hcs] at h hp
      have hrest := ih (within_after.mp h.2).2 hp
      refine .next hd hcs (fun hzero => ?_) hrest
      -- a descriptor of length 0 leads back to itself, so it would have to be the last one
      have hnext : m.next d = d := by rw [DescriptorMemory.next, hzero, Nat.add_zero]
      have hlen : add16 len (m.bLength d) ≤ len := by
        rw [hzero]
        exact Nat.mod_le _ _
      obtain ⟨d', len'⟩ := p
      rw [hnext] at hrest
      generalize add16 len (m.bLength d) = l at hrest hlen
      cases hrest with
      | stop _ hstop => exact hstop ⟨hcs.1, hlen.trans hcs.2⟩
      | next _ _ hlength _ => exact hlength hzero
    · rw [if_neg hcs] at hp
      cases hp
      exact .stop hd hcs

theorem within_of_functionalFits {remaining d len d' len' : ℕ}
    (h : FunctionalFits m n remaining d len d' len') :
    ∃ fuel, (readCdcOpenFunctional m remaining fuel d len).Within n ∧
      (readCdcOpenFunctional m remaining fuel d len).value = some (d', len') := by
  induction h with
  | stop hd h =>
    refine ⟨1, ?_⟩
    rw [readCdcOpenFunctional, if_neg h, within_after]
    exact ⟨⟨by simpa using hd, within_pure _⟩, rfl⟩
  | @next d len d' len' hd h _ _ ih =>
    obtain ⟨fuel, hwithin, hvalue⟩ := ih
    have hlength : ∀ i ∈ [d, d], i < n := by
      intro i hi
      simp only [List.mem_cons, List.not_mem_nil, or_false, or_self] at hi
      omega
    refine ⟨fuel + 1, ?_⟩
    rw [readCdcOpenFunctional, if_pos h, within_after, within_after]
    exact ⟨⟨by simpa using hd, hlength, hwithin⟩, hvalue⟩

theorem within_notification_rest {s : σ} {d' len' : ℕ} :
    ((readCdcOpenNotification drv m s d' len').bind (readCdcOpenRest drv m)).Within n ↔
      NotificationFits m n d' ∧ ((usbCdcOpenNotification drv m s d' len').1 = true →
        DataFits drv m n (usbCdcOpenNotification drv m s d' len').2.1
          (usbCdcOpenNotification drv m s d' len').2.2.1) := by
  rw [within_bind, within_readCdcOpenNotification, value_readCdcOpenNotification]
  refine and_congr_right fun _ => ?_
  constructor
  · rintro ⟨p, hp, hrest⟩
    cases hp
    exact within_readCdcOpenRest.mp hrest
  · exact fun h => ⟨_, rfl, within_readCdcOpenRest.mpr h⟩

theorem functionFits_of_within {fuel : ℕ} {s : σ} {d : ℕ} (hacm : AcmInterface m d)
    (h : (readCdcOpen drv m fuel s d (sub16 n d)).Within n) : FunctionFits drv m n s d := by
  rw [readCdcOpen, within_after, if_pos hacm, within_after, within_bind] at h
  obtain ⟨-, -, hfunctional, ⟨d', len'⟩, hvalue, hrest⟩ := h
  exact ⟨d', len', functionalFits_of_within hfunctional hvalue, within_notification_rest.mp hrest⟩

theorem within_of_functionFits {s : σ} {d : ℕ} (hd : d + 6 < n) (hacm : AcmInterface m d)
    (h : FunctionFits drv m n s d) :
    ∃ fuel, (readCdcOpen drv m fuel s d (sub16 n d)).Within n := by
  obtain ⟨d', len', hfunctional, hrest⟩ := h
  obtain ⟨fuel, hwithin, hvalue⟩ := within_of_functionalFits hfunctional
  have hreads : ∀ i ∈ [d + 5, d + 6], i < n := by
    intro i hi
    simp only [List.mem_cons, List.not_mem_nil, or_false] at hi
    omega
  have hlength : ∀ i ∈ [d], i < n := by
    intro i hi
    simp only [List.mem_cons, List.not_mem_nil, or_false] at hi
    omega
  refine ⟨fuel, ?_⟩
  rw [readCdcOpen, within_after, if_pos hacm, within_after, within_bind]
  exact ⟨hreads, hlength, hwithin, (d', len'), hvalue, within_notification_rest.mpr hrest⟩

/-- The result of `usb_cdc_open` does not depend on the bound on its steps. -/
theorem usbCdcOpen_unique {k l : ℕ} {s : σ} {d descriptorEnd : ℕ} {p q : ℕ × σ}
    (hp : usbCdcOpen drv m k s d descriptorEnd = some p)
    (hq : usbCdcOpen drv m l s d descriptorEnd = some q) : p = q := by
  rw [← value_readCdcOpen] at hp hq
  rcases Nat.le_total k l with hkl | hlk
  · rw [settled_readCdcOpen_le hkl (by rw [hp]; rfl), hp] at hq
    exact Option.some.inj hq
  · rw [settled_readCdcOpen_le hlk (by rw [hq]; rfl), hq] at hp
    exact (Option.some.inj hp).symm

theorem functionsFit_of_within :
    ∀ {fuel : ℕ} {s : σ} {d : ℕ}, (readConfigurationLoop drv m n fuel s d).Within n →
      FunctionsFit drv m n s d := by
  intro fuel
  induction fuel with
  | zero => exact fun h => absurd h not_within_running
  | succ fuel ih =>
    intro s d h
    rw [readConfigurationLoop] at h
    by_cases hend : n ≤ d
    · exact .done hend
    · rw [if_neg hend, within_after, within_after, within_after] at h
      obtain ⟨htype, -, hskip, h⟩ := h
      replace htype : d + 1 < n := htype _ (List.mem_singleton_self _)
      replace hskip : skipAssociation m d + 1 < n := hskip _ (List.mem_singleton_self _)
      by_cases hinterface : m.bDescriptorType (skipAssociation m d) = usbDescriptorTypeInterface
      · rw [if_pos hinterface, within_after] at h
        have hsix : skipAssociation m d + 6 < n := h.1 _ (by simp)
        by_cases hacm : AcmInterface m (skipAssociation m d)
        · rw [if_pos hacm, within_bind] at h
          obtain ⟨-, hopen, p, hp, hrest⟩ := h
          refine .function htype hsix hinterface hacm (functionFits_of_within hacm hopen) ?_
          intro k len s' hk hlen
          rw [value_readCdcOpen] at hp
          cases usbCdcOpen_unique hp hk
          rw [if_neg hlen] at hrest
          exact ih hrest
        · exact .unknown htype hsix hacm
      · exact .other htype hskip hinterface

/-- The address that `skipAssociation` reads. -/
theorem associationReads_lt {d : ℕ} (hd : d + 1 < n) :
    ∀ i ∈ (if m.bDescriptorType d = usbDescriptorTypeInterfaceAssociation then [d] else []),
      i < n := by
  intro i hi
  split at hi
  · simp only [List.mem_cons, List.not_mem_nil, or_false] at hi
    omega
  · cases hi

theorem interfaceReads_lt {d : ℕ} (hd : d + 6 < n) : ∀ i ∈ [d + 5, d + 6], i < n := by
  intro i hi
  simp only [List.mem_cons, List.not_mem_nil, or_false] at hi
  omega

theorem within_of_functionsFit {s : σ} {d : ℕ} (h : FunctionsFit drv m n s d) :
    ∃ fuel, (readConfigurationLoop drv m n fuel s d).Within n := by
  induction h with
  | done h =>
    refine ⟨1, ?_⟩
    rw [readConfigurationLoop, if_pos h]
    exact within_pure _
  | other h hskip hother =>
    refine ⟨1, ?_⟩
    rw [readConfigurationLoop, if_neg (by omega), within_after, within_after, within_after,
      if_neg hother]
    exact ⟨by simpa using h, associationReads_lt h, by simpa using hskip, within_pure _⟩
  | @unknown s d h hskip hunknown =>
    have hskip' : skipAssociation m d + 1 < n := by omega
    refine ⟨1, ?_⟩
    rw [readConfigurationLoop, if_neg (by omega), within_after, within_after, within_after]
    refine ⟨by simpa using h, associationReads_lt h, by simpa using hskip', ?_⟩
    split
    · rw [within_after]
      exact ⟨interfaceReads_lt hskip, within_pure _⟩
    · exact within_pure _
  | @function s d h hskip htype hacm hfits _ ih =>
    have hskip' : skipAssociation m d + 1 < n := by omega
    obtain ⟨k, hopen⟩ := within_of_functionFits hskip hacm hfits
    obtain ⟨⟨len, s'⟩, hvalue⟩ := Option.isSome_iff_exists.mp hopen.1
    have hstep : ∀ fuel, k ≤ fuel →
        (len ≠ 0 → (readConfigurationLoop drv m n fuel s' (skipAssociation m d + 2 * len)).Within n) →
        (readConfigurationLoop drv m n (fuel + 1) s d).Within n := by
      intro fuel hk hrest
      rw [readConfigurationLoop, if_neg (by omega), within_after, within_after, within_after,
        if_pos htype, within_after, if_pos hacm, within_bind]
      refine ⟨by simpa using h, associationReads_lt h, by simpa using hskip', interfaceReads_lt hskip,
        hopen.of_settled (settled_readCdcOpen_le hk), (len, s'), ?_, ?_⟩
      · rw [settled_readCdcOpen_le hk hopen.1, hvalue]
      · by_cases hlen : len = 0
        · rw [if_pos hlen]
          exact within_pure _
        · rw [if_neg hlen]
          exact hrest hlen
    by_cases hlen : len = 0
    · exact ⟨k + 1, hstep k le_rfl fun hne => absurd hlen hne⟩
    · rw [value_readCdcOpen] at hvalue
      obtain ⟨l, hrest⟩ := ih k len s' hvalue hlen
      refine ⟨max k l + 1, hstep _ (le_max_left k l) fun _ => ?_⟩
      exact hrest.of_settled (settled_readConfigurationLoop_le (le_max_right k l))

theorem within_readConfiguration_iff {s : σ} :
    (∃ fuel, (readConfiguration drv m fuel s).Within (m.wTotalLength 0)) ↔ TableFits drv m s := by
  simp only [readConfiguration, TableFits]
  by_cases htype : m.bDescriptorType 0 = usbDescriptorTypeConfiguration
  · have hheader : (∀ i ∈ [7, 7, 0, 2, 3], i < m.wTotalLength 0) ↔ 7 < m.wTotalLength 0 := by
      constructor
      · exact fun h => h 7 (by simp)
      · intro h i hi
        simp only [List.mem_cons, List.not_mem_nil, or_false] at hi
        omega
    simp only [htype, if_true, within_after, hheader, true_implies, List.forall_mem_singleton]
    constructor
    · rintro ⟨fuel, h1, h7, hloop⟩
      exact ⟨h1, h7, functionsFit_of_within hloop⟩
    · rintro ⟨h1, h7, hfits⟩
      obtain ⟨fuel, hloop⟩ := within_of_functionsFit hfits
      exact ⟨fuel, h1, h7, hloop⟩
  · simp [htype]

end Walk

/-! ### The device -/

/-- The walk over the table ends, having read only bytes in front of `wTotalLength`. -/
def WalkInside (m : DescriptorMemory) (s : Usb) : Prop :=
  ∃ fuel r, usbResetConfiguration (usbConfigDriver m) m fuel s = some r ∧
    ∀ i ∈ (readConfiguration (usbConfigDriver m) m fuel s).reads, i < m.wTotalLength 0

/-- **The walk ends inside its table, exactly**: when no class-specific descriptor it comes to has
length 0, and of every descriptor it comes to the fields it looks at are inside. -/
theorem walkInside_iff (m : DescriptorMemory) (s : Usb) :
    WalkInside m s ↔ TableFits (usbConfigDriver m) m s := by
  rw [← within_readConfiguration_iff]
  constructor
  · rintro ⟨fuel, r, hr, hreads⟩
    refine ⟨fuel, ?_, hreads⟩
    rw [value_readConfiguration, hr]
    rfl
  · rintro ⟨fuel, hend, hreads⟩
    rw [value_readConfiguration] at hend
    obtain ⟨r, hr⟩ := Option.isSome_iff_exists.mp hend
    exact ⟨fuel, r, hr, hreads⟩

/-- A CDC-ACM interface followed by a class-specific descriptor of length 0. -/
def zeroLengthTable : DescriptorMemory := fun i =>
  [9#8, 0x02#8, 20#8, 0#8, 1#8, 1#8, 0#8, 0x80#8, 50#8,
    9#8, 0x04#8, 0#8, 0#8, 0#8, 0x02#8, 0x02#8, 0#8, 0#8,
    0#8, 0x24#8].getD i 0#8

/-- A table that ends with a CDC-ACM interface. -/
def shortTable : DescriptorMemory := fun i =>
  [9#8, 0x02#8, 18#8, 0#8, 1#8, 1#8, 0#8, 0x80#8, 50#8,
    9#8, 0x04#8, 0#8, 0#8, 0#8, 0x02#8, 0x02#8, 0#8, 0#8].getD i 0#8

/-- The walk never leaves the descriptor of length 0. -/
theorem zeroLengthTable_functional :
    ∀ fuel, usbCdcOpenFunctional zeroLengthTable 11 fuel 18 9 = none := by
  intro fuel
  induction fuel with
  | zero => exact rfl
  | succ fuel ih =>
    rw [usbCdcOpenFunctional, if_pos (by decide)]
    exact ih

theorem zeroLengthTable_none (fuel : ℕ) :
    usbResetConfiguration (usbConfigDriver zeroLengthTable) zeroLengthTable fuel usbBoot = none := by
  rw [usbResetConfiguration, if_neg (by decide)]
  cases fuel with
  | zero => rfl
  | succ fuel =>
    have hskip : skipAssociation zeroLengthTable (zeroLengthTable.next 0) = 9 := by decide
    have hnext : zeroLengthTable.next 9 = 18 := by decide
    have hrest : sub16 (zeroLengthTable.wTotalLength 0) 9 = 11 := by decide
    rw [usbResetConfigurationLoop_eq, if_neg (by decide), hskip, if_pos (by decide),
      usbCdcOpen_eq, if_pos (by decide), hnext, hrest, zeroLengthTable_functional]
    rfl

/-- The walk leaves its table: over the first table it does not end, and over the second it reads
byte 19 of 18. -/
theorem walk_leaves_table :
    ¬WalkInside zeroLengthTable usbBoot ∧ ¬WalkInside shortTable usbBoot := by
  constructor
  · rintro ⟨fuel, r, hr, -⟩
    rw [zeroLengthTable_none] at hr
    cases hr
  · intro hinside
    have hfits : TableFits (usbConfigDriver shortTable) shortTable usbBoot := by
      obtain ⟨fuel, r, hr, hreads⟩ := hinside
      refine within_readConfiguration_iff.mp ⟨fuel, ?_, hreads⟩
      rw [value_readConfiguration, hr]
      rfl
    -- the descriptor behind the interface would have to begin in front of byte 17
    have hskip : skipAssociation shortTable (shortTable.next 0) = 9 := by decide
    have hfunctions := (hfits.2 (by decide)).2
    cases hfunctions with
    | done h => exact absurd h (by decide)
    | other _ _ hother => exact hother (by decide)
    | unknown _ _ hunknown => exact hunknown (by decide)
    | function _ _ _ _ hfunction _ =>
      rw [hskip] at hfunction
      obtain ⟨d', len', hfunctional, -⟩ := hfunction
      cases hfunctional with
      | stop hd _ => exact absurd hd (by decide)
      | next hd _ _ _ => exact absurd hd (by decide)

end PcbMill
