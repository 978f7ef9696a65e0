import PcbMill.Usb.Requests

/-!
# SET_CONFIGURATION

The walk over the firmware's own descriptor table opens three endpoints and succeeds in every
state, so SET_CONFIGURATION is never rejected; and while slot 0 belongs to EP0 it leaves the
control endpoint alone.
-/

namespace PcbMill

open FixedWidth

/-! ### The walk over the firmware's table -/

section Walk

variable {σ : Type*} (drv : ConfigDriver σ)

/-- The walk over the firmware's table opens the notification endpoint, the bulk OUT and the bulk
IN endpoint, at their offsets. -/
theorem usbResetConfiguration_configurationMemory {s s₁ s₂ s₃ : σ}
    (h₁ : drv.epOpenHal (drv.visit (drv.setPower s 0x80#8) 17) 45 = (true, s₁))
    (h₂ : drv.epOpenHal s₁ 61 = (true, s₂))
    (h₃ : drv.epOpenHal (drv.setEpAddrOut s₂ 0x02#8) 68 = (true, s₃)) :
    usbResetConfiguration drv configurationMemory 8 s =
      some (true, drv.cdcReadEp (drv.setEpAddrIn s₃ 0x82#8)) := by
  have hnotification : usbCdcOpenNotification drv configurationMemory
      (drv.visit (drv.setPower s 0x80#8) 17) 45 28 = (true, s₁, 52, 35) := by
    rw [usbCdcOpenNotification, if_pos (by decide), h₁]
    rfl
  have hsecond : usbEpOpenInOutPairLoop drv configurationMemory usbEpTypeBulk 1
      (drv.setEpAddrOut s₂ 0x02#8) 68 = (true, drv.setEpAddrIn s₃ 0x82#8) := by
    rw [usbEpOpenInOutPairLoop, if_neg (by decide), h₃]
    rfl
  have hpair : usbEpOpenInOutPair drv configurationMemory usbEpTypeBulk s₁ 61 =
      (true, drv.setEpAddrIn s₃ 0x82#8) := by
    rw [usbEpOpenInOutPair, usbEpOpenInOutPairLoop, if_neg (by decide), h₂]
    exact hsecond
  have hdata : usbCdcOpenData drv configurationMemory s₁ 52 35 =
      (true, drv.setEpAddrIn s₃ 0x82#8, 58) := by
    have hnext : configurationMemory.next 52 = 61 := by decide
    rw [usbCdcOpenData, if_pos (by decide), hnext, hpair]
    rfl
  have hfunctional : usbCdcOpenFunctional configurationMemory 58 7
      (configurationMemory.next 17) 9 = some (45, 28) := by decide
  have hopen : usbCdcOpen drv configurationMemory 7 (drv.setPower s 0x80#8) 17 58 =
      some (58, drv.cdcReadEp (drv.setEpAddrIn s₃ 0x82#8)) := by
    rw [usbCdcOpen, if_neg (by decide), hfunctional]
    dsimp only
    rw [hnotification]
    dsimp only
    rw [hdata]
  have hloop : usbResetConfigurationLoop drv configurationMemory 75 8 (drv.setPower s 0x80#8) 9 =
      some (true, drv.cdcReadEp (drv.setEpAddrIn s₃ 0x82#8)) := by
    have hstart : (if configurationMemory.bDescriptorType 9 = usbDescriptorTypeInterfaceAssociation
        then configurationMemory.next 9 else 9) = 17 := by decide
    have hrest : sub16 75 17 = 58 := by decide
    rw [usbResetConfigurationLoop, if_neg (by decide), if_neg (by decide), if_pos (by decide),
      hstart, hrest, hopen]
    rfl
  exact hloop

end Walk

/-! ### Slots -/

/-- The slots from `k` on are unassigned. -/
def FreeFrom (k : ℕ) (s : Usb) : Prop := ∀ i, k ≤ i → i < usbEpMax → s.epAssignment i = .reset

/-- Slot 0 belongs to the control endpoint in both directions. -/
structure Ep0Assigned (s : Usb) : Prop where
  epIdn : (s.epAssignment 0).epIdn = 0
  epType : (s.epAssignment 0).epType = usbEpTypeControl
  rx : (s.epAssignment 0).assigned 0 = true
  tx : (s.epAssignment 0).assigned 1 = true

/-- What opening an endpoint changes: slot `idn`, and bookkeeping. -/
structure OpenedAt (idn : ℕ) (s s' : Usb) : Prop where
  chep : ∀ i, i ≠ idn → s'.chep i = s.chep i
  pma : ∀ w, w / 2 ≠ idn → s'.pma w = s.pma w
  daddr : s'.daddr = s.daddr
  epTransferSet : ∀ i, i ≠ idn → s'.epTransferSet i = s.epTransferSet i
  epAssignment : ∀ i, i ≠ idn → s'.epAssignment i = s.epAssignment i
  usbDevice : s'.usbDevice = s.usbDevice
  controlTransfer : s'.controlTransfer = s.controlTransfer
  usbCdc : s'.usbCdc = s.usbCdc
  ram : s'.ram = s.ram
  trace : s'.trace = s.trace

/-- An unassigned slot takes any endpoint. -/
theorem accepts_reset (epIdn dirIdx epType : ℕ) :
    EpAssignment.reset.accepts epIdn dirIdx epType = true := rfl

/-- The control endpoint's slot neither serves nor takes an endpoint of another type. -/
theorem Ep0Assigned.refuses {s : Usb} (h : Ep0Assigned s) {epType : ℕ}
    (htype : epType ≠ usbEpTypeControl) (epAddr : Byte) :
    ((s.epAssignment 0).serves (usbEpIdn epAddr) (usbEpDirIdx epAddr) epType ||
      (s.epAssignment 0).accepts (usbEpIdn epAddr) (usbEpDirIdx epAddr) epType) = false := by
  rcases usbEpDirIdx_cases epAddr with hdir | hdir <;>
    simp [EpAssignment.serves, EpAssignment.accepts, hdir, h.rx, h.tx, h.epType, htype.symm]

theorem usbEpAssign_free {k : ℕ} {s : Usb} (hfree : FreeFrom k s) (hk : k < usbEpMax)
    (epAddr : Byte) (epType : ℕ) :
    ∃ idn a, idn ≤ k ∧ usbEpAssign s epAddr epType = (idn, s.setAssignment idn a) ∧
      (Ep0Assigned s → epType ≠ usbEpTypeControl → idn ≠ 0) := by
  simp only [usbEpAssign]
  cases hfind : (List.range usbEpMax).find? fun idn =>
      (s.epAssignment idn).serves (usbEpIdn epAddr) (usbEpDirIdx epAddr) epType ||
        (s.epAssignment idn).accepts (usbEpIdn epAddr) (usbEpDirIdx epAddr) epType with
  | none =>
    -- slot `k` is unassigned, so the search cannot fail
    have hnone := List.find?_eq_none.mp hfind k (List.mem_range.mpr hk)
    simp [hfree k le_rfl hk, accepts_reset] at hnone
  | some idn =>
    have hmatch := List.find?_some hfind
    have hle : idn ≤ k := by
      by_contra hlt
      have hbefore := (List.find?_range_eq_some.mp hfind).2.2 k (by omega)
      simp [hfree k le_rfl hk, accepts_reset] at hbefore
    have hne : Ep0Assigned s → epType ≠ usbEpTypeControl → idn ≠ 0 := by
      rintro h htype rfl
      simp only [h.refuses htype epAddr] at hmatch
      exact Bool.false_ne_true hmatch
    dsimp only
    split
    · refine ⟨idn, s.epAssignment idn, hle, ?_, hne⟩
      rw [Usb.setAssignment, Function.update_eq_self]
    · exact ⟨idn, _, hle, rfl, hne⟩

theorem usbEpOpenType_ne_control {type : ℕ} {typeBits : Word}
    (h : usbEpOpenType type = some typeBits) : type ≠ usbEpTypeControl := by
  rintro rfl
  have hnone : usbEpOpenType usbEpTypeControl = none := by decide
  rw [hnone] at h
  cases h

/-- Opening an endpoint of a supported type takes a slot up to the first unassigned one. -/
theorem usbEpOpenHal_free {k : ℕ} {s : Usb} (hfree : FreeFrom k s) (hk : k < usbEpMax)
    {d : EpDescriptor} {typeBits : Word} (htype : usbEpOpenType d.type = some typeBits) :
    ∃ idn s', idn ≤ k ∧ usbEpOpenHal s d = (true, s') ∧ OpenedAt idn s s' ∧ FreeFrom (k + 1) s' ∧
      (Ep0Assigned s → idn ≠ 0) := by
  obtain ⟨idn, a, hle, hassign, hne⟩ := usbEpAssign_free hfree hk d.bEndpointAddress d.type
  have hslot : idn ≠ unassignedValue := by
    simp only [unassignedValue, usbEpMax] at *
    omega
  refine ⟨idn, (usbEpOpenHal s d).2, hle, ?_, ?_, ?_, fun h => hne h (usbEpOpenType_ne_control htype)⟩
  · simp only [usbEpOpenHal]
    simp only [hassign, hslot, if_false, htype]
  · have hbuf : ∀ x, x ≤ 1 → ∀ w, w / 2 ≠ idn → w ≠ bufferDesc idn x := by
      intro x hx w hw
      simp only [bufferDesc]
      omega
    simp only [usbEpOpenHal]
    simp only [hassign, hslot, if_false, htype]
    constructor <;> try rfl
    · intro i hi
      exact Function.update_of_ne hi _ _
    · intro w hw
      simp only [usbPmaEpAddrSet, Usb.setPma, Usb.setTransfer, Usb.setChep, usbPmaNextAddr,
        Usb.setAssignment]
      exact Function.update_of_ne (hbuf _ (by split <;> decide) w hw) _ _
    · intro i hi
      exact Function.update_of_ne hi _ _
    · intro i hi
      exact Function.update_of_ne hi _ _
  · intro i hi hi'
    simp only [usbEpOpenHal]
    simp only [hassign, hslot, if_false, htype]
    exact (Function.update_of_ne (by omega) _ _).trans (hfree i (by omega) hi')

/-! ### Closing -/

/-- One endpoint closed. -/
def closeEp (s : Usb) (i : ℕ) : Usb :=
  epResetAssignedState (s.setChep i (regSet (s.chep i) 0#32)) i

/-- What closing the endpoints of a list changes. -/
structure ClosedAt (l : List ℕ) (s s' : Usb) : Prop where
  chep : ∀ i, i ∉ l → s'.chep i = s.chep i
  epAssignment : ∀ i, s'.epAssignment i = if i ∈ l then .reset else s.epAssignment i
  pma : s'.pma = s.pma
  daddr : s'.daddr = s.daddr
  epTransferSet : s'.epTransferSet = s.epTransferSet
  usbDevice : s'.usbDevice = s.usbDevice
  controlTransfer : s'.controlTransfer = s.controlTransfer
  usbCdc : s'.usbCdc = s.usbCdc
  ram : s'.ram = s.ram
  trace : s'.trace = s.trace

theorem closedAt_foldl (l : List ℕ) : ∀ s : Usb, ClosedAt l s (l.foldl closeEp s) := by
  induction l with
  | nil => intro s; constructor <;> simp
  | cons j l ih =>
    intro s
    have h := ih (closeEp s j)
    rw [List.foldl_cons]
    constructor
    · intro i hi
      rw [List.mem_cons, not_or] at hi
      exact (h.chep i hi.2).trans (Function.update_of_ne hi.1 _ _)
    · intro i
      rw [h.epAssignment i]
      by_cases hil : i ∈ l
      · rw [if_pos hil, if_pos (List.mem_cons_of_mem _ hil)]
      · rw [if_neg hil]
        by_cases hij : i = j
        · subst hij
          rw [if_pos List.mem_cons_self]
          exact Function.update_self ..
        · rw [if_neg (by simp [hij, hil])]
          exact Function.update_of_ne hij _ _
    · exact h.pma
    · exact h.daddr
    · exact h.epTransferSet
    · exact h.usbDevice
    · exact h.controlTransfer
    · exact h.usbCdc
    · exact h.ram
    · exact h.trace

theorem closedAt_usbEpCloseAll (s : Usb) : ClosedAt [1, 2, 3, 4, 5, 6, 7] s (usbEpCloseAll s) := by
  have h := closedAt_foldl [1, 2, 3, 4, 5, 6, 7] s
  exact { chep := h.chep, epAssignment := h.epAssignment, pma := h.pma, daddr := h.daddr
          epTransferSet := h.epTransferSet, usbDevice := h.usbDevice
          controlTransfer := h.controlTransfer, usbCdc := h.usbCdc, ram := h.ram
          trace := h.trace }

theorem freeFrom_usbEpCloseAll (s : Usb) : FreeFrom 1 (usbEpCloseAll s) := by
  intro i hi hi'
  rw [(closedAt_usbEpCloseAll s).epAssignment i, if_pos]
  simp only [usbEpMax] at hi'
  interval_cases i <;> decide

/-! ### The control endpoint -/

/-- Nothing has changed where the control endpoint lives. -/
structure Ep0Same (s s' : Usb) : Prop where
  chep : s'.chep 0 = s.chep 0
  pma : ∀ w, w < 2 ∨ 16 ≤ w → s'.pma w = s.pma w
  epTransferSet : s'.epTransferSet 0 = s.epTransferSet 0
  epAssignment : s'.epAssignment 0 = s.epAssignment 0

theorem Ep0Same.trans {s₁ s₂ s₃ : Usb} (h : Ep0Same s₁ s₂) (h' : Ep0Same s₂ s₃) :
    Ep0Same s₁ s₃ :=
  { chep := h'.chep.trans h.chep
    pma := fun w hw => (h'.pma w hw).trans (h.pma w hw)
    epTransferSet := h'.epTransferSet.trans h.epTransferSet
    epAssignment := h'.epAssignment.trans h.epAssignment }

theorem Ep0Assigned.of_same {s s' : Usb} (h : Ep0Assigned s) (hs : Ep0Same s s') :
    Ep0Assigned s' := by
  constructor <;> rw [hs.epAssignment]
  · exact h.epIdn
  · exact h.epType
  · exact h.rx
  · exact h.tx

theorem OpenedAt.ep0Same {idn : ℕ} {s s' : Usb} (h : OpenedAt idn s s') (hne : idn ≠ 0)
    (hlt : idn < usbEpMax) : Ep0Same s s' := by
  simp only [usbEpMax] at hlt
  exact { chep := h.chep 0 hne.symm
          pma := fun w hw => h.pma w (by omega)
          epTransferSet := h.epTransferSet 0 hne.symm
          epAssignment := h.epAssignment 0 hne.symm }

theorem ClosedAt.ep0Same {l : List ℕ} {s s' : Usb} (h : ClosedAt l s s') (hl : 0 ∉ l) :
    Ep0Same s s' :=
  { chep := h.chep 0 hl
    pma := fun w _ => congrFun h.pma w
    epTransferSet := congrFun h.epTransferSet 0
    epAssignment := (h.epAssignment 0).trans (if_neg hl) }

/-- Arming the OUT endpoint touches slot 2 only. -/
theorem usbCdcReadEp_ep0Same {s : Usb} (haddr : s.usbCdc.epAddrOut = 0x02#8) :
    Ep0Same s (usbCdcReadEp s).2 := by
  have hidn : usbEpIdn 0x02#8 = 2 := rfl
  have hdir : usbEpDirIdx 0x02#8 = 0 := rfl
  simp only [usbCdcReadEp]
  split_ifs
  · exact ⟨rfl, fun _ _ => rfl, rfl, rfl⟩
  · rw [usbEpQueueTransfer, haddr, hidn, hdir, usbEpQueueTransferHal]
    constructor
    · rfl
    · intro w hw
      exact Function.update_of_ne (by unfold bufferDesc usbEpRxCountAddrIdx; omega) _ _
    · rfl
    · rfl
  · exact ⟨rfl, fun _ _ => rfl, rfl, rfl⟩

/-- Arming the OUT endpoint changes no variable of the device, and queues on endpoint 2. -/
theorem usbCdcReadEp_frame {s : Usb} (haddr : s.usbCdc.epAddrOut = 0x02#8) :
    (usbCdcReadEp s).2.usbDevice = s.usbDevice ∧ (usbCdcReadEp s).2.usbCdc = s.usbCdc ∧
      (usbCdcReadEp s).2.controlTransfer = s.controlTransfer ∧
      (usbCdcReadEp s).2.ram = s.ram ∧ (usbCdcReadEp s).2.daddr = s.daddr ∧
      ((usbCdcReadEp s).2.trace = s.trace ∨
        (usbCdcReadEp s).2.trace = s.trace ++ [.queued 2 0 64]) := by
  have hidn : usbEpIdn 0x02#8 = 2 := rfl
  have hdir : usbEpDirIdx 0x02#8 = 0 := rfl
  simp only [usbCdcReadEp]
  split_ifs
  · exact ⟨rfl, rfl, rfl, rfl, rfl, .inl rfl⟩
  · rw [usbEpQueueTransfer, haddr, hidn, hdir, usbEpQueueTransferHal]
    exact ⟨rfl, rfl, rfl, rfl, rfl, .inr rfl⟩
  · exact ⟨rfl, rfl, rfl, rfl, rfl, .inl rfl⟩

/-! ### The whole request -/

/-- The state SET_CONFIGURATION leaves before its status stage is queued. -/
structure Configured (v : Byte) (s s' : Usb) : Prop where
  controlTransfer : s'.controlTransfer = s.controlTransfer
  ram : s'.ram = s.ram
  daddr : s'.daddr = s.daddr
  trace : s'.trace = s.trace ∨ s'.trace = s.trace ++ [.queued 2 0 64]
  ep0 : Ep0Assigned s → Ep0Same s s'
  configNum : s'.usbDevice.configNum = v
  same : s.usbDevice.configNum = v → s' = s
  address : s.usbDevice.configNum ≠ v → s'.usbDevice.address = 0#8 ∧
    s'.usbDevice.addressed = false ∧ s'.usbDevice.addressPending = 0#8

/-- The state between the teardown and the walk. -/
def tornDown (s : Usb) (configNum : Byte) : Usb :=
  (usbConfigurationReset (usbEpCloseAll s)).setDevice
    { (usbConfigurationReset (usbEpCloseAll s)).usbDevice with configNum := configNum }

theorem freeFrom_tornDown (s : Usb) (configNum : Byte) : FreeFrom 1 (tornDown s configNum) :=
  freeFrom_usbEpCloseAll s

theorem configured_tornDown (s : Usb) {configNum : Byte}
    (hne : s.usbDevice.configNum ≠ configNum) : Configured configNum s (tornDown s configNum) := by
  have h := closedAt_usbEpCloseAll s
  have h0 : Ep0Same s (usbEpCloseAll s) := h.ep0Same (by decide)
  exact { controlTransfer := h.controlTransfer, ram := h.ram, daddr := h.daddr
          trace := .inl h.trace
          ep0 := fun _ => ⟨h0.chep, h0.pma, h0.epTransferSet, h0.epAssignment⟩
          configNum := rfl
          same := fun heq => absurd heq hne
          address := fun _ => ⟨rfl, rfl, rfl⟩ }

/-- The state after the power attributes of the firmware's descriptor are taken over. -/
def poweredDown (s : Usb) : Usb :=
  s.setDevice { s.usbDevice with remoteWakeup := false, selfPowered := false, suspended := false }

/-- The walk succeeds from any state in which slots 1 to 7 are unassigned, and opens three
endpoints. -/
theorem usbResetConfigurationDevice_free {s : Usb} (hfree : FreeFrom 1 s) :
    ∃ s₁ s₂ s₃ i₁ i₂ i₃,
      OpenedAt i₁ (poweredDown s) s₁ ∧
      OpenedAt i₂ s₁ s₂ ∧
      OpenedAt i₃ (s₂.setCdc { s₂.usbCdc with epAddrOut := 0x02#8 }) s₃ ∧
      i₁ < usbEpMax ∧ i₂ < usbEpMax ∧ i₃ < usbEpMax ∧
      (Ep0Assigned s → i₁ ≠ 0 ∧ i₂ ≠ 0 ∧ i₃ ≠ 0) ∧
      usbResetConfigurationDevice s =
        (true, (usbCdcReadEp (s₃.setCdc { s₃.usbCdc with epAddrIn := 0x82#8 })).2) := by
  have hopen : ∀ {k : ℕ} {s : Usb}, FreeFrom k s → k < 7 → ∀ d : ℕ,
      d = 45 ∨ d = 61 ∨ d = 68 → ∃ idn s', idn < usbEpMax ∧
        (usbConfigDriver configurationMemory).epOpenHal s d = (true, s') ∧ OpenedAt idn s s' ∧
        FreeFrom (k + 1) s' ∧ (Ep0Assigned s → idn ≠ 0) := by
    intro k s hfree hk d hd
    have htype : ∃ typeBits,
        usbEpOpenType (configurationMemory.epDescriptor d).type = some typeBits := by
      rcases hd with rfl | rfl | rfl
      · exact ⟨usbEpInterrupt, by decide⟩
      · exact ⟨usbEpBulk, by decide⟩
      · exact ⟨usbEpBulk, by decide⟩
    obtain ⟨typeBits, htype⟩ := htype
    have hk' : k < usbEpMax := by
      simp only [usbEpMax]
      omega
    obtain ⟨idn, s', hle, hres⟩ := usbEpOpenHal_free hfree hk' htype
    exact ⟨idn, s', lt_of_le_of_lt hle hk', hres⟩
  obtain ⟨i₁, s₁, hi₁, hres₁, ho₁, hfree₁, hne₁⟩ := hopen (s := poweredDown s) hfree (by omega) 45
    (.inl rfl)
  obtain ⟨i₂, s₂, hi₂, hres₂, ho₂, hfree₂, hne₂⟩ := hopen hfree₁ (by omega) 61 (.inr (.inl rfl))
  obtain ⟨i₃, s₃, hi₃, hres₃, ho₃, hfree₃, hne₃⟩ :=
    hopen (s := s₂.setCdc { s₂.usbCdc with epAddrOut := 0x02#8 }) hfree₂ (by omega) 68
      (.inr (.inr rfl))
  refine ⟨s₁, s₂, s₃, i₁, i₂, i₃, ho₁, ho₂, ho₃, hi₁, hi₂, hi₃, ?_, ?_⟩
  · intro h0
    have h1 : Ep0Assigned (poweredDown s) := h0.of_same ⟨rfl, fun _ _ => rfl, rfl, rfl⟩
    have h2 := h1.of_same (ho₁.ep0Same (hne₁ h1) hi₁)
    have h3 := h2.of_same (ho₂.ep0Same (hne₂ h2) hi₂)
    exact ⟨hne₁ h1, hne₂ h2, hne₃ (h3.of_same ⟨rfl, fun _ _ => rfl, rfl, rfl⟩)⟩
  · rw [usbResetConfigurationDevice,
      usbResetConfiguration_configurationMemory (usbConfigDriver configurationMemory) hres₁ hres₂
        hres₃]
    rfl

/-- The walk keeps what `Configured` promises. -/
theorem configured_walk {s : Usb} {configNum : Byte} (hne : s.usbDevice.configNum ≠ configNum) :
    ∃ s', usbResetConfigurationDevice (tornDown s configNum) = (true, s') ∧
      Configured configNum s s' := by
  have hdown := configured_tornDown s hne
  obtain ⟨s₁, s₂, s₃, i₁, i₂, i₃, ho₁, ho₂, ho₃, hi₁, hi₂, hi₃, hslots, hres⟩ :=
    usbResetConfigurationDevice_free (freeFrom_tornDown s configNum)
  refine ⟨_, hres, ?_⟩
  have hcdc : s₃.usbCdc = { s₂.usbCdc with epAddrOut := 0x02#8 } := ho₃.usbCdc
  have haddr : (s₃.setCdc { s₃.usbCdc with epAddrIn := 0x82#8 }).usbCdc.epAddrOut = 0x02#8 := by
    show s₃.usbCdc.epAddrOut = 0x02#8
    rw [hcdc]
  obtain ⟨hdev, -, hctl, hram, hdaddr, htrace⟩ := usbCdcReadEp_frame haddr
  have hdevice : s₃.usbDevice = { (tornDown s configNum).usbDevice with
      remoteWakeup := false, selfPowered := false, suspended := false } :=
    ho₃.usbDevice.trans (ho₂.usbDevice.trans ho₁.usbDevice)
  have htrace₃ : s₃.trace = s.trace :=
    ho₃.trace.trans (ho₂.trace.trans (ho₁.trace.trans (closedAt_usbEpCloseAll s).trace))
  constructor
  · rw [hctl]
    exact ho₃.controlTransfer.trans (ho₂.controlTransfer.trans (ho₁.controlTransfer.trans
      hdown.controlTransfer))
  · rw [hram]
    exact ho₃.ram.trans (ho₂.ram.trans (ho₁.ram.trans hdown.ram))
  · rw [hdaddr]
    exact ho₃.daddr.trans (ho₂.daddr.trans (ho₁.daddr.trans hdown.daddr))
  · rcases htrace with htrace | htrace
    · exact .inl (htrace.trans htrace₃)
    · refine .inr (htrace.trans ?_)
      show s₃.trace ++ _ = _
      rw [htrace₃]
  · intro h0
    obtain ⟨hne₁, hne₂, hne₃⟩ := hslots (h0.of_same (hdown.ep0 h0))
    have h1 := ho₁.ep0Same hne₁ hi₁
    have h3 := ho₃.ep0Same hne₃ hi₃
    have h4 := usbCdcReadEp_ep0Same haddr
    -- the setters between the openings touch none of the compared fields
    have h1' : Ep0Same (tornDown s configNum) s₁ :=
      ⟨h1.chep, h1.pma, h1.epTransferSet, h1.epAssignment⟩
    have h34 := h3.trans ⟨h4.chep, h4.pma, h4.epTransferSet, h4.epAssignment⟩
    have h34' : Ep0Same s₂ _ := ⟨h34.chep, h34.pma, h34.epTransferSet, h34.epAssignment⟩
    exact (hdown.ep0 h0).trans (h1'.trans ((ho₂.ep0Same hne₂ hi₂).trans h34'))
  · rw [hdev]
    show s₃.usbDevice.configNum = configNum
    rw [hdevice]
    rfl
  · exact fun heq => absurd heq hne
  · intro _
    rw [hdev]
    show s₃.usbDevice.address = 0#8 ∧ s₃.usbDevice.addressed = false ∧
      s₃.usbDevice.addressPending = 0#8
    rw [hdevice]
    exact ⟨rfl, rfl, rfl⟩

/-- SET_CONFIGURATION is accepted whatever its value, in every state. -/
theorem usbSetConfiguration_eq (s : Usb) (r : UsbControlRequest) :
    ∃ s', Configured (u16Low r.wValue) s s' ∧
      usbSetConfiguration s r = (true, (usbControlInitStatusStage s' r).2) := by
  unfold usbSetConfiguration
  by_cases hne : s.usbDevice.configNum ≠ u16Low r.wValue
  · rw [if_pos hne]
    by_cases hzero : u16Low r.wValue ≠ 0#8
    · obtain ⟨s', hres, hconf⟩ := configured_walk hne
      unfold tornDown at hres
      dsimp only at hres ⊢
      rw [if_pos hzero, hres]
      exact ⟨s', hconf, eq_true_of_fst (usbControlInitStatusStage_fst s' r)⟩
    · dsimp only
      rw [if_neg hzero]
      exact ⟨_, configured_tornDown s hne, eq_true_of_fst (usbControlInitStatusStage_fst _ r)⟩
  · rw [if_neg hne]
    refine ⟨s, ?_, eq_true_of_fst (usbControlInitStatusStage_fst s r)⟩
    exact { controlTransfer := rfl, ram := rfl, daddr := rfl, trace := .inl rfl
            ep0 := fun _ => ⟨rfl, fun _ _ => rfl, rfl, rfl⟩
            configNum := not_not.mp hne, same := fun _ => rfl
            address := fun h => absurd h hne }

end PcbMill
