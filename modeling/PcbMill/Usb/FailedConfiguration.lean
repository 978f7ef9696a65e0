import PcbMill.Usb.ConfigurationGrammar
import PcbMill.Usb.Assignment

/-!
# What a rejected configuration leaves behind

Opening is incremental and nothing is rolled back, so the state after a rejected
SET_CONFIGURATION is decided by the first endpoint the walk tries to open: up to it nothing is
committed, and from it on a slot stays assigned.  The walk on the device is therefore compared
with a walk that stops there.  The endpoint addresses of the CDC interface are never cleared, so
those of an earlier configuration survive as well.
-/

namespace PcbMill

open FixedWidth

/-! ### The walk up to the first endpoint -/

/-- A device that refuses every endpoint and records the first it was asked to open. -/
def firstOpen : ConfigDriver (Option ℕ) where
  setPower s _ := s
  visit s _ := s
  epOpenHal _ d := (false, some d)
  setEpAddrIn s _ := s
  setEpAddrOut s _ := s
  cdcReadEp s := s

/-- The operations other than the opening of an endpoint keep `P`. -/
structure KeepsClosed {σ : Type*} (drv : ConfigDriver σ) (P : σ → Prop) : Prop where
  setPower : ∀ s a, P s → P (drv.setPower s a)
  visit : ∀ s d, P s → P (drv.visit s d)
  cdcReadEp : ∀ s, P s → P (drv.cdcReadEp s)

/-- All operations keep `Q`. -/
structure KeepsOpened {σ : Type*} (drv : ConfigDriver σ) (Q : σ → Prop) : Prop where
  setPower : ∀ s a, Q s → Q (drv.setPower s a)
  visit : ∀ s d, Q s → Q (drv.visit s d)
  epOpenHal : ∀ s d, Q s → Q (drv.epOpenHal s d).2
  setEpAddrIn : ∀ s a, Q s → Q (drv.setEpAddrIn s a)
  setEpAddrOut : ∀ s a, Q s → Q (drv.setEpAddrOut s a)
  cdcReadEp : ∀ s, Q s → Q (drv.cdcReadEp s)

section Walk

variable {σ : Type*} {drv : ConfigDriver σ} {m : DescriptorMemory}

/-! ### The walk in parts -/

/-- The interface descriptor at `d` is one of a CDC-ACM function. -/
def AcmInterface (m : DescriptorMemory) (d : ℕ) : Prop :=
  m.bInterfaceClass d = usbClassCdc ∧ m.bInterfaceSubClass d = cdcCommSubclassAbstractControlModel

instance (m : DescriptorMemory) (d : ℕ) : Decidable (AcmInterface m d) :=
  inferInstanceAs (Decidable (_ ∧ _))

/-- `usb_cdc_open` behind the notification endpoint. -/
def usbCdcOpenRest (drv : ConfigDriver σ) (m : DescriptorMemory) (n : Bool × σ × ℕ × ℕ) : ℕ × σ :=
  if n.1 then
    let p := usbCdcOpenData drv m n.2.1 n.2.2.1 n.2.2.2
    if p.1 then (p.2.2, drv.cdcReadEp p.2.1) else (0, p.2.1)
  else (0, n.2.1)

theorem usbCdcOpen_eq {fuel : ℕ} {s : σ} {d descriptorEnd : ℕ} :
    usbCdcOpen drv m fuel s d descriptorEnd =
      if AcmInterface m d then
        (usbCdcOpenFunctional m descriptorEnd fuel (m.next d) 9).map fun p =>
          usbCdcOpenRest drv m (usbCdcOpenNotification drv m (drv.visit s d) p.1 p.2)
      else some (0, drv.visit s d) := by
  simp only [usbCdcOpen]
  by_cases hacm : AcmInterface m d
  · rw [if_pos hacm, if_neg (fun hc => hc.elim (fun h => h hacm.1) fun h => h hacm.2)]
    cases usbCdcOpenFunctional m descriptorEnd fuel (m.next d) 9 with
    | none => rfl
    | some p =>
      dsimp only [Option.map_some, usbCdcOpenRest]
      generalize usbCdcOpenNotification drv m (drv.visit s d) p.1 p.2 = n
      obtain ⟨_ | _, s', d', len'⟩ := n
      · rfl
      · generalize hdata : usbCdcOpenData drv m s' d' len' = q
        obtain ⟨_ | _, s'', len''⟩ := q
        · simp [hdata]
        · simp [hdata]
  · have hnot : m.bInterfaceClass d ≠ usbClassCdc ∨
        m.bInterfaceSubClass d ≠ cdcCommSubclassAbstractControlModel := not_and_or.mp hacm
    rw [if_neg hacm, if_pos hnot]

theorem usbResetConfigurationLoop_eq {descriptorEnd fuel : ℕ} {s : σ} {d : ℕ} :
    usbResetConfigurationLoop drv m descriptorEnd (fuel + 1) s d =
      if descriptorEnd ≤ d then some (true, s)
      else if m.bDescriptorType (skipAssociation m d) = usbDescriptorTypeInterface ∧
          AcmInterface m (skipAssociation m d) then
        (usbCdcOpen drv m fuel s (skipAssociation m d)
          (sub16 descriptorEnd (skipAssociation m d))).bind fun p =>
            if p.1 = 0 then some (false, p.2)
            else usbResetConfigurationLoop drv m descriptorEnd fuel p.2
              (skipAssociation m d + 2 * p.1)
      else some (false, s) := by
  rw [usbResetConfigurationLoop]
  dsimp only
  rw [show (if m.bDescriptorType d = usbDescriptorTypeInterfaceAssociation then m.next d else d) =
    skipAssociation m d from rfl]
  by_cases hend : descriptorEnd ≤ d
  · rw [if_pos hend, if_pos hend]
  · rw [if_neg hend, if_neg hend]
    by_cases htype : m.bDescriptorType (skipAssociation m d) = usbDescriptorTypeInterface
    · rw [if_neg (not_not.mpr htype)]
      by_cases hacm : AcmInterface m (skipAssociation m d)
      · rw [if_pos (show _ ∧ _ from hacm), if_pos ⟨htype, hacm⟩]
        cases usbCdcOpen drv m fuel s (skipAssociation m d)
            (sub16 descriptorEnd (skipAssociation m d)) with
        | none => rfl
        | some p => rfl
      · rw [if_neg (show ¬(_ ∧ _) from hacm), if_neg (fun hc => hacm hc.2)]
    · rw [if_pos htype, if_neg (fun hc => htype hc.1)]

variable {P Q : σ → Prop}

/-! ### What every operation keeps, the walk keeps -/

theorem usbEpOpenInOutPairLoop_keeps (hQ : KeepsOpened drv Q) (transferType : ℕ) :
    ∀ {n : ℕ} {s : σ} {d : ℕ}, Q s → Q (usbEpOpenInOutPairLoop drv m transferType n s d).2 := by
  intro n
  induction n with
  | zero => exact fun h => h
  | succ n ih =>
    intro s d h
    simp only [usbEpOpenInOutPairLoop]
    split
    · exact h
    · have hopen := hQ.epOpenHal s d h
      generalize drv.epOpenHal s d = p at hopen
      obtain ⟨ok, s'⟩ := p
      cases ok with
      | false => exact hopen
      | true =>
        refine ih ?_
        split
        · exact hQ.setEpAddrIn _ _ hopen
        · exact hQ.setEpAddrOut _ _ hopen

theorem usbCdcOpenNotification_keeps (hQ : KeepsOpened drv Q) {s : σ} {d n : ℕ} (h : Q s) :
    Q (usbCdcOpenNotification drv m s d n).2.1 := by
  simp only [usbCdcOpenNotification]
  split
  · have hopen := hQ.epOpenHal s d h
    generalize drv.epOpenHal s d = p at hopen
    obtain ⟨ok, s'⟩ := p
    cases ok with
    | false => exact hopen
    | true => exact hopen
  · exact h

theorem usbCdcOpenData_keeps (hQ : KeepsOpened drv Q) {s : σ} {d n : ℕ} (h : Q s) :
    Q (usbCdcOpenData drv m s d n).2.1 := by
  unfold usbCdcOpenData
  split
  · have hpair : Q (usbEpOpenInOutPair drv m usbEpTypeBulk s (m.next d)).2 :=
      usbEpOpenInOutPairLoop_keeps hQ usbEpTypeBulk h
    dsimp only
    generalize usbEpOpenInOutPair drv m usbEpTypeBulk s (m.next d) = p at hpair
    obtain ⟨ok, s'⟩ := p
    cases ok with
    | false => exact hpair
    | true => exact hpair
  · exact h

theorem usbCdcOpenRest_keeps (hQ : KeepsOpened drv Q) {n : Bool × σ × ℕ × ℕ} (h : Q n.2.1) :
    Q (usbCdcOpenRest drv m n).2 := by
  have hdata := usbCdcOpenData_keeps (m := m) hQ (d := n.2.2.1) (n := n.2.2.2) h
  simp only [usbCdcOpenRest]
  split
  · split
    · exact hQ.cdcReadEp _ hdata
    · exact hdata
  · exact h

theorem usbCdcOpen_keeps (hQ : KeepsOpened drv Q) {fuel : ℕ} {s : σ} {d descriptorEnd : ℕ}
    {r : ℕ × σ} (h : Q s) (hr : usbCdcOpen drv m fuel s d descriptorEnd = some r) : Q r.2 := by
  rw [usbCdcOpen_eq] at hr
  split at hr
  · obtain ⟨p, -, rfl⟩ := Option.map_eq_some_iff.mp hr
    exact usbCdcOpenRest_keeps hQ (usbCdcOpenNotification_keeps hQ (hQ.visit s d h))
  · cases hr
    exact hQ.visit s d h

theorem usbResetConfigurationLoop_keeps (hQ : KeepsOpened drv Q) {descriptorEnd : ℕ} :
    ∀ {fuel : ℕ} {s : σ} {d : ℕ} {r : Bool × σ}, Q s →
      usbResetConfigurationLoop drv m descriptorEnd fuel s d = some r → Q r.2 := by
  intro fuel
  induction fuel with
  | zero => exact fun _ hr => nomatch hr
  | succ fuel ih =>
    intro s d r h hr
    rw [usbResetConfigurationLoop_eq] at hr
    split at hr
    · cases hr
      exact h
    · split at hr
      · obtain ⟨p, hp, hrest⟩ := Option.bind_eq_some_iff.mp hr
        have hs := usbCdcOpen_keeps hQ h hp
        split at hrest
        · cases hrest
          exact hs
        · exact ih hs hrest
      · cases hr
        exact h

theorem usbResetConfiguration_keeps (hQ : KeepsOpened drv Q) {fuel : ℕ} {s : σ} {r : Bool × σ}
    (h : Q s) (hr : usbResetConfiguration drv m fuel s = some r) : Q r.2 := by
  simp only [usbResetConfiguration] at hr
  split at hr
  · cases hr
    exact h
  · exact usbResetConfigurationLoop_keeps hQ (hQ.setPower _ _ h) hr

/-! ### Up to the first endpoint the walks agree -/

/-- A part of the walk and the same part up to the first endpoint: either no endpoint was met and
they agree, or the first one was refused and the part has stopped there, or it took a slot. -/
def Follows {α : Type*} (P Q : σ → Prop) (takes : ℕ → Prop) (stop : α) (p : α × Option ℕ)
    (r : α × σ) : Prop :=
  p.2 = none ∧ r.1 = p.1 ∧ P r.2 ∨
    ∃ d, p = (stop, some d) ∧ (¬takes d ∧ r.1 = stop ∧ P r.2 ∨ takes d ∧ Q r.2)

/-- The endpoints that take a slot when they are the first, whether they are opened or not; all
others are refused. -/
structure TakesFirst (drv : ConfigDriver σ) (P Q : σ → Prop) (takes : ℕ → Prop) : Prop where
  slot : ∀ s d, P s → takes d → Q (drv.epOpenHal s d).2
  refused : ∀ s d, P s → ¬takes d → (drv.epOpenHal s d).1 = false ∧ P (drv.epOpenHal s d).2

variable {takes : ℕ → Prop} (hP : KeepsClosed drv P) (hQ : KeepsOpened drv Q)
  (hfirst : TakesFirst drv P Q takes)

include hQ hfirst

theorem usbEpOpenInOutPair_follows (transferType : ℕ) {s : σ} {d : ℕ} (h : P s) :
    Follows P Q takes false (usbEpOpenInOutPair firstOpen m transferType none d)
      (usbEpOpenInOutPair drv m transferType s d) := by
  have hslot := hfirst.slot s d h
  have hrefused := hfirst.refused s d h
  simp only [usbEpOpenInOutPair]
  rw [usbEpOpenInOutPairLoop, usbEpOpenInOutPairLoop]
  by_cases hendpoint : m.bDescriptorType d ≠ usbDescriptorTypeEndpoint ∨ m.epType d ≠ transferType
  · rw [if_pos hendpoint, if_pos hendpoint]
    exact .inl ⟨rfl, rfl, h⟩
  · rw [if_neg hendpoint, if_neg hendpoint]
    refine .inr ⟨d, rfl, ?_⟩
    generalize drv.epOpenHal s d = p at hslot hrefused
    obtain ⟨ok, s'⟩ := p
    by_cases htakes : takes d
    · refine .inr ⟨htakes, ?_⟩
      have hq : Q s' := hslot htakes
      cases ok with
      | false => exact hq
      | true =>
        refine usbEpOpenInOutPairLoop_keeps hQ transferType ?_
        split
        · exact hQ.setEpAddrIn _ _ hq
        · exact hQ.setEpAddrOut _ _ hq
    · obtain ⟨hok, hs'⟩ := hrefused htakes
      dsimp only at hok
      subst hok
      exact .inl ⟨htakes, rfl, hs'⟩

omit hQ in
theorem usbCdcOpenNotification_follows {s : σ} {d n : ℕ} (h : P s) :
    Follows P Q takes false
        ((usbCdcOpenNotification firstOpen m none d n).1,
          (usbCdcOpenNotification firstOpen m none d n).2.1)
        ((usbCdcOpenNotification drv m s d n).1, (usbCdcOpenNotification drv m s d n).2.1) ∧
      ((usbCdcOpenNotification firstOpen m none d n).2.1 = none →
        (usbCdcOpenNotification drv m s d n).2.2 =
          (usbCdcOpenNotification firstOpen m none d n).2.2) := by
  have hslot := hfirst.slot s d h
  have hrefused := hfirst.refused s d h
  simp only [usbCdcOpenNotification]
  by_cases hendpoint : m.bDescriptorType d = usbDescriptorTypeEndpoint
  · rw [if_pos hendpoint, if_pos hendpoint]
    refine ⟨.inr ⟨d, rfl, ?_⟩, fun hnone => absurd hnone (Option.some_ne_none _)⟩
    generalize drv.epOpenHal s d = p at hslot hrefused
    obtain ⟨ok, s'⟩ := p
    by_cases htakes : takes d
    · refine .inr ⟨htakes, ?_⟩
      cases ok with
      | false => exact hslot htakes
      | true => exact hslot htakes
    · obtain ⟨hok, hs'⟩ := hrefused htakes
      dsimp only at hok
      subst hok
      exact .inl ⟨htakes, rfl, hs'⟩
  · rw [if_neg hendpoint, if_neg hendpoint]
    exact ⟨.inl ⟨rfl, rfl, h⟩, fun _ => rfl⟩

theorem usbCdcOpenData_follows {s : σ} {d n : ℕ} (h : P s) :
    Follows P Q takes false
        ((usbCdcOpenData firstOpen m none d n).1, (usbCdcOpenData firstOpen m none d n).2.1)
        ((usbCdcOpenData drv m s d n).1, (usbCdcOpenData drv m s d n).2.1) ∧
      ((usbCdcOpenData firstOpen m none d n).2.1 = none →
        (usbCdcOpenData drv m s d n).2.2 = (usbCdcOpenData firstOpen m none d n).2.2) := by
  have hpair := usbEpOpenInOutPair_follows (m := m) hQ hfirst usbEpTypeBulk (d := m.next d) h
  unfold usbCdcOpenData
  by_cases hdata : m.bDescriptorType d = usbDescriptorTypeInterface ∧
      m.bInterfaceClass d = usbClassCdcData
  · rw [if_pos hdata, if_pos hdata]
    dsimp only
    generalize usbEpOpenInOutPair firstOpen m usbEpTypeBulk none (m.next d) = p at hpair
    generalize usbEpOpenInOutPair drv m usbEpTypeBulk s (m.next d) = r at hpair
    obtain ⟨okp, first⟩ := p
    obtain ⟨okr, s'⟩ := r
    rcases hpair with ⟨hnone, hok, hs'⟩ | ⟨d', hp, hr⟩
    · dsimp only at hok hnone hs'
      subst hok hnone
      cases okr with
      | false => exact ⟨.inl ⟨rfl, rfl, hs'⟩, fun _ => rfl⟩
      | true => exact ⟨.inl ⟨rfl, rfl, hs'⟩, fun _ => rfl⟩
    · cases hp
      refine ⟨.inr ⟨d', rfl, ?_⟩, fun hnone => absurd hnone (Option.some_ne_none _)⟩
      cases okr with
      | false => exact hr
      | true => exact hr
  · rw [if_neg hdata, if_neg hdata]
    exact ⟨.inl ⟨rfl, rfl, h⟩, fun _ => rfl⟩

include hP

theorem usbCdcOpenRest_follows {np : Bool × Option ℕ × ℕ × ℕ} {nr : Bool × σ × ℕ × ℕ}
    (hn : Follows P Q takes false (np.1, np.2.1) (nr.1, nr.2.1))
    (hlen : np.2.1 = none → nr.2.2 = np.2.2) :
    Follows P Q takes 0 (usbCdcOpenRest firstOpen m np) (usbCdcOpenRest drv m nr) := by
  rcases hn with ⟨hnone, hok, hs⟩ | ⟨d', hp, hr⟩
  · replace hlen := hlen hnone
    obtain ⟨okp, first, rest⟩ := np
    obtain ⟨okr, s, rest'⟩ := nr
    dsimp only at hnone hok hs hlen
    subst hnone hok hlen
    simp only [usbCdcOpenRest]
    cases okr with
    | false => exact .inl ⟨rfl, rfl, hs⟩
    | true =>
      obtain ⟨hdata, hdatalen⟩ := usbCdcOpenData_follows (m := m) hQ hfirst (d := rest'.1)
        (n := rest'.2) hs
      rw [if_pos rfl, if_pos rfl]
      rcases hdata with ⟨hnone, hok, hs'⟩ | ⟨d', hp, hr⟩
      · dsimp only at hok hnone hs'
        rw [hok, hdatalen hnone]
        split
        · exact .inl ⟨hnone, rfl, hP.cdcReadEp _ hs'⟩
        · exact .inl ⟨hnone, rfl, hs'⟩
      · obtain ⟨hfalse, hmet⟩ := Prod.ext_iff.mp hp
        dsimp only at hfalse hmet hr
        rw [hfalse, if_neg Bool.false_ne_true]
        refine .inr ⟨d', Prod.ext rfl hmet, ?_⟩
        rcases hr with ⟨htakes, hstop, hs'⟩ | ⟨htakes, hq⟩
        · rw [hstop, if_neg Bool.false_ne_true]
          exact .inl ⟨htakes, rfl, hs'⟩
        · refine .inr ⟨htakes, ?_⟩
          split
          · exact hQ.cdcReadEp _ hq
          · exact hq
  · obtain ⟨hfalse, hmet⟩ := Prod.ext_iff.mp hp
    dsimp only at hfalse hmet hr
    have hstop : usbCdcOpenRest firstOpen m np = (0, some d') := by
      simp only [usbCdcOpenRest]
      rw [hfalse, hmet, if_neg Bool.false_ne_true]
    refine .inr ⟨d', hstop, ?_⟩
    rcases hr with ⟨htakes, hstopr, hs'⟩ | ⟨htakes, hq⟩
    · have hrest : usbCdcOpenRest drv m nr = (0, nr.2.1) := by
        simp only [usbCdcOpenRest]
        rw [hstopr, if_neg Bool.false_ne_true]
      rw [hrest]
      exact .inl ⟨htakes, rfl, hs'⟩
    · exact .inr ⟨htakes, usbCdcOpenRest_keeps hQ hq⟩

theorem usbCdcOpen_follows {fuel : ℕ} {s : σ} {d descriptorEnd : ℕ} {r : ℕ × σ} (h : P s)
    (hr : usbCdcOpen drv m fuel s d descriptorEnd = some r) :
    ∃ p, usbCdcOpen firstOpen m fuel none d descriptorEnd = some p ∧ Follows P Q takes 0 p r := by
  rw [usbCdcOpen_eq] at hr ⊢
  by_cases hacm : AcmInterface m d
  · rw [if_pos hacm] at hr ⊢
    obtain ⟨q, hq, rfl⟩ := Option.map_eq_some_iff.mp hr
    rw [hq]
    refine ⟨_, rfl, ?_⟩
    obtain ⟨hn, hlen⟩ := usbCdcOpenNotification_follows (m := m) hfirst (d := q.1) (n := q.2)
      (hP.visit s d h)
    exact usbCdcOpenRest_follows hP hQ hfirst hn hlen
  · rw [if_neg hacm] at hr ⊢
    cases hr
    exact ⟨(0, none), rfl, .inl ⟨rfl, rfl, hP.visit s d h⟩⟩

theorem usbResetConfigurationLoop_follows {descriptorEnd : ℕ} :
    ∀ {fuel : ℕ} {s : σ} {d : ℕ} {r : Bool × σ}, P s →
      usbResetConfigurationLoop drv m descriptorEnd fuel s d = some r →
      ∃ p, usbResetConfigurationLoop firstOpen m descriptorEnd fuel none d = some p ∧
        Follows P Q takes false p r := by
  intro fuel
  induction fuel with
  | zero => exact fun _ hr => nomatch hr
  | succ fuel ih =>
    intro s d r h hr
    rw [usbResetConfigurationLoop_eq] at hr ⊢
    by_cases hend : descriptorEnd ≤ d
    · rw [if_pos hend] at hr ⊢
      cases hr
      exact ⟨(true, none), rfl, .inl ⟨rfl, rfl, h⟩⟩
    · rw [if_neg hend] at hr ⊢
      by_cases hacm : m.bDescriptorType (skipAssociation m d) = usbDescriptorTypeInterface ∧
          AcmInterface m (skipAssociation m d)
      · rw [if_pos hacm] at hr ⊢
        obtain ⟨q, hq, hrest⟩ := Option.bind_eq_some_iff.mp hr
        obtain ⟨p, hp, hfollows⟩ := usbCdcOpen_follows hP hQ hfirst h hq
        rw [hp, Option.bind_some]
        rcases hfollows with ⟨hnone, hlen, hs⟩ | ⟨d', rfl, hcase⟩
        · obtain ⟨len, first⟩ := p
          dsimp only at hnone hlen ⊢
          subst hnone hlen
          by_cases hzero : q.1 = 0
          · rw [if_pos hzero] at hrest ⊢
            cases hrest
            exact ⟨(false, none), rfl, .inl ⟨rfl, rfl, hs⟩⟩
          · rw [if_neg hzero] at hrest ⊢
            exact ih hs hrest
        · refine ⟨(false, some d'), rfl, .inr ⟨d', rfl, ?_⟩⟩
          rcases hcase with ⟨htakes, hstop, hs⟩ | ⟨htakes, hq'⟩
          · rw [if_pos hstop] at hrest
            cases hrest
            exact .inl ⟨htakes, rfl, hs⟩
          · refine .inr ⟨htakes, ?_⟩
            split at hrest
            · cases hrest
              exact hq'
            · exact usbResetConfigurationLoop_keeps hQ hq' hrest
      · rw [if_neg hacm] at hr ⊢
        cases hr
        exact ⟨(false, none), rfl, .inl ⟨rfl, rfl, h⟩⟩

/-- **The walk and the walk up to the first endpoint.** -/
theorem usbResetConfiguration_follows {fuel : ℕ} {s : σ} {r : Bool × σ} (h : P s)
    (hr : usbResetConfiguration drv m fuel s = some r) :
    ∃ p, usbResetConfiguration firstOpen m fuel none = some p ∧ Follows P Q takes false p r := by
  simp only [usbResetConfiguration] at hr ⊢
  by_cases htype : m.bDescriptorType 0 ≠ usbDescriptorTypeConfiguration
  · rw [if_pos htype] at hr ⊢
    cases hr
    exact ⟨(false, none), rfl, .inl ⟨rfl, rfl, h⟩⟩
  · rw [if_neg htype] at hr ⊢
    exact usbResetConfigurationLoop_follows hP hQ hfirst (hP.setPower _ _ h) hr

end Walk

/-! ### The device before the first endpoint and after it -/

/-- Slot 0 is EP0's, the others are unassigned, and the CDC interface has the addresses `a`
and `b`. -/
structure NothingOpen (a b : Byte) (s : Usb) : Prop where
  free : FreeFrom 1 s
  ep0 : Ep0Assigned s
  epAddrIn : s.usbCdc.epAddrIn = a
  epAddrOut : s.usbCdc.epAddrOut = b

/-- Some endpoint other than EP0 is assigned. -/
def SomeAssigned (s : Usb) : Prop :=
  ∃ i dirIdx, 1 ≤ i ∧ i < usbEpMax ∧ (s.epAssignment i).assigned dirIdx = true

theorem NothingOpen.congr {a b : Byte} {s s' : Usb} (h : NothingOpen a b s)
    (htable : s'.epAssignment = s.epAssignment) (hcdc : s'.usbCdc = s.usbCdc) :
    NothingOpen a b s' where
  free := fun i hi hi' => (congrFun htable i).trans (h.free i hi hi')
  ep0 := h.ep0.of_table htable
  epAddrIn := (congrArg UsbCdc.epAddrIn hcdc).trans h.epAddrIn
  epAddrOut := (congrArg UsbCdc.epAddrOut hcdc).trans h.epAddrOut

theorem usbCdcReadEp_tables (s : Usb) :
    (usbCdcReadEp s).2.epAssignment = s.epAssignment ∧ (usbCdcReadEp s).2.usbCdc = s.usbCdc := by
  simp only [usbCdcReadEp]
  split_ifs
  · exact ⟨rfl, rfl⟩
  · exact usbEpQueueTransfer_tables ..
  · exact ⟨rfl, rfl⟩

section Device

variable (m : DescriptorMemory)

theorem keepsClosed_nothingOpen (a b : Byte) :
    KeepsClosed (usbConfigDriver m) (NothingOpen a b) where
  setPower := fun _ _ h => h.congr rfl rfl
  visit := fun _ _ h => h
  cdcReadEp := fun s h => h.congr (usbCdcReadEp_tables s).1 (usbCdcReadEp_tables s).2

theorem keepsOpened_someAssigned : KeepsOpened (usbConfigDriver m) SomeAssigned where
  setPower := fun _ _ h => h
  visit := fun _ _ h => h
  epOpenHal := fun s _ ⟨i, dirIdx, hi, hi', h⟩ =>
    ⟨i, dirIdx, hi, hi', usbEpOpenHal_assigned s _ h⟩
  setEpAddrIn := fun _ _ h => h
  setEpAddrOut := fun _ _ h => h
  cdcReadEp := by
    rintro s ⟨i, dirIdx, hi, hi', h⟩
    refine ⟨i, dirIdx, hi, hi', ?_⟩
    show ((usbCdcReadEp s).2.epAssignment i).assigned dirIdx = true
    rw [(usbCdcReadEp_tables s).1]
    exact h

/-- The endpoint is the control endpoint, which is open already. -/
def EpDescriptor.IsEp0 (d : EpDescriptor) : Prop := d.type = usbEpTypeControl ∧ d.epIdn = 0

instance (d : EpDescriptor) : Decidable d.IsEp0 := inferInstanceAs (Decidable (_ ∧ _))

variable {m}

theorem NothingOpen.offers_ep0 {a b : Byte} {s : Usb} (h : NothingOpen a b s) (d : EpDescriptor) :
    (s.epAssignment 0).offers d.epIdn d.dirIdx d.type = true ↔ d.IsEp0 := by
  have hserves : (s.epAssignment 0).serves d.epIdn d.dirIdx d.type = true ↔ d.IsEp0 := by
    rw [EpAssignment.serves_iff, h.ep0.assigned d, h.ep0.epType, h.ep0.epIdn]
    exact ⟨fun hd => ⟨hd.2.1.symm, hd.2.2.symm⟩, fun hd => ⟨rfl, hd.1.symm, hd.2.symm⟩⟩
  constructor
  · exact fun hoffers => hserves.mp (h.ep0.serves_of_offers hoffers)
  · intro hd
    rw [EpAssignment.offers, hserves.mpr hd, Bool.true_or]

theorem NothingOpen.slotFound_one {a b : Byte} {s : Usb} (h : NothingOpen a b s)
    {d : EpDescriptor} (hd : ¬d.IsEp0) : SlotFound s d.bEndpointAddress d.type 1 where
  lt := by decide
  offers := by
    rw [h.free 1 le_rfl (by decide), EpAssignment.offers, accepts_reset, Bool.or_true]
  before := by
    intro j hj
    obtain rfl : j = 0 := by omega
    exact Bool.eq_false_iff.mpr fun hoffers => hd ((h.offers_ep0 d).mp hoffers)

theorem NothingOpen.slotFound_zero {a b : Byte} {s : Usb} (h : NothingOpen a b s)
    {d : EpDescriptor} (hd : d.IsEp0) : SlotFound s d.bEndpointAddress d.type 0 where
  lt := by decide
  offers := (h.offers_ep0 d).mpr hd
  before := fun j hj => absurd hj (Nat.not_lt_zero j)

theorem NothingOpen.someAssigned_open {a b : Byte} {s : Usb} (h : NothingOpen a b s)
    {d : EpDescriptor} (hd : ¬d.IsEp0) : SomeAssigned (usbEpOpenHal s d).2 := by
  have hslot := h.slotFound_one hd
  have htaken : ((takeSlot s d 1).epAssignment 1).assigned d.dirIdx = true := by
    rw [takeSlot_self, EpAssignment.take_assigned, decide_eq_true rfl, Bool.true_or]
  refine ⟨1, d.dirIdx, le_rfl, by decide, ?_⟩
  cases htype : usbEpOpenType d.type with
  | none =>
    rw [usbEpOpenHal_unsupported hslot htype]
    exact htaken
  | some typeBits =>
    rw [usbEpOpenHal_opened hslot htype]
    exact htaken

theorem NothingOpen.open_ep0 {a b : Byte} {s : Usb} (h : NothingOpen a b s) {d : EpDescriptor}
    (hd : d.IsEp0) : usbEpOpenHal s d = (false, s) := by
  have hslot := h.slotFound_zero hd
  rw [usbEpOpenHal_unsupported hslot (by rw [hd.1]; decide), takeSlot,
    EpAssignment.take_of_serves (h.ep0.serves_of_offers hslot.offers), Usb.setAssignment,
    Function.update_eq_self]

theorem takesFirst_device (a b : Byte) :
    TakesFirst (usbConfigDriver m) (NothingOpen a b) SomeAssigned
      (fun d => ¬(m.epDescriptor d).IsEp0) where
  slot := fun _ _ h hd => h.someAssigned_open hd
  refused := by
    intro s d h hd
    have hopen : (usbConfigDriver m).epOpenHal s d = (false, s) := h.open_ep0 (not_not.mp hd)
    rw [hopen]
    exact ⟨rfl, h⟩

/-- The first endpoint descriptor the walk over the table asks to open. -/
def firstEndpoint (m : DescriptorMemory) (fuel : ℕ) : Option ℕ :=
  (usbResetConfiguration firstOpen m fuel none).bind Prod.snd

/-- After a failed walk an endpoint is assigned exactly if one was met and it is not EP0. -/
theorem usbResetConfiguration_failed {a b : Byte} {fuel : ℕ} {s s' : Usb} (h : NothingOpen a b s)
    (hr : usbResetConfiguration (usbConfigDriver m) m fuel s = some (false, s')) :
    NothingOpen a b s' ∧ (∀ d, firstEndpoint m fuel = some d → (m.epDescriptor d).IsEp0) ∨
      SomeAssigned s' ∧ ∃ d, firstEndpoint m fuel = some d ∧ ¬(m.epDescriptor d).IsEp0 := by
  obtain ⟨p, hp, hfollows⟩ := usbResetConfiguration_follows (keepsClosed_nothingOpen m a b)
    (keepsOpened_someAssigned m) (takesFirst_device a b) h hr
  have hfirst : firstEndpoint m fuel = p.2 := by rw [firstEndpoint, hp, Option.bind_some]
  rcases hfollows with ⟨hnone, -, hs'⟩ | ⟨d, rfl, ⟨hd, -, hs'⟩ | ⟨hd, hs'⟩⟩
  · refine .inl ⟨hs', fun d hd => ?_⟩
    rw [hfirst, hnone] at hd
    cases hd
  · refine .inl ⟨hs', fun d' hd' => ?_⟩
    rw [hfirst] at hd'
    cases hd'
    exact not_not.mp hd
  · exact .inr ⟨hs', d, hfirst, hd⟩

end Device

/-! ### SET_CONFIGURATION over any table -/

/-- `usb_set_configuration` over the table `m`, with a bound on the steps of the walk. -/
def usbSetConfigurationFrom (m : DescriptorMemory) (fuel : ℕ) (s : Usb)
    (request : UsbControlRequest) : Option (Bool × Usb) :=
  let configNum := u16Low request.wValue
  if s.usbDevice.configNum ≠ configNum then
    let s := usbConfigurationReset (usbEpCloseAll s)
    let s := s.setDevice { s.usbDevice with configNum := configNum }
    if configNum ≠ 0#8 then
      (usbResetConfiguration (usbConfigDriver m) m fuel s).map fun p =>
        if p.1 then usbControlInitStatusStage p.2 request
        else (false, p.2.setDevice { p.2.usbDevice with configNum := 0#8 })
    else some (usbControlInitStatusStage s request)
  else some (usbControlInitStatusStage s request)

/-- Over the firmware's table this is the request handler of the device. -/
theorem usbSetConfigurationFrom_configurationMemory (s : Usb) (r : UsbControlRequest) :
    usbSetConfigurationFrom configurationMemory 8 s r = some (usbSetConfiguration s r) := by
  simp only [usbSetConfigurationFrom, usbSetConfiguration]
  by_cases hne : s.usbDevice.configNum ≠ u16Low r.wValue
  · rw [if_pos hne, if_pos hne]
    by_cases hzero : u16Low r.wValue ≠ 0#8
    · rw [if_pos hzero, if_pos hzero]
      obtain ⟨s', hres, -⟩ := configured_walk hne
      have hwalk : usbResetConfiguration (usbConfigDriver configurationMemory)
          configurationMemory 8 (tornDown s (u16Low r.wValue)) = some (true, s') := by
        have hgetD := hres
        simp only [usbResetConfigurationDevice] at hgetD
        cases hopt : usbResetConfiguration (usbConfigDriver configurationMemory)
            configurationMemory 8 (tornDown s (u16Low r.wValue)) with
        | none =>
          rw [hopt, Option.getD_none] at hgetD
          cases hgetD
        | some p =>
          rw [hopt, Option.getD_some] at hgetD
          rw [hgetD]
      simp only [tornDown] at hres hwalk
      rw [hres, hwalk]
      rfl
    · rw [if_neg hzero, if_neg hzero]
  · rw [if_neg hne, if_neg hne]

/-- A rejection comes from the walk, which starts in the torn-down state. -/
theorem usbSetConfigurationFrom_rejected {m : DescriptorMemory} {fuel : ℕ} {s s' : Usb}
    {r : UsbControlRequest} (h : usbSetConfigurationFrom m fuel s r = some (false, s')) :
    ∃ s'', usbResetConfiguration (usbConfigDriver m) m fuel (tornDown s (u16Low r.wValue)) =
        some (false, s'') ∧
      s' = s''.setDevice { s''.usbDevice with configNum := 0#8 } := by
  have hstatus : ∀ s₁ : Usb, some (usbControlInitStatusStage s₁ r) ≠ some (false, s') := by
    intro s₁ heq
    have hfst := usbControlInitStatusStage_fst s₁ r
    rw [Option.some.inj heq] at hfst
    cases hfst
  simp only [usbSetConfigurationFrom] at h
  split at h
  · split at h
    · obtain ⟨p, hp, hres⟩ := Option.map_eq_some_iff.mp h
      obtain ⟨ok, s''⟩ := p
      cases ok with
      | false => exact ⟨s'', hp, (Prod.ext_iff.mp hres).2.symm⟩
      | true => exact absurd (congrArg some hres) (hstatus s'')
    · exact absurd h (hstatus _)
  · exact absurd h (hstatus _)

theorem nothingOpen_tornDown {s : Usb} (h : Ep0Assigned s) (configNum : Byte) :
    NothingOpen s.usbCdc.epAddrIn s.usbCdc.epAddrOut (tornDown s configNum) where
  free := freeFrom_tornDown s configNum
  ep0 := (h.of_same ((closedAt_usbEpCloseAll s).ep0Same (by decide))).of_same
    ⟨rfl, fun _ _ => rfl, rfl, rfl⟩
  epAddrIn := by
    show (usbEpCloseAll s).usbCdc.epAddrIn = s.usbCdc.epAddrIn
    rw [(closedAt_usbEpCloseAll s).usbCdc]
  epAddrOut := by
    show (usbEpCloseAll s).usbCdc.epAddrOut = s.usbCdc.epAddrOut
    rw [(closedAt_usbEpCloseAll s).usbCdc]

/-- EP0 keeps its slot whatever the table opens. -/
theorem keepsOpened_ep0Assigned (m : DescriptorMemory) :
    KeepsOpened (usbConfigDriver m) Ep0Assigned where
  setPower := fun _ _ h => h.of_same ⟨rfl, fun _ _ => rfl, rfl, rfl⟩
  visit := fun _ _ h => h
  epOpenHal := fun _ d h => h.usbEpOpenHal (m.epDescriptor d)
  setEpAddrIn := fun _ _ h => h.of_same ⟨rfl, fun _ _ => rfl, rfl, rfl⟩
  setEpAddrOut := fun _ _ h => h.of_same ⟨rfl, fun _ _ => rfl, rfl, rfl⟩
  cdcReadEp := fun s h => h.of_table (usbCdcReadEp_tables s).1

theorem ep0Assigned_usbControlInitStatusStage {s : Usb} (h : Ep0Assigned s)
    (r : UsbControlRequest) : Ep0Assigned (usbControlInitStatusStage s r).2 := by
  simp only [usbControlInitStatusStage, usbControlStatusStage]
  split
  · exact h.of_table (usbEpQueueTransfer_tables ..).1
  · exact h.of_table (usbEpQueueTransfer_tables ..).1

/-- Every prior configuration has left EP0 its slot. -/
theorem ep0Assigned_usbSetConfigurationFrom {m : DescriptorMemory} {fuel : ℕ} {s : Usb}
    {r : UsbControlRequest} {p : Bool × Usb} (h : Ep0Assigned s)
    (hp : usbSetConfigurationFrom m fuel s r = some p) : Ep0Assigned p.2 := by
  have hdown : Ep0Assigned (tornDown s (u16Low r.wValue)) := (nothingOpen_tornDown h _).ep0
  simp only [usbSetConfigurationFrom] at hp
  split at hp
  · split at hp
    · obtain ⟨⟨ok, s'⟩, hwalk, rfl⟩ := Option.map_eq_some_iff.mp hp
      have hs' : Ep0Assigned s' := usbResetConfiguration_keeps (keepsOpened_ep0Assigned m) hdown hwalk
      cases ok with
      | false => exact hs'.of_same ⟨rfl, fun _ _ => rfl, rfl, rfl⟩
      | true => exact ep0Assigned_usbControlInitStatusStage hs' r
    · cases hp
      exact ep0Assigned_usbControlInitStatusStage hdown r
  · cases hp
    exact ep0Assigned_usbControlInitStatusStage h r

/-- No configuration is in force: its number is 0, no endpoint other than EP0 is assigned, and
the CDC interface has no endpoint addresses. -/
structure NoConfiguration (s : Usb) : Prop where
  configNum : s.usbDevice.configNum = 0#8
  assigned : ∀ i dirIdx, 1 ≤ i → i < usbEpMax → (s.epAssignment i).assigned dirIdx = false
  epAddrIn : s.usbCdc.epAddrIn = 0#8
  epAddrOut : s.usbCdc.epAddrOut = 0#8

/-- The endpoint table, the packet memory allocator and the transfer records are the same. -/
structure SameTables (s s' : Usb) : Prop where
  epAssignment : s'.epAssignment = s.epAssignment
  usbPmaNextAvailable : s'.usbPmaNextAvailable = s.usbPmaNextAvailable
  epTransferSet : s'.epTransferSet = s.epTransferSet

theorem noConfiguration_of_rejected_iff {m : DescriptorMemory} {fuel : ℕ} {s s' : Usb}
    {r : UsbControlRequest} (h0 : Ep0Assigned s)
    (h : usbSetConfigurationFrom m fuel s r = some (false, s')) :
    NoConfiguration s' ↔ s.usbCdc.epAddrIn = 0#8 ∧ s.usbCdc.epAddrOut = 0#8 ∧
      ∀ d, firstEndpoint m fuel = some d → (m.epDescriptor d).IsEp0 := by
  obtain ⟨s'', hwalk, rfl⟩ := usbSetConfigurationFrom_rejected h
  rcases usbResetConfiguration_failed (nothingOpen_tornDown h0 _) hwalk with
    ⟨hs, hfirst⟩ | ⟨⟨i, dirIdx, hi, hi', hassigned⟩, d, hd, hne⟩
  · constructor
    · exact fun hclean => ⟨hs.epAddrIn.symm.trans hclean.epAddrIn,
        hs.epAddrOut.symm.trans hclean.epAddrOut, hfirst⟩
    · rintro ⟨hin, hout, -⟩
      exact { configNum := rfl
              assigned := fun i dirIdx hi hi' =>
                congrFun (congrArg EpAssignment.assigned (hs.free i hi hi')) dirIdx
              epAddrIn := hs.epAddrIn.trans hin
              epAddrOut := hs.epAddrOut.trans hout }
  · constructor
    · intro hclean
      cases hassigned.symm.trans (hclean.assigned i dirIdx hi hi')
    · exact fun hcond => absurd (hcond.2.2 d hd) hne

theorem sameTables_of_refused_iff {s s' : Usb} {d : EpDescriptor}
    (h : usbEpOpenHal s d = (false, s')) :
    SameTables s s' ↔ ∀ i, SlotFound s d.bEndpointAddress d.type i →
      (s.epAssignment i).serves d.epIdn d.dirIdx d.type = true := by
  have hr := usbEpOpenHal_outcome s d
  rw [h] at hr
  cases hr with
  | noSlot hnone =>
    exact ⟨fun _ i hi => absurd hnone hi.not_noSlot, fun _ => ⟨rfl, rfl, rfl⟩⟩
  | unsupported i hi =>
    constructor
    · intro hsame j hj
      obtain rfl := hj.unique hi
      have hoffers := hi.offers
      rw [EpAssignment.offers, Bool.or_eq_true, EpAssignment.accepts_iff] at hoffers
      rcases hoffers with hserves | ⟨hfree, -⟩
      · exact hserves
      · -- the direction was free, and is assigned now
        have htaken : ((takeSlot s d j).epAssignment j).assigned d.dirIdx = true := by
          rw [takeSlot_self, EpAssignment.take_assigned, decide_eq_true rfl, Bool.true_or]
        rw [hsame.epAssignment] at htaken
        cases htaken.symm.trans hfree
    · intro hserves
      refine ⟨?_, rfl, rfl⟩
      show Function.update s.epAssignment i _ = s.epAssignment
      rw [EpAssignment.take_of_serves (hserves i hi), Function.update_eq_self]

/-- **When a failure leaves nothing behind.**  A rejected SET_CONFIGURATION leaves no
configuration in force exactly when the CDC interface had no endpoint addresses before and the
first endpoint of the table, if the walk meets one, is EP0; a refused endpoint leaves the tables
alone exactly when no slot was taken for it. -/
theorem failure_leaves_nothing_iff (m : DescriptorMemory) (fuel : ℕ) (s s' : Usb)
    (r : UsbControlRequest) (d : EpDescriptor) :
    (Ep0Assigned s → usbSetConfigurationFrom m fuel s r = some (false, s') →
        (NoConfiguration s' ↔ s.usbCdc.epAddrIn = 0#8 ∧ s.usbCdc.epAddrOut = 0#8 ∧
          ∀ d, firstEndpoint m fuel = some d → (m.epDescriptor d).IsEp0)) ∧
      (usbEpOpenHal s d = (false, s') →
        (SameTables s s' ↔ ∀ i, SlotFound s d.bEndpointAddress d.type i →
          (s.epAssignment i).serves d.epIdn d.dirIdx d.type = true)) :=
  ⟨noConfiguration_of_rejected_iff, sameTables_of_refused_iff⟩

/-- A configuration with one CDC-ACM interface whose endpoint is isochronous. -/
def isochronousTable : DescriptorMemory := fun i =>
  [9#8, 0x02#8, 25#8, 0#8, 1#8, 1#8, 0#8, 0x80#8, 50#8,
    9#8, 0x04#8, 0#8, 0#8, 1#8, 0x02#8, 0x02#8, 0#8, 0#8,
    7#8, 0x05#8, 0x81#8, 0x01#8, 8#8, 0#8, 1#8].getD i 0#8

def configureRequest : UsbControlRequest :=
  { bmRequestType := 0x00#8, bRequest := usbStdSetConfiguration, wValue := 1#16, wIndex := 0#16
    wLength := 0#16 }

/-- A CDC-ACM function whose data interface has no endpoints behind it. -/
def pairlessTable : DescriptorMemory := fun i =>
  [9#8, 0x02#8, 41#8, 0#8, 2#8, 1#8, 0#8, 0x80#8, 50#8,
    9#8, 0x04#8, 0#8, 0#8, 0#8, 0x02#8, 0x02#8, 0#8, 0#8,
    5#8, 0x24#8, 0x00#8, 0x10#8, 0x01#8,
    9#8, 0x04#8, 1#8, 0#8, 2#8, 0x0A#8, 0#8, 0#8, 0#8,
    9#8, 0x04#8, 2#8, 0#8, 0#8, 0xFF#8, 0#8, 0#8, 0#8].getD i 0#8

/-- Nothing stays behind where the walk is refused at the data interface, or where EP0 is
refused. -/
theorem pairless_table_leaves_nothing :
    (∃ s', usbSetConfigurationFrom pairlessTable 8 usbBoot configureRequest =
        some (false, s') ∧ NoConfiguration s') ∧
      ∃ s', usbEpOpenHal usbBoot { bEndpointAddress := 0x80#8, type := 0, wMaxPacketSize := 64 } =
        (false, s') ∧ SameTables usbBoot s' := by
  constructor
  · have hrejected : (usbSetConfigurationFrom pairlessTable 8 usbBoot configureRequest).map
        Prod.fst = some false := by decide
    obtain ⟨⟨ok, s'⟩, hres, rfl⟩ := Option.map_eq_some_iff.mp hrejected
    have h0 : Ep0Assigned usbBoot := ⟨by decide, by decide, by decide, by decide⟩
    have hiff := (failure_leaves_nothing_iff pairlessTable 8 usbBoot s' configureRequest
      { bEndpointAddress := 0#8, type := 0, wMaxPacketSize := 0 }).1 h0 hres
    refine ⟨s', hres, hiff.mpr ⟨by decide, by decide, fun d hd => ?_⟩⟩
    have hnone : firstEndpoint pairlessTable 8 = none := by decide
    rw [hnone] at hd
    cases hd
  · have hrefused : (usbEpOpenHal usbBoot
        { bEndpointAddress := 0x80#8, type := 0, wMaxPacketSize := 64 }).1 = false := by decide
    have hiff := (failure_leaves_nothing_iff pairlessTable 8 usbBoot _ configureRequest _).2
      (Prod.ext hrefused rfl)
    refine ⟨_, Prod.ext hrefused rfl, hiff.mpr fun i hi => ?_⟩
    obtain rfl : i = 0 := hi.unique
      { lt := by decide, offers := by decide, before := fun j hj => absurd hj (Nat.not_lt_zero j) }
    decide

/-- The endpoint cannot be opened and the configuration is rejected, but slot 1 stays assigned. -/
theorem isochronous_stays_assigned :
    (∃ s', usbSetConfigurationFrom isochronousTable 8 usbBoot configureRequest =
        some (false, s') ∧ ¬NoConfiguration s') ∧
      ∃ s', usbEpOpenHal usbBoot (isochronousTable.epDescriptor 18) = (false, s') ∧
        ¬SameTables usbBoot s' := by
  constructor
  · have hassigned : (usbSetConfigurationFrom isochronousTable 8 usbBoot configureRequest).map
        (fun p => (p.1, (p.2.epAssignment 1).assigned 1)) = some (false, true) := by decide
    obtain ⟨⟨ok, s'⟩, hres, hp⟩ := Option.map_eq_some_iff.mp hassigned
    obtain ⟨hok, hslot⟩ := Prod.ext_iff.mp hp
    dsimp only at hok hslot
    subst hok
    exact ⟨s', hres, fun h => Bool.false_ne_true
      ((h.assigned 1 1 le_rfl (by decide)).symm.trans hslot)⟩
  · have hassigned : (fun p => (p.1, (p.2.epAssignment 1).assigned 1))
        (usbEpOpenHal usbBoot (isochronousTable.epDescriptor 18)) = (false, true) := by decide
    obtain ⟨hok, hslot⟩ := Prod.ext_iff.mp hassigned
    refine ⟨(usbEpOpenHal usbBoot (isochronousTable.epDescriptor 18)).2, Prod.ext hok rfl, ?_⟩
    intro h
    have hbefore : (usbBoot.epAssignment 1).assigned 1 = false := by decide
    rw [← h.epAssignment] at hbefore
    exact Bool.false_ne_true (hbefore.symm.trans hslot)

end PcbMill
