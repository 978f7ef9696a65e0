import PcbMill.Lib.Run
import PcbMill.Usb.Assignment

/-!
# The endpoint table over whole runs

The search of `usb_ep_assign` takes the first slot that serves an endpoint or can take it.  It
finds the slot of an endpoint again because the slots in use come first in the table and no two
of them have the same number and type: a slot before the right one can neither serve nor take.
-/

namespace PcbMill

open Run

/-- Some direction of the slot is taken. -/
def EpAssignment.Used (a : EpAssignment) : Prop := ∃ dirIdx, a.assigned dirIdx = true

/-- A type of endpoint: any value but the mark of a slot that has none.  The callers pass
`USB_EP_TYPE_CONTROL` and a field of two bits. -/
structure EpType where
  value : ℕ
  ne_unassigned : value ≠ unassignedValue

/-- The slots in use come first, have different endpoint numbers or types, and slot 0 is the
control endpoint's. -/
structure EpTable (s : Usb) : Prop where
  free : ∀ i, i < usbEpMax → ¬ (s.epAssignment i).Used →
    (s.epAssignment i).epIdn = unassignedValue ∧ (s.epAssignment i).epType = unassignedValue
  named : ∀ i, i < usbEpMax → (s.epAssignment i).Used →
    (s.epAssignment i).epIdn ≠ unassignedValue ∧ (s.epAssignment i).epType ≠ unassignedValue
  first : ∀ i j, i < j → j < usbEpMax → (s.epAssignment j).Used → (s.epAssignment i).Used
  pair : ∀ i j, i < usbEpMax → j < usbEpMax → (s.epAssignment i).Used →
    (s.epAssignment j).Used → (s.epAssignment i).epIdn = (s.epAssignment j).epIdn →
    (s.epAssignment i).epType = (s.epAssignment j).epType → i = j
  ep0 : Ep0Assigned s

variable {s : Usb} {a : EpAssignment} {epAddr : Byte} {epIdn dirIdx epType i j : ℕ}

/-! ### What a slot offers -/

theorem usbEpIdn_ne_unassigned (epAddr : Byte) : usbEpIdn epAddr ≠ unassignedValue := by
  revert epAddr
  decide

theorem EpAssignment.used_take : (a.take epIdn dirIdx epType).Used :=
  ⟨dirIdx, by rw [EpAssignment.take_assigned, decide_eq_true rfl, Bool.true_or]⟩

theorem EpAssignment.used_of_serves (h : a.serves epIdn dirIdx epType = true) : a.Used :=
  ⟨dirIdx, (EpAssignment.serves_iff.mp h).1⟩

/-- A slot in use offers itself to its own endpoint number and type only. -/
theorem EpTable.offers_iff (h : EpTable s) (hi : i < usbEpMax) (hused : (s.epAssignment i).Used)
    (epIdn dirIdx epType : ℕ) :
    (s.epAssignment i).offers epIdn dirIdx epType = true ↔
      (s.epAssignment i).epIdn = epIdn ∧ (s.epAssignment i).epType = epType := by
  obtain ⟨hidn, htype⟩ := h.named i hi hused
  rw [EpAssignment.offers, Bool.or_eq_true, EpAssignment.serves_iff, EpAssignment.accepts_iff]
  constructor
  · rintro (⟨_, htype', hidn'⟩ | ⟨_, hidn', htype'⟩)
    · exact ⟨hidn', htype'⟩
    · exact ⟨hidn'.resolve_left hidn, htype'.resolve_left htype⟩
  · rintro ⟨hidn', htype'⟩
    cases hdir : (s.epAssignment i).assigned dirIdx with
    | true => exact .inl ⟨rfl, htype', hidn'⟩
    | false => exact .inr ⟨rfl, .inr hidn', .inr htype'⟩

/-- A slot that is not in use offers itself to every endpoint. -/
theorem EpTable.offers_of_free (h : EpTable s) (hi : i < usbEpMax)
    (hfree : ¬ (s.epAssignment i).Used) (epIdn dirIdx epType : ℕ) :
    (s.epAssignment i).offers epIdn dirIdx epType = true := by
  obtain ⟨hidn, htype⟩ := h.free i hi hfree
  have hdir : (s.epAssignment i).assigned dirIdx = false :=
    Bool.eq_false_iff.mpr fun hdir => hfree ⟨dirIdx, hdir⟩
  rw [EpAssignment.offers, Bool.or_eq_true, EpAssignment.accepts_iff]
  exact .inr ⟨hdir, .inl hidn, .inl htype⟩

/-- The slots before the one that is found are in use. -/
theorem EpTable.used_before (h : EpTable s) (hfound : SlotFound s epAddr epType i) (hj : j < i) :
    (s.epAssignment j).Used := by
  by_contra hfree
  have hoffers := h.offers_of_free (hj.trans hfound.lt) hfree (usbEpIdn epAddr)
    (usbEpDirIdx epAddr) epType
  exact Bool.noConfusion ((hfound.before j hj).symm.trans hoffers)

/-! ### The table after each call -/

/-- A table in which only the slot of EP0 is taken. -/
theorem epTable_of_freeFrom (hfree : FreeFrom 1 s) (h0 : Ep0Assigned s) : EpTable s := by
  have hused : ∀ i, i < usbEpMax → ((s.epAssignment i).Used ↔ i = 0) := by
    intro i hi
    constructor
    · rintro ⟨dirIdx, hdir⟩
      by_contra hne
      rw [hfree i (Nat.pos_of_ne_zero hne) hi] at hdir
      exact Bool.noConfusion hdir
    · rintro rfl
      exact ⟨0, h0.rx⟩
  refine ⟨fun i hi hnot => ?_, fun i hi hin => ?_, fun i j hij hj hin => ?_,
    fun i j hi hj hini hinj _ _ => ?_, h0⟩
  · have hpos : 1 ≤ i := Nat.pos_of_ne_zero fun h => hnot ((hused i hi).mpr h)
    rw [hfree i hpos hi]
    exact ⟨rfl, rfl⟩
  · rw [(hused i hi).mp hin, h0.epIdn, h0.epType]
    decide
  · have := (hused j hj).mp hin
    omega
  · rw [(hused i hi).mp hini, (hused j hj).mp hinj]

theorem ep0Assigned_usbEpCloseAll (h : Ep0Assigned s) : Ep0Assigned (usbEpCloseAll s) := by
  have hslot : (usbEpCloseAll s).epAssignment 0 = s.epAssignment 0 := by
    rw [(closedAt_usbEpCloseAll s).epAssignment 0, if_neg (by decide)]
  constructor
  · rw [hslot]; exact h.epIdn
  · rw [hslot]; exact h.epType
  · rw [hslot]; exact h.rx
  · rw [hslot]; exact h.tx

theorem epTable_usbInitEnableHal (s : Usb) : EpTable (usbInitEnableHal s) :=
  epTable_of_freeFrom (freeFrom_usbInitEnableHal s) (ep0Assigned_usbInitEnableHal s)

theorem EpTable.usbEpCloseAll (h : EpTable s) : EpTable (usbEpCloseAll s) :=
  epTable_of_freeFrom (freeFrom_usbEpCloseAll s) (ep0Assigned_usbEpCloseAll h.ep0)

/-- The state with the direction taken in slot `i`. -/
def assignedAt (s : Usb) (epAddr : Byte) (epType i : ℕ) : Usb :=
  s.setAssignment i ((s.epAssignment i).take (usbEpIdn epAddr) (usbEpDirIdx epAddr) epType)

theorem assignedAt_self (s : Usb) (epAddr : Byte) (epType i : ℕ) :
    (assignedAt s epAddr epType i).epAssignment i =
    (s.epAssignment i).take (usbEpIdn epAddr) (usbEpDirIdx epAddr) epType :=
  Function.update_self ..

theorem assignedAt_of_ne (s : Usb) (epAddr : Byte) (epType : ℕ) (h : j ≠ i) :
    (assignedAt s epAddr epType i).epAssignment j = s.epAssignment j :=
  Function.update_of_ne h ..

/-- No other slot in use has the endpoint's number and type. -/
theorem EpTable.eq_of_found (h : EpTable s) (hfound : SlotFound s epAddr epType i)
    (hj : j < usbEpMax) (hused : (s.epAssignment j).Used)
    (hidn : (s.epAssignment j).epIdn = usbEpIdn epAddr)
    (htype : (s.epAssignment j).epType = epType) : j = i := by
  rcases Nat.lt_trichotomy j i with hlt | heq | hgt
  · have hoffers := (h.offers_iff hj hused _ (usbEpDirIdx epAddr) _).mpr ⟨hidn, htype⟩
    exact Bool.noConfusion ((hfound.before j hlt).symm.trans hoffers)
  · exact heq
  · have hin := h.first i j hgt hj hused
    obtain ⟨hidn', htype'⟩ := (h.offers_iff hfound.lt hin _ _ _).mp hfound.offers
    exact h.pair j i hj hfound.lt hused hin (hidn.trans hidn'.symm) (htype.trans htype'.symm)

theorem EpTable.assignedAt (h : EpTable s) (hfound : SlotFound s epAddr epType i)
    (htype : epType ≠ unassignedValue) : EpTable (assignedAt s epAddr epType i) := by
  have hself := assignedAt_self s epAddr epType i
  have hother := fun j (hj : j ≠ i) => assignedAt_of_ne s epAddr epType hj
  have hin : ((PcbMill.assignedAt s epAddr epType i).epAssignment i).Used := by
    rw [hself]
    exact EpAssignment.used_take
  refine ⟨fun j hj hfree => ?_, fun j hj hused => ?_, fun j k hjk hk hused => ?_,
    fun j k hj hk hju hku hidn htype' => ?_, ?_⟩
  · have hne : j ≠ i := fun heq => hfree (heq ▸ hin)
    rw [hother j hne] at hfree ⊢
    exact h.free j hj hfree
  · by_cases hne : j = i
    · rw [hne, hself]
      exact ⟨usbEpIdn_ne_unassigned epAddr, htype⟩
    · rw [hother j hne] at hused ⊢
      exact h.named j hj hused
  · by_cases hj : j = i
    · rw [hj]
      exact hin
    · rw [hother j hj]
      by_cases hki : k = i
      · exact h.used_before hfound (hki ▸ hjk)
      · rw [hother k hki] at hused
        exact h.first j k hjk hk hused
  · by_cases hji : j = i
    · by_cases hki : k = i
      · rw [hji, hki]
      · rw [hother k hki] at hku hidn htype'
        rw [hji, hself] at hidn htype'
        exact hji.trans (h.eq_of_found hfound hk hku hidn.symm htype'.symm).symm
    · rw [hother j hji] at hju hidn htype'
      by_cases hki : k = i
      · rw [hki, hself] at hidn htype'
        exact (h.eq_of_found hfound hj hju hidn htype').trans hki.symm
      · rw [hother k hki] at hku hidn htype'
        exact h.pair j k hj hk hju hku hidn htype'
  · exact h.ep0.takeSlot (d := { bEndpointAddress := epAddr, type := epType, wMaxPacketSize := 0 })
      hfound

/-- The outcomes of `usb_ep_assign`. -/
theorem usbEpAssign_cases (s : Usb) (epAddr : Byte) (epType : ℕ) :
    usbEpAssign s epAddr epType = (unassignedValue, s) ∨
      ∃ i, SlotFound s epAddr epType i ∧
        usbEpAssign s epAddr epType = (i, assignedAt s epAddr epType i) := by
  rcases slotFound_or_noSlot s epAddr epType with ⟨i, hfound⟩ | hnone
  · exact .inr ⟨i, hfound, usbEpAssign_found hfound⟩
  · exact .inl (usbEpAssign_noSlot hnone)

theorem EpTable.usbEpAssign (h : EpTable s) (htype : epType ≠ unassignedValue) :
    EpTable (usbEpAssign s epAddr epType).2 := by
  rcases usbEpAssign_cases s epAddr epType with hnone | ⟨i, hfound, hassign⟩
  · rw [hnone]
    exact h
  · rw [hassign]
    exact h.assignedAt hfound htype

/-- An endpoint that a slot serves is found in that slot, and the table stays as it is. -/
theorem EpTable.usbEpAssign_again (h : EpTable s) (hi : i < usbEpMax)
    (hserves : (s.epAssignment i).serves (usbEpIdn epAddr) (usbEpDirIdx epAddr) epType = true) :
    PcbMill.usbEpAssign s epAddr epType = (i, s) := by
  have hused := EpAssignment.used_of_serves hserves
  obtain ⟨_, htype, hidn⟩ := EpAssignment.serves_iff.mp hserves
  have hfound : SlotFound s epAddr epType i := by
    refine ⟨hi, by rw [EpAssignment.offers, hserves, Bool.true_or], fun j hj => ?_⟩
    by_contra hoffers
    have hin := h.first j i hj hi hused
    obtain ⟨hidn', htype'⟩ := (h.offers_iff (hj.trans hi) hin _ _ _).mp
      (Bool.eq_true_of_not_eq_false hoffers)
    have := h.pair j i (hj.trans hi) hi hin hused (hidn'.trans hidn.symm) (htype'.trans htype.symm)
    omega
  rw [usbEpAssign_found hfound, EpAssignment.take_of_serves hserves, Usb.setAssignment,
    Function.update_eq_self]

/-- An assignment leaves every slot serving what it served. -/
theorem EpTable.serves_assignedAt (h : EpTable s) (hfound : SlotFound s epAddr epType i)
    {n d t : ℕ} (hj : j < usbEpMax) (hserves : (s.epAssignment j).serves n d t = true) :
    ((PcbMill.assignedAt s epAddr epType i).epAssignment j).serves n d t = true := by
  by_cases hne : j = i
  · subst hne
    obtain ⟨hdir, htype, hidn⟩ := EpAssignment.serves_iff.mp hserves
    obtain ⟨hidn', htype'⟩ :=
      (h.offers_iff hj (EpAssignment.used_of_serves hserves) _ _ _).mp hfound.offers
    rw [assignedAt_self, EpAssignment.serves_iff, EpAssignment.take_assigned, hdir, Bool.or_true]
    exact ⟨rfl, htype'.symm.trans htype, hidn'.symm.trans hidn⟩
  · rw [assignedAt_of_ne _ _ _ hne]
    exact hserves

/-! ### Runs -/

inductive TableEvent where
  | initEnable
  | closeAll
  | assign (epAddr : Byte) (epType : EpType)

/-- An endpoint and the slot it got. -/
structure EpGiven where
  epIdn : ℕ
  dirIdx : ℕ
  epType : ℕ
  slot : ℕ

structure TableRun where
  usb : Usb
  /-- The assignments since the last reset whose slots have not been closed. -/
  given : List EpGiven

/-- The assignments of `usb_ep_control_init`. -/
def ep0Given : List EpGiven :=
  [⟨0, usbDirDeviceInHostOutIdx, usbEpTypeControl, 0⟩,
    ⟨0, usbDirDeviceOutHostInIdx, usbEpTypeControl, 0⟩]

def tableStep (r : TableRun) : TableEvent → TableRun
  | .initEnable => { usb := usbInitEnableHal r.usb, given := ep0Given }
  | .closeAll => { usb := usbEpCloseAll r.usb, given := r.given.filter fun g => g.slot = 0 }
  | .assign epAddr epType =>
    let (slot, s) := usbEpAssign r.usb epAddr epType.value
    { usb := s
      given := if slot = unassignedValue then r.given
        else ⟨usbEpIdn epAddr, usbEpDirIdx epAddr, epType.value, slot⟩ :: r.given }

/-- The state after the first `usb_init_enable_hal`, whatever it finds. -/
def tableStart (s : Usb) : TableRun := { usb := usbInitEnableHal s, given := ep0Given }

/-- No two slots hold the same endpoint, slot 0 is the control endpoint's, an endpoint that is
assigned already is found where it is, and a failed assignment changes nothing. -/
structure TableRun.Consistent (r : TableRun) : Prop where
  distinct : ∀ i j dirIdx, i < usbEpMax → j < usbEpMax →
    (r.usb.epAssignment i).assigned dirIdx = true →
    (r.usb.epAssignment j).assigned dirIdx = true →
    (r.usb.epAssignment i).epIdn = (r.usb.epAssignment j).epIdn →
    (r.usb.epAssignment i).epType = (r.usb.epAssignment j).epType → i = j
  ep0 : Ep0Assigned r.usb
  again : ∀ g ∈ r.given, ∀ epAddr, usbEpIdn epAddr = g.epIdn → usbEpDirIdx epAddr = g.dirIdx →
    usbEpAssign r.usb epAddr g.epType = (g.slot, r.usb)
  failed : ∀ epAddr epType, (usbEpAssign r.usb epAddr epType).1 = unassignedValue →
    (usbEpAssign r.usb epAddr epType).2 = r.usb

/-- The invariant of the runs. -/
structure TableInv (r : TableRun) : Prop where
  table : EpTable r.usb
  serves : ∀ g ∈ r.given, g.slot < usbEpMax ∧
    (r.usb.epAssignment g.slot).serves g.epIdn g.dirIdx g.epType = true

variable {r : TableRun}

theorem TableInv.consistent (h : TableInv r) : r.Consistent := by
  refine ⟨fun i j d hi hj hdi hdj => h.table.pair i j hi hj ⟨d, hdi⟩ ⟨d, hdj⟩, h.table.ep0,
    fun g hg epAddr hidn hdir => ?_, fun epAddr epType hfail => ?_⟩
  · obtain ⟨hslot, hserves⟩ := h.serves g hg
    exact h.table.usbEpAssign_again hslot (by rw [hidn, hdir]; exact hserves)
  · rcases usbEpAssign_cases r.usb epAddr epType with hnone | ⟨i, hfound, hassign⟩
    · rw [hnone]
    · rw [hassign] at hfail
      exact absurd hfail hfound.ne_unassigned

theorem tableInv_init (s : Usb) : TableInv { usb := usbInitEnableHal s, given := ep0Given } := by
  refine ⟨epTable_usbInitEnableHal s, fun g hg => ?_⟩
  have h0 := ep0Assigned_usbInitEnableHal s
  simp only [ep0Given, List.mem_cons, List.not_mem_nil, or_false] at hg
  rcases hg with rfl | rfl
  · exact ⟨by decide, EpAssignment.serves_iff.mpr ⟨h0.rx, h0.epType, h0.epIdn⟩⟩
  · exact ⟨by decide, EpAssignment.serves_iff.mpr ⟨h0.tx, h0.epType, h0.epIdn⟩⟩

theorem tableInv_closeAll (h : TableInv r) : TableInv (tableStep r .closeAll) := by
  refine ⟨h.table.usbEpCloseAll, fun g hg => ?_⟩
  obtain ⟨hmem, hslot⟩ := List.mem_filter.mp hg
  have hslot : g.slot = 0 := of_decide_eq_true hslot
  obtain ⟨hlt, hserves⟩ := h.serves g hmem
  refine ⟨hlt, ?_⟩
  show ((usbEpCloseAll r.usb).epAssignment g.slot).serves _ _ _ = true
  rw [hslot, (closedAt_usbEpCloseAll r.usb).epAssignment 0, if_neg (by decide), ← hslot]
  exact hserves

theorem tableInv_assign (h : TableInv r) (epAddr : Byte) (epType : EpType) :
    TableInv (tableStep r (.assign epAddr epType)) := by
  refine ⟨h.table.usbEpAssign epType.ne_unassigned, ?_⟩
  simp only [tableStep]
  rcases usbEpAssign_cases r.usb epAddr epType.value with hnone | ⟨i, hfound, hassign⟩
  · rw [hnone]
    simp only [if_true]
    exact h.serves
  · rw [hassign]
    simp only [if_neg hfound.ne_unassigned, List.mem_cons]
    rintro g (rfl | hg)
    · refine ⟨hfound.lt, ?_⟩
      rw [assignedAt_self, EpAssignment.serves_iff, EpAssignment.take_assigned,
        decide_eq_true rfl, Bool.true_or]
      exact ⟨rfl, rfl, rfl⟩
    · obtain ⟨hslot, hserves⟩ := h.serves g hg
      exact ⟨hslot, h.table.serves_assignedAt hfound hslot hserves⟩

/-- What one call keeps. -/
theorem tableInv_step (r : TableRun) (e : TableEvent) (h : TableInv r) :
    TableInv (tableStep r e) := by
  cases e with
  | initEnable => exact tableInv_init r.usb
  | closeAll => exact tableInv_closeAll h
  | assign epAddr epType => exact tableInv_assign h epAddr epType

/-- The endpoint table is consistent in every run from the first `usb_init_enable_hal`. -/
theorem epTable_consistent (s : Usb) (es : List TableEvent) :
    Always tableStep TableRun.Consistent (tableStart s) es :=
  (always_of_invariant tableInv_step (tableInv_init s)).mono fun _ h => h.consistent

end PcbMill
