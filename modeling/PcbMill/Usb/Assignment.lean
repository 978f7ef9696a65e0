import PcbMill.Usb.SetConfiguration

/-!
# The endpoint table

What `usb_ep_assign` and `usb_ep_open_hal` can do.  The first slot that serves an endpoint or can
take it decides the outcome, so each outcome is stated from that slot alone, and the results
about slots, endpoint registers and packet memory are read off these lemmas.
-/

namespace PcbMill

open FixedWidth

/-! ### The slot an endpoint gets -/

/-- The slot serves the endpoint or can take it. -/
def EpAssignment.offers (a : EpAssignment) (epIdn dirIdx epType : ℕ) : Bool :=
  a.serves epIdn dirIdx epType || a.accepts epIdn dirIdx epType

/-- The slot with the endpoint's direction taken. -/
def EpAssignment.take (a : EpAssignment) (epIdn dirIdx epType : ℕ) : EpAssignment :=
  { epIdn := epIdn, epType := epType, assigned := Function.update a.assigned dirIdx true }

theorem EpAssignment.take_assigned (a : EpAssignment) (epIdn dirIdx epType x : ℕ) :
    (a.take epIdn dirIdx epType).assigned x = (decide (x = dirIdx) || a.assigned x) := by
  simp only [EpAssignment.take, Function.update_apply]
  by_cases h : x = dirIdx
  · rw [if_pos h, decide_eq_true h, Bool.true_or]
  · rw [if_neg h, decide_eq_false h, Bool.false_or]

theorem EpAssignment.serves_iff {a : EpAssignment} {epIdn dirIdx epType : ℕ} :
    a.serves epIdn dirIdx epType = true ↔
      a.assigned dirIdx = true ∧ a.epType = epType ∧ a.epIdn = epIdn := by
  simp [EpAssignment.serves, and_assoc]

theorem EpAssignment.accepts_iff {a : EpAssignment} {epIdn dirIdx epType : ℕ} :
    a.accepts epIdn dirIdx epType = true ↔
      a.assigned dirIdx = false ∧ (a.epIdn = unassignedValue ∨ a.epIdn = epIdn) ∧
        (a.epType = unassignedValue ∨ a.epType = epType) := by
  simp [EpAssignment.accepts, and_assoc]

/-- A slot that serves the endpoint is not changed by taking it again. -/
theorem EpAssignment.take_of_serves {a : EpAssignment} {epIdn dirIdx epType : ℕ}
    (h : a.serves epIdn dirIdx epType = true) : a.take epIdn dirIdx epType = a := by
  obtain ⟨hassigned, htype, hidn⟩ := EpAssignment.serves_iff.mp h
  have hupdate : Function.update a.assigned dirIdx true = a.assigned :=
    Function.update_eq_self_iff.mpr hassigned.symm
  rw [EpAssignment.take, hupdate, ← htype, ← hidn]

/-- Slot `i` is the first that serves the endpoint or can take it. -/
structure SlotFound (s : Usb) (epAddr : Byte) (epType i : ℕ) : Prop where
  lt : i < usbEpMax
  offers : (s.epAssignment i).offers (usbEpIdn epAddr) (usbEpDirIdx epAddr) epType = true
  before : ∀ j, j < i →
    (s.epAssignment j).offers (usbEpIdn epAddr) (usbEpDirIdx epAddr) epType = false

/-- No slot serves the endpoint or can take it. -/
def NoSlot (s : Usb) (epAddr : Byte) (epType : ℕ) : Prop :=
  ∀ j, j < usbEpMax →
    (s.epAssignment j).offers (usbEpIdn epAddr) (usbEpDirIdx epAddr) epType = false

theorem slotFound_or_noSlot (s : Usb) (epAddr : Byte) (epType : ℕ) :
    (∃ i, SlotFound s epAddr epType i) ∨ NoSlot s epAddr epType := by
  cases hfind : (List.range usbEpMax).find? fun i =>
      (s.epAssignment i).offers (usbEpIdn epAddr) (usbEpDirIdx epAddr) epType with
  | none =>
    refine .inr fun j hj => ?_
    simpa using List.find?_eq_none.mp hfind j (List.mem_range.mpr hj)
  | some i =>
    obtain ⟨hoffers, hmem, hbefore⟩ := List.find?_range_eq_some.mp hfind
    exact .inl ⟨i, List.mem_range.mp hmem, hoffers, fun j hj => by simpa using hbefore j hj⟩

theorem SlotFound.unique {s : Usb} {epAddr : Byte} {epType i j : ℕ}
    (hi : SlotFound s epAddr epType i) (hj : SlotFound s epAddr epType j) : i = j := by
  rcases Nat.lt_trichotomy i j with h | h | h
  · cases hi.offers.symm.trans (hj.before i h)
  · exact h
  · cases hj.offers.symm.trans (hi.before j h)

theorem SlotFound.not_noSlot {s : Usb} {epAddr : Byte} {epType i : ℕ}
    (hi : SlotFound s epAddr epType i) : ¬NoSlot s epAddr epType := by
  intro h
  cases hi.offers.symm.trans (h i hi.lt)

theorem SlotFound.ne_unassigned {s : Usb} {epAddr : Byte} {epType i : ℕ}
    (h : SlotFound s epAddr epType i) : i ≠ unassignedValue := by
  have := h.lt
  simp only [usbEpMax] at this
  simp only [unassignedValue]
  omega

/-! ### `usb_ep_assign` -/

theorem usbEpAssign_noSlot {s : Usb} {epAddr : Byte} {epType : ℕ} (h : NoSlot s epAddr epType) :
    usbEpAssign s epAddr epType = (unassignedValue, s) := by
  have hfind : (List.range usbEpMax).find? (fun i =>
      (s.epAssignment i).serves (usbEpIdn epAddr) (usbEpDirIdx epAddr) epType ||
        (s.epAssignment i).accepts (usbEpIdn epAddr) (usbEpDirIdx epAddr) epType) = none :=
    List.find?_eq_none.mpr fun j hj => Bool.eq_false_iff.mp (h j (List.mem_range.mp hj))
  simp only [usbEpAssign]
  rw [hfind]

theorem usbEpAssign_found {s : Usb} {epAddr : Byte} {epType i : ℕ}
    (h : SlotFound s epAddr epType i) :
    usbEpAssign s epAddr epType = (i, s.setAssignment i
      ((s.epAssignment i).take (usbEpIdn epAddr) (usbEpDirIdx epAddr) epType)) := by
  have hfind : (List.range usbEpMax).find? (fun i =>
      (s.epAssignment i).serves (usbEpIdn epAddr) (usbEpDirIdx epAddr) epType ||
        (s.epAssignment i).accepts (usbEpIdn epAddr) (usbEpDirIdx epAddr) epType) = some i :=
    List.find?_range_eq_some.mpr ⟨h.offers, List.mem_range.mpr h.lt,
      fun j hj => by simpa [EpAssignment.offers] using h.before j hj⟩
  simp only [usbEpAssign]
  rw [hfind]
  dsimp only
  split
  · rename_i hserves
    rw [EpAssignment.take_of_serves hserves, Usb.setAssignment, Function.update_eq_self]
  · rfl

/-! ### `usb_ep_open_hal` -/

/-- The buffer descriptor of a direction. -/
def dirBuffer (dirIdx : ℕ) : ℕ :=
  if dirIdx = usbDirDeviceOutHostInIdx then usbEpTxCountAddrIdx else usbEpRxCountAddrIdx

/-- `USB_EP_PACKET_SIZE`. -/
def EpDescriptor.packetSize (d : EpDescriptor) : ℕ := d.wMaxPacketSize &&& 0x7FF

/-- The endpoint number of a descriptor. -/
def EpDescriptor.epIdn (d : EpDescriptor) : ℕ := usbEpIdn d.bEndpointAddress

def EpDescriptor.dirIdx (d : EpDescriptor) : ℕ := usbEpDirIdx d.bEndpointAddress

/-- The state with the endpoint of `d` in the table at slot `i`. -/
def takeSlot (s : Usb) (d : EpDescriptor) (i : ℕ) : Usb :=
  s.setAssignment i ((s.epAssignment i).take d.epIdn d.dirIdx d.type)

theorem takeSlot_self {s : Usb} {d : EpDescriptor} {i : ℕ} :
    (takeSlot s d i).epAssignment i = (s.epAssignment i).take d.epIdn d.dirIdx d.type :=
  Function.update_self ..

theorem takeSlot_of_ne {s : Usb} {d : EpDescriptor} {i j : ℕ} (h : i ≠ j) :
    (takeSlot s d j).epAssignment i = s.epAssignment i :=
  Function.update_of_ne h ..

/-- The state with the endpoint of `d` open in slot `i`. -/
def openSlot (s : Usb) (d : EpDescriptor) (i : ℕ) (typeBits : Word) : Usb :=
  { takeSlot s d i with
    chep := Function.update s.chep i (regSetPreserve (s.chep i)
      (epOpenValue (s.chep i) (BitVec.ofNat 32 d.epIdn) typeBits d.dirIdx))
    pma := Function.update s.pma (bufferDesc i (dirBuffer d.dirIdx))
      (descSetAddr (s.pma (bufferDesc i (dirBuffer d.dirIdx))) s.usbPmaNextAvailable)
    usbPmaNextAvailable := add16 s.usbPmaNextAvailable d.packetSize
    epTransferSet := Function.update s.epTransferSet i
      (Function.update (s.epTransferSet i) d.dirIdx
        { s.epTransferSet i d.dirIdx with maxPacketSize := d.packetSize, epIdn := i }) }

theorem usbEpOpenHal_noSlot {s : Usb} {d : EpDescriptor} (h : NoSlot s d.bEndpointAddress d.type) :
    usbEpOpenHal s d = (false, s) := by
  simp only [usbEpOpenHal]
  simp only [usbEpAssign_noSlot h, if_true]

theorem usbEpOpenHal_unsupported {s : Usb} {d : EpDescriptor} {i : ℕ}
    (h : SlotFound s d.bEndpointAddress d.type i) (htype : usbEpOpenType d.type = none) :
    usbEpOpenHal s d = (false, takeSlot s d i) := by
  simp only [usbEpOpenHal]
  simp only [usbEpAssign_found h, h.ne_unassigned, if_false, htype]
  rfl

theorem usbEpOpenHal_opened {s : Usb} {d : EpDescriptor} {i : ℕ}
    (h : SlotFound s d.bEndpointAddress d.type i) {typeBits : Word}
    (htype : usbEpOpenType d.type = some typeBits) :
    usbEpOpenHal s d = (true, openSlot s d i typeBits) := by
  simp only [usbEpOpenHal]
  simp only [usbEpAssign_found h, h.ne_unassigned, if_false, htype]
  rfl

/-- The outcomes of opening an endpoint. -/
inductive OpenOutcome (s : Usb) (d : EpDescriptor) : Bool × Usb → Prop where
  | noSlot (h : NoSlot s d.bEndpointAddress d.type) : OpenOutcome s d (false, s)
  | unsupported (i : ℕ) (h : SlotFound s d.bEndpointAddress d.type i)
      (htype : usbEpOpenType d.type = none) : OpenOutcome s d (false, takeSlot s d i)
  | opened (i : ℕ) (typeBits : Word) (h : SlotFound s d.bEndpointAddress d.type i)
      (htype : usbEpOpenType d.type = some typeBits) :
      OpenOutcome s d (true, openSlot s d i typeBits)

theorem usbEpOpenHal_outcome (s : Usb) (d : EpDescriptor) : OpenOutcome s d (usbEpOpenHal s d) := by
  rcases slotFound_or_noSlot s d.bEndpointAddress d.type with ⟨i, h⟩ | h
  · cases htype : usbEpOpenType d.type with
    | none =>
      rw [usbEpOpenHal_unsupported h htype]
      exact .unsupported i h htype
    | some typeBits =>
      rw [usbEpOpenHal_opened h htype]
      exact .opened i typeBits h htype
  · rw [usbEpOpenHal_noSlot h]
    exact .noSlot h

/-- Whatever the outcome, a slot keeps the directions that were assigned in it. -/
theorem usbEpOpenHal_assigned (s : Usb) (d : EpDescriptor) {i dirIdx : ℕ}
    (h : (s.epAssignment i).assigned dirIdx = true) :
    ((usbEpOpenHal s d).2.epAssignment i).assigned dirIdx = true := by
  have htake : ∀ j, ((takeSlot s d j).epAssignment i).assigned dirIdx = true := by
    intro j
    by_cases hij : i = j
    · subst hij
      rw [takeSlot_self, EpAssignment.take_assigned, h, Bool.or_true]
    · rw [takeSlot_of_ne hij]
      exact h
  have hr := usbEpOpenHal_outcome s d
  generalize usbEpOpenHal s d = r at hr
  cases hr with
  | noSlot => exact h
  | unsupported j => exact htake j
  | opened j => exact htake j

/-! ### Transfers leave the table alone -/

/-- Queueing a transfer changes neither the endpoint table nor the CDC interface. -/
theorem usbEpQueueTransfer_tables (s : Usb) (epAddr : Byte) (buffer : Ptr) (n : ℕ) :
    (usbEpQueueTransfer s epAddr buffer n).2.epAssignment = s.epAssignment ∧
      (usbEpQueueTransfer s epAddr buffer n).2.usbCdc = s.usbCdc := by
  simp only [usbEpQueueTransfer, usbEpQueueTransferHal]
  split
  · exact ⟨rfl, rfl⟩
  · exact ⟨rfl, rfl⟩

/-! ### The slot of EP0 -/

theorem Ep0Assigned.of_table {s s' : Usb} (h : Ep0Assigned s)
    (htable : s'.epAssignment = s.epAssignment) : Ep0Assigned s' := by
  constructor <;> rw [htable]
  · exact h.epIdn
  · exact h.epType
  · exact h.rx
  · exact h.tx

theorem Ep0Assigned.assigned {s : Usb} (h : Ep0Assigned s) (d : EpDescriptor) :
    (s.epAssignment 0).assigned d.dirIdx = true := by
  rcases usbEpDirIdx_cases d.bEndpointAddress with hdir | hdir
  · rw [EpDescriptor.dirIdx, hdir]
    exact h.rx
  · rw [EpDescriptor.dirIdx, hdir]
    exact h.tx

/-- The slot of EP0 has no free direction: it offers itself to EP0 only. -/
theorem Ep0Assigned.serves_of_offers {s : Usb} (h : Ep0Assigned s) {d : EpDescriptor}
    (hoffers : (s.epAssignment 0).offers d.epIdn d.dirIdx d.type = true) :
    (s.epAssignment 0).serves d.epIdn d.dirIdx d.type = true := by
  rw [EpAssignment.offers, Bool.or_eq_true, EpAssignment.accepts_iff] at hoffers
  rcases hoffers with hserves | ⟨hfree, -⟩
  · exact hserves
  · cases (h.assigned d).symm.trans hfree

theorem Ep0Assigned.takeSlot {s : Usb} (h : Ep0Assigned s) {d : EpDescriptor} {i : ℕ}
    (hi : SlotFound s d.bEndpointAddress d.type i) : Ep0Assigned (takeSlot s d i) := by
  refine h.of_same ⟨rfl, fun _ _ => rfl, rfl, ?_⟩
  by_cases h0 : 0 = i
  · subst h0
    rw [takeSlot_self, EpAssignment.take_of_serves (h.serves_of_offers hi.offers)]
  · exact takeSlot_of_ne h0

/-- Opening an endpoint leaves EP0 its slot. -/
theorem Ep0Assigned.usbEpOpenHal {s : Usb} (h : Ep0Assigned s) (d : EpDescriptor) :
    Ep0Assigned (usbEpOpenHal s d).2 := by
  have hr := usbEpOpenHal_outcome s d
  generalize PcbMill.usbEpOpenHal s d = r at hr
  cases hr with
  | noSlot => exact h
  | unsupported i hi => exact h.takeSlot hi
  | opened i typeBits hi => exact (h.takeSlot hi).of_table rfl

/-! ### After `usb_init_enable_hal` -/

theorem ep0Assigned_usbInitEnableHal (s : Usb) : Ep0Assigned (usbInitEnableHal s) :=
  ⟨rfl, rfl, rfl, rfl⟩

theorem freeFrom_usbInitEnableHal (s : Usb) : FreeFrom 1 (usbInitEnableHal s) := by
  intro i hi hi'
  simp only [usbEpMax] at hi'
  interval_cases i <;> rfl

theorem usbInitEnableHal_chep (s : Usb) : (usbInitEnableHal s).chep =
    Function.update s.chep 0 (regSet (s.chep 0) (controlInitValue (s.chep 0))) := rfl

theorem usbInitEnableHal_usbPmaNextAvailable (s : Usb) :
    (usbInitEnableHal s).usbPmaNextAvailable = 192 := by
  show add16 (add16 (8 * usbEpMax) usbEp0BufferSize) usbEp0BufferSize = 192
  decide

theorem usbInitEnableHal_txDesc (s : Usb) :
    (usbInitEnableHal s).pma 0 = descSetAddr (s.pma 0) 64 := rfl

theorem usbInitEnableHal_rxDesc (s : Usb) :
    (usbInitEnableHal s).pma 1 = descSetBlocks (descSetAddr (s.pma 1) 128) 8 := rfl

theorem usbInitEnableHal_epTransferSet (s : Usb) {dirIdx : ℕ} (hdir : dirIdx = 0 ∨ dirIdx = 1) :
    (usbInitEnableHal s).epTransferSet 0 dirIdx =
      { s.epTransferSet 0 dirIdx with maxPacketSize := usbEp0BufferSize, epIdn := 0 } := by
  rcases hdir with rfl | rfl
  · rfl
  · rfl

end PcbMill
