import PcbMill.Usb.Assignment
import PcbMill.Usb.PacketMemory

/-!
# Endpoint addresses and slots

`usb_ep_assign` hands out slots in the order endpoints are opened, one for each pair of number
and type, while `usb_ep_queue_transfer` and the stall operations take the endpoint number for the
slot, and the interrupt handler the slot for the number.  They agree when the endpoints have been
numbered in the order they were opened.
-/

namespace PcbMill

open FixedWidth

/-! ### What an operation touches -/

/-- Only the register of slot `k`, its half for `dirIdx`, and the record of slot `k` and `dirIdx`
may have changed. -/
structure OnlySlot (k dirIdx : ℕ) (s s' : Usb) : Prop where
  chep : ∀ i, i ≠ k → s'.chep i = s.chep i
  half : ∀ x, x ≤ 1 → x ≠ dirIdx → epState (s'.chep k) x = epState (s.chep k) x
  record : ∀ i x, i ≠ k ∨ x ≠ dirIdx → s'.epTransferSet i x = s.epTransferSet i x

/-- The address the interrupt handler reports a completion of slot `idn` with. -/
def completionAddr (idn dirIdx : ℕ) : Byte :=
  if dirIdx = usbDirDeviceOutHostInIdx then BitVec.ofNat 8 idn ||| usbDirDeviceOutHostIn
  else BitVec.ofNat 8 idn

/-- The slot is armed in one direction with a transfer. -/
structure Armed (s : Usb) (k dirIdx : ℕ) (buffer : Ptr) (n : ℕ) : Prop where
  buffer : (s.epTransferSet k dirIdx).feed.buffer = buffer
  totalCount : (s.epTransferSet k dirIdx).feed.totalCount = n
  state : epState (s.chep k) dirIdx = .valid

/-- Everything the HAL does for the address `epAddr` it does to slot `k`, and what it does for
slot `k` it reports under that address. -/
structure ActsOnSlot (s : Usb) (epAddr : Byte) (k : ℕ) : Prop where
  queued : ∀ buffer n,
    Armed (usbEpQueueTransfer s epAddr buffer n).2 k (usbEpDirIdx epAddr) buffer n
  queue : ∀ buffer n,
    OnlySlot k (usbEpDirIdx epAddr) s (usbEpQueueTransfer s epAddr buffer n).2
  stalled : epState ((usbEpStallSetHal s (usbEpIdn epAddr) (usbEpDirIdx epAddr)).chep k)
    (usbEpDirIdx epAddr) = .stall
  stallSet : OnlySlot k (usbEpDirIdx epAddr) s
    (usbEpStallSetHal s (usbEpIdn epAddr) (usbEpDirIdx epAddr))
  /-- The clear takes the state bits to zero. -/
  cleared : epState ((usbEpStallClearHal s (usbEpIdn epAddr) (usbEpDirIdx epAddr)).chep k)
    (usbEpDirIdx epAddr) = .disabled
  stallClear : OnlySlot k (usbEpDirIdx epAddr) s
    (usbEpStallClearHal s (usbEpIdn epAddr) (usbEpDirIdx epAddr))
  /-- The interrupt handler on a packet of slot `k` that does not end the transfer. -/
  sent : usbEpDirIdx epAddr = usbDirDeviceOutHostInIdx →
    OnlySlot k (usbEpDirIdx epAddr) s
      (usbTxPacket (usbEpClearCorrectTransfer s k (usbEpDirIdx epAddr)) k)
  received : usbEpDirIdx epAddr = usbDirDeviceInHostOutIdx →
    OnlySlot k (usbEpDirIdx epAddr) s
      (usbRxPacketStore (usbEpClearCorrectTransfer s k (usbEpDirIdx epAddr)) k)
  reported : usbEpIdn (completionAddr k (usbEpDirIdx epAddr)) = usbEpIdn epAddr ∧
    usbEpDirIdx (completionAddr k (usbEpDirIdx epAddr)) = usbEpDirIdx epAddr

/-! ### The handler reports `completionAddr` -/

theorem usbIrqTx_reports (cbs : CdcCallbacks) {s : Usb} {k : ℕ} {epReg : Word}
    (hvttx : vttx epReg = true)
    (hfed : (s.epTransferSet k usbDirDeviceOutHostInIdx).feed.totalCount =
      (s.epTransferSet k usbDirDeviceOutHostInIdx).feed.fedCount) :
    usbIrqTx cbs s k epReg =
      usbEpTransferComplete cbs (usbEpClearCorrectTransfer s k usbDirDeviceOutHostInIdx)
        (completionAddr k usbDirDeviceOutHostInIdx)
        (s.epTransferSet k usbDirDeviceOutHostInIdx).feed.fedCount := by
  simp only [usbIrqTx]
  rw [if_pos hvttx]
  exact if_neg (not_not.mpr hfed)

theorem usbRxPacket_reports (cbs : CdcCallbacks) (s : Usb) (k : ℕ) :
    ∃ t, usbRxPacket cbs s k =
      (usbEpTransferComplete cbs (usbRxPacketStore s k) (completionAddr k usbDirDeviceInHostOutIdx)
        ((usbRxPacketStore s k).epTransferSet k usbDirDeviceInHostOutIdx).feed.fedCount).setTransfer
          k usbDirDeviceInHostOutIdx t :=
  ⟨_, rfl⟩

theorem usbEpIdn_completionAddr {k dirIdx : ℕ} (hk : k < usbEpMax) (hdir : dirIdx ≤ 1) :
    usbEpIdn (completionAddr k dirIdx) = k ∧ usbEpDirIdx (completionAddr k dirIdx) = dirIdx := by
  simp only [usbEpMax] at hk
  interval_cases dirIdx <;> interval_cases k <;> decide

/-! ### Acting on the slot of the same number -/

theorem setTransfer_record {s : Usb} {k dirIdx i x : ℕ} {t : EpTransfer}
    (h : i ≠ k ∨ x ≠ dirIdx) : (s.setTransfer k dirIdx t).epTransferSet i x = s.epTransferSet i x := by
  simp only [Usb.setTransfer, Function.update_apply]
  by_cases hi : i = k
  · rw [if_pos hi, Function.update_of_ne (h.resolve_left (not_not.mpr hi)), hi]
  · rw [if_neg hi]

/-- A write to the register of the slot that leaves the other half alone. -/
theorem OnlySlot.setChep {k dirIdx : ℕ} {s s' : Usb} (h : OnlySlot k dirIdx s s') {r : Word}
    (hr : ∀ x, x ≤ 1 → x ≠ dirIdx → epState r x = epState (s'.chep k) x) :
    OnlySlot k dirIdx s (s'.setChep k r) where
  chep := fun i hi => (Function.update_of_ne hi ..).trans (h.chep i hi)
  half := by
    intro x hx hne
    rw [← h.half x hx hne, ← hr x hx hne]
    exact congrArg (epState · x) (Function.update_self ..)
  record := h.record

theorem OnlySlot.refl (k dirIdx : ℕ) (s : Usb) : OnlySlot k dirIdx s s :=
  ⟨fun _ _ => rfl, fun _ _ _ => rfl, fun _ _ _ => rfl⟩

theorem iff_one_of_le {x dirIdx : ℕ} (hx : x ≤ 1) (hdir : dirIdx ≤ 1) (hne : x ≠ dirIdx) :
    ¬(x = 1 ↔ dirIdx = 1) := by
  omega

/-- Setting the state of one direction of the slot. -/
theorem OnlySlot.setState {k dirIdx : ℕ} {s s' : Usb} (h : OnlySlot k dirIdx s s') {r : Word}
    {st : EpState} (hdir : dirIdx ≤ 1)
    (hr : epView r = if dirIdx = 1 then { epView (s'.chep k) with tx := st }
      else { epView (s'.chep k) with rx := st }) : OnlySlot k dirIdx s (s'.setChep k r) :=
  h.setChep fun x hx hne => by
    rw [epState_of_epView hr x, if_neg (iff_one_of_le hx hdir hne)]

theorem epState_setChep_of_epView {k dirIdx : ℕ} {s : Usb} {r : Word} {st : EpState}
    (hr : epView r = if dirIdx = 1 then { epView (s.chep k) with tx := st }
      else { epView (s.chep k) with rx := st }) : epState ((s.setChep k r).chep k) dirIdx = st := by
  show epState (Function.update s.chep k r k) dirIdx = st
  rw [Function.update_self, epState_of_epView hr, if_pos Iff.rfl]

theorem OnlySlot.clearCorrectTransfer {k dirIdx : ℕ} {s s' : Usb} (h : OnlySlot k dirIdx s s') :
    OnlySlot k dirIdx s (usbEpClearCorrectTransfer s' k dirIdx) :=
  h.setChep fun x _ _ => epState_clearCorrectTransfer _ _ x

theorem OnlySlot.setTransfer {k dirIdx : ℕ} {s s' : Usb} (h : OnlySlot k dirIdx s s')
    (t : EpTransfer) : OnlySlot k dirIdx s (s'.setTransfer k dirIdx t) where
  chep := h.chep
  half := h.half
  record := fun i x hne => (setTransfer_record hne).trans (h.record i x hne)

/-- Nothing about slots depends on the packet memory, the memory and the trace. -/
theorem OnlySlot.of_same {k dirIdx : ℕ} {s s' s'' : Usb} (h : OnlySlot k dirIdx s s')
    (hchep : s''.chep = s'.chep) (hrecord : s''.epTransferSet = s'.epTransferSet) :
    OnlySlot k dirIdx s s'' where
  chep := fun i hi => (congrFun hchep i).trans (h.chep i hi)
  half := fun x hx hne => by rw [hchep, h.half x hx hne]
  record := fun i x hne => by rw [hrecord, h.record i x hne]

theorem onlySlot_usbTxPacket {k : ℕ} {s s' : Usb} (h : OnlySlot k 1 s s')
    (hrecord : (s'.epTransferSet k 1).epIdn = k) : OnlySlot k 1 s (usbTxPacket s' k) := by
  have hview : epView (regSetPreserve (s'.chep k) (txValidValue (s'.chep k))) =
      if 1 = 1 then { epView (s'.chep k) with tx := EpState.valid }
      else { epView (s'.chep k) with rx := EpState.valid } := by
    rw [if_pos rfl]
    exact epView_txValid _
  have hset := (h.setTransfer { s'.epTransferSet k 1 with feed := { (s'.epTransferSet k 1).feed with
    fedCount := add16 (s'.epTransferSet k 1).feed.fedCount (feedForwardRemainingCount
      (s'.epTransferSet k 1).feed (s'.epTransferSet k 1).maxPacketSize) } }).setState le_rfl hview
  exact hset.of_same (usbTxPacket_chep hrecord) rfl

theorem epState_usbTxPacket {k : ℕ} {s : Usb} (hrecord : (s.epTransferSet k 1).epIdn = k) :
    epState ((usbTxPacket s k).chep k) 1 = .valid := by
  rw [usbTxPacket_chep hrecord, Function.update_self, epState_eq, if_pos rfl, epView_txValid]

theorem setTransfer_self (s : Usb) (k dirIdx : ℕ) (t : EpTransfer) :
    (s.setTransfer k dirIdx t).epTransferSet k dirIdx = t := by
  simp [Usb.setTransfer]

/-- The state in which the transfer has been entered in its record. -/
def recordTransfer (s : Usb) (k dirIdx : ℕ) (buffer : Ptr) (n : ℕ) : Usb :=
  (s.log (.queued k dirIdx n)).setTransfer k dirIdx { s.epTransferSet k dirIdx with
    feed := { buffer := buffer, totalCount := n, fedCount := 0 } }

theorem onlySlot_recordTransfer (s : Usb) (k dirIdx : ℕ) (buffer : Ptr) (n : ℕ) :
    OnlySlot k dirIdx s (recordTransfer s k dirIdx buffer n) := by
  have hlog : OnlySlot k dirIdx s (s.log (.queued k dirIdx n)) :=
    (OnlySlot.refl k dirIdx s).of_same rfl rfl
  exact hlog.setTransfer _

theorem usbEpQueueTransferHal_in (s : Usb) (k : ℕ) (buffer : Ptr) (n : ℕ) :
    (usbEpQueueTransferHal s k 1 buffer n).2 = usbTxPacket (recordTransfer s k 1 buffer n) k := rfl

theorem usbEpQueueTransferHal_out (s : Usb) (k : ℕ) (buffer : Ptr) (n : ℕ) :
    (usbEpQueueTransferHal s k 0 buffer n).2 =
      (usbEpSetRxBufferBlockSize (recordTransfer s k 0 buffer n) k n).setChep k
        (regSetPreserve (s.chep k) (rxValidValue (s.chep k) 0)) := rfl

theorem usbTxPacket_record (s : Usb) (k : ℕ) :
    (usbTxPacket s k).epTransferSet k 1 = { s.epTransferSet k 1 with
      feed := { (s.epTransferSet k 1).feed with
        fedCount := add16 (s.epTransferSet k 1).feed.fedCount (feedForwardRemainingCount
          (s.epTransferSet k 1).feed (s.epTransferSet k 1).maxPacketSize) } } :=
  setTransfer_self s k 1 _

theorem queueTransferHal_in {s : Usb} {k : ℕ} (hrecord : (s.epTransferSet k 1).epIdn = k)
    (buffer : Ptr) (n : ℕ) :
    Armed (usbEpQueueTransferHal s k 1 buffer n).2 k 1 buffer n ∧
      OnlySlot k 1 s (usbEpQueueTransferHal s k 1 buffer n).2 := by
  have hself := setTransfer_self (s.log (.queued k 1 n)) k 1 { s.epTransferSet k 1 with
    feed := { buffer := buffer, totalCount := n, fedCount := 0 } }
  have hidn : ((recordTransfer s k 1 buffer n).epTransferSet k 1).epIdn = k := by
    rw [recordTransfer, hself]
    exact hrecord
  have hsent := usbTxPacket_record (recordTransfer s k 1 buffer n) k
  rw [recordTransfer, hself] at hsent
  rw [usbEpQueueTransferHal_in]
  refine ⟨⟨?_, ?_, epState_usbTxPacket hidn⟩,
    onlySlot_usbTxPacket (onlySlot_recordTransfer s k 1 buffer n) hidn⟩
  · exact congrArg (fun t : EpTransfer => t.feed.buffer) hsent
  · exact congrArg (fun t : EpTransfer => t.feed.totalCount) hsent

theorem queueTransferHal_out (s : Usb) (k : ℕ) (buffer : Ptr) (n : ℕ) :
    Armed (usbEpQueueTransferHal s k 0 buffer n).2 k 0 buffer n ∧
      OnlySlot k 0 s (usbEpQueueTransferHal s k 0 buffer n).2 := by
  have hself := setTransfer_self (s.log (.queued k 0 n)) k 0 { s.epTransferSet k 0 with
    feed := { buffer := buffer, totalCount := n, fedCount := 0 } }
  have hview : epView (regSetPreserve (s.chep k) (rxValidValue (s.chep k) 0)) =
      if (0 : ℕ) = 1 then { epView (s.chep k) with tx := .valid }
      else { epView (s.chep k) with rx := .valid } := by
    rw [if_neg Nat.zero_ne_one]
    exact epView_rxValid _ Nat.zero_ne_one
  have hblocks : OnlySlot k 0 s (usbEpSetRxBufferBlockSize (recordTransfer s k 0 buffer n) k n) :=
    (onlySlot_recordTransfer s k 0 buffer n).of_same rfl rfl
  rw [usbEpQueueTransferHal_out]
  refine ⟨⟨?_, ?_, ?_⟩, hblocks.setState (Nat.zero_le 1) hview⟩
  · exact congrArg (fun t : EpTransfer => t.feed.buffer) hself
  · exact congrArg (fun t : EpTransfer => t.feed.totalCount) hself
  · exact epState_setChep_of_epView (s := usbEpSetRxBufferBlockSize
      (recordTransfer s k 0 buffer n) k n) hview

/-- An address acts on the slot of its number, if the transmission record of the slot names it. -/
theorem actsOnSlot_usbEpIdn {s : Usb} {epAddr : Byte} (hk : usbEpIdn epAddr < usbEpMax)
    (hrecord : usbEpDirIdx epAddr = 1 →
      (s.epTransferSet (usbEpIdn epAddr) 1).epIdn = usbEpIdn epAddr) :
    ActsOnSlot s epAddr (usbEpIdn epAddr) := by
  have hdir : usbEpDirIdx epAddr ≤ 1 := by
    rcases usbEpDirIdx_cases epAddr with h | h <;> omega
  have hqueue : ∀ buffer n, Armed (usbEpQueueTransfer s epAddr buffer n).2 (usbEpIdn epAddr)
      (usbEpDirIdx epAddr) buffer n ∧ OnlySlot (usbEpIdn epAddr) (usbEpDirIdx epAddr) s
      (usbEpQueueTransfer s epAddr buffer n).2 := by
    intro buffer n
    simp only [usbEpQueueTransfer]
    rcases usbEpDirIdx_cases epAddr with h | h
    · rw [h]
      exact queueTransferHal_out s (usbEpIdn epAddr) buffer n
    · rw [h]
      exact queueTransferHal_in (hrecord h) buffer n
  have hstall := epView_stallSet (s.chep (usbEpIdn epAddr)) (usbEpDirIdx epAddr)
  have hclear := epView_stallClear (s.chep (usbEpIdn epAddr)) (usbEpDirIdx epAddr)
  have hcleared := (OnlySlot.refl (usbEpIdn epAddr) (usbEpDirIdx epAddr) s).clearCorrectTransfer
  exact { queued := fun buffer n => (hqueue buffer n).1
          queue := fun buffer n => (hqueue buffer n).2
          stalled := epState_setChep_of_epView hstall
          stallSet := (OnlySlot.refl _ _ s).setState hdir hstall
          cleared := epState_setChep_of_epView hclear
          stallClear := (OnlySlot.refl _ _ s).setState hdir hclear
          sent := by
            intro h
            rw [h] at hcleared ⊢
            exact onlySlot_usbTxPacket hcleared (hrecord h)
          received := by
            intro h
            rw [h] at hcleared ⊢
            exact ((hcleared.of_same rfl rfl).setTransfer _).of_same rfl rfl
          reported := usbEpIdn_completionAddr hk hdir }

theorem ActsOnSlot.eq_usbEpIdn {s : Usb} {epAddr : Byte} {k : ℕ} (hk : k < usbEpMax)
    (h : ActsOnSlot s epAddr k) : k = usbEpIdn epAddr := by
  have hdir : usbEpDirIdx epAddr ≤ 1 := by
    rcases usbEpDirIdx_cases epAddr with hdir | hdir <;> omega
  rw [← h.reported.1, (usbEpIdn_completionAddr hk hdir).1]

/-! ### Opening endpoints one after the other -/

/-- The endpoints opened one after the other, with the slot each was given; `none` if one is
refused. -/
def openAll : Usb → List EpDescriptor → Option (List (EpDescriptor × ℕ) × Usb)
  | s, [] => some ([], s)
  | s, d :: ds =>
    if (usbEpOpenHal s d).1 then
      (openAll (usbEpOpenHal s d).2 ds).map fun p =>
        ((d, (usbEpAssign s d.bEndpointAddress d.type).1) :: p.1, p.2)
    else none

/-- A slot is given to a pair of number and type. -/
def EpDescriptor.key (d : EpDescriptor) : ℕ × ℕ := (d.epIdn, d.type)

def addSeen (seen : List (ℕ × ℕ)) (d : EpDescriptor) : List (ℕ × ℕ) :=
  if d.key ∈ seen then seen else seen ++ [d.key]

/-- The pairs of number and type, in the order they were first opened. -/
def firstSeen (ds : List EpDescriptor) : List (ℕ × ℕ) := ds.foldl addSeen []

/-- The endpoints are numbered in the order they are opened: the first pair of number and type has
number 1, the next one number 2, and so on. -/
def NumberedInOrder (ds : List EpDescriptor) : Prop :=
  ∀ i key, (firstSeen ds)[i]? = some key → key.1 = i + 1

theorem isPrefix_addSeen (seen : List (ℕ × ℕ)) (d : EpDescriptor) : seen <+: addSeen seen d := by
  simp only [addSeen]
  split
  · exact List.prefix_rfl
  · exact List.prefix_append _ _

theorem mem_addSeen_self (seen : List (ℕ × ℕ)) (d : EpDescriptor) : d.key ∈ addSeen seen d := by
  simp only [addSeen]
  split
  · assumption
  · simp

theorem mem_addSeen {seen : List (ℕ × ℕ)} {d : EpDescriptor} {key : ℕ × ℕ}
    (h : key ∈ addSeen seen d) : key ∈ seen ∨ key = d.key := by
  simp only [addSeen] at h
  split at h
  · exact .inl h
  · exact (List.mem_append.mp h).imp_right List.mem_singleton.mp

theorem nodup_addSeen {seen : List (ℕ × ℕ)} (h : seen.Nodup) (d : EpDescriptor) :
    (addSeen seen d).Nodup := by
  simp only [addSeen]
  split
  · exact h
  · rename_i hnew
    refine List.nodup_append.mpr ⟨h, List.nodup_singleton _, fun a ha b hb hab => hnew ?_⟩
    rw [← List.mem_singleton.mp hb, ← hab]
    exact ha

theorem isPrefix_foldl_addSeen (ds : List EpDescriptor) :
    ∀ seen, seen <+: ds.foldl addSeen seen := by
  induction ds with
  | nil => exact fun _ => List.prefix_rfl
  | cons d ds ih => exact fun seen => (isPrefix_addSeen seen d).trans (ih _)

theorem idxOf_of_isPrefix {l l' : List (ℕ × ℕ)} (h : l <+: l') {key : ℕ × ℕ} (hkey : key ∈ l) :
    l'.idxOf key = l.idxOf key := by
  obtain ⟨rest, rfl⟩ := h
  exact List.idxOf_append_of_mem hkey

theorem mem_foldl_addSeen {key : ℕ × ℕ} (ds : List EpDescriptor) :
    ∀ seen, key ∈ ds.foldl addSeen seen → key ∈ seen ∨ ∃ d ∈ ds, d.key = key := by
  induction ds with
  | nil => exact fun _ h => .inl h
  | cons d ds ih =>
    intro seen h
    rcases ih _ h with hmem | ⟨d', hd', hkey⟩
    · rcases mem_addSeen hmem with hmem | rfl
      · exact .inl hmem
      · exact .inr ⟨d, List.mem_cons_self, rfl⟩
    · exact .inr ⟨d', List.mem_cons_of_mem _ hd', hkey⟩

/-- The slots behind EP0 hold the pairs opened so far, in order, and those after them are free. -/
structure SlotTable (s : Usb) (seen : List (ℕ × ℕ)) : Prop where
  ep0 : Ep0Assigned s
  length : seen.length < usbEpMax
  nodup : seen.Nodup
  known : ∀ key ∈ seen, key.1 ≠ unassignedValue ∧ key.2 ≠ unassignedValue
  slot : ∀ i key, seen[i]? = some key →
    (s.epAssignment (i + 1)).epIdn = key.1 ∧ (s.epAssignment (i + 1)).epType = key.2
  free : FreeFrom (seen.length + 1) s
  record : ∀ i, i < usbEpMax → (s.epAssignment i).assigned 1 = true → (s.epTransferSet i 1).epIdn = i

theorem slotTable_usbInitEnableHal (s : Usb) : SlotTable (usbInitEnableHal s) [] where
  ep0 := ep0Assigned_usbInitEnableHal s
  length := by decide
  nodup := List.nodup_nil
  known := fun _ h => absurd h List.not_mem_nil
  slot := fun _ _ h => absurd h (by simp)
  free := freeFrom_usbInitEnableHal s
  record := by
    intro i hi hassigned
    rcases Nat.eq_zero_or_pos i with rfl | hpos
    · rw [usbInitEnableHal_epTransferSet s (.inr rfl)]
    · rw [freeFrom_usbInitEnableHal s i hpos hi] at hassigned
      cases hassigned

theorem usbEpIdn_lt (a : Byte) : usbEpIdn a < 16 := by
  revert a
  decide

section Step

variable {s : Usb} {seen : List (ℕ × ℕ)} {d : EpDescriptor} {typeBits : Word}

theorem key_known (htype : usbEpOpenType d.type = some typeBits) :
    d.key.1 ≠ unassignedValue ∧ d.key.2 ≠ unassignedValue := by
  have hidn : d.epIdn < 16 := usbEpIdn_lt _
  have hrange : d.type = usbEpTypeBulk ∨ d.type = usbEpTypeInterrupt := by
    simp only [usbEpOpenType] at htype
    split at htype
    · exact .inl ‹_›
    · split at htype
      · exact .inr ‹_›
      · cases htype
  constructor
  · show d.epIdn ≠ 255
    omega
  · rcases hrange with h | h
    · show d.type ≠ unassignedValue
      rw [h]
      decide
    · show d.type ≠ unassignedValue
      rw [h]
      decide

/-- A slot of another pair offers nothing. -/
theorem SlotTable.offers_other (h : SlotTable s seen) {i : ℕ} {key : ℕ × ℕ}
    (hi : seen[i]? = some key) (hne : key ≠ d.key) :
    (s.epAssignment (i + 1)).offers d.epIdn d.dirIdx d.type = false := by
  obtain ⟨hidn, htype⟩ := h.slot i key hi
  obtain ⟨hknown, hknown'⟩ := h.known key (List.mem_of_getElem? hi)
  rw [EpAssignment.offers, Bool.or_eq_false_iff]
  constructor
  · rw [Bool.eq_false_iff]
    intro hserves
    obtain ⟨-, ht, hn⟩ := EpAssignment.serves_iff.mp hserves
    exact hne (Prod.ext (hidn.symm.trans hn) (htype.symm.trans ht))
  · rw [Bool.eq_false_iff]
    intro haccepts
    obtain ⟨-, hn, ht⟩ := EpAssignment.accepts_iff.mp haccepts
    rw [hidn] at hn
    rw [htype] at ht
    exact hne (Prod.ext (hn.resolve_left hknown) (ht.resolve_left hknown'))

theorem SlotTable.offers_same (h : SlotTable s seen) {i : ℕ} (hi : seen[i]? = some d.key) :
    (s.epAssignment (i + 1)).offers d.epIdn d.dirIdx d.type = true := by
  obtain ⟨hidn, htype⟩ := h.slot i d.key hi
  rw [EpAssignment.offers, Bool.or_eq_true, EpAssignment.serves_iff, EpAssignment.accepts_iff]
  cases (s.epAssignment (i + 1)).assigned d.dirIdx with
  | true => exact .inl ⟨rfl, htype, hidn⟩
  | false => exact .inr ⟨rfl, .inr hidn, .inr htype⟩

theorem SlotTable.offers_zero (h : SlotTable s seen) (htype : usbEpOpenType d.type = some typeBits) :
    (s.epAssignment 0).offers d.epIdn d.dirIdx d.type = false :=
  h.ep0.refuses (usbEpOpenType_ne_control htype) d.bEndpointAddress

/-- An opened endpoint is in the slot of its pair. -/
theorem SlotTable.found (h : SlotTable s seen) {i : ℕ}
    (hi : SlotFound s d.bEndpointAddress d.type i) (htype : usbEpOpenType d.type = some typeBits) :
    i = (addSeen seen d).idxOf d.key + 1 := by
  have hoffers : (s.epAssignment i).offers d.epIdn d.dirIdx d.type = true := hi.offers
  have hbefore : ∀ j, j < i → (s.epAssignment j).offers d.epIdn d.dirIdx d.type ≠ true :=
    fun j hj => Bool.eq_false_iff.mp (hi.before j hj)
  cases i with
  | zero => cases hoffers.symm.trans (h.offers_zero htype)
  | succ j =>
    congr 1
    rcases Nat.lt_trichotomy j seen.length with hj | hj | hj
    · -- a slot in use: it must be the one of the pair
      have hget : seen[j]? = some seen[j] := List.getElem?_eq_getElem hj
      have hkey : seen[j] = d.key := by
        by_contra hne
        cases hoffers.symm.trans (h.offers_other hget hne)
      have hmem : d.key ∈ seen := hkey ▸ List.getElem_mem hj
      rw [addSeen, if_pos hmem, ← hkey]
      exact (h.nodup.idxOf_getElem j hj).symm
    · -- the first free slot: the pair is new
      have hnew : d.key ∉ seen := by
        intro hmem
        have hlt : seen.idxOf d.key < seen.length := List.idxOf_lt_length_of_mem hmem
        have hget : seen[seen.idxOf d.key]? = some d.key := by
          rw [List.getElem?_eq_getElem hlt, List.getElem_idxOf]
        exact hbefore _ (by omega) (h.offers_same hget)
      rw [addSeen, if_neg hnew, List.idxOf_append_of_notMem hnew, hj]
      simp
    · -- the first free slot would have been taken
      have hfree := h.free (seen.length + 1) le_rfl (lt_trans (by omega) hi.lt)
      refine absurd ?_ (hbefore (seen.length + 1) (by omega))
      rw [hfree, EpAssignment.offers, accepts_reset, Bool.or_true]

theorem getElem?_addSeen_idxOf (seen : List (ℕ × ℕ)) (d : EpDescriptor) :
    (addSeen seen d)[(addSeen seen d).idxOf d.key]? = some d.key := by
  have hlt := List.idxOf_lt_length_of_mem (mem_addSeen_self seen d)
  rw [List.getElem?_eq_getElem hlt, List.getElem_idxOf]

theorem getElem?_addSeen_of_ne {i : ℕ} {key : ℕ × ℕ} (hi : (addSeen seen d)[i]? = some key)
    (hne : i ≠ (addSeen seen d).idxOf d.key) : seen[i]? = some key := by
  simp only [addSeen] at hi hne
  split at hi
  · exact hi
  · rename_i hnew
    rw [if_neg hnew, List.idxOf_append_of_notMem hnew] at hne
    simp only [List.idxOf_cons_self, Nat.add_zero] at hne
    rcases Nat.lt_trichotomy i seen.length with h | h | h
    · rwa [List.getElem?_append_left h] at hi
    · exact absurd h hne
    · rw [List.getElem?_eq_none (by simp; omega)] at hi
      cases hi

theorem openSlot_record (s : Usb) (d : EpDescriptor) (i : ℕ) (typeBits : Word) :
    (openSlot s d i typeBits).epTransferSet i d.dirIdx =
      { s.epTransferSet i d.dirIdx with maxPacketSize := d.packetSize, epIdn := i } :=
  setTransfer_self s i d.dirIdx _

theorem openSlot_record_of_ne (s : Usb) (d : EpDescriptor) (i : ℕ) (typeBits : Word) {j x : ℕ}
    (h : (j, x) ≠ (i, d.dirIdx)) :
    (openSlot s d i typeBits).epTransferSet j x = s.epTransferSet j x := by
  refine setTransfer_record (s := s) (k := i) ?_
  by_contra hboth
  rw [not_or, not_not, not_not] at hboth
  exact h (Prod.ext hboth.1 hboth.2)

/-- Opening an endpoint enters its pair in the table. -/
theorem SlotTable.opened (h : SlotTable s seen) {i : ℕ}
    (hi : SlotFound s d.bEndpointAddress d.type i) (htype : usbEpOpenType d.type = some typeBits) :
    SlotTable (openSlot s d i typeBits) (addSeen seen d) := by
  have hidx := h.found hi htype
  have hself : (openSlot s d i typeBits).epAssignment i =
      (s.epAssignment i).take d.epIdn d.dirIdx d.type := takeSlot_self
  have hother : ∀ j, j ≠ i → (openSlot s d i typeBits).epAssignment j = s.epAssignment j :=
    fun j hj => takeSlot_of_ne hj
  have hlt := hi.lt
  constructor
  · exact (h.ep0.takeSlot hi).of_table rfl
  · have hlength := h.length
    simp only [addSeen] at hidx ⊢
    split at hidx
    · rename_i hmem
      rwa [if_pos hmem]
    · rename_i hnew
      rw [List.idxOf_append_of_notMem hnew] at hidx
      rw [if_neg hnew, List.length_append]
      simp at hidx ⊢
      omega
  · exact nodup_addSeen h.nodup d
  · intro key hkey
    rcases mem_addSeen hkey with hkey | rfl
    · exact h.known key hkey
    · exact key_known htype
  · intro j key hj
    by_cases hji : j = (addSeen seen d).idxOf d.key
    · have hkey : d.key = key := by
        rw [hji, getElem?_addSeen_idxOf] at hj
        exact Option.some.inj hj
      rw [hji, ← hidx, hself, ← hkey]
      exact ⟨rfl, rfl⟩
    · rw [hother (j + 1) (by omega)]
      exact h.slot j key (getElem?_addSeen_of_ne hj hji)
  · intro j hj hj'
    have hle := (isPrefix_addSeen seen d).length_le
    have hidxlt := List.idxOf_lt_length_of_mem (mem_addSeen_self seen d)
    rw [hother j (by omega)]
    exact h.free j (by omega) hj'
  · intro j hj hassigned
    by_cases hji : j = i
    · subst hji
      rw [hself, EpAssignment.take_assigned] at hassigned
      by_cases hdir : d.dirIdx = 1
      · rw [← hdir, openSlot_record]
      · rw [decide_eq_false (Ne.symm hdir), Bool.false_or] at hassigned
        rw [openSlot_record_of_ne s d j typeBits fun hsame => hdir (Prod.ext_iff.mp hsame).2.symm]
        exact h.record j hj hassigned
    · rw [hother j hji] at hassigned
      rw [openSlot_record_of_ne s d i typeBits fun hsame => hji (Prod.ext_iff.mp hsame).1]
      exact h.record j hj hassigned

end Step

/-! ### The run -/

/-- One endpoint opened. -/
theorem SlotTable.step {s : Usb} {seen : List (ℕ × ℕ)} {d : EpDescriptor} (h : SlotTable s seen)
    (hok : (usbEpOpenHal s d).1 = true) :
    SlotTable (usbEpOpenHal s d).2 (addSeen seen d) ∧
      (usbEpAssign s d.bEndpointAddress d.type).1 = (addSeen seen d).idxOf d.key + 1 ∧
      (((usbEpOpenHal s d).2.epAssignment ((addSeen seen d).idxOf d.key + 1)).assigned d.dirIdx =
        true) := by
  have hr := usbEpOpenHal_outcome s d
  generalize usbEpOpenHal s d = r at hr hok
  cases hr with
  | noSlot => cases hok
  | unsupported => cases hok
  | opened i typeBits hi htype =>
    have hidx := h.found hi htype
    refine ⟨h.opened hi htype, ?_, ?_⟩
    · rw [usbEpAssign_found hi, ← hidx]
    · show (((takeSlot s d i).epAssignment _).assigned d.dirIdx) = true
      rw [← hidx, takeSlot_self, EpAssignment.take_assigned, decide_eq_true rfl, Bool.true_or]

/-- What a sequence of openings has given out: every endpoint the slot of its pair, and its
direction there is assigned. -/
theorem openAll_given : ∀ {ds : List EpDescriptor} {s s' : Usb} {seen : List (ℕ × ℕ)}
    {given : List (EpDescriptor × ℕ)}, SlotTable s seen → openAll s ds = some (given, s') →
    SlotTable s' (ds.foldl addSeen seen) ∧ given.map Prod.fst = ds ∧
      (∀ i x, (s.epAssignment i).assigned x = true → (s'.epAssignment i).assigned x = true) ∧
      ∀ p ∈ given, p.2 = (ds.foldl addSeen seen).idxOf p.1.key + 1 ∧
        p.1.key ∈ ds.foldl addSeen seen ∧ (s'.epAssignment p.2).assigned p.1.dirIdx = true := by
  intro ds
  induction ds with
  | nil =>
    intro s s' seen given h hopen
    cases hopen
    exact ⟨h, rfl, fun _ _ hx => hx, fun _ hp => absurd hp List.not_mem_nil⟩
  | cons d ds ih =>
    intro s s' seen given h hopen
    rw [openAll] at hopen
    split at hopen
    · rename_i hok
      obtain ⟨⟨rest, s''⟩, hrest, heq⟩ := Option.map_eq_some_iff.mp hopen
      cases heq
      obtain ⟨hstep, hslot, hassigned⟩ := h.step hok
      obtain ⟨htable, hfst, hkept, hall⟩ := ih hstep hrest
      have hprefix := isPrefix_foldl_addSeen ds (addSeen seen d)
      have hmem := mem_addSeen_self seen d
      refine ⟨htable, by rw [List.map_cons, hfst],
        fun i x hx => hkept i x (usbEpOpenHal_assigned s d hx), ?_⟩
      intro p hp
      rcases List.mem_cons.mp hp with rfl | hp
      · refine ⟨?_, hprefix.subset hmem, ?_⟩
        · rw [List.foldl_cons, idxOf_of_isPrefix hprefix hmem]
          exact hslot
        · rw [hslot]
          exact hkept _ _ hassigned
      · exact hall p hp
    · cases hopen

/-- **Endpoint addresses reach their slots exactly when the endpoints are numbered in the order
they are opened.** -/
theorem acts_on_slots_iff {s₀ s : Usb} {ds : List EpDescriptor} {given : List (EpDescriptor × ℕ)}
    (hopen : openAll (usbInitEnableHal s₀) ds = some (given, s)) :
    (∀ p ∈ given, ActsOnSlot s p.1.bEndpointAddress p.2) ↔ NumberedInOrder ds := by
  obtain ⟨htable, hfst, -, hall⟩ := openAll_given (slotTable_usbInitEnableHal s₀) hopen
  have hlt : ∀ p ∈ given, p.2 < usbEpMax := by
    intro p hp
    obtain ⟨hidx, hmem, -⟩ := hall p hp
    have hlength := htable.length
    have hidxlt := List.idxOf_lt_length_of_mem hmem
    omega
  constructor
  · intro hacts i key hkey
    -- the pair was opened, and the slot it was given is its number
    have hmem : key ∈ firstSeen ds := List.mem_of_getElem? hkey
    obtain ⟨d, hd, rfl⟩ := (mem_foldl_addSeen ds [] hmem).resolve_left List.not_mem_nil
    rw [← hfst] at hd
    obtain ⟨p, hp, rfl⟩ := List.mem_map.mp hd
    have hnumber := (hacts p hp).eq_usbEpIdn (hlt p hp)
    have hlen : i < (firstSeen ds).length := (List.getElem?_eq_some_iff.mp hkey).1
    have hi : (firstSeen ds).idxOf p.1.key = i := by
      have hget := (List.getElem?_eq_some_iff.mp hkey).2
      rw [← hget]
      exact htable.nodup.idxOf_getElem i hlen
    rw [(hall p hp).1] at hnumber
    show p.1.epIdn = i + 1
    rw [← hi]
    exact hnumber.symm
  · intro hordered p hp
    obtain ⟨hidx, hmem, hassigned⟩ := hall p hp
    have hlen := List.idxOf_lt_length_of_mem hmem
    have hget : (firstSeen ds)[(firstSeen ds).idxOf p.1.key]? = some p.1.key :=
      List.getElem?_eq_some_iff.mpr ⟨hlen, List.getElem_idxOf hlen⟩
    have hnumber : usbEpIdn p.1.bEndpointAddress = p.2 := by
      rw [hidx]
      exact hordered _ _ hget
    rw [← hnumber] at hassigned ⊢
    refine actsOnSlot_usbEpIdn (hnumber ▸ hlt p hp) fun hdir => ?_
    refine htable.record _ (hnumber ▸ hlt p hp) ?_
    rw [← hdir]
    exact hassigned

/-- The endpoints of the firmware, in its order. -/
def firmwareEndpoints : List EpDescriptor :=
  [{ bEndpointAddress := 0x81#8, type := usbEpTypeInterrupt, wMaxPacketSize := 8 },
    { bEndpointAddress := 0x02#8, type := usbEpTypeBulk, wMaxPacketSize := 64 },
    { bEndpointAddress := 0x82#8, type := usbEpTypeBulk, wMaxPacketSize := 64 }]

/-- The endpoints of the firmware are numbered in order. -/
theorem firmwareEndpoints_reach_slots :
    ∃ given s, openAll (usbInitEnableHal usbPowerOn) firmwareEndpoints = some (given, s) ∧
      ∀ p ∈ given, ActsOnSlot s p.1.bEndpointAddress p.2 := by
  have hopens : (openAll (usbInitEnableHal usbPowerOn) firmwareEndpoints).isSome = true := by decide
  obtain ⟨⟨given, s⟩, hopen⟩ := Option.isSome_iff_exists.mp hopens
  refine ⟨given, s, hopen, (acts_on_slots_iff hopen).mpr ?_⟩
  have hseen : firstSeen firmwareEndpoints = [(1, 3), (2, 2)] := by decide
  intro i key hkey
  rw [hseen] at hkey
  rcases i with _ | _ | i
  · cases hkey
    rfl
  · cases hkey
    rfl
  · simp at hkey

/-- Endpoint 2 opened first is in slot 1, but transfers queued for it go to slot 2. -/
theorem endpoint_two_first_misses_slot :
    ∃ given s, openAll (usbInitEnableHal usbPowerOn)
        [{ bEndpointAddress := 0x82#8, type := usbEpTypeBulk, wMaxPacketSize := 64 }] =
        some (given, s) ∧ ¬∀ p ∈ given, ActsOnSlot s p.1.bEndpointAddress p.2 := by
  have hslots : (openAll (usbInitEnableHal usbPowerOn)
      [{ bEndpointAddress := 0x82#8, type := usbEpTypeBulk, wMaxPacketSize := 64 }]).map
        (fun r => r.1.map fun p => (p.1.bEndpointAddress, p.2)) = some [(0x82#8, 1)] := by decide
  obtain ⟨⟨given, s⟩, hopen, hgiven⟩ := Option.map_eq_some_iff.mp hslots
  refine ⟨given, s, hopen, fun hacts => ?_⟩
  obtain ⟨p, hp, heq⟩ : ∃ p ∈ given, (p.1.bEndpointAddress, p.2) = (0x82#8, 1) := by
    rw [← List.mem_map, hgiven]
    exact List.mem_singleton_self _
  obtain ⟨haddr, hslot⟩ := Prod.ext_iff.mp heq
  dsimp only at haddr hslot
  have hp' := hacts p hp
  rw [haddr, hslot] at hp'
  exact absurd (hp'.eq_usbEpIdn (by decide)) (by decide)

end PcbMill
