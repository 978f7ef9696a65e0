import PcbMill.Lib.Run
import PcbMill.Usb.EndpointSlots

/-!
# The endpoint registers and the assignment table

The table is changed by opening, closing and initialising, the registers by these and by every
transfer and stall.  Closing and initialising write 0, which leaves the toggling status bits as
they are, and transfers and stalls do not look at the table, so the two agree only while no
enabled endpoint is closed and only endpoints that are open are used.
-/

namespace PcbMill

open FixedWidth Run

/-! ### The runs -/

/-- The calls of the HAL. -/
inductive HalCall where
  | init
  | openEp (d : EpDescriptor)
  | closeAll
  | queue (epAddr : Byte) (buffer : Ptr) (totalBytes : ℕ)
  | stallSet (epAddr : Byte)
  | stallClear (epAddr : Byte)

def halCall (s : Usb) : HalCall → Usb
  | .init => usbInitEnableHal s
  | .openEp d => (usbEpOpenHal s d).2
  | .closeAll => usbEpCloseAll s
  | .queue epAddr buffer totalBytes => (usbEpQueueTransfer s epAddr buffer totalBytes).2
  | .stallSet epAddr => usbEpStallSetHal s (usbEpIdn epAddr) (usbEpDirIdx epAddr)
  | .stallClear epAddr => usbEpStallClearHal s (usbEpIdn epAddr) (usbEpDirIdx epAddr)

/-- A call, or what the bus does to the registers. -/
inductive HalEvent where
  | call (c : HalCall)
  | setupPacket (request : UsbControlRequest)
  | outPacket (epIdn : ℕ) (data : List Byte)
  | inPacket (epIdn : ℕ)

def halStep (s : Usb) : HalEvent → Usb
  | .call c => halCall s c
  | .setupPacket request => busSetup s request
  | .outPacket epIdn data => busOut s epIdn data
  | .inPacket epIdn => busIn s epIdn

/-- The device after `usb_device_init`. -/
def halBoot : Usb := usbDeviceInit usbPowerOn

/-! ### Agreement -/

/-- Some direction of the slot is enabled. -/
def Enabled (s : Usb) (k : ℕ) : Prop :=
  epState (s.chep k) 0 ≠ .disabled ∨ epState (s.chep k) 1 ≠ .disabled

instance (s : Usb) (k : ℕ) : Decidable (Enabled s k) := inferInstanceAs (Decidable (_ ∨ _))

/-- Directions that are not assigned are disabled, an enabled slot has the number of the table in
its address field, and no two enabled slots have the same. -/
structure RegistersAgree (s : Usb) : Prop where
  disabled : ∀ k x, k < usbEpMax → x ≤ 1 → (s.epAssignment k).assigned x = false →
    epState (s.chep k) x = .disabled
  address : ∀ k, k < usbEpMax → Enabled s k →
    (epAddress (s.chep k)).toNat = (s.epAssignment k).epIdn
  distinct : ∀ k l, k < usbEpMax → l < usbEpMax → Enabled s k → Enabled s l →
    epAddress (s.chep k) = epAddress (s.chep l) → k = l

/-- The slots behind EP0 are disabled. -/
def OthersDisabled (s : Usb) : Prop := ∀ k, 1 ≤ k → k < usbEpMax → ¬Enabled s k

/-- A direction of a slot may be enabled: it is assigned, the address field has the number of the
table, and no other enabled slot has it. -/
structure MayEnable (s : Usb) (k x : ℕ) : Prop where
  assigned : (s.epAssignment k).assigned x = true
  address : (epAddress (s.chep k)).toNat = (s.epAssignment k).epIdn
  distinct : ∀ l, l < usbEpMax → l ≠ k → Enabled s l → epAddress (s.chep l) ≠ epAddress (s.chep k)

/-- The slot a transfer is armed in: for transmission the one in the record. -/
def armedSlot (s : Usb) (epAddr : Byte) : ℕ :=
  if usbEpDirIdx epAddr = usbDirDeviceOutHostInIdx then
    (s.epTransferSet (usbEpIdn epAddr) usbDirDeviceOutHostInIdx).epIdn
  else usbEpIdn epAddr

/-- The condition on one event, in the state before it. -/
def CallOk (s : Usb) : HalEvent → Prop
  | .call .init | .call .closeAll => OthersDisabled s
  | .call (.openEp d) => ∀ i, SlotFound s d.bEndpointAddress d.type i →
      (usbEpOpenType d.type).isSome = true →
      ∀ l, l < usbEpMax → l ≠ i → Enabled s l → (epAddress (s.chep l)).toNat ≠ d.epIdn
  | .call (.queue epAddr _ _) => armedSlot s epAddr < usbEpMax →
      MayEnable s (armedSlot s epAddr) (usbEpDirIdx epAddr)
  | .call (.stallSet epAddr) => usbEpIdn epAddr < usbEpMax →
      MayEnable s (usbEpIdn epAddr) (usbEpDirIdx epAddr)
  | .call (.stallClear _) | .setupPacket _ | .outPacket _ _ | .inPacket _ => True

/-! ### One slot changed -/

section Slot

variable {s s' : Usb} {k x : ℕ}

/-- One direction of slot `k` gets the state `st`; table and addresses are as before. -/
structure StateSet (s s' : Usb) (k x : ℕ) (st : EpState) : Prop where
  epAssignment : s'.epAssignment = s.epAssignment
  other : ∀ l, l ≠ k → s'.chep l = s.chep l
  state : epState (s'.chep k) x = st
  half : ∀ y, y ≤ 1 → y ≠ x → epState (s'.chep k) y = epState (s.chep k) y
  address : epAddress (s'.chep k) = epAddress (s.chep k)

theorem StateSet.address_eq {st : EpState} (h : StateSet s s' k x st) (l : ℕ) :
    epAddress (s'.chep l) = epAddress (s.chep l) := by
  by_cases hl : l = k
  · rw [hl, h.address]
  · rw [h.other l hl]

theorem enabled_of_state (hx : x ≤ 1) (h : epState (s.chep k) x ≠ .disabled) : Enabled s k := by
  interval_cases x
  · exact .inl h
  · exact .inr h

theorem Enabled.exists_state (h : Enabled s k) : ∃ x, x ≤ 1 ∧ epState (s.chep k) x ≠ .disabled := by
  rcases h with h | h
  · exact ⟨0, Nat.zero_le 1, h⟩
  · exact ⟨1, le_rfl, h⟩

theorem StateSet.enabled_other {st : EpState} (h : StateSet s s' k x st) {l : ℕ} (hl : l ≠ k) :
    Enabled s' l ↔ Enabled s l := by
  simp only [Enabled]
  rw [h.other l hl]

/-- A slot that is enabled after the change was enabled before, or it is the changed one. -/
theorem StateSet.enabled_cases {st : EpState} (h : StateSet s s' k x st) {l : ℕ}
    (hl : Enabled s' l) : Enabled s l ∨ l = k ∧ st ≠ .disabled := by
  by_cases hlk : l = k
  · subst hlk
    obtain ⟨y, hy, hstate⟩ := hl.exists_state
    by_cases hyx : y = x
    · subst hyx
      rw [h.state] at hstate
      exact .inr ⟨rfl, hstate⟩
    · rw [h.half y hy hyx] at hstate
      exact .inl (enabled_of_state hy hstate)
  · exact .inl ((h.enabled_other hlk).mp hl)

/-- An enabled direction may be enabled. -/
theorem RegistersAgree.mayEnable (h : RegistersAgree s) (hk : k < usbEpMax) (hx : x ≤ 1)
    (hstate : epState (s.chep k) x ≠ .disabled) : MayEnable s k x where
  assigned := by
    cases hassigned : (s.epAssignment k).assigned x with
    | true => rfl
    | false => exact absurd (h.disabled k x hk hx hassigned) hstate
  address := h.address k hk (enabled_of_state hx hstate)
  distinct := fun l hl hne henabled heq =>
    hne (h.distinct l k hl hk henabled (enabled_of_state hx hstate) heq)

/-- Setting the state of a direction keeps the agreement exactly when the direction may be
enabled, or is being disabled. -/
theorem RegistersAgree.stateSet_iff (h : RegistersAgree s) {st : EpState}
    (hset : StateSet s s' k x st) (hk : k < usbEpMax) (hx : x ≤ 1) :
    RegistersAgree s' ↔ (st ≠ .disabled → MayEnable s k x) := by
  constructor
  · intro h' hst
    have hstate : epState (s'.chep k) x ≠ .disabled := by
      rw [hset.state]
      exact hst
    have hmay := h'.mayEnable hk hx hstate
    constructor
    · rw [← hset.epAssignment]
      exact hmay.assigned
    · rw [← hset.address, ← hset.epAssignment]
      exact hmay.address
    · intro l hl hne henabled
      rw [← hset.address_eq l, ← hset.address]
      exact hmay.distinct l hl hne ((hset.enabled_other hne).mpr henabled)
  · intro hmay
    constructor
    · intro l y hl hy hassigned
      rw [hset.epAssignment] at hassigned
      by_cases hlk : l = k
      · subst hlk
        by_cases hyx : y = x
        · subst hyx
          rw [hset.state]
          by_contra hst
          cases hassigned.symm.trans (hmay hst).assigned
        · rw [hset.half y hy hyx]
          exact h.disabled l y hl hy hassigned
      · rw [hset.other l hlk]
        exact h.disabled l y hl hy hassigned
    · intro l hl henabled
      rw [hset.address_eq l, hset.epAssignment]
      rcases hset.enabled_cases henabled with henabled | ⟨rfl, hst⟩
      · exact h.address l hl henabled
      · exact (hmay hst).address
    · intro l l' hl hl' henabled henabled' heq
      rw [hset.address_eq l, hset.address_eq l'] at heq
      rcases hset.enabled_cases henabled with henabled | ⟨rfl, hst⟩
      · rcases hset.enabled_cases henabled' with henabled' | ⟨rfl, hst⟩
        · exact h.distinct l l' hl hl' henabled henabled' heq
        · by_contra hne
          exact (hmay hst).distinct l hl hne henabled heq
      · rcases hset.enabled_cases henabled' with henabled' | ⟨rfl, -⟩
        · by_contra hne
          exact (hmay hst).distinct l' hl' (Ne.symm hne) henabled' heq.symm
        · rfl

end Slot

/-! ### Transfers and stalls -/

section Calls

variable {s s' : Usb} {k x : ℕ}

theorem stateSet_of_chep {r : Word} {st : EpState} (htable : s'.epAssignment = s.epAssignment)
    (hchep : s'.chep = Function.update s.chep k r) (hx : x ≤ 1)
    (hstate : ∀ y, epState r y = if (y = 1 ↔ x = 1) then st else epState (s.chep k) y)
    (haddress : epAddress r = epAddress (s.chep k)) : StateSet s s' k x st where
  epAssignment := htable
  other := fun l hl => by rw [hchep, Function.update_of_ne hl]
  state := by rw [hchep, Function.update_self, hstate, if_pos Iff.rfl]
  half := fun y hy hne => by
    rw [hchep, Function.update_self, hstate, if_neg (iff_one_of_le hy hx hne)]
  address := by rw [hchep, Function.update_self, haddress]

/-- Registers behind the last slot do not matter. -/
theorem registersAgree_congr (htable : s'.epAssignment = s.epAssignment)
    (hchep : ∀ l, l < usbEpMax → s'.chep l = s.chep l) : RegistersAgree s' ↔ RegistersAgree s := by
  have hkeep : ∀ {s s' : Usb}, s'.epAssignment = s.epAssignment →
      (∀ l, l < usbEpMax → s'.chep l = s.chep l) → RegistersAgree s → RegistersAgree s' := by
    intro s s' htable hchep h
    have henabled : ∀ l, l < usbEpMax → Enabled s' l → Enabled s l := by
      intro l hl hen
      simp only [Enabled] at hen ⊢
      rwa [hchep l hl] at hen
    constructor
    · intro l y hl hy hassigned
      rw [htable] at hassigned
      rw [hchep l hl]
      exact h.disabled l y hl hy hassigned
    · intro l hl hen
      rw [hchep l hl, htable]
      exact h.address l hl (henabled l hl hen)
    · intro l l' hl hl' hen hen' heq
      rw [hchep l hl, hchep l' hl'] at heq
      exact h.distinct l l' hl hl' (henabled l hl hen) (henabled l' hl' hen') heq
  exact ⟨hkeep htable.symm fun l hl => (hchep l hl).symm, hkeep htable hchep⟩

/-- Enabling a direction keeps the agreement exactly when it may be enabled. -/
theorem RegistersAgree.enable_iff (h : RegistersAgree s) {st : EpState}
    (hset : StateSet s s' k x st) (hx : x ≤ 1) (hst : st ≠ .disabled) :
    RegistersAgree s' ↔ (k < usbEpMax → MayEnable s k x) := by
  by_cases hk : k < usbEpMax
  · rw [h.stateSet_iff hset hk hx]
    exact ⟨fun hmay _ => hmay hst, fun hmay _ => hmay hk⟩
  · rw [registersAgree_congr hset.epAssignment fun l hl => hset.other l (by omega)]
    exact ⟨fun _ hlt => absurd hlt hk, fun _ => h⟩

theorem usbEpDirIdx_le (epAddr : Byte) : usbEpDirIdx epAddr ≤ 1 := by
  rcases usbEpDirIdx_cases epAddr with h | h <;> omega

theorem stateSet_stallSet (s : Usb) (k : ℕ) (hx : x ≤ 1) :
    StateSet s (usbEpStallSetHal s k x) k x .stall :=
  stateSet_of_chep rfl rfl hx (epState_of_epView (epView_stallSet _ x)) (by
    rw [epAddress_regSetPreserve, epAddress_stallSet])

theorem stateSet_stallClear (s : Usb) (k : ℕ) (hx : x ≤ 1) :
    StateSet s (usbEpStallClearHal s k x) k x .disabled :=
  stateSet_of_chep rfl rfl hx (epState_of_epView (epView_stallClear _ x)) (by
    rw [epAddress_regSetPreserve, epAddress_stallClear])

theorem usbTxPacket_chep_record (s : Usb) (idn : ℕ) :
    (usbTxPacket s idn).chep = Function.update s.chep (s.epTransferSet idn 1).epIdn
      (regSetPreserve (s.chep (s.epTransferSet idn 1).epIdn)
        (txValidValue (s.chep (s.epTransferSet idn 1).epIdn))) := rfl

theorem recordTransfer_epIdn (s : Usb) (k x : ℕ) (buffer : Ptr) (n : ℕ) :
    ((recordTransfer s k x buffer n).epTransferSet k x).epIdn = (s.epTransferSet k x).epIdn := by
  rw [recordTransfer, setTransfer_self]

theorem stateSet_queue (s : Usb) (epAddr : Byte) (buffer : Ptr) (n : ℕ) :
    StateSet s (usbEpQueueTransfer s epAddr buffer n).2 (armedSlot s epAddr) (usbEpDirIdx epAddr)
      .valid := by
  have htable := (usbEpQueueTransfer_tables s epAddr buffer n).1
  simp only [armedSlot]
  rcases usbEpDirIdx_cases epAddr with h | h
  · rw [if_neg (by rw [h]; decide), h]
    refine stateSet_of_chep htable ?_ (Nat.zero_le 1) ?_ ?_
      (r := regSetPreserve (s.chep (usbEpIdn epAddr)) (rxValidValue (s.chep (usbEpIdn epAddr)) 0))
    · rw [usbEpQueueTransfer, h, usbEpQueueTransferHal_out]
      rfl
    · refine epState_of_epView ?_
      rw [if_neg Nat.zero_ne_one]
      exact epView_rxValid _ Nat.zero_ne_one
    · rw [epAddress_regSetPreserve, epAddress_rxValid]
  · rw [if_pos (show usbEpDirIdx epAddr = usbDirDeviceOutHostInIdx from h), h]
    refine stateSet_of_chep htable ?_ le_rfl ?_ ?_
      (r := regSetPreserve (s.chep (s.epTransferSet (usbEpIdn epAddr) 1).epIdn)
        (txValidValue (s.chep (s.epTransferSet (usbEpIdn epAddr) 1).epIdn)))
    · rw [usbEpQueueTransfer, h, usbEpQueueTransferHal_in, usbTxPacket_chep_record,
        recordTransfer_epIdn]
      rfl
    · refine epState_of_epView ?_
      rw [if_pos rfl]
      exact epView_txValid _
    · rw [epAddress_regSetPreserve, epAddress_txValid]
      rfl

end Calls

/-! ### Opening -/

section Opening

variable {s : Usb} {d : EpDescriptor} {i : ℕ} {typeBits : Word}

theorem epIdn_bits (a : Byte) : BitVec.ofNat 32 (usbEpIdn a) &&& 0xF0F0#32 = 0#32 := by
  revert a
  decide

theorem epIdn_address (a : Byte) :
    ((BitVec.ofNat 32 (usbEpIdn a)).setWidth 4 : BitVec 4).toNat = usbEpIdn a := by
  revert a
  decide

theorem typeBits_cases (htype : usbEpOpenType d.type = some typeBits) :
    typeBits = usbEpBulk ∨ typeBits = usbEpInterrupt := by
  simp only [usbEpOpenType] at htype
  split at htype
  · exact .inl (Option.some.inj htype).symm
  · split at htype
    · exact .inr (Option.some.inj htype).symm
    · cases htype

theorem epView_openSlot (htype : usbEpOpenType d.type = some typeBits) :
    epView ((openSlot s d i typeBits).chep i) =
      if d.dirIdx = 1 then { epView (s.chep i) with tx := .nak }
      else { epView (s.chep i) with rx := .nak } := by
  have hbits : typeBits &&& 0xF0F0#32 = 0#32 := by
    rcases typeBits_cases htype with rfl | rfl <;> decide
  show epView (Function.update s.chep i _ i) = _
  rw [Function.update_self]
  exact epView_epOpen _ _ _ _ (epIdn_bits _) hbits

theorem epAddress_openSlot (htype : usbEpOpenType d.type = some typeBits) :
    (epAddress ((openSlot s d i typeBits).chep i)).toNat = d.epIdn := by
  have hbits : typeBits &&& 0x0F#32 = 0#32 := by
    rcases typeBits_cases htype with rfl | rfl <;> decide
  show (epAddress (Function.update s.chep i _ i)).toNat = _
  rw [Function.update_self, epAddress_regSetPreserve, epAddress_epOpen _ _ _ _ hbits]
  exact epIdn_address _

theorem openSlot_chep_of_ne {l : ℕ} (hl : l ≠ i) :
    (openSlot s d i typeBits).chep l = s.chep l :=
  Function.update_of_ne hl ..

theorem openSlot_table_of_ne {l : ℕ} (hl : l ≠ i) :
    (openSlot s d i typeBits).epAssignment l = s.epAssignment l :=
  takeSlot_of_ne hl

theorem openSlot_table_self :
    (openSlot s d i typeBits).epAssignment i =
      (s.epAssignment i).take d.epIdn d.dirIdx d.type :=
  takeSlot_self

theorem enabled_openSlot_of_ne {l : ℕ} (hl : l ≠ i) :
    Enabled (openSlot s d i typeBits) l ↔ Enabled s l := by
  simp only [Enabled]
  rw [openSlot_chep_of_ne hl]

theorem enabled_openSlot_self (htype : usbEpOpenType d.type = some typeBits) :
    Enabled (openSlot s d i typeBits) i := by
  refine enabled_of_state (usbEpDirIdx_le d.bEndpointAddress) ?_
  have hstate := epState_of_epView (epView_openSlot (s := s) (i := i) htype) d.dirIdx
  rw [if_pos Iff.rfl] at hstate
  exact hstate ▸ EpState.noConfusion

/-- Opening an endpoint keeps the agreement exactly when no other enabled slot has its number. -/
theorem RegistersAgree.openSlot_iff (h : RegistersAgree s) (hi : i < usbEpMax)
    (htype : usbEpOpenType d.type = some typeBits) :
    RegistersAgree (openSlot s d i typeBits) ↔
      ∀ l, l < usbEpMax → l ≠ i → Enabled s l → (epAddress (s.chep l)).toNat ≠ d.epIdn := by
  have haddress := epAddress_openSlot (s := s) (i := i) htype
  have hself := enabled_openSlot_self (s := s) (i := i) htype
  constructor
  · intro h' l hl hne henabled heq
    refine hne (h'.distinct l i hl hi ((enabled_openSlot_of_ne hne).mpr henabled) hself ?_)
    rw [openSlot_chep_of_ne hne]
    exact BitVec.eq_of_toNat_eq (heq.trans haddress.symm)
  · intro hfree
    -- the number in an enabled slot other than `i` is not the new one
    have hclash : ∀ l, l < usbEpMax → l ≠ i → Enabled (openSlot s d i typeBits) l →
        epAddress ((openSlot s d i typeBits).chep l) ≠
          epAddress ((openSlot s d i typeBits).chep i) := by
      intro l hl hne henabled heq
      refine hfree l hl hne ((enabled_openSlot_of_ne hne).mp henabled) ?_
      rw [← haddress, ← heq, openSlot_chep_of_ne hne]
    constructor
    · intro l x hl hx hassigned
      by_cases hli : l = i
      · subst hli
        rw [openSlot_table_self, EpAssignment.take_assigned, Bool.or_eq_false_iff] at hassigned
        obtain ⟨hne, hassigned⟩ := hassigned
        have hdir : d.dirIdx ≤ 1 := usbEpDirIdx_le d.bEndpointAddress
        rw [epState_of_epView (epView_openSlot htype),
          if_neg (iff_one_of_le hx hdir (of_decide_eq_false hne))]
        exact h.disabled l x hl hx hassigned
      · rw [openSlot_table_of_ne hli] at hassigned
        rw [openSlot_chep_of_ne hli]
        exact h.disabled l x hl hx hassigned
    · intro l hl henabled
      by_cases hli : l = i
      · subst hli
        rw [haddress, openSlot_table_self]
        rfl
      · rw [openSlot_chep_of_ne hli, openSlot_table_of_ne hli]
        exact h.address l hl ((enabled_openSlot_of_ne hli).mp henabled)
    · intro l l' hl hl' henabled henabled' heq
      by_cases hli : l = i
      · by_cases hli' : l' = i
        · rw [hli, hli']
        · subst hli
          exact absurd heq.symm (hclash l' hl' hli' henabled')
      · by_cases hli' : l' = i
        · subst hli'
          exact absurd heq (hclash l hl hli henabled)
        · rw [openSlot_chep_of_ne hli, openSlot_chep_of_ne hli'] at heq
          exact h.distinct l l' hl hl' ((enabled_openSlot_of_ne hli).mp henabled)
            ((enabled_openSlot_of_ne hli').mp henabled') heq

/-- The number in the address field of an enabled slot. -/
theorem epAddress_lt (r : Word) : (epAddress r).toNat < 16 := (epAddress r).isLt

/-- An endpoint of an unsupported type is entered in the table only: the slot it is entered in has
its number already, or is disabled. -/
theorem RegistersAgree.takeSlot (h : RegistersAgree s) (hi : SlotFound s d.bEndpointAddress d.type i) :
    RegistersAgree (takeSlot s d i) := by
  have hnumber : Enabled s i → (s.epAssignment i).epIdn = d.epIdn := by
    intro henabled
    have haddress := h.address i hi.lt henabled
    have hoffers : (s.epAssignment i).offers d.epIdn d.dirIdx d.type = true := hi.offers
    rw [EpAssignment.offers, Bool.or_eq_true, EpAssignment.serves_iff, EpAssignment.accepts_iff]
      at hoffers
    rcases hoffers with ⟨-, -, hidn⟩ | ⟨-, hidn | hidn, -⟩
    · exact hidn
    · have hlt := epAddress_lt (s.chep i)
      rw [haddress, hidn] at hlt
      exact absurd hlt (by decide)
    · exact hidn
  constructor
  · intro l x hl hx hassigned
    refine h.disabled l x hl hx ?_
    by_cases hli : l = i
    · subst hli
      rw [takeSlot_self, EpAssignment.take_assigned, Bool.or_eq_false_iff] at hassigned
      exact hassigned.2
    · rwa [takeSlot_of_ne hli] at hassigned
  · intro l hl henabled
    by_cases hli : l = i
    · subst hli
      rw [takeSlot_self]
      exact (h.address l hl henabled).trans (hnumber henabled)
    · rw [takeSlot_of_ne hli]
      exact h.address l hl henabled
  · exact h.distinct

end Opening

/-! ### Initialising and closing -/

theorem usbEpCloseAll_chep (s : Usb) {k : ℕ} (hk : 1 ≤ k) (hk' : k < usbEpMax) :
    (usbEpCloseAll s).chep k = regSet (s.chep k) 0#32 := by
  simp only [usbEpMax] at hk'
  interval_cases k <;> rfl

/-- The slots behind EP0 lose their assignment but not their state, and EP0 is kept or set up
anew. -/
structure OthersReleased (s s' : Usb) : Prop where
  released : FreeFrom 1 s'
  state : ∀ k, 1 ≤ k → k < usbEpMax → ∀ x, epState (s'.chep k) x = epState (s.chep k) x
  ep0 : ∀ x, x ≤ 1 → (s'.epAssignment 0).assigned x = false → epState (s'.chep 0) x = .disabled
  ep0Address : Enabled s' 0 → (epAddress (s'.chep 0)).toNat = (s'.epAssignment 0).epIdn

/-- This keeps the agreement exactly when they were disabled. -/
theorem OthersReleased.agree_iff {s s' : Usb} (h : OthersReleased s s') :
    RegistersAgree s' ↔ OthersDisabled s := by
  have henabled : ∀ k, 1 ≤ k → k < usbEpMax → (Enabled s' k ↔ Enabled s k) := by
    intro k hk hk'
    simp only [Enabled]
    rw [h.state k hk hk' 0, h.state k hk hk' 1]
  constructor
  · intro h' k hk hk' hen
    obtain ⟨x, hx, hstate⟩ := ((henabled k hk hk').mpr hen).exists_state
    refine hstate (h'.disabled k x hk' hx ?_)
    rw [h.released k hk hk']
    rfl
  · intro hdisabled
    have hzero : ∀ k, k < usbEpMax → Enabled s' k → k = 0 := by
      intro k hk' hen
      by_contra hne
      have hk : 1 ≤ k := by omega
      exact hdisabled k hk hk' ((henabled k hk hk').mp hen)
    constructor
    · intro k x hk' hx hassigned
      by_contra hstate
      have hk := hzero k hk' (enabled_of_state hx hstate)
      subst hk
      exact hstate (h.ep0 x hx hassigned)
    · intro k hk' hen
      have hk := hzero k hk' hen
      subst hk
      exact h.ep0Address hen
    · intro k l hk hl hen hen' _
      rw [hzero k hk hen, hzero l hl hen']

theorem othersReleased_init (s : Usb) : OthersReleased s (usbInitEnableHal s) where
  released := freeFrom_usbInitEnableHal s
  state := fun k hk _ x => by
    rw [usbInitEnableHal_chep, Function.update_of_ne (by omega)]
  ep0 := by
    intro x hx hassigned
    interval_cases x
    · cases hassigned.symm.trans (ep0Assigned_usbInitEnableHal s).rx
    · cases hassigned.symm.trans (ep0Assigned_usbInitEnableHal s).tx
  ep0Address := fun _ => by
    rw [usbInitEnableHal_chep, Function.update_self, epAddress_regSet, epAddress_controlInit,
      (ep0Assigned_usbInitEnableHal s).epIdn]
    rfl

theorem RegistersAgree.othersReleased_closeAll {s : Usb} (h : RegistersAgree s) :
    OthersReleased s (usbEpCloseAll s) := by
  have hclosed := closedAt_usbEpCloseAll s
  have htable : (usbEpCloseAll s).epAssignment 0 = s.epAssignment 0 :=
    (hclosed.epAssignment 0).trans (if_neg (by decide))
  have hchep : (usbEpCloseAll s).chep 0 = s.chep 0 := hclosed.chep 0 (by decide)
  constructor
  · exact freeFrom_usbEpCloseAll s
  · intro k hk hk' x
    rw [usbEpCloseAll_chep s hk hk', epState_regSet_zero]
  · intro x hx hassigned
    rw [htable] at hassigned
    rw [hchep]
    exact h.disabled 0 x (by decide) hx hassigned
  · intro hen
    simp only [Enabled] at hen
    rw [hchep] at hen
    rw [hchep, htable]
    exact h.address 0 (by decide) hen

/-! ### The bus -/

section Bus

variable {s s' : Usb} {k x : ℕ}

theorem epState_hwRxPacket (r : Word) (y : ℕ) :
    epState (hwRxPacket r) y = if (y = 1 ↔ (0 : ℕ) = 1) then .nak else epState r y := by
  rw [epState_eq, epState_eq, epView_hwRxPacket]
  by_cases hy : y = 1 <;> simp [hy]

theorem epState_hwTxPacket (r : Word) (y : ℕ) :
    epState (hwTxPacket r) y = if (y = 1 ↔ (1 : ℕ) = 1) then .nak else epState r y := by
  rw [epState_eq, epState_eq, epView_hwTxPacket]
  by_cases hy : y = 1 <;> simp [hy]

theorem epState_hwSetupPacket (r : Word) (y : ℕ) : epState (hwSetupPacket r) y = .nak := by
  rw [epState_eq, epView_hwSetupPacket]
  simp

/-- A packet on a direction that is enabled. -/
theorem RegistersAgree.packet (h : RegistersAgree s) {st : EpState} (hset : StateSet s s' k x st)
    (hx : x ≤ 1) (hst : st ≠ .disabled) (henabled : epState (s.chep k) x ≠ .disabled) :
    RegistersAgree s' :=
  (h.enable_iff hset hx hst).mpr fun hk => h.mayEnable hk hx henabled

theorem RegistersAgree.busOut (h : RegistersAgree s) (k : ℕ) (data : List Byte) :
    RegistersAgree (busOut s k data) := by
  simp only [PcbMill.busOut]
  split
  · rename_i hok
    simp only [busOutOk] at hok
    rw [Bool.and_eq_true, beq_iff_eq] at hok
    have hset : StateSet s (((rxDeposit s k data).setChep k
        (hwRxPacket ((rxDeposit s k data).chep k))).log (.rxPacket k data)) k 0 .nak :=
      stateSet_of_chep rfl rfl (Nat.zero_le 1) (epState_hwRxPacket _) (epAddress_hwRxPacket _)
    exact h.packet hset (Nat.zero_le 1) EpState.noConfusion (hok.1 ▸ EpState.noConfusion)
  · exact h

theorem RegistersAgree.busIn (h : RegistersAgree s) (k : ℕ) : RegistersAgree (busIn s k) := by
  simp only [PcbMill.busIn]
  split
  · rename_i hvalid
    have hset : StateSet s ((s.setChep k (hwTxPacket (s.chep k))).log
        (.txPacket k (txPacketBytes s k))) k 1 .nak :=
      stateSet_of_chep rfl rfl le_rfl (epState_hwTxPacket _) (epAddress_hwTxPacket _)
    exact h.packet hset le_rfl EpState.noConfusion (hvalid ▸ EpState.noConfusion)
  · exact h

/-- A SETUP packet enables both directions of slot 0, which are assigned. -/
theorem RegistersAgree.busSetup (h : RegistersAgree s) (h0 : Ep0Assigned s)
    (r : UsbControlRequest) : RegistersAgree (busSetup s r) := by
  simp only [PcbMill.busSetup]
  split
  · rename_i hok
    simp only [busSetupOk] at hok
    simp only [Bool.and_eq_true, bne_iff_ne, ne_eq] at hok
    have hen : epState (s.chep 0) 0 ≠ .disabled := hok.1.2
    -- first the receiver, then the transmitter
    have hrx : StateSet s (s.setChep 0 (hwRxPacket (s.chep 0))) 0 0 .nak :=
      stateSet_of_chep rfl rfl (Nat.zero_le 1) (epState_hwRxPacket _) (epAddress_hwRxPacket _)
    have hagree := h.packet hrx (Nat.zero_le 1) EpState.noConfusion hen
    have hmay : MayEnable (s.setChep 0 (hwRxPacket (s.chep 0))) 0 0 :=
      hagree.mayEnable (by decide) (Nat.zero_le 1) (hrx.state ▸ EpState.noConfusion)
    have htx : StateSet (s.setChep 0 (hwRxPacket (s.chep 0)))
        (((rxDeposit s 0 r.bytes).setChep 0 (hwSetupPacket ((rxDeposit s 0 r.bytes).chep 0))).log
          (.setupPacket r)) 0 1 .nak := by
      refine stateSet_of_chep rfl ?_ le_rfl ?_ ?_ (r := hwSetupPacket (s.chep 0))
      · exact (Function.update_idem ..).symm
      · intro y
        rw [epState_hwSetupPacket]
        split
        · rfl
        · show _ = epState (Function.update s.chep 0 (hwRxPacket (s.chep 0)) 0) y
          rw [Function.update_self, epState_hwRxPacket, if_pos (by simp_all)]
      · show _ = epAddress (Function.update s.chep 0 (hwRxPacket (s.chep 0)) 0)
        rw [Function.update_self, epAddress_hwSetupPacket, epAddress_hwRxPacket]
    exact (hagree.enable_iff htx le_rfl EpState.noConfusion).mpr fun _ =>
      { assigned := h0.tx, address := hmay.address, distinct := hmay.distinct }
  · exact h

end Bus

/-! ### The run -/

theorem Ep0Assigned.closeAll {s : Usb} (h : Ep0Assigned s) : Ep0Assigned (usbEpCloseAll s) :=
  h.of_same ((closedAt_usbEpCloseAll s).ep0Same (by decide))

theorem Ep0Assigned.halStep {s : Usb} (h : Ep0Assigned s) (e : HalEvent) :
    Ep0Assigned (halStep s e) := by
  cases e with
  | call c =>
    cases c with
    | init => exact ep0Assigned_usbInitEnableHal s
    | openEp d => exact h.usbEpOpenHal d
    | closeAll => exact h.closeAll
    | queue epAddr buffer n => exact h.of_table (usbEpQueueTransfer_tables s epAddr buffer n).1
    | stallSet epAddr => exact h.of_table rfl
    | stallClear epAddr => exact h.of_table rfl
  | setupPacket r =>
    refine h.of_table ?_
    show (busSetup s r).epAssignment = _
    simp only [busSetup]
    split <;> rfl
  | outPacket k data =>
    refine h.of_table ?_
    show (busOut s k data).epAssignment = _
    simp only [busOut]
    split <;> rfl
  | inPacket k =>
    refine h.of_table ?_
    show (busIn s k).epAssignment = _
    simp only [busIn]
    split <;> rfl

/-- An event keeps the agreement exactly when it meets its condition. -/
theorem RegistersAgree.step_iff {s : Usb} (h : RegistersAgree s) (h0 : Ep0Assigned s)
    (e : HalEvent) : RegistersAgree (halStep s e) ↔ CallOk s e := by
  cases e with
  | call c =>
    cases c with
    | init => exact (othersReleased_init s).agree_iff
    | openEp d =>
      show RegistersAgree (usbEpOpenHal s d).2 ↔ _
      have hr := usbEpOpenHal_outcome s d
      generalize usbEpOpenHal s d = r at hr
      cases hr with
      | noSlot hnone => exact ⟨fun _ i hi => absurd hnone hi.not_noSlot, fun _ => h⟩
      | unsupported i hi htype =>
        refine ⟨fun _ j _ hsome => ?_, fun _ => h.takeSlot hi⟩
        rw [htype] at hsome
        cases hsome
      | opened i typeBits hi htype =>
        rw [h.openSlot_iff hi.lt htype]
        constructor
        · intro hfree j hj _
          rw [hj.unique hi]
          exact hfree
        · exact fun hok => hok i hi (by rw [htype]; rfl)
    | closeAll => exact h.othersReleased_closeAll.agree_iff
    | queue epAddr buffer n =>
      exact h.enable_iff (stateSet_queue s epAddr buffer n) (usbEpDirIdx_le epAddr)
        EpState.noConfusion
    | stallSet epAddr =>
      exact h.enable_iff (stateSet_stallSet s _ (usbEpDirIdx_le epAddr)) (usbEpDirIdx_le epAddr)
        EpState.noConfusion
    | stallClear epAddr =>
      refine iff_of_true ?_ trivial
      have hset := stateSet_stallClear s (usbEpIdn epAddr) (usbEpDirIdx_le epAddr)
      by_cases hk : usbEpIdn epAddr < usbEpMax
      · exact (h.stateSet_iff hset hk (usbEpDirIdx_le epAddr)).mpr fun hne => absurd rfl hne
      · exact (registersAgree_congr hset.epAssignment fun l hl => hset.other l (by omega)).mpr h
  | setupPacket r => exact iff_of_true (h.busSetup h0 r) trivial
  | outPacket k data => exact iff_of_true (h.busOut k data) trivial
  | inPacket k => exact iff_of_true (h.busIn k) trivial

theorem registersAgree_halBoot : RegistersAgree halBoot ∧ Ep0Assigned halBoot := by
  refine ⟨(othersReleased_init _).agree_iff.mpr ?_, ep0Assigned_usbInitEnableHal _⟩
  intro k hk hk'
  simp only [usbEpMax] at hk'
  interval_cases k <;> decide

/-- **The registers agree with the table, exactly** in the runs whose events meet their
conditions. -/
theorem registers_agree_iff (es : List HalEvent) :
    Always halStep RegistersAgree halBoot es ↔ Guarded halStep CallOk halBoot es :=
  always_iff_guarded (I := fun s => RegistersAgree s ∧ Ep0Assigned s) (fun _ h => h.1)
    (fun _ e h hok => ⟨(h.1.step_iff h.2 e).mpr hok, h.2.halStep e⟩)
    (fun _ e h hok hagree => hok ((h.1.step_iff h.2 e).mp hagree)) registersAgree_halBoot

/-- The notification endpoint, opened and closed again: slot 1 is released but stays at NAK. -/
theorem close_leaves_enabled :
    ¬Always halStep RegistersAgree halBoot
      [.call (.openEp { bEndpointAddress := 0x81#8, type := usbEpTypeInterrupt, wMaxPacketSize := 8 }),
        .call .closeAll] := by
  intro h
  have hnak : epState ((runFrom halStep halBoot
      [.call (.openEp { bEndpointAddress := 0x81#8, type := usbEpTypeInterrupt, wMaxPacketSize := 8 }),
        .call .closeAll]).chep 1) 1 = .nak := by decide
  have hdisabled := h.last.disabled 1 1 (by decide) le_rfl (by decide)
  rw [hnak] at hdisabled
  cases hdisabled

end PcbMill
