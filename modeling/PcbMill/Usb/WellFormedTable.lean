import PcbMill.Usb.DescriptorReads

/-!
# The tables the walk stays inside of

A condition on the bytes alone: each descriptor has the length its type asks for and ends in front
of `wTotalLength`, and a CDC-ACM interface has behind it the descriptors of a function.  Over such
a table the walk ends and stays inside from every state, whichever endpoints can be opened.
-/

namespace PcbMill

open FixedWidth Reading

/-- The length a descriptor of a type has at least: that of its structure, for the types the walk
reads as one. -/
def leastLength (type : Byte) : ℕ :=
  if type = usbDescriptorTypeConfiguration ∨ type = usbDescriptorTypeInterface then 9
  else if type = usbDescriptorTypeEndpoint then 7
  else 2

section WellFormed

variable (m : DescriptorMemory) (n : ℕ)

/-- A descriptor at `d` as long as its type asks for, which ends at `n` or in front of it. -/
def WellFormedAt (d : ℕ) : Prop :=
  leastLength (m.bDescriptorType d) ≤ m.bLength d ∧ m.next d ≤ n

/-- Well-formed class-specific descriptors from `d` on, the last of which ends at `e`. -/
inductive FunctionalChain : ℕ → ℕ → Prop where
  | stop {e : ℕ} (hother : m.bDescriptorType e ≠ usbDescriptorTypeCsInterface) : FunctionalChain e e
  | next {d e : ℕ} (hcs : m.bDescriptorType d = usbDescriptorTypeCsInterface)
      (hd : WellFormedAt m n d) (rest : FunctionalChain (m.next d) e) : FunctionalChain d e

/-- Behind the notification endpoint at `e`, if there is one. -/
def afterNotification (e : ℕ) : ℕ :=
  if m.bDescriptorType e = usbDescriptorTypeEndpoint then m.next e else e

/-- Two descriptors, or one that is not an endpoint. -/
def WellFormedPair (d : ℕ) : Prop :=
  WellFormedAt m n d ∧
    (m.bDescriptorType d = usbDescriptorTypeEndpoint → WellFormedAt m n (m.next d))

/-- A descriptor, with a pair behind it if it is a CDC data interface. -/
def WellFormedData (d : ℕ) : Prop :=
  WellFormedAt m n d ∧ (m.bDescriptorType d = usbDescriptorTypeInterface ∧
    m.bInterfaceClass d = usbClassCdcData → WellFormedPair m n (m.next d))

/-- A CDC-ACM interface at `d` and the descriptors behind it: class-specific ones, and after them
as many as a function has. -/
def WellFormedFunction (d : ℕ) : Prop :=
  WellFormedAt m n d ∧ ∃ e, FunctionalChain m n (m.next d) e ∧ WellFormedAt m n e ∧
    WellFormedData m n (afterNotification m e)

/-- Well-formed functions up to `n`, or up to a descriptor that is no CDC-ACM interface.  The next
function is looked for at twice the length of the one before it. -/
inductive WellFormedFunctions : ℕ → Prop where
  | done {d : ℕ} (h : n ≤ d) : WellFormedFunctions d
  | other {d : ℕ} (hd : WellFormedAt m n d) (hskip : WellFormedAt m n (skipAssociation m d))
      (hother : ¬(m.bDescriptorType (skipAssociation m d) = usbDescriptorTypeInterface ∧
        AcmInterface m (skipAssociation m d))) : WellFormedFunctions d
  | function {d : ℕ} (hd : WellFormedAt m n d)
      (hacm : m.bDescriptorType (skipAssociation m d) = usbDescriptorTypeInterface ∧
        AcmInterface m (skipAssociation m d))
      (hfunction : WellFormedFunction m n (skipAssociation m d))
      (rest : ∀ len, LooseFunction m n (skipAssociation m d) len →
        WellFormedFunctions (skipAssociation m d + 2 * len)) : WellFormedFunctions d

/-- A table of well-formed descriptors: the configuration header and its functions.  What has no
such header is at least two bytes. -/
def WellFormedTable : Prop :=
  2 ≤ m.wTotalLength 0 ∧ (m.bDescriptorType 0 = usbDescriptorTypeConfiguration →
    WellFormedAt m (m.wTotalLength 0) 0 ∧ WellFormedFunctions m (m.wTotalLength 0) (m.next 0))

end WellFormed

section Fits

variable {σ : Type*} {drv : ConfigDriver σ} {m : DescriptorMemory} {n d e : ℕ} {s : σ}

theorem two_le_leastLength (type : Byte) : 2 ≤ leastLength type := by
  rw [leastLength]
  split
  · decide
  · split
    · decide
    · decide

namespace WellFormedAt

theorem lt (h : WellFormedAt m n d) : d + 1 < n := by
  have hleast := two_le_leastLength (m.bDescriptorType d)
  have hnext : d + m.bLength d ≤ n := h.2
  have hlength := h.1
  omega

theorem header (h : WellFormedAt m n d)
    (htype : m.bDescriptorType d = usbDescriptorTypeConfiguration) : d + 8 < n := by
  have hlength := h.1
  have hnext : d + m.bLength d ≤ n := h.2
  rw [leastLength, if_pos (.inl htype)] at hlength
  omega

theorem interface (h : WellFormedAt m n d)
    (htype : m.bDescriptorType d = usbDescriptorTypeInterface) : d + 9 ≤ m.next d := by
  have hlength := h.1
  rw [leastLength, if_pos (.inr htype)] at hlength
  exact Nat.add_le_add_left hlength d

theorem endpoint (h : WellFormedAt m n d)
    (htype : m.bDescriptorType d = usbDescriptorTypeEndpoint) : d + 7 ≤ m.next d := by
  have hlength := h.1
  rw [leastLength, if_neg (by rw [htype]; decide), if_pos htype] at hlength
  exact Nat.add_le_add_left hlength d

theorem notification (h : WellFormedAt m n d) : NotificationFits m n d := by
  refine ⟨h.lt, fun htype => ?_⟩
  have hnext := h.endpoint htype
  have hend := h.2
  omega

end WellFormedAt

theorem WellFormedPair.fits (h : WellFormedPair m n d) : PairFits drv m n 2 s d := by
  have hfields : ∀ {d}, WellFormedAt m n d →
      m.bDescriptorType d = usbDescriptorTypeEndpoint → d + 5 < n := fun hd htype =>
    hd.notification.2 htype
  refine ⟨h.1.lt, fun htype => ?_⟩
  have hsecond := h.2 htype
  have hfive := hfields h.1 htype
  refine ⟨by omega, fun _ => ⟨hfive, fun _ => ⟨hsecond.lt, fun htype' => ?_⟩⟩⟩
  have hfive' := hfields hsecond htype'
  exact ⟨by omega, fun _ => ⟨hfive', fun _ => trivial⟩⟩

theorem WellFormedData.fits (h : WellFormedData m n d) : DataFits drv m n s d := by
  refine ⟨h.1.lt, fun htype => ?_⟩
  have hnext := h.1.interface htype
  have hend := h.1.2
  exact ⟨by omega, fun hclass => (h.2 ⟨htype, hclass⟩).fits⟩

/-- The length counted stays behind the offset, so the chain is followed to its end.  The
induction is on the chain. -/
theorem FunctionalChain.fits {b : ℕ} (hn : n < 2 ^ 16) (h : FunctionalChain m n d e)
    (he : WellFormedAt m n e) :
    ∀ {len}, len + b ≤ d → ∃ len', FunctionalFits m n (n - b) d len e len' := by
  induction h with
  | stop hother => exact fun {len} _ => ⟨len, .stop he.lt fun h => hother h.1⟩
  | @next d e hcs hd _ ih =>
    intro len hlen
    have hlt := hd.lt
    have hnext : d + m.bLength d ≤ n := hd.2
    have hleast := (two_le_leastLength _).trans hd.1
    have hadd : add16 len (m.bLength d) = len + m.bLength d := add16_of_lt (by omega)
    have hrest : len + m.bLength d + b ≤ m.next d := by
      rw [DescriptorMemory.next]
      omega
    obtain ⟨len', hfits⟩ := ih he hrest
    refine ⟨len', .next hlt ⟨hcs, by omega⟩ (by omega) ?_⟩
    rw [hadd]
    exact hfits

/-- The next descriptor after a notification endpoint that opened, or that is not there. -/
theorem usbCdcOpenNotification_loose {len : ℕ}
    (hok : (usbCdcOpenNotification drv m s e len).1 = true) :
    (usbCdcOpenNotification drv m s e len).2.2 = looseNotification m e len := by
  simp only [usbCdcOpenNotification, looseNotification] at hok ⊢
  by_cases htype : m.bDescriptorType e = usbDescriptorTypeEndpoint
  · rw [if_pos htype] at hok ⊢
    rw [if_pos htype]
    cases hopen : drv.epOpenHal s e with
    | mk ok s' =>
      rw [hopen] at hok
      cases ok with
      | false => exact absurd hok Bool.false_ne_true
      | true => rfl
  · rw [if_neg htype, if_neg htype]

theorem looseNotification_fst {len : ℕ} : (looseNotification m e len).1 = afterNotification m e := by
  rw [looseNotification, afterNotification]
  split
  · rfl
  · rfl

theorem WellFormedFunction.fits (hn : n < 2 ^ 16) (h : WellFormedFunction m n d)
    (htype : m.bDescriptorType d = usbDescriptorTypeInterface) : FunctionFits drv m n s d := by
  obtain ⟨hd, e, hchain, he, hdata⟩ := h
  have hnext := hd.interface htype
  have hend := hd.2
  have hlength : 9 + d ≤ m.next d := by omega
  obtain ⟨len', hfits⟩ := hchain.fits hn he hlength
  refine ⟨e, len', ?_, he.notification, fun hok => ?_⟩
  · rw [sub16_of_le (by omega) hn]
    exact hfits
  · rw [usbCdcOpenNotification_loose hok, looseNotification_fst]
    exact hdata.fits

/-! ### What `usb_cdc_open` has passed -/

theorem usbEpOpenInOutPair_loose (hok : (usbEpOpenInOutPair drv m usbEpTypeBulk s d).1 = true) :
    LoosePair m d := by
  have hbulk : ∀ {k s d}, (usbEpOpenInOutPairLoop drv m usbEpTypeBulk (k + 1) s d).1 = true →
      (m.bDescriptorType d = usbDescriptorTypeEndpoint ∧ m.epType d = usbEpTypeBulk) ∧
        ∃ s', (usbEpOpenInOutPairLoop drv m usbEpTypeBulk k s' (m.next d)).1 = true := by
    intro k s d h
    rw [usbEpOpenInOutPairLoop] at h
    split at h
    · exact absurd h Bool.false_ne_true
    · rename_i hnot
      split at h
      · exact absurd h Bool.false_ne_true
      · exact ⟨⟨not_not.mp fun h' => hnot (.inl h'), not_not.mp fun h' => hnot (.inr h')⟩, _, h⟩
  obtain ⟨hfirst, s', hrest⟩ := hbulk hok
  exact ⟨hfirst, (hbulk hrest).1⟩

theorem usbCdcOpenData_passed {len : ℕ} (hok : (usbCdcOpenData drv m s d len).1 = true) :
    LooseData m d len (usbCdcOpenData drv m s d len).2.2 := by
  rw [usbCdcOpenData] at hok ⊢
  by_cases hdata : m.bDescriptorType d = usbDescriptorTypeInterface ∧
      m.bInterfaceClass d = usbClassCdcData
  · rw [if_pos hdata] at hok ⊢
    have hpair : (usbEpOpenInOutPair drv m usbEpTypeBulk s (m.next d)).1 = true →
        LoosePair m (m.next d) := usbEpOpenInOutPair_loose
    dsimp only at hok ⊢
    cases hopen : usbEpOpenInOutPair drv m usbEpTypeBulk s (m.next d) with
    | mk ok s' =>
      rw [hopen] at hok hpair
      cases ok with
      | false => exact absurd hok Bool.false_ne_true
      | true => exact .present hdata (hpair rfl)
  · rw [if_neg hdata]
    exact .absent hdata

/-- A length other than 0 is that of a function in the loose sense, whatever the device. -/
theorem usbCdcOpen_loose {fuel len : ℕ} {s' : σ}
    (htype : m.bDescriptorType d = usbDescriptorTypeInterface) (hacm : AcmInterface m d)
    (h : usbCdcOpen drv m fuel s d (sub16 n d) = some (len, s')) (hlen : len ≠ 0) :
    LooseFunction m n d len := by
  rw [usbCdcOpen_eq, if_pos hacm, Option.map_eq_some_iff] at h
  obtain ⟨⟨d₁, len₁⟩, hfunctional, hrest⟩ := h
  refine ⟨htype, hacm.1, hacm.2, ⟨d₁, len₁, usbCdcOpenFunctional_loose hfunctional, ?_⟩, hlen⟩
  rw [usbCdcOpenRest] at hrest
  split at hrest
  · rename_i hok
    dsimp only at hrest
    split at hrest
    · rename_i hdata
      have hpassed := usbCdcOpenData_passed hdata
      rw [usbCdcOpenNotification_loose hok] at hpassed
      cases hrest
      rw [usbCdcOpenNotification_loose hok]
      exact hpassed
    · cases hrest
      exact absurd rfl hlen
  · cases hrest
    exact absurd rfl hlen

/-- Well-formed functions fit, whatever can be opened.  The induction is on the functions. -/
theorem WellFormedFunctions.fits (hn : n < 2 ^ 16) (h : WellFormedFunctions m n d) :
    ∀ s, FunctionsFit drv m n s d := by
  induction h with
  | done h => exact fun _ => .done h
  | @other d hd hskip hother =>
    intro s
    by_cases htype : m.bDescriptorType (skipAssociation m d) = usbDescriptorTypeInterface
    · have hnext := hskip.interface htype
      have hend := hskip.2
      exact .unknown hd.lt (by omega) fun hacm => hother ⟨htype, hacm⟩
    · exact .other hd.lt hskip.lt htype
  | @function d hd hacm hfunction _ ih =>
    intro s
    have hnext := hfunction.1.interface hacm.1
    have hend := hfunction.1.2
    exact .function hd.lt (by omega) hacm.1 hacm.2 (hfunction.fits hn hacm.1)
      fun fuel len s' hopen hlen => ih len (usbCdcOpen_loose hacm.1 hacm.2 hopen hlen) s'

theorem WellFormedTable.fits (h : WellFormedTable m) : TableFits drv m s := by
  refine ⟨h.1, fun htype => ?_⟩
  have hheader := (h.2 htype).1.header htype
  exact ⟨by omega, (h.2 htype).2.fits (wTotalLength_lt m 0) _⟩

end Fits

/-! ### Configurations in the grammar -/

section Grammar

variable {m : DescriptorMemory} {n d : ℕ} {f : FunctionLayout}

theorem DescriptorAt.wellFormed {type : Byte} {length : ℕ} (h : DescriptorAt m d type length)
    (hleast : leastLength type ≤ length) (hend : d + length ≤ n) : WellFormedAt m n d := by
  rw [WellFormedAt, DescriptorMemory.next, h.1, h.2]
  exact ⟨hleast, hend⟩

theorem FunctionalAt.chain {ns : List ℕ} :
    ∀ {d}, FunctionalAt m d ns → d + ns.sum ≤ n →
      m.bDescriptorType (d + ns.sum) ≠ usbDescriptorTypeCsInterface →
        FunctionalChain m n d (d + ns.sum) := by
  induction ns with
  | nil => exact fun {d} _ _ hother => .stop hother
  | cons k ns ih =>
    intro d h hend hother
    rw [List.sum_cons] at hend hother ⊢
    have hnext : m.next d = d + k := by rw [DescriptorMemory.next, h.1.2]
    have hrest := ih (d := d + k) h.2.2 (by omega) (by rw [Nat.add_assoc]; exact hother)
    refine .next h.1.1 (h.1.wellFormed h.2.1 (by omega)) ?_
    rw [hnext, ← Nat.add_assoc]
    exact hrest

theorem FunctionAt.wellFormedData (h : FunctionAt m d f) (hend : f.endsAt d ≤ n) :
    WellFormedData m n (f.dataAt d) := by
  have hends : f.dataAt d + 9 + 2 * 7 ≤ n := hend
  have hnext : m.next (f.dataAt d) = f.dataAt d + 9 := by rw [DescriptorMemory.next, h.data.2]
  have hsecond : m.next (f.dataAt d + 9) = f.dataAt d + 16 := by
    rw [DescriptorMemory.next, h.first.1.2]
  refine ⟨h.data.wellFormed (by decide) (by omega), fun _ => ?_⟩
  rw [hnext, WellFormedPair, hsecond]
  exact ⟨h.first.1.wellFormed (by decide) (by omega),
    fun _ => h.second.1.wellFormed (by decide) (by omega)⟩

theorem FunctionAt.wellFormed (h : FunctionAt m d f) (hend : f.endsAt d ≤ n) :
    WellFormedFunction m n (f.interfaceAt d) := by
  have hends : f.dataAt d + 9 + 2 * 7 ≤ n := hend
  have hdata : f.dataAt d = f.notificationAt d + if f.notification then 7 else 0 := rfl
  have hnotification : f.notificationAt d = f.interfaceAt d + 9 + f.functional.sum := rfl
  have hnext : m.next (f.interfaceAt d) = f.interfaceAt d + 9 := by
    rw [DescriptorMemory.next, h.interface.2]
  have hwellFormed := h.wellFormedData hend
  -- the descriptor behind the class-specific ones: an endpoint or the data interface
  have hbehind : WellFormedAt m n (f.notificationAt d) ∧
      afterNotification m (f.notificationAt d) = f.dataAt d := by
    by_cases hpresent : f.notification = true
    · have hat := h.notification hpresent
      rw [if_pos hpresent] at hdata
      refine ⟨hat.wellFormed (by decide) (by omega), ?_⟩
      rw [afterNotification, if_pos hat.1, DescriptorMemory.next, hat.2, hdata]
    · rw [if_neg hpresent, Nat.add_zero] at hdata
      rw [← hdata]
      refine ⟨hwellFormed.1, ?_⟩
      rw [afterNotification, if_neg (by rw [h.data.1]; decide)]
  refine ⟨h.interface.wellFormed (by decide) (by omega), f.notificationAt d, ?_, hbehind.1, ?_⟩
  · rw [hnext, hnotification]
    exact h.functional.chain (by omega) h.stops
  · rw [hbehind.2]
    exact hwellFormed

/-- The length of a function of the grammar is its length in the loose sense. -/
theorem FunctionAt.length_eq (h : FunctionAt m d f) (hend : f.endsAt d ≤ n) (hn : n < 2 ^ 16)
    {len : ℕ} (hloose : LooseFunction m n (f.interfaceAt d) len) :
    len = f.endsAt d - f.interfaceAt d := by
  obtain ⟨d₁, len₁, hfunctional, hdata⟩ := hloose.parts
  obtain ⟨bound, hbound⟩ := hfunctional.opened
  have hends : f.endsAt d = f.notificationAt d + (if f.notification then 7 else 0) + 23 := rfl
  have hat : f.notificationAt d = f.interfaceAt d + 9 + f.functional.sum := rfl
  have hnext : m.next (f.interfaceAt d) = f.interfaceAt d + 9 := by
    rw [DescriptorMemory.next, h.interface.2]
  have hremaining : sub16 n (f.interfaceAt d) = n - f.interfaceAt d := sub16_of_le (by omega) hn
  have hvalue := hbound (max bound (f.functional.length + 1)) (le_max_left _ _)
  rw [hremaining, hnext, h.functional.opened h.stops (by omega) (by omega)
    (Nat.lt_of_succ_le (le_max_right _ _))] at hvalue
  cases hvalue
  have hparts := hdata.parts ([] ++ [.cdcOpen (f.interfaceAt d)])
  rw [← hparts]
  exact congrArg Prod.fst (h.parts (by omega) [])

/-- The grammar is well formed, up to one function. -/
theorem wellFormedTable_of_describes {fs : List FunctionLayout} (h : HasHeader m)
    (hfs : Describes m fs) (hsingle : fs.length ≤ 1) : WellFormedTable m := by
  have hn := wTotalLength_lt m 0
  have hnext : m.next 0 = 9 := by rw [DescriptorMemory.next, h.2]
  have hlength := FunctionsAt.endsAt_le hfs
  refine ⟨by omega, fun _ => ⟨h.wellFormed (by decide) (by omega), ?_⟩⟩
  rw [hnext]
  cases fs with
  | nil =>
    have hend : 9 = m.wTotalLength 0 := hfs
    exact .done hend.ge
  | cons f fs =>
    have hrest : fs.length ≤ 0 := Nat.le_of_succ_le_succ hsingle
    obtain rfl : fs = [] := List.length_eq_zero_iff.mp (Nat.le_zero.mp hrest)
    obtain ⟨hf, hend⟩ := hfs
    have hends : f.endsAt 9 = m.wTotalLength 0 := hend
    have hinterface := f.interfaceAt_add_le 9
    have hskip := hf.skipAssociation
    refine .function ?_ (by rw [hskip]; exact ⟨hf.interface.1, hf.cdc, hf.acm⟩) ?_ ?_
    · by_cases hassociation : f.association = true
      · exact (hf.association hassociation).wellFormed (by decide) (by omega)
      · have hat : f.interfaceAt 9 = 9 := by
          rw [FunctionLayout.interfaceAt, if_neg hassociation]
        exact hat ▸ hf.interface.wellFormed (by decide) (by omega)
    · rw [hskip]
      exact hf.wellFormed hends.le
    · rw [hskip]
      intro len hloose
      have hlen := hf.length_eq hends.le hn hloose
      exact .done (by omega)

end Grammar

/-- **The walk stays inside a well-formed table**, from every state: it ends, and has read only
bytes in front of `wTotalLength`, whichever endpoints could be opened. -/
theorem walk_inside_of_wellFormed (m : DescriptorMemory) (h : WellFormedTable m) (s : Usb) :
    WalkInside m s :=
  (walkInside_iff m s).mpr h.fits

/-- The firmware's own table is well formed. -/
theorem walk_inside_configuration : WalkInside configurationMemory usbBoot :=
  walk_inside_of_wellFormed configurationMemory
    (wellFormedTable_of_describes ⟨by decide, by decide⟩ describes_firmwareFunction (by decide))
    usbBoot

end PcbMill
