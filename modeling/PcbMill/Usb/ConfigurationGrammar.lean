import PcbMill.Usb.Device

/-!
# What the walk over the configuration descriptor accepts

The grammar of a configuration of CDC-ACM functions, against the chain of descriptors that
`usb_reset_configuration` follows.  The walk adds the length a function has consumed to a
pointer to two-byte structures, so it goes on twice as far as the function is long, and it
checks neither the lengths of the descriptors nor where the last one ends.
-/

namespace PcbMill

open FixedWidth

/-! ### The calls of the walk -/

/-- A call of `usb_cdc_open` on an interface, or of `usb_ep_open_hal` on an endpoint. -/
inductive ConfigCall where
  | cdcOpen (d : ℕ)
  | epOpen (d : ℕ)
  deriving DecidableEq, Repr

def ConfigCall.offset : ConfigCall → ℕ
  | .cdcOpen d | .epOpen d => d

/-- A device that opens every endpoint and records the calls. -/
def recorder : ConfigDriver (List ConfigCall) where
  setPower s _ := s
  visit s d := s ++ [.cdcOpen d]
  epOpenHal s d := (true, s ++ [.epOpen d])
  setEpAddrIn s _ := s
  setEpAddrOut s _ := s
  cdcReadEp s := s

/-- The walk ends with a result and these calls. -/
def WalkEnds (m : DescriptorMemory) (r : Bool × List ConfigCall) : Prop :=
  ∃ fuel, usbResetConfiguration recorder m fuel [] = some r

/-! ### The grammar -/

/-- The optional parts of a function. -/
structure FunctionLayout where
  association : Bool
  /-- The lengths of the class-specific descriptors. -/
  functional : List ℕ
  notification : Bool
  deriving DecidableEq, Repr

namespace FunctionLayout

variable (f : FunctionLayout) (d : ℕ)

/-- Where the parts of a function at `d` begin. -/
def interfaceAt : ℕ := d + if f.association then 8 else 0

def notificationAt : ℕ := f.interfaceAt d + 9 + f.functional.sum

def dataAt : ℕ := f.notificationAt d + if f.notification then 7 else 0

def endsAt : ℕ := f.dataAt d + 9 + 2 * 7

/-- The calls a function asks for. -/
def calls : List ConfigCall :=
  .cdcOpen (f.interfaceAt d) :: ((if f.notification then [.epOpen (f.notificationAt d)] else []) ++
    [.epOpen (f.dataAt d + 9), .epOpen (f.dataAt d + 16)])

end FunctionLayout

/-- A descriptor of a type and a length. -/
def DescriptorAt (m : DescriptorMemory) (d : ℕ) (type : Byte) (length : ℕ) : Prop :=
  m.bDescriptorType d = type ∧ m.bLength d = length

/-- Class-specific descriptors of the given lengths, one after the other. -/
def FunctionalAt (m : DescriptorMemory) : ℕ → List ℕ → Prop
  | _, [] => True
  | d, n :: ns => DescriptorAt m d usbDescriptorTypeCsInterface n ∧ 2 ≤ n ∧ FunctionalAt m (d + n) ns

/-- A bulk endpoint. -/
def BulkAt (m : DescriptorMemory) (d : ℕ) : Prop :=
  DescriptorAt m d usbDescriptorTypeEndpoint 7 ∧ m.epType d = usbEpTypeBulk

/-- A CDC-ACM function. -/
structure FunctionAt (m : DescriptorMemory) (d : ℕ) (f : FunctionLayout) : Prop where
  association : f.association = true → DescriptorAt m d usbDescriptorTypeInterfaceAssociation 8
  interface : DescriptorAt m (f.interfaceAt d) usbDescriptorTypeInterface 9
  cdc : m.bInterfaceClass (f.interfaceAt d) = usbClassCdc
  acm : m.bInterfaceSubClass (f.interfaceAt d) = cdcCommSubclassAbstractControlModel
  functional : FunctionalAt m (f.interfaceAt d + 9) f.functional
  notification : f.notification = true →
    DescriptorAt m (f.notificationAt d) usbDescriptorTypeEndpoint 7
  data : DescriptorAt m (f.dataAt d) usbDescriptorTypeInterface 9
  dataClass : m.bInterfaceClass (f.dataAt d) = usbClassCdcData
  first : BulkAt m (f.dataAt d + 9)
  second : BulkAt m (f.dataAt d + 16)
  pair : usbEpDirIdx (m.bEndpointAddress (f.dataAt d + 9)) ≠
    usbEpDirIdx (m.bEndpointAddress (f.dataAt d + 16))

/-- A sequence of functions that ends exactly at `descriptorEnd`. -/
def FunctionsAt (m : DescriptorMemory) (descriptorEnd : ℕ) : ℕ → List FunctionLayout → Prop
  | d, [] => d = descriptorEnd
  | d, f :: fs => FunctionAt m d f ∧ FunctionsAt m descriptorEnd (f.endsAt d) fs

def functionsCalls : ℕ → List FunctionLayout → List ConfigCall
  | _, [] => []
  | d, f :: fs => f.calls d ++ functionsCalls (f.endsAt d) fs

/-- The configuration header. -/
def HasHeader (m : DescriptorMemory) : Prop := DescriptorAt m 0 usbDescriptorTypeConfiguration 9

/-- The functions of a configuration in the grammar. -/
def Describes (m : DescriptorMemory) (fs : List FunctionLayout) : Prop :=
  FunctionsAt m (m.wTotalLength 0) 9 fs

/-- **The walk accepts exactly the grammar**, and where it does, it has opened every function
and every endpoint once. -/
structure AcceptsExactly (m : DescriptorMemory) : Prop where
  accepts : (∃ calls, WalkEnds m (true, calls)) ↔ ∃ fs, Describes m fs
  complete : ∀ calls fs, WalkEnds m (true, calls) → Describes m fs → calls = functionsCalls 9 fs

/-! ### The chain the walk follows -/

section Loose

variable (m : DescriptorMemory)

/-- An interface association of any length is stepped over. -/
def skipAssociation (d : ℕ) : ℕ :=
  if m.bDescriptorType d = usbDescriptorTypeInterfaceAssociation then m.next d else d

/-- Class-specific descriptors of any length, while the length so far is within `remaining`. -/
inductive LooseFunctional (remaining : ℕ) : ℕ → ℕ → ℕ → ℕ → Prop where
  | stop {d len : ℕ}
      (h : ¬(m.bDescriptorType d = usbDescriptorTypeCsInterface ∧ len ≤ remaining)) :
      LooseFunctional remaining d len d len
  | next {d len d' len' : ℕ}
      (h : m.bDescriptorType d = usbDescriptorTypeCsInterface ∧ len ≤ remaining)
      (rest : LooseFunctional remaining (m.next d) (add16 len (m.bLength d)) d' len') :
      LooseFunctional remaining d len d' len'

/-- At most one endpoint descriptor of any kind. -/
def looseNotification (d len : ℕ) : ℕ × ℕ :=
  if m.bDescriptorType d = usbDescriptorTypeEndpoint then (m.next d, add16 len (m.bLength d))
  else (d, len)

/-- Two bulk endpoints of any direction. -/
def LoosePair (d : ℕ) : Prop :=
  (m.bDescriptorType d = usbDescriptorTypeEndpoint ∧ m.epType d = usbEpTypeBulk) ∧
    m.bDescriptorType (m.next d) = usbDescriptorTypeEndpoint ∧ m.epType (m.next d) = usbEpTypeBulk

/-- A CDC data interface of any length with two bulk endpoints, or anything else. -/
inductive LooseData (d len : ℕ) : ℕ → Prop where
  | absent (h : ¬(m.bDescriptorType d = usbDescriptorTypeInterface ∧
      m.bInterfaceClass d = usbClassCdcData)) : LooseData d len len
  | present (h : m.bDescriptorType d = usbDescriptorTypeInterface ∧
      m.bInterfaceClass d = usbClassCdcData) (pair : LoosePair m (m.next d)) :
      LooseData d len (add16 (add16 len (m.bLength d)) 14)

/-- A CDC-ACM interface and what follows it, of a length counted in 16 bits. -/
structure LooseFunction (descriptorEnd d len : ℕ) : Prop where
  interface : m.bDescriptorType d = usbDescriptorTypeInterface
  cdc : m.bInterfaceClass d = usbClassCdc
  acm : m.bInterfaceSubClass d = cdcCommSubclassAbstractControlModel
  parts : ∃ d₁ len₁, LooseFunctional m (sub16 descriptorEnd d) (m.next d) 9 d₁ len₁ ∧
    LooseData m (looseNotification m d₁ len₁).1 (looseNotification m d₁ len₁).2 len
  counted : len ≠ 0

/-- Functions in the loose sense, each at twice the length of the one before it, up to or
beyond the end. -/
inductive LooseChain (descriptorEnd : ℕ) : ℕ → Prop where
  | done {d : ℕ} (h : descriptorEnd ≤ d) : LooseChain descriptorEnd d
  | function {d len : ℕ} (before : d < descriptorEnd)
      (function : LooseFunction m descriptorEnd (skipAssociation m d) len)
      (rest : LooseChain descriptorEnd (skipAssociation m d + 2 * len)) :
      LooseChain descriptorEnd d

end Loose

/-! ### The walk with the recorder -/

variable {m : DescriptorMemory} {descriptorEnd remaining d len fuel : ℕ} {s : List ConfigCall}

theorem usbCdcOpenNotification_recorder (s : List ConfigCall) (d len : ℕ) :
    usbCdcOpenNotification recorder m s d len =
      (true, s ++ (if m.bDescriptorType d = usbDescriptorTypeEndpoint then [.epOpen d] else []),
        looseNotification m d len) := by
  simp only [usbCdcOpenNotification, looseNotification]
  split
  · rfl
  · rw [List.append_nil]

/-- The pair of endpoints: opened if both are bulk endpoints. -/
theorem usbEpOpenInOutPair_recorder (h : LoosePair m d) (s : List ConfigCall) :
    usbEpOpenInOutPair recorder m usbEpTypeBulk s d =
      (true, s ++ [.epOpen d, .epOpen (m.next d)]) := by
  obtain ⟨⟨htype, hbulk⟩, htype', hbulk'⟩ := h
  simp only [usbEpOpenInOutPair, usbEpOpenInOutPairLoop, usbEpOpenInOutPairLoop, usbEpOpenInOutPairLoop]
  rw [if_neg (by simp only [htype, hbulk, ne_eq, not_true, or_self, not_false_eq_true])]
  simp only [recorder, ite_self]
  rw [if_neg (by simp only [htype', hbulk', ne_eq, not_true, or_self, not_false_eq_true]),
    List.append_assoc]
  rfl

theorem usbEpOpenInOutPair_reject (h : ¬LoosePair m d) (s : List ConfigCall) :
    (usbEpOpenInOutPair recorder m usbEpTypeBulk s d).1 = false := by
  simp only [usbEpOpenInOutPair, usbEpOpenInOutPairLoop, usbEpOpenInOutPairLoop]
  split
  · rfl
  · rename_i hfirst
    simp only [recorder, ite_self]
    rw [if_pos]
    by_contra hsecond
    simp only [ne_eq, not_or, not_not] at hfirst hsecond
    exact h ⟨hfirst, hsecond⟩

theorem usbCdcOpenData_loose {s' : List ConfigCall} {len' : ℕ}
    (h : usbCdcOpenData recorder m s d len = (true, s', len')) : LooseData m d len len' := by
  unfold usbCdcOpenData at h
  split at h
  · rename_i hdata
    have hreject := usbEpOpenInOutPair_reject (m := m) (d := m.next d)
    dsimp only at h
    split at h
    · cases h
    · rename_i s₁ heq
      have hpair : LoosePair m (m.next d) := by
        by_contra hnot
        have hfalse := hreject hnot s
        rw [heq] at hfalse
        cases hfalse
      cases h
      exact .present hdata hpair
  · rename_i hdata
    cases h
    exact .absent hdata

theorem LooseData.opened {len' : ℕ} (h : LooseData m d len len') (s : List ConfigCall) :
    ∃ s', usbCdcOpenData recorder m s d len = (true, s', len') := by
  unfold usbCdcOpenData
  cases h with
  | absent h =>
    rw [if_neg h]
    exact ⟨s, rfl⟩
  | present h pair =>
    rw [if_pos h]
    dsimp only
    rw [usbEpOpenInOutPair_recorder pair]
    exact ⟨_, rfl⟩

theorem usbCdcOpenFunctional_loose {d' len' : ℕ} :
    ∀ {fuel d len : ℕ}, usbCdcOpenFunctional m remaining fuel d len = some (d', len') →
      LooseFunctional m remaining d len d' len' := by
  intro fuel
  induction fuel with
  | zero => exact fun h => nomatch h
  | succ fuel ih =>
    intro d len h
    simp only [usbCdcOpenFunctional] at h
    split at h
    · exact .next ‹_› (ih h)
    · cases h
      exact .stop ‹_›

theorem LooseFunctional.opened {d' len' : ℕ} (h : LooseFunctional m remaining d len d' len') :
    ∃ bound, ∀ fuel, bound ≤ fuel →
      usbCdcOpenFunctional m remaining fuel d len = some (d', len') := by
  induction h with
  | stop h =>
    refine ⟨1, fun fuel hfuel => ?_⟩
    obtain ⟨fuel, rfl⟩ : ∃ k, fuel = k + 1 := ⟨fuel - 1, by omega⟩
    rw [usbCdcOpenFunctional, if_neg h]
  | next h _ ih =>
    obtain ⟨bound, hbound⟩ := ih
    refine ⟨bound + 1, fun fuel hfuel => ?_⟩
    obtain ⟨fuel, rfl⟩ : ∃ k, fuel = k + 1 := ⟨fuel - 1, by omega⟩
    rw [usbCdcOpenFunctional, if_pos h]
    exact hbound fuel (by omega)

/-- The length `usb_cdc_open` returns. -/
def cdcOpenResult : Bool × List ConfigCall × ℕ → ℕ × List ConfigCall
  | (false, s, _) => (0, s)
  | (true, s, len) => (len, s)

/-- What `usb_cdc_open` does once the functional descriptors have been passed. -/
def cdcOpenParts (m : DescriptorMemory) (s : List ConfigCall) (d len : ℕ) : ℕ × List ConfigCall :=
  cdcOpenResult (usbCdcOpenData recorder m
    (s ++ (if m.bDescriptorType d = usbDescriptorTypeEndpoint then [.epOpen d] else []))
    (looseNotification m d len).1 (looseNotification m d len).2)

theorem cdcOpenParts_loose {d₁ len₁ : ℕ} (h : (cdcOpenParts m s d₁ len₁).1 ≠ 0) :
    LooseData m (looseNotification m d₁ len₁).1 (looseNotification m d₁ len₁).2
      (cdcOpenParts m s d₁ len₁).1 := by
  simp only [cdcOpenParts] at h ⊢
  generalize hdata : usbCdcOpenData recorder m _ _ _ = r at h ⊢
  obtain ⟨_ | _, s', len'⟩ := r
  · exact absurd rfl h
  · exact usbCdcOpenData_loose hdata

theorem LooseData.parts {d₁ len₁ len' : ℕ}
    (h : LooseData m (looseNotification m d₁ len₁).1 (looseNotification m d₁ len₁).2 len')
    (s : List ConfigCall) : (cdcOpenParts m s d₁ len₁).1 = len' := by
  obtain ⟨s', hs'⟩ := h.opened
    (s ++ (if m.bDescriptorType d₁ = usbDescriptorTypeEndpoint then [.epOpen d₁] else []))
  rw [cdcOpenParts, hs']
  rfl

theorem usbCdcOpen_recorder (hcdc : m.bInterfaceClass d = usbClassCdc)
    (hacm : m.bInterfaceSubClass d = cdcCommSubclassAbstractControlModel) :
    usbCdcOpen recorder m fuel s d remaining =
      (usbCdcOpenFunctional m remaining fuel (m.next d) 9).map
        (fun parts => cdcOpenParts m (s ++ [.cdcOpen d]) parts.1 parts.2) := by
  simp only [usbCdcOpen]
  rw [if_neg (by simp only [hcdc, hacm, ne_eq, not_true, or_self, not_false_eq_true])]
  cases usbCdcOpenFunctional m remaining fuel (m.next d) 9 with
  | none => rfl
  | some parts =>
    obtain ⟨d₁, len₁⟩ := parts
    dsimp only
    rw [usbCdcOpenNotification_recorder]
    dsimp only [Option.map_some, cdcOpenParts]
    rw [show recorder.visit s d = s ++ [.cdcOpen d] from rfl]
    rcases usbCdcOpenData recorder m _ _ _ with ⟨_ | _, s₁, len₂⟩
    · rfl
    · rfl

/-- One round of the loop at a CDC-ACM interface. -/
theorem usbResetConfigurationLoop_cdc (hbefore : d < descriptorEnd)
    (hinterface : m.bDescriptorType (skipAssociation m d) = usbDescriptorTypeInterface)
    (hcdc : m.bInterfaceClass (skipAssociation m d) = usbClassCdc)
    (hacm : m.bInterfaceSubClass (skipAssociation m d) = cdcCommSubclassAbstractControlModel) :
    usbResetConfigurationLoop recorder m descriptorEnd (fuel + 1) s d =
      match (usbCdcOpenFunctional m (sub16 descriptorEnd (skipAssociation m d)) fuel
        (m.next (skipAssociation m d)) 9).map
          (fun parts =>
            cdcOpenParts m (s ++ [.cdcOpen (skipAssociation m d)]) parts.1 parts.2) with
      | none => none
      | some (len, s) =>
        if len = 0 then some (false, s)
        else usbResetConfigurationLoop recorder m descriptorEnd fuel s
          (skipAssociation m d + 2 * len) := by
  rw [usbResetConfigurationLoop, if_neg (by omega)]
  dsimp only
  rw [show (if m.bDescriptorType d = usbDescriptorTypeInterfaceAssociation then m.next d else d) =
    skipAssociation m d from rfl, if_neg (not_not.mpr hinterface), if_pos ⟨hcdc, hacm⟩,
    usbCdcOpen_recorder hcdc hacm]
  cases usbCdcOpenFunctional m _ fuel _ 9 with
  | none => rfl
  | some parts => rfl

/-- Anything else ends the walk. -/
theorem usbResetConfigurationLoop_other (hbefore : d < descriptorEnd)
    (hother : ¬(m.bDescriptorType (skipAssociation m d) = usbDescriptorTypeInterface ∧
      m.bInterfaceClass (skipAssociation m d) = usbClassCdc ∧
      m.bInterfaceSubClass (skipAssociation m d) = cdcCommSubclassAbstractControlModel)) :
    usbResetConfigurationLoop recorder m descriptorEnd (fuel + 1) s d = some (false, s) := by
  rw [usbResetConfigurationLoop, if_neg (by omega)]
  dsimp only
  rw [show (if m.bDescriptorType d = usbDescriptorTypeInterfaceAssociation then m.next d else d) =
    skipAssociation m d from rfl]
  split
  · rfl
  · rename_i hinterface
    rw [if_neg (fun hc => hother ⟨not_not.mp hinterface, hc⟩)]

/-- What a round of a walk that returns has done: found the end, stopped at something that is no
CDC-ACM interface, or opened one and, when bytes were counted, gone on. -/
theorem usbResetConfigurationLoop_cases {b : Bool} {s' : List ConfigCall}
    (h : usbResetConfigurationLoop recorder m descriptorEnd (fuel + 1) s d = some (b, s')) :
    descriptorEnd ≤ d ∧ s' = s ∨ b = false ∧ s' = s ∨
      d < descriptorEnd ∧ m.bDescriptorType (skipAssociation m d) = usbDescriptorTypeInterface ∧
        m.bInterfaceClass (skipAssociation m d) = usbClassCdc ∧
        m.bInterfaceSubClass (skipAssociation m d) = cdcCommSubclassAbstractControlModel ∧
        ∃ d₁ len₁ len s₁, usbCdcOpenFunctional m (sub16 descriptorEnd (skipAssociation m d)) fuel
            (m.next (skipAssociation m d)) 9 = some (d₁, len₁) ∧
          cdcOpenParts m (s ++ [.cdcOpen (skipAssociation m d)]) d₁ len₁ = (len, s₁) ∧
          (len = 0 ∧ b = false ∧ s' = s₁ ∨ len ≠ 0 ∧
            usbResetConfigurationLoop recorder m descriptorEnd fuel s₁
              (skipAssociation m d + 2 * len) = some (b, s')) := by
  by_cases hend : descriptorEnd ≤ d
  · rw [usbResetConfigurationLoop, if_pos hend] at h
    cases h
    exact .inl ⟨hend, rfl⟩
  by_cases hcdc : m.bDescriptorType (skipAssociation m d) = usbDescriptorTypeInterface ∧
    m.bInterfaceClass (skipAssociation m d) = usbClassCdc ∧
    m.bInterfaceSubClass (skipAssociation m d) = cdcCommSubclassAbstractControlModel
  swap
  · rw [usbResetConfigurationLoop_other (by omega) hcdc] at h
    cases h
    exact .inr (.inl ⟨rfl, rfl⟩)
  obtain ⟨hinterface, hclass, hsub⟩ := hcdc
  rw [usbResetConfigurationLoop_cdc (by omega) hinterface hclass hsub] at h
  cases hfunctional : usbCdcOpenFunctional m (sub16 descriptorEnd (skipAssociation m d)) fuel
      (m.next (skipAssociation m d)) 9 with
  | none =>
    rw [hfunctional] at h
    cases h
  | some parts =>
    rw [hfunctional, Option.map_some] at h
    dsimp only at h
    refine .inr (.inr ⟨by omega, hinterface, hclass, hsub, _, _, _, _, rfl, rfl, ?_⟩)
    split at h
    · rename_i hlen
      cases h
      exact .inl ⟨hlen, rfl, rfl⟩
    · rename_i hlen
      exact .inr ⟨hlen, h⟩

/-- A walk that succeeds has followed a chain. -/
theorem looseChain_of_walk {s' : List ConfigCall} :
    ∀ {fuel d : ℕ} {s : List ConfigCall},
      usbResetConfigurationLoop recorder m descriptorEnd fuel s d = some (true, s') →
        LooseChain m descriptorEnd d := by
  intro fuel
  induction fuel with
  | zero => exact fun h => nomatch h
  | succ fuel ih =>
    intro d s h
    rcases usbResetConfigurationLoop_cases h with ⟨hend, -⟩ | ⟨hfalse, -⟩ |
      ⟨hbefore, hinterface, hclass, hsub, d₁, len₁, len, s₁, hfunctional, hparts, hrest⟩
    · exact .done hend
    · cases hfalse
    rcases hrest with ⟨-, hfalse, -⟩ | ⟨hlen, hloop⟩
    · cases hfalse
    have hcount : (cdcOpenParts m (s ++ [.cdcOpen (skipAssociation m d)]) d₁ len₁).1 = len :=
      congrArg Prod.fst hparts
    exact .function hbefore ⟨hinterface, hclass, hsub, ⟨d₁, len₁,
      usbCdcOpenFunctional_loose hfunctional, hcount ▸ cdcOpenParts_loose (hcount.trans_ne hlen)⟩,
      hlen⟩ (ih hloop)

/-- A chain is followed to its end. -/
theorem LooseChain.walk (h : LooseChain m descriptorEnd d) :
    ∃ bound, ∀ fuel, bound ≤ fuel → ∀ s, ∃ s',
      usbResetConfigurationLoop recorder m descriptorEnd fuel s d = some (true, s') := by
  induction h with
  | done h =>
    refine ⟨1, fun fuel hfuel s => ⟨s, ?_⟩⟩
    obtain ⟨fuel, rfl⟩ : ∃ k, fuel = k + 1 := ⟨fuel - 1, by omega⟩
    rw [usbResetConfigurationLoop, if_pos h]
  | @function d len before function _ ih =>
    obtain ⟨bound, hbound⟩ := ih
    obtain ⟨d₁, len₁, hfunctional, hdata⟩ := function.parts
    obtain ⟨bound', hbound'⟩ := hfunctional.opened
    refine ⟨max bound bound' + 1, fun fuel hfuel s => ?_⟩
    obtain ⟨fuel, rfl⟩ : ∃ k, fuel = k + 1 := ⟨fuel - 1, by omega⟩
    rw [usbResetConfigurationLoop_cdc before function.interface function.cdc function.acm,
      hbound' fuel (by omega), Option.map_some]
    dsimp only
    rw [hdata.parts, if_neg function.counted]
    exact hbound fuel (by omega) _

/-! ### Where the calls go -/

/-- Calls have been added, all at or behind `d`. -/
def CallsFrom (d : ℕ) (s s' : List ConfigCall) : Prop :=
  ∃ new, s' = s ++ new ∧ ∀ c ∈ new, d ≤ c.offset

theorem CallsFrom.refl (d : ℕ) (s : List ConfigCall) : CallsFrom d s s :=
  ⟨[], (List.append_nil s).symm, fun _ h => absurd h List.not_mem_nil⟩

theorem CallsFrom.trans {s' s'' : List ConfigCall} (h : CallsFrom d s s')
    (h' : CallsFrom d s' s'') : CallsFrom d s s'' := by
  obtain ⟨new, rfl, hnew⟩ := h
  obtain ⟨new', rfl, hnew'⟩ := h'
  refine ⟨new ++ new', List.append_assoc .., fun c hc => ?_⟩
  rcases List.mem_append.mp hc with hc | hc
  · exact hnew c hc
  · exact hnew' c hc

theorem CallsFrom.mono {s' : List ConfigCall} {d' : ℕ} (h : CallsFrom d' s s') (hd : d ≤ d') :
    CallsFrom d s s' := by
  obtain ⟨new, hs, hnew⟩ := h
  exact ⟨new, hs, fun c hc => hd.trans (hnew c hc)⟩

theorem CallsFrom.one (s : List ConfigCall) {c : ConfigCall} (h : d ≤ c.offset) :
    CallsFrom d s (s ++ [c]) :=
  ⟨[c], rfl, fun _ hc => List.mem_singleton.mp hc ▸ h⟩

theorem DescriptorMemory.le_next (m : DescriptorMemory) (d : ℕ) : d ≤ m.next d :=
  Nat.le_add_right ..

theorem le_skipAssociation (m : DescriptorMemory) (d : ℕ) : d ≤ skipAssociation m d := by
  simp only [skipAssociation]
  split
  · exact m.le_next d
  · exact le_rfl

theorem le_looseNotification (m : DescriptorMemory) (d len : ℕ) :
    d ≤ (looseNotification m d len).1 := by
  simp only [looseNotification]
  split
  · exact m.le_next d
  · exact le_rfl

theorem LooseFunctional.le {d' len' : ℕ} (h : LooseFunctional m remaining d len d' len') :
    d ≤ d' := by
  induction h with
  | stop => exact le_rfl
  | next _ _ ih => exact (m.le_next _).trans ih

theorem usbEpOpenInOutPair_calls (s : List ConfigCall) (d : ℕ) :
    CallsFrom d s (usbEpOpenInOutPair recorder m usbEpTypeBulk s d).2 := by
  have hloop : ∀ n s d,
      CallsFrom d s (usbEpOpenInOutPairLoop recorder m usbEpTypeBulk n s d).2 := by
    intro n
    induction n with
    | zero => exact fun s d => CallsFrom.refl d s
    | succ n ih =>
      intro s d
      simp only [usbEpOpenInOutPairLoop]
      split
      · exact CallsFrom.refl d s
      · simp only [recorder, ite_self]
        exact (CallsFrom.one s (c := .epOpen d) le_rfl).trans
          ((ih _ (m.next d)).mono (m.le_next d))
  exact hloop 2 s d

theorem cdcOpenParts_calls (s : List ConfigCall) (d len : ℕ) :
    CallsFrom d s (cdcOpenParts m s d len).2 := by
  have hnotification : CallsFrom d s (s ++
      (if m.bDescriptorType d = usbDescriptorTypeEndpoint then [.epOpen d] else [])) := by
    split
    · exact CallsFrom.one s le_rfl
    · rw [List.append_nil]
      exact CallsFrom.refl d s
  have hresult : ∀ r, (cdcOpenResult r).2 = r.2.1 := by
    rintro ⟨_ | _, _, _⟩ <;> rfl
  have hdata : ∀ s d len, CallsFrom d s (usbCdcOpenData recorder m s d len).2.1 := by
    intro s d len
    unfold usbCdcOpenData
    split
    · have hpair := (usbEpOpenInOutPair_calls (m := m) s (m.next d)).mono (m.le_next d)
      dsimp only
      generalize usbEpOpenInOutPair recorder m usbEpTypeBulk s (m.next d) = r at hpair ⊢
      obtain ⟨_ | _, s'⟩ := r
      · exact hpair
      · exact hpair
    · exact CallsFrom.refl d s
  unfold cdcOpenParts
  rw [hresult]
  exact hnotification.trans ((hdata _ _ _).mono (le_looseNotification m d len))

/-- The walk looks only ahead. -/
theorem usbResetConfigurationLoop_calls {b : Bool} {s' : List ConfigCall} :
    ∀ {fuel d : ℕ} {s : List ConfigCall},
      usbResetConfigurationLoop recorder m descriptorEnd fuel s d = some (b, s') →
        CallsFrom d s s' := by
  intro fuel
  induction fuel with
  | zero => exact fun h => nomatch h
  | succ fuel ih =>
    intro d s h
    rcases usbResetConfigurationLoop_cases h with ⟨-, rfl⟩ | ⟨-, rfl⟩ |
      ⟨-, -, -, -, d₁, len₁, len, s₁, hfunctional, hparts, hrest⟩
    · exact CallsFrom.refl d _
    · exact CallsFrom.refl d _
    have hskip := le_skipAssociation m d
    have hle := (usbCdcOpenFunctional_loose hfunctional).le
    have hnext := m.le_next (skipAssociation m d)
    have hvisit : CallsFrom d s (s ++ [.cdcOpen (skipAssociation m d)]) := CallsFrom.one s hskip
    have hopened : CallsFrom d s s₁ := by
      have hcalls := cdcOpenParts_calls (m := m) (s ++ [.cdcOpen (skipAssociation m d)]) d₁ len₁
      rw [hparts] at hcalls
      exact hvisit.trans (hcalls.mono (by omega))
    rcases hrest with ⟨-, -, rfl⟩ | ⟨-, hloop⟩
    · exact hopened
    · exact hopened.trans ((ih hloop).mono (by omega))

/-! ### Functions of the grammar -/

section Function

variable {f : FunctionLayout}

theorem FunctionLayout.interfaceAt_le (f : FunctionLayout) (d : ℕ) : f.interfaceAt d ≤ d + 8 := by
  simp only [interfaceAt]
  split <;> omega

theorem FunctionLayout.le_interfaceAt (f : FunctionLayout) (d : ℕ) : d ≤ f.interfaceAt d := by
  simp only [interfaceAt]
  exact Nat.le_add_right ..

/-- A function takes at least 32 bytes from its interface on. -/
theorem FunctionLayout.interfaceAt_add_le (f : FunctionLayout) (d : ℕ) :
    f.interfaceAt d + 32 ≤ f.endsAt d := by
  simp only [endsAt, dataAt, notificationAt]
  omega

/-- The calls of a function lie within it. -/
theorem FunctionLayout.calls_lt (f : FunctionLayout) (d : ℕ) :
    ∀ c ∈ f.calls d, c.offset < f.endsAt d := by
  have hnotification : f.interfaceAt d + 9 ≤ f.notificationAt d := by
    simp only [notificationAt]
    omega
  have hdata : f.notificationAt d ≤ f.dataAt d := Nat.le_add_right ..
  have hends : f.endsAt d = f.dataAt d + 23 := rfl
  intro c hc
  simp only [calls] at hc
  simp only [List.mem_cons, List.mem_append, List.not_mem_nil, or_false] at hc
  rcases hc with rfl | hc | rfl | rfl
  · show f.interfaceAt d < _
    omega
  · split at hc
    · rw [List.mem_singleton.mp hc]
      show f.notificationAt d < _
      omega
    · exact absurd hc List.not_mem_nil
  · show f.dataAt d + 9 < _
    omega
  · show f.dataAt d + 16 < _
    omega

theorem FunctionAt.skipAssociation (h : FunctionAt m d f) :
    PcbMill.skipAssociation m d = f.interfaceAt d := by
  simp only [PcbMill.skipAssociation]
  by_cases hassociation : f.association = true
  · obtain ⟨htype, hlength⟩ := h.association hassociation
    rw [if_pos htype, FunctionLayout.interfaceAt, if_pos hassociation, DescriptorMemory.next,
      hlength]
  · have hat : f.interfaceAt d = d := by
      rw [FunctionLayout.interfaceAt, if_neg hassociation]
      rfl
    have htype := h.interface.1
    rw [hat] at htype
    rw [if_neg (by rw [htype]; decide), hat]

theorem FunctionalAt.opened {ns : List ℕ} :
    ∀ {fuel d len : ℕ}, FunctionalAt m d ns →
      m.bDescriptorType (d + ns.sum) ≠ usbDescriptorTypeCsInterface → len + ns.sum ≤ remaining →
        remaining < 2 ^ 16 → ns.length < fuel →
          usbCdcOpenFunctional m remaining fuel d len = some (d + ns.sum, len + ns.sum) := by
  induction ns with
  | nil =>
    intro fuel d len _ htype _ _ hfuel
    obtain ⟨fuel, rfl⟩ : ∃ k, fuel = k + 1 := ⟨fuel - 1, by omega⟩
    rw [usbCdcOpenFunctional, if_neg (fun hc => htype hc.1)]
    rfl
  | cons n ns ih =>
    intro fuel d len hat htype hlen hremaining hfuel
    obtain ⟨⟨hcs, hlength⟩, -, hrest⟩ := hat
    obtain ⟨fuel, rfl⟩ : ∃ k, fuel = k + 1 := ⟨fuel - 1, by omega⟩
    rw [List.sum_cons] at htype hlen ⊢
    rw [List.length_cons] at hfuel
    rw [usbCdcOpenFunctional, if_pos ⟨hcs, by omega⟩, DescriptorMemory.next, hlength,
      add16_of_lt (by omega), ih hrest (by rwa [Nat.add_assoc]) (by omega) hremaining (by omega),
      Nat.add_assoc, Nat.add_assoc]

/-- With less fuel than descriptors the walk has not ended. -/
theorem FunctionalAt.exhausted {ns : List ℕ} :
    ∀ {fuel d len : ℕ}, FunctionalAt m d ns → len + ns.sum ≤ remaining → remaining < 2 ^ 16 →
      fuel ≤ ns.length → usbCdcOpenFunctional m remaining fuel d len = none := by
  induction ns with
  | nil =>
    intro fuel d len _ _ _ hfuel
    rw [Nat.le_zero.mp hfuel]
    rfl
  | cons n ns ih =>
    intro fuel d len hat hlen hremaining hfuel
    obtain ⟨⟨hcs, hlength⟩, -, hrest⟩ := hat
    rw [List.sum_cons] at hlen
    rw [List.length_cons] at hfuel
    cases fuel with
    | zero => rfl
    | succ fuel =>
      rw [usbCdcOpenFunctional, if_pos ⟨hcs, by omega⟩, DescriptorMemory.next, hlength,
        add16_of_lt (by omega), ih hrest (by omega) hremaining (by omega)]

/-- Behind the class-specific descriptors comes something else. -/
theorem FunctionAt.stops (h : FunctionAt m d f) :
    m.bDescriptorType (f.interfaceAt d + 9 + f.functional.sum) ≠ usbDescriptorTypeCsInterface := by
  show m.bDescriptorType (f.notificationAt d) ≠ _
  by_cases hn : f.notification = true
  · rw [(h.notification hn).1]
    decide
  · have hd : f.dataAt d = f.notificationAt d := by
      rw [FunctionLayout.dataAt, if_neg hn]
      rfl
    rw [← hd, h.data.1]
    decide

theorem FunctionAt.loosePair (h : FunctionAt m d f) : LoosePair m (f.dataAt d + 9) := by
  obtain ⟨⟨htype, hlength⟩, hbulk⟩ := h.first
  obtain ⟨⟨htype', -⟩, hbulk'⟩ := h.second
  have hnext : m.next (f.dataAt d + 9) = f.dataAt d + 16 := by
    rw [DescriptorMemory.next, hlength]
  refine ⟨⟨htype, hbulk⟩, ?_⟩
  rw [hnext]
  exact ⟨htype', hbulk'⟩

/-- The notification endpoint of a function, if it has one. -/
theorem FunctionAt.looseNotification (h : FunctionAt m d f) (hlt : f.endsAt d < 2 ^ 16) :
    PcbMill.looseNotification m (f.notificationAt d) (9 + f.functional.sum) =
        (f.dataAt d, f.dataAt d - f.interfaceAt d) ∧
      (if m.bDescriptorType (f.notificationAt d) = usbDescriptorTypeEndpoint then
          [.epOpen (f.notificationAt d)] else []) =
        if f.notification = true then [ConfigCall.epOpen (f.notificationAt d)] else [] := by
  have hends : f.endsAt d = f.dataAt d + 23 := rfl
  have hat : f.notificationAt d = f.interfaceAt d + 9 + f.functional.sum := rfl
  simp only [PcbMill.looseNotification]
  by_cases hnotification : f.notification = true
  · obtain ⟨htype, hlength⟩ := h.notification hnotification
    have hdata : f.dataAt d = f.notificationAt d + 7 := by
      rw [FunctionLayout.dataAt, if_pos hnotification]
    rw [if_pos htype, if_pos htype, if_pos hnotification, DescriptorMemory.next, hlength,
      add16_of_lt (by omega), hdata]
    exact ⟨Prod.ext rfl (by show _ = _ - _; omega), rfl⟩
  · have hdata : f.dataAt d = f.notificationAt d := by
      rw [FunctionLayout.dataAt, if_neg hnotification]
      rfl
    have htype := h.data.1
    rw [hdata] at htype
    have hne : m.bDescriptorType (f.notificationAt d) ≠ usbDescriptorTypeEndpoint := by
      rw [htype]
      decide
    rw [if_neg hne, if_neg hne, if_neg hnotification, hdata]
    exact ⟨Prod.ext rfl (by show _ = _ - _; omega), rfl⟩

/-- `usb_cdc_open` consumes the function and makes its calls. -/
theorem FunctionAt.parts (h : FunctionAt m d f) (hlt : f.endsAt d < 2 ^ 16)
    (s : List ConfigCall) :
    cdcOpenParts m (s ++ [.cdcOpen (f.interfaceAt d)]) (f.notificationAt d)
        (9 + f.functional.sum) = (f.endsAt d - f.interfaceAt d, s ++ f.calls d) := by
  have hends : f.endsAt d = f.dataAt d + 23 := rfl
  have hinterface := f.interfaceAt_add_le d
  obtain ⟨hnotification, hcalls⟩ := h.looseNotification hlt
  have hnext : m.next (f.dataAt d) = f.dataAt d + 9 := by rw [DescriptorMemory.next, h.data.2]
  have hnext' : m.next (f.dataAt d + 9) = f.dataAt d + 16 := by
    rw [DescriptorMemory.next, h.first.1.2]
  simp only [cdcOpenParts]
  rw [hnotification, hcalls]
  dsimp only
  rw [usbCdcOpenData, if_pos ⟨h.data.1, h.dataClass⟩, hnext,
    usbEpOpenInOutPair_recorder h.loosePair, hnext', h.data.2]
  refine Prod.ext ?_ ?_
  · show add16 (add16 (f.dataAt d - f.interfaceAt d) 9) 14 = _
    rw [add16_of_lt (show f.dataAt d - f.interfaceAt d + 9 < 2 ^ 16 by omega),
      add16_of_lt (by omega)]
    omega
  · show s ++ [_] ++ _ ++ _ = _
    rw [FunctionLayout.calls, List.append_assoc, List.append_assoc]
    rfl

/-- **One function of the grammar**: the walk makes its calls and goes on twice as far as the
function is long. -/
theorem FunctionAt.walk (h : FunctionAt m d f) (hends : f.endsAt d ≤ descriptorEnd)
    (hlt : descriptorEnd < 2 ^ 16) (fuel : ℕ) (s : List ConfigCall) :
    usbResetConfigurationLoop recorder m descriptorEnd (fuel + 1) s d =
      if f.functional.length < fuel then
        usbResetConfigurationLoop recorder m descriptorEnd fuel (s ++ f.calls d)
          (f.interfaceAt d + 2 * (f.endsAt d - f.interfaceAt d))
      else none := by
  have hinterface := f.interfaceAt_add_le d
  have hle := f.le_interfaceAt d
  have hdata : f.endsAt d = f.dataAt d + 23 := rfl
  have hnotification : f.notificationAt d ≤ f.dataAt d := Nat.le_add_right ..
  have hat : f.notificationAt d = f.interfaceAt d + 9 + f.functional.sum := rfl
  have hskip := h.skipAssociation
  have hnext : m.next (f.interfaceAt d) = f.interfaceAt d + 9 := by
    rw [DescriptorMemory.next, h.interface.2]
  have hremaining : sub16 descriptorEnd (f.interfaceAt d) = descriptorEnd - f.interfaceAt d :=
    sub16_of_le (by omega) hlt
  rw [usbResetConfigurationLoop_cdc (by omega) (hskip ▸ h.interface.1) (hskip ▸ h.cdc)
    (hskip ▸ h.acm), hskip, hnext, hremaining]
  by_cases hfuel : f.functional.length < fuel
  · rw [if_pos hfuel, h.functional.opened h.stops (by omega) (by omega) hfuel, Option.map_some]
    dsimp only
    rw [← hat, h.parts (by omega)]
    dsimp only
    rw [if_neg (by omega)]
  · rw [if_neg hfuel, h.functional.exhausted (by omega) (by omega) (by omega)]
    rfl

end Function

/-! ### The condition -/

theorem walkEnds_iff (h : HasHeader m) (r : Bool × List ConfigCall) :
    WalkEnds m r ↔
      ∃ fuel, usbResetConfigurationLoop recorder m (m.wTotalLength 0) fuel [] 9 = some r := by
  have hnext : m.next 0 = 9 := by rw [DescriptorMemory.next, h.2]
  have hstart : ∀ fuel, usbResetConfiguration recorder m fuel [] =
      usbResetConfigurationLoop recorder m (m.wTotalLength 0) fuel [] 9 := by
    intro fuel
    rw [usbResetConfiguration, if_neg (not_not.mpr h.1), hnext]
    rfl
  simp only [WalkEnds]
  simp only [hstart]

theorem wTotalLength_lt (m : DescriptorMemory) (d : ℕ) : m.wTotalLength d < 2 ^ 16 := by
  have hlow : (m (d + 2)).toNat < 256 := (m (d + 2)).isLt
  have hhigh : (m (d + 3)).toNat < 256 := (m (d + 3)).isLt
  simp only [DescriptorMemory.wTotalLength]
  omega

theorem FunctionsAt.endsAt_le {fs : List FunctionLayout} :
    ∀ {d : ℕ}, FunctionsAt m descriptorEnd d fs → d ≤ descriptorEnd := by
  induction fs with
  | nil => exact fun h => h.le
  | cons f fs ih =>
    intro d h
    have hrest := ih h.2
    have hinterface := f.interfaceAt_add_le d
    have hle := f.le_interfaceAt d
    omega

theorem FunctionalAt.unique {ns ns' : List ℕ} :
    ∀ {d : ℕ}, FunctionalAt m d ns → FunctionalAt m d ns' →
      m.bDescriptorType (d + ns.sum) ≠ usbDescriptorTypeCsInterface →
        m.bDescriptorType (d + ns'.sum) ≠ usbDescriptorTypeCsInterface → ns = ns' := by
  induction ns generalizing ns' with
  | nil =>
    intro d _ hat' hstop _
    cases ns' with
    | nil => rfl
    | cons n ns' => exact absurd hat'.1.1 hstop
  | cons n ns ih =>
    intro d hat hat' hstop hstop'
    cases ns' with
    | nil => exact absurd hat.1.1 hstop'
    | cons n' ns' =>
      have hn : n = n' := hat.1.2.symm.trans hat'.1.2
      subst hn
      rw [List.sum_cons, ← Nat.add_assoc] at hstop hstop'
      rw [ih hat.2.2 hat'.2.2 hstop hstop']

/-- The descriptors determine the optional parts of a function. -/
theorem FunctionAt.unique {f f' : FunctionLayout} (h : FunctionAt m d f) (h' : FunctionAt m d f') :
    f = f' := by
  have hinterface : f.interfaceAt d = f'.interfaceAt d :=
    h.skipAssociation.symm.trans h'.skipAssociation
  have hfunctional : f.functional = f'.functional := by
    refine h.functional.unique ?_ h.stops ?_
    · rw [hinterface]
      exact h'.functional
    · rw [hinterface]
      exact h'.stops
  have hat : f.notificationAt d = f'.notificationAt d := by
    rw [FunctionLayout.notificationAt, FunctionLayout.notificationAt, hinterface, hfunctional]
  obtain ⟨association, functional, notification⟩ := f
  obtain ⟨association', functional', notification'⟩ := f'
  have hassociation : association = association' := by
    simp only [FunctionLayout.interfaceAt] at hinterface
    cases association <;> cases association' <;> simp at hinterface ⊢
  have hnotification : notification = notification' := by
    have htype := h.notification
    have htype' := h'.notification
    have hdata := h.data.1
    have hdata' := h'.data.1
    simp only [FunctionLayout.dataAt] at hdata hdata'
    rw [hat] at htype hdata
    dsimp only at hdata hdata' htype htype'
    cases notification <;> cases notification'
    · rfl
    · exact absurd ((htype' rfl).1.symm.trans hdata) (by decide)
    · exact absurd ((htype rfl).1.symm.trans hdata') (by decide)
    · rfl
  dsimp only at hfunctional
  rw [hassociation, hfunctional, hnotification]

theorem FunctionsAt.unique {fs fs' : List FunctionLayout} :
    ∀ {d : ℕ}, FunctionsAt m descriptorEnd d fs → FunctionsAt m descriptorEnd d fs' → fs = fs' := by
  have hbehind : ∀ {d : ℕ} {f : FunctionLayout} {fs : List FunctionLayout},
      FunctionsAt m descriptorEnd d (f :: fs) → d < descriptorEnd := by
    intro d f fs h
    have hrest := h.2.endsAt_le
    have hinterface := f.interfaceAt_add_le d
    have hle := f.le_interfaceAt d
    omega
  induction fs generalizing fs' with
  | nil =>
    intro d h h'
    cases fs' with
    | nil => rfl
    | cons f' fs' => exact absurd (hbehind h') (by rw [show d = descriptorEnd from h]; exact lt_irrefl _)
  | cons f fs ih =>
    intro d h h'
    cases fs' with
    | nil => exact absurd (hbehind h) (by rw [show d = descriptorEnd from h']; exact lt_irrefl _)
    | cons f' fs' =>
      have hf := h.1.unique h'.1
      subst hf
      rw [ih h.2 h'.2]

/-- The walk succeeds exactly on the chains it follows. -/
theorem walk_succeeds_iff (h : HasHeader m) :
    (∃ calls, WalkEnds m (true, calls)) ↔ LooseChain m (m.wTotalLength 0) 9 := by
  constructor
  · rintro ⟨calls, hwalk⟩
    obtain ⟨fuel, hloop⟩ := (walkEnds_iff h _).mp hwalk
    exact looseChain_of_walk hloop
  · intro hchain
    obtain ⟨bound, hbound⟩ := hchain.walk
    obtain ⟨s', hloop⟩ := hbound bound le_rfl []
    exact ⟨s', (walkEnds_iff h _).mpr ⟨bound, hloop⟩⟩

/-- A configuration of at most one function is walked exactly. -/
theorem walkEnds_of_single {fs : List FunctionLayout} (h : HasHeader m) (hfs : Describes m fs)
    (hsingle : fs.length ≤ 1) : WalkEnds m (true, functionsCalls 9 fs) := by
  rw [walkEnds_iff h]
  match fs, hsingle with
  | [], _ =>
    have hend : 9 = m.wTotalLength 0 := hfs
    exact ⟨1, by rw [usbResetConfigurationLoop, if_pos (by omega)]; rfl⟩
  | [f], _ =>
    obtain ⟨hf, hend⟩ := hfs
    have hends : f.endsAt 9 = m.wTotalLength 0 := hend
    have hinterface := f.interfaceAt_add_le 9
    refine ⟨f.functional.length + 2, ?_⟩
    rw [hf.walk hends.le (wTotalLength_lt m 0), if_pos (by omega), usbResetConfigurationLoop,
      if_pos (by omega), functionsCalls, functionsCalls, List.append_nil]
    rfl

/-- The walk of a function and what follows it: the calls of the function, and then calls behind
twice its length. -/
theorem walkEnds_function {f : FunctionLayout} {fs : List FunctionLayout} {calls : List ConfigCall}
    (h : HasHeader m) (hfs : Describes m (f :: fs)) (hwalk : WalkEnds m (true, calls)) :
    CallsFrom (f.interfaceAt 9 + 2 * (f.endsAt 9 - f.interfaceAt 9)) (f.calls 9) calls := by
  obtain ⟨fuel, hloop⟩ := (walkEnds_iff h _).mp hwalk
  cases fuel with
  | zero => cases hloop
  | succ fuel =>
    rw [hfs.1.walk hfs.2.endsAt_le (wTotalLength_lt m 0)] at hloop
    split at hloop
    · exact usbResetConfigurationLoop_calls hloop
    · cases hloop

/-- A configuration of at most one function leaves nothing open. -/
theorem calls_of_single {fs : List FunctionLayout} {calls : List ConfigCall} (h : HasHeader m)
    (hfs : Describes m fs) (hsingle : fs.length ≤ 1) (hwalk : WalkEnds m (true, calls)) :
    calls = functionsCalls 9 fs := by
  obtain ⟨fuel, hloop⟩ := (walkEnds_iff h _).mp hwalk
  have hdone : ∀ {fuel d s}, m.wTotalLength 0 ≤ d →
      usbResetConfigurationLoop recorder m (m.wTotalLength 0) fuel s d = some (true, calls) →
        calls = s := by
    intro fuel d s hend hloop
    cases fuel with
    | zero => cases hloop
    | succ fuel =>
      rw [usbResetConfigurationLoop, if_pos hend] at hloop
      cases hloop
      rfl
  match fs, hsingle with
  | [], _ => exact hdone (le_of_eq (Eq.symm hfs)) hloop
  | [f], _ =>
    have hends : f.endsAt 9 = m.wTotalLength 0 := hfs.2
    have hinterface := f.interfaceAt_add_le 9
    cases fuel with
    | zero => cases hloop
    | succ fuel =>
      rw [hfs.1.walk hends.le (wTotalLength_lt m 0)] at hloop
      split at hloop
      · rw [functionsCalls, functionsCalls, List.append_nil]
        exact hdone (by omega) hloop
      · cases hloop

/-- The second function of a configuration is passed over. -/
theorem second_function_missed {f g : FunctionLayout} {fs : List FunctionLayout}
    {calls : List ConfigCall} (h : HasHeader m) (hfs : Describes m (f :: g :: fs))
    (hwalk : WalkEnds m (true, calls)) : .cdcOpen (g.interfaceAt (f.endsAt 9)) ∉ calls := by
  obtain ⟨new, rfl, hnew⟩ := walkEnds_function h hfs hwalk
  have hlength := f.interfaceAt_add_le 9
  have hinterface := g.interfaceAt_le (f.endsAt 9)
  have hbehind := g.le_interfaceAt (f.endsAt 9)
  intro hmem
  rcases List.mem_append.mp hmem with hmem | hmem
  · have hoffset : g.interfaceAt (f.endsAt 9) < f.endsAt 9 := f.calls_lt 9 _ hmem
    omega
  · have hoffset : _ ≤ g.interfaceAt (f.endsAt 9) := hnew _ hmem
    omega

/-- **The parser, exactly**: it accepts the grammar and opens all of it if and only if the
descriptor is in the grammar with at most one function, or it is not in the grammar and the
walk finds no chain of functions in the loose sense. -/
theorem accepts_exactly_iff (h : HasHeader m) :
    AcceptsExactly m ↔
      (∃ fs, Describes m fs ∧ fs.length ≤ 1) ∨
        (¬∃ fs, Describes m fs) ∧ ¬LooseChain m (m.wTotalLength 0) 9 := by
  constructor
  · intro hexact
    by_cases hgrammar : ∃ fs, Describes m fs
    · obtain ⟨fs, hfs⟩ := hgrammar
      obtain ⟨calls, hwalk⟩ := hexact.accepts.mpr ⟨fs, hfs⟩
      have hcalls := hexact.complete calls fs hwalk hfs
      refine .inl ⟨fs, hfs, ?_⟩
      match fs, hfs, hcalls with
      | [], _, _ => exact Nat.zero_le _
      | [f], _, _ => exact le_rfl
      | f :: g :: fs, hfs, hcalls =>
        refine absurd ?_ (second_function_missed h hfs hwalk)
        rw [hcalls, functionsCalls, functionsCalls]
        exact List.mem_append_right _ List.mem_cons_self
    · exact .inr ⟨hgrammar, fun hchain =>
        hgrammar (hexact.accepts.mp ((walk_succeeds_iff h).mpr hchain))⟩
  · rintro (⟨fs, hfs, hsingle⟩ | ⟨hgrammar, hchain⟩)
    · refine ⟨⟨fun _ => ⟨fs, hfs⟩, fun _ => ⟨_, walkEnds_of_single h hfs hsingle⟩⟩, ?_⟩
      intro calls fs' hcalls hfs'
      rw [FunctionsAt.unique hfs' hfs]
      exact calls_of_single h hfs hsingle hcalls
    · refine ⟨?_, fun calls fs hcalls hfs => absurd ⟨fs, hfs⟩ hgrammar⟩
      rw [walk_succeeds_iff h]
      exact iff_of_false hchain hgrammar

/-- The function of the firmware's own configuration descriptor. -/
def firmwareFunction : FunctionLayout :=
  { association := true, functional := [5, 5, 4, 5], notification := true }

theorem describes_firmwareFunction : Describes configurationMemory [firmwareFunction] := by
  refine ⟨?_, rfl⟩
  exact
    { association := fun _ => ⟨by decide, by decide⟩
      interface := ⟨by decide, by decide⟩
      cdc := by decide
      acm := by decide
      functional := ⟨⟨by decide, by decide⟩, by decide, ⟨by decide, by decide⟩, by decide,
        ⟨by decide, by decide⟩, by decide, ⟨by decide, by decide⟩, by decide, trivial⟩
      notification := fun _ => ⟨by decide, by decide⟩
      data := ⟨by decide, by decide⟩
      dataClass := by decide
      first := ⟨⟨by decide, by decide⟩, by decide⟩
      second := ⟨⟨by decide, by decide⟩, by decide⟩
      pair := by decide }

/-- The firmware's own configuration descriptor is walked exactly. -/
theorem configurationMemory_accepts_exactly : AcceptsExactly configurationMemory :=
  (accepts_exactly_iff ⟨by decide, by decide⟩).mpr
    (.inl ⟨[firmwareFunction], describes_firmwareFunction, by decide⟩)

/-- A CDC-ACM function without optional parts. -/
def plainFunction : FunctionLayout := { association := false, functional := [], notification := false }

def plainFunctionBytes : List Byte :=
  [9#8, 0x04#8, 0#8, 0#8, 0#8, 0x02#8, 0x02#8, 0#8, 0#8,
    9#8, 0x04#8, 1#8, 0#8, 2#8, 0x0A#8, 0#8, 0#8, 0#8,
    7#8, 0x05#8, 0x02#8, 0x02#8, 64#8, 0#8, 0#8,
    7#8, 0x05#8, 0x82#8, 0x02#8, 64#8, 0#8, 0#8]

/-- A configuration of two such functions. -/
def twoFunctions : DescriptorMemory := fun i =>
  ([9#8, 0x02#8, 73#8, 0#8, 4#8, 1#8, 0#8, 0x80#8, 50#8] ++ plainFunctionBytes ++
    plainFunctionBytes).getD i 0#8

theorem describes_twoFunctions : Describes twoFunctions [plainFunction, plainFunction] := by
  refine ⟨?_, ?_, rfl⟩
  all_goals exact
    { association := fun h => absurd h (by decide)
      interface := ⟨by decide, by decide⟩
      cdc := by decide
      acm := by decide
      functional := trivial
      notification := fun h => absurd h (by decide)
      data := ⟨by decide, by decide⟩
      dataClass := by decide
      first := ⟨⟨by decide, by decide⟩, by decide⟩
      second := ⟨⟨by decide, by decide⟩, by decide⟩
      pair := by decide }

/-- The walk over two functions succeeds and has opened the first one only. -/
theorem twoFunctions_second_skipped : HasHeader twoFunctions ∧ ¬AcceptsExactly twoFunctions := by
  refine ⟨⟨by decide, by decide⟩, fun hexact => ?_⟩
  have hwalk : WalkEnds twoFunctions (true, plainFunction.calls 9) := ⟨3, by decide⟩
  have hcalls := hexact.complete _ _ hwalk describes_twoFunctions
  revert hcalls
  decide

end PcbMill
