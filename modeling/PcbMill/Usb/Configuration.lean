import PcbMill.Usb.Hal

/-!
# The walk over the configuration descriptor

`usb_reset_configuration`, `usb_cdc_open` and `usb_ep_open_in_out_pair`, over any descriptor
memory and any `ConfigDriver`: the device they configure.  A descriptor is its byte offset from
the configuration header.  The walk has no bound of its own, so it takes fuel, and `none` is a
walk that has not ended.
-/

namespace PcbMill

open FixedWidth

/-- The descriptor types the walk compares with. -/
def usbDescriptorTypeConfiguration : Byte := 0x02#8
def usbDescriptorTypeInterface : Byte := 0x04#8
def usbDescriptorTypeEndpoint : Byte := 0x05#8
def usbDescriptorTypeInterfaceAssociation : Byte := 0x0B#8
def usbDescriptorTypeCsInterface : Byte := 0x24#8

/-- `USB_CLASS_CDC`, `USB_CLASS_CDC_DATA`, `CDC_COMM_SUBCLASS_ABSTRACT_CONTROL_MODEL`. -/
def usbClassCdc : Byte := 0x02#8
def usbClassCdcData : Byte := 0x0A#8
def cdcCommSubclassAbstractControlModel : Byte := 0x02#8

/-! ### Reading descriptors -/

/-- The bytes from the configuration header on. -/
abbrev DescriptorMemory := ℕ → Byte

namespace DescriptorMemory

variable (m : DescriptorMemory)

def bLength (d : ℕ) : ℕ := (m d).toNat

def bDescriptorType (d : ℕ) : Byte := m (d + 1)

def wTotalLength (d : ℕ) : ℕ := (m (d + 2)).toNat + 256 * (m (d + 3)).toNat

def bmAttributes (d : ℕ) : Byte := m (d + 7)

def bInterfaceClass (d : ℕ) : Byte := m (d + 5)

def bInterfaceSubClass (d : ℕ) : Byte := m (d + 6)

def bEndpointAddress (d : ℕ) : Byte := m (d + 2)

/-- `bmAttributes.type` of an endpoint descriptor. -/
def epType (d : ℕ) : ℕ := (m (d + 3) &&& 0x03#8).toNat

def wMaxPacketSize (d : ℕ) : ℕ := (m (d + 4)).toNat + 256 * (m (d + 5)).toNat

def epDescriptor (d : ℕ) : EpDescriptor :=
  { bEndpointAddress := m.bEndpointAddress d, type := m.epType d
    wMaxPacketSize := m.wMaxPacketSize d }

/-- `usb_configuration_next_descriptor`. -/
def next (d : ℕ) : ℕ := d + m.bLength d

end DescriptorMemory

/-! ### The walk -/

/-- What the walk does to the device being configured.  `visit` stands for the call of
`usb_cdc_open` on an interface, which itself changes nothing. -/
structure ConfigDriver (σ : Type*) where
  setPower : σ → Byte → σ
  visit : σ → ℕ → σ
  epOpenHal : σ → ℕ → Bool × σ
  setEpAddrIn : σ → Byte → σ
  setEpAddrOut : σ → Byte → σ
  cdcReadEp : σ → σ

section Walk

variable {σ : Type*} (drv : ConfigDriver σ) (m : DescriptorMemory)

/-- The loop of `usb_ep_open_in_out_pair`, with the iterations left. -/
def usbEpOpenInOutPairLoop (transferType : ℕ) : ℕ → σ → ℕ → Bool × σ
  | 0, s, _ => (true, s)
  | n + 1, s, d =>
    if m.bDescriptorType d ≠ usbDescriptorTypeEndpoint ∨ m.epType d ≠ transferType then (false, s)
    else match drv.epOpenHal s d with
      | (false, s) => (false, s)
      | (true, s) =>
        let s := if usbEpDirIdx (m.bEndpointAddress d) = usbDirDeviceOutHostInIdx
          then drv.setEpAddrIn s (m.bEndpointAddress d)
          else drv.setEpAddrOut s (m.bEndpointAddress d)
        usbEpOpenInOutPairLoop transferType n s (m.next d)

/-- `usb_ep_open_in_out_pair`. -/
def usbEpOpenInOutPair (transferType : ℕ) (s : σ) (d : ℕ) : Bool × σ :=
  usbEpOpenInOutPairLoop drv m transferType 2 s d

/-- The loop of `usb_cdc_open` over the functional descriptors. -/
def usbCdcOpenFunctional (descriptorEnd : ℕ) : ℕ → ℕ → ℕ → Option (ℕ × ℕ)
  | 0, _, _ => none
  | fuel + 1, d, descriptorLen =>
    if m.bDescriptorType d = usbDescriptorTypeCsInterface ∧ descriptorLen ≤ descriptorEnd then
      usbCdcOpenFunctional descriptorEnd fuel (m.next d) (add16 descriptorLen (m.bLength d))
    else some (d, descriptorLen)

/-- The notification endpoint of `usb_cdc_open`: whether to go on, the next descriptor and the
length so far. -/
def usbCdcOpenNotification (s : σ) (d descriptorLen : ℕ) : Bool × σ × ℕ × ℕ :=
  if m.bDescriptorType d = usbDescriptorTypeEndpoint then
    match drv.epOpenHal s d with
    | (false, s) => (false, s, d, descriptorLen)
    | (true, s) => (true, s, m.next d, add16 descriptorLen (m.bLength d))
  else (true, s, d, descriptorLen)

/-- The data interface of `usb_cdc_open`: whether to go on and the length so far. -/
def usbCdcOpenData (s : σ) (d descriptorLen : ℕ) : Bool × σ × ℕ :=
  if m.bDescriptorType d = usbDescriptorTypeInterface ∧ m.bInterfaceClass d = usbClassCdcData then
    let descriptorLen := add16 descriptorLen (m.bLength d)
    match usbEpOpenInOutPair drv m usbEpTypeBulk s (m.next d) with
    | (false, s) => (false, s, descriptorLen)
    | (true, s) => (true, s, add16 descriptorLen (2 * 7))
  else (true, s, descriptorLen)

/-- `usb_cdc_open`: the length consumed, 0 for a failure. -/
def usbCdcOpen (fuel : ℕ) (s : σ) (d descriptorEnd : ℕ) : Option (ℕ × σ) :=
  let s := drv.visit s d
  if m.bInterfaceClass d ≠ usbClassCdc ∨
      m.bInterfaceSubClass d ≠ cdcCommSubclassAbstractControlModel then some (0, s)
  else match usbCdcOpenFunctional m descriptorEnd fuel (m.next d) 9 with
    | none => none
    | some (d, descriptorLen) =>
      match usbCdcOpenNotification drv m s d descriptorLen with
      | (false, s, _, _) => some (0, s)
      | (true, s, d, descriptorLen) =>
        match usbCdcOpenData drv m s d descriptorLen with
        | (false, s, _) => some (0, s)
        | (true, s, descriptorLen) => some (descriptorLen, drv.cdcReadEp s)

/-- The loop of `usb_reset_configuration`.  `descriptor += descriptor_len` advances a pointer to
a two-byte structure. -/
def usbResetConfigurationLoop (descriptorEnd : ℕ) : ℕ → σ → ℕ → Option (Bool × σ)
  | 0, _, _ => none
  | fuel + 1, s, d =>
    if descriptorEnd ≤ d then some (true, s)
    else
      let d := if m.bDescriptorType d = usbDescriptorTypeInterfaceAssociation then m.next d else d
      if m.bDescriptorType d ≠ usbDescriptorTypeInterface then some (false, s)
      else
        let remainingLen := sub16 descriptorEnd d
        if m.bInterfaceClass d = usbClassCdc ∧
            m.bInterfaceSubClass d = cdcCommSubclassAbstractControlModel then
          match usbCdcOpen drv m fuel s d remainingLen with
          | none => none
          | some (descriptorLen, s) =>
            if descriptorLen = 0 then some (false, s)
            else usbResetConfigurationLoop descriptorEnd fuel s (d + 2 * descriptorLen)
        else some (false, s)

/-- `usb_reset_configuration`. -/
def usbResetConfiguration (fuel : ℕ) (s : σ) : Option (Bool × σ) :=
  if m.bDescriptorType 0 ≠ usbDescriptorTypeConfiguration then some (false, s)
  else usbResetConfigurationLoop drv m (m.wTotalLength 0) fuel (drv.setPower s (m.bmAttributes 0))
    (m.next 0)

end Walk

end PcbMill
