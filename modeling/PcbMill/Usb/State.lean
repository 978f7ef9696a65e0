import PcbMill.Core.CircularBuffer
import PcbMill.Usb.Registers

/-!
# The state of the USB device

One record holds what the USB peripheral, the HAL, the device layer and the CDC driver share:
the endpoint registers and the packet memory, the static variables of `usb_hal.c`,
`usb_device.c` and `usb_cdc.c`, and the memory their pointers point into.  `trace` is not in
the program: it records the calls, packets and stores the results are stated over, oldest
first.
-/

namespace PcbMill

open FixedWidth Segment

/-! ### Pointers -/

/-- The objects a pointer of the USB code can point to.  The stack locals a response is taken
from are kept apart from everything else, as are the descriptor tables in flash. -/
inductive Region where
  | null | ep0ControlBuffer | epOutBuffer | epInBuffer | lineCoding | descriptorStr
  | configNum | status | alternate
  | descriptorDevice | usbConfigurationDescriptor | deviceQualifierDesc
  deriving DecidableEq, Repr

structure Ptr where
  region : Region
  offset : ℕ
  deriving DecidableEq, Repr

/-- `NULL`. -/
def Ptr.null : Ptr := ⟨.null, 0⟩

def Ptr.add (p : Ptr) (n : ℕ) : Ptr := { p with offset := p.offset + n }

theorem Ptr.add_add (p : Ptr) (a b : ℕ) : (p.add a).add b = p.add (a + b) := by
  simp only [add]
  rw [Nat.add_assoc]

/-! ### The descriptor tables of `usb_descriptors.c` -/

def descriptorDevice : List Byte :=
  [18#8, 0x01#8, 0x00#8, 0x02#8, 0xEF#8, 0x02#8, 0x01#8, 64#8, 0x83#8, 0x04#8, 0x40#8, 0x57#8,
    0x00#8, 0x01#8, 0x01#8, 0x02#8, 0x03#8, 0x01#8]

def usbConfigurationDescriptor : List Byte :=
  [ -- configuration
    9#8, 0x02#8, 0x4B#8, 0x00#8, 2#8, 1#8, 0#8, 0x80#8, 50#8,
    -- interface association
    8#8, 0x0B#8, 0#8, 2#8, 0x02#8, 0x02#8, 0x00#8, 0#8,
    -- CDC control interface
    9#8, 0x04#8, 0#8, 0#8, 1#8, 0x02#8, 0x02#8, 0x00#8, 4#8,
    -- CDC functional descriptors: header, call management, ACM, union
    5#8, 0x24#8, 0x00#8, 0x20#8, 0x01#8,
    5#8, 0x24#8, 0x01#8, 0#8, 1#8,
    4#8, 0x24#8, 0x02#8, 6#8,
    5#8, 0x24#8, 0x06#8, 0#8, 1#8,
    -- notification endpoint
    7#8, 0x05#8, 0x81#8, 0x03#8, 0x08#8, 0x00#8, 1#8,
    -- CDC data interface
    9#8, 0x04#8, 1#8, 0#8, 2#8, 0x0A#8, 0x00#8, 0x00#8, 0#8,
    -- bulk OUT and bulk IN endpoints
    7#8, 0x05#8, 0x02#8, 0x02#8, 64#8, 0x00#8, 0#8,
    7#8, 0x05#8, 0x82#8, 0x02#8, 64#8, 0x00#8, 0#8]

def deviceQualifierDesc : List Byte :=
  [0x0A#8, 0x06#8, 0x00#8, 0x02#8, 0x02#8, 0x02#8, 0x00#8, 64#8, 0x01#8, 0x00#8]

/-- The bytes of a region in flash. -/
def Region.flash : Region → Option (List Byte)
  | .descriptorDevice => some PcbMill.descriptorDevice
  | .usbConfigurationDescriptor => some PcbMill.usbConfigurationDescriptor
  | .deviceQualifierDesc => some PcbMill.deviceQualifierDesc
  | _ => none

/-! ### Requests -/

/-- `usb_control_request_t`. -/
structure UsbControlRequest where
  bmRequestType : Byte
  bRequest : Byte
  wValue : BitVec 16
  wIndex : BitVec 16
  wLength : BitVec 16
  deriving DecidableEq, Repr

/-- `usb_request_type_t`. -/
inductive RequestType where
  | standard | classSpecific | vendor | reserved
  deriving DecidableEq, Repr

/-- `usb_request_recipient_t`; every other recipient is treated as `other`. -/
inductive RequestRecipient where
  | device | interface | endpoint | other
  deriving DecidableEq, Repr

/-- `(bmRequestType & USB_REQUEST_TYPE_MASK) >> 5`. -/
def usbRequestType (bmRequestType : Byte) : RequestType :=
  match ((bmRequestType &&& 0x60#8) >>> 5).toNat with
  | 0 => .standard
  | 1 => .classSpecific
  | 2 => .vendor
  | _ => .reserved

/-- `bmRequestType & USB_REQUEST_RECIPIENT_MASK`. -/
def usbRequestRecipient (bmRequestType : Byte) : RequestRecipient :=
  match (bmRequestType &&& 0x1F#8).toNat with
  | 0 => .device
  | 1 => .interface
  | 2 => .endpoint
  | _ => .other

/-- `USB_EP_IDN`. -/
def usbEpIdn (addr : Byte) : ℕ := (addr &&& 0x0F#8).toNat

/-- `USB_EP_DIR_IDX`: 1 for device to host, 0 for host to device. -/
def usbEpDirIdx (addr : Byte) : ℕ := ((addr &&& 0x80#8) >>> 7).toNat

/-- `usb_request_direction`. -/
def usbRequestDirection (bmRequestType : Byte) : ℕ := usbEpDirIdx bmRequestType

/-- `USB_DIR_DEVICE_IN_HOST_OUT`, `USB_DIR_DEVICE_OUT_HOST_IN`. -/
def usbDirDeviceInHostOut : Byte := 0x00#8
def usbDirDeviceOutHostIn : Byte := 0x80#8

theorem usbEpDirIdx_cases (addr : Byte) : usbEpDirIdx addr = 0 ∨ usbEpDirIdx addr = 1 := by
  revert addr
  decide

/-! ### Transfers -/

/-- `feed_forward_buffer_t`. -/
structure FeedForwardBuffer where
  buffer : Ptr
  totalCount : ℕ
  fedCount : ℕ
  deriving DecidableEq, Repr

/-- `feed_forward_remaining_count`. -/
def feedForwardRemainingCount (buffer : FeedForwardBuffer) (maxBufferSize : ℕ) : ℕ :=
  let remaining := sub16 buffer.totalCount buffer.fedCount
  if remaining < maxBufferSize then remaining else maxBufferSize

/-- `usb_ep_transfer_t`. -/
structure EpTransfer where
  feed : FeedForwardBuffer
  maxPacketSize : ℕ
  epIdn : ℕ
  deriving DecidableEq, Repr

/-- `ep_assignment_t`. -/
structure EpAssignment where
  epIdn : ℕ
  epType : ℕ
  assigned : ℕ → Bool

/-- The functions stored as `control_complete_cb`. -/
inductive ControlCompleteCb where
  | usbDeviceSetAddressComplete | usbCdcControlTransfer
  deriving DecidableEq, Repr

/-- The control stages. -/
inductive ControlStage where
  | idle | setup | data | status
  deriving DecidableEq, Repr

/-- `usb_control_transfer_t`. -/
structure ControlTransfer where
  feed : FeedForwardBuffer
  request : UsbControlRequest
  controlCompleteCb : Option ControlCompleteCb
  deriving DecidableEq, Repr

/-- `usb_device_t`. -/
structure UsbDevice where
  connected : Bool
  addressed : Bool
  remoteWakeup : Bool
  selfPowered : Bool
  suspended : Bool
  addressPending : Byte
  address : Byte
  configNum : Byte
  deriving DecidableEq, Repr

/-- `usb_cdc_t`, without the line coding, which is a region of its own. -/
structure UsbCdc where
  epAddrIn : Byte
  epAddrOut : Byte
  flowControlState : Byte
  rxBuffer : CircularBuffer
  txBuffer : CircularBuffer

/-! ### The record -/

/-- What the results look at: calls of the queueing function and of the completion callbacks,
SETUP packets handled, completions taken for a data stage, stores of received bytes, packets
on the bus, the stages the host has completed, and the bytes the CDC interface gave to and took
from the application. -/
inductive UsbEvent where
  | queued (epIdn dirIdx totalBytes : ℕ)
  | setupHandled (request : UsbControlRequest) (accepted : Bool)
  | callback (cb : ControlCompleteCb) (stage : ControlStage) (request : UsbControlRequest)
  | dataStage (request : UsbControlRequest) (transferredBytes : ℕ)
  | rxStored (epIdn : ℕ) (dst : Ptr) (byteCount : ℕ)
  | controlStored (request : UsbControlRequest) (dst : Ptr) (byteCount : ℕ)
  | setupPacket (request : UsbControlRequest)
  | rxPacket (epIdn : ℕ) (bytes : List Byte)
  | txPacket (epIdn : ℕ) (bytes : List Byte)
  | hostData
  | hostStatus
  | cdcRead (bytes : List Byte)
  | cdcWrite (bytes : List Byte)

structure Usb where
  /-- The registers `CHEPnR`. -/
  chep : ℕ → Word
  /-- The packet memory in words; words 0 to 15 are the buffer descriptor tables. -/
  pma : ℕ → Word
  daddr : Byte
  /-- `ep_transfer_set`, by endpoint and direction index. -/
  epTransferSet : ℕ → ℕ → EpTransfer
  epAssignment : ℕ → EpAssignment
  usbPmaNextAvailable : ℕ
  usbDevice : UsbDevice
  controlTransfer : ControlTransfer
  usbCdc : UsbCdc
  ram : Region → ℕ → Byte
  trace : List UsbEvent

namespace Usb

def log (s : Usb) (e : UsbEvent) : Usb := { s with trace := s.trace ++ [e] }

def setChep (s : Usb) (epIdn : ℕ) (v : Word) : Usb :=
  { s with chep := Function.update s.chep epIdn v }

def setPma (s : Usb) (i : ℕ) (v : Word) : Usb := { s with pma := Function.update s.pma i v }

def setTransfer (s : Usb) (epIdn dirIdx : ℕ) (t : EpTransfer) : Usb :=
  { s with epTransferSet :=
      Function.update s.epTransferSet epIdn (Function.update (s.epTransferSet epIdn) dirIdx t) }

def setAssignment (s : Usb) (idn : ℕ) (a : EpAssignment) : Usb :=
  { s with epAssignment := Function.update s.epAssignment idn a }

/-- The memory of a region. -/
def memory (s : Usb) (r : Region) : ℕ → Byte :=
  match r.flash with
  | some bytes => fun i => bytes.getD i 0#8
  | none => s.ram r

def load (s : Usb) (p : Ptr) (n : ℕ) : List Byte := readSegment (s.memory p.region) p.offset n

/-- Stores to flash do not take effect. -/
def store (s : Usb) (p : Ptr) (data : List Byte) : Usb :=
  { s with ram := if p.region.flash.isSome then s.ram
      else Function.update s.ram p.region (writeSegment (s.ram p.region) p.offset data) }

end Usb

end PcbMill
