import PcbMill.Usb.Device

/-!
# The interrupt handler and the bus

One iteration of the correct-transfer loop of `USB_UCPD1_2_IRQHandler`, for the endpoint the
hardware names, and what the host's transactions do to the peripheral.
-/

namespace PcbMill

open FixedWidth WordMemory

/-! ### The interrupt handler -/

/-- The cast of eight received bytes to `usb_control_request_t`. -/
def usbControlRequestOfBytes (b : List Byte) : UsbControlRequest :=
  { bmRequestType := b.getD 0 0#8, bRequest := b.getD 1 0#8
    wValue := b.getD 3 0#8 ++ b.getD 2 0#8
    wIndex := b.getD 5 0#8 ++ b.getD 4 0#8
    wLength := b.getD 7 0#8 ++ b.getD 6 0#8 }

/-- `process_control_request_hal`.  The stall routine is given the direction bits 0x80 and
0x00 where it takes the direction indices 1 and 0. -/
def processControlRequestHal (s : Usb) (request : UsbControlRequest) : Usb :=
  match usbProcessControlRequest s request with
  | (true, s) => s.log (.setupHandled request true)
  | (false, s) =>
    let s := usbEpStallSetHal s 0 usbDirDeviceOutHostIn.toNat
    let s := usbEpStallSetHal s 0 usbDirDeviceInHostOut.toNat
    s.log (.setupHandled request false)

/-- `usb_ep_setup`. -/
def usbEpSetup (s : Usb) (epIdn : ℕ) : Usb :=
  let rxAddr := usbPmaEpAddrGet s epIdn usbEpRxCountAddrIdx
  let rxCount := usbPmaCountGet s epIdn usbEpRxCountAddrIdx
  let controlRequest := usbRxPmaRead s.pma rxAddr rxCount
  let s := usbEpClearCorrectTransfer s epIdn usbDirDeviceInHostOutIdx
  if rxCount = 8 then processControlRequestHal s (usbControlRequestOfBytes controlRequest)
  else usbEpSetRxBufferBlockSize s 0 8

/-- `usb_ep_transfer_complete`; what `usb_control_transfer` returns is not looked at. -/
def usbEpTransferComplete (cbs : CdcCallbacks) (s : Usb) (epAddr : Byte) (transferredBytes : ℕ) :
    Usb :=
  if usbEpIdn epAddr = 0 then (usbControlTransfer s epAddr transferredBytes).2
  else usbEpBufferTransfer cbs s epAddr transferredBytes

/-- `usb_rx_packet` up to the completion: the bytes of the packet are in the feed buffer. -/
def usbRxPacketStore (s : Usb) (epIdn : ℕ) : Usb :=
  let t := s.epTransferSet epIdn usbDirDeviceInHostOutIdx
  let rxCount := usbPmaCountGet s epIdn usbEpRxCountAddrIdx
  let pmaAddr := usbPmaEpAddrGet s epIdn usbEpRxCountAddrIdx
  let dst := t.feed.buffer.add t.feed.fedCount
  let s := (s.store dst (usbRxPmaRead s.pma pmaAddr rxCount)).log (.rxStored epIdn dst rxCount)
  let s := s.setTransfer epIdn usbDirDeviceInHostOutIdx
    { t with feed := { t.feed with fedCount := add16 t.feed.fedCount rxCount } }
  usbEpSetRxBufferBlockSize s epIdn t.maxPacketSize

/-- `usb_rx_packet`. -/
def usbRxPacket (cbs : CdcCallbacks) (s : Usb) (epIdn : ℕ) : Usb :=
  let s := usbRxPacketStore s epIdn
  let s := usbEpTransferComplete cbs s (BitVec.ofNat 8 epIdn)
    (s.epTransferSet epIdn usbDirDeviceInHostOutIdx).feed.fedCount
  let t := s.epTransferSet epIdn usbDirDeviceInHostOutIdx
  s.setTransfer epIdn usbDirDeviceInHostOutIdx
    { t with feed := { t.feed with totalCount := 0, fedCount := 0 } }

/-- The VTRX half of an iteration, on the register value read at its start. -/
def usbIrqRx (cbs : CdcCallbacks) (s : Usb) (epIdn : ℕ) (epReg : Word) : Usb :=
  if vtrx epReg then
    if setupFlag epReg then usbEpSetup s epIdn
    else usbRxPacket cbs (usbEpClearCorrectTransfer s epIdn usbDirDeviceInHostOutIdx) epIdn
  else s

/-- The VTTX half of an iteration. -/
def usbIrqTx (cbs : CdcCallbacks) (s : Usb) (epIdn : ℕ) (epReg : Word) : Usb :=
  if vttx epReg then
    let s := usbEpClearCorrectTransfer s epIdn usbDirDeviceOutHostInIdx
    let t := s.epTransferSet epIdn usbDirDeviceOutHostInIdx
    if t.feed.totalCount ≠ t.feed.fedCount then usbTxPacket s epIdn
    else usbEpTransferComplete cbs s (BitVec.ofNat 8 epIdn ||| usbDirDeviceOutHostIn) t.feed.fedCount
  else s

/-- One iteration of the loop, for the endpoint in `USB_ISTR_IDN`. -/
def usbIrqCtr (cbs : CdcCallbacks) (s : Usb) (epIdn : ℕ) : Usb :=
  let epReg := s.chep epIdn
  usbIrqTx cbs (usbIrqRx cbs s epIdn epReg) epIdn epReg

/-! ### The bus -/

def rxDesc (s : Usb) (epIdn : ℕ) : Word := s.pma (bufferDesc epIdn usbEpRxCountAddrIdx)

def txDesc (s : Usb) (epIdn : ℕ) : Word := s.pma (bufferDesc epIdn usbEpTxCountAddrIdx)

/-- The hardware puts a received packet in the packet memory. -/
def rxDeposit (s : Usb) (epIdn : ℕ) (data : List Byte) : Usb :=
  { s with
    pma := Function.update (storeBytes s.pma (descAddr (rxDesc s epIdn)) data)
      (bufferDesc epIdn usbEpRxCountAddrIdx) (descSetCount (rxDesc s epIdn) data.length) }

/-- The bytes of a request on the bus. -/
def UsbControlRequest.bytes (r : UsbControlRequest) : List Byte :=
  [r.bmRequestType, r.bRequest, r.wValue.setWidth 8, (r.wValue >>> 8).setWidth 8,
    r.wIndex.setWidth 8, (r.wIndex >>> 8).setWidth 8, r.wLength.setWidth 8,
    (r.wLength >>> 8).setWidth 8]

/-- A SETUP packet is taken on a control endpoint that is not disabled, once the previous
packet has been handled and if it fits the programmed buffer. -/
def busSetupOk (s : Usb) : Bool :=
  !vtrx (s.chep 0) && epState (s.chep 0) 0 != .disabled && decide (8 ≤ descCapacity (rxDesc s 0))

def busSetup (s : Usb) (r : UsbControlRequest) : Usb :=
  if busSetupOk s then
    let s := rxDeposit s 0 r.bytes
    (s.setChep 0 (hwSetupPacket (s.chep 0))).log (.setupPacket r)
  else s

/-- An OUT packet is taken while the receiver is armed, if it fits the programmed buffer. -/
def busOutOk (s : Usb) (epIdn : ℕ) (data : List Byte) : Bool :=
  epState (s.chep epIdn) 0 == .valid && decide (data.length ≤ descCapacity (rxDesc s epIdn))

def busOut (s : Usb) (epIdn : ℕ) (data : List Byte) : Usb :=
  if busOutOk s epIdn data then
    let s := rxDeposit s epIdn data
    (s.setChep epIdn (hwRxPacket (s.chep epIdn))).log (.rxPacket epIdn data)
  else s

/-- The packet an armed transmitter sends. -/
def txPacketBytes (s : Usb) (epIdn : ℕ) : List Byte :=
  loadBytes s.pma (descAddr (txDesc s epIdn)) (descCount (txDesc s epIdn))

def busIn (s : Usb) (epIdn : ℕ) : Usb :=
  if epState (s.chep epIdn) 1 = .valid then
    (s.setChep epIdn (hwTxPacket (s.chep epIdn))).log (.txPacket epIdn (txPacketBytes s epIdn))
  else s

end PcbMill
