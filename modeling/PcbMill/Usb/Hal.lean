import PcbMill.Lib.WordMemory
import PcbMill.Usb.State

/-!
# The hardware layer (`usb_hal.c`)

Endpoint assignment, packet memory and transfers.  A buffer descriptor is word
`2 * endpoint + buffer` of the packet memory, buffer 0 for transmission and 1 for reception.
-/

namespace PcbMill

open FixedWidth WordMemory

/-- `UNASSIGNED_VALUE`, `USB_EP_MAX`. -/
def unassignedValue : ℕ := 0xFF
def usbEpMax : ℕ := 8

/-- `USB_EP0_BUFFER_SIZE`, `USB_CDC_EP_BUFFER_SIZE`. -/
def usbEp0BufferSize : ℕ := 64
def usbCdcEpBufferSize : ℕ := 64

/-- The direction indices. -/
def usbDirDeviceInHostOutIdx : ℕ := 0
def usbDirDeviceOutHostInIdx : ℕ := 1

/-- The endpoint types. -/
def usbEpTypeControl : ℕ := 0
def usbEpTypeBulk : ℕ := 2
def usbEpTypeInterrupt : ℕ := 3

def usbEpTxCountAddrIdx : ℕ := 0
def usbEpRxCountAddrIdx : ℕ := 1

/-- `USB_DADDR_EF`. -/
def usbDaddrEf : Byte := 0x80#8

/-! ### Assignment -/

def EpAssignment.reset : EpAssignment :=
  { epIdn := unassignedValue, epType := unassignedValue, assigned := fun _ => false }

/-- `ep_reset_assigned_state`. -/
def epResetAssignedState (s : Usb) (epIdn : ℕ) : Usb := s.setAssignment epIdn .reset

/-- `usb_ep_reset`. -/
def usbEpReset (s : Usb) : Usb :=
  { (List.range usbEpMax).foldl epResetAssignedState s with usbPmaNextAvailable := 8 * usbEpMax }

/-- The slot already serves the endpoint. -/
def EpAssignment.serves (a : EpAssignment) (epIdn dirIdx epType : ℕ) : Bool :=
  a.assigned dirIdx && a.epType == epType && a.epIdn == epIdn

/-- The slot can take the endpoint. -/
def EpAssignment.accepts (a : EpAssignment) (epIdn dirIdx epType : ℕ) : Bool :=
  !a.assigned dirIdx && (a.epIdn == unassignedValue || a.epIdn == epIdn) &&
    (a.epType == unassignedValue || a.epType == epType)

/-- `usb_ep_assign`: the first slot that serves the endpoint or can take it. -/
def usbEpAssign (s : Usb) (epAddr : Byte) (epType : ℕ) : ℕ × Usb :=
  let epIdn := usbEpIdn epAddr
  let dirIdx := usbEpDirIdx epAddr
  match (List.range usbEpMax).find? fun idn => (s.epAssignment idn).serves epIdn dirIdx epType ||
      (s.epAssignment idn).accepts epIdn dirIdx epType with
  | none => (unassignedValue, s)
  | some idn =>
    if (s.epAssignment idn).serves epIdn dirIdx epType then (idn, s)
    else (idn, s.setAssignment idn
      { epIdn := epIdn, epType := epType
        assigned := Function.update (s.epAssignment idn).assigned dirIdx true })

/-! ### Buffer descriptors -/

def bufferDesc (epIdn bufId : ℕ) : ℕ := 2 * epIdn + bufId

/-- `COUNT` and `ADDR` of a descriptor word. -/
def descCount (w : Word) : ℕ := ((w >>> 16) &&& 0x3FF#32).toNat
def descAddr (w : Word) : ℕ := (w &&& 0xFFFF#32).toNat

def descSetCount (w : Word) (byteCount : ℕ) : Word :=
  (w &&& ~~~0x03FF0000#32) ||| ((BitVec.ofNat 32 byteCount &&& 0x3FF#32) <<< 16)

def descSetAddr (w : Word) (addr : ℕ) : Word :=
  (w &&& 0xFFFF0000#32) ||| (BitVec.ofNat 32 addr &&& 0xFFFC#32)

/-- `usb_ep_calc_rx_buffer_block_size`: BLSIZE and NUM_BLOCK. -/
def usbEpCalcRxBufferBlockSize (bufferSize : ℕ) : ℕ × ℕ :=
  let blockSizeLog2 := if 62 < bufferSize then 5 else 1
  let blsize := if 62 < bufferSize then 1 else 0
  let blockCount := ((bufferSize + (2 ^ blockSizeLog2 - 1)) >>> blockSizeLog2) % 2 ^ 8
  (blsize, sub32 blockCount blsize)

def descSetBlocks (w : Word) (bufferSize : ℕ) : Word :=
  let (blsize, numBlock) := usbEpCalcRxBufferBlockSize bufferSize
  (BitVec.ofNat 32 blsize <<< 31 ||| BitVec.ofNat 32 numBlock <<< 26) ||| (w &&& 0xFFFF#32)

/-- The bytes the hardware lets a packet fill, from BLSIZE and NUM_BLOCK. -/
def descCapacity (w : Word) : ℕ :=
  let numBlock := ((w >>> 26) &&& 0x1F#32).toNat
  if w.getLsbD 31 then 32 * (numBlock + 1) else 2 * numBlock

def usbPmaCountGet (s : Usb) (epIdn bufId : ℕ) : ℕ := descCount (s.pma (bufferDesc epIdn bufId))

def usbPmaCountSet (s : Usb) (epIdn bufId byteCount : ℕ) : Usb :=
  s.setPma (bufferDesc epIdn bufId) (descSetCount (s.pma (bufferDesc epIdn bufId)) byteCount)

/-- `usb_pma_next_addr`. -/
def usbPmaNextAddr (s : Usb) (size : ℕ) : ℕ × Usb :=
  (s.usbPmaNextAvailable, { s with usbPmaNextAvailable := add16 s.usbPmaNextAvailable size })

def usbPmaEpAddrGet (s : Usb) (epIdn bufId : ℕ) : ℕ := descAddr (s.pma (bufferDesc epIdn bufId))

def usbPmaEpAddrSet (s : Usb) (epIdn bufId addr : ℕ) : Usb :=
  s.setPma (bufferDesc epIdn bufId) (descSetAddr (s.pma (bufferDesc epIdn bufId)) addr)

/-- `usb_ep_set_rx_buffer_block_size`. -/
def usbEpSetRxBufferBlockSize (s : Usb) (epIdn bufferSize : ℕ) : Usb :=
  s.setPma (bufferDesc epIdn usbEpRxCountAddrIdx)
    (descSetBlocks (s.pma (bufferDesc epIdn usbEpRxCountAddrIdx)) (bufferSize % 2 ^ 16))

/-! ### The packet memory as bytes -/

/-- `unaligned_write_32`: the bytes stored, lowest first. -/
def unalignedWrite32 (value : Word) : List Byte :=
  [value.setWidth 8, (value >>> 8).setWidth 8, (value >>> 16).setWidth 8,
    (value >>> 24).setWidth 8]

/-- `unaligned_read_32` of the bytes from a pointer on. -/
def unalignedRead32 (p : List Byte) : Word :=
  (p.getD 0 0#8).setWidth 32 ||| (p.getD 1 0#8).setWidth 32 <<< 8 |||
    (p.getD 2 0#8).setWidth 32 <<< 16 ||| (p.getD 3 0#8).setWidth 32 <<< 24

/-- The loop of `usb_rx_pma_read` over the odd bytes. -/
def oddBytes : ℕ → Word → List Byte
  | 0, _ => []
  | odd + 1, temp => (temp &&& 0xFF#32).setWidth 8 :: oddBytes odd (temp >>> 8)

/-- `usb_rx_pma_read`: the bytes put at the destination. -/
def usbRxPmaRead (pma : ℕ → Word) (src byteCount : ℕ) : List Byte :=
  let readCount := byteCount / 4
  ((List.range readCount).flatMap fun i => unalignedWrite32 (pma (src / 4 + i))) ++
    oddBytes (byteCount % 4) (pma (src / 4 + readCount))

/-- The loop of `usb_write_unaligned_data` over the whole words. -/
def writeWords (pma : ℕ → Word) (dst : ℕ) (src : List Byte) : ℕ → ℕ → Word
  | 0 => pma
  | n + 1 => Function.update (writeWords pma dst src n) (dst / 4 + n)
      (unalignedRead32 (src.drop (4 * n)))

/-- The loop of `usb_write_unaligned_data` over the odd bytes. -/
def oddWord (src : List Byte) : ℕ → Word
  | 0 => 0#32
  | n + 1 => oddWord src n ||| (src.getD n 0#8).setWidth 32 <<< (n * 8)

/-- `usb_write_unaligned_data`. -/
def usbWriteUnalignedData (pma : ℕ → Word) (dst : ℕ) (src : List Byte) : ℕ → Word :=
  let writeCount := src.length / 4
  let odd := src.length % 4
  let pma' := writeWords pma dst src writeCount
  if odd = 0 then pma'
  else Function.update pma' (dst / 4 + writeCount) (oddWord (src.drop (4 * writeCount)) odd)

/-! ### Endpoint registers -/

/-- `usb_ep_clear_correct_transfer`. -/
def usbEpClearCorrectTransfer (s : Usb) (epIdn dirIdx : ℕ) : Usb :=
  s.setChep epIdn
    (regSet (s.chep epIdn) (clearCorrectTransferValue (s.chep epIdn) dirIdx))

/-- `usb_ep_stall_set_hal`. -/
def usbEpStallSetHal (s : Usb) (epIdn dirIdx : ℕ) : Usb :=
  s.setChep epIdn (regSetPreserve (s.chep epIdn) (stallSetValue (s.chep epIdn) dirIdx))

/-- `usb_ep_stall_clear_hal`. -/
def usbEpStallClearHal (s : Usb) (epIdn dirIdx : ℕ) : Usb :=
  s.setChep epIdn (regSetPreserve (s.chep epIdn) (stallClearValue (s.chep epIdn) dirIdx))

/-! ### Transfers -/

/-- `usb_tx_packet`, on the transmission record of slot `idn`. -/
def usbTxPacket (s : Usb) (idn : ℕ) : Usb :=
  let t := s.epTransferSet idn usbDirDeviceOutHostInIdx
  let len := feedForwardRemainingCount t.feed t.maxPacketSize
  let addr := usbPmaEpAddrGet s t.epIdn usbEpTxCountAddrIdx
  let data := s.load (t.feed.buffer.add t.feed.fedCount) len
  let s := { s with pma := usbWriteUnalignedData s.pma addr data }
  let s := s.setTransfer idn usbDirDeviceOutHostInIdx
    { t with feed := { t.feed with fedCount := add16 t.feed.fedCount len } }
  let s := usbPmaCountSet s t.epIdn usbEpTxCountAddrIdx len
  s.setChep t.epIdn (regSetPreserve (s.chep t.epIdn) (txValidValue (s.chep t.epIdn)))

/-- `usb_ep_queue_transfer_hal`; it always succeeds. -/
def usbEpQueueTransferHal (s : Usb) (epIdn dirIdx : ℕ) (buffer : Ptr) (totalBytes : ℕ) :
    Bool × Usb :=
  let s := s.log (.queued epIdn dirIdx totalBytes)
  let s := s.setTransfer epIdn dirIdx { s.epTransferSet epIdn dirIdx with
    feed := { buffer := buffer, totalCount := totalBytes, fedCount := 0 } }
  if dirIdx = usbDirDeviceOutHostInIdx then (true, usbTxPacket s epIdn)
  else
    let epReg := s.chep epIdn
    let s := usbEpSetRxBufferBlockSize s epIdn totalBytes
    (true, s.setChep epIdn (regSetPreserve (s.chep epIdn) (rxValidValue epReg dirIdx)))

/-- `usb_ep_queue_transfer`. -/
def usbEpQueueTransfer (s : Usb) (epAddr : Byte) (buffer : Ptr) (totalBytes : ℕ) : Bool × Usb :=
  usbEpQueueTransferHal s (usbEpIdn epAddr) (usbEpDirIdx epAddr) buffer totalBytes

/-! ### Initialisation, address, opening and closing -/

/-- `usb_ep_control_init`. -/
def usbEpControlInit (s : Usb) : Usb :=
  let s := (usbEpAssign s usbDirDeviceInHostOut usbEpTypeControl).2
  let s := (usbEpAssign s usbDirDeviceOutHostIn usbEpTypeControl).2
  let s := s.setTransfer 0 usbDirDeviceInHostOutIdx
    { s.epTransferSet 0 usbDirDeviceInHostOutIdx with maxPacketSize := usbEp0BufferSize, epIdn := 0 }
  let s := s.setTransfer 0 usbDirDeviceOutHostInIdx
    { s.epTransferSet 0 usbDirDeviceOutHostInIdx with maxPacketSize := usbEp0BufferSize, epIdn := 0 }
  let (pmaTxAddr, s) := usbPmaNextAddr s usbEp0BufferSize
  let (pmaRxAddr, s) := usbPmaNextAddr s usbEp0BufferSize
  let s := usbPmaEpAddrSet s 0 usbEpTxCountAddrIdx pmaTxAddr
  let s := usbPmaEpAddrSet s 0 usbEpRxCountAddrIdx pmaRxAddr
  let epReg := controlInitValue (s.chep 0)
  let s := usbEpSetRxBufferBlockSize s 0 8
  s.setChep 0 (regSet (s.chep 0) epReg)

/-- `usb_init_enable_hal`. -/
def usbInitEnableHal (s : Usb) : Usb :=
  let s := usbEpReset { s with daddr := 0#8 }
  { usbEpControlInit s with daddr := usbDaddrEf }

/-- `usb_device_start_hal`: what it does to the endpoint registers and the address. -/
def usbDeviceStartHal (s : Usb) : Usb :=
  usbInitEnableHal
    ((List.range usbEpMax).foldl (fun s i => s.setChep i (regSet (s.chep i) 0#32)) s)

/-- `usb_device_set_addr_hal`. -/
def usbDeviceSetAddrHal (s : Usb) (deviceAddr : Byte) : Usb :=
  usbEpSetRxBufferBlockSize { s with daddr := usbDaddrEf ||| deviceAddr } 0 8

/-- The fields of `usb_ep_descriptor_t` that opening an endpoint reads. -/
structure EpDescriptor where
  bEndpointAddress : Byte
  type : ℕ
  wMaxPacketSize : ℕ
  deriving DecidableEq, Repr

/-- The type bits `usb_ep_open_hal` puts in the register; other types are not supported. -/
def usbEpOpenType (type : ℕ) : Option Word :=
  if type = usbEpTypeBulk then some usbEpBulk
  else if type = usbEpTypeInterrupt then some usbEpInterrupt
  else none

/-- `usb_ep_open_hal`. -/
def usbEpOpenHal (s : Usb) (d : EpDescriptor) : Bool × Usb :=
  let dirIdx := usbEpDirIdx d.bEndpointAddress
  let packetSize := d.wMaxPacketSize &&& 0x7FF
  let (epIdn, s) := usbEpAssign s d.bEndpointAddress d.type
  if epIdn = unassignedValue then (false, s)
  else match usbEpOpenType d.type with
    | none => (false, s)
    | some typeBits =>
      let epReg := epOpenValue (s.chep epIdn) (BitVec.ofNat 32 (usbEpIdn d.bEndpointAddress))
        typeBits dirIdx
      let (pmaAddr, s) := usbPmaNextAddr s packetSize
      let s := usbPmaEpAddrSet s epIdn
        (if dirIdx = usbDirDeviceOutHostInIdx then usbEpTxCountAddrIdx else usbEpRxCountAddrIdx)
        pmaAddr
      let s := s.setTransfer epIdn dirIdx
        { s.epTransferSet epIdn dirIdx with maxPacketSize := packetSize, epIdn := epIdn }
      (true, s.setChep epIdn (regSetPreserve (s.chep epIdn) epReg))

/-- `usb_ep_close_all`. -/
def usbEpCloseAll (s : Usb) : Usb :=
  { (List.range' 1 (usbEpMax - 1)).foldl
      (fun s i => epResetAssignedState (s.setChep i (regSet (s.chep i) 0#32)) i) s with
    usbPmaNextAvailable := 8 * usbEpMax + 2 * usbEp0BufferSize }

end PcbMill
