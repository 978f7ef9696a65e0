import PcbMill.Usb.Hal

/-!
# The CDC data path (`usb_cdc.c`)

Reading and writing through the two ring buffers, and the completion of bulk transfers.  The
application's callbacks are arbitrary functions on the state.
-/

namespace PcbMill

open FixedWidth

/-- The callbacks an application may define (they are weak symbols). -/
structure CdcCallbacks where
  usbCdcRxCb : Option (Usb → Usb)
  usbCdcTxCompleteCb : Option (Usb → Usb)

def Usb.setCdc (s : Usb) (c : UsbCdc) : Usb := { s with usbCdc := c }

/-- `usb_configured`. -/
def usbConfigured (s : Usb) : Bool := s.usbDevice.configNum != 0#8

/-- `usb_cdc_read_ep`. -/
def usbCdcReadEp (s : Usb) : Bool × Usb :=
  if !(usbConfigured s && s.usbCdc.epAddrOut != 0#8) then (false, s)
  else
    let availableSpace := u16 (circularBufferSpace s.usbCdc.rxBuffer)
    if usbCdcEpBufferSize ≤ availableSpace then
      usbEpQueueTransfer s s.usbCdc.epAddrOut ⟨.epOutBuffer, 0⟩ usbCdcEpBufferSize
    else (false, s)

/-- `usb_cdc_write_ep`: the number of bytes queued. -/
def usbCdcWriteEp (s : Usb) : ℕ × Usb :=
  if !(usbConfigured s && s.usbCdc.epAddrIn != 0#8) then (0, s)
  else if circularBufferCount s.usbCdc.txBuffer = 0 then (0, s)
  else
    let (bytes, txBuffer) := circularBufferRead s.usbCdc.txBuffer usbCdcEpBufferSize
    let s := (s.setCdc { s.usbCdc with txBuffer := txBuffer }).store ⟨.epInBuffer, 0⟩ bytes
    let count := u16 bytes.length
    if 0 < count then
      let (queued, s) := usbEpQueueTransfer s s.usbCdc.epAddrIn ⟨.epInBuffer, 0⟩ count
      (if queued then count else 0, s)
    else (0, s)

/-- `usb_cdc_read`: the bytes put in the caller's buffer. -/
def usbCdcRead (s : Usb) (bufsize : ℕ) : List Byte × Usb :=
  let s := (usbCdcReadEp s).2
  let (bytes, rxBuffer) := circularBufferRead s.usbCdc.rxBuffer bufsize
  (bytes, (s.setCdc { s.usbCdc with rxBuffer := rxBuffer }).log (.cdcRead bytes))

/-- `usb_cdc_write`: its return value, which is the truth value of `circular_buffer_write`.
The bytes recorded are the ones the ring took. -/
def usbCdcWrite (s : Usb) (buffer : List Byte) : ℕ × Usb :=
  let (written, txBuffer) := circularBufferWrite s.usbCdc.txBuffer buffer
  let accepted := buffer.take (circularBufferWriteLen s.usbCdc.txBuffer buffer.length)
  let s := (s.setCdc { s.usbCdc with txBuffer := txBuffer }).log (.cdcWrite accepted)
  (if written then 1 else 0, (usbCdcWriteEp s).2)

/-- The OUT half of `usb_ep_buffer_transfer`. -/
def usbEpBufferTransferOut (cbs : CdcCallbacks) (s : Usb) (transferredBytes : ℕ) : Usb :=
  let bytes := s.load ⟨.epOutBuffer, 0⟩ transferredBytes
  let s := s.setCdc { s.usbCdc with rxBuffer := (circularBufferWrite s.usbCdc.rxBuffer bytes).2 }
  let s := match cbs.usbCdcRxCb with
    | some rxCb => if 0 < circularBufferCount s.usbCdc.rxBuffer then rxCb s else s
    | none => s
  (usbCdcReadEp s).2

/-- The IN half of `usb_ep_buffer_transfer`. -/
def usbEpBufferTransferIn (cbs : CdcCallbacks) (s : Usb) (transferredBytes : ℕ) : Usb :=
  let s := match cbs.usbCdcTxCompleteCb with
    | some txCompleteCb => txCompleteCb s
    | none => s
  let (count, s) := usbCdcWriteEp s
  if count = 0 ∧ circularBufferCount s.usbCdc.txBuffer = 0 then
    -- a transfer that ends in a full packet is terminated by an empty one
    if transferredBytes ≠ 0 ∧ transferredBytes &&& (usbCdcEpBufferSize - 1) = 0 then
      (usbEpQueueTransfer s s.usbCdc.epAddrIn .null 0).2
    else s
  else s

/-- `usb_ep_buffer_transfer`. -/
def usbEpBufferTransfer (cbs : CdcCallbacks) (s : Usb) (epAddr : Byte) (transferredBytes : ℕ) :
    Usb :=
  let s := if epAddr = s.usbCdc.epAddrOut then usbEpBufferTransferOut cbs s transferredBytes else s
  if epAddr = s.usbCdc.epAddrIn then usbEpBufferTransferIn cbs s transferredBytes else s

/-! ### Initialisation -/

/-- `usb_cdc_init`. -/
def usbCdcInit (s : Usb) : Usb :=
  let s := s.setCdc
    { epAddrIn := 0#8, epAddrOut := 0#8, flowControlState := 0#8
      rxBuffer := circularBufferInit (fun _ => 0#8) usbCdcEpBufferSize
      txBuffer := circularBufferInit (fun _ => 0#8) usbCdcEpBufferSize }
  -- 115200 baud, one stop bit, no parity, eight data bits
  s.store ⟨.lineCoding, 0⟩ [0x00#8, 0xC2#8, 0x01#8, 0x00#8, 0#8, 0#8, 8#8]

/-- `usb_cdc_reset`. -/
def usbCdcReset (s : Usb) : Usb :=
  s.setCdc { s.usbCdc with
    rxBuffer := circularBufferReset s.usbCdc.rxBuffer
    txBuffer := circularBufferReset s.usbCdc.txBuffer }

end PcbMill
