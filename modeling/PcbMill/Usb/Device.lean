import PcbMill.Usb.Cdc
import PcbMill.Usb.Configuration

/-!
# Control requests (`usb_device.c`, and the control half of `usb_cdc.c`)

Each handler returns the source's flag and the state after.
-/

namespace PcbMill

open FixedWidth

/-! ### Request codes -/

def usbStdGetStatus : Byte := 0x00#8
def usbStdClearFeature : Byte := 0x01#8
def usbStdSetFeature : Byte := 0x03#8
def usbStdSetAddress : Byte := 0x05#8
def usbStdGetDescriptor : Byte := 0x06#8
def usbStdGetConfiguration : Byte := 0x08#8
def usbStdSetConfiguration : Byte := 0x09#8
def usbStdGetInterface : Byte := 0x0A#8
def usbStdSetInterface : Byte := 0x0B#8

def cdcRequestSetLineCoding : Byte := 0x20#8
def cdcRequestGetLineCoding : Byte := 0x21#8
def cdcRequestSetControlLineState : Byte := 0x22#8
def cdcRequestSendBreak : Byte := 0x23#8

def usbFeatureEndpointHalt : BitVec 16 := 0#16
def usbFeatureRemoteWakeup : BitVec 16 := 1#16

/-- The types of GET_DESCRIPTOR. -/
def usbDescriptorTypeDevice : Byte := 0x01#8
def usbDescriptorTypeString : Byte := 0x03#8
def usbDescriptorTypeDeviceQualifier : Byte := 0x06#8

/-- `U16_HIGH`, `U16_LOW`. -/
def u16High (v : BitVec 16) : Byte := (v >>> 8).setWidth 8
def u16Low (v : BitVec 16) : Byte := v.setWidth 8

/-! ### Stages -/

namespace Usb

def setDevice (s : Usb) (d : UsbDevice) : Usb := { s with usbDevice := d }

def setControl (s : Usb) (c : ControlTransfer) : Usb := { s with controlTransfer := c }

end Usb

/-- `usb_control_set_complete_callback`. -/
def usbControlSetCompleteCallback (s : Usb) (cb : Option ControlCompleteCb) : Usb :=
  s.setControl { s.controlTransfer with controlCompleteCb := cb }

/-- `usb_control_status_stage`: opposite to the endpoint of the data phase. -/
def usbControlStatusStage (s : Usb) (request : UsbControlRequest) : Bool × Usb :=
  let epAddr := if usbRequestDirection request.bmRequestType ≠ 0 then usbDirDeviceInHostOut
    else usbDirDeviceOutHostIn
  usbEpQueueTransfer s epAddr .null 0

/-- `usb_control_data_stage`. -/
def usbControlDataStage (s : Usb) : Bool × Usb :=
  let len := feedForwardRemainingCount s.controlTransfer.feed usbEp0BufferSize
  let buffer : Ptr := if 0 < len then ⟨.ep0ControlBuffer, 0⟩ else .null
  if usbRequestDirection s.controlTransfer.request.bmRequestType = usbDirDeviceOutHostInIdx then
    if 0 < len then
      if usbEp0BufferSize < len then (false, s)
      else
        let s := s.store ⟨.ep0ControlBuffer, 0⟩ (s.load s.controlTransfer.feed.buffer len)
        usbEpQueueTransfer s usbDirDeviceOutHostIn buffer len
    else usbEpQueueTransfer s usbDirDeviceOutHostIn buffer len
  else usbEpQueueTransfer s usbDirDeviceInHostOut buffer len

/-- `usb_control_init_status_stage`. -/
def usbControlInitStatusStage (s : Usb) (request : UsbControlRequest) : Bool × Usb :=
  let s := s.setControl { s.controlTransfer with
    request := request, feed := { buffer := .null, fedCount := 0, totalCount := 0 } }
  usbControlStatusStage s request

/-- `usb_ep_initiate_control_response`. -/
def usbEpInitiateControlResponse (s : Usb) (request : UsbControlRequest) (buffer : Ptr)
    (len : ℕ) : Bool × Usb :=
  let s := s.setControl { s.controlTransfer with
    request := request
    feed := { buffer := buffer, fedCount := 0
              totalCount := if len < request.wLength.toNat then len else request.wLength.toNat } }
  if 0 < request.wLength.toNat then usbControlDataStage s
  else usbControlStatusStage s request

/-! ### Class requests -/

/-- `usb_cdc_control_transfer`.  The callbacks for the line coding and for the handshake only
print. -/
def usbCdcControlTransfer (s : Usb) (controlStage : ControlStage) (request : UsbControlRequest) :
    Bool × Usb :=
  if usbRequestType request.bmRequestType ≠ .classSpecific then (false, s)
  else if request.bRequest = cdcRequestSetLineCoding ∨ request.bRequest = cdcRequestGetLineCoding
  then
    if controlStage = .setup then
      (true, (usbEpInitiateControlResponse s request ⟨.lineCoding, 0⟩ 7).2)
    else (true, s)
  else if request.bRequest = cdcRequestSetControlLineState then
    if controlStage = .setup then (true, (usbControlInitStatusStage s request).2)
    else if controlStage = .status then
      (true, s.setCdc { s.usbCdc with flowControlState := u16Low request.wValue })
    else (true, s)
  else if request.bRequest = cdcRequestSendBreak then
    if controlStage = .setup then (true, (usbControlInitStatusStage s request).2)
    else (true, s)
  else (false, s)

/-- `usb_cdc_control_staging_init`. -/
def usbCdcControlStagingInit (s : Usb) (request : UsbControlRequest) : Bool × Usb :=
  usbCdcControlTransfer (usbControlSetCompleteCallback s (some .usbCdcControlTransfer)) .setup
    request

/-! ### Standard requests to the device -/

/-- `usb_device_set_address_complete`. -/
def usbDeviceSetAddressComplete (s : Usb) (controlStage : ControlStage) : Bool × Usb :=
  if controlStage = .status then
    let address := s.usbDevice.addressPending
    let s := s.setDevice { s.usbDevice with
      address := address, addressed := address != 0#8, addressPending := 0#8 }
    (true, usbDeviceSetAddrHal s address)
  else (true, s)

/-- `usb_device_set_address`. -/
def usbDeviceSetAddress (s : Usb) (request : UsbControlRequest) : Bool × Usb :=
  if usbRequestRecipient request.bmRequestType ≠ .device then (false, s)
  else
    let s := s.setDevice { s.usbDevice with addressPending := u16Low (request.wValue &&& 0x7F#16) }
    let s := usbControlSetCompleteCallback s (some .usbDeviceSetAddressComplete)
    let s := (usbControlInitStatusStage s request).2
    (true, (usbEpQueueTransferHal s 0 usbDirDeviceOutHostInIdx .null 0).2)

/-- The table of string descriptors; the first entry is not used as a string. -/
def stringDescriptorArr : List (List Byte) :=
  [[0x09#8, 0x04#8],
    "ST".toList.map fun c => BitVec.ofNat 8 c.toNat,
    "PCB Mill".toList.map fun c => BitVec.ofNat 8 c.toNat,
    "9876543210".toList.map fun c => BitVec.ofNat 8 c.toNat,
    "PCB Mill".toList.map fun c => BitVec.ofNat 8 c.toNat]

/-- `usb_descriptor_string`: the bytes put in `descriptor_str`, if there is such a string. -/
def usbDescriptorString (index : Byte) : Option (List Byte) :=
  if index = 0#8 then
    -- the first half-word is (2 << 8) | USB_DESCRIPTOR_TYPE_STRING
    some [0x03#8, 0x02#8, 0x09#8, 0x04#8]
  else if stringDescriptorArr.length ≤ index.toNat then none
  else
    let str := (stringDescriptorArr.getD index.toNat []).take 31
    some (BitVec.ofNat 8 (2 * str.length + 2) :: usbDescriptorTypeString ::
      str.flatMap fun c => [c, 0#8])

/-- `process_get_descriptor`. -/
def processGetDescriptor (s : Usb) (request : UsbControlRequest) : Bool × Usb :=
  let descriptorType := u16High request.wValue
  if descriptorType = usbDescriptorTypeDevice then
    usbEpInitiateControlResponse s request ⟨.descriptorDevice, 0⟩ 18
  else if descriptorType = usbDescriptorTypeConfiguration then
    usbEpInitiateControlResponse s request ⟨.usbConfigurationDescriptor, 0⟩ 75
  else if descriptorType = usbDescriptorTypeString then
    match usbDescriptorString (u16Low request.wValue) with
    | none => (false, s)
    | some bytes =>
      usbEpInitiateControlResponse (s.store ⟨.descriptorStr, 0⟩ bytes) request
        ⟨.descriptorStr, 0⟩ (bytes.getD 0 0#8).toNat
  else if descriptorType = usbDescriptorTypeDeviceQualifier then
    usbEpInitiateControlResponse s request ⟨.deviceQualifierDesc, 0⟩ 10
  else (false, s)

/-- `usb_configuration_reset`. -/
def usbConfigurationReset (s : Usb) : Usb :=
  (usbCdcReset s).setDevice
    { connected := false, addressed := false, remoteWakeup := false, selfPowered := false
      suspended := false, addressPending := 0#8, address := 0#8, configNum := 0#8 }

/-- The device as the walk over the configuration descriptor changes it. -/
def usbConfigDriver (m : DescriptorMemory) : ConfigDriver Usb where
  setPower s bmAttributes := s.setDevice { s.usbDevice with
    remoteWakeup := bmAttributes.getLsbD 5, selfPowered := bmAttributes.getLsbD 6
    suspended := false }
  visit s _ := s
  epOpenHal s d := usbEpOpenHal s (m.epDescriptor d)
  setEpAddrIn s a := s.setCdc { s.usbCdc with epAddrIn := a }
  setEpAddrOut s a := s.setCdc { s.usbCdc with epAddrOut := a }
  cdcReadEp s := (usbCdcReadEp s).2

/-- The configuration descriptor of the firmware, as memory. -/
def configurationMemory : DescriptorMemory := fun i => usbConfigurationDescriptor.getD i 0#8

/-- `usb_reset_configuration` on the firmware's own descriptor, for which eight steps are
enough. -/
def usbResetConfigurationDevice (s : Usb) : Bool × Usb :=
  (usbResetConfiguration (usbConfigDriver configurationMemory) configurationMemory 8 s).getD
    (false, s)

/-- `usb_set_configuration`.  The mounted and unmounted callbacks only print. -/
def usbSetConfiguration (s : Usb) (request : UsbControlRequest) : Bool × Usb :=
  let configNum := u16Low request.wValue
  if s.usbDevice.configNum ≠ configNum then
    let s := usbConfigurationReset (usbEpCloseAll s)
    let s := s.setDevice { s.usbDevice with configNum := configNum }
    if configNum ≠ 0#8 then
      match usbResetConfigurationDevice s with
      | (false, s) => (false, s.setDevice { s.usbDevice with configNum := 0#8 })
      | (true, s) => usbControlInitStatusStage s request
    else usbControlInitStatusStage s request
  else usbControlInitStatusStage s request

/-- `usb_process_device_control_request`. -/
def usbProcessDeviceControlRequest (s : Usb) (request : UsbControlRequest) : Bool × Usb :=
  if usbRequestType request.bmRequestType = .classSpecific then usbCdcControlStagingInit s request
  else if usbRequestType request.bmRequestType ≠ .standard then (false, s)
  else if request.bRequest = usbStdSetAddress then usbDeviceSetAddress s request
  else if request.bRequest = usbStdGetConfiguration then
    usbEpInitiateControlResponse (s.store ⟨.configNum, 0⟩ [u16Low request.wValue]) request
      ⟨.configNum, 0⟩ 1
  else if request.bRequest = usbStdSetConfiguration then usbSetConfiguration s request
  else if request.bRequest = usbStdGetDescriptor then processGetDescriptor s request
  else if request.bRequest = usbStdSetFeature then
    if request.wValue = usbFeatureRemoteWakeup then
      usbControlInitStatusStage (s.setDevice { s.usbDevice with remoteWakeup := true }) request
    else (false, s)
  else if request.bRequest = usbStdClearFeature then
    if request.wValue ≠ usbFeatureRemoteWakeup then (false, s)
    else usbControlInitStatusStage (s.setDevice { s.usbDevice with remoteWakeup := false }) request
  else if request.bRequest = usbStdGetStatus then
    let status := [if s.usbDevice.remoteWakeup then 0x03#8 else 0x01#8, 0x00#8]
    usbEpInitiateControlResponse (s.store ⟨.status, 0⟩ status) request ⟨.status, 0⟩ 2
  else (false, s)

/-- `usb_process_interface_control_request`. -/
def usbProcessInterfaceControlRequest (s : Usb) (request : UsbControlRequest) : Bool × Usb :=
  match usbCdcControlStagingInit s request with
  | (true, s) => (true, s)
  | (false, s) =>
    if usbRequestType request.bmRequestType ≠ .standard then (false, s)
    else if request.bRequest = usbStdGetInterface then
      let s := usbControlSetCompleteCallback s none
      (true, (usbEpInitiateControlResponse (s.store ⟨.alternate, 0⟩ [0#8]) request
        ⟨.alternate, 0⟩ 1).2)
    else if request.bRequest = usbStdSetInterface then
      (true, (usbControlInitStatusStage (usbControlSetCompleteCallback s none) request).2)
    else (false, s)

/-- `usb_process_endpoint_control_request`. -/
def usbProcessEndpointControlRequest (s : Usb) (request : UsbControlRequest) : Bool × Usb :=
  let epAddr := u16Low (request.wIndex &&& 0xFF#16)
  if usbRequestType request.bmRequestType ≠ .standard then usbCdcControlStagingInit s request
  else if request.bRequest = usbStdClearFeature ∨ request.bRequest = usbStdSetFeature then
    let s := if request.wValue = usbFeatureEndpointHalt then
        if request.bRequest = usbStdClearFeature then
          usbEpStallClearHal s (usbEpIdn epAddr) (usbEpDirIdx epAddr)
        else usbEpStallSetHal s (usbEpIdn epAddr) (usbEpDirIdx epAddr)
      else s
    let s := (usbCdcControlStagingInit s request).2
    (true, usbControlSetCompleteCallback s none)
  else (false, s)

/-- `usb_process_control_request`. -/
def usbProcessControlRequest (s : Usb) (request : UsbControlRequest) : Bool × Usb :=
  let s := usbControlSetCompleteCallback s none
  let s := s.setDevice { s.usbDevice with connected := true }
  if usbRequestType request.bmRequestType = .reserved then (false, s)
  else if usbRequestType request.bmRequestType = .vendor then
    (false, usbControlSetCompleteCallback s none)
  else match usbRequestRecipient request.bmRequestType with
    | .device => usbProcessDeviceControlRequest s request
    | .interface => usbProcessInterfaceControlRequest s request
    | .endpoint => usbProcessEndpointControlRequest s request
    | .other => (false, s)

/-! ### Completions -/

/-- The call through `control_complete_cb`. -/
def controlCompleteCb (s : Usb) (cb : ControlCompleteCb) (controlStage : ControlStage) :
    Bool × Usb :=
  let request := s.controlTransfer.request
  let s := s.log (.callback cb controlStage request)
  match cb with
  | .usbDeviceSetAddressComplete => usbDeviceSetAddressComplete s controlStage
  | .usbCdcControlTransfer => usbCdcControlTransfer s controlStage request

/-- The callback at the end of a data stage: whether it accepts. -/
def usbControlDataCallback (s : Usb) : Bool × Usb :=
  match s.controlTransfer.controlCompleteCb with
  | some cb => controlCompleteCb s cb .data
  | none => (true, s)

/-- The end of a data stage in `usb_control_transfer`. -/
def usbControlDataComplete (s : Usb) : Bool × Usb :=
  let (dataStageCompleteOk, s) := usbControlDataCallback s
  if dataStageCompleteOk then usbControlStatusStage s s.controlTransfer.request
  else
    let s := usbEpStallSetHal s 0 usbDirDeviceInHostOutIdx
    (true, usbEpStallSetHal s 0 usbDirDeviceOutHostInIdx)

/-- The update of the feed in `usb_control_transfer`, which for a host-to-device request also
copies the received bytes to the feed buffer. -/
def usbControlDataReceived (s : Usb) (transferredBytes : ℕ) : Usb :=
  let feed := s.controlTransfer.feed
  let s := if usbRequestDirection s.controlTransfer.request.bmRequestType = usbDirDeviceInHostOutIdx
    then (s.store feed.buffer (s.load ⟨.ep0ControlBuffer, 0⟩ transferredBytes)).log
      (.controlStored s.controlTransfer.request feed.buffer transferredBytes)
    else s
  s.setControl { s.controlTransfer with
    feed := { feed with fedCount := add16 feed.fedCount (u16 transferredBytes)
                        buffer := feed.buffer.add transferredBytes } }

/-- `usb_control_transfer`. -/
def usbControlTransfer (s : Usb) (epAddr : Byte) (transferredBytes : ℕ) : Bool × Usb :=
  let request := s.controlTransfer.request
  if usbRequestDirection request.bmRequestType ≠ usbEpDirIdx epAddr then
    if transferredBytes ≠ 0 then (false, s)
    else match s.controlTransfer.controlCompleteCb with
      | some cb => controlCompleteCb s cb .status
      | none => (true, s)
  else
    let s := s.log (.dataStage request transferredBytes)
    if usbRequestDirection request.bmRequestType = usbDirDeviceInHostOutIdx ∧
        s.controlTransfer.feed.buffer = .null then (false, s)
    else
      let s := usbControlDataReceived s transferredBytes
      if request.wLength.toNat = s.controlTransfer.feed.fedCount ∨
          transferredBytes < usbEp0BufferSize then
        usbControlDataComplete s
      else usbControlDataStage s

/-! ### Reset and initialisation -/

/-- `usb_reset`. -/
def usbReset (s : Usb) : Usb :=
  (usbConfigurationReset (usbInitEnableHal s)).setControl
    { feed := { buffer := .null, totalCount := 0, fedCount := 0 }
      request := { bmRequestType := 0#8, bRequest := 0#8, wValue := 0#16, wIndex := 0#16
                   wLength := 0#16 }
      controlCompleteCb := none }

/-- `usb_device_init`. -/
def usbDeviceInit (s : Usb) : Usb :=
  let s := s.setDevice
    { connected := false, addressed := false, remoteWakeup := false, selfPowered := false
      suspended := false, addressPending := 0#8, address := 0#8, configNum := 0#8 }
  usbDeviceStartHal (usbCdcInit s)

/-- The state at power-on: registers, packet memory and static variables are zero. -/
def usbPowerOn : Usb where
  chep _ := 0#32
  pma _ := 0#32
  daddr := 0#8
  epTransferSet _ _ := { feed := { buffer := .null, totalCount := 0, fedCount := 0 }
                         maxPacketSize := 0, epIdn := 0 }
  epAssignment _ := { epIdn := 0, epType := 0, assigned := fun _ => false }
  usbPmaNextAvailable := 0
  usbDevice := { connected := false, addressed := false, remoteWakeup := false
                 selfPowered := true, suspended := false, addressPending := 0#8, address := 0#8
                 configNum := 0#8 }
  controlTransfer := { feed := { buffer := .null, totalCount := 0, fedCount := 0 }
                       request := { bmRequestType := 0#8, bRequest := 0#8, wValue := 0#16
                                    wIndex := 0#16, wLength := 0#16 }
                       controlCompleteCb := none }
  usbCdc := { epAddrIn := 0#8, epAddrOut := 0#8, flowControlState := 0#8
              rxBuffer := circularBufferInit (fun _ => 0#8) 0
              txBuffer := circularBufferInit (fun _ => 0#8) 0 }
  ram _ _ := 0#8
  trace := []

/-- The device after `usb_device_init` and the host's bus reset. -/
def usbBoot : Usb := usbReset (usbDeviceInit usbPowerOn)

end PcbMill
