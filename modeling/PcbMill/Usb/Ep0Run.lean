import PcbMill.Lib.Run
import PcbMill.Usb.SetConfiguration

/-!
# Runs of the control endpoint

The host sends SETUP and OUT packets and polls with IN tokens, the bus is reset, and the
interrupt handler runs, in any order.
-/

namespace PcbMill

/-- What can happen on EP0. -/
inductive Ep0Event where
  | reset
  | setup (r : UsbControlRequest)
  | out (data : List Byte)
  | poll
  | irq
  deriving DecidableEq, Repr

/-- EP0 transfers end in `usb_control_transfer`, so no callback of the application is called. -/
def noCallbacks : CdcCallbacks := { usbCdcRxCb := none, usbCdcTxCompleteCb := none }

def ep0Step (s : Usb) : Ep0Event → Usb
  | .reset => usbReset s
  | .setup r => busSetup s r
  | .out data => busOut s 0 data
  | .poll => busIn s 0
  | .irq => usbIrqCtr noCallbacks s 0

/-- The state after the first half of an iteration on EP0. -/
def afterIrqRx (s : Usb) : Usb := usbIrqRx noCallbacks s 0 (s.chep 0)

/-- The state after an iteration on EP0. -/
def afterIrqTx (s : Usb) : Usb := usbIrqTx noCallbacks (afterIrqRx s) 0 (s.chep 0)

/-- The SETUP packet in the packet memory, as `usb_ep_setup` reads it. -/
def pendingRequest (s : Usb) : UsbControlRequest :=
  usbControlRequestOfBytes
    (usbRxPmaRead s.pma (usbPmaEpAddrGet s 0 usbEpRxCountAddrIdx)
      (usbPmaCountGet s 0 usbEpRxCountAddrIdx))

end PcbMill
