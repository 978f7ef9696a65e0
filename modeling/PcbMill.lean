import PcbMill.Core.CircularBuffer
import PcbMill.Core.CircularFifo
import PcbMill.Core.CircularBufferSafety
import PcbMill.Core.UsartStream
import PcbMill.Core.UsartReceive
import PcbMill.Core.Tmc2209Wire
import PcbMill.Core.Tmc2209Detection
import PcbMill.Core.Tmc2209Drivers
import PcbMill.Core.GrblExtGconf
import PcbMill.Core.WaitLoops
import PcbMill.Core.MotionDrift
import PcbMill.Core.InterpolatedMove
import PcbMill.Core.AccelProfile
import PcbMill.Core.CoolingFan
import PcbMill.Core.PersistedConfig
import PcbMill.Core.Diagnostics
import PcbMill.Usb.PacketMemory
import PcbMill.Usb.PacketCopies
import PcbMill.Usb.BlockEncoding
import PcbMill.Usb.ControlStages
import PcbMill.Usb.ControlErrors
import PcbMill.Usb.DeviceState
import PcbMill.Usb.OutData
import PcbMill.Usb.InData
import PcbMill.Usb.Ep0Capacity
import PcbMill.Usb.Completions
import PcbMill.Usb.ConfigurationGrammar
import PcbMill.Usb.DescriptorReads
import PcbMill.Usb.WellFormedTable
import PcbMill.Usb.Allocation
import PcbMill.Usb.CdcStreams
import PcbMill.Usb.Reception
import PcbMill.Usb.AssignmentTable
import PcbMill.Usb.RegisterFrames
import PcbMill.Usb.Suspension
import PcbMill.Usb.RemoteWakeup
import PcbMill.Usb.StringDescriptors
import PcbMill.Usb.CdcWrite
import PcbMill.Usb.StatusDirection
import PcbMill.Usb.InTransfer
import PcbMill.GrblOriginal.Eeprom
import PcbMill.GrblOriginal.Serial
import PcbMill.GrblOriginal.Spindle
import PcbMill.GrblOriginal.StepperPosition
import PcbMill.GrblOriginal.Protocol
import PcbMill.GrblOriginal.GcodeWords
import PcbMill.GrblOriginal.GcodeRuns
import PcbMill.GrblOriginal.GcodeRelocation
