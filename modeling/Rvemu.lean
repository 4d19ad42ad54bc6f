import Rvemu.Bus.Bus
import Rvemu.Bus.Lemmas
import Rvemu.Bus.Dispatch
import Rvemu.Memory.WrittenBytes
import Rvemu.Memory.Mmu
import Rvemu.Memory.Walk
import Rvemu.Memory.TlbTransparency
import Rvemu.Memory.Translate
import Rvemu.Memory.Sv39
import Rvemu.Memory.Fence
import Rvemu.Memory.ReservedEntries
import Rvemu.Devices.PlicGateway
import Rvemu.Devices.QueueConfiguration
import Rvemu.Devices.AvailableRing
import Rvemu.Devices.BlockIntegrity
import Rvemu.Devices.DiskRange
import Rvemu.Devices.DescriptorChains
import Rvemu.Devices.UsedRing
import Rvemu.Devices.ResetIsolation
import Rvemu.Devices.StatusMachine
import Rvemu.Runtime.Console
import Rvemu.Runtime.FdtRoundTrip
import Rvemu.Runtime.Boot
import Rvemu.Runtime.EventLoop
import Rvemu.Runtime.Receiver
import Rvemu.Float.SquareRoot
import Rvemu.Vector.GroupLayout
import Rvemu.Float.RoundTrips
import Rvemu.Core.Cpu
import Rvemu.Core.Executed
import Rvemu.Core.ExecutedVector
import Rvemu.Core.Step
import Rvemu.Core.Precise
import Rvemu.Core.DirtyTracking
import Rvemu.Core.Run
import Rvemu.Core.Confinement
import Rvemu.Core.WellFormed
import Rvemu.Core.InterruptSelection
import Rvemu.Core.TrapReturn
import Rvemu.Core.AtomicDevices
import Rvemu.Core.Straddle
import Rvemu.Core.PendingOwnership
import Rvemu.Core.PlicArbitration
import Rvemu.Core.ClintTimer
import Rvemu.Core.DecoderStrictness
import Rvemu.Core.CompressedSemantics
import Rvemu.Core.CompressedEffects
import Rvemu.Core.FloatingDiscipline
import Rvemu.Core.VectorImmediate
import Rvemu.Core.OpVDecoding
import Rvemu.Core.VectorLength
import Rvemu.Core.PartialStore
import Rvemu.Core.TornStores
import Rvemu.Core.VectorRestart
import Rvemu.Core.Fetch
import Rvemu.Core.AmoSemantics
import Rvemu.Core.ReservationMonitor
import Rvemu.Core.VectorDivision
import Rvemu.Core.VectorFloatingElements
import Rvemu.Conformance.ElfLoading
import Rvemu.Devices.BlockCompletion
import Rvemu.Runtime.Runner
import Rvemu.Core.BusActivity
import Rvemu.Bus.InterruptLines
import Rvemu.Runtime.InterruptDelivery
import Rvemu.Core.Programs
import Rvemu.Runtime.WaitForInterrupt
import Rvemu.Runtime.ConsoleInput
import Rvemu.Runtime.Cli
import Rvemu.Runtime.InterruptViews
import Rvemu.Bus.DeviceHistory
import Rvemu.Runtime.Build
import Rvemu.Runtime.MachineTree
import Rvemu.Runtime.MachineHistory
import Rvemu.Core.Isolation
import Rvemu.Runtime.Main
import Rvemu.Conformance.ActRunner
import Rvemu.Runtime.Firmware
