import TrackerFpga.Lib.Clocked
import TrackerFpga.Lib.SerialRegister
import TrackerFpga.Lib.Interaction
import TrackerFpga.Lib.AxiLite
import TrackerFpga.Lib.WriteResponses
import TrackerFpga.Lib.RegisterFile
import TrackerFpga.Lib.SplitRead
import TrackerFpga.Lib.SpiWire
import TrackerFpga.Lib.PacketQueue
import TrackerFpga.Lib.ByteCodec
import TrackerFpga.Lib.Grouping
import TrackerFpga.Lib.InStep
import TrackerFpga.Lib.CString
import TrackerFpga.Lib.CNumber
import TrackerFpga.Lib.Answers
import TrackerFpga.Lib.Traces
import TrackerFpga.Lib.CommandLine
import TrackerFpga.Lib.Loops
import TrackerFpga.Vata.Components
import TrackerFpga.Vata.IfaceFsm
import TrackerFpga.Vata.Phase
import TrackerFpga.Vata.Packets
import TrackerFpga.Vata.Framing
import TrackerFpga.Vata.Numbering
import TrackerFpga.Vata.Progress
import TrackerFpga.Vata.Timeout
import TrackerFpga.Vata.AckTimeout
import TrackerFpga.Vata.DeadTime
import TrackerFpga.Vata.Asic
import TrackerFpga.Vata.ModeSwitch
import TrackerFpga.Vata.Config
import TrackerFpga.Vata.ForcedReadBack
import TrackerFpga.Vata.ConfigTime
import TrackerFpga.Vata.FastOr
import TrackerFpga.Vata.AxiInterface
import TrackerFpga.Vata.Commands
import TrackerFpga.Vata.Ctrl
import TrackerFpga.Vata.TriggerMask
import TrackerFpga.Vata.SetCheckConfig
import TrackerFpga.Vata.HoldDelay
import TrackerFpga.Vata.Readout
import TrackerFpga.Vata.RegIndx
import TrackerFpga.Vata.EventId
import TrackerFpga.Mapped.Bus
import TrackerFpga.Mapped.Script
import TrackerFpga.Mapped.Memory
import TrackerFpga.Sync.Distn
import TrackerFpga.Sync.Together
import TrackerFpga.Sync.Core
import TrackerFpga.Mapped.Counters
import TrackerFpga.Sync.CounterReset
import TrackerFpga.Sync.StayHigh
import TrackerFpga.Sync.FeeReady
import TrackerFpga.EventId.Link
import TrackerFpga.EventId.RoundTrip
import TrackerFpga.EventId.Gen
import TrackerFpga.EventId.Go
import TrackerFpga.EventId.DeadTimes
import TrackerFpga.EventId.Held
import TrackerFpga.Vata.Latency
import TrackerFpga.System.Breakout
import TrackerFpga.System.EventIds
import TrackerFpga.System.Disabled
import TrackerFpga.Dac.Fsm
import TrackerFpga.Dac.Frame
import TrackerFpga.Dac.Core
import TrackerFpga.Dac.Counts
import TrackerFpga.Dac.LastCounts
import TrackerFpga.Dac.Responses
import TrackerFpga.Cal.Fsm
import TrackerFpga.Cal.Train
import TrackerFpga.Cal.Pulses
import TrackerFpga.Cal.Settings
import TrackerFpga.Cal.Core
import TrackerFpga.Cal.NPulses
import TrackerFpga.Server.FifoReader
import TrackerFpga.Server.Polling
import TrackerFpga.Server.ReadFifo
import TrackerFpga.Server.DataPacket
import TrackerFpga.Server.OneId
import TrackerFpga.Server.DataEmitter
import TrackerFpga.Server.EventBuilder
import TrackerFpga.System.EndToEnd
import TrackerFpga.Server.Eviction
import TrackerFpga.Server.Calls
import TrackerFpga.Server.LayerServer
import TrackerFpga.Server.Dispatch
import TrackerFpga.Server.Requests
import TrackerFpga.Server.Handled
import TrackerFpga.Server.Devices
import TrackerFpga.Server.HoldDelay
import TrackerFpga.Server.NumberCommands
import TrackerFpga.Server.Numbers
import TrackerFpga.Server.Lockstep
import TrackerFpga.Server.NullTokens
import TrackerFpga.Server.Keywords
import TrackerFpga.Server.Grammar
import TrackerFpga.Server.Accepts
import TrackerFpga.Server.Effects
import TrackerFpga.Server.Instrument
import TrackerFpga.Server.Session
import TrackerFpga.Server.EmitterThread
import TrackerFpga.Server.Clients
import TrackerFpga.Tools.Lines
import TrackerFpga.Tools.Syncctrl
import TrackerFpga.Tools.Dacctrl
import TrackerFpga.Tools.Calctrl
import TrackerFpga.Tools.Clients
import TrackerFpga.System.Board
import TrackerFpga.System.TimeStamps
