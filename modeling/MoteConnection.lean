import MoteConnection.Library.LabeledRuns
import MoteConnection.Library.StreamTransducer
import MoteConnection.Library.CyclicRemainder
import MoteConnection.Library.CyclicOrder
import MoteConnection.Library.FlagStuffing
import MoteConnection.Library.SequenceNumbers
import MoteConnection.Library.SegmentedInput
import MoteConnection.Library.LengthPrefix
import MoteConnection.Library.QueueHistory
import MoteConnection.Library.FanOut
import MoteConnection.Library.Cooldowns
import MoteConnection.Library.ClockedRuns
import MoteConnection.Library.BoundedRuns
import MoteConnection.Library.Patterns
import MoteConnection.Library.TextFields
import MoteConnection.Runtime
import MoteConnection.SerialChecksum
import MoteConnection.SerialPackets
import MoteConnection.SerialPacketCorruption
import MoteConnection.SerialErrorDistance
import MoteConnection.HdlcFraming
import MoteConnection.SerialReceiving
import MoteConnection.SerialLineNoise
import MoteConnection.SerialDuplicates
import MoteConnection.SerialSending
import MoteConnection.SerialRetransmission
import MoteConnection.SerialResendTiming
import MoteConnection.SerialAcknowledgement
import MoteConnection.SerialEndpoint
import MoteConnection.SerialLink
import MoteConnection.SerialEcho
import MoteConnection.SerialTraffic
import MoteConnection.SerialDelivery
import MoteConnection.SerialLossyDelivery
import MoteConnection.SerialTransport
import MoteConnection.SerialPortFailure
import MoteConnection.SerialSessions
import MoteConnection.ConnectionStrings
import MoteConnection.ConnectionEvents
import MoteConnection.ForwarderTransport
import MoteConnection.ForwarderStream
import MoteConnection.ForwarderSessions
import MoteConnection.TransportEvents
import MoteConnection.DisconnectedData
import MoteConnection.ActiveMessages
import MoteConnection.MessageText
import MoteConnection.ActiveMessageRouting
import MoteConnection.ConnectionWorkers
import MoteConnection.ConnectionValidation
import MoteConnection.ConnectionSetup
import MoteConnection.UpwardPackets
import MoteConnection.ActiveMessageForwarding
import MoteConnection.ConnectionThreads
import MoteConnection.Multiplexing
import MoteConnection.ConnectionDelivery
import MoteConnection.AmListener
import MoteConnection.SerialStack
import MoteConnection.ForwarderStack
import MoteConnection.DroppedConsumer
import MoteConnection.ConnectionShutdown
import MoteConnection.ShutdownHazards
import MoteConnection.ConnectionStop
import MoteConnection.StopAnswer
