import IcWsGateway.Lib.Run
import IcWsGateway.System
import IcWsGateway.Handlers
import IcWsGateway.Lib.Registry
import IcWsGateway.Refinement
import IcWsGateway.Lifecycle
import IcWsGateway.Registrations
import IcWsGateway.Attendance
import IcWsGateway.FreshPoller
import IcWsGateway.ClientMessages
import IcWsGateway.Channels
import IcWsGateway.PollerFailure
import IcWsGateway.CanisterLog
import IcWsGateway.Delivery
import IcWsGateway.Connecting
import IcWsGateway.Deadlock
import IcWsGateway.Closing
import IcWsGateway.SlowClients
import IcWsGateway.BeforeSetup
import IcWsGateway.Nonces
import IcWsGateway.MessageKey
import IcWsGateway.WsListener
import IcWsGateway.PollTiming
import IcWsGateway.ControlFrames
import IcWsGateway.Rosters
import IcWsGateway.FailedSetup
import IcWsGateway.ConnectionTimes
import IcWsGateway.CriticalSections
import IcWsGateway.Lib.Holders
import IcWsGateway.References
import IcWsGateway.Retirement
import IcWsGateway.Gateway
import IcWsGateway.Admission
import IcWsGateway.Identity
import IcWsGateway.PollerLoop
import IcWsGateway.Shares
import IcWsGateway.Isolation
import IcWsGateway.Work
