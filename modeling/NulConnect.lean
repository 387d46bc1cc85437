import NulConnect.Transition.Bimap
import NulConnect.Transition.LockOrder
import NulConnect.Transition.Mutex
import NulConnect.Transition.Ring
import NulConnect.Transition.Slots
import NulConnect.Transition.Log
import NulConnect.Transition.System
import NulConnect.Transition.Table
import NulConnect.Transition.Borrowed
import NulConnect.Transition.Program
import NulConnect.Transition.Update
import NulConnect.VpnEngine
import NulConnect.Net.Text
import NulConnect.Error
import NulConnect.VpnEngine.Workers
import NulConnect.VpnEngine.FirstFailure
import NulConnect.VpnEngine.Status
import NulConnect.VpnEngine.Startup
import NulConnect.VpnEngine.LockUse
import NulConnect.Net.Ipv4
import NulConnect.Net.IpAddr
import NulConnect.Net.AddrText
import NulConnect.Net.Json
import NulConnect.Net.Lines
import NulConnect.Net.MessagePipe
import NulConnect.Net.SortDedup
import NulConnect.Net.Trim
import NulConnect.Net.Utf16
import NulConnect.Net.Utf8
import NulConnect.Routing.Lookup
import NulConnect.Dns.Message
import NulConnect.Windows.Runtime
import NulConnect.Windows.NetworkPlan
import NulConnect.Windows.Bypass
import NulConnect.Windows.Steps
import NulConnect.Windows.Exclusion
import NulConnect.Windows.Cancel
import NulConnect.Windows.LockUse
import NulConnect.Windows.OneEngine
import NulConnect.Windows.RouteRecord
import NulConnect.Windows.Recovery
import NulConnect.Windows.Nrpt
import NulConnect.Windows.ExactUndo
import NulConnect.Windows.NrptRuns
import NulConnect.Windows.Pipe
import NulConnect.Windows.PipeServer
import NulConnect.Macos.Routes
import NulConnect.Macos.Config
import NulConnect.Macos.Runtime
import NulConnect.Macos.Steps
import NulConnect.Macos.Exclusion
import NulConnect.Macos.LockUse
import NulConnect.Macos.Monitor
import NulConnect.Macos.RouteUndo
import NulConnect.Macos.NodeRoutes
import NulConnect.Macos.Proxy
import NulConnect.Macos.ProxyGuard
import NulConnect.Macos.ProxyRestore
import NulConnect.Macos.Resolvers
import NulConnect.Macos.ResolverOwnership
import NulConnect.Macos.ResolverNames
import NulConnect.Macos.StartWorker
import NulConnect.Macos.ClientInput
import NulConnect.Macos.DnsReady
import NulConnect.Macos.RouteProbe
import NulConnect.Macos.Starting
import NulConnect.Macos.Stop
import NulConnect.Macos.OneEngine
import NulConnect.Macos.StatusReplies
import NulConnect.Macos.Client
import NulConnect.Macos.Server
import NulConnect.Macos.Machine
import NulConnect.Macos.Stepwise
import NulConnect.Macos.StepInvariants
import NulConnect.Macos.Session
import NulConnect.FakeDns.Pool
import NulConnect.FakeDns.Answers
import NulConnect.FakeDns.PoolRuns
import NulConnect.FakeDns.Wire
import NulConnect.FakeDns.Grammar
import NulConnect.FakeDns.Serve
import NulConnect.FakeDns.Lifetime
import NulConnect.TunStack.Socket
import NulConnect.TunStack.Flow
import NulConnect.TunStack.FlowSteps
import NulConnect.TunStack.Packet
import NulConnect.TunStack.Loop
import NulConnect.TunStack.Ownership
import NulConnect.TunStack.Listening
import NulConnect.TunStack.Accept
import NulConnect.TunStack.Attempts
import NulConnect.TunStack.Download
import NulConnect.TunStack.GracefulEnd
import NulConnect.TunStack.Deliver
import NulConnect.TunStack.Reset
import NulConnect.TunStack.Upload
import NulConnect.TunStack.Backpressure
import NulConnect.TunStack.Waker
import NulConnect.TunStack.Bookkeeping
import NulConnect.TunStack.Fragments
import NulConnect.VpnEngine.Uplink
import NulConnect.VpnEngine.Downlink
import NulConnect.UdpFlows.Flow
import NulConnect.UdpFlows.Pass
import NulConnect.UdpFlows.FlowSteps
import NulConnect.UdpFlows.Table
import NulConnect.UdpFlows.Ledger
import NulConnect.UdpFlows.Expiry
import NulConnect.OwnTransport
import NulConnect.Macos.Networksetup
import NulConnect.Macos.ProxyReads
import NulConnect.Macos.TunNetworkReads
import NulConnect.Macos.Discovery
import NulConnect.Transition.Register
import NulConnect.Windows.Adapter
