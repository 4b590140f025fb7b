import GamePath.Engine.Capture.BypassQueue
import GamePath.Engine.Capture.BypassRoutes
import GamePath.Engine.Capture.Followers
import GamePath.Engine.Capture.SelectorRuns
import GamePath.Engine.Capture.Translation
import GamePath.Engine.DirectConsistency
import GamePath.Engine.DirectPrefixes
import GamePath.Engine.DirectRetention
import GamePath.Engine.DnsCalls
import GamePath.Engine.DnsFlush
import GamePath.Engine.DnsQueries
import GamePath.Engine.FecCoverage
import GamePath.Engine.FecPending
import GamePath.Engine.FragmentAccounting
import GamePath.Engine.FragmentOverflow
import GamePath.Engine.FragmentPieces
import GamePath.Engine.FragmentSoundness
import GamePath.Engine.OpenVpn.CertificateSubject
import GamePath.Engine.OpenVpn.ConfigRemotes
import GamePath.Engine.OpenVpn.LinkFraming
import GamePath.Engine.OpenVpn.LinkReading
import GamePath.Engine.OpenVpn.Renegotiation
import GamePath.Engine.OpenVpn.SessionRepeats
import GamePath.Engine.SchedulerBudget
import GamePath.Engine.Session.Delivery
import GamePath.Engine.Session.Dispatch
import GamePath.Engine.Session.InboundGauge
import GamePath.Engine.Session.Routes
import GamePath.Engine.Socks.FlowAccounts
import GamePath.Engine.Socks.ForwardedRequests
import GamePath.Engine.Socks.HandshakeReads
import GamePath.Engine.Socks.ResolverRace
import GamePath.Engine.Tun2socks.Crossing
import GamePath.Engine.Tun2socks.HandshakeChunks
import GamePath.Engine.Tun2socks.LookupRuns
import GamePath.Engine.Tun2socks.RemovedFlows
import GamePath.Engine.Tun2socks.Resets
import GamePath.Engine.WireGuard
import GamePath.Relay.EndpointAnswers
import GamePath.Relay.EndpointConvergence
import GamePath.Relay.Nonces
import GamePath.Relay.ReplySession
import GamePath.Service.Converging
import GamePath.Service.KillSwitch
import GamePath.Electron.FailoverRuns
import GamePath.Electron.GameMoves
import GamePath.Electron.GameTargets
import GamePath.Electron.VpnDirectEdits
import GamePath.Electron.VpnEnforced
import GamePath.Electron.VpnVerdicts
