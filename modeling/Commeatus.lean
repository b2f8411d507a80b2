import Commeatus.Daemon.Protocol
import Commeatus.Daemon.TrojanBackpressure
import Commeatus.Transport.TlsHalfClose
import Commeatus.Transport.TlsReadiness
import Commeatus.Daemon.DatagramEgress
import Commeatus.Daemon.DatagramIsolation
import Commeatus.Daemon.TransparentOwnership
import Commeatus.Daemon.TransparentWiring
import Commeatus.Daemon.DatagramBacklog
import Commeatus.Daemon.Socks5UdpLock
import Commeatus.Daemon.DatagramFrame
import Commeatus.Daemon.InboundEdge
import Commeatus.Compat.Blocklist
import Commeatus.Compat.BlocklistForms
import Commeatus.Dns.Engine
import Commeatus.Dns.Resolution
import Commeatus.Dns.Wire
import Commeatus.Dns.Dot
import Commeatus.Dns.DotSession
import Commeatus.Dns.Aliases
import Commeatus.Dns.Lifetime
import Commeatus.Daemon.Registry
import Commeatus.Daemon.ConfigFile
import Commeatus.Daemon.Directives
import Commeatus.Daemon.ResolverChain
import Commeatus.Daemon.AcceptedConfig
import Commeatus.Core.Precedence
import Commeatus.Daemon.DomainRules
import Commeatus.Daemon.Candidates
import Commeatus.Dns.Response
import Commeatus.Dns.Labels
import Commeatus.Daemon.DirectDatagram
import Commeatus.Daemon.DirectDrain
import Commeatus.Daemon.Socks5Outbound
import Commeatus.Transport.TlsBurst
import Commeatus.Daemon.LineNumbers
import Commeatus.Lib.Reorder
import Commeatus.Daemon.LineOrder
import Commeatus.Dns.AliasOrder
import Commeatus.Dns.RecordOrder
import Commeatus.Dns.Verdicts
import Commeatus.Lib.Checked
import Commeatus.Dns.WireAccess
import Commeatus.Dns.WireBounds
import Commeatus.Dns.WireNames
import Commeatus.Dns.QueryEcho
import Commeatus.Dns.CacheHistory
import Commeatus.Dns.HostsMerge
import Commeatus.Daemon.HttpTunnel
import Commeatus.Daemon.HandshakeReplies
import Commeatus.Daemon.Socks5Codec
import Commeatus.Core.Networks
import Commeatus.Daemon.ConnectionLimiter
import Commeatus.Daemon.Server
import Commeatus.Lib.Monitor
import Commeatus.Daemon.Connector
import Commeatus.Daemon.Handlers
import Commeatus.Daemon.HandlerPlan
import Commeatus.Daemon.ConnectDeadline
import Commeatus.Transport.TcpRelay
import Commeatus.Lib.Dialogue
import Commeatus.Daemon.ProxyChain
import Commeatus.Daemon.Socks5Chain
import Commeatus.Daemon.HttpChain
import Commeatus.Dns.Accounting
import Commeatus.Lib.RwLock
import Commeatus.Daemon.ConfigStore
import Commeatus.Daemon.Supervision
import Commeatus.Daemon.DatagramRecord
import Commeatus.Daemon.ReplySockets
import Commeatus.Daemon.Socks5UdpReplies
import Commeatus.Daemon.Socks5UdpReadiness
import Commeatus.Transport.TlsDelivery
import Commeatus.Daemon.TrojanCarrier
