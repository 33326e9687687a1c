import CycloneTcp.Modbus.ServerIsolation
import CycloneTcp.Modbus.ServerFraming
import CycloneTcp.Modbus.ServerSanity
import CycloneTcp.Modbus.Client
import CycloneTcp.Modbus.TableServer
import CycloneTcp.Modbus.Loopback
import CycloneTcp.Modbus.EndToEnd
import CycloneTcp.Modbus.ReadCalls
import CycloneTcp.Modbus.ServerAddresses
import CycloneTcp.Modbus.ServerResponse
import CycloneTcp.Modbus.ServerTable
import CycloneTcp.Modbus.ClientFraming
import CycloneTcp.Modbus.ClientMatching
import CycloneTcp.Lib.Ring
import CycloneTcp.Core.FlatBuffer
import CycloneTcp.Core.IpChecksum
import CycloneTcp.Core.Socket
import CycloneTcp.Core.TcpBuffer
import CycloneTcp.Core.TcpCircular
import CycloneTcp.Core.Tcp
import CycloneTcp.Core.TcpAction
import CycloneTcp.Core.TcpCallSteps
import CycloneTcp.Core.TcpAccounting
import CycloneTcp.Core.TcpDelivery
import CycloneTcp.Dhcp.LeaseDefaults
import CycloneTcp.Ip.Ipv4Frag
import CycloneTcp.Ip.Ipv6Frag
import CycloneTcp.Core.TcpOption
import CycloneTcp.Core.TcpOutput
import CycloneTcp.Core.TcpChecks
import CycloneTcp.Core.TcpDemux
import CycloneTcp.Core.TcpProgress
import CycloneTcp.Core.TcpWindows
import CycloneTcp.Core.TcpCwnd
import CycloneTcp.Core.TcpReconnect
import CycloneTcp.Core.TcpPairs
import CycloneTcp.Core.TcpPorts
import CycloneTcp.Modbus.ServerSending
import CycloneTcp.Core.NetMemPool
import CycloneTcp.Ip.Ipv4Input
import CycloneTcp.Core.SynQueue
import CycloneTcp.Common.DateTime
import CycloneTcp.Ip.Ipv6Options
import CycloneTcp.Ip.Arp
import CycloneTcp.Dns.NameRoundTrip
import CycloneTcp.Dns.Client
import CycloneTcp.Dns.NameCompare
import CycloneTcp.Dns.NameOrder
import CycloneTcp.Ip.Ipv6Overlap
import CycloneTcp.Ip.Solicitations
import CycloneTcp.Ip.Ipv6TextForm
import CycloneTcp.Ip.SlaacLifetimes
import CycloneTcp.Ip.DestCache
import CycloneTcp.Ip.NdpQueue
import CycloneTcp.Ip.SourceAddr
import CycloneTcp.Ip.MulticastRuns
import CycloneTcp.Ip.NdpBounds
import CycloneTcp.Core.Ethernet
import CycloneTcp.Dhcp.Options
import CycloneTcp.Nbns.Name
import CycloneTcp.Ip.GroupLeaving
import CycloneTcp.Dns.ResolverRuns
import CycloneTcp.Dns.HostQueries
import CycloneTcp.Dns.Answers
import CycloneTcp.Ip.ErrorMessages
import CycloneTcp.Mdns.TieBreaking
import CycloneTcp.Drivers.EthFlow
import CycloneTcp.Core.TcpRetransmission
import CycloneTcp.Modbus.Application
import CycloneTcp.Core.TcpPeers
