import CocoNet.Library.StepMachine
import CocoNet.P2p.BatchBuilder
import CocoNet.P2p.Unpack
import CocoNet.P2p.BatchRoundTrip
import CocoNet.P2p.Multiaddr
import CocoNet.P2p.Uplink
import CocoNet.P2p.UplinkDelivery
import CocoNet.P2p.BatchLimits
import CocoNet.P2p.BatchSizes
import CocoNet.Library.Reassembly
import CocoNet.Routing.Fragment
import CocoNet.Routing.Ipv4Header
import CocoNet.Routing.FragmentLayout
import CocoNet.Routing.FragmentReassembly
import CocoNet.Routing.Refragmentation
import CocoNet.Library.BytePipe
import CocoNet.P2p.Announcing
import CocoNet.P2p.Classification
import CocoNet.P2p.DirectPeers
import CocoNet.P2p.EventLoop
import CocoNet.P2p.Recipients
import CocoNet.P2p.RelayBookkeeping
import CocoNet.P2p.Deliveries
import CocoNet.P2p.DialCooldown
import CocoNet.P2p.DialDiscipline
import CocoNet.P2p.Uptime
import CocoNet.P2p.OwnAddrs
import CocoNet.P2p.CraftedAddrs
import CocoNet.P2p.Gossip
import CocoNet.Ipam.Ipv4Network
import CocoNet.Ipam.VirtualIp
import CocoNet.Ipam.RoutedNetwork
import CocoNet.P2p.PublicNetworks
import CocoNet.Routing.Checksum
import CocoNet.Routing.DontFragment
import CocoNet.Routing.Ipv4Options
import CocoNet.P2p.DataCodec
import CocoNet.Routing.Downlink
import CocoNet.Routing.TunBridge
import CocoNet.Routing.WintunSender
import CocoNet.Library.Refinement
import CocoNet.Library.Scheduler
import CocoNet.Library.Transport
import CocoNet.P2p.DataPlane
import CocoNet.P2p.Overlay
import CocoNet.P2p.OverlayDelivery
import CocoNet.P2p.OverlayDiscovery
import CocoNet.P2p.OverlayLinks
import CocoNet.Routing.Pumps
import CocoNet.Routing.TunTasks
import CocoNet.Library.ReassemblyTable
import CocoNet.Routing.Datagrams
import CocoNet.Tunnel
import CocoNet.P2p.LoopLife
import CocoNet.P2p.AnnounceRate
import CocoNet.P2p.TrafficShape
import CocoNet.P2p.GossipCapacity
import CocoNet.P2p.InboundPlane
import CocoNet.P2p.RecentDials
import CocoNet.P2p.SwarmCalls
import CocoNet.P2p.KadKnowledge
import CocoNet.P2p.OwnCalls
import CocoNet.Library.PipeTasks
import CocoNet.Routing.TunPipes
import CocoNet.Routing.FairSchedules
import CocoNet.Routing.WintunTasks
import CocoNet.Routing.WintunPanic
import CocoNet.Routing.WintunPipes
import CocoNet.Routing.HostRoutes
import CocoNet.DeviceTunnel
