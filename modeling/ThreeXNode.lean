import ThreeXNode.Service.ClientIps
import ThreeXNode.Service.IpLimit
import ThreeXNode.Service.StableTags
import ThreeXNode.Leaf.Normalize
import ThreeXNode.Leaf.Accounting
import ThreeXNode.Leaf.Attribution
import ThreeXNode.Leaf.ClientRoutes
import ThreeXNode.Leaf.Deadlines
import ThreeXNode.Leaf.Halting
import ThreeXNode.Leaf.Routes
import ThreeXNode.Xray.DnsRouting
import ThreeXNode.Xray.GeodataFile
import ThreeXNode.Xray.HotApply
import ThreeXNode.Xray.PendingRuns
import ThreeXNode.Xray.RoutingKept
import ThreeXNode.Service.Writes
import ThreeXNode.Service.Listeners
import ThreeXNode.Panel.CountedOnce
import ThreeXNode.Panel.RowRuns
import ThreeXNode.Panel.BulkRuns
import ThreeXNode.Panel.PollRuns
import ThreeXNode.Panel.MergeSql
import ThreeXNode.Panel.TrafficDeltas
import ThreeXNode.Panel.CalendarRenew
import ThreeXNode.Panel.RenewOnce
import ThreeXNode.AmneziaWG.ForwardedPorts
import ThreeXNode.AmneziaWG.HostState
import ThreeXNode.Service.ClientWireguard
import ThreeXNode.Service.DeviceLaws
import ThreeXNode.Service.EgressExact
import ThreeXNode.Runtime.HitRuns
import ThreeXNode.MTProto.Sidecar
import ThreeXNode.Panel.DumpExact
import ThreeXNode.Panel.ClientPageLaws
import ThreeXNode.Sub.ClashLoads
import ThreeXNode.Panel.GroupRuns
import ThreeXNode.Service.TokenStore
import ThreeXNode.Service.LoginLimiter
