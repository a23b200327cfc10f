import Ttgo.Server.Brackets
import Ttgo.Auth.FailClosed
import Ttgo.Auth.Staleness
import Ttgo.Auth.Invalidation
import Ttgo.Proxy.Views
import Ttgo.Proxy.Gauge
import Ttgo.Proxy.Revocation
import Ttgo.Proxy.Traffic
import Ttgo.Proxy.Rooms
import Ttgo.Proxy.Relays
import Ttgo.Endpoint.Removal
import Ttgo.Endpoint.Shutdown
import Ttgo.Endpoint.TrafficReset
import Ttgo.Admin.ConfigFrame
import Ttgo.Admin.Hosts
import Ttgo.Admin.Backends
import Ttgo.Server.PatchUser
import Ttgo.Server.CreateLimits
import Ttgo.Server.AdminClients
import Ttgo.Client.Disconnect
import Ttgo.Client.Settings
import Ttgo.Client.Imports
import Ttgo.Client.DnsAnswers
import Ttgo.Client.ConnHistory
import Ttgo.Client.ActiveConn
import Ttgo.Udp.Framing
import Ttgo.Udp.Sockets
import Ttgo.Proxy.Datagrams
import Ttgo.Rules.Update
import Ttgo.Server.Peek
import Ttgo.Server.ClientHello
import Ttgo.Server.Reload
import Ttgo.Proxy.Forwarded
import Ttgo.Proxy.Filter
import Ttgo.Proxy.Wire
import Ttgo.Path.Tunnel
