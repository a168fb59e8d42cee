import Cyclone.ReceiveAgree
import Cyclone.Reopen
import Cyclone.Wait
import Cyclone.Legal
import Cyclone.Acks
import Cyclone.Nagle
import Cyclone.SynQueue
import Cyclone.Window
import Cyclone.Probing
import Cyclone.Options
import Cyclone.InOrder
import Cyclone.Flight
import Cyclone.Wakeup
import Cyclone.FlatBuffer
import Cyclone.DnsNames
import Cyclone.Checksum
import Cyclone.Ipv6Addrs
import Cyclone.Udp
import Cyclone.Delivery
import Cyclone.Ipv6
import Cyclone.CoapEdits
import Cyclone.PppLink
import Cyclone.Ipv6Print
import Cyclone.OptionBytes
import Cyclone.SourceAddr
import Cyclone.ArpQueues
import Cyclone.Unreachable
import Cyclone.Leases
import Cyclone.DnsOrder
import Cyclone.SendAgree
import Cyclone.Circular
import Cyclone.HdlcDriver
import Cyclone.CoapParse
import Cyclone.CoapRepeat
import Cyclone.PppConfigure
import Cyclone.MulticastRuns
import Cyclone.PppRepliesFit
import Cyclone.DnsClientRuns
import Cyclone.Ipv4Fragments
import Cyclone.DhcpLeases
import Cyclone.TftpRead
import Cyclone.TftpWrite
