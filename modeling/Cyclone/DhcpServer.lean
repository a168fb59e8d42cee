import Cyclone.DhcpOptions
import Cyclone.Arp
import Cyclone.Ipv6Addrs

/-!
# Cyclone.DhcpServer

The DHCP server (`dhcp_server.c`).

* `DhcpServerContext`: the settings, the bindings and the next address of the pool.
* `dhcpServerProcessMessage`: what a message does to the bindings, and the reply.
* `dhcpServerTick`: leases that are over.

Addresses are compared as numbers (`ntohl`). A message is taken as flat bytes. `running` is set and
cleared by `dhcpServerStart` and `dhcpServerStop`; nothing looks at it.
-/

namespace Cyclone

open NetBuffer Serial

def DHCP_SERVER_MAX_CLIENTS : Nat := 16
def DHCP_SERVER_MAX_DNS_SERVERS : Nat := 2
def DHCP_SERVER_PORT : Nat := 67
def DHCP_CLIENT_PORT : Nat := 68

/-! ## Messages -/

def be32At (bytes : List UInt8) (i : Nat) : Word :=
  BitVec.ofNat 32 ((be16At bytes i).toNat * 65536 + (be16At bytes (i + 2)).toNat)

abbrev DhcpMessage := List UInt8

namespace DhcpMessage

variable (message : DhcpMessage)

def op : UInt8 := message.getD 0 0
def htype : UInt8 := message.getD 1 0
def hlen : UInt8 := message.getD 2 0
def flags : Nat := (be16At message 10).toNat
def ciaddr : Ipv4Addr := be32At message 12
def yiaddr : Ipv4Addr := be32At message 16
def giaddr : Ipv4Addr := be32At message 24
def chaddr : MacAddr :=
  BitVec.ofNat 48 ((be16At message 28).toNat * 4294967296 + (be32At message 30).toNat)
def magicCookie : Word := be32At message 236

/-- An option that carries an address. -/
def addrOption (code : UInt8) : Option Ipv4Addr :=
  (dhcpGetOption message code).bind fun value =>
    if value.length = 4 then some (be32At value 0) else none

def requestedIpAddr : Ipv4Addr :=
  (addrOption message DHCP_OPT_REQUESTED_IP_ADDRESS).getD IPV4_UNSPECIFIED_ADDR

/-- The type of the message, from an option of one byte. -/
def messageType : Option UInt8 :=
  (dhcpGetOption message DHCP_OPT_DHCP_MESSAGE_TYPE).bind fun value =>
    if value.length = 1 then value.head? else none

end DhcpMessage

/-! ## The server -/

structure DhcpServerBinding where
  macAddr : MacAddr := MAC_UNSPECIFIED_ADDR
  ipAddr : Ipv4Addr := IPV4_UNSPECIFIED_ADDR
  validLease : Bool := false
  timestamp : Word := 0
  deriving DecidableEq

/-- A binding that is not free. -/
def DhcpServerBinding.inUse (binding : DhcpServerBinding) : Bool :=
  binding.macAddr ≠ MAC_UNSPECIFIED_ADDR

structure DhcpServerSettings where
  /-- The address of the interface that the server is bound to. -/
  serverAddr : Ipv4Addr
  leaseTime : Word
  ipAddrRangeMin : Ipv4Addr
  ipAddrRangeMax : Ipv4Addr
  subnetMask : Ipv4Addr
  defaultGateway : Ipv4Addr
  dnsServer : List Ipv4Addr

/-- Whether an address is one of the pool. -/
def DhcpServerSettings.InPool (settings : DhcpServerSettings) (ipAddr : Ipv4Addr) : Prop :=
  ipAddr ≥ settings.ipAddrRangeMin ∧ ipAddr ≤ settings.ipAddrRangeMax

instance (settings : DhcpServerSettings) (ipAddr : Ipv4Addr) : Decidable (settings.InPool ipAddr) :=
  inferInstanceAs (Decidable (_ ∧ _))

structure DhcpServerContext where
  settings : DhcpServerSettings
  nextIpAddr : Ipv4Addr
  clientBinding : List DhcpServerBinding

/-- What is sent to a client or to its relay. -/
structure DhcpReply where
  message : DhcpMessage
  destIpAddr : Ipv4Addr
  destPort : Nat

namespace DhcpServerContext

variable (s : DhcpServerContext)

def binding (i : Nat) : DhcpServerBinding := s.clientBinding.getD i {}

def setBinding (i : Nat) (binding : DhcpServerBinding) : DhcpServerContext :=
  { s with clientBinding := s.clientBinding.set i binding }

end DhcpServerContext

def dhcpServerInit (settings : DhcpServerSettings) : DhcpServerContext where
  settings := settings
  nextIpAddr := settings.ipAddrRangeMin
  clientBinding := List.replicate DHCP_SERVER_MAX_CLIENTS {}

def dhcpServerFindBindingByMacAddr (s : DhcpServerContext) (macAddr : MacAddr) : Option Nat :=
  s.clientBinding.findIdx? fun binding => binding.inUse && binding.macAddr == macAddr

def dhcpServerFindBindingByIpAddr (s : DhcpServerContext) (ipAddr : Ipv4Addr) : Option Nat :=
  s.clientBinding.findIdx? fun binding => binding.inUse && binding.ipAddr == ipAddr

/-- The loop of `dhcpServerCreateBinding` from binding `i` on. -/
def createBindingLoop (time : Word) :
    List DhcpServerBinding → Nat → Option (Nat × DhcpServerBinding) → Option Nat
  | [], _, oldestBinding => oldestBinding.map Prod.fst
  | binding :: rest, i, oldestBinding =>
    if binding.macAddr = MAC_UNSPECIFIED_ADDR then some i
    else if binding.validLease then createBindingLoop time rest (i + 1) oldestBinding
    else
      match oldestBinding with
      | none => createBindingLoop time rest (i + 1) (some (i, binding))
      | some (j, oldest) =>
        if time - binding.timestamp > time - oldest.timestamp then
          createBindingLoop time rest (i + 1) (some (i, binding))
        else createBindingLoop time rest (i + 1) (some (j, oldest))

/-- `dhcpServerCreateBinding`: the binding that was cleared for a new client. -/
def dhcpServerCreateBinding (time : Word) (s : DhcpServerContext) :
    Option (DhcpServerContext × Nat) :=
  (createBindingLoop time s.clientBinding 0 none).map fun i => (s.setBinding i {}, i)

/-- The loop of `dhcpServerGetNextIpAddr`. -/
def getNextIpAddrLoop : Nat → DhcpServerContext → DhcpServerContext × Option Ipv4Addr
  | 0, s => (s, none)
  | n + 1, s =>
    let ipAddr := s.nextIpAddr
    let binding := dhcpServerFindBindingByIpAddr s ipAddr
    let s := { s with
      nextIpAddr := if ipAddr ≥ s.settings.ipAddrRangeMax then s.settings.ipAddrRangeMin
        else ipAddr + 1 }
    if binding.isNone then (s, some ipAddr) else getNextIpAddrLoop n s

def dhcpServerGetNextIpAddr (s : DhcpServerContext) : DhcpServerContext × Option Ipv4Addr :=
  getNextIpAddrLoop DHCP_SERVER_MAX_CLIENTS s

/-! ## Replies -/

/-- The options of a reply in the order in which they are added. -/
def replyOptions (settings : DhcpServerSettings) (type : UInt8) (yourIpAddr : Ipv4Addr) :
    List (UInt8 × List UInt8) :=
  let dnsServers := (settings.dnsServer.take DHCP_SERVER_MAX_DNS_SERVERS).takeWhile
    fun addr => addr ≠ IPV4_UNSPECIFIED_ADDR
  [(DHCP_OPT_DHCP_MESSAGE_TYPE, [type]), (DHCP_OPT_SERVER_IDENTIFIER, be32 settings.serverAddr)] ++
    if type = DHCP_MESSAGE_TYPE_OFFER ∨ type = DHCP_MESSAGE_TYPE_ACK then
      (if yourIpAddr ≠ IPV4_UNSPECIFIED_ADDR then
        [(DHCP_OPT_IP_ADDRESS_LEASE_TIME, be32 settings.leaseTime)] else []) ++
      (if settings.subnetMask ≠ IPV4_UNSPECIFIED_ADDR then
        [(DHCP_OPT_SUBNET_MASK, be32 settings.subnetMask)] else []) ++
      (if settings.defaultGateway ≠ IPV4_UNSPECIFIED_ADDR then
        [(DHCP_OPT_ROUTER, be32 settings.defaultGateway)] else []) ++
      (if dnsServers ≠ [] then [(DHCP_OPT_DNS_SERVER, dnsServers.flatMap be32)] else [])
    else []

/-- The header of a reply. -/
def replyHeader (yourIpAddr : Ipv4Addr) (request : DhcpMessage) : List UInt8 :=
  [DHCP_OPCODE_BOOTREPLY, DHCP_HARDWARE_TYPE_ETH, 6, 0] ++ be32 (be32At request 4) ++ [0, 0] ++
    be16 request.flags ++ [0, 0, 0, 0] ++ be32 yourIpAddr ++ [0, 0, 0, 0] ++ be32 request.giaddr ++
    (be16 (be16At request 28).toNat ++ be32 (be32At request 30)) ++
    List.replicate (10 + 64 + 128) 0 ++ be32 DHCP_MAGIC_COOKIE

/-- `dhcpServerSendReply`. `alloc` says whether a buffer was obtained. -/
def dhcpServerSendReply (alloc : Bool) (s : DhcpServerContext) (type : UInt8)
    (yourIpAddr : Ipv4Addr) (request : DhcpMessage) : Option DhcpReply :=
  if alloc then
    let options := DHCP_OPT_END :: List.replicate (DHCP_MIN_MSG_SIZE - sizeofDhcpMessage - 1) 0
    ((replyOptions s.settings type yourIpAddr).foldlM
      (fun options o => dhcpAddOption options o.1 o.2) options).map fun options =>
      let answered := type = DHCP_MESSAGE_TYPE_OFFER ∨ type = DHCP_MESSAGE_TYPE_ACK
      { message := replyHeader yourIpAddr request ++ options
        destIpAddr :=
          if request.giaddr ≠ IPV4_UNSPECIFIED_ADDR then request.giaddr
          else if answered ∧ request.ciaddr ≠ IPV4_UNSPECIFIED_ADDR then request.ciaddr
          else IPV4_BROADCAST_ADDR
        destPort :=
          if request.giaddr ≠ IPV4_UNSPECIFIED_ADDR then DHCP_SERVER_PORT else DHCP_CLIENT_PORT }
  else none

/-! ## Requests -/

/-- A message for another server. -/
def forOtherServer (s : DhcpServerContext) (message : DhcpMessage) : Bool :=
  match message.addrOption DHCP_OPT_SERVER_IDENTIFIER with
  | some addr => addr ≠ s.settings.serverAddr
  | none => false

def dhcpServerParseDiscover (alloc : Bool) (time : Word) (s : DhcpServerContext)
    (message : DhcpMessage) : DhcpServerContext × Option DhcpReply :=
  if forOtherServer s message then (s, none)
  else
    let requested := message.requestedIpAddr
    match dhcpServerFindBindingByMacAddr s message.chaddr with
    | some i =>
      let binding := s.binding i
      let s :=
        if requested ≠ binding.ipAddr ∧ s.settings.InPool requested ∧
            (dhcpServerFindBindingByIpAddr s requested).isNone then
          s.setBinding i { binding with ipAddr := requested, timestamp := time }
        else s
      (s, dhcpServerSendReply alloc s DHCP_MESSAGE_TYPE_OFFER (s.binding i).ipAddr message)
    | none =>
      match dhcpServerCreateBinding time s with
      | none => (s, none)
      | some (s, i) =>
        match
          if s.settings.InPool requested ∧ (dhcpServerFindBindingByIpAddr s requested).isNone then
            (s, some requested)
          else dhcpServerGetNextIpAddr s with
        | (s, none) => (s, none)
        | (s, some ipAddr) =>
          let s := s.setBinding i { macAddr := message.chaddr, ipAddr, timestamp := time }
          (s, dhcpServerSendReply alloc s DHCP_MESSAGE_TYPE_OFFER ipAddr message)

def dhcpServerParseRequest (alloc : Bool) (time : Word) (s : DhcpServerContext)
    (message : DhcpMessage) : DhcpServerContext × Option DhcpReply :=
  if forOtherServer s message then (s, none)
  else
    let clientIpAddr :=
      if message.ciaddr ≠ IPV4_UNSPECIFIED_ADDR then message.ciaddr else message.requestedIpAddr
    let nak := (s, dhcpServerSendReply alloc s DHCP_MESSAGE_TYPE_NAK IPV4_UNSPECIFIED_ADDR message)
    if clientIpAddr ≠ IPV4_UNSPECIFIED_ADDR then
      match dhcpServerFindBindingByMacAddr s message.chaddr with
      | some i =>
        let binding := s.binding i
        if clientIpAddr = binding.ipAddr then
          let s := s.setBinding i { binding with validLease := true, timestamp := time }
          (s, dhcpServerSendReply alloc s DHCP_MESSAGE_TYPE_ACK binding.ipAddr message)
        else nak
      | none =>
        if s.settings.InPool clientIpAddr ∧
            (dhcpServerFindBindingByIpAddr s clientIpAddr).isNone then
          match dhcpServerCreateBinding time s with
          | none => nak
          | some (s, i) =>
            let s := s.setBinding i
              { macAddr := message.chaddr, ipAddr := clientIpAddr, validLease := true,
                timestamp := time }
            (s, dhcpServerSendReply alloc s DHCP_MESSAGE_TYPE_ACK clientIpAddr message)
        else nak
    else nak

def dhcpServerParseDecline (s : DhcpServerContext) (message : DhcpMessage) : DhcpServerContext :=
  match message.addrOption DHCP_OPT_REQUESTED_IP_ADDRESS with
  | none => s
  | some requestedIpAddr =>
    match dhcpServerFindBindingByMacAddr s message.chaddr with
    | none => s
    | some i =>
      -- the address is being used by another host
      if (s.binding i).ipAddr = requestedIpAddr then s.setBinding i {} else s

def dhcpServerParseRelease (s : DhcpServerContext) (message : DhcpMessage) : DhcpServerContext :=
  match dhcpServerFindBindingByMacAddr s message.chaddr with
  | none => s
  | some i =>
    if (s.binding i).ipAddr = message.ciaddr then
      s.setBinding i { s.binding i with validLease := false }
    else s

def dhcpServerParseInform (alloc : Bool) (s : DhcpServerContext) (message : DhcpMessage) :
    Option DhcpReply :=
  if message.ciaddr ≠ IPV4_UNSPECIFIED_ADDR then
    dhcpServerSendReply alloc s DHCP_MESSAGE_TYPE_ACK IPV4_UNSPECIFIED_ADDR message
  else none

/-- What `dhcpServerProcessMessage` checks before it looks at the type. -/
def DhcpMessage.IsRequest (message : DhcpMessage) : Prop :=
  sizeofDhcpMessage ≤ message.length ∧ message.length ≤ DHCP_MAX_MSG_SIZE ∧
    message.op = DHCP_OPCODE_BOOTREQUEST ∧ message.htype = DHCP_HARDWARE_TYPE_ETH ∧
    message.hlen = 6 ∧ message.magicCookie = DHCP_MAGIC_COOKIE

instance (message : DhcpMessage) : Decidable message.IsRequest :=
  inferInstanceAs (Decidable (_ ∧ _))

def dhcpServerProcessMessage (alloc : Bool) (time : Word) (s : DhcpServerContext)
    (message : DhcpMessage) : DhcpServerContext × Option DhcpReply :=
  if message.IsRequest then
    match message.messageType with
    | none => (s, none)
    | some type =>
      if type = DHCP_MESSAGE_TYPE_DISCOVER then dhcpServerParseDiscover alloc time s message
      else if type = DHCP_MESSAGE_TYPE_REQUEST then dhcpServerParseRequest alloc time s message
      else if type = DHCP_MESSAGE_TYPE_DECLINE then (dhcpServerParseDecline s message, none)
      else if type = DHCP_MESSAGE_TYPE_RELEASE then (dhcpServerParseRelease s message, none)
      else if type = DHCP_MESSAGE_TYPE_INFORM then (s, dhcpServerParseInform alloc s message)
      else (s, none)
  else (s, none)

/-- The lease time in milliseconds. -/
def DhcpServerSettings.leaseDelay (settings : DhcpServerSettings) : Word :=
  if settings.leaseTime < MAX_DELAY / 1000 then settings.leaseTime * 1000 else MAX_DELAY

def dhcpServerTick (time : Word) (s : DhcpServerContext) : DhcpServerContext :=
  { s with
    clientBinding := s.clientBinding.map fun binding =>
      if binding.inUse ∧ binding.validLease ∧
          0 ≤ (time - (binding.timestamp + s.settings.leaseDelay)).toInt then
        { binding with validLease := false }
      else binding }

end Cyclone
