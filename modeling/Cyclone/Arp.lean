import Cyclone.Ipv4Addrs

/-!
# Cyclone.Arp

The ARP cache of an interface (`arp.c`): `arpResolve`, `arpEnqueuePacket`, `arpTick`,
`arpProcessPacket` and `arpFlushCache`, with a record of what they send and free.
-/

namespace Cyclone

open Serial

def ARP_CACHE_SIZE : Nat := 8
def ARP_MAX_PENDING_PACKETS : Nat := 2
def ARP_MAX_REQUESTS : Nat := 3
def ARP_REQUEST_TIMEOUT : Word := 1000
def ARP_MAX_PROBES : Nat := 2
def ARP_PROBE_TIMEOUT : Word := 60000
def ARP_REACHABLE_TIME : Word := 60000
def ARP_DELAY_FIRST_PROBE_TIME : Word := 5000

def ARP_HARDWARE_TYPE_ETH : BitVec 16 := 0x0001
def ARP_PROTOCOL_TYPE_IPV4 : BitVec 16 := 0x0800
def ARP_OPCODE_ARP_REQUEST : BitVec 16 := 1
def ARP_OPCODE_ARP_REPLY : BitVec 16 := 2

def sizeofArpPacket : Nat := 28

abbrev MacAddr := BitVec 48

def MAC_UNSPECIFIED_ADDR : MacAddr := 0
def MAC_BROADCAST_ADDR : MacAddr := BitVec.allOnes 48

/-- `macAddr->b[0] & 0x01`. -/
def macIsMulticastAddr (macAddr : MacAddr) : Bool := macAddr.getLsbD 40

inductive ArpState
  | NONE | INCOMPLETE | REACHABLE | STALE | DELAY | PROBE | PERMANENT
  deriving DecidableEq, Repr

/-- The results of `arpResolve` and `arpEnqueuePacket`. -/
inductive ArpError
  | NO_ERROR | IN_PROGRESS | OUT_OF_MEMORY | UNEXPECTED_STATE | NOT_FOUND
  deriving DecidableEq, Repr

structure NetAncillaryData where
  ttl : UInt8 := 0
  dontRoute : Bool := false
  deriving DecidableEq, Repr

/-- A packet of the queue. `number` says which of the buffers accepted it is stored in, and
`nextHop` for which address it was accepted: the code keeps neither. -/
structure ArpQueueItem where
  number : Nat
  nextHop : Ipv4Addr
  buffer : List UInt8
  offset : Nat
  ancillary : NetAncillaryData
  deriving DecidableEq, Repr

/-- The queue holds `queueSize` items. `probes` are the unicast requests sent since the entry has
last entered PROBE, each with its timeout: the code keeps only a count. -/
structure ArpCacheEntry where
  state : ArpState := .NONE
  ipAddr : Ipv4Addr := 0
  macAddr : MacAddr := 0
  timestamp : Word := 0
  timeout : Word := 0
  retransmitCount : Nat := 0
  queue : List ArpQueueItem := []
  probes : List (Word × Word) := []
  deriving DecidableEq, Repr

structure ArpPacket where
  hrd : BitVec 16 := ARP_HARDWARE_TYPE_ETH
  pro : BitVec 16 := ARP_PROTOCOL_TYPE_IPV4
  hln : Nat := 6
  pln : Nat := 4
  op : BitVec 16
  sha : MacAddr
  spa : Ipv4Addr
  tha : MacAddr := 0
  tpa : Ipv4Addr
  deriving DecidableEq, Repr

/-- What leaves the cache, or reaches it. -/
inductive ArpEvent
  | accepted (item : ArpQueueItem)
  | sent (macAddr : MacAddr) (item : ArpQueueItem)
  | freed (item : ArpQueueItem)
  | request (targetIpAddr : Ipv4Addr) (destMacAddr : MacAddr)
  | answer (senderIpAddr targetIpAddr : Ipv4Addr) (targetMacAddr : MacAddr)
  | reply (arpReply : ArpPacket)
  deriving DecidableEq, Repr

structure ArpInterface where
  macAddr : MacAddr := 0
  addrList : List Ipv4AddrEntry := []
  arpCache : List ArpCacheEntry := List.replicate ARP_CACHE_SIZE {}
  /-- The number of buffers accepted so far. -/
  buffers : Nat := 0
  events : List ArpEvent := []
  deriving DecidableEq, Repr

/-- The answers one call gets: the time when it starts and when it looks again at an entry, and
whether a request for an entry finds a source address and a buffer. -/
structure ArpWorld where
  time : Word
  stamp : Nat → Word
  ready : Nat → Bool

/-! ## The code -/

def ArpInterface.entry (s : ArpInterface) (i : Nat) : ArpCacheEntry := s.arpCache.getD i {}

def ArpInterface.update (s : ArpInterface) (i : Nat) (f : ArpCacheEntry → ArpCacheEntry) :
    ArpInterface := { s with arpCache := s.arpCache.modify i f }

def ArpInterface.log (s : ArpInterface) (events : List ArpEvent) : ArpInterface :=
  { s with events := s.events ++ events }

/-- `timeCompare(time, entry->timestamp + entry->timeout) >= 0`. -/
def ArpCacheEntry.timedOut (e : ArpCacheEntry) (time : Word) : Bool :=
  !(time - (e.timestamp + e.timeout)).msb

/-- The request, if any, that is sent to probe entry `i`. -/
def ArpWorld.probe (w : ArpWorld) (i : Nat) : List (Word × Word) :=
  if w.ready i then [(w.time, ARP_PROBE_TIMEOUT)] else []

def arpSendRequest (w : ArpWorld) (s : ArpInterface) (i : Nat) (destMacAddr : MacAddr) :
    ArpInterface :=
  if w.ready i then s.log [.request (s.entry i).ipAddr destMacAddr] else s

def arpSendQueuedPackets (s : ArpInterface) (i : Nat) : ArpInterface :=
  let entry := s.entry i
  let s := if entry.state = .INCOMPLETE then
      s.log (entry.queue.flatMap fun item => [.sent entry.macAddr item, .freed item])
    else s
  s.update i ({ · with queue := [] })

def arpFlushQueuedPackets (s : ArpInterface) (i : Nat) : ArpInterface :=
  let entry := s.entry i
  let s := if entry.state = .INCOMPLETE then s.log (entry.queue.map .freed) else s
  s.update i ({ · with queue := [] })

def arpFlushEntry (s : ArpInterface) (i : Nat) : ArpInterface :=
  (arpFlushQueuedPackets s i).update i ({ · with state := .NONE })

def arpFlushCache (s : ArpInterface) : ArpInterface :=
  (List.range ARP_CACHE_SIZE).foldl arpFlushEntry s

/-- The entry that `arpCreateEntry` takes when none is unused. -/
def oldestEntry (time : Word) (s : ArpInterface) : Nat :=
  (List.range ARP_CACHE_SIZE).foldl (fun oldest i =>
    if time - (s.entry i).timestamp > time - (s.entry oldest).timestamp then i else oldest) 0

def arpCreateEntry (w : ArpWorld) (s : ArpInterface) : ArpInterface × Nat :=
  match s.arpCache.findIdx? (·.state = .NONE) with
  | some i => (s.update i fun _ => {}, i)
  | none =>
    let oldest := oldestEntry w.time s
    ((arpFlushQueuedPackets s oldest).update oldest fun _ => {}, oldest)

def ArpCacheEntry.Holds (e : ArpCacheEntry) (ipAddr : Ipv4Addr) : Prop :=
  e.state ≠ .NONE ∧ e.ipAddr = ipAddr

instance (e : ArpCacheEntry) (ipAddr : Ipv4Addr) : Decidable (e.Holds ipAddr) :=
  inferInstanceAs (Decidable (_ ∧ _))

def arpFindEntry (s : ArpInterface) (ipAddr : Ipv4Addr) : Option Nat :=
  s.arpCache.findIdx? fun e => e.Holds ipAddr

def arpResolve (w : ArpWorld) (s : ArpInterface) (ipAddr : Ipv4Addr) :
    ArpInterface × ArpError × Option MacAddr :=
  match arpFindEntry s ipAddr with
  | some i =>
    let entry := s.entry i
    if entry.state = .INCOMPLETE then (s, .IN_PROGRESS, none)
    else if entry.state = .STALE then
      (s.update i fun e => { e with timestamp := w.stamp i, timeout := ARP_DELAY_FIRST_PROBE_TIME,
                                    state := .DELAY }, .NO_ERROR, some entry.macAddr)
    else (s, .NO_ERROR, some entry.macAddr)
  | none =>
    let (s, i) := arpCreateEntry w s
    let s := s.update i fun e => { e with ipAddr, retransmitCount := 0, queue := [] }
    let s := arpSendRequest w s i MAC_BROADCAST_ADDR
    (s.update i fun e => { e with timestamp := w.stamp i, timeout := ARP_REQUEST_TIMEOUT,
                                  state := .INCOMPLETE }, .IN_PROGRESS, none)

/-- `alloc` says whether `netBufferAlloc` finds room for a copy of the packet. -/
def arpEnqueuePacket (alloc : Bool) (s : ArpInterface) (ipAddr : Ipv4Addr) (buffer : List UInt8)
    (offset : Nat) (ancillary : NetAncillaryData) : ArpInterface × ArpError :=
  match arpFindEntry s ipAddr with
  | some i =>
    if (s.entry i).state = .INCOMPLETE then
      -- when the queue overflows, the new arrival replaces the oldest item
      let s := if (s.entry i).queue.length ≥ ARP_MAX_PENDING_PACKETS then
          (s.log ((s.entry i).queue.head?.toList.map .freed)).update i
            fun e => { e with queue := e.queue.tail }
        else s
      if alloc then
        let item : ArpQueueItem := ⟨s.buffers, ipAddr, buffer, offset, ancillary⟩
        ({ (s.update i fun e => { e with queue := e.queue ++ [item] }).log [.accepted item] with
          buffers := s.buffers + 1 }, .NO_ERROR)
      else (s, .OUT_OF_MEMORY)
    else (s, .UNEXPECTED_STATE)
  | none => (s, .NOT_FOUND)

/-- What `arpTick` does with entry `i`. -/
def arpTickEntry (w : ArpWorld) (s : ArpInterface) (i : Nat) : ArpInterface :=
  let entry := s.entry i
  if entry.state = .INCOMPLETE then
    if entry.timedOut w.time then
      let s := s.update i fun e => { e with retransmitCount := e.retransmitCount + 1 }
      if entry.retransmitCount + 1 < ARP_MAX_REQUESTS then
        (arpSendRequest w s i MAC_BROADCAST_ADDR).update i
          fun e => { e with timestamp := w.time, timeout := ARP_REQUEST_TIMEOUT }
      else (arpFlushQueuedPackets s i).update i fun e => { e with state := .NONE }
    else s
  else if entry.state = .REACHABLE then
    if entry.timedOut w.time then
      s.update i fun e => { e with timestamp := w.stamp i, state := .STALE }
    else s
  else if entry.state = .DELAY then
    if entry.timedOut w.time then
      (arpSendRequest w s i entry.macAddr).update i
        fun e => { e with timestamp := w.time, timeout := ARP_PROBE_TIMEOUT, state := .PROBE,
                          probes := w.probe i }
    else s
  else if entry.state = .PROBE then
    if entry.timedOut w.time then
      let s := s.update i fun e => { e with retransmitCount := e.retransmitCount + 1 }
      if entry.retransmitCount + 1 < ARP_MAX_PROBES then
        (arpSendRequest w s i entry.macAddr).update i
          fun e => { e with timestamp := w.time, timeout := ARP_PROBE_TIMEOUT,
                            probes := e.probes ++ w.probe i }
      else s.update i fun e => { e with state := .NONE }
    else s
  else s

def arpTick (w : ArpWorld) (s : ArpInterface) : ArpInterface :=
  (List.range ARP_CACHE_SIZE).foldl (arpTickEntry w) s

def arpProcessRequest (s : ArpInterface) (arpRequest : ArpPacket) : ArpInterface :=
  if ipv4IsBroadcastAddr s.addrList arpRequest.spa ∨ ipv4IsMulticastAddr arpRequest.spa then s
  else
    let validTarget := !s.addrList.any (·.probing arpRequest.tpa)
    let addrList := s.addrList.map fun e =>
      if e.probing arpRequest.tpa ∧ arpRequest.spa = IPV4_UNSPECIFIED_ADDR ∧
          arpRequest.sha ≠ s.macAddr then
        { e with conflict := true }
      else e
    let s := { s with addrList }
    if validTarget then
      s.log [.answer arpRequest.tpa arpRequest.spa arpRequest.sha]
    else s

/-- The checks at the start of `arpProcessReply`. -/
def arpReplyValid (s : ArpInterface) (arpReply : ArpPacket) : Bool :=
  !(arpReply.spa == IPV4_UNSPECIFIED_ADDR || ipv4IsBroadcastAddr s.addrList arpReply.spa ||
    ipv4IsMulticastAddr arpReply.spa || arpReply.sha == MAC_UNSPECIFIED_ADDR ||
    arpReply.sha == MAC_BROADCAST_ADDR || macIsMulticastAddr arpReply.sha ||
    ipv4IsTentativeAddr s.addrList arpReply.tpa)

def arpProcessReply (w : ArpWorld) (s : ArpInterface) (arpReply : ArpPacket) : ArpInterface :=
  let s := s.log [.reply arpReply]
  if !arpReplyValid s arpReply then s
  else
    match arpFindEntry s arpReply.spa with
    | some i =>
      let entry := s.entry i
      if entry.state = .INCOMPLETE then
        let s := s.update i fun e => { e with macAddr := arpReply.sha }
        (arpSendQueuedPackets s i).update i fun e =>
          { e with timestamp := w.stamp i, timeout := ARP_REACHABLE_TIME, state := .REACHABLE }
      else if entry.state = .REACHABLE then
        if arpReply.sha ≠ entry.macAddr then s.update i fun e => { e with state := .STALE } else s
      else if entry.state = .PROBE then
        s.update i fun e =>
          { e with ipAddr := arpReply.spa, macAddr := arpReply.sha, timestamp := w.stamp i,
                   timeout := ARP_REACHABLE_TIME, state := .REACHABLE }
      else s
    | none => s

/-- The loop of `arpProcessPacket` over the addresses: the index of the first in conflict with the
sender, if any. -/
def arpConflict (s : ArpInterface) (arpPacket : ArpPacket) : Option Nat :=
  s.addrList.findIdx? fun e => e.state ≠ .INVALID ∧ e.addr = arpPacket.spa ∧
    (e.state = .TENTATIVE ∨ arpPacket.sha ≠ s.macAddr)

def arpProcessPacket (w : ArpWorld) (s : ArpInterface) (arpPacket : ArpPacket) (length : Nat) :
    ArpInterface :=
  if length < sizeofArpPacket ∨ arpPacket.hrd ≠ ARP_HARDWARE_TYPE_ETH ∨
      arpPacket.pro ≠ ARP_PROTOCOL_TYPE_IPV4 ∨ arpPacket.hln ≠ 6 ∨ arpPacket.pln ≠ 4 then s
  else
    match arpConflict s arpPacket with
    | some i => { s with addrList := s.addrList.modify i ({ · with conflict := true }) }
    | none =>
      if s.addrList.any (fun e => e.state ≠ .INVALID ∧ e.addr = arpPacket.tpa) then
        if arpPacket.op = ARP_OPCODE_ARP_REQUEST then arpProcessRequest s arpPacket
        else if arpPacket.op = ARP_OPCODE_ARP_REPLY then arpProcessReply w s arpPacket
        else s
      else s

/-! ## Runs -/

inductive ArpCall
  | resolve (ipAddr : Ipv4Addr)
  | enqueue (alloc : Bool) (ipAddr : Ipv4Addr) (buffer : List UInt8) (offset : Nat)
    (ancillary : NetAncillaryData)
  | tick
  | processPacket (arpPacket : ArpPacket) (length : Nat)
  | flush
  /-- The addresses of the interface are changed from elsewhere. -/
  | configure (macAddr : MacAddr) (addrList : List Ipv4AddrEntry)

def arpCall (s : ArpInterface) (call : ArpWorld × ArpCall) : ArpInterface :=
  match call.2 with
  | .resolve ipAddr => (arpResolve call.1 s ipAddr).1
  | .enqueue alloc ipAddr buffer offset ancillary =>
    (arpEnqueuePacket alloc s ipAddr buffer offset ancillary).1
  | .tick => arpTick call.1 s
  | .processPacket arpPacket length => arpProcessPacket call.1 s arpPacket length
  | .flush => arpFlushCache s
  | .configure macAddr addrList => { s with macAddr, addrList }

end Cyclone
