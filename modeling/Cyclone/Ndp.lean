import Cyclone.Arp
import Cyclone.SourceAddr

/-!
# Cyclone.Ndp

The Neighbor cache of an interface (`ndp.c`, `ndp_cache.c`): `ndpResolve`, `ndpEnqueuePacket`,
`ndpUpdateNeighborCache` and the messages that change it.

Of the packets that wait only the number counts here. A call of `ndpResolve` on behalf of an answer
that is sent is a call of its own.
-/

namespace Cyclone

open Serial

def NDP_NEIGHBOR_CACHE_SIZE : Nat := 8
def NDP_MAX_PENDING_PACKETS : Nat := 2
def NDP_MAX_MULTICAST_SOLICIT : Nat := 3
def NDP_MAX_UNICAST_SOLICIT : Nat := 3
def NDP_REACHABLE_TIME : Word := 30000
def NDP_DELAY_FIRST_PROBE_TIME : Word := 5000
def NDP_HOP_LIMIT : Nat := 255

inductive NdpState
  | NONE | INCOMPLETE | REACHABLE | STALE | DELAY | PROBE | PERMANENT
  deriving DecidableEq, Repr

/-- `probes` are the unicast solicitations sent since the entry has last entered PROBE, each with
its timeout: the code keeps only a count. -/
structure NdpNeighborCacheEntry where
  state : NdpState := .NONE
  ipAddr : Ipv6Addr := 0
  macAddr : MacAddr := 0
  isRouter : Bool := false
  timestamp : Word := 0
  timeout : Word := 0
  retransmitCount : Nat := 0
  queueSize : Nat := 0
  probes : List (Word × Word) := []
  deriving DecidableEq, Repr

structure NdpInterface where
  addrList : List Ipv6AddrEntry := []
  anycastAddrList : List Ipv6Addr := []
  retransTimer : Word := NDP_RETRANS_TIMER
  reachableTime : Word := NDP_REACHABLE_TIME
  neighborCache : List NdpNeighborCacheEntry := List.replicate NDP_NEIGHBOR_CACHE_SIZE {}
  deriving DecidableEq, Repr

/-- The answers one call gets: the time when it starts and when it looks again at an entry, and
whether a solicitation for an entry finds a source address and a buffer. -/
structure NdpWorld where
  time : Word
  stamp : Nat → Word
  ready : Nat → Bool

/-- A link-layer address option, as `ndpGetOption` finds it. -/
structure NdpLinkLayerAddrOption where
  length : Nat := 1
  linkLayerAddr : MacAddr
  deriving DecidableEq, Repr

/-- A received message. `checked` says whether it is long enough and `ndpCheckOptions` accepts its
options, `option` is the link-layer address option of the kind the message may have, if any. -/
structure NdpMessage where
  srcAddr : Ipv6Addr
  destAddr : Ipv6Addr
  hopLimit : Nat := NDP_HOP_LIMIT
  code : Nat := 0
  targetAddr : Ipv6Addr := 0
  checked : Bool := true
  option : Option NdpLinkLayerAddrOption := none
  deriving DecidableEq, Repr

/-- The flags of a Neighbor Advertisement. -/
structure NdpFlags where
  r : Bool := false
  s : Bool := false
  o : Bool := false
  deriving DecidableEq, Repr

/-! ## The code -/

def NdpInterface.entry (s : NdpInterface) (i : Nat) : NdpNeighborCacheEntry :=
  s.neighborCache.getD i {}

def NdpInterface.update (s : NdpInterface) (i : Nat)
    (f : NdpNeighborCacheEntry → NdpNeighborCacheEntry) : NdpInterface :=
  { s with neighborCache := s.neighborCache.modify i f }

def NdpNeighborCacheEntry.timedOut (e : NdpNeighborCacheEntry) (time : Word) : Bool :=
  !(time - (e.timestamp + e.timeout)).msb

/-- The link-layer address of an option that has the right length. -/
def NdpMessage.linkLayerAddr (message : NdpMessage) : Option MacAddr :=
  message.option.bind fun option => if option.length = 1 then some option.linkLayerAddr else none

def ipv6IsSolicitedNodeAddr (ipAddr : Ipv6Addr) : Bool :=
  ipAddr >>> 24 == 0xFF0200000000000000000001FF

def ipv6IsAnycastAddr (s : NdpInterface) (ipAddr : Ipv6Addr) : Bool :=
  ipAddr ≠ IPV6_UNSPECIFIED_ADDR ∧ ipAddr ∈ s.anycastAddrList

/-- The solicitation, if any, that is sent to probe entry `i`. -/
def NdpWorld.probe (w : NdpWorld) (retransTimer : Word) (i : Nat) : List (Word × Word) :=
  if w.ready i then [(w.time, retransTimer)] else []

def ndpFindNeighborCacheEntry (s : NdpInterface) (ipAddr : Ipv6Addr) : Option Nat :=
  s.neighborCache.findIdx? fun e => e.state ≠ .NONE ∧ e.ipAddr = ipAddr

def oldestNeighbor (time : Word) (s : NdpInterface) : Nat :=
  (List.range NDP_NEIGHBOR_CACHE_SIZE).foldl (fun oldest i =>
    if time - (s.entry i).timestamp > time - (s.entry oldest).timestamp then i else oldest) 0

def ndpCreateNeighborCacheEntry (w : NdpWorld) (s : NdpInterface) : NdpInterface × Nat :=
  match s.neighborCache.findIdx? (·.state = .NONE) with
  | some i => (s.update i fun _ => {}, i)
  | none => (s.update (oldestNeighbor w.time s) fun _ => {}, oldestNeighbor w.time s)

def ndpResolve (w : NdpWorld) (s : NdpInterface) (ipAddr : Ipv6Addr) :
    NdpInterface × ArpError × Option MacAddr :=
  match ndpFindNeighborCacheEntry s ipAddr with
  | some i =>
    let entry := s.entry i
    if entry.state = .INCOMPLETE then (s, .IN_PROGRESS, none)
    else if entry.state = .STALE then
      (s.update i fun e => { e with timestamp := w.stamp i, timeout := NDP_DELAY_FIRST_PROBE_TIME,
                                    state := .DELAY }, .NO_ERROR, some entry.macAddr)
    else (s, .NO_ERROR, some entry.macAddr)
  | none =>
    let (s, i) := ndpCreateNeighborCacheEntry w s
    (s.update i fun e => { e with ipAddr, retransmitCount := 0, queueSize := 0,
                                  timestamp := w.stamp i, timeout := s.retransTimer,
                                  state := .INCOMPLETE }, .IN_PROGRESS, none)

/-- `alloc` says whether `netBufferAlloc` finds room for a copy of the packet. -/
def ndpEnqueuePacket (alloc : Bool) (s : NdpInterface) (ipAddr : Ipv6Addr) :
    NdpInterface × ArpError :=
  match ndpFindNeighborCacheEntry s ipAddr with
  | some i =>
    if (s.entry i).state = .INCOMPLETE then
      let s := if (s.entry i).queueSize ≥ NDP_MAX_PENDING_PACKETS then
          s.update i fun e => { e with queueSize := e.queueSize - 1 }
        else s
      if alloc then (s.update i fun e => { e with queueSize := e.queueSize + 1 }, .NO_ERROR)
      else (s, .OUT_OF_MEMORY)
    else (s, .UNEXPECTED_STATE)
  | none => (s, .NOT_FOUND)

/-- What `ndpUpdateNeighborCache` does with entry `i`. -/
def ndpUpdateEntry (w : NdpWorld) (s : NdpInterface) (i : Nat) : NdpInterface :=
  let entry := s.entry i
  if entry.state = .INCOMPLETE then
    if entry.timedOut w.time then
      if entry.retransmitCount + 1 < NDP_MAX_MULTICAST_SOLICIT then
        s.update i fun e => { e with retransmitCount := e.retransmitCount + 1,
                                     timestamp := w.time, timeout := s.retransTimer }
      else
        s.update i fun e => { e with retransmitCount := e.retransmitCount + 1, queueSize := 0,
                                     state := .NONE }
    else s
  else if entry.state = .REACHABLE then
    if entry.timedOut w.time then
      s.update i fun e => { e with timestamp := w.stamp i, state := .STALE }
    else s
  else if entry.state = .DELAY then
    if entry.timedOut w.time then
      s.update i fun e => { e with timestamp := w.time, timeout := s.retransTimer, state := .PROBE,
                                   probes := w.probe s.retransTimer i }
    else s
  else if entry.state = .PROBE then
    if entry.timedOut w.time then
      if entry.retransmitCount + 1 < NDP_MAX_UNICAST_SOLICIT then
        s.update i fun e => { e with retransmitCount := e.retransmitCount + 1,
                                     timestamp := w.time, timeout := s.retransTimer,
                                     probes := e.probes ++ w.probe s.retransTimer i }
      else
        s.update i fun e => { e with retransmitCount := e.retransmitCount + 1, state := .NONE }
    else s
  else s

def ndpUpdateNeighborCache (w : NdpWorld) (s : NdpInterface) : NdpInterface :=
  (List.range NDP_NEIGHBOR_CACHE_SIZE).foldl (ndpUpdateEntry w) s

/-- What a message from a neighbor does that tells its link-layer address: a new entry is made by
`create`, an old one is updated. -/
def ndpLearn (w : NdpWorld) (s : NdpInterface) (ipAddr : Ipv6Addr) (linkLayerAddr : MacAddr)
    (create : NdpNeighborCacheEntry → NdpNeighborCacheEntry) : NdpInterface :=
  match ndpFindNeighborCacheEntry s ipAddr with
  | none =>
    let (s, i) := ndpCreateNeighborCacheEntry w s
    s.update i fun e => create { e with ipAddr, macAddr := linkLayerAddr, timestamp := w.stamp i,
                                        state := .STALE }
  | some i =>
    let entry := s.entry i
    if entry.state = .INCOMPLETE then
      s.update i fun e =>
        let e := { e with macAddr := linkLayerAddr, queueSize := 0, timestamp := w.stamp i }
        if entry.queueSize > 0 then
          { e with timeout := NDP_DELAY_FIRST_PROBE_TIME, state := .DELAY }
        else { e with state := .STALE }
    else if entry.macAddr ≠ linkLayerAddr then
      s.update i fun e => { e with macAddr := linkLayerAddr, timestamp := w.stamp i,
                                   state := .STALE }
    else s

/-- What `ndpProcessRouterAdv` does with the entry of the sender, which is a router. -/
def ndpLearnRouter (w : NdpWorld) (s : NdpInterface) (message : NdpMessage) : NdpInterface :=
  let s := match ndpFindNeighborCacheEntry s message.srcAddr with
    | some i => s.update i ({ · with isRouter := true })
    | none => s
  match message.linkLayerAddr with
  | some linkLayerAddr =>
    ndpLearn w s message.srcAddr linkLayerAddr ({ · with isRouter := true })
  | none => s

def ndpProcessRouterAdv (w : NdpWorld) (s : NdpInterface) (message : NdpMessage)
    (reachableTime retransTimer : Word) : NdpInterface :=
  if !ipv6IsLinkLocalUnicastAddr message.srcAddr ∨ message.hopLimit ≠ NDP_HOP_LIMIT ∨
      message.code ≠ 0 ∨ !message.checked then s
  else
    -- a value of zero means unspecified
    let s := { s with
      reachableTime := if reachableTime ≠ 0 then reachableTime else s.reachableTime
      retransTimer := if retransTimer ≠ 0 then retransTimer else s.retransTimer }
    ndpLearnRouter w s message

/-- What the loop of `ndpProcessNeighborSol` finds out about the target. -/
inductive TargetCheck
  | tentative (i : Nat) | assigned | unknown
  deriving DecidableEq, Repr

def ndpCheckTarget (s : NdpInterface) (targetAddr : Ipv6Addr) : TargetCheck :=
  match s.addrList.findIdx? fun e => e.addr = targetAddr ∧ e.state ≠ .INVALID with
  | some i => if (s.addrList.getD i {}).state = .TENTATIVE then .tentative i else .assigned
  | none => .unknown

def ndpProcessNeighborSol (w : NdpWorld) (s : NdpInterface) (message : NdpMessage) :
    NdpInterface :=
  if message.hopLimit ≠ NDP_HOP_LIMIT ∨ message.code ≠ 0 ∨
      message.srcAddr = IPV6_UNSPECIFIED_ADDR ∧ !ipv6IsSolicitedNodeAddr message.destAddr ∨
      !message.checked then s
  else
    match ndpCheckTarget s message.targetAddr with
    | .tentative i =>
      if message.srcAddr = IPV6_UNSPECIFIED_ADDR ∧ message.option = none then
        { s with addrList := s.addrList.modify i ({ · with duplicate := true }) }
      else s
    | check =>
      if check = .unknown ∧ !ipv6IsAnycastAddr s message.targetAddr then s
      else
        match message.linkLayerAddr with
        | some linkLayerAddr =>
          if message.srcAddr = IPV6_UNSPECIFIED_ADDR then s
          else ndpLearn w s message.srcAddr linkLayerAddr id
        | none => s

/-- What `ndpProcessNeighborAdv` does with the entry of the target, but for its router flag. -/
def ndpAdvertise (w : NdpWorld) (s : NdpInterface) (flags : NdpFlags)
    (linkLayerAddr : Option MacAddr) (i : Nat) : NdpInterface :=
  let entry := s.entry i
  let differentLinkLayerAddr := linkLayerAddr.any (entry.macAddr ≠ ·)
  if entry.state = .INCOMPLETE then
    match linkLayerAddr with
    | some macAddr =>
      s.update i fun e =>
        let e := { e with macAddr, queueSize := 0, timestamp := w.stamp i }
        if flags.s then { e with timeout := s.reachableTime, state := .REACHABLE }
        else if entry.queueSize > 0 then
          { e with timeout := NDP_DELAY_FIRST_PROBE_TIME, state := .DELAY }
        else { e with state := .STALE }
    | none => s
  else if !flags.o ∧ differentLinkLayerAddr then
    if entry.state = .REACHABLE then
      s.update i fun e => { e with timestamp := w.stamp i, state := .STALE }
    else s
  else if flags.s then
    s.update i fun e => { e with macAddr := linkLayerAddr.getD e.macAddr, timestamp := w.stamp i,
                                 timeout := s.reachableTime, state := .REACHABLE }
  else if differentLinkLayerAddr then
    s.update i fun e => { e with macAddr := linkLayerAddr.getD e.macAddr, timestamp := w.stamp i,
                                 state := .STALE }
  else s

def ndpProcessNeighborAdv (w : NdpWorld) (s : NdpInterface) (message : NdpMessage)
    (flags : NdpFlags) : NdpInterface :=
  if message.hopLimit ≠ NDP_HOP_LIMIT ∨ message.code ≠ 0 ∨
      ipv6IsMulticastAddr message.targetAddr ∨
      ipv6IsMulticastAddr message.destAddr ∧ flags.s ∨ !message.checked then s
  else
    match s.addrList.findIdx? fun e => e.state ≠ .INVALID ∧ e.addr = message.targetAddr with
    | some i => { s with addrList := s.addrList.modify i ({ · with duplicate := true }) }
    | none =>
      match ndpFindNeighborCacheEntry s message.targetAddr with
      | some i =>
        (ndpAdvertise w s flags message.linkLayerAddr i).update i ({ · with isRouter := flags.r })
      | none => s

/-! ## Runs -/

inductive NdpCall
  | resolve (ipAddr : Ipv6Addr)
  | enqueue (alloc : Bool) (ipAddr : Ipv6Addr)
  | update
  | routerAdv (message : NdpMessage) (reachableTime retransTimer : Word)
  | neighborSol (message : NdpMessage)
  | neighborAdv (message : NdpMessage) (flags : NdpFlags)
  /-- The addresses of the interface are changed from elsewhere. -/
  | configure (addrList : List Ipv6AddrEntry) (anycastAddrList : List Ipv6Addr)

def ndpCall (s : NdpInterface) (call : NdpWorld × NdpCall) : NdpInterface :=
  match call.2 with
  | .resolve ipAddr => (ndpResolve call.1 s ipAddr).1
  | .enqueue alloc ipAddr => (ndpEnqueuePacket alloc s ipAddr).1
  | .update => ndpUpdateNeighborCache call.1 s
  | .routerAdv message reachableTime retransTimer =>
    ndpProcessRouterAdv call.1 s message reachableTime retransTimer
  | .neighborSol message => ndpProcessNeighborSol call.1 s message
  | .neighborAdv message flags => ndpProcessNeighborAdv call.1 s message flags
  | .configure addrList anycastAddrList => { s with addrList, anycastAddrList }

end Cyclone
