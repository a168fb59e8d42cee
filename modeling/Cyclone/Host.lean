import Cyclone.Calls

/-!
# Cyclone.Host

The whole stack: the socket table, the tasks that use it and the network. `socketOpen` and
`tcpKillOldestConnection` work on the table; `tcpAccept` gives up the mutex inside its loop and is
cut there into stages.

An event is one section under the mutex: an open, a part of a call, a close, an incoming segment or
a run of `tcpTick`. The answers of the surroundings come with it.
-/

namespace Cyclone

open Serial

/-- The default size of the socket table; the results hold for tables of any size. -/
abbrev SOCKET_MAX_COUNT : Nat := 16

instance : NeZero SOCKET_MAX_COUNT := ⟨by decide⟩

def SOCKET_IP_PROTO_TCP : Nat := 6
def SOCKET_IP_PROTO_UDP : Nat := 17

/-! ## The table -/

structure Entry where
  ctx : Ctx
  /-- the calls suspended on the socket -/
  calls : List (Api × Call) := []
  /-- how many times it was returned to a user who has not closed it since -/
  handles : Nat := 0

/-- Where the loop of a `tcpAccept` stands when the mutex is free. -/
inductive Stage (n : Nat) where
  /-- before the first turn -/
  | start
  /-- in the wait for a connection request -/
  | wait
  /-- before `socketOpen`, for the connection of `item` -/
  | opening (item : TcpSynQueueItem)
  /-- after `socketOpen` -/
  | opened (item : TcpSynQueueItem) (newSocket : Option (Fin n))
  deriving DecidableEq, Repr

structure Accepting (n : Nat) where
  api : Api
  socket : Fin n
  stage : Stage n
  deriving DecidableEq, Repr

structure Host (n : Nat) where
  table : Fin n → Entry
  accepts : List (Accepting n) := []
  tcpDynamicPort : Nat := 0
  udpDynamicPort : Nat := 0

/-- `socketInit`: the table is cleared and every entry gets its number. -/
def socketInit (n : Nat) : Host n where
  table := fun i => { ctx := { descriptor := i, toEnv := Env.granting } }

variable {n : Nat}

namespace Host

def setEntry (h : Host n) (i : Fin n) (e : Entry) : Host n :=
  { h with table := fun j => if j = i then e else h.table j }

@[simp] theorem setEntry_same (h : Host n) (i : Fin n) (e : Entry) :
    (h.setEntry i e).table i = e := by simp [setEntry]

@[simp] theorem setEntry_setEntry (h : Host n) (i : Fin n) (e e' : Entry) :
    (h.setEntry i e).setEntry i e' = h.setEntry i e' := by
  unfold setEntry
  congr 1
  funext j
  by_cases hj : j = i <;> simp [hj]

/-- The socket of entry `i` is replaced. -/
def setCtx (h : Host n) (i : Fin n) (c : Ctx) : Host n :=
  h.setEntry i { h.table i with ctx := c }

/-- A handle to entry `i` is returned to a user. -/
def addHandle (h : Host n) (i : Fin n) : Host n :=
  h.setEntry i { h.table i with handles := (h.table i).handles + 1 }

/-- A user gives a handle to entry `i` back. -/
def dropHandle (h : Host n) (i : Fin n) : Host n :=
  h.setEntry i { h.table i with handles := (h.table i).handles - 1 }

/-- The socket of entry `i`, with the surroundings of the step. -/
def ctxOf (h : Host n) (i : Fin n) (env : Env) : Ctx := { (h.table i).ctx with toEnv := env }

/-- A part of a call ends: the call is suspended again or it has returned. -/
def finish (h : Host n) (i : Fin n) (api : Api) (r : Ctx × Progress) : Host n :=
  match r.2 with
  | .blocked call => h.setEntry i { h.table i with ctx := r.1, calls := (h.table i).calls ++ [(api, call)] }
  | .done _ => h.setCtx i r.1

end Host

/-! ## Opening -/

/-- `tcpGetDynamicPort` and `udpGetDynamicPort`: the port and the next value of the counter. -/
def getDynamicPort (env : Env) (dynamicPort : Nat) : Env × Nat × Nat :=
  let (env, port) :=
    if dynamicPort < SOCKET_EPHEMERAL_PORT_MIN ∨ dynamicPort > SOCKET_EPHEMERAL_PORT_MAX then
      let (env, r) := netGetRand env
      (env, SOCKET_EPHEMERAL_PORT_MIN +
        r.toNat % (SOCKET_EPHEMERAL_PORT_MAX - SOCKET_EPHEMERAL_PORT_MIN + 1))
    else (env, dynamicPort)
  (env, port, if port < SOCKET_EPHEMERAL_PORT_MAX then port + 1 else SOCKET_EPHEMERAL_PORT_MIN)

/-- Of the oldest connection so far and entry `i`, the older one; the first when they are equally
old. -/
def older (h : Host n) (time : Word) (oldest : Option (Fin n)) (i : Fin n) : Option (Fin n) :=
  match oldest with
  | none => some i
  | some j =>
    if time - (h.table i).ctx.timeWaitTimer.startTime >
        time - (h.table j).ctx.timeWaitTimer.startTime then some i
    else some j

/-- The loop of `tcpKillOldestConnection`. -/
def oldestTimeWait (h : Host n) (time : Word) : Option (Fin n) :=
  (List.finRange n).foldl (fun oldest i =>
    if (h.table i).ctx.type = .STREAM ∧ (h.table i).ctx.state = .TIME_WAIT then
      older h time oldest i
    else oldest) none

/-- `tcpKillOldestConnection`. -/
def tcpKillOldestConnection (h : Host n) (env : Env) : Host n × Option (Fin n) :=
  match oldestTimeWait h (osGetSystemTime env) with
  | some i => (h.setCtx i (closeSocket (h.ctxOf i env)), some i)
  | none => (h, none)

/-- The first unused entry, by the loop of `socketOpen`. -/
def findUnused (h : Host n) : Option (Fin n) :=
  (List.finRange n).find? fun i => (h.table i).ctx.type = .UNUSED

/-- The structure `socketOpen` leaves in the entry: zeroed but for the descriptor and the event
object, with the characteristics of the new socket. -/
def openedSocket (s : Socket) (type : SocketType) (protocol : Nat) (localPort : Port) : Socket where
  descriptor := s.descriptor
  event := s.event
  type := type
  protocol := protocol
  localPort := localPort
  timeout := INFINITE_DELAY
  txBufferSize := min TCP_DEFAULT_TX_BUFFER_SIZE TCP_MAX_TX_BUFFER_SIZE
  rxBufferSize := min TCP_DEFAULT_RX_BUFFER_SIZE TCP_MAX_RX_BUFFER_SIZE

/-- The assignments of `Socket_Open`, which leave the timers as they are. -/
def Spark.openedSocket (s : Socket) (type : SocketType) (protocol : Nat) (localPort : Port) :
    Socket :=
  { s with
    type, protocol, localPort
    timeout := INFINITE_DELAY
    remoteIpAddr := { s.remoteIpAddr with length := 0 }
    localIpAddr := { s.localIpAddr with length := 0 }
    remotePort := 0, interface := none
    eventMask := 0, eventFlags := 0
    toTcpCtl := {}, toSndVars := {}, toWndVars := {}, toRttVars := {}, toCongestVars := {}
    irs := 0, rcvNxt := 0, rcvUser := 0, rcvWnd := 0, sackBlock := []
    smss := TCP_DEFAULT_MSS, rmss := TCP_DEFAULT_MSS
    txBuffer := { s.txBuffer with chunk := [] }, txBufferSize := TCP_DEFAULT_TX_BUFFER_SIZE
    rxBuffer := { s.rxBuffer with chunk := [] }, rxBufferSize := TCP_DEFAULT_RX_BUFFER_SIZE
    retransmitQueue := [], retransmitCount := 0
    synQueue := [], synQueueSize := TCP_DEFAULT_SYN_QUEUE_SIZE
    wndProbeCount := 0, wndProbeInterval := 0 }

def Api.openedSocket : Api → Socket → SocketType → Nat → Port → Socket
  | .c => Cyclone.openedSocket
  | .spark _ => Spark.openedSocket

/-- The protocol and the port of a new socket. -/
def openPort (h : Host n) (env : Env) (type : SocketType) (protocol : Nat) :
    Host n × Env × Nat × Nat :=
  match type with
  | .STREAM =>
    let (env, port, tcpDynamicPort) := getDynamicPort env h.tcpDynamicPort
    ({ h with tcpDynamicPort }, env, SOCKET_IP_PROTO_TCP, port)
  | .DGRAM =>
    let (env, port, udpDynamicPort) := getDynamicPort env h.udpDynamicPort
    ({ h with udpDynamicPort }, env, SOCKET_IP_PROTO_UDP, port)
  | _ => (h, env, protocol, 0)

/-- An entry for a new socket: an unused one, or else the oldest connection in TIME-WAIT. -/
def takeEntry (h : Host n) (env : Env) : Host n × Option (Fin n) :=
  match findUnused h with
  | some i => (h, some i)
  | none => tcpKillOldestConnection h env

/-- `socketOpen` and `Socket_Open`. -/
def socketOpen (api : Api) (h : Host n) (env : Env) (type : SocketType) (protocol : Nat) :
    Host n × Option (Fin n) :=
  if type = .UNUSED then (h, none)
  else
    let (h, env, protocol, port) := openPort h env type protocol
    match takeEntry h env with
    | (h, some i) =>
      let c := (h.table i).ctx
      let s := api.openedSocket c.toSocket type protocol (BitVec.ofNat 16 port)
      (h.setCtx i { c with toSocket := s }, some i)
    | (h, none) => (h, none)

/-! ## Accepting -/

/-- The head of the loop of `tcpAccept`: wait for a request when there is none. -/
def acceptTurn (h : Host n) (i : Fin n) : Host n × Stage n :=
  let c := (h.table i).ctx
  match c.synQueue with
  | [] => (h.setCtx i { c with eventMask := SOCKET_EVENT_RX_READY, event := false }, .wait)
  | item :: _ => (h, .opening item)

/-- `tcpAccept` once it has the new socket `j`: a connection in SYN-RECEIVED, or the socket is
disposed of and the loop goes on. The code resets the congestion state of the listening socket. -/
def acceptOn (h : Host n) (env : Env) (i j : Fin n) (item : TcpSynQueueItem) :
    Host n × Option (Stage n) :=
  let socket := (h.table i).ctx.toSocket
  let h := if (acceptAlloc socket (h.ctxOf j env)).2 = .NO_ERROR then
      h.setCtx i { (h.table i).ctx with congestState := .IDLE }
    else h
  match acceptOpen socket item (h.ctxOf j env) with
  | (c, .NO_ERROR) =>
    let h := h.setCtx i (tcpUpdateEvents (popSyn (h.table i).ctx))
    ((h.setCtx j (tcpChangeState c .SYN_RECEIVED)).addHandle j, none)
  | (c, _) =>
    let h := h.setCtx j (tcpAbort c).1
    (h.setCtx i (popSyn (h.table i).ctx), some .start)

/-- One section of `tcpAccept`, and the stage it is left in; `none` means that it has returned. -/
def acceptStep (api : Api) (h : Host n) (env : Env) (i : Fin n) : Stage n → Host n × Option (Stage n)
  | .start =>
    let (h, stage) := acceptTurn h i
    (h, some stage)
  | .wait =>
    match (h.table i).ctx.synQueue with
    | [] => (h, none)
    | item :: _ => (h, some (.opening item))
  | .opening item =>
    let (h, newSocket) := socketOpen api h env .STREAM SOCKET_IP_PROTO_TCP
    (h, some (.opened item newSocket))
  | .opened item (some j) => acceptOn h env i j item
  | .opened _ none => (h.setCtx i (popSyn (h.table i).ctx), some .start)

/-! ## Closing -/

/-- `socketClose`. -/
def socketClose (c : Ctx) : Ctx :=
  match c.type with
  | .STREAM => (tcpAbort c).1
  | .DGRAM | .RAW_IP | .RAW_ETH => { c with type := .UNUSED }
  | .UNUSED => c

/-! ## Incoming segments -/

/-- An address of a socket admits one of a segment: it is not set, or it is the same. -/
def addrMatches (addr : IpAddr) (v4 : Bool) (ipv4Addr : Ipv4Addr) (ipv6Addr : Ipv6Addr) : Bool :=
  addr.length == 0 ||
    (if v4 then addr.length == sizeofIpv4Addr && addr.ipv4Addr == ipv4Addr
     else addr.length == sizeofIpv6Addr && addr.ipv6Addr == ipv6Addr)

/-- The filters of `tcpProcessSegment` but for the source port. -/
def segmentMatches (s : Socket) (p : Packet) : Bool :=
  let ph := p.pseudoHeader
  let v4 := ph.length == sizeofIpv4PseudoHeader
  s.type == .STREAM && (s.interface.isNone || s.interface == some p.interface) &&
    s.localPort != 0 && s.localPort == p.segment.destPort &&
    (v4 || ph.length == sizeofIpv6PseudoHeader) &&
    addrMatches s.localIpAddr v4 ph.ipv4DestAddr ph.ipv6DestAddr &&
    addrMatches s.remoteIpAddr v4 ph.ipv4SrcAddr ph.ipv6SrcAddr

/-- The socket `tcpProcessSegment` finds: the first match, else the first match that listens. -/
def findSocket (h : Host n) (p : Packet) : Option (Fin n) :=
  let found := (List.finRange n).find? fun i =>
    segmentMatches (h.table i).ctx.toSocket p && (h.table i).ctx.remotePort == p.segment.srcPort
  found <|> (List.finRange n).find? fun i =>
    segmentMatches (h.table i).ctx.toSocket p && (h.table i).ctx.state == .LISTEN

/-- `tcpProcessSegment` on a well-formed segment. When no socket is found the answer, a reset,
concerns no entry of the table. -/
def tcpProcessSegment (h : Host n) (env : Env) (p : Packet) : Host n :=
  match findSocket h p with
  | some i => h.setCtx i (tcpProcessState (h.ctxOf i env) p)
  | none => h

/-- `tcpTick`: every entry is looked at; `env i` answers the calls made for entry `i`. -/
def tcpTick (h : Host n) (env : Fin n → Env) : Host n :=
  { h with table := fun i => { h.table i with ctx := tcpTickSocket (h.ctxOf i (env i)) } }

/-! ## Events -/

inductive HostEvent (n : Nat) where
  | open (api : Api) (env : Env) (type : SocketType) (protocol : Nat)
  | accept (api : Api) (i : Fin n)
  /-- the next section of the accept at this place of the list -/
  | acceptNext (env : Env) (k : Nat)
  | start (api : Api) (env : Env) (i : Fin n) (req : Request)
  /-- the call at this place of the list of the entry goes on -/
  | resume (env : Env) (i : Fin n) (k : Nat)
  | close (env : Env) (i : Fin n)
  | segment (env : Env) (p : Packet)
  | tick (env : Fin n → Env)

/-- A user holds a handle to entry `i`, and it is a stream socket. -/
def Host.usable (h : Host n) (i : Fin n) : Bool :=
  (h.table i).handles != 0 && (h.table i).ctx.type == .STREAM

/-- `tcpAccept` is called; the C code looks at the state first. -/
def acceptCall (api : Api) (h : Host n) (i : Fin n) : Host n :=
  if api = .c ∧ (h.table i).ctx.state ≠ .LISTEN then h
  else { h with accepts := h.accepts ++ [⟨api, i, .start⟩] }

/-- The accept at place `k` goes on. -/
def acceptResume (h : Host n) (env : Env) (k : Nat) : Host n :=
  match h.accepts[k]? with
  | none => h
  | some a =>
    let h := { h with accepts := h.accepts.eraseIdx k }
    match acceptStep a.api h env a.socket a.stage with
    | (h, some stage) => { h with accepts := h.accepts ++ [{ a with stage }] }
    | (h, none) => h

/-- The call at place `k` of entry `i` goes on. -/
def callResume (h : Host n) (env : Env) (i : Fin n) (k : Nat) : Host n :=
  match (h.table i).calls[k]? with
  | none => h
  | some (api, call) =>
    let h := h.setEntry i { h.table i with calls := (h.table i).calls.eraseIdx k }
    h.finish i api (resumeCall api (h.ctxOf i env) call)

def hostStep (h : Host n) : HostEvent n → Host n
  | .open api env type protocol =>
    match socketOpen api h env type protocol with
    | (h, some i) => h.addHandle i
    | (h, none) => h
  | .accept api i => if h.usable i then acceptCall api h i else h
  | .acceptNext env k => acceptResume h env k
  | .start api env i req => if h.usable i then h.finish i api (start api (h.ctxOf i env) req) else h
  | .resume env i k => callResume h env i k
  | .close env i =>
    if (h.table i).handles ≠ 0 then (h.setCtx i (socketClose (h.ctxOf i env))).dropHandle i else h
  | .segment env p => tcpProcessSegment h env p
  | .tick env => tcpTick h env

end Cyclone
