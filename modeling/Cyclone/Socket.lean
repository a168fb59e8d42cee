import Cyclone.NetMem

/-!
# Cyclone.Socket

The socket record of `socket.h` and the context a stack function runs in.

The fields are grouped by what reads and writes them together, and every group keeps the source's
names. `SockCore` holds what the stream, state and handle invariants talk about; `SockAux` holds
the rest (events, windows of the peer, RTT and congestion estimators, timers).

A stack function runs with the network mutex held on one socket: `Ctx` is that socket, the answers
of the surroundings (`Env`) and a log (`Trace`). The log is written where the code calls out or
reports something, and no modelled function reads it.
-/

namespace Cyclone

open Serial

/-! ## Socket fields -/

structure SockId where
  descriptor : Nat := 0
  type : SocketType := .UNUSED
  protocol : Nat := 0
  interface : Option NetInterface := none
  localIpAddr : IpAddr := {}
  localPort : Port := 0
  remoteIpAddr : IpAddr := {}
  remotePort : Port := 0
  timeout : Word := 0
  deriving DecidableEq, Repr

structure TcpCtl where
  state : TcpState := .CLOSED
  ownedFlag : Bool := false
  closedFlag : Bool := false
  resetFlag : Bool := false
  deriving DecidableEq, Repr

structure SndVars where
  iss : Word := 0
  sndUna : Word := 0
  sndNxt : Word := 0
  sndUser : Nat := 0
  deriving DecidableEq, Repr

/-- `sackBlock` is the list of the first `sackBlockCount` entries of the array. -/
structure RcvVars where
  irs : Word := 0
  rcvNxt : Word := 0
  rcvUser : Nat := 0
  rcvWnd : Nat := 0
  sackBlock : List TcpSackBlock := []
  deriving DecidableEq, Repr

structure BufVars where
  txBuffer : NetBuffer := {}
  txBufferSize : Nat := 0
  rxBuffer : NetBuffer := {}
  rxBufferSize : Nat := 0
  deriving DecidableEq, Repr

structure QueueVars where
  retransmitQueue : List TcpQueueItem := []
  synQueue : List TcpSynQueueItem := []
  synQueueSize : Nat := 0
  deriving DecidableEq, Repr

structure PersistVars where
  wndProbeInterval : Word := 0
  deriving DecidableEq, Repr

structure SockEvents where
  eventMask : SocketEvent := 0
  eventFlags : SocketEvent := 0
  event : Bool := false
  deriving DecidableEq, Repr

structure MssVars where
  smss : Nat := 0
  rmss : Nat := 0
  deriving DecidableEq, Repr

structure WndVars where
  sndWnd : Nat := 0
  maxSndWnd : Nat := 0
  sndWl1 : Word := 0
  sndWl2 : Word := 0
  deriving DecidableEq, Repr

structure RttVars where
  rttBusy : Bool := false
  rttSeqNum : Word := 0
  rttStartTime : Word := 0
  srtt : Word := 0
  rttvar : Word := 0
  rto : Word := 0
  deriving DecidableEq, Repr

structure CongestVars where
  congestState : TcpCongestState := .IDLE
  cwnd : Nat := 0
  ssthresh : Nat := 0
  dupAckCount : Word := 0
  n : Word := 0
  recover : Word := 0
  deriving DecidableEq, Repr

structure TimerVars where
  retransmitTimer : TcpTimer := {}
  retransmitCount : Nat := 0
  wndProbeCount : Nat := 0
  persistTimer : TcpTimer := {}
  overrideTimer : TcpTimer := {}
  finWait2Timer : TcpTimer := {}
  timeWaitTimer : TcpTimer := {}
  deriving DecidableEq, Repr

structure SockCore extends SockId, TcpCtl, SndVars, RcvVars, BufVars, QueueVars, PersistVars
  deriving DecidableEq, Repr

structure SockAux extends SockEvents, MssVars, WndVars, RttVars, CongestVars, TimerVars
  deriving DecidableEq, Repr

/-- `Socket`. The default value is the zeroed structure. -/
structure Socket extends SockCore, SockAux
  deriving DecidableEq, Repr

/-! ## The log -/

/-- A segment handed to `ipSendDatagram`, with `sndUna` as it was then. -/
structure Emission where
  pseudoHeader : IpPseudoHeader
  header : TcpHeader
  data : List UInt8
  sndUna : Word
  deriving DecidableEq, Repr

/-- One `netBufferRead` of `tcpReadRxBuffer`: bytes asked for and bytes copied. -/
structure RxRead where
  requested : Nat
  copied : Nat
  deriving DecidableEq, Repr

structure Trace where
  /-- segments handed to the IP layer -/
  sent : List Emission := []
  /-- calls of `tcpChangeState`: state before, state entered -/
  changes : List (TcpState × TcpState) := []
  /-- reads of the receive buffer -/
  reads : List RxRead := []
  /-- bytes `tcpSend` has accepted since the connection was initialised -/
  accepted : List UInt8 := []
  /-- bytes `tcpReceive` has returned since the connection was initialised -/
  delivered : List UInt8 := []
  /-- the peer's FIN has been consumed -/
  finRcvd : Bool := false
  /-- FIN segments counted in `sndNxt` -/
  finSent : Nat := 0
  deriving DecidableEq, Repr

/-- The part of a context the invariants of the connection are stated on. -/
structure Kernel extends SockCore, Trace
  deriving DecidableEq, Repr

structure Ctx extends Socket, Trace, Env

def Ctx.kernel (c : Ctx) : Kernel := ⟨c.toSockCore, c.toTrace⟩

/-- Surroundings that grant every request, at time zero, with one IPv4 interface. -/
def Env.granting : Env where
  clock := fun _ => 0
  memAvail := fun _ => true
  memFill := fun _ => 0
  ipSend := fun _ => .NO_ERROR
  rand := fun _ => 0
  selectSourceAddr := fun _ _ _ =>
    (.NO_ERROR, some 0, { length := sizeofIpv4Addr, ipv4Addr := 0x0A000001 })
  linkState := fun _ => true

/-! ## Timers -/

def tcpTimerStart (e : Env) (delay : Word) : TcpTimer :=
  { running := true, startTime := osGetSystemTime e, interval := delay }

def tcpTimerStop (timer : TcpTimer) : TcpTimer := { timer with running := false }

def tcpTimerRunning (timer : TcpTimer) : Bool := timer.running

/-- `tcpTimerElapsed`; `timeCompare` is the signed comparison of two times. -/
def tcpTimerElapsed (e : Env) (timer : TcpTimer) : Bool :=
  timer.running && decide (cmpSeq (osGetSystemTime e) (timer.startTime + timer.interval) ≥ 0)

end Cyclone
