import Cyclone.Tcp
import Cyclone.Lib.Run

/-!
# Cyclone.Kernel

What the stack can do to a connection, in small steps.

`Work rx` lists the steps that leave the TCP state alone, with `Send rx` for those of the sending
side, and `Move rx` the steps that change it. Each step carries the tests the code has made before
it, `rx` is the segment being processed, if any.
Every state function, timer and user call is a chain of such steps (`Cyclone.Steps`), so an
invariant of the connection is proved once for each step.

The steps act on the `Kernel` of a context: windows of the peer, round trip and congestion
estimators, timers and events are left open.
-/

namespace Cyclone

open Serial

namespace TcpState

/-- Both sides' SYNs are known: the states from SYN-RECEIVED on. -/
def connected : TcpState → Bool
  | .CLOSED | .LISTEN | .SYN_SENT => false
  | _ => true

/-- The states in which `tcpSend` accepts data and the Nagle algorithm runs. -/
def sendable : TcpState → Bool
  | .ESTABLISHED | .CLOSE_WAIT => true
  | _ => false

/-- The states in which the text of a segment is processed. -/
def receptive : TcpState → Bool
  | .ESTABLISHED | .FIN_WAIT_1 | .FIN_WAIT_2 => true
  | _ => false

/-- The states whose handler calls `tcpCheckAck`. -/
def acking : TcpState → Bool
  | .ESTABLISHED | .CLOSE_WAIT | .FIN_WAIT_1 | .FIN_WAIT_2 | .CLOSING => true
  | _ => false

end TcpState

/-! ## Data of the steps -/

/-- The bytes of the transmit buffer from sequence number `seqNum` on. -/
def txRead (s : SockCore) (seqNum : Word) (n : Nat) : List UInt8 :=
  Ring.read s.txBufferSize s.txBuffer.bytes (seqNum - s.iss - 1).toNat n

namespace Kernel

/-- `tcpChangeState`. -/
def enter (k : Kernel) (newState : TcpState) : Kernel :=
  let k' : Kernel :=
    if newState = .CLOSED then
      if k.state = .LAST_ACK ∨ k.state = .TIME_WAIT then { k with closedFlag := true }
      else { k with resetFlag := true }
    else k
  { k' with state := newState, changes := k.changes ++ [(k.state, newState)] }

/-- `tcpDeleteControlBlock`. -/
def released (k : Kernel) : Kernel :=
  { k with retransmitQueue := [], synQueue := [], txBuffer := { k.txBuffer with chunk := [] },
           rxBuffer := { k.rxBuffer with chunk := [] } }

/-- A segment leaves the stack. -/
def emit (k : Kernel) (es : List Emission) : Kernel := { k with sent := k.sent ++ es }

/-- A segment is queued for retransmission and sent. -/
def post (k : Kernel) (ph : IpPseudoHeader) (h : TcpHeader) (n : Nat) : Kernel :=
  { k with retransmitQueue := k.retransmitQueue ++ [⟨n, false, ph, h⟩],
           sent := k.sent ++ [⟨ph, h, txRead k.toSockCore h.seqNum n, k.sndUna⟩] }

/-- The FIN of the peer is consumed. -/
def takeFin (k : Kernel) : Kernel := { k with rcvNxt := k.rcvNxt + 1, finRcvd := true }

/-- Our FIN takes its sequence number. -/
def countFin (k : Kernel) : Kernel :=
  { k with sndNxt := k.sndNxt + 1, finSent := k.finSent + 1 }

/-- Entirely acknowledged segments leave the retransmission queue. -/
def pruned (k : Kernel) : Kernel :=
  { k with retransmitQueue := k.retransmitQueue.filter fun item => !item.acked k.sndUna }

/-- The SYN of the peer, with sequence number `isn`, is taken in. -/
def takeSyn (k : Kernel) (isn una : Word) : Kernel :=
  { k with irs := isn, rcvNxt := isn + 1, sndUna := una }

/-- An acknowledgment can be formed: the peer's sequence numbers are known. -/
def ackReady (k : Kernel) : Prop := k.state.connected ∨ k.closedFlag

end Kernel

/-- A bare acknowledgment of what has been received. -/
def IsAck (k : Kernel) (e : Emission) : Prop :=
  e.sndUna = k.sndUna ∧ e.data = [] ∧ e.header.flags = { ack := true } ∧
    e.header.seqNum = k.sndNxt ∧ e.header.ackNum = k.rcvNxt

/-- A zero window probe: a bare acknowledgment one below `SND.NXT`. -/
def IsProbe (k : Kernel) (e : Emission) : Prop :=
  e.sndUna = k.sndUna ∧ e.data = [] ∧ e.header.flags = { ack := true } ∧
    e.header.seqNum = k.sndNxt - 1 ∧ e.header.ackNum = k.rcvNxt

/-- A reset. -/
def IsReset (k : Kernel) (e : Emission) : Prop :=
  e.sndUna = k.sndUna ∧ e.data = [] ∧ e.header.flags.rst = true

/-- The segment `p` was found acceptable, and it is neither a RST nor a SYN. -/
def Accepted (k : Kernel) (p : Packet) : Prop :=
  seqAcceptable k.toSockCore p.segment p.length = true ∧ p.segment.flags.rst = false ∧
    p.segment.flags.syn = false ∧ p.segment.flags.ack = true

/-- The segment `p` ends with a FIN right behind everything received so far. -/
def FinArrived (k : Kernel) (p : Packet) : Prop :=
  p.segment.flags.fin = true ∧ k.rcvNxt = p.segment.seqNum + w32 p.length

/-! ## Steps inside a state -/

/-- The steps of the sending side: nothing that concerns reception changes. -/
inductive Send (rx : Option Packet) : Kernel → Kernel → Prop where
  | sendAck {k : Kernel} {e : Emission} (hs : k.ackReady) (he : IsAck k e) : Send rx k (k.emit [e])
  | sendProbe {k : Kernel} {e : Emission} (hs : k.wndProbeInterval ≠ 0) (he : IsProbe k e) :
      Send rx k (k.emit [e])
  | sendReset {k : Kernel} {e : Emission} (he : IsReset k e) : Send rx k (k.emit [e])
  /-- `tcpRetransmitSegment` resends a queued segment from the transmit buffer. -/
  | resend {k : Kernel} {item : TcpQueueItem} (hi : item ∈ k.retransmitQueue)
      (hd : (txRead k.toSockCore item.header.seqNum item.length).length = item.length) :
      Send rx k (k.emit [⟨item.pseudoHeader, item.header,
        txRead k.toSockCore item.header.seqNum item.length, k.sndUna⟩])
  /-- One turn of the sending loop; the IP layer may refuse the segment (`ok` is false). -/
  | sendData {k : Kernel} {ph : IpPseudoHeader} {h : TcpHeader} {n : Nat} (ok : Bool)
      (hs : k.state.sendable) (hn : n ≤ k.sndUser) (hf : h.flags = { psh := true, ack := true })
      (hq : h.seqNum = k.sndNxt) (ha : h.ackNum = k.rcvNxt)
      (hd : (txRead k.toSockCore h.seqNum n).length = n) :
      Send rx k (if ok then { k.post ph h n with sndNxt := k.sndNxt + w32 n,
                                                 sndUser := u16Sub k.sndUser n }
                 else k.post ph h n)
  /-- `tcpCheckAck` advances `SND.UNA`. -/
  | ack {k : Kernel} {p : Packet} (hp : rx = some p) (hs : k.state.acking)
      (ha : p.segment.flags.ack = true) (h1 : 0 < cmpSeq p.segment.ackNum k.sndUna)
      (h2 : cmpSeq p.segment.ackNum k.sndNxt ≤ 0) :
      Send rx k { k with sndUna := p.segment.ackNum }
  | prune {k : Kernel} : Send rx k k.pruned
  | setProbe {k : Kernel} (w : Word) (hs : k.state.acking ∨ k.wndProbeInterval ≠ 0) :
      Send rx k { k with wndProbeInterval := w }

/-- The steps that leave the TCP state alone. -/
inductive Work (rx : Option Packet) : Kernel → Kernel → Prop where
  | send {k k' : Kernel} (h : Send rx k k') : Work rx k k'
  /-- `tcpProcessSegmentData` stores the text of an acceptable segment. -/
  | receive {k : Kernel} {p : Packet} (hp : rx = some p) (hs : k.state.receptive)
      (ha : Accepted k p) (hl : 0 < p.length) :
      Work rx k { k with
        toSockCore := (receiveData k.toSockCore p.segment p.buffer p.offset p.length).1 }
  /-- `tcpStateListen` queues a connection request. -/
  | queueSyn {k : Kernel} {p : Packet} {item : TcpSynQueueItem} (hp : rx = some p)
      (hs : k.state = .LISTEN) (h1 : p.segment.flags.syn = true) (h2 : p.segment.flags.ack = false)
      (h3 : p.segment.flags.rst = false) (hi : item.isn = p.segment.seqNum) :
      Work rx k { k with synQueue := k.synQueue ++ [item] }
  /-- `tcpSend` stores user data behind everything accepted so far. -/
  | write {k : Kernel} {data : List UInt8} (hu : rx = none) (hs : k.state.sendable)
      (hn : (w32 k.sndUser + k.sndNxt - k.sndUna).toNat + data.length ≤ k.txBufferSize) :
      Work rx k { k with
        toSockCore := { tcpWriteTxBuffer k.toSockCore (k.sndNxt + w32 k.sndUser) data with
          sndUser := u16 (k.sndUser + data.length) }
        accepted := k.accepted ++ data }
  /-- `tcpReceive` copies a piece out and consumes `n` bytes of it. -/
  | read {k : Kernel} {seqNum : Word} {received : Nat} {data : List UInt8} {n : Nat}
      (hu : rx = none) (hp : readPosition k.toSockCore received = .ok seqNum)
      (hn : n ≤ (readPiece k.toSockCore seqNum data received).1.length) :
      Work rx k { k with
        rcvUser := u16Sub k.rcvUser n
        reads := k.reads ++ (readPiece k.toSockCore seqNum data received).2
        delivered := k.delivered ++ (readPiece k.toSockCore seqNum data received).1.take n }
  /-- `tcpUpdateReceiveWindow` opens the window. -/
  | openWindow {k : Kernel} (hu : rx = none) :
      Work rx k { k with rcvWnd := u16 (k.rcvWnd + windowReduction k.toSockCore) }

/-! ## Steps between states -/

inductive Move (rx : Option Packet) : Kernel → Kernel → Prop where
  | close {k : Kernel} (hs : k.state ≠ .CLOSED) : Move rx k (k.enter .CLOSED)
  /-- A closed socket its user has let go of is returned to the table. -/
  | dispose {k : Kernel} (hs : k.state = .CLOSED) (ho : k.ownedFlag = false) :
      Move rx k { k.released with type := .UNUSED }
  /-- SYN-SENT gets a SYN that acknowledges its own. -/
  | opened {k : Kernel} {p : Packet} {una : Word} {es : List Emission} (hp : rx = some p)
      (hs : k.state = .SYN_SENT) (hf : p.segment.flags.syn = true ∧ p.segment.flags.rst = false)
      (ha : p.segment.flags.ack = true ∧ p.segment.ackNum = k.sndNxt ∧ una = k.sndNxt ∨
        p.segment.flags.ack = false ∧ una = k.sndUna)
      (hu : 0 < cmpSeq una k.iss)
      (he : ∀ e ∈ es, IsAck (k.takeSyn p.segment.seqNum una) e) :
      Move rx k (((k.takeSyn p.segment.seqNum una).pruned.emit es).enter .ESTABLISHED)
  /-- SYN-SENT gets a SYN that does not: both sides open at once. -/
  | crossed {k k' : Kernel} {p : Packet} {una : Word} (hp : rx = some p)
      (hs : k.state = .SYN_SENT) (hf : p.segment.flags.syn = true ∧ p.segment.flags.rst = false)
      (ha : p.segment.flags.ack = true ∧ p.segment.ackNum = k.sndNxt ∧ una = k.sndNxt ∨
        p.segment.flags.ack = false ∧ una = k.sndUna)
      (hu : cmpSeq una k.iss ≤ 0)
      (he : k' = (k.takeSyn p.segment.seqNum una).pruned ∨
        ∃ ph h, h.flags = { syn := true, ack := true } ∧ h.seqNum = k.iss ∧
          h.ackNum = p.segment.seqNum + 1 ∧
          k' = (k.takeSyn p.segment.seqNum una).pruned.post ph h 0) :
      Move rx k (k'.enter .SYN_RECEIVED)
  /-- SYN-RECEIVED gets the acknowledgment of its SYN. -/
  | accepted {k : Kernel} {p : Packet} (hp : rx = some p) (hs : k.state = .SYN_RECEIVED)
      (ha : Accepted k p) (hn : p.segment.ackNum = k.sndNxt) : Move rx k (k.enter .ESTABLISHED)
  /-- FIN-WAIT-1 gets the acknowledgment of its FIN. -/
  | finAcked {k : Kernel} {p : Packet} (hp : rx = some p) (hs : k.state = .FIN_WAIT_1)
      (ha : Accepted k p) (hn : p.segment.ackNum = k.sndNxt) : Move rx k (k.enter .FIN_WAIT_2)
  /-- The FIN of the peer: ESTABLISHED goes to CLOSE-WAIT, FIN-WAIT-1 to CLOSING. -/
  | fin {k : Kernel} {p : Packet} {es : List Emission} (next : TcpState) (hp : rx = some p)
      (hs : k.state = .ESTABLISHED ∧ next = .CLOSE_WAIT ∨ k.state = .FIN_WAIT_1 ∧ next = .CLOSING)
      (hf : FinArrived k p) (he : ∀ e ∈ es, IsAck k.takeFin e) :
      Move rx k ((k.takeFin.emit es).enter next)
  /-- The FIN of the peer in FIN-WAIT-2: the control block is released. -/
  | finTimeWait {k : Kernel} {p : Packet} {es : List Emission} (hp : rx = some p)
      (hs : k.state = .FIN_WAIT_2) (hf : FinArrived k p) (he : ∀ e ∈ es, IsAck k.takeFin e) :
      Move rx k ((k.takeFin.emit es).released.enter .TIME_WAIT)
  /-- CLOSING gets the acknowledgment of its FIN. -/
  | closingAcked {k : Kernel} {p : Packet} (hp : rx = some p) (hs : k.state = .CLOSING)
      (ha : Accepted k p) (hn : p.segment.ackNum = k.sndNxt) :
      Move rx k (k.released.enter .TIME_WAIT)

/-- The FIN of `tcpShutdown` is queued and sent; when the IP layer refuses it nothing else
happens, else the state `next` is entered. -/
inductive FinStep (next : TcpState) : Kernel → Kernel → Prop where
  | tried {k : Kernel} {ph : IpPseudoHeader} {h : TcpHeader}
      (hf : h.flags = { fin := true, ack := true }) (hq : h.seqNum = k.sndNxt)
      (ha : h.ackNum = k.rcvNxt) : FinStep next k (k.post ph h 0)
  | sent {k : Kernel} {ph : IpPseudoHeader} {h : TcpHeader}
      (hf : h.flags = { fin := true, ack := true }) (hq : h.seqNum = k.sndNxt)
      (ha : h.ackNum = k.rcvNxt) :
      FinStep next k ((k.post ph h 0).countFin.enter next)

end Cyclone
