import Cyclone.TcpMisc

/-!
# Cyclone.TcpFsm

The state machine of `tcp_fsm.c`: one function for each TCP state, and the dispatch on the state
of the socket a segment was matched to.
-/

namespace Cyclone

open Serial

/-- An incoming segment as `tcpProcessSegment` hands it to the state functions: `offset` is the
first data byte in `buffer` and `length` the number of data bytes. -/
structure Packet where
  interface : NetInterface := 0
  pseudoHeader : IpPseudoHeader := {}
  segment : TcpHeader
  buffer : NetBuffer
  offset : Nat
  length : Nat
  deriving DecidableEq, Repr

/-- Continue with `k` when a check returned no error, and stop otherwise. -/
def whenOk (r : Ctx × Error) (k : Ctx → Ctx) : Ctx :=
  match r with
  | (c, .NO_ERROR) => k c
  | (c, _) => c

def tcpStateClosed (c : Ctx) (p : Packet) : Ctx :=
  if p.segment.flags.rst then c
  else (tcpSendResetSegment c p.pseudoHeader p.segment p.length).1

/-- The client's addresses as a queue item records them; `none` for an invalid pseudo header. -/
def synAddrs (pseudoHeader : IpPseudoHeader) : Option (IpAddr × IpAddr) :=
  if pseudoHeader.length = sizeofIpv4PseudoHeader then
    some ({ length := sizeofIpv4Addr, ipv4Addr := pseudoHeader.ipv4SrcAddr },
      { length := sizeofIpv4Addr, ipv4Addr := pseudoHeader.ipv4DestAddr })
  else if pseudoHeader.length = sizeofIpv6PseudoHeader then
    some ({ length := sizeofIpv6Addr, ipv6Addr := pseudoHeader.ipv6SrcAddr },
      { length := sizeofIpv6Addr, ipv6Addr := pseudoHeader.ipv6DestAddr })
  else none

def tcpStateListen (c : Ctx) (p : Packet) : Ctx :=
  if p.segment.flags.rst then c
  else if p.segment.flags.ack then (tcpSendResetSegment c p.pseudoHeader p.segment p.length).1
  else if p.segment.flags.syn then
    if tcpIsDuplicateSyn c p.pseudoHeader p.segment then c
    else if c.synQueue ≠ [] ∧ c.synQueue.length ≥ c.synQueueSize then c
    else
      let (e, ok) := memPoolAlloc c.toEnv
      let c := { c with toEnv := e }
      if ok then
        match synAddrs p.pseudoHeader with
        | none => c
        | some (srcAddr, destAddr) =>
          let item : TcpSynQueueItem :=
            { interface := p.interface, srcAddr, srcPort := p.segment.srcPort, destAddr,
              isn := p.segment.seqNum,
              mss := (tcpGetMss p.segment).getD (min TCP_DEFAULT_MSS TCP_MAX_MSS) }
          tcpUpdateEvents { c with synQueue := c.synQueue ++ [item] }
      else c
  else c

/-- `tcpStateSynSent` for an acceptable SYN: the receive side is initialised, and the SYN sent
before may be acknowledged. -/
def synSentSyn (c : Ctx) (segment : TcpHeader) : Ctx :=
  let c := { c with irs := segment.seqNum, rcvNxt := segment.seqNum + 1,
                    sndUna := if segment.flags.ack then segment.ackNum else c.sndUna }
  let c := tcpUpdateRetransmitQueue (tcpComputeRto c).1
  let c := { c with smss := (tcpGetMss segment).getD c.smss }
  let c := { c with cwnd := u16 (min (TCP_INITIAL_WINDOW * c.smss) c.txBufferSize) }
  if cmpSeq c.sndUna c.iss > 0 then
    let c := { c with sndWnd := segment.window, sndWl1 := segment.seqNum,
                      sndWl2 := segment.ackNum, maxSndWnd := segment.window }
    let c := (tcpSendSegment c { ack := true } c.sndNxt c.rcvNxt 0 false).1
    tcpChangeState c .ESTABLISHED
  else
    let c := (tcpSendSegment c { syn := true, ack := true } c.iss c.rcvNxt 0 true).1
    tcpChangeState c .SYN_RECEIVED

def tcpStateSynSent (c : Ctx) (p : Packet) : Ctx :=
  let segment := p.segment
  if segment.flags.ack ∧ segment.ackNum ≠ c.sndNxt then
    if segment.flags.rst then c
    else (tcpSendSegment c { rst := true } segment.ackNum 0 0 false).1
  else if segment.flags.rst then
    if segment.flags.ack then tcpChangeState c .CLOSED else c
  else if segment.flags.syn then synSentSyn c segment
  else c

/-- The FIN of a segment whose data has all been received: `RCV.NXT` moves over it and it is
acknowledged. -/
def consumeFin (c : Ctx) : Ctx :=
  let c := { c with rcvNxt := c.rcvNxt + 1, finRcvd := true }
  (tcpSendSegment c { ack := true } c.sndNxt c.rcvNxt 0 false).1

/-- The FIN bit is set and all the data before it is in the receive buffer. -/
def finInOrder (c : Ctx) (p : Packet) : Bool :=
  p.segment.flags.fin && c.rcvNxt == p.segment.seqNum + w32 p.length

/-- Release the control block, start the 2MSL timer and enter TIME-WAIT. -/
def enterTimeWait (c : Ctx) : Ctx :=
  let c := tcpDeleteControlBlock c
  let c := { c with timeWaitTimer := tcpTimerStart c.toEnv TCP_2MSL_TIMER }
  tcpChangeState c .TIME_WAIT

/-- Run the Nagle algorithm after an acknowledgment, without delay after a duplicate one. -/
def ackNagle (c : Ctx) : Ctx :=
  (tcpNagleAlgo c (if c.dupAckCount > 0 then SOCKET_FLAG_NO_DELAY else 0)).1

/-- Process the segment text. -/
def segmentText (c : Ctx) (p : Packet) : Ctx :=
  if p.length > 0 then tcpProcessSegmentData c p.segment p.buffer p.offset p.length else c

def tcpStateEstablished (c : Ctx) (p : Packet) : Ctx :=
  whenOk (tcpCheckSequenceNumber c p.segment p.length) fun c =>
  if p.segment.flags.rst then tcpChangeState c .CLOSED
  else
    whenOk (tcpCheckSyn c p.segment p.length) fun c =>
    whenOk (tcpCheckAck c p.segment p.length) fun c =>
    let c := segmentText c p
    let c := if finInOrder c p then tcpChangeState (consumeFin c) .CLOSE_WAIT else c
    ackNagle c

def tcpStateSynReceived (c : Ctx) (p : Packet) : Ctx :=
  whenOk (tcpCheckSequenceNumber c p.segment p.length) fun c =>
  if p.segment.flags.rst then tcpChangeState c .CLOSED
  else
    whenOk (tcpCheckSyn c p.segment p.length) fun c =>
    if !p.segment.flags.ack then c
    else if p.segment.ackNum ≠ c.sndNxt then
      (tcpSendSegment c { rst := true } p.segment.ackNum 0 0 false).1
    else
      let c := { c with sndWnd := p.segment.window, sndWl1 := p.segment.seqNum,
                        sndWl2 := p.segment.ackNum, maxSndWnd := p.segment.window }
      tcpStateEstablished (tcpChangeState c .ESTABLISHED) p

def tcpStateCloseWait (c : Ctx) (p : Packet) : Ctx :=
  whenOk (tcpCheckSequenceNumber c p.segment p.length) fun c =>
  if p.segment.flags.rst then tcpChangeState c .CLOSED
  else
    whenOk (tcpCheckSyn c p.segment p.length) fun c =>
    whenOk (tcpCheckAck c p.segment p.length) ackNagle

def tcpStateLastAck (c : Ctx) (p : Packet) : Ctx :=
  whenOk (tcpCheckSequenceNumber c p.segment p.length) fun c =>
  if p.segment.flags.rst then tcpChangeState c .CLOSED
  else
    whenOk (tcpCheckSyn c p.segment p.length) fun c =>
    if !p.segment.flags.ack then c
    else if p.segment.ackNum = c.sndNxt then tcpChangeState c .CLOSED
    else c

def tcpStateFinWait1 (c : Ctx) (p : Packet) : Ctx :=
  whenOk (tcpCheckSequenceNumber c p.segment p.length) fun c =>
  if p.segment.flags.rst then tcpChangeState c .CLOSED
  else
    whenOk (tcpCheckSyn c p.segment p.length) fun c =>
    whenOk (tcpCheckAck c p.segment p.length) fun c =>
    -- our FIN is acknowledged
    let c := if p.segment.ackNum = c.sndNxt then
        tcpChangeState { c with finWait2Timer := tcpTimerStart c.toEnv TCP_FIN_WAIT_2_TIMER }
          .FIN_WAIT_2
      else c
    let c := segmentText c p
    if finInOrder c p then
      let c := consumeFin c
      if p.segment.ackNum = c.sndNxt then enterTimeWait c else tcpChangeState c .CLOSING
    else c

def tcpStateFinWait2 (c : Ctx) (p : Packet) : Ctx :=
  whenOk (tcpCheckSequenceNumber c p.segment p.length) fun c =>
  if p.segment.flags.rst then tcpChangeState c .CLOSED
  else
    whenOk (tcpCheckSyn c p.segment p.length) fun c =>
    whenOk (tcpCheckAck c p.segment p.length) fun c =>
    let c := segmentText c p
    if finInOrder c p then enterTimeWait (consumeFin c) else c

def tcpStateClosing (c : Ctx) (p : Packet) : Ctx :=
  whenOk (tcpCheckSequenceNumber c p.segment p.length) fun c =>
  if p.segment.flags.rst then tcpChangeState c .CLOSED
  else
    whenOk (tcpCheckSyn c p.segment p.length) fun c =>
    whenOk (tcpCheckAck c p.segment p.length) fun c =>
    if p.segment.ackNum = c.sndNxt then enterTimeWait c else c

/-- Dispose of a closed connection its user has let go of. -/
def disposeUnowned (c : Ctx) : Ctx :=
  if c.ownedFlag then c else { tcpDeleteControlBlock c with type := .UNUSED }

def tcpStateTimeWait (c : Ctx) (p : Packet) : Ctx :=
  whenOk (tcpCheckSequenceNumber c p.segment p.length) fun c =>
  if p.segment.flags.rst then disposeUnowned (tcpChangeState c .CLOSED)
  else
    whenOk (tcpCheckSyn c p.segment p.length) fun c =>
    if !p.segment.flags.ack then c
    else if p.segment.flags.fin then
      let c := (tcpSendSegment c { ack := true } c.sndNxt c.rcvNxt 0 false).1
      { c with timeWaitTimer := tcpTimerStart c.toEnv TCP_2MSL_TIMER }
    else c

/-- The `switch` of `tcpProcessSegment` on the state of the matching socket. -/
def tcpProcessState (c : Ctx) (p : Packet) : Ctx :=
  match c.state with
  | .CLOSED => tcpStateClosed c p
  | .LISTEN => tcpStateListen c p
  | .SYN_SENT => tcpStateSynSent c p
  | .SYN_RECEIVED => tcpStateSynReceived c p
  | .ESTABLISHED => tcpStateEstablished c p
  | .CLOSE_WAIT => tcpStateCloseWait c p
  | .LAST_ACK => tcpStateLastAck c p
  | .FIN_WAIT_1 => tcpStateFinWait1 c p
  | .FIN_WAIT_2 => tcpStateFinWait2 c p
  | .CLOSING => tcpStateClosing c p
  | .TIME_WAIT => tcpStateTimeWait c p

/-! ## Timers -/

/-- `tcpTick`: the retransmission timer has run out. -/
def tickRetransmit (c : Ctx) : Ctx :=
  let c := if c.retransmitCount = 0 then
      { c with ssthresh := u16 (max ((c.sndNxt - c.sndUna).toNat / 2) (2 * c.smss)) }
    else c
  let c := { c with cwnd := u16 (min (TCP_LOSS_WINDOW * c.smss) c.txBufferSize),
                    recover := c.sndNxt - 1, congestState := .LOSS_RECOVERY }
  let c :=
    if c.retransmitCount < TCP_MAX_RETRIES then
      let c := (tcpRetransmitSegment c).1
      let rto := if c.rto * 2 < TCP_MAX_RTO then c.rto * 2 else TCP_MAX_RTO
      { c with rto, retransmitTimer := tcpTimerStart c.toEnv rto,
               retransmitCount := c.retransmitCount + 1 }
    else
      let c := tcpChangeState c .CLOSED
      { c with retransmitTimer := tcpTimerStop c.retransmitTimer }
  -- Karn's algorithm: no RTT sample from a retransmitted segment
  { c with rttBusy := false }

/-- `tcpTick`: the persist timer has run out. -/
def tickPersist (c : Ctx) : Ctx :=
  if c.wndProbeCount < TCP_MAX_RETRIES then
    let c := (tcpSendSegment c { ack := true } (c.sndNxt - 1) c.rcvNxt 0 false).1
    let wndProbeInterval :=
      if c.wndProbeInterval * 2 < TCP_MAX_PROBE_INTERVAL then c.wndProbeInterval * 2
      else TCP_MAX_PROBE_INTERVAL
    { c with wndProbeInterval, persistTimer := tcpTimerStart c.toEnv wndProbeInterval,
             wndProbeCount := c.wndProbeCount + 1 }
  else tcpChangeState c .CLOSED

/-- `tcpTick`: the override timeout forces out what the silly window avoidance holds back. -/
def tickOverride (c : Ctx) : Ctx :=
  let c := (sendLoop (fun _ _ _ => true) c.sndUser c (usableWindow c)).1
  let c := tcpUpdateEvents c
  if c.sndUser > 0 then
    { c with overrideTimer := tcpTimerStart c.toEnv TCP_OVERRIDE_TIMEOUT }
  else c

/-- `tcpTick`: the 2MSL time has elapsed. -/
def tickTimeWait (c : Ctx) : Ctx := disposeUnowned (tcpChangeState c .CLOSED)

/-- The body of the loop of `tcpTick`, for one socket. -/
def tcpTickSocket (c : Ctx) : Ctx :=
  if c.type ≠ .STREAM ∨ c.state = .CLOSED then c
  else
    let c := if c.retransmitQueue ≠ [] ∧ tcpTimerElapsed c.toEnv c.retransmitTimer then
        tickRetransmit c
      else c
    if c.state = .CLOSED then c
    else
      let c := if c.sndWnd = 0 ∧ c.wndProbeInterval ≠ 0 ∧
            tcpTimerElapsed c.toEnv c.persistTimer then
          tickPersist c
        else c
      let c := if (c.state = .ESTABLISHED ∨ c.state = .CLOSE_WAIT) ∧ c.sndUser ≠ 0 ∧
            tcpTimerElapsed c.toEnv c.overrideTimer then
          tickOverride c
        else c
      let c := if c.state = .FIN_WAIT_2 ∧ tcpTimerElapsed c.toEnv c.finWait2Timer then
          tcpChangeState c .CLOSED
        else c
      if c.state = .TIME_WAIT ∧ tcpTimerElapsed c.toEnv c.timeWaitTimer then tickTimeWait c else c

end Cyclone
