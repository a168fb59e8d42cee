import Cyclone.Socket

/-!
# Cyclone.TcpMisc

The helper functions of `tcp_misc.c`: sending segments, checking incoming ones, acknowledgment and
retransmission, the receive path, events and the circular buffers. A function that returns a
status code gives the context after the call and the code.
-/

namespace Cyclone

open Serial

/-! ## Circular buffers -/

/-- Offset of a sequence number in a circular buffer whose stream starts at `base + 1`. -/
def bufOffset (base seqNum : Word) (size : Nat) : Nat := (seqNum - base - 1).toNat % size

def tcpWriteTxBuffer (s : SockCore) (seqNum : Word) (data : List UInt8) : SockCore :=
  let offset := bufOffset s.iss seqNum s.txBufferSize
  if offset + data.length ≤ s.txBufferSize then
    { s with txBuffer := netBufferWrite s.txBuffer offset data }
  else
    let first := netBufferWrite s.txBuffer offset (data.take (s.txBufferSize - offset))
    { s with txBuffer := netBufferWrite first 0 (data.drop (s.txBufferSize - offset)) }

def tcpReadTxBuffer (s : SockCore) (seqNum : Word) (buffer : NetBuffer) (length : Nat) :
    NetBuffer × Error :=
  let offset := bufOffset s.iss seqNum s.txBufferSize
  if offset + length ≤ s.txBufferSize then netBufferConcat buffer s.txBuffer offset length
  else
    match netBufferConcat buffer s.txBuffer offset (s.txBufferSize - offset) with
    | (buffer, .NO_ERROR) => netBufferConcat buffer s.txBuffer 0 (length - (s.txBufferSize - offset))
    | (buffer, error) => (buffer, error)

def tcpWriteRxBuffer (s : SockCore) (seqNum : Word) (data : NetBuffer) (dataOffset length : Nat) :
    SockCore :=
  let offset := bufOffset s.irs seqNum s.rxBufferSize
  if offset + length ≤ s.rxBufferSize then
    { s with rxBuffer := (netBufferCopy s.rxBuffer offset data dataOffset length).1 }
  else
    let first := (netBufferCopy s.rxBuffer offset data dataOffset (s.rxBufferSize - offset)).1
    { s with rxBuffer := (netBufferCopy first 0 data (dataOffset + (s.rxBufferSize - offset))
        (length - (s.rxBufferSize - offset))).1 }

/-- Reads `data.length` bytes into the user buffer `data`. A read that comes up short leaves the
rest of its part of the buffer as it was. Returns the buffer and the outcome of each
`netBufferRead`. -/
def tcpReadRxBuffer (s : SockCore) (seqNum : Word) (data : List UInt8) :
    List UInt8 × List RxRead :=
  let length := data.length
  let offset := bufOffset s.irs seqNum s.rxBufferSize
  if offset + length ≤ s.rxBufferSize then
    let got := netBufferRead s.rxBuffer offset length
    (Ring.splice data 0 got, [⟨length, got.length⟩])
  else
    let k := s.rxBufferSize - offset
    let got := netBufferRead s.rxBuffer offset k
    let got' := netBufferRead s.rxBuffer 0 (length - k)
    (Ring.splice (Ring.splice data 0 got) k got',
      [⟨k, got.length⟩, ⟨length - k, got'.length⟩])

/-! ## Events and state changes -/

def stateEvents (state : TcpState) : SocketEvent :=
  match state with
  | .ESTABLISHED | .FIN_WAIT_1 => SOCKET_EVENT_CONNECTED
  | .FIN_WAIT_2 => SOCKET_EVENT_CONNECTED ||| SOCKET_EVENT_TX_SHUTDOWN
  | .CLOSE_WAIT | .LAST_ACK | .CLOSING => SOCKET_EVENT_CONNECTED ||| SOCKET_EVENT_RX_SHUTDOWN
  | .TIME_WAIT | .CLOSED =>
    SOCKET_EVENT_CLOSED ||| SOCKET_EVENT_TX_SHUTDOWN ||| SOCKET_EVENT_RX_SHUTDOWN
  | _ => 0

def txEvents (s : Socket) : SocketEvent :=
  match s.state with
  | .SYN_SENT | .SYN_RECEIVED => SOCKET_EVENT_TX_DONE ||| SOCKET_EVENT_TX_ACKED
  | .ESTABLISHED | .CLOSE_WAIT =>
    (if (w32 s.sndUser + s.sndNxt - s.sndUna).toNat < s.txBufferSize then SOCKET_EVENT_TX_READY
      else 0) |||
    (if s.sndUser = 0 then SOCKET_EVENT_TX_DONE |||
        (if cmpSeq s.sndUna s.sndNxt ≥ 0 then SOCKET_EVENT_TX_ACKED else 0)
      else 0)
  | .LISTEN => 0
  | _ => SOCKET_EVENT_TX_READY ||| SOCKET_EVENT_TX_DONE ||| SOCKET_EVENT_TX_ACKED

def rxEvents (s : Socket) : SocketEvent :=
  match s.state with
  | .ESTABLISHED | .FIN_WAIT_1 | .FIN_WAIT_2 => if s.rcvUser > 0 then SOCKET_EVENT_RX_READY else 0
  | .LISTEN => if s.synQueue ≠ [] then SOCKET_EVENT_RX_READY else 0
  | .SYN_SENT | .SYN_RECEIVED => 0
  | _ => SOCKET_EVENT_RX_READY

def linkEvents (linkState : NetInterface → Bool) (interface : Option NetInterface) : SocketEvent :=
  match interface with
  | some i => if linkState i then SOCKET_EVENT_LINK_UP else SOCKET_EVENT_LINK_DOWN
  | none => 0

def tcpUpdateEvents (c : Ctx) : Ctx :=
  let eventFlags := (stateEvents c.state ||| txEvents c.toSocket ||| rxEvents c.toSocket |||
    linkEvents c.linkState c.interface) &&& c.eventMask
  { c with eventFlags := eventFlags, event := if eventFlags ≠ 0 then true else c.event }

def tcpChangeState (c : Ctx) (newState : TcpState) : Ctx :=
  let c' : Ctx :=
    if newState = .CLOSED then
      if c.state = .LAST_ACK ∨ c.state = .TIME_WAIT then { c with closedFlag := true }
      else { c with resetFlag := true }
    else c
  tcpUpdateEvents { c' with state := newState, changes := c.changes ++ [(c.state, newState)] }

/-! ## Sending segments -/

/-- `tcpAddOption`. -/
def tcpAddOption (segment : TcpHeader) (kind : UInt8) (value : List UInt8) : TcpHeader × Error :=
  let length := value.length + 2
  if segment.dataOffset * 4 + length > TCP_MAX_HEADER_LENGTH then (segment, .FAILURE)
  else
    let paddingSize := if length % 4 ≠ 0 then 4 - length % 4 else 0
    let options := segment.options ++ List.replicate paddingSize TCP_OPTION_NOP ++
      [kind, UInt8.ofNat length] ++ value
    ({ segment with options, dataOffset := (sizeofTcpHeader + options.length) / 4 }, .NO_ERROR)

/-- `tcpGetOption`: the value bytes of an option, by the loop over the options field. -/
def findOption (options : List UInt8) (length : Nat) (kind : UInt8) :
    Nat → Nat → Option (Nat × List UInt8)
  | 0, _ => none
  | fuel + 1, i =>
    if i < length then
      let k := options.getD i 0
      if k = TCP_OPTION_NOP then findOption options length kind fuel (i + 1)
      else if k = TCP_OPTION_END then none
      else
        let len := (options.getD (i + 1) 0).toNat
        if i + 1 ≥ length ∨ i + len > length then none
        else if k = kind then some (len, (options.drop (i + 2)).take (len - 2))
        else findOption options length kind fuel (i + len)
    else none

def tcpGetOption (segment : TcpHeader) (kind : UInt8) : Option (Nat × List UInt8) :=
  if segment.dataOffset < 5 then none
  else
    let length := segment.dataOffset * 4 - sizeofTcpHeader
    findOption segment.options length kind (length + 1) 0

/-- The maximum segment size a SYN segment announces, brought into the accepted range; `none`
without a well-formed option. -/
def tcpGetMss (segment : TcpHeader) : Option Nat :=
  match tcpGetOption segment TCP_OPTION_MAX_SEGMENT_SIZE with
  | some (4, value) =>
    let mss := (value.getD 0 0).toNat * 256 + (value.getD 1 0).toNat
    some (max (min mss TCP_MAX_MSS) TCP_MIN_MSS)
  | _ => none

/-- The header `tcpSendSegment` writes. -/
def tcpFormatHeader (s : Socket) (flags : TcpFlags) (seqNum ackNum : Word) : TcpHeader :=
  let segment : TcpHeader :=
    { srcPort := s.localPort, destPort := s.remotePort, seqNum, dataOffset := 5, flags,
      ackNum := if flags.ack then ackNum else 0, window := s.rcvWnd }
  if flags.syn then (tcpAddOption segment TCP_OPTION_MAX_SEGMENT_SIZE (be16 s.rmss)).1 else segment

def tcpPseudoHeader (s : Socket) (totalLength : Nat) : Option IpPseudoHeader :=
  if s.remoteIpAddr.length = sizeofIpv4Addr then
    some { length := sizeofIpv4PseudoHeader, ipv4SrcAddr := s.localIpAddr.ipv4Addr,
           ipv4DestAddr := s.remoteIpAddr.ipv4Addr, dataLength := totalLength }
  else if s.remoteIpAddr.length = sizeofIpv6Addr then
    some { length := sizeofIpv6PseudoHeader, ipv6SrcAddr := s.localIpAddr.ipv6Addr,
           ipv6DestAddr := s.remoteIpAddr.ipv6Addr, dataLength := totalLength }
  else none

/-- `ipSendDatagram`: the segment leaves the stack, whatever the IP layer reports. -/
def ipSendDatagram (c : Ctx) (pseudoHeader : IpPseudoHeader) (segment : TcpHeader)
    (data : List UInt8) : Ctx × Error :=
  ({ c with tick := c.tick + 1, sent := c.sent ++ [⟨pseudoHeader, segment, data, c.sndUna⟩] },
    c.ipSend c.tick)

/-- The part of `tcpSendSegment` that appends a segment to the retransmission queue; the result
tells whether the item was allocated. -/
def tcpQueueSegment (c : Ctx) (pseudoHeader : IpPseudoHeader) (segment : TcpHeader)
    (length : Nat) : Ctx × Bool :=
  let (e, ok) := memPoolAlloc c.toEnv
  let c := { c with toEnv := e }
  if ok then
    let c := { c with
      retransmitQueue := c.retransmitQueue ++ [⟨length, false, pseudoHeader, segment⟩] }
    -- one RTT measurement at a time
    let c := if c.rttBusy then c else
      { c with rttStartTime := osGetSystemTime c.toEnv, rttSeqNum := segment.seqNum,
               rttBusy := true, n := 0 }
    let c := if tcpTimerRunning c.retransmitTimer then c else
      { c with retransmitTimer := tcpTimerStart c.toEnv c.rto, retransmitCount := 0 }
    (c, true)
  else (c, false)

def tcpSendSegment (c : Ctx) (flags : TcpFlags) (seqNum ackNum : Word) (length : Nat)
    (addToQueue : Bool) : Ctx × Error :=
  let segment := tcpFormatHeader c.toSocket flags seqNum ackNum
  match ipAllocBuffer c.toEnv segment.encode with
  | (e, none) => ({ c with toEnv := e }, .OUT_OF_MEMORY)
  | (e, some buffer) =>
    let c := { c with toEnv := e }
    match if length > 0 then tcpReadTxBuffer c.toSockCore seqNum buffer length
          else (buffer, .NO_ERROR) with
    | (buffer, .NO_ERROR) =>
      match tcpPseudoHeader c.toSocket (segment.dataOffset * 4 + length) with
      | none => (c, .INVALID_ADDRESS)
      | some pseudoHeader =>
        let data := buffer.bytes.drop segment.encode.length
        if addToQueue then
          match tcpQueueSegment c pseudoHeader segment length with
          | (c, false) => (c, .OUT_OF_MEMORY)
          | (c, true) => ipSendDatagram c pseudoHeader segment data
        else ipSendDatagram c pseudoHeader segment data
    | (_, error) => (c, error)

/-- `tcpSendResetSegment`: answers an incoming segment from its own pseudo header. -/
def tcpSendResetSegment (c : Ctx) (pseudoHeader : IpPseudoHeader) (segment : TcpHeader)
    (length : Nat) : Ctx × Error :=
  let header : TcpHeader :=
    { srcPort := segment.destPort, destPort := segment.srcPort, dataOffset := 5, window := 0,
      flags := { rst := true, ack := !segment.flags.ack },
      seqNum := if segment.flags.ack then segment.ackNum else 0,
      ackNum := if segment.flags.ack then 0 else
        segment.seqNum + w32 length + (if segment.flags.syn then 1 else 0) +
          (if segment.flags.fin then 1 else 0) }
  match ipAllocBuffer c.toEnv header.encode with
  | (e, none) => ({ c with toEnv := e }, .OUT_OF_MEMORY)
  | (e, some _) =>
    let c := { c with toEnv := e }
    if pseudoHeader.length = sizeofIpv4PseudoHeader then
      ipSendDatagram c { length := sizeofIpv4PseudoHeader, ipv4SrcAddr := pseudoHeader.ipv4DestAddr,
                         ipv4DestAddr := pseudoHeader.ipv4SrcAddr,
                         dataLength := sizeofTcpHeader } header []
    else if pseudoHeader.length = sizeofIpv6PseudoHeader then
      ipSendDatagram c { length := sizeofIpv6PseudoHeader, ipv6SrcAddr := pseudoHeader.ipv6DestAddr,
                         ipv6DestAddr := pseudoHeader.ipv6SrcAddr,
                         dataLength := sizeofTcpHeader } header []
    else (c, .INVALID_ADDRESS)

/-! ## Checks on incoming segments -/

def seqAcceptable (s : SockCore) (segment : TcpHeader) (length : Nat) : Bool :=
  let inWindow (x : Word) : Bool :=
    cmpSeq x s.rcvNxt ≥ 0 && cmpSeq x (s.rcvNxt + w32 s.rcvWnd) < 0
  if length = 0 ∧ s.rcvWnd = 0 then segment.seqNum == s.rcvNxt
  else if length = 0 then inWindow segment.seqNum
  else if s.rcvWnd = 0 then false
  else inWindow segment.seqNum || inWindow (segment.seqNum + w32 length - 1)

def tcpCheckSequenceNumber (c : Ctx) (segment : TcpHeader) (length : Nat) : Ctx × Error :=
  if seqAcceptable c.toSockCore segment length then (c, .NO_ERROR)
  else if segment.flags.rst then (c, .FAILURE)
  else ((tcpSendSegment c { ack := true } c.sndNxt c.rcvNxt 0 false).1, .FAILURE)

def tcpCheckSyn (c : Ctx) (segment : TcpHeader) (length : Nat) : Ctx × Error :=
  if segment.flags.syn then
    if segment.flags.ack then
      ((tcpSendSegment c { rst := true } segment.ackNum 0 0 false).1, .FAILURE)
    else
      ((tcpSendSegment c { rst := true, ack := true } 0 (segment.seqNum + w32 length + 1) 0
        false).1, .FAILURE)
  else (c, .NO_ERROR)

def tcpIsDuplicateSyn (c : Ctx) (pseudoHeader : IpPseudoHeader) (segment : TcpHeader) : Bool :=
  c.synQueue.any fun item =>
    if item.srcAddr.length = sizeofIpv4Addr ∧ item.destAddr.length = sizeofIpv4Addr ∧
        pseudoHeader.length = sizeofIpv4PseudoHeader then
      item.srcAddr.ipv4Addr == pseudoHeader.ipv4SrcAddr &&
        item.destAddr.ipv4Addr == pseudoHeader.ipv4DestAddr && item.srcPort == segment.srcPort
    else if item.srcAddr.length = sizeofIpv6Addr ∧ item.destAddr.length = sizeofIpv6Addr ∧
        pseudoHeader.length = sizeofIpv6PseudoHeader then
      item.srcAddr.ipv6Addr == pseudoHeader.ipv6SrcAddr &&
        item.destAddr.ipv6Addr == pseudoHeader.ipv6DestAddr && item.srcPort == segment.srcPort
    else false

def tcpIsDuplicateAck (c : Ctx) (segment : TcpHeader) (length : Nat) : Bool :=
  c.retransmitQueue != [] && length == 0 && !(segment.flags.syn || segment.flags.fin) &&
    segment.ackNum == c.sndUna && segment.window == c.sndWnd

def tcpUpdateSendWindow (c : Ctx) (segment : TcpHeader) : Ctx :=
  if segment.seqNum = c.sndWl1 ∧ segment.ackNum = c.sndWl2 then
    if segment.window > c.sndWnd then
      { c with sndWnd := segment.window, sndWl1 := segment.seqNum, sndWl2 := segment.ackNum,
               maxSndWnd := max c.maxSndWnd segment.window }
    else c
  else if cmpSeq segment.seqNum c.sndWl1 ≥ 0 ∧ cmpSeq segment.ackNum c.sndWl2 ≥ 0 then
    let c := if segment.window = 0 ∧ c.sndWnd ≠ 0 then
        { c with wndProbeCount := 0, wndProbeInterval := TCP_DEFAULT_PROBE_INTERVAL,
                 persistTimer := tcpTimerStart c.toEnv TCP_DEFAULT_PROBE_INTERVAL }
      else c
    { c with sndWnd := segment.window, sndWl1 := segment.seqNum, sndWl2 := segment.ackNum,
             maxSndWnd := max c.maxSndWnd segment.window }
  else c

/-! ## Acknowledgment and retransmission -/

/-- `tcpComputeRto`: also tells whether an RTT measurement was completed. -/
def tcpComputeRto (c : Ctx) : Ctx × Bool :=
  if c.rttBusy ∧ cmpSeq c.sndUna c.rttSeqNum > 0 then
    let r := osGetSystemTime c.toEnv - c.rttStartTime
    let (srtt, rttvar) :=
      if c.srtt = 0 ∧ c.rttvar = 0 then (r, r / 2)
      else
        let delta := if r > c.srtt then r - c.srtt else c.srtt - r
        ((7 * c.srtt + r) / 8, (3 * c.rttvar + delta) / 4)
    let rto := srtt + 4 * rttvar
    let rto := if rto > TCP_MIN_RTO then rto else TCP_MIN_RTO
    let rto := if rto < TCP_MAX_RTO then rto else TCP_MAX_RTO
    ({ c with srtt, rttvar, rto, rttBusy := false }, true)
  else (c, false)

/-- Sequence numbers a queued segment occupies. -/
def TcpQueueItem.seqLength (item : TcpQueueItem) : Nat :=
  if item.header.flags.syn then 1
  else if item.header.flags.fin then item.length + 1
  else item.length

/-- The segment is entirely acknowledged. -/
def TcpQueueItem.acked (sndUna : Word) (item : TcpQueueItem) : Bool :=
  cmpSeq sndUna (item.header.seqNum + w32 item.seqLength) ≥ 0

def tcpUpdateRetransmitQueue (c : Ctx) : Ctx :=
  let c' : Ctx :=
    { c with retransmitQueue := c.retransmitQueue.filter fun item => !item.acked c.sndUna }
  -- each removal restarts the retransmission timer
  let c' : Ctx := if c.retransmitQueue.any (TcpQueueItem.acked c.sndUna) then
      { c' with retransmitTimer := tcpTimerStart c.toEnv c.rto, retransmitCount := 0 }
    else c'
  if c'.retransmitQueue = [] then { c' with retransmitTimer := tcpTimerStop c'.retransmitTimer }
  else c'

def tcpFlushRetransmitQueue (c : Ctx) : Ctx :=
  { c with retransmitQueue := [], retransmitTimer := tcpTimerStop c.retransmitTimer }

def tcpFlushSynQueue (c : Ctx) : Ctx := { c with synQueue := [] }

def tcpDeleteControlBlock (c : Ctx) : Ctx :=
  let c := tcpFlushSynQueue (tcpFlushRetransmitQueue c)
  let (e, txBuffer, _) := netBufferSetLength c.toEnv c.txBuffer 0
  let (e, rxBuffer, _) := netBufferSetLength e c.rxBuffer 0
  { c with toEnv := e, txBuffer, rxBuffer }

/-- Resends one queue item from the transmit buffer. -/
def retransmitItem (c : Ctx) (item : TcpQueueItem) : Ctx × Error :=
  match ipAllocBuffer c.toEnv [] with
  | (e, none) => ({ c with toEnv := e }, .OUT_OF_MEMORY)
  | (e, some buffer) =>
    let c := { c with toEnv := e }
    match netBufferAppend buffer item.header.encode with
    | (buffer, .NO_ERROR) =>
      match tcpReadTxBuffer c.toSockCore item.header.seqNum buffer item.length with
      | (buffer', .NO_ERROR) =>
        ipSendDatagram c item.pseudoHeader item.header (buffer'.bytes.drop buffer.bytes.length)
      | (_, error) => (c, error)
    | (_, error) => (c, error)

/-- The loop of `tcpRetransmitSegment`: as many whole queue items as one segment could carry. -/
def retransmitItems (c : Ctx) : List TcpQueueItem → Nat → Ctx × Error
  | [], _ => (c, .NO_ERROR)
  | item :: rest, length =>
    if length + item.length > c.smss then (c, .NO_ERROR)
    else
      match retransmitItem c item with
      | (c, .NO_ERROR) => retransmitItems c rest (length + item.length)
      | (c, error) => (c, error)

def tcpRetransmitSegment (c : Ctx) : Ctx × Error := retransmitItems c c.retransmitQueue 0

def tcpFastRetransmit (c : Ctx) : Ctx :=
  let flightSize := (c.sndNxt - c.sndUna).toNat
  let c := { c with ssthresh := u16 (max (flightSize / 2) (2 * c.smss)), recover := c.sndNxt - 1 }
  let c := (tcpRetransmitSegment c).1
  { c with cwnd := u16 (c.ssthresh + TCP_FAST_RETRANSMIT_THRES * c.smss),
           congestState := .RECOVERY }

def tcpFastRecovery (c : Ctx) (segment : TcpHeader) (n : Word) : Ctx :=
  if cmpSeq segment.ackNum c.recover > 0 then
    { c with cwnd := c.ssthresh, congestState := .IDLE }
  else
    let c := (tcpRetransmitSegment c).1
    let c := if c.cwnd > n.toNat then { c with cwnd := u16Sub c.cwnd n.toNat } else c
    let c := if n.toNat ≥ c.smss then { c with cwnd := u16 (c.cwnd + c.smss) } else c
    { c with congestState := .RECOVERY }

def tcpFastLossRecovery (c : Ctx) (segment : TcpHeader) : Ctx :=
  if cmpSeq segment.ackNum c.recover > 0 then { c with congestState := .IDLE }
  else { (tcpRetransmitSegment c).1 with congestState := .LOSS_RECOVERY }

/-- `tcpCheckAck` for an acknowledgment of new data. -/
def ackNewData (c : Ctx) (segment : TcpHeader) : Ctx :=
  let n := segment.ackNum - c.sndUna
  let n := if c.sndUna = c.iss then n - 1 else n
  let c := { c with n := c.n + n, sndUna := segment.ackNum }
  let (c, updateFlag) := tcpComputeRto c
  let c := tcpUpdateRetransmitQueue c
  let c :=
    if c.congestState = .RECOVERY then tcpFastRecovery c segment n
    else
      let c := { c with dupAckCount := 0 }
      let c := if c.congestState = .LOSS_RECOVERY then tcpFastLossRecovery c segment else c
      if c.cwnd < c.ssthresh then { c with cwnd := u16 (c.cwnd + min n.toNat c.smss) }
      else if updateFlag then { c with cwnd := u16 (c.cwnd + min c.n.toNat c.smss) }
      else c
  { c with cwnd := min c.cwnd c.txBufferSize }

/-- The number of duplicate acknowledgments that starts a fast retransmit. -/
def dupAckThreshold (c : Ctx) : Nat :=
  let ownd := (c.sndNxt - c.sndUna).toNat
  if c.sndUser = 0 ∨ c.sndWnd ≤ ownd then
    if ownd ≤ 3 * c.smss then 1
    else if ownd ≤ 4 * c.smss then 2
    else TCP_FAST_RETRANSMIT_THRES
  else TCP_FAST_RETRANSMIT_THRES

/-- Fast retransmit and fast recovery on an acknowledgment that covers nothing new. -/
def ackCongest (c : Ctx) (segment : TcpHeader) (duplicateFlag : Bool) : Ctx :=
  match c.congestState with
  | .IDLE =>
    if c.dupAckCount.toNat ≥ dupAckThreshold c ∧ cmpSeq segment.ackNum (c.recover + 1) > 0 then
      tcpFastRetransmit c
    else c
  | .RECOVERY => if duplicateFlag then { c with cwnd := u16 (c.cwnd + c.smss) } else c
  | .LOSS_RECOVERY => c

/-- `tcpCheckAck` for an acknowledgment that covers nothing new. -/
def ackNoData (c : Ctx) (segment : TcpHeader) (duplicateFlag : Bool) : Ctx :=
  let c := { c with dupAckCount := if duplicateFlag then c.dupAckCount + 1 else 0 }
  let c := ackCongest c segment duplicateFlag
  { c with cwnd := min c.cwnd c.txBufferSize }

def tcpCheckAck (c : Ctx) (segment : TcpHeader) (length : Nat) : Ctx × Error :=
  if !segment.flags.ack then (c, .FAILURE)
  else if cmpSeq segment.ackNum c.sndUna < 0 then (c, .NO_ERROR)
  else if cmpSeq segment.ackNum c.sndNxt > 0 then
    ((tcpSendSegment c { ack := true } c.sndNxt c.rcvNxt 0 false).1, .FAILURE)
  else
    let duplicateFlag := tcpIsDuplicateAck c segment length
    let c := tcpUpdateSendWindow c segment
    let c := if cmpSeq segment.ackNum c.sndUna > 0 then ackNewData c segment
             else ackNoData c segment duplicateFlag
    (tcpUpdateEvents c, .NO_ERROR)

/-! ## The receive path -/

/-- `MIN` and `MAX` on sequence numbers, as the code has them: on the plain unsigned values. -/
def minWord (a b : Word) : Word := if a < b then a else b
def maxWord (a b : Word) : Word := if a > b then a else b

/-- The loop of `tcpUpdateSackBlocks`: merges every block that touches the given range. -/
def mergeSackBlocks : List TcpSackBlock → Word → Word → List TcpSackBlock × Word × Word
  | [], leftEdge, rightEdge => ([], leftEdge, rightEdge)
  | b :: bs, leftEdge, rightEdge =>
    if cmpSeq rightEdge b.leftEdge ≥ 0 ∧ cmpSeq leftEdge b.rightEdge ≤ 0 then
      mergeSackBlocks bs (minWord leftEdge b.leftEdge) (maxWord rightEdge b.rightEdge)
    else
      let (bs', l, r) := mergeSackBlocks bs leftEdge rightEdge
      (b :: bs', l, r)

/-- `tcpUpdateSackBlocks`: the socket and the merged edges. -/
def tcpUpdateSackBlocks (s : SockCore) (leftEdge rightEdge : Word) : SockCore × Word × Word :=
  let (bs, l, r) := mergeSackBlocks s.sackBlock leftEdge rightEdge
  let bs := if cmpSeq l s.rcvNxt > 0 then ⟨l, r⟩ :: bs.take (TCP_MAX_SACK_BLOCKS - 1) else bs
  ({ s with sackBlock := bs }, l, r)

/-- Trim a segment to the receive window: its edges and the offset of its first byte kept. -/
def trimSegment (s : SockCore) (seqNum : Word) (offset length : Nat) : Word × Word × Nat :=
  let rightEdge := seqNum + w32 length
  let windowEnd := s.rcvNxt + w32 s.rcvWnd
  let rightEdge := if cmpSeq rightEdge windowEnd > 0 then windowEnd else rightEdge
  if cmpSeq seqNum s.rcvNxt < 0 then
    (s.rcvNxt, rightEdge, offset + (s.rcvNxt - seqNum).toNat)
  else (seqNum, rightEdge, offset)

/-- Account for data up to `rightEdge` that starts at or before `RCV.NXT`. -/
def advanceRcv (s : SockCore) (leftEdge rightEdge : Word) : SockCore :=
  let length := rightEdge - leftEdge
  { s with rcvNxt := s.rcvNxt + length, rcvUser := u16 (s.rcvUser + length.toNat),
           rcvWnd := u16Sub s.rcvWnd length.toNat }

/-- `tcpProcessSegmentData` up to the acknowledgment: the payload is trimmed to the window, stored
and accounted for. The result tells whether the segment was in order. -/
def receiveData (s : SockCore) (segment : TcpHeader) (buffer : NetBuffer) (offset length : Nat) :
    SockCore × Bool :=
  let (leftEdge, rightEdge, offset) := trimSegment s segment.seqNum offset length
  let s := tcpWriteRxBuffer s leftEdge buffer offset (rightEdge - leftEdge).toNat
  let (s, leftEdge, rightEdge) := tcpUpdateSackBlocks s leftEdge rightEdge
  if cmpSeq leftEdge s.rcvNxt > 0 then (s, false) else (advanceRcv s leftEdge rightEdge, true)

def tcpProcessSegmentData (c : Ctx) (segment : TcpHeader) (buffer : NetBuffer)
    (offset length : Nat) : Ctx :=
  let (s, inOrder) := receiveData c.toSockCore segment buffer offset length
  let c := { c with toSockCore := s }
  let c := (tcpSendSegment c { ack := true } c.sndNxt c.rcvNxt 0 false).1
  if inOrder then tcpUpdateEvents c else c

/-- Space of the receive buffer that is free and not yet advertised. -/
def windowReduction (s : SockCore) : Nat :=
  u16 (w32 s.rxBufferSize - w32 s.rcvUser - w32 s.rcvWnd).toNat

def tcpUpdateReceiveWindow (c : Ctx) : Ctx :=
  let reduction := windowReduction c.toSockCore
  let thres := min c.rmss (c.rxBufferSize / 2)
  if c.rcvWnd + reduction ≥ thres then
    let c' := { c with rcvWnd := u16 (c.rcvWnd + reduction) }
    if c.rcvWnd < thres then (tcpSendSegment c' { ack := true } c'.sndNxt c'.rcvNxt 0 false).1
    else c'
  else c

/-! ## Sending data -/

/-- The loops of `tcpNagleAlgo` and of the override timer: send while the usable window `u` is
positive and `sendable` allows a segment of `n` bytes. A segment takes at least one byte from
`sndUser`, which bounds the number of turns. -/
def sendLoop (sendable : Ctx → Word → Nat → Bool) : Nat → Ctx → Word → Ctx × Error
  | 0, c, _ => (c, .NO_ERROR)
  | fuel + 1, c, u =>
    if c.sndUser = 0 ∨ u.toInt ≤ 0 then (c, .NO_ERROR)
    else
      let n := min (min u.toNat c.sndUser) c.smss
      if sendable c u n then
        match tcpSendSegment c { psh := true, ack := true } c.sndNxt c.rcvNxt n true with
        | (c, .NO_ERROR) =>
          sendLoop sendable fuel
            { c with sndNxt := c.sndNxt + w32 n, sndUser := u16Sub c.sndUser n } (u - w32 n)
        | (c, error) => (c, error)
      else (c, .NO_ERROR)

/-- The usable window: what the receiver and the congestion window allow, less what is in flight. -/
def usableWindow (c : Ctx) : Word :=
  w32 (min (min c.sndWnd c.txBufferSize) c.cwnd) - (c.sndNxt - c.sndUna)

/-- Whether `tcpNagleAlgo` sends a segment of `n` bytes now. -/
def nagleSendable (flags : SocketFlags) (c : Ctx) (u : Word) (n : Nat) : Bool :=
  let m := min c.sndUser u.toNat
  if flags.has SOCKET_FLAG_NO_DELAY then n > 0
  else if flags.has SOCKET_FLAG_DELAY then m ≥ c.smss
  else m ≥ c.smss || (c.sndNxt == c.sndUna && c.sndUser ≤ u.toNat) || m ≥ c.maxSndWnd / 2

def tcpNagleAlgo (c : Ctx) (flags : SocketFlags) : Ctx × Error :=
  match sendLoop (nagleSendable flags) c.sndUser c (usableWindow c) with
  | (c, .NO_ERROR) => (tcpUpdateEvents c, .NO_ERROR)
  | (c, error) => (c, error)

end Cyclone
