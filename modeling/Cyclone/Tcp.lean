import Cyclone.TcpFsm

/-!
# Cyclone.Tcp

The user calls of `tcp.c`. A call that waits gives up the mutex inside `tcpWaitForEvents`; it is
cut there into the part up to the wait and the part after it. `Call` is what a suspended call
remembers, `Progress` how a part ends.

`tcpReceive` is also given whole, with the waits filled in by a parameter.
-/

namespace Cyclone

open Serial

/-! ## Waiting -/

/-- `tcpWaitForEvents` up to the test of the event flags. -/
def tcpWaitBegin (c : Ctx) (eventMask : SocketEvent) : Ctx :=
  let c := tcpUpdateEvents { c with eventMask }
  if c.eventFlags = 0 then { c with event := false } else c

/-- `tcpWaitForEvents`: `sleep` is what the other parties do while the mutex is released. -/
def tcpWaitForEvents (sleep : Word → Ctx → Ctx) (c : Ctx) (eventMask : SocketEvent)
    (timeout : Word) : Ctx × SocketEvent :=
  let c := tcpWaitBegin c eventMask
  let c := if c.eventFlags = 0 then sleep timeout c else c
  (c, c.eventFlags)

/-- A user call suspended in a wait. -/
inductive Call where
  /-- `tcpConnect`, for the connection to be established -/
  | connect
  /-- `tcpSend`, for room; the data not yet written -/
  | send (data : List UInt8) (flags : SocketFlags)
  /-- `tcpSend` with `SOCKET_FLAG_WAIT_ACK`, for the acknowledgment -/
  | sendAck
  /-- `tcpReceive`, for data; the user buffer and the bytes stored so far -/
  | receive (data : List UInt8) (received : Nat) (flags : SocketFlags)
  /-- `tcpShutdown` in its call of `tcpSend`, on the way to the state `next` -/
  | shutdownFlush (how : SocketShutdownFlags) (next : TcpState)
  /-- `tcpShutdown`, for the pending data to be sent -/
  | shutdownDone (how : SocketShutdownFlags) (next : TcpState)
  /-- `tcpShutdown`, for our FIN to be acknowledged -/
  | shutdownTx (how : SocketShutdownFlags)
  /-- `tcpShutdown`, for the FIN of the peer -/
  | shutdownRx
  deriving DecidableEq, Repr

inductive Progress where
  | blocked (call : Call)
  | done (error : Error)
  deriving DecidableEq, Repr

def waitFor (c : Ctx) (eventMask : SocketEvent) (call : Call) : Ctx × Progress :=
  (tcpWaitBegin c eventMask, .blocked call)

/-! ## Opening -/

/-- A new connection starts a new log of segments and of stream bytes. -/
def Trace.restart (t : Trace) : Trace := { changes := t.changes, reads := t.reads }

/-- Allocate the transmit and receive buffers of a connection. -/
def allocBuffers (c : Ctx) : Ctx × Error :=
  let tx := { c.txBuffer with maxChunkCount := N TCP_MAX_TX_BUFFER_SIZE }
  let rx := { c.rxBuffer with maxChunkCount := N TCP_MAX_RX_BUFFER_SIZE }
  match netBufferSetLength c.toEnv tx c.txBufferSize with
  | (e, tx, .NO_ERROR) =>
    let (e, rx, error) := netBufferSetLength e rx c.rxBufferSize
    ({ c with toEnv := e, txBuffer := tx, rxBuffer := rx }, error)
  | (e, tx, error) => ({ c with toEnv := e, txBuffer := tx, rxBuffer := rx }, error)

def ipIsUnspecifiedAddr (a : IpAddr) : Bool :=
  a.length = 0 || (a.length = sizeofIpv4Addr && a.ipv4Addr = 0) ||
    (a.length = sizeofIpv6Addr && a.ipv6Addr = 0)

/-- The assignments of `tcpConnect` between the allocation of the buffers and the SYN segment. -/
def initActive (c : Ctx) : Ctx :=
  let smss := min TCP_DEFAULT_MSS TCP_MAX_MSS
  let (e, iss) := netGetRand c.toEnv
  { c with
    toEnv := e, toTrace := c.toTrace.restart
    smss, rmss := min c.rxBufferSize TCP_MAX_MSS
    iss, sndUna := iss, sndNxt := iss + 1, rcvUser := 0, rcvWnd := u16 c.rxBufferSize
    rto := TCP_INITIAL_RTO
    congestState := .IDLE, cwnd := u16 (min (TCP_INITIAL_WINDOW * smss) c.txBufferSize)
    ssthresh := UINT16_MAX, recover := iss }

/-- `tcpConnect` on a closed socket: the source address, the buffers, the control block and the
SYN. `NO_ERROR` means that the connection is in SYN-SENT. `Tcp_Connect` is the same code. -/
def connectOpen (c : Ctx) (remoteIpAddr : IpAddr) (remotePort : Port) : Ctx × Error :=
  let c := { c with remoteIpAddr, remotePort }
  let (error, interface, localIpAddr) := c.selectSourceAddr c.tick c.interface c.remoteIpAddr
  let c := { c with tick := c.tick + 1, interface, localIpAddr }
  match error with
  | .NO_ERROR =>
    if ipIsUnspecifiedAddr c.localIpAddr then (c, .NOT_CONFIGURED)
    else
      match allocBuffers { c with ownedFlag := true } with
      | (c, .NO_ERROR) =>
        let c := initActive c
        match tcpSendSegment c { syn := true } c.iss 0 0 true with
        | (c, .NO_ERROR) => (tcpChangeState c .SYN_SENT, .NO_ERROR)
        | (c, error) => (c, error)
      | (c, error) => (tcpDeleteControlBlock c, error)
  | error => (c, error)

def tcpConnect (c : Ctx) (remoteIpAddr : IpAddr) (remotePort : Port) : Ctx × Progress :=
  let wait (c : Ctx) := waitFor c (SOCKET_EVENT_CONNECTED ||| SOCKET_EVENT_CLOSED) .connect
  if c.state = .CLOSED then
    match connectOpen c remoteIpAddr remotePort with
    | (c, .NO_ERROR) => wait c
    | (c, error) => (c, .done error)
  else wait c

def resumeConnect (c : Ctx) : Ctx × Progress :=
  if c.eventFlags = SOCKET_EVENT_CONNECTED then (c, .done .NO_ERROR)
  else if c.eventFlags = SOCKET_EVENT_CLOSED then (c, .done .CONNECTION_FAILED)
  else (c, .done .TIMEOUT)

/-- The part of `tcpListen` after the check of the state. -/
def listenOpen (c : Ctx) (backlog : Nat) : Ctx :=
  let synQueueSize := if backlog > 0 then backlog else TCP_DEFAULT_SYN_QUEUE_SIZE
  tcpChangeState { c with synQueueSize := min synQueueSize TCP_MAX_SYN_QUEUE_SIZE } .LISTEN

def tcpListen (c : Ctx) (backlog : Nat) : Ctx × Error :=
  if c.state ≠ .CLOSED then (c, .ALREADY_CONNECTED) else (listenOpen c backlog, .NO_ERROR)

/-- `tcpAccept` on the new socket: ownership, buffer sizes of the listening socket, buffers. -/
def acceptAlloc (socket : Socket) (c : Ctx) : Ctx × Error :=
  allocBuffers { c with ownedFlag := true, txBufferSize := socket.txBufferSize,
                        rxBufferSize := socket.rxBufferSize }

/-- The assignments of `tcpAccept` to the socket that takes the connection of `item`. -/
def initPassive (socket : Socket) (item : TcpSynQueueItem) (c : Ctx) : Ctx :=
  let (e, iss) := netGetRand c.toEnv
  { c with
    toEnv := e, toTrace := c.toTrace.restart
    interface := some item.interface, localIpAddr := item.destAddr, localPort := socket.localPort
    remoteIpAddr := item.srcAddr, remotePort := item.srcPort
    smss := item.mss, rmss := min c.rxBufferSize TCP_MAX_MSS
    iss, irs := item.isn, sndUna := iss, sndNxt := iss + 1, rcvNxt := item.isn + 1
    rcvUser := 0, rcvWnd := u16 c.rxBufferSize, rto := TCP_INITIAL_RTO
    cwnd := u16 (min (TCP_INITIAL_WINDOW * item.mss) c.txBufferSize)
    ssthresh := UINT16_MAX, recover := iss }

/-- `tcpAccept` on the new socket up to the SYN-ACK. `socket` is the listening socket. -/
def acceptOpen (socket : Socket) (item : TcpSynQueueItem) (c : Ctx) : Ctx × Error :=
  match acceptAlloc socket c with
  | (c, .NO_ERROR) =>
    let c := initPassive socket item c
    tcpSendSegment c { syn := true, ack := true } c.iss c.rcvNxt 0 true
  | (c, error) => (c, error)

/-- The first item leaves the SYN queue. -/
def popSyn (c : Ctx) : Ctx := { c with synQueue := c.synQueue.tail }

/-! ## Sending -/

/-- `tcpSend` copies `data` behind the data that waits in the transmit buffer, and starts the
override timer when nothing waited. -/
def sendWrite (c : Ctx) (data : List UInt8) : Ctx :=
  let c := { c with
    toSockCore := { tcpWriteTxBuffer c.toSockCore (c.sndNxt + w32 c.sndUser) data with
      sndUser := u16 (c.sndUser + data.length) }
    accepted := c.accepted ++ data }
  let c := tcpUpdateEvents c
  if c.sndUser = data.length then
    { c with overrideTimer := tcpTimerStart c.toEnv TCP_OVERRIDE_TIMEOUT }
  else c

/-- `tcpSend` after the wait for room: the data still to write, and the code to return with if the
call ends here. -/
def tcpSendStep (c : Ctx) (event : SocketEvent) (data : List UInt8) (flags : SocketFlags) :
    Ctx × List UInt8 × Option Error :=
  if event ≠ SOCKET_EVENT_TX_READY then (c, data, some .TIMEOUT)
  else
    match c.state with
    | .ESTABLISHED | .CLOSE_WAIT =>
      let used := (w32 c.sndUser + c.sndNxt - c.sndUna).toNat
      if used ≥ c.txBufferSize then (c, data, some .FAILURE)
      else
        let n := min (c.txBufferSize - used) data.length
        let c := if n > 0 then sendWrite c (data.take n) else c
        ((tcpNagleAlgo c flags).1, data.drop n, none)
    | .LAST_ACK | .FIN_WAIT_1 | .FIN_WAIT_2 | .CLOSING | .TIME_WAIT =>
      (c, data, some .CONNECTION_CLOSING)
    | _ => (c, data, some (if c.resetFlag then .CONNECTION_RESET else .NOT_CONNECTED))

def tcpSend (c : Ctx) (data : List UInt8) (flags : SocketFlags) : Ctx × Progress :=
  if c.state = .LISTEN then (c, .done .NOT_CONNECTED)
  else waitFor c SOCKET_EVENT_TX_READY (.send data flags)

def resumeSend (c : Ctx) (data : List UInt8) (flags : SocketFlags) : Ctx × Progress :=
  match tcpSendStep c c.eventFlags data flags with
  | (c, _, some error) => (c, .done error)
  | (c, rest, none) =>
    if rest ≠ [] then waitFor c SOCKET_EVENT_TX_READY (.send rest flags)
    else if flags.has SOCKET_FLAG_WAIT_ACK then waitFor c SOCKET_EVENT_TX_ACKED .sendAck
    else (c, .done .NO_ERROR)

def resumeSendAck (c : Ctx) : Ctx × Progress :=
  if c.eventFlags ≠ SOCKET_EVENT_TX_ACKED then (c, .done .TIMEOUT)
  else if c.state ≠ .ESTABLISHED ∧ c.state ≠ .CLOSE_WAIT then (c, .done .NOT_CONNECTED)
  else (c, .done .NO_ERROR)

/-! ## Receiving -/

/-- The code for a reader that has everything the peer sent. -/
def endOfStream (received : Nat) : Error := if received > 0 then .NO_ERROR else .END_OF_STREAM

/-- The `switch` of `tcpReceive` and the check after it: the sequence number of the first byte to
read, or the code to return with. -/
def readPosition (s : SockCore) (received : Nat) : Except Error Word :=
  match s.state with
  | .ESTABLISHED | .FIN_WAIT_1 | .FIN_WAIT_2 =>
    if s.rcvUser = 0 then .error .FAILURE else .ok (s.rcvNxt - w32 s.rcvUser)
  | .CLOSE_WAIT | .LAST_ACK | .CLOSING | .TIME_WAIT =>
    if s.rcvUser = 0 then .error (endOfStream received)
    else .ok (s.rcvNxt - 1 - w32 s.rcvUser)
  | _ =>
    if s.resetFlag then .error .CONNECTION_RESET
    else if !s.closedFlag then .error .NOT_CONNECTED
    else if s.rcvUser = 0 then .error (endOfStream received)
    else .ok (s.rcvNxt - 1 - w32 s.rcvUser)

/-- One call of `tcpReadRxBuffer` by `tcpReceive`: as many bytes as are there and fit behind the
`received` bytes of the user buffer. -/
def readPiece (s : SockCore) (seqNum : Word) (data : List UInt8) (received : Nat) :
    List UInt8 × List RxRead :=
  tcpReadRxBuffer s seqNum ((data.drop received).take (min s.rcvUser (data.length - received)))

/-- Account for `n` consumed bytes of a piece, and reopen the window. -/
def consume (c : Ctx) (piece : List UInt8) (reads : List RxRead) (n : Nat) : Ctx :=
  let c := { c with rcvUser := u16Sub c.rcvUser n, reads := c.reads ++ reads,
                    delivered := c.delivered ++ piece.take n }
  tcpUpdateEvents (tcpUpdateReceiveWindow c)

/-- How many of the bytes just copied are consumed when the break character is looked for:
everything up to and including its first occurrence. -/
def breakLength (piece : List UInt8) (ch : UInt8) : Nat :=
  min piece.length (piece.findIdx (· == ch) + 1)

/-- `tcpReceive` after the wait for data. `cut received piece ch` is the number of bytes consumed
of a piece that is stored behind `received` bytes and searched for `ch`. The result is the user
buffer, the bytes stored so far and, if the call ends here, its code. -/
def receiveStep (cut : Nat → List UInt8 → UInt8 → Nat) (c : Ctx) (event : SocketEvent)
    (data : List UInt8) (received : Nat) (flags : SocketFlags) :
    Ctx × List UInt8 × Nat × Option Error :=
  if event ≠ SOCKET_EVENT_RX_READY then (c, data, received, some .TIMEOUT)
  else
    match readPosition c.toSockCore received with
    | .error error => (c, data, received, some error)
    | .ok seqNum =>
      let (piece, reads) := readPiece c.toSockCore seqNum data received
      let ch := flags.lsb
      let n := if flags.has SOCKET_FLAG_BREAK_CHAR then cut received piece ch else piece.length
      let stop :=
        if flags.has SOCKET_FLAG_BREAK_CHAR then piece.getD (n - 1) 0 == ch
        else !flags.has SOCKET_FLAG_WAIT_ALL
      (consume c piece reads n, Ring.splice data received piece, received + n,
        if stop then some .NO_ERROR else none)

def tcpReceiveStep (c : Ctx) (event : SocketEvent) (data : List UInt8) (received : Nat)
    (flags : SocketFlags) : Ctx × List UInt8 × Nat × Option Error :=
  receiveStep (fun _ => breakLength) c event data received flags

/-- The head of the loop of `tcpReceive`. -/
def receiveMore (c : Ctx) (data : List UInt8) (received : Nat) (flags : SocketFlags) :
    Ctx × Progress :=
  if received < data.length then
    waitFor c SOCKET_EVENT_RX_READY (.receive data received flags)
  else (c, .done .NO_ERROR)

def tcpReceiveStart (c : Ctx) (data : List UInt8) (flags : SocketFlags) : Ctx × Progress :=
  if c.state = .LISTEN then (c, .done .NOT_CONNECTED) else receiveMore c data 0 flags

/-- A receive call after its wait: one piece, and back to the head of the loop. -/
def receiveTurn (cut : Nat → List UInt8 → UInt8 → Nat) (c : Ctx) (data : List UInt8)
    (received : Nat) (flags : SocketFlags) : Ctx × Progress :=
  match receiveStep cut c c.eventFlags data received flags with
  | (c, _, _, some error) => (c, .done error)
  | (c, data, received, none) => receiveMore c data received flags

def resumeReceive (c : Ctx) (data : List UInt8) (received : Nat) (flags : SocketFlags) :
    Ctx × Progress :=
  receiveTurn (fun _ => breakLength) c data received flags

/-- The result of a whole receive call. -/
structure Received where
  ctx : Ctx
  error : Error
  data : List UInt8
  received : Nat

/-- The loop of a receive call. Wait number `k` of the call is filled by `sleep k`; every turn
stores at least one byte, so the buffer's length bounds the number of turns. -/
def receiveLoop (cut : Nat → List UInt8 → UInt8 → Nat) (sleep : Nat → Word → Ctx → Ctx)
    (flags : SocketFlags) : Nat → Nat → Ctx → List UInt8 → Nat → Received
  | 0, _, c, data, received => ⟨c, .NO_ERROR, data, received⟩
  | fuel + 1, k, c, data, received =>
    if received < data.length then
      let timeout := if flags.has SOCKET_FLAG_DONT_WAIT then 0 else c.timeout
      let (c, event) := tcpWaitForEvents (sleep k) c SOCKET_EVENT_RX_READY timeout
      match receiveStep cut c event data received flags with
      | (c, data, received, some error) => ⟨c, error, data, received⟩
      | (c, data, received, none) => receiveLoop cut sleep flags fuel (k + 1) c data received
    else ⟨c, .NO_ERROR, data, received⟩

def tcpReceive (sleep : Nat → Word → Ctx → Ctx) (c : Ctx) (data : List UInt8)
    (flags : SocketFlags) : Received :=
  if c.state = .LISTEN then ⟨c, .NOT_CONNECTED, data, 0⟩
  else receiveLoop (fun _ => breakLength) sleep flags data.length 0 c data 0

/-! ## Closing -/

/-- The FIN segment of `tcpShutdown`, and the state it leads to. -/
def shutdownFin (c : Ctx) (next : TcpState) : Ctx × Error :=
  match tcpSendSegment c { fin := true, ack := true } c.sndNxt c.rcvNxt 0 true with
  | (c, .NO_ERROR) =>
    (tcpChangeState { c with sndNxt := c.sndNxt + 1, finSent := c.finSent + 1 } next, .NO_ERROR)
  | (c, error) => (c, error)

/-- The FIN segment and the wait for its acknowledgment. -/
def shutdownSent (c : Ctx) (how : SocketShutdownFlags) (next : TcpState) : Ctx × Progress :=
  match shutdownFin c next with
  | (c, .NO_ERROR) => waitFor c SOCKET_EVENT_TX_SHUTDOWN (.shutdownTx how)
  | (c, error) => (c, .done error)

/-- `tcpShutdown`, the part that disables reception. -/
def shutdownReceive (c : Ctx) (how : SocketShutdownFlags) : Ctx × Progress :=
  if how = .RECEIVE ∨ how = .BOTH then
    match c.state with
    | .LISTEN => (c, .done .NOT_CONNECTED)
    | .SYN_SENT | .SYN_RECEIVED | .ESTABLISHED | .FIN_WAIT_1 | .FIN_WAIT_2 =>
      waitFor c SOCKET_EVENT_RX_SHUTDOWN .shutdownRx
    | _ => (c, .done .NO_ERROR)
  else (c, .done .NO_ERROR)

def tcpShutdown (c : Ctx) (how : SocketShutdownFlags) : Ctx × Progress :=
  if how = .SEND ∨ how = .BOTH then
    match c.state with
    | .CLOSED | .LISTEN => (c, .done .NOT_CONNECTED)
    | .SYN_RECEIVED | .ESTABLISHED =>
      waitFor c SOCKET_EVENT_TX_READY (.shutdownFlush how .FIN_WAIT_1)
    | .CLOSE_WAIT => waitFor c SOCKET_EVENT_TX_READY (.shutdownFlush how .LAST_ACK)
    | .FIN_WAIT_1 | .CLOSING | .LAST_ACK => waitFor c SOCKET_EVENT_TX_SHUTDOWN (.shutdownTx how)
    | _ => shutdownReceive c how
  else shutdownReceive c how

/-- After `tcpSend(socket, NULL, 0, NULL, SOCKET_FLAG_NO_DELAY)`. -/
def resumeShutdownFlush (c : Ctx) (how : SocketShutdownFlags) (next : TcpState) :
    Ctx × Progress :=
  match tcpSendStep c c.eventFlags [] SOCKET_FLAG_NO_DELAY with
  | (c, _, some error) => (c, .done error)
  | (c, _, none) => waitFor c SOCKET_EVENT_TX_DONE (.shutdownDone how next)

/-- After the wait for the pending data. The state is not looked at again. -/
def resumeShutdownDone (c : Ctx) (how : SocketShutdownFlags) (next : TcpState) : Ctx × Progress :=
  if c.eventFlags ≠ SOCKET_EVENT_TX_DONE then (c, .done .TIMEOUT) else shutdownSent c how next

def resumeShutdownTx (c : Ctx) (how : SocketShutdownFlags) : Ctx × Progress :=
  if c.eventFlags ≠ SOCKET_EVENT_TX_SHUTDOWN then (c, .done .TIMEOUT) else shutdownReceive c how

def resumeShutdownRx (c : Ctx) : Ctx × Progress :=
  (c, .done (if c.eventFlags ≠ SOCKET_EVENT_RX_SHUTDOWN then .TIMEOUT else .NO_ERROR))

/-- A suspended call goes on after its wait. -/
def resume (c : Ctx) : Call → Ctx × Progress
  | .connect => resumeConnect c
  | .send data flags => resumeSend c data flags
  | .sendAck => resumeSendAck c
  | .receive data received flags => resumeReceive c data received flags
  | .shutdownFlush how next => resumeShutdownFlush c how next
  | .shutdownDone how next => resumeShutdownDone c how next
  | .shutdownTx how => resumeShutdownTx c how
  | .shutdownRx => resumeShutdownRx c

/-- Enter CLOSED, delete the control block and mark the socket as unused. -/
def closeSocket (c : Ctx) : Ctx :=
  { tcpDeleteControlBlock (tcpChangeState c .CLOSED) with type := .UNUSED }

def tcpAbort (c : Ctx) : Ctx × Error :=
  match c.state with
  | .SYN_RECEIVED | .ESTABLISHED | .FIN_WAIT_1 | .FIN_WAIT_2 | .CLOSE_WAIT =>
    let (c, error) := tcpSendSegment c { rst := true } c.sndNxt 0 0 false
    (closeSocket c, error)
  | .TIME_WAIT => ({ c with ownedFlag := false }, .NO_ERROR)
  | _ => (closeSocket c, .NO_ERROR)

end Cyclone
