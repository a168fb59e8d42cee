import Cyclone.Lib.Chunks
import Cyclone.Udp

/-!
# Cyclone.Tftp

The TFTP client (`tftp_client.c`, `tftp_client_misc.c`) and server (`tftp_server.c`,
`tftp_server_misc.c`).

* `Datagram`: what the sockets send; a datagram that cannot be sent is a lost one.
* `tftpServerAcceptRequest`, `tftpServerProcessPacket`, `tftpServerTick`: the server.
* `tftpClientIterate`: one turn of the loop of `tftpClientOpenFile`, `tftpClientWriteFile`,
  `tftpClientFlushFile` or `tftpClientReadFile`.

The clock is read once in each step. A pointer that is checked against `NULL` is taken as valid.
The client runs on an operating system: a socket waits, and a time-out is no error of the loop.
-/

namespace Cyclone

open Serial Chunks

def TFTP_CLIENT_MAX_RETRIES : Nat := 5
def TFTP_CLIENT_TIMEOUT : Word := 5000
def TFTP_CLIENT_BLOCK_SIZE : Nat := 512
def TFTP_SERVER_MAX_CONNECTIONS : Nat := 2
def TFTP_SERVER_MAX_RETRIES : Nat := 5
def TFTP_SERVER_TIMEOUT : Word := 5000
def TFTP_SERVER_FINAL_DELAY : Word := 10000
def TFTP_SERVER_BLOCK_SIZE : Nat := 512

/-! ## Packets -/

def TFTP_OPCODE_RRQ : Port := 1
def TFTP_OPCODE_WRQ : Port := 2
def TFTP_OPCODE_DATA : Port := 3
def TFTP_OPCODE_ACK : Port := 4
def TFTP_OPCODE_ERROR : Port := 5
def TFTP_ERROR_NOT_DEFINED : Port := 0

/-- The request has only the opcode in front, the others have a second field. -/
def sizeofTftpRrqPacket : Nat := 2
def sizeofTftpWrqPacket : Nat := 2
def sizeofTftpDataPacket : Nat := 4
def sizeofTftpAckPacket : Nat := 4
def sizeofTftpErrorPacket : Nat := 4

def TFTP_CLIENT_MAX_PACKET_SIZE : Nat := sizeofTftpDataPacket + TFTP_CLIENT_BLOCK_SIZE
def TFTP_SERVER_MAX_PACKET_SIZE : Nat := sizeofTftpDataPacket + TFTP_SERVER_BLOCK_SIZE

abbrev Block := BitVec 16

/-- The opcode and the block number, or the error code, of a packet. -/
def tftpHeader (opcode : Port) (field : Block) : List UInt8 :=
  be16 opcode.toNat ++ be16 field.toNat

/-- Name and mode of a request are strings that a zero byte ends. -/
def tftpRequest (opcode : Port) (filename mode : List UInt8) : List UInt8 :=
  be16 opcode.toNat ++ filename ++ [0] ++ mode ++ [0]

/-- Name and mode as the server takes them from a request. -/
def tftpParseRequest (packet : List UInt8) : Option (List UInt8 × List UInt8) :=
  let string := packet.drop sizeofTftpRrqPacket
  if packet.length ≤ sizeofTftpRrqPacket then none
  else if string.getLast? ≠ some 0 then none
  else
    let filename := string.takeWhile (· ≠ 0)
    if string.length - (filename.length + 1) = 0 then none
    else some (filename, (string.drop (filename.length + 1)).takeWhile (· ≠ 0))

/-! ## Sockets and files -/

structure Endpoint where
  ipAddr : IpAddr
  port : Port
  deriving DecidableEq, Repr

structure Datagram where
  src : Endpoint
  dest : Endpoint
  data : List UInt8
  deriving DecidableEq, Repr

/-- The codes the client returns. -/
inductive TftpError where
  | NO_ERROR
  | OPEN_FAILED
  | READ_FAILED
  | WRITE_FAILED
  | END_OF_STREAM
  | TIMEOUT
  | FAILURE
  deriving DecidableEq, Repr

/-- What the open callback returns: a file with its content. -/
structure TftpFile where
  filename : List UInt8
  mode : List UInt8
  content : List UInt8
  deriving DecidableEq, Repr

/-! ## Server -/

inductive TftpConnectionState where
  | CLOSED | OPEN | READING | WRITING | READ_COMPLETE | WRITE_COMPLETE
  deriving DecidableEq, Repr

/-- A UDP socket with its own address and the one it is connected to. -/
structure TftpSocket where
  localAddr : Endpoint
  remoteAddr : Endpoint
  deriving DecidableEq, Repr

structure TftpClientConnection where
  state : TftpConnectionState := .CLOSED
  socket : Option TftpSocket := none
  file : Option TftpFile := none
  block : Block := 0
  timestamp : Word := 0
  retransmitCount : Nat := 0
  packet : List UInt8 := []
  deriving DecidableEq, Repr

structure TftpServerSettings where
  /-- The address of the interface that the server is bound to. -/
  ipAddr : IpAddr
  port : Port
  openFileCallback : List UInt8 → List UInt8 → Bool → Option (List UInt8)

structure TftpServerContext where
  settings : TftpServerSettings
  connection : List TftpClientConnection

/-- What happens around a step: the time, the port of a new socket, and whether the read or write
callback fails. -/
structure TftpServerEnv where
  time : Word
  port : Option Port
  callbackFails : Bool

/-- A connection after a step, what was sent and the files that were closed. -/
structure TftpStep where
  connection : TftpClientConnection
  sent : List Datagram := []
  closed : List TftpFile := []

namespace TftpClientConnection

variable (connection : TftpClientConnection)

/-- `socketSend` of the packet. -/
def transmit : List Datagram :=
  match connection.socket with
  | none => []
  | some socket => [⟨socket.localAddr, socket.remoteAddr, connection.packet⟩]

end TftpClientConnection

def tftpServerInit (settings : TftpServerSettings) : TftpServerContext where
  settings := settings
  connection := List.replicate TFTP_SERVER_MAX_CONNECTIONS {}

/-- `readFileCallback` on a file that nobody changes: `none` at the end of the file. -/
def readFileCallback (file : TftpFile) (offset size : Nat) : Option (List UInt8) :=
  if file.content.length ≤ offset then none else some ((file.content.drop offset).take size)

/-- `writeFileCallback`: a gap before the offset is filled with zeros. -/
def writeFileCallback (file : TftpFile) (offset : Nat) (data : List UInt8) : TftpFile :=
  let padding := List.replicate (offset - file.content.length) 0
  { file with content := store (file.content ++ padding) offset data }

/-- `(block - 1) * TFTP_SERVER_BLOCK_SIZE` as a `size_t`: block 0 has a negative offset. -/
def tftpServerOffset (block : Block) : Nat :=
  (((block.toNat : Int) - 1) * TFTP_SERVER_BLOCK_SIZE % 4294967296).toNat

def tftpServerCloseConnection (connection : TftpClientConnection) : TftpStep where
  connection := { connection with socket := none, file := none, state := .CLOSED }
  closed := connection.file.toList

def tftpServerRetransmitPacket (connection : TftpClientConnection) : List Datagram :=
  connection.transmit

def tftpServerSendAckPacket (time : Word) (connection : TftpClientConnection) : TftpStep :=
  let connection := { connection with
    packet := tftpHeader TFTP_OPCODE_ACK connection.block, timestamp := time, retransmitCount := 0 }
  { connection, sent := connection.transmit }

/-- The texts are shorter than a block. -/
def tftpServerSendErrorPacket (time : Word) (connection : TftpClientConnection) (errorCode : Port)
    (errorMsg : String) : TftpStep :=
  let connection := { connection with
    packet := tftpHeader TFTP_OPCODE_ERROR errorCode ++ errorMsg.toUTF8.data.toList ++ [0]
    timestamp := time, retransmitCount := 0 }
  { connection, sent := connection.transmit }

/-- An error packet, after which the connection is closed. -/
def tftpServerAbort (time : Word) (connection : TftpClientConnection) (errorMsg : String) :
    TftpStep :=
  let denied := tftpServerSendErrorPacket time connection TFTP_ERROR_NOT_DEFINED errorMsg
  { tftpServerCloseConnection denied.connection with sent := denied.sent }

def tftpServerSendDataPacket (env : TftpServerEnv) (connection : TftpClientConnection) :
    TftpStep :=
  match connection.file, env.callbackFails with
  | some file, false =>
    let data := (readFileCallback file (tftpServerOffset connection.block)
      TFTP_SERVER_BLOCK_SIZE).getD []
    let packet := tftpHeader TFTP_OPCODE_DATA connection.block ++ data
    -- a short block ends the transfer
    if data.length < TFTP_SERVER_BLOCK_SIZE then
      let connection := { connection with
        file := none, state := .READ_COMPLETE, packet, timestamp := env.time, retransmitCount := 0 }
      { connection, sent := connection.transmit, closed := [file] }
    else
      let connection := { connection with packet, timestamp := env.time, retransmitCount := 0 }
      { connection, sent := connection.transmit }
  | _, _ => tftpServerAbort env.time connection "Failed to read file"

def tftpServerProcessDataPacket (env : TftpServerEnv) (connection : TftpClientConnection)
    (packet : List UInt8) : TftpStep :=
  if packet.length < sizeofTftpDataPacket then { connection }
  else
    let data := packet.drop sizeofTftpDataPacket
    if connection.state = .WRITING then
      if be16At packet 2 = connection.block then
        match connection.file, env.callbackFails with
        | some file, false =>
          let file := writeFileCallback file (tftpServerOffset connection.block) data
          let acked := tftpServerSendAckPacket env.time connection
          let connection := { acked.connection with
            file := some file, block := acked.connection.block + 1 }
          if data.length < TFTP_SERVER_BLOCK_SIZE then
            { connection := { connection with
                file := none, state := .WRITE_COMPLETE, timestamp := env.time }
              sent := acked.sent, closed := [file] }
          else { connection, sent := acked.sent }
        | _, _ => tftpServerAbort env.time connection "Failed to write file"
      else { connection, sent := tftpServerRetransmitPacket connection }
    else if connection.state = .WRITE_COMPLETE then
      { connection, sent := tftpServerRetransmitPacket connection }
    else { connection }

def tftpServerProcessAckPacket (env : TftpServerEnv) (connection : TftpClientConnection)
    (packet : List UInt8) : TftpStep :=
  if packet.length < sizeofTftpAckPacket then { connection }
  else if connection.state = .READING then
    if be16At packet 2 = connection.block then
      tftpServerSendDataPacket env { connection with block := connection.block + 1 }
    -- the current block is never sent again for an old acknowledgment
    else { connection }
  else if connection.state = .READ_COMPLETE then
    if be16At packet 2 = connection.block then tftpServerCloseConnection connection
    else { connection }
  else { connection }

def tftpServerProcessErrorPacket (connection : TftpClientConnection) (packet : List UInt8) :
    TftpStep :=
  if packet.length < sizeofTftpErrorPacket then { connection }
  else tftpServerCloseConnection connection

/-- `data` is the datagram that the socket of the connection received. -/
def tftpServerProcessPacket (env : TftpServerEnv) (connection : TftpClientConnection)
    (data : List UInt8) : TftpStep :=
  let packet := data.take TFTP_SERVER_MAX_PACKET_SIZE
  if packet.length < 2 then { connection }
  else if be16At packet 0 = TFTP_OPCODE_DATA then
    tftpServerProcessDataPacket env connection packet
  else if be16At packet 0 = TFTP_OPCODE_ACK then
    tftpServerProcessAckPacket env connection packet
  else if be16At packet 0 = TFTP_OPCODE_ERROR then
    tftpServerProcessErrorPacket connection packet
  else { connection }

/-- The loop of `tftpServerOpenConnection` from connection `i` on. -/
def openConnectionLoop (time : Word) :
    List TftpClientConnection → Nat → Option (Nat × TftpClientConnection) → Option Nat
  | [], _, oldestConnection => oldestConnection.map Prod.fst
  | connection :: rest, i, oldestConnection =>
    if connection.state = .CLOSED then some i
    else if connection.state = .WRITE_COMPLETE then
      match oldestConnection with
      | none => openConnectionLoop time rest (i + 1) (some (i, connection))
      | some (j, oldest) =>
        if time - connection.timestamp > time - oldest.timestamp then
          openConnectionLoop time rest (i + 1) (some (i, connection))
        else openConnectionLoop time rest (i + 1) (some (j, oldest))
    else openConnectionLoop time rest (i + 1) oldestConnection

/-- The entry for a new connection. What it held is closed. -/
def tftpServerOpenConnection (env : TftpServerEnv) (s : TftpServerContext)
    (clientAddr : Endpoint) : Option (Nat × TftpStep) :=
  (openConnectionLoop env.time s.connection 0 none).map fun i =>
    let connection := s.connection.getD i {}
    let closed := if connection.state = .CLOSED then []
      else (tftpServerCloseConnection connection).closed
    match env.port with
    | none => (i, { connection := {}, closed })
    | some port =>
      (i, { connection := { state := .OPEN, socket := some ⟨⟨s.settings.ipAddr, port⟩, clientAddr⟩ }
            closed })

/-- A request on a connection that was just opened. -/
def tftpServerProcessRrqPacket (env : TftpServerEnv) (settings : TftpServerSettings)
    (connection : TftpClientConnection) (filename mode : List UInt8) : TftpStep :=
  match settings.openFileCallback filename mode false with
  | some content =>
    tftpServerSendDataPacket env { connection with
      file := some ⟨filename, mode, content⟩, state := .READING, block := 1 }
  | none => tftpServerAbort env.time connection "Failed to open file"

def tftpServerProcessWrqPacket (env : TftpServerEnv) (settings : TftpServerSettings)
    (connection : TftpClientConnection) (filename mode : List UInt8) : TftpStep :=
  match settings.openFileCallback filename mode true with
  | some content =>
    let acked := tftpServerSendAckPacket env.time { connection with
      file := some ⟨filename, mode, content⟩, state := .WRITING, block := 0 }
    { acked with connection := { acked.connection with block := acked.connection.block + 1 } }
  | none => tftpServerAbort env.time connection "Failed to open file"

/-- The server after a step, what was sent and the files that were closed. -/
structure TftpServerStep where
  server : TftpServerContext
  sent : List Datagram := []
  closed : List TftpFile := []

/-- A request opens a connection; `process` is what the opcode asks for. -/
def acceptWith (env : TftpServerEnv) (s : TftpServerContext) (clientAddr : Endpoint)
    (packet : List UInt8)
    (process : TftpClientConnection → List UInt8 → List UInt8 → TftpStep) : TftpServerStep :=
  match tftpParseRequest packet with
  | none => { server := s }
  | some (filename, mode) =>
    match tftpServerOpenConnection env s clientAddr with
    | none => { server := s }
    | some (i, opened) =>
      if opened.connection.state = .CLOSED then
        { server := { s with connection := s.connection.set i opened.connection }
          closed := opened.closed }
      else
        let served := process opened.connection filename mode
        { server := { s with connection := s.connection.set i served.connection }
          sent := served.sent, closed := opened.closed ++ served.closed }

/-- `data` is a datagram from `clientAddr` that came in on the TFTP port. -/
def tftpServerAcceptRequest (env : TftpServerEnv) (s : TftpServerContext) (clientAddr : Endpoint)
    (data : List UInt8) : TftpServerStep :=
  let packet := data.take TFTP_SERVER_MAX_PACKET_SIZE
  if packet.length < 2 then { server := s }
  else if be16At packet 0 = TFTP_OPCODE_RRQ then
    acceptWith env s clientAddr packet (tftpServerProcessRrqPacket env s.settings)
  else if be16At packet 0 = TFTP_OPCODE_WRQ then
    acceptWith env s clientAddr packet (tftpServerProcessWrqPacket env s.settings)
  else { server := s }

/-- What a tick does with one connection. -/
def tickConnection (time : Word) (connection : TftpClientConnection) : TftpStep :=
  match connection.state with
  | .READING | .WRITING | .READ_COMPLETE =>
    if 0 ≤ (time - (connection.timestamp + TFTP_SERVER_TIMEOUT)).toInt then
      if connection.retransmitCount < TFTP_SERVER_MAX_RETRIES then
        { connection := { connection with
            timestamp := time, retransmitCount := connection.retransmitCount + 1 }
          sent := tftpServerRetransmitPacket connection }
      else tftpServerCloseConnection connection
    else { connection }
  | .WRITE_COMPLETE =>
    if 0 ≤ (time - (connection.timestamp + TFTP_SERVER_FINAL_DELAY)).toInt then
      tftpServerCloseConnection connection
    else { connection }
  | _ => { connection }

def tftpServerTick (time : Word) (s : TftpServerContext) : TftpServerStep where
  server := { s with
    connection := s.connection.map fun connection => (tickConnection time connection).connection }
  sent := s.connection.flatMap fun connection => (tickConnection time connection).sent
  closed := s.connection.flatMap fun connection => (tickConnection time connection).closed

/-! ## Client -/

inductive TftpClientState where
  | CLOSED | RRQ | WRQ | DATA | ACK | LAST_DATA | COMPLETE | ERROR
  deriving DecidableEq, Repr

def TFTP_FILE_MODE_WRITE : Nat := 1
def TFTP_FILE_MODE_NETASCII : Nat := 2

structure TftpClientContext where
  serverIpAddr : IpAddr
  serverPort : Port
  serverTid : Port := 0
  /-- The own address of the socket. -/
  socket : Option Endpoint := none
  state : TftpClientState := .CLOSED
  block : Block := 0
  timestamp : Word := 0
  retransmitCount : Nat := 0
  /-- The packet that came in last, without what is behind it in the buffer. -/
  inPacket : List UInt8 := []
  inDataLen : Nat := 0
  inDataPos : Nat := 0
  outPacket : List UInt8 := List.replicate TFTP_CLIENT_MAX_PACKET_SIZE 0
  outPacketLen : Nat := 0
  outDataLen : Nat := 0
  deriving DecidableEq, Repr

/-- What `socketReceiveFrom` returns. -/
inductive TftpReceived where
  | packet (src : Endpoint) (data : List UInt8)
  | timeout
  | failed
  deriving DecidableEq, Repr

/-- What happens around a turn of a loop: the time, what is received, and the address of a new
socket. -/
structure TftpClientEnv where
  time : Word
  received : TftpReceived
  socket : Option Endpoint

namespace TftpClientContext

variable (context : TftpClientContext)

/-- `socketSendTo` of the packet. -/
def transmit (port : Port) : List Datagram :=
  match context.socket with
  | none => []
  | some socket =>
    [⟨socket, ⟨context.serverIpAddr, port⟩, context.outPacket.take context.outPacketLen⟩]

end TftpClientContext

def tftpClientCloseConnection (context : TftpClientContext) : TftpClientContext :=
  { context with socket := none }

def tftpClientOpenConnection (env : TftpClientEnv) (context : TftpClientContext) :
    TftpClientContext × TftpError :=
  let context := tftpClientCloseConnection context
  match env.socket with
  | none => (context, .OPEN_FAILED)
  | some socket => ({ context with socket := some socket }, .NO_ERROR)

/-- Both requests: the packet of a name that is too long is not made. -/
def sendRequest (opcode : Port) (time : Word) (context : TftpClientContext)
    (filename mode : List UInt8) : TftpClientContext × List Datagram :=
  if filename.length + mode.length > TFTP_CLIENT_BLOCK_SIZE then (context, [])
  else
    let packet := tftpRequest opcode filename mode
    let context := { context with
      outPacket := store context.outPacket 0 packet, outPacketLen := packet.length
      timestamp := time, retransmitCount := 0 }
    (context, context.transmit context.serverPort)

def tftpClientSendRrqPacket (time : Word) (context : TftpClientContext)
    (filename mode : List UInt8) : TftpClientContext × List Datagram :=
  sendRequest TFTP_OPCODE_RRQ time context filename mode

def tftpClientSendWrqPacket (time : Word) (context : TftpClientContext)
    (filename mode : List UInt8) : TftpClientContext × List Datagram :=
  sendRequest TFTP_OPCODE_WRQ time context filename mode

def tftpClientSendDataPacket (time : Word) (context : TftpClientContext) :
    TftpClientContext × List Datagram :=
  let context := { context with
    outPacket := store context.outPacket 0 (tftpHeader TFTP_OPCODE_DATA context.block)
    outPacketLen := sizeofTftpDataPacket + context.outDataLen
    timestamp := time, retransmitCount := 0 }
  (context, context.transmit context.serverTid)

def tftpClientSendAckPacket (time : Word) (context : TftpClientContext) :
    TftpClientContext × List Datagram :=
  let context := { context with
    outPacket := store context.outPacket 0 (tftpHeader TFTP_OPCODE_ACK context.block)
    outPacketLen := sizeofTftpAckPacket, timestamp := time, retransmitCount := 0 }
  (context, context.transmit context.serverTid)

def tftpClientRetransmitPacket (context : TftpClientContext) : List Datagram :=
  if context.state = .RRQ ∨ context.state = .WRQ then context.transmit context.serverPort
  else context.transmit context.serverTid

def tftpClientProcessDataPacket (context : TftpClientContext) (srcPort : Port) :
    TftpClientContext × List Datagram :=
  let length := context.inPacket.length
  if length < sizeofTftpDataPacket then (context, [])
  else
    let accepted := { context with
      state := .DATA, inDataLen := length - sizeofTftpDataPacket, inDataPos := 0 }
    if context.state = .RRQ then
      if be16At context.inPacket 2 = context.block then ({ accepted with serverTid := srcPort }, [])
      else (context, [])
    else if context.state = .ACK ∧ srcPort = context.serverTid then
      if be16At context.inPacket 2 = context.block then (accepted, [])
      else (context, tftpClientRetransmitPacket context)
    else (context, [])

def tftpClientProcessAckPacket (context : TftpClientContext) (srcPort : Port) :
    TftpClientContext × List Datagram :=
  if context.inPacket.length < sizeofTftpAckPacket then (context, [])
  else if be16At context.inPacket 2 ≠ context.block then (context, [])
  else if context.state = .WRQ then
    ({ context with serverTid := srcPort, state := .ACK, outDataLen := 0 }, [])
  else if context.state = .DATA ∧ srcPort = context.serverTid then
    ({ context with state := .ACK, outDataLen := 0 }, [])
  else if context.state = .LAST_DATA ∧ srcPort = context.serverTid then
    ({ context with state := .COMPLETE, outDataLen := 0 }, [])
  else (context, [])

def tftpClientProcessErrorPacket (context : TftpClientContext) :
    TftpClientContext × List Datagram :=
  if context.inPacket.length < sizeofTftpErrorPacket then (context, [])
  else ({ context with state := .ERROR }, [])

def tftpClientProcessPacket (context : TftpClientContext) (src : Endpoint) :
    TftpClientContext × List Datagram :=
  if src.ipAddr ≠ context.serverIpAddr then (context, [])
  else if context.inPacket.length < 2 then (context, [])
  else if be16At context.inPacket 0 = TFTP_OPCODE_DATA then
    tftpClientProcessDataPacket context src.port
  else if be16At context.inPacket 0 = TFTP_OPCODE_ACK then
    tftpClientProcessAckPacket context src.port
  else if be16At context.inPacket 0 = TFTP_OPCODE_ERROR then
    tftpClientProcessErrorPacket context
  else (context, [])

/-- What is received, before the timer is looked at. -/
def receivePacket (env : TftpClientEnv) (context : TftpClientContext) :
    TftpClientContext × List Datagram × TftpError :=
  match env.received with
  | .packet src data =>
    let (context, sent) := tftpClientProcessPacket
      { context with inPacket := data.take TFTP_CLIENT_MAX_PACKET_SIZE } src
    (context, sent, .NO_ERROR)
  | .timeout => (context, [], .NO_ERROR)
  | .failed => (context, [], .FAILURE)

def tftpClientProcessEvents (env : TftpClientEnv) (context : TftpClientContext) :
    TftpClientContext × List Datagram × TftpError :=
  let (context, sent, error) := receivePacket env context
  if error = .NO_ERROR ∧ context.state ∈ [.RRQ, .WRQ, .DATA, .ACK, .LAST_DATA] ∧
      0 ≤ (env.time - (context.timestamp + TFTP_CLIENT_TIMEOUT)).toInt then
    if context.retransmitCount < TFTP_CLIENT_MAX_RETRIES then
      ({ context with timestamp := env.time, retransmitCount := context.retransmitCount + 1 },
        sent ++ tftpClientRetransmitPacket context, error)
    else (context, sent, .TIMEOUT)
  else (context, sent, error)

/-- A call in progress, with what is left of its arguments. -/
inductive TftpCall where
  | openFile (filename : List UInt8) (mode : Nat)
  | writeFile (data : List UInt8) (totalLength : Nat)
  | flushFile
  | readFile (size received : Nat)
  deriving DecidableEq, Repr

/-- After a turn: the call goes on while there is no error, or has returned. -/
inductive TftpProgress where
  | again (call : TftpCall)
  | done (error : TftpError)
  deriving DecidableEq, Repr

def TftpProgress.unless (call : TftpCall) : TftpError → TftpProgress
  | .NO_ERROR => .again call
  | error => .done error

/-- `moved` is what was copied between the application and the context. -/
structure TftpTurn where
  context : TftpClientContext
  sent : List Datagram := []
  moved : List UInt8 := []
  next : TftpProgress

/-- A turn that waits for events. -/
def waitEvents (env : TftpClientEnv) (context : TftpClientContext) (call : TftpCall) : TftpTurn :=
  let (context, sent, error) := tftpClientProcessEvents env context
  { context, sent, next := .unless call error }

def modeString (mode : Nat) : List UInt8 :=
  (if mode &&& TFTP_FILE_MODE_NETASCII ≠ 0 then "netascii" else "octet").toUTF8.data.toList

/-- Both branches of `tftpClientOpenFile`. -/
def openFileWith (opcode : Port) (block : Block) (waiting accepted : TftpClientState)
    (env : TftpClientEnv) (context : TftpClientContext) (filename : List UInt8) (mode : Nat) :
    TftpTurn :=
  if context.state = .CLOSED then
    match tftpClientOpenConnection env context with
    | (context, .NO_ERROR) =>
      let (context, sent) := sendRequest opcode env.time context filename (modeString mode)
      { context := { context with block, state := waiting }, sent
        next := .again (.openFile filename mode) }
    | (context, error) => { context, next := .done error }
  else if context.state = waiting then waitEvents env context (.openFile filename mode)
  else if context.state = accepted then { context, next := .done .NO_ERROR }
  else
    { context := { tftpClientCloseConnection context with state := .CLOSED }
      next := .done .OPEN_FAILED }

def tftpClientOpenFile (env : TftpClientEnv) (context : TftpClientContext) (filename : List UInt8)
    (mode : Nat) : TftpTurn :=
  if mode &&& TFTP_FILE_MODE_WRITE ≠ 0 then
    openFileWith TFTP_OPCODE_WRQ 0 .WRQ .ACK env context filename mode
  else openFileWith TFTP_OPCODE_RRQ 1 .RRQ .DATA env context filename mode

def tftpClientWriteFile (env : TftpClientEnv) (context : TftpClientContext) (data : List UInt8)
    (totalLength : Nat) : TftpTurn :=
  if data = [] then { context, next := .done .NO_ERROR }
  else if context.state = .DATA then waitEvents env context (.writeFile data totalLength)
  else if context.state = .ACK then
    let n := min (TFTP_CLIENT_BLOCK_SIZE - context.outDataLen) data.length
    let context := { context with
      outPacket := store context.outPacket (sizeofTftpDataPacket + context.outDataLen) (data.take n)
      outDataLen := context.outDataLen + n }
    let next := .again (.writeFile (data.drop n) (totalLength + n))
    if TFTP_CLIENT_BLOCK_SIZE ≤ context.outDataLen then
      let (context, sent) :=
        tftpClientSendDataPacket env.time { context with block := context.block + 1 }
      { context := { context with state := .DATA }, sent, moved := data.take n, next }
    else { context, moved := data.take n, next }
  else { context, next := .done .WRITE_FAILED }

def tftpClientFlushFile (env : TftpClientEnv) (context : TftpClientContext) : TftpTurn :=
  if context.state = .DATA ∨ context.state = .LAST_DATA then waitEvents env context .flushFile
  else if context.state = .ACK then
    let (context, sent) :=
      tftpClientSendDataPacket env.time { context with block := context.block + 1 }
    { context := { context with state := .LAST_DATA }, sent, next := .again .flushFile }
  else if context.state = .COMPLETE then { context, next := .done .NO_ERROR }
  else { context, next := .done .WRITE_FAILED }

def tftpClientReadFile (env : TftpClientEnv) (context : TftpClientContext)
    (size received : Nat) : TftpTurn :=
  if size ≤ received then { context, next := .done .NO_ERROR }
  else if context.state = .DATA then
    let n := min (context.inDataLen - context.inDataPos) (size - received)
    let moved :=
      (context.inPacket.drop (sizeofTftpDataPacket + context.inDataPos)).take n
    let context := { context with inDataPos := context.inDataPos + n }
    let next := .again (.readFile size (received + n))
    if context.inDataLen ≤ context.inDataPos then
      let (context, sent) := tftpClientSendAckPacket env.time context
      { context := { context with
          block := context.block + 1
          state := if context.inDataLen < TFTP_CLIENT_BLOCK_SIZE then .COMPLETE else .ACK }
        sent, moved, next }
    else { context, moved, next }
  else if context.state = .ACK then waitEvents env context (.readFile size received)
  else if context.state = .COMPLETE then
    { context, next := .done (if 0 < received then .NO_ERROR else .END_OF_STREAM) }
  else { context, next := .done .READ_FAILED }

/-- One turn of the loop of a call. -/
def tftpClientIterate (env : TftpClientEnv) (context : TftpClientContext) : TftpCall → TftpTurn
  | .openFile filename mode => tftpClientOpenFile env context filename mode
  | .writeFile data totalLength => tftpClientWriteFile env context data totalLength
  | .flushFile => tftpClientFlushFile env context
  | .readFile size received => tftpClientReadFile env context size received

def tftpClientCloseFile (context : TftpClientContext) : TftpClientContext :=
  { tftpClientCloseConnection context with state := .CLOSED }

end Cyclone
