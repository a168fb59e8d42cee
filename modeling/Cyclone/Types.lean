import Cyclone.Lib.Serial

/-!
# Cyclone.Types

The constants, enumerations and small records of the stack: the values of `net_config.h` and of
the defaults in `tcp.h` and `socket.h`, return codes, TCP states, socket events, I/O flags,
addresses, pseudo headers, the TCP header with its options, timers and queue items.

Sequence numbers are 32-bit words compared as serial numbers. 16-bit fields are natural numbers
that wrap where the code assigns them (`u16`, `u16Sub`). Words are kept in host byte order: the
code converts every header field on the way in and on the way out.
-/

namespace Cyclone

open Serial

/-! ## Configuration -/

def TCP_MAX_MSS : Nat := 1430
def TCP_MIN_MSS : Nat := 64
def TCP_DEFAULT_MSS : Nat := 536
def TCP_DEFAULT_TX_BUFFER_SIZE : Nat := 2860
def TCP_MAX_TX_BUFFER_SIZE : Nat := 22880
def TCP_DEFAULT_RX_BUFFER_SIZE : Nat := 2860
def TCP_MAX_RX_BUFFER_SIZE : Nat := 22880
def TCP_DEFAULT_SYN_QUEUE_SIZE : Nat := 4
def TCP_MAX_SYN_QUEUE_SIZE : Nat := 16
def TCP_MAX_RETRIES : Nat := 5
def TCP_INITIAL_RTO : BitVec 32 := 1000
def TCP_MIN_RTO : BitVec 32 := 1000
def TCP_MAX_RTO : BitVec 32 := 60000
def TCP_FAST_RETRANSMIT_THRES : Nat := 3
def TCP_INITIAL_WINDOW : Nat := 3
def TCP_LOSS_WINDOW : Nat := 1
def TCP_DEFAULT_PROBE_INTERVAL : BitVec 32 := 1000
def TCP_MAX_PROBE_INTERVAL : BitVec 32 := 60000
def TCP_OVERRIDE_TIMEOUT : BitVec 32 := 500
def TCP_FIN_WAIT_2_TIMER : BitVec 32 := 4000
def TCP_2MSL_TIMER : BitVec 32 := 4000
def TCP_MAX_SACK_BLOCKS : Nat := 4
def TCP_MAX_HEADER_LENGTH : Nat := 60
def NET_MEM_POOL_BUFFER_SIZE : Nat := 1536
def IP_MAX_FRAG_DATAGRAM_SIZE : Nat := 8192
def SOCKET_EPHEMERAL_PORT_MIN : Nat := 49152
def SOCKET_EPHEMERAL_PORT_MAX : Nat := 65535
def UINT16_MAX : Nat := 65535
/-- `INFINITE_DELAY`, the default timeout of a socket. -/
def INFINITE_DELAY : BitVec 32 := BitVec.allOnes 32

/-- Number of pool blocks that hold `size` bytes. -/
def N (size : Nat) : Nat := (size + NET_MEM_POOL_BUFFER_SIZE - 1) / NET_MEM_POOL_BUFFER_SIZE

def MAX_CHUNK_COUNT : Nat := N IP_MAX_FRAG_DATAGRAM_SIZE + 3

/-! ## Machine arithmetic -/

/-- Store to a `uint16_t` field. -/
def u16 (x : Nat) : Nat := x % 65536

/-- `a - b` stored to a `uint16_t` field. -/
def u16Sub (a b : Nat) : Nat := u16 (a + (65536 - u16 b))

theorem u16_of_lt {x : Nat} (h : x < 65536) : u16 x = x := Nat.mod_eq_of_lt h

theorem u16_lt (x : Nat) : u16 x < 65536 := Nat.mod_lt _ (by decide)

theorem u16_le (x : Nat) : u16 x ≤ x := Nat.mod_le _ _

theorem u16Sub_of_le {a b : Nat} (hb : b ≤ a) (ha : a < 65536) : u16Sub a b = a - b := by
  simp only [u16Sub, u16]; omega

/-- A natural number as a 32-bit word (`uint_t`, `uint32_t` and `size_t` operands). -/
abbrev w32 (n : Nat) : Word := BitVec.ofNat 32 n

/-- `TCP_CMP_SEQ(a, b)`. -/
abbrev cmpSeq (a b : Word) : Int := Serial.cmp a b

/-! ## Enumerations -/

/-- `error_t`, the codes the modelled functions return. -/
inductive Error where
  | NO_ERROR
  | FAILURE
  | INVALID_PARAMETER
  | INVALID_ADDRESS
  | INVALID_SOCKET
  | OUT_OF_MEMORY
  | OUT_OF_RESOURCES
  | NOT_CONFIGURED
  | ALREADY_CONNECTED
  | NOT_CONNECTED
  | CONNECTION_FAILED
  | CONNECTION_CLOSING
  | CONNECTION_RESET
  | END_OF_STREAM
  | TIMEOUT
  | NETWORK_FAILURE
  deriving DecidableEq, Repr

inductive SocketType where
  | UNUSED | STREAM | DGRAM | RAW_IP | RAW_ETH
  deriving DecidableEq, Repr

inductive TcpState where
  | CLOSED | LISTEN | SYN_SENT | SYN_RECEIVED | ESTABLISHED | CLOSE_WAIT | LAST_ACK
  | FIN_WAIT_1 | FIN_WAIT_2 | CLOSING | TIME_WAIT
  deriving DecidableEq, Repr

inductive TcpCongestState where
  | IDLE | RECOVERY | LOSS_RECOVERY
  deriving DecidableEq, Repr

inductive SocketShutdownFlags where
  | RECEIVE | SEND | BOTH
  deriving DecidableEq, Repr

/-- `SocketEvent`: ten bits. -/
abbrev SocketEvent := BitVec 10

def SOCKET_EVENT_TIMEOUT : SocketEvent := 0x000
def SOCKET_EVENT_CONNECTED : SocketEvent := 0x001
def SOCKET_EVENT_CLOSED : SocketEvent := 0x002
def SOCKET_EVENT_TX_READY : SocketEvent := 0x004
def SOCKET_EVENT_TX_DONE : SocketEvent := 0x008
def SOCKET_EVENT_TX_ACKED : SocketEvent := 0x010
def SOCKET_EVENT_TX_SHUTDOWN : SocketEvent := 0x020
def SOCKET_EVENT_RX_READY : SocketEvent := 0x040
def SOCKET_EVENT_RX_SHUTDOWN : SocketEvent := 0x080
def SOCKET_EVENT_LINK_UP : SocketEvent := 0x100
def SOCKET_EVENT_LINK_DOWN : SocketEvent := 0x200

/-- I/O flags (`SocketFlags`): the low byte carries the break character. -/
abbrev SocketFlags := BitVec 32

def SOCKET_FLAG_DONT_WAIT : SocketFlags := 0x0100
def SOCKET_FLAG_WAIT_ALL : SocketFlags := 0x0800
def SOCKET_FLAG_BREAK_CHAR : SocketFlags := 0x1000
def SOCKET_FLAG_WAIT_ACK : SocketFlags := 0x2000
def SOCKET_FLAG_NO_DELAY : SocketFlags := 0x4000
def SOCKET_FLAG_DELAY : SocketFlags := 0x8000

/-- `flags & mask` is not zero. -/
def SocketFlags.has (flags mask : SocketFlags) : Bool := flags &&& mask != 0

/-- `LSB(flags)`, the break character. -/
def SocketFlags.lsb (flags : SocketFlags) : UInt8 := UInt8.ofBitVec (flags.setWidth 8)

/-! ## Addresses and headers -/

abbrev Ipv4Addr := BitVec 32
abbrev Ipv6Addr := BitVec 128
abbrev Port := BitVec 16
/-- A network interface, by its index. -/
abbrev NetInterface := Nat

def sizeofIpv4Addr : Nat := 4
def sizeofIpv6Addr : Nat := 16
def sizeofIpv4PseudoHeader : Nat := 12
def sizeofIpv6PseudoHeader : Nat := 40
def sizeofTcpHeader : Nat := 20

def TCP_OPTION_END : UInt8 := 0
def TCP_OPTION_NOP : UInt8 := 1
def TCP_OPTION_MAX_SEGMENT_SIZE : UInt8 := 2

/-- `IpAddr`: the length says which member of the union is in use. -/
structure IpAddr where
  length : Nat := 0
  ipv4Addr : Ipv4Addr := 0
  ipv6Addr : Ipv6Addr := 0
  deriving DecidableEq, Repr

/-- `IpPseudoHeader`: source and destination of a datagram and the length of its payload. -/
structure IpPseudoHeader where
  length : Nat := 0
  ipv4SrcAddr : Ipv4Addr := 0
  ipv4DestAddr : Ipv4Addr := 0
  ipv6SrcAddr : Ipv6Addr := 0
  ipv6DestAddr : Ipv6Addr := 0
  dataLength : Nat := 0
  deriving DecidableEq, Repr

structure TcpFlags where
  fin : Bool := false
  syn : Bool := false
  rst : Bool := false
  psh : Bool := false
  ack : Bool := false
  urg : Bool := false
  deriving DecidableEq, Repr

structure TcpHeader where
  srcPort : Port
  destPort : Port
  seqNum : Word
  ackNum : Word
  dataOffset : Nat
  flags : TcpFlags
  window : Nat
  urgentPointer : Nat := 0
  options : List UInt8 := []
  deriving DecidableEq, Repr

/-- A 16-bit field in network byte order. -/
def be16 (n : Nat) : List UInt8 := [UInt8.ofNat (n / 256), UInt8.ofNat n]

def be32 (w : Word) : List UInt8 := be16 (w.toNat / 65536) ++ be16 w.toNat

def TcpFlags.encode (f : TcpFlags) : UInt8 :=
  (if f.fin then 0x01 else 0) ||| (if f.syn then 0x02 else 0) ||| (if f.rst then 0x04 else 0) |||
    (if f.psh then 0x08 else 0) ||| (if f.ack then 0x10 else 0) ||| (if f.urg then 0x20 else 0)

/-- The header as it stands in memory, the checksum field left out of account. -/
def TcpHeader.encode (h : TcpHeader) : List UInt8 :=
  be16 h.srcPort.toNat ++ be16 h.destPort.toNat ++ be32 h.seqNum ++ be32 h.ackNum ++
    [UInt8.ofNat (h.dataOffset * 16), h.flags.encode] ++ be16 h.window ++ be16 0 ++
    be16 h.urgentPointer ++ h.options

/-! ## Timers and queue items -/

structure TcpTimer where
  running : Bool := false
  startTime : Word := 0
  interval : Word := 0
  deriving DecidableEq, Repr

structure TcpQueueItem where
  length : Nat
  sacked : Bool
  pseudoHeader : IpPseudoHeader
  header : TcpHeader
  deriving DecidableEq, Repr

structure TcpSynQueueItem where
  interface : NetInterface
  srcAddr : IpAddr
  srcPort : Port
  destAddr : IpAddr
  isn : Word
  mss : Nat
  deriving DecidableEq, Repr

structure TcpSackBlock where
  leftEdge : Word
  rightEdge : Word
  deriving DecidableEq, Repr

end Cyclone
