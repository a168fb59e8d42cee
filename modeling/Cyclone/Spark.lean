import Cyclone.Tcp

/-!
# Cyclone.Spark

The user calls of `tcp_interface.adb` where they differ from `tcp.c`. The SPARK code shares the C
helper functions through bindings, and `Tcp_Connect`, `Tcp_Accept` and `Tcp_Send` make the same
assignments in the same order as their C originals.
-/

namespace Cyclone
namespace Spark

open Serial

/-! ## Receiving -/

/-- The break search of `Tcp_Receive`. The user array starts at index `first`, the loop variable
is an absolute index, and the count is limited to that index plus one. -/
def breakCut (first received : Nat) (piece : List UInt8) (ch : UInt8) : Nat :=
  let b := first + received
  let i := piece.findIdx (· == ch)
  if i < piece.length then min piece.length (b + i + 1) else piece.length

def tcpReceiveStep (first : Nat) (c : Ctx) (event : SocketEvent) (data : List UInt8)
    (received : Nat) (flags : SocketFlags) : Ctx × List UInt8 × Nat × Option Error :=
  receiveStep (breakCut first) c event data received flags

/-- `Tcp_Receive` on an array with `Data'First = first`. -/
def tcpReceive (first : Nat) (sleep : Nat → Word → Ctx → Ctx) (c : Ctx) (data : List UInt8)
    (flags : SocketFlags) : Received :=
  receiveLoop (breakCut first) sleep flags data.length 0 c data 0

/-! ## Listening and closing -/

/-- `Tcp_Listen`: the test of the state is commented out in the source. -/
def tcpListen (c : Ctx) (backlog : Nat) : Ctx := listenOpen c backlog

/-- `Tcp_Shutdown` after the send buffer was flushed: unlike the C code it looks at the state
again. -/
def shutdownSend (c : Ctx) (how : SocketShutdownFlags) : Ctx × Progress :=
  match c.state with
  | .CLOSED | .LISTEN => (c, .done .NOT_CONNECTED)
  | .ESTABLISHED => shutdownSent c how .FIN_WAIT_1
  | .CLOSE_WAIT => shutdownSent c how .LAST_ACK
  | .FIN_WAIT_1 | .CLOSING | .LAST_ACK => waitFor c SOCKET_EVENT_TX_SHUTDOWN (.shutdownTx how)
  | _ => shutdownReceive c how

/-- `Tcp_Shutdown`. The suspended calls name FIN-WAIT-1 as the state to come, which the SPARK code
does not use. -/
def tcpShutdown (c : Ctx) (how : SocketShutdownFlags) : Ctx × Progress :=
  if how = .SEND ∨ how = .BOTH then
    if c.state = .SYN_RECEIVED ∨ c.state = .ESTABLISHED ∨ c.state = .CLOSE_WAIT then
      waitFor c SOCKET_EVENT_TX_READY (.shutdownFlush how .FIN_WAIT_1)
    else shutdownSend c how
  else shutdownReceive c how

def resumeShutdownDone (c : Ctx) (how : SocketShutdownFlags) : Ctx × Progress :=
  if c.eventFlags ≠ SOCKET_EVENT_TX_DONE then (c, .done .TIMEOUT) else shutdownSend c how

/-- `Tcp_Receive` after its wait. -/
def resumeReceive (first : Nat) (c : Ctx) (data : List UInt8) (received : Nat)
    (flags : SocketFlags) : Ctx × Progress :=
  receiveTurn (breakCut first) c data received flags

/-- A suspended SPARK call goes on after its wait. -/
def resume (first : Nat) (c : Ctx) : Call → Ctx × Progress
  | .receive data received flags => resumeReceive first c data received flags
  | .shutdownDone how _ => resumeShutdownDone c how
  | call => Cyclone.resume c call

end Spark
end Cyclone
