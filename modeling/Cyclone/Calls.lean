import Cyclone.Opening
import Cyclone.Spark

/-!
# Cyclone.Calls

The calls of `socket.c` and `socket_interface.adb` on a stream socket, cut at their waits: `start`
runs a call up to its first wait, `resumeCall` goes on after one.

* `start_cases`, `resume_cases`: what a part of a call can do to the connection.
* `start_not_beforeFin`, `resume_not_beforeFin`: which calls may go on to send a FIN.
-/

namespace Cyclone

open Serial Relation

/-! ## Calls -/

/-- The two implementations of the user calls; a SPARK caller's array starts at index `first`. -/
inductive Api where
  | c
  | spark (first : Nat)
  deriving DecidableEq, Repr

/-- A call of the owner of a stream socket. -/
inductive Request where
  | connect (remoteIpAddr : IpAddr) (remotePort : Port)
  | listen (backlog : Nat)
  | send (data : List UInt8) (flags : SocketFlags)
  | receive (data : List UInt8) (flags : SocketFlags)
  | shutdown (how : SocketShutdownFlags)
  | setTxBufferSize (size : Nat)
  | setRxBufferSize (size : Nat)
  | bind (localIpAddr : IpAddr) (localPort : Port)
  deriving DecidableEq, Repr

/-- `socketSetTxBufferSize`. -/
def socketSetTxBufferSize (c : Ctx) (size : Nat) : Ctx × Error :=
  if size < 1 ∨ size > TCP_MAX_TX_BUFFER_SIZE then (c, .INVALID_PARAMETER)
  else if c.type ≠ .STREAM then (c, .INVALID_SOCKET)
  else if c.state ≠ .CLOSED then (c, .INVALID_SOCKET)
  else ({ c with txBufferSize := size }, .NO_ERROR)

/-- `socketSetRxBufferSize`. -/
def socketSetRxBufferSize (c : Ctx) (size : Nat) : Ctx × Error :=
  if size < 1 ∨ size > TCP_MAX_RX_BUFFER_SIZE then (c, .INVALID_PARAMETER)
  else if c.type ≠ .STREAM then (c, .INVALID_SOCKET)
  else if c.state ≠ .CLOSED then (c, .INVALID_SOCKET)
  else ({ c with rxBufferSize := size }, .NO_ERROR)

/-- `socketBind`. -/
def socketBind (c : Ctx) (localIpAddr : IpAddr) (localPort : Port) : Ctx × Error :=
  if c.type ≠ .STREAM ∧ c.type ≠ .DGRAM then (c, .INVALID_SOCKET)
  else ({ c with localIpAddr, localPort }, .NO_ERROR)

def returned (r : Ctx × Error) : Ctx × Progress := (r.1, .done r.2)

/-- A call up to its first wait. -/
def start (api : Api) (c : Ctx) : Request → Ctx × Progress
  | .connect remoteIpAddr remotePort => tcpConnect c remoteIpAddr remotePort
  | .listen backlog =>
    match api with
    | .c => returned (tcpListen c backlog)
    | .spark _ => (Spark.tcpListen c backlog, .done .NO_ERROR)
  | .send data flags => tcpSend c data flags
  | .receive data flags =>
    match api with
    | .c => tcpReceiveStart c data flags
    | .spark _ => receiveMore c data 0 flags
  | .shutdown how =>
    match api with
    | .c => tcpShutdown c how
    | .spark _ => Spark.tcpShutdown c how
  | .setTxBufferSize size => returned (socketSetTxBufferSize c size)
  | .setRxBufferSize size => returned (socketSetRxBufferSize c size)
  | .bind localIpAddr localPort => returned (socketBind c localIpAddr localPort)

/-- A call after one of its waits. -/
def resumeCall (api : Api) (c : Ctx) (call : Call) : Ctx × Progress :=
  match api with
  | .c => resume c call
  | .spark first => Spark.resume first c call

/-! ## Parts of calls on the kernel -/

/-- `tcpShutdown` goes on to its FIN without another look at the state, `Tcp_Shutdown` looks. -/
def FinReady (api : Api) (k : Kernel) (call : Call) (next : TcpState) : Prop :=
  match api with
  | .c => ∃ how, call = .shutdownDone how next
  | .spark _ => k.state = .ESTABLISHED ∧ next = .FIN_WAIT_1 ∨ k.state = .CLOSE_WAIT ∧ next = .LAST_ACK

/-- What the first part of a call can do. -/
inductive Start (api : Api) (k : Kernel) : Request → Kernel → Prop where
  | idle {req : Request} : Start api k req k
  | connect {a : IpAddr} {p : Port} {k' : Kernel} {e : Error} (hs : k.state = .CLOSED)
      (h : Connecting k k' e) : Start api k (.connect a p) k'
  | listen {n m : Nat} (hs : api = .c → k.state = .CLOSED) :
      Start api k (.listen n) ({ k with synQueueSize := m }.enter .LISTEN)
  | setTxBufferSize {n : Nat} (hs : k.state = .CLOSED) (hn : 1 ≤ n ∧ n ≤ TCP_MAX_TX_BUFFER_SIZE) :
      Start api k (.setTxBufferSize n) { k with txBufferSize := n }
  | setRxBufferSize {n : Nat} (hs : k.state = .CLOSED) (hn : 1 ≤ n ∧ n ≤ TCP_MAX_RX_BUFFER_SIZE) :
      Start api k (.setRxBufferSize n) { k with rxBufferSize := n }
  | bind {a : IpAddr} {p : Port} :
      Start api k (.bind a p) { k with localIpAddr := a, localPort := p }

/-- What a later part of a call can do. -/
inductive Resume (api : Api) (k : Kernel) (call : Call) (k' : Kernel) : Prop where
  | work (h : ReflTransGen (Work none) k k')
  | fin (next : TcpState) (hr : FinReady api k call next) (h : FinStep next k k')

variable {c : Ctx}

/-! ## Sending and receiving -/

theorem does_sendWrite (hs : c.state.sendable) {data : List UInt8}
    (hn : (w32 c.sndUser + c.sndNxt - c.sndUna).toNat + data.length ≤ c.txBufferSize) :
    Does (Work none) c (sendWrite c data) := by
  obtain ⟨-, hctl, -⟩ := tcpWriteTxBuffer_frame c.toSockCore (c.sndNxt + w32 c.sndUser) data
  let c1 : Ctx := { c with
    toSockCore := { tcpWriteTxBuffer c.toSockCore (c.sndNxt + w32 c.sndUser) data with
      sndUser := u16 (c.sndUser + data.length) }
    accepted := c.accepted ++ data }
  have h1 : Does (Work none) c c1 := .single (.write rfl hs hn) rfl (congrArg (·.state) hctl)
  have h2 : Does (Work none) c (tcpUpdateEvents c1) := h1.trans (does_tcpUpdateEvents c1)
  unfold sendWrite
  simp only
  split
  · exact h2.trans (.same rfl rfl)
  · exact h2

theorem does_tcpSendStep (c : Ctx) (event : SocketEvent) (data : List UInt8)
    (flags : SocketFlags) : Does (Work none) c (tcpSendStep c event data flags).1 := by
  have hsend : c.state.sendable → ∀ n,
      n ≤ c.txBufferSize - (w32 c.sndUser + c.sndNxt - c.sndUna).toNat →
      (w32 c.sndUser + c.sndNxt - c.sndUna).toNat < c.txBufferSize →
      Does (Work none) c
        (tcpNagleAlgo (if n > 0 then sendWrite c (data.take n) else c) flags).1 := by
    intro hs n hn hroom
    have hlen : (data.take n).length ≤ n := List.length_take_le n data
    have h1 : Does (Work none) c (if n > 0 then sendWrite c (data.take n) else c) := by
      split
      · exact does_sendWrite hs (by omega)
      · exact .refl c
    refine h1.trans (does_tcpNagleAlgo ?_ flags).ofSend
    rw [h1.work_state]
    exact hs
  unfold tcpSendStep
  split
  · exact .refl c
  split
  · rename_i hs
    simp only
    split
    · exact .refl c
    · exact hsend (by rw [hs]; rfl) _ (Nat.min_le_left _ _) (by omega)
  · rename_i hs
    simp only
    split
    · exact .refl c
    · exact hsend (by rw [hs]; rfl) _ (Nat.min_le_left _ _) (by omega)
  all_goals exact .refl c

theorem does_tcpUpdateReceiveWindow (hs : c.kernel.ackReady) :
    Does (Work none) c (tcpUpdateReceiveWindow c) := by
  unfold tcpUpdateReceiveWindow
  simp only
  split
  · let c1 : Ctx := { c with rcvWnd := u16 (c.rcvWnd + windowReduction c.toSockCore) }
    have h1 : Does (Work none) c c1 := .single (.openWindow rfl) rfl rfl
    have hready : c1.kernel.ackReady := hs
    split
    · exact h1.trans (does_sendAck hready).ofSend
    · exact h1
  · exact .refl c

/-- There is something to read only when the sequence numbers of the peer are known. -/
theorem readPosition_ready {received : Nat} {seqNum : Word}
    (h : readPosition c.toSockCore received = .ok seqNum) : c.kernel.ackReady := by
  show c.state.connected = true ∨ c.closedFlag = true
  unfold readPosition at h
  cases hs : c.state
  case CLOSED | LISTEN | SYN_SENT | SYN_RECEIVED =>
    right
    rw [hs] at h
    cases hr : c.resetFlag
    · cases hc : c.closedFlag
      · simp [hr, hc] at h
      · rfl
    · simp [hr] at h
  all_goals exact .inl rfl

theorem does_receiveStep {cut : Nat → List UInt8 → UInt8 → Nat}
    (hcut : ∀ received piece ch, cut received piece ch ≤ piece.length) (c : Ctx)
    (event : SocketEvent) (data : List UInt8) (received : Nat) (flags : SocketFlags) :
    Does (Work none) c (receiveStep cut c event data received flags).1 := by
  unfold receiveStep
  split
  · exact .refl c
  split
  · exact .refl c
  · rename_i seqNum hpos
    simp only
    generalize hn : (if flags.has SOCKET_FLAG_BREAK_CHAR then
      cut received (readPiece c.toSockCore seqNum data received).1 flags.lsb
      else (readPiece c.toSockCore seqNum data received).1.length) = n
    have hle : n ≤ (readPiece c.toSockCore seqNum data received).1.length := by
      rw [← hn]
      split
      · exact hcut _ _ _
      · exact le_rfl
    let c1 : Ctx := { c with
      rcvUser := u16Sub c.rcvUser n
      reads := c.reads ++ (readPiece c.toSockCore seqNum data received).2
      delivered := c.delivered ++ (readPiece c.toSockCore seqNum data received).1.take n }
    have h1 : Does (Work none) c c1 := .single (.read rfl hpos hle) rfl rfl
    have hready : c.kernel.ackReady := readPosition_ready hpos
    exact (h1.trans (does_tcpUpdateReceiveWindow hready)).trans (does_tcpUpdateEvents _)

theorem breakLength_le (piece : List UInt8) (ch : UInt8) : breakLength piece ch ≤ piece.length :=
  Nat.min_le_left _ _

theorem breakCut_le (first received : Nat) (piece : List UInt8) (ch : UInt8) :
    Spark.breakCut first received piece ch ≤ piece.length := by
  unfold Spark.breakCut
  simp only
  split
  · exact Nat.min_le_left _ _
  · exact le_rfl

/-! ## Parts of calls -/

theorem tcpWaitBegin_kernel (c : Ctx) (eventMask : SocketEvent) :
    (tcpWaitBegin c eventMask).kernel = c.kernel := by
  unfold tcpWaitBegin
  simp only
  split <;> rfl

theorem tcpWaitBegin_state (c : Ctx) (mask : SocketEvent) :
    (tcpWaitBegin c mask).state = c.state := congrArg (·.state) (tcpWaitBegin_kernel c mask)

@[simp] theorem waitFor_kernel (c : Ctx) (eventMask : SocketEvent) (call : Call) :
    (waitFor c eventMask call).1.kernel = c.kernel := tcpWaitBegin_kernel c eventMask

@[simp] theorem receiveMore_kernel (c : Ctx) (data : List UInt8) (received : Nat)
    (flags : SocketFlags) : (receiveMore c data received flags).1.kernel = c.kernel := by
  unfold receiveMore
  split
  · exact waitFor_kernel _ _ _
  · rfl

@[simp] theorem shutdownReceive_kernel (c : Ctx) (how : SocketShutdownFlags) :
    (shutdownReceive c how).1.kernel = c.kernel := by
  unfold shutdownReceive
  split
  · split <;> first | rfl | exact waitFor_kernel _ _ _
  · rfl

/-- The FIN of a shutdown call: not sent, refused by the IP layer, or sent. -/
theorem shutdownFin_cases (c : Ctx) (next : TcpState) :
    (shutdownFin c next).1.kernel = c.kernel ∨
      FinStep next c.kernel (shutdownFin c next).1.kernel := by
  obtain ⟨-, hcase⟩ := tcpSendSegment_spec c { fin := true, ack := true } c.sndNxt c.rcvNxt 0 true
  unfold shutdownFin
  split
  · rename_i c1 hsend
    rw [hsend] at hcase
    obtain ⟨-, hno⟩ | ⟨ph, h, hs⟩ := hcase
    · exact absurd rfl hno
    · right
      have hk := hs.kernel_eq
      rw [if_pos rfl] at hk
      rw [tcpChangeState_kernel]
      have hk1 : ({ c1 with sndNxt := c1.sndNxt + 1, finSent := c1.finSent + 1 } : Ctx).kernel =
          c1.kernel.countFin := rfl
      rw [hk1, hk]
      exact .sent hs.flags_eq hs.seq_eq hs.ack_eq
  · rename_i c1 e hne hsend
    rw [hsend] at hcase
    obtain ⟨hk, -⟩ | ⟨ph, h, hs⟩ := hcase
    · exact .inl hk
    · right
      have hk := hs.kernel_eq
      rw [if_pos rfl] at hk
      rw [hk]
      exact .tried hs.flags_eq hs.seq_eq hs.ack_eq

variable (api : Api)

theorem tcpConnect_cases (c : Ctx) (a : IpAddr) (p : Port) :
    Start api c.kernel (.connect a p) (tcpConnect c a p).1.kernel := by
  unfold tcpConnect
  simp only
  split
  · rename_i hs
    obtain ⟨hcase, -⟩ := connectOpen_cases c a p
    split
    · rename_i c1 hopen
      rw [hopen] at hcase
      rw [waitFor_kernel]
      exact .connect hs hcase
    · rename_i c1 e _ hopen
      rw [hopen] at hcase
      exact .connect hs hcase
  · rw [waitFor_kernel]
    exact .idle

theorem listenOpen_kernel (c : Ctx) (backlog : Nat) :
    ∃ m, (listenOpen c backlog).kernel = { c.kernel with synQueueSize := m }.enter .LISTEN := by
  unfold listenOpen
  simp only
  rw [tcpChangeState_kernel]
  exact ⟨_, rfl⟩

theorem start_cases (c : Ctx) (req : Request) :
    Start api c.kernel req (start api c req).1.kernel := by
  cases req with
  | connect a p => exact tcpConnect_cases api c a p
  | listen backlog =>
    obtain ⟨m, hm⟩ := listenOpen_kernel c backlog
    cases api with
    | c =>
      by_cases hs : c.state = .CLOSED
      · have hr : (start .c c (.listen backlog)).1 = listenOpen c backlog := by
          simp [start, tcpListen, returned, hs]
        rw [hr, hm]
        exact .listen fun _ => hs
      · have hr : (start .c c (.listen backlog)).1 = c := by
          simp [start, tcpListen, returned, hs]
        rw [hr]
        exact .idle
    | spark first =>
      show Start (.spark first) c.kernel (.listen backlog) (listenOpen c backlog).kernel
      rw [hm]
      exact .listen nofun
  | send data flags =>
    have hk : (tcpSend c data flags).1.kernel = c.kernel := by
      unfold tcpSend
      split
      · rfl
      · exact waitFor_kernel _ _ _
    show Start api c.kernel _ (tcpSend c data flags).1.kernel
    rw [hk]
    exact .idle
  | receive data flags =>
    have hk : (start api c (.receive data flags)).1.kernel = c.kernel := by
      cases api with
      | c =>
        simp only [start, tcpReceiveStart]
        split
        · rfl
        · exact receiveMore_kernel _ _ _ _
      | spark first => exact receiveMore_kernel _ _ _ _
    rw [hk]
    exact .idle
  | shutdown how =>
    have hk : (start api c (.shutdown how)).1.kernel = c.kernel := by
      cases api with
      | c =>
        simp only [start, tcpShutdown]
        split
        · split <;> first | rfl | exact waitFor_kernel _ _ _ | exact shutdownReceive_kernel _ _
        · exact shutdownReceive_kernel _ _
      | spark first =>
        simp only [start, Spark.tcpShutdown]
        split
        · split
          · exact waitFor_kernel _ _ _
          · rename_i hno
            unfold Spark.shutdownSend
            cases hs : c.state <;> simp [hs] at hno ⊢
        · exact shutdownReceive_kernel _ _
    rw [hk]
    exact .idle
  | setTxBufferSize size =>
    simp only [start, returned, socketSetTxBufferSize]
    repeat' split
    any_goals exact .idle
    rename_i h1 _ h3
    exact .setTxBufferSize (not_not.mp h3) (by omega)
  | setRxBufferSize size =>
    simp only [start, returned, socketSetRxBufferSize]
    repeat' split
    any_goals exact .idle
    rename_i h1 _ h3
    exact .setRxBufferSize (not_not.mp h3) (by omega)
  | bind a p =>
    simp only [start, returned, socketBind]
    split
    · exact .idle
    · exact .bind

theorem resume_work {c c' : Ctx} {call : Call} (h : Does (Work none) c c') {k : Kernel}
    (hk : k = c'.kernel) : Resume api c.kernel call k := by
  rw [hk]
  exact .work h.chain

theorem resumeSend_cases (c : Ctx) (data : List UInt8) (flags : SocketFlags) (call : Call) :
    Resume api c.kernel call (resumeSend c data flags).1.kernel := by
  have h := does_tcpSendStep c c.eventFlags data flags
  unfold resumeSend
  split
  · rename_i c1 rest e hstep
    rw [hstep] at h
    exact resume_work api h rfl
  · rename_i c1 rest hstep
    rw [hstep] at h
    refine resume_work api h ?_
    split
    · exact waitFor_kernel _ _ _
    · split
      · exact waitFor_kernel _ _ _
      · rfl

theorem receiveTurn_cases {cut : Nat → List UInt8 → UInt8 → Nat}
    (hcut : ∀ received piece ch, cut received piece ch ≤ piece.length) (c : Ctx)
    (data : List UInt8) (received : Nat) (flags : SocketFlags) (call : Call) :
    Resume api c.kernel call (receiveTurn cut c data received flags).1.kernel := by
  have h := does_receiveStep hcut c c.eventFlags data received flags
  unfold receiveTurn
  split
  · rename_i c1 _ _ e hstep
    rw [hstep] at h
    exact resume_work api h rfl
  · rename_i c1 _ _ hstep
    rw [hstep] at h
    exact resume_work api h (receiveMore_kernel _ _ _ _)

theorem resumeShutdownFlush_cases (c : Ctx) (how : SocketShutdownFlags) (next : TcpState)
    (call : Call) : Resume api c.kernel call (resumeShutdownFlush c how next).1.kernel := by
  have h := does_tcpSendStep c c.eventFlags [] SOCKET_FLAG_NO_DELAY
  unfold resumeShutdownFlush
  split
  · rename_i c1 _ e hstep
    rw [hstep] at h
    exact resume_work api h rfl
  · rename_i c1 _ hstep
    rw [hstep] at h
    exact resume_work api h (waitFor_kernel _ _ _)

theorem shutdownSent_cases {c : Ctx} {call : Call} {next : TcpState}
    (hr : FinReady api c.kernel call next) (how : SocketShutdownFlags) :
    Resume api c.kernel call (shutdownSent c how next).1.kernel := by
  have hfin : (shutdownSent c how next).1.kernel = (shutdownFin c next).1.kernel := by
    unfold shutdownSent
    split
    · rename_i c1 hfin
      rw [waitFor_kernel, hfin]
    · rename_i c1 e _ hfin
      rw [hfin]
  rw [hfin]
  obtain h | h := shutdownFin_cases c next
  · rw [h]; exact .work .refl
  · exact .fin next hr h

theorem resume_c_cases (c : Ctx) (call : Call) :
    Resume .c c.kernel call (resume c call).1.kernel := by
  cases call with
  | connect =>
    simp only [resume, resumeConnect]
    split
    · exact .work .refl
    · split <;> exact .work .refl
  | send data flags => exact resumeSend_cases .c c data flags _
  | sendAck =>
    simp only [resume, resumeSendAck]
    split
    · exact .work .refl
    · split <;> exact .work .refl
  | receive data received flags =>
    exact receiveTurn_cases .c (fun _ => breakLength_le) c data received flags _
  | shutdownFlush how next => exact resumeShutdownFlush_cases .c c how next _
  | shutdownDone how next =>
    simp only [resume, resumeShutdownDone]
    split
    · exact .work .refl
    · exact shutdownSent_cases .c ⟨how, rfl⟩ how
  | shutdownTx how =>
    simp only [resume, resumeShutdownTx]
    split
    · exact .work .refl
    · rw [shutdownReceive_kernel]; exact .work .refl
  | shutdownRx => exact .work .refl

theorem shutdownSend_cases (first : Nat) (c : Ctx) (how : SocketShutdownFlags) (call : Call) :
    Resume (.spark first) c.kernel call (Spark.shutdownSend c how).1.kernel := by
  unfold Spark.shutdownSend
  split
  case h_3 hs => exact shutdownSent_cases (.spark first) (Or.inl ⟨hs, rfl⟩) how
  case h_4 hs => exact shutdownSent_cases (.spark first) (Or.inr ⟨hs, rfl⟩) how
  all_goals first
    | rw [shutdownReceive_kernel]; exact .work .refl
    | rw [waitFor_kernel]; exact .work .refl
    | exact .work .refl

/-- Outside the two waits in which the implementations differ, the guard on a FIN is not needed. -/
theorem Resume.of_c {first : Nat} {k k' : Kernel} {call : Call} (h : Resume .c k call k')
    (hd : ∀ how next, call ≠ .shutdownDone how next) : Resume (.spark first) k call k' := by
  cases h with
  | work h => exact .work h
  | fin next hr h =>
    obtain ⟨how, rfl⟩ := hr
    exact absurd rfl (hd how next)

theorem resume_cases (c : Ctx) (call : Call) :
    Resume api c.kernel call (resumeCall api c call).1.kernel := by
  cases api with
  | c => exact resume_c_cases c call
  | spark first =>
    cases call with
    | receive data received flags =>
      exact receiveTurn_cases _ (breakCut_le first) c data received flags _
    | shutdownDone how next =>
      show Resume _ _ _ (Spark.resumeShutdownDone c how).1.kernel
      unfold Spark.resumeShutdownDone
      split
      · exact .work .refl
      · exact shutdownSend_cases first c how _
    | connect => exact (resume_c_cases c _).of_c nofun
    | send data flags => exact (resume_c_cases c _).of_c nofun
    | sendAck => exact (resume_c_cases c _).of_c nofun
    | shutdownFlush how next => exact (resume_c_cases c _).of_c nofun
    | shutdownTx how => exact (resume_c_cases c _).of_c nofun
    | shutdownRx => exact (resume_c_cases c _).of_c nofun

/-! ## Suspended shutdown calls -/

/-- The call waits for its pending data to be sent, to send a FIN then. -/
def Progress.beforeFin : Progress → Bool
  | .blocked (.shutdownDone _ _) => true
  | _ => false

theorem receiveMore_not_beforeFin (c : Ctx) (data : List UInt8) (received : Nat) (flags : SocketFlags) :
    (receiveMore c data received flags).2.beforeFin = false := by
  unfold receiveMore
  split <;> rfl

theorem shutdownReceive_not_beforeFin (c : Ctx) (how : SocketShutdownFlags) :
    (shutdownReceive c how).2.beforeFin = false := by
  unfold shutdownReceive
  split
  · split <;> rfl
  · rfl

theorem shutdownSent_not_beforeFin (c : Ctx) (how : SocketShutdownFlags) (next : TcpState) :
    (shutdownSent c how next).2.beforeFin = false := by
  unfold shutdownSent
  split <;> rfl

theorem shutdownSend_not_beforeFin (c : Ctx) (how : SocketShutdownFlags) :
    (Spark.shutdownSend c how).2.beforeFin = false := by
  unfold Spark.shutdownSend
  split <;> first | rfl | exact shutdownSent_not_beforeFin _ _ _ | exact shutdownReceive_not_beforeFin _ _

theorem start_not_beforeFin (c : Ctx) (req : Request) : (start api c req).2.beforeFin = false := by
  cases req with
  | connect a p =>
    simp only [start, tcpConnect]
    split
    · split <;> rfl
    · rfl
  | listen backlog => cases api <;> rfl
  | send data flags =>
    simp only [start, tcpSend]
    split <;> rfl
  | receive data flags =>
    cases api with
    | c =>
      simp only [start, tcpReceiveStart]
      split
      · rfl
      · exact receiveMore_not_beforeFin _ _ _ _
    | spark first => exact receiveMore_not_beforeFin _ _ _ _
  | shutdown how =>
    cases api with
    | c =>
      simp only [start, tcpShutdown]
      split
      · split <;> first | rfl | exact shutdownReceive_not_beforeFin _ _
      · exact shutdownReceive_not_beforeFin _ _
    | spark first =>
      simp only [start, Spark.tcpShutdown]
      split
      · split
        · rfl
        · exact shutdownSend_not_beforeFin _ _
      · exact shutdownReceive_not_beforeFin _ _
  | setTxBufferSize size => rfl
  | setRxBufferSize size => rfl
  | bind a p => rfl

/-- A call comes to that wait from a state in which data can be sent. -/
theorem resume_not_beforeFin (c : Ctx) (call : Call) (hs : ¬c.state.sendable) :
    (resumeCall api c call).2.beforeFin = false := by
  have hreceive : ∀ cut data received flags,
      (receiveTurn cut c data received flags).2.beforeFin = false := by
    intro cut data received flags
    unfold receiveTurn
    split
    · rfl
    · exact receiveMore_not_beforeFin _ _ _ _
  cases call with
  | connect =>
    cases api <;> simp only [resumeCall, resume, Spark.resume, resumeConnect] <;>
      (repeat' split) <;> rfl
  | send data flags =>
    cases api <;> simp only [resumeCall, resume, Spark.resume, resumeSend] <;>
      (repeat' split) <;> rfl
  | sendAck =>
    cases api <;> simp only [resumeCall, resume, Spark.resume, resumeSendAck] <;>
      (repeat' split) <;> rfl
  | receive data received flags => cases api <;> exact hreceive _ _ _ _
  | shutdownFlush how next =>
    have hflush : (resumeShutdownFlush c how next).2.beforeFin = false := by
      unfold resumeShutdownFlush tcpSendStep
      by_cases he : c.eventFlags = SOCKET_EVENT_TX_READY
      · cases hstate : c.state <;>
          first | exact absurd (by rw [hstate]; rfl) hs | simp [he, Progress.beforeFin]
      · simp [he, Progress.beforeFin]
    cases api <;> exact hflush
  | shutdownDone how next =>
    cases api with
    | c =>
      simp only [resumeCall, resume, resumeShutdownDone]
      split
      · rfl
      · exact shutdownSent_not_beforeFin _ _ _
    | spark first =>
      simp only [resumeCall, Spark.resume, Spark.resumeShutdownDone]
      split
      · rfl
      · exact shutdownSend_not_beforeFin _ _
  | shutdownTx how =>
    cases api <;> simp only [resumeCall, resume, Spark.resume, resumeShutdownTx] <;> split <;>
      first | rfl | exact shutdownReceive_not_beforeFin _ _
  | shutdownRx => cases api <;> rfl

end Cyclone
