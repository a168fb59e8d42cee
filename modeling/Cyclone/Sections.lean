import Cyclone.Settle
import Cyclone.Host

/-!
# Cyclone.Sections

One socket under everything that can happen to it: a `Section` is what one task does to a socket
while it holds the mutex, `Section.run` its effect.

* `settles_start`, `settles_resume`, `settles_socketClose`: the user calls as chains of acts.
* `host_sections`: what an event of the host does to an entry is a list of sections.
-/

namespace Cyclone

open Serial Relation Run

variable {rx : Option Packet} {c c' c1 : Ctx} {p : Packet}

theorem settles_same (h : Act rx c c') (hs : SameEvents c c') : Settles rx c c' :=
  ⟨.single h, hs.waked⟩

/-! ## Waiting -/

theorem settles_tcpWaitBegin (c : Ctx) (mask : SocketEvent) :
    Settles none c (tcpWaitBegin c mask) := by
  refine ⟨.single (.wait mask rfl), fun hw => ?_⟩
  have hu : (tcpWaitBegin c mask).sndUser = c.sndUser :=
    congrArg (·.sndUser) (tcpWaitBegin_kernel c mask)
  refine ⟨by rw [hu]; exact hw.user, fun _ => ?_⟩
  obtain ⟨hf, he⟩ := fresh_tcpUpdateEvents { c with eventMask := mask }
  unfold tcpWaitBegin
  simp only
  split
  · rename_i h0
    exact ⟨hf, fun hne => absurd h0 hne⟩
  · exact ⟨hf, he⟩

theorem settles_waitFor (c : Ctx) (mask : SocketEvent) (call : Call) :
    Settles none c (waitFor c mask call).1 := settles_tcpWaitBegin c mask

/-! ## Opening -/

theorem settles_buffers (tx rx' : NetBuffer)
    (hq : Quiet { c with txBuffer := tx, rxBuffer := rx' } c') : Settles none c c' :=
  (settles_same (.buffers tx rx') ⟨fun h => h, rfl, rfl, fun _ => rfl, fun _ => rfl⟩).trans hq.settles

theorem settles_allocBuffers (c : Ctx) : Settles none c (allocBuffers c).1 := by
  obtain ⟨tx, rx', hk, haux, -⟩ := allocBuffers_cases (c := c) rfl
  have hcore := congrArg (·.toSockCore) hk
  refine settles_buffers tx rx' ⟨hcore, ?_, ?_, ?_, ?_, ?_⟩
  · exact congrArg (·.toSockEvents) haux
  · exact congrArg (·.toMssVars) haux
  · exact congrArg (·.toWndVars) haux
  · exact congrArg (·.retransmitTimer.running) haux
  · exact congrArg (·.persistTimer) haux

theorem settles_tcpDeleteControlBlock (hs : c.state = .CLOSED) :
    Settles none c (tcpDeleteControlBlock c) := by
  obtain ⟨hk, he⟩ := tcpDeleteControlBlock_kernel c
  refine settles_same (.release (by rw [hs]; rfl)) ?_
  exact sameEvents_closed hs (tcpDeleteControlBlock_user c) (congrArg (·.state) hk) he

theorem restarted_initActive (c : Ctx) : Restarted c (initActive c) :=
  ⟨rfl, rfl, rfl, rfl, rfl, rfl, rfl, rfl, rfl, rfl, rfl⟩

/-- The control block, then the SYN. -/
theorem settles_connectSyn (hs : c.state = .CLOSED) :
    Settles none c (match tcpSendSegment (initActive c) { syn := true } (initActive c).iss 0 0 true with
      | (c, .NO_ERROR) => (tcpChangeState c .SYN_SENT, Error.NO_ERROR)
      | (c, error) => (c, error)).1 := by
  have hr := restarted_initActive c
  have hs1 : (initActive c).state = .CLOSED := hs
  have h1 : Settles none c (initActive c) :=
    settles_same (.restart hs hr) (sameEvents_closed hs rfl rfl rfl)
  have hsent := queues_tcpSendSegment (initActive c) { syn := true } (initActive c).iss 0 0
  generalize initActive c = c1 at hr hs1 h1 hsent
  split
  · rename_i c2 hsend
    rw [hsend] at hsent
    obtain ⟨-, hno⟩ | ⟨item, hi, hq⟩ := hsent
    · exact absurd rfl hno
    · exact .change .refl (.synSent rfl hs hr hi hq)
  · rename_i c2 e hne hsend
    rw [hsend] at hsent
    obtain ⟨ho, -⟩ | ⟨item, hi, hq⟩ := hsent
    · exact h1.trans ho.quiet.settles
    · exact h1.trans (settles_same (.synTried hs1 hq) hq.sameEvents)

theorem settles_connectOpen (hs : c.state = .CLOSED) (a : IpAddr) (port : Port) :
    Settles none c (connectOpen c a port).1 := by
  have hid : ∀ (id : SockId) (e : Env), Settles none c { c with toSockId := id, toEnv := e } :=
    fun id e => (settles_same (.id id) ⟨fun h => h, rfl, rfl, fun _ => rfl, fun _ => rfl⟩).trans
      (OnlySends.env _ e).quiet.settles
  unfold connectOpen
  simp only
  split
  case h_2 => exact hid _ _
  split
  · exact hid _ _
  let c1 : Ctx := { c with
    remoteIpAddr := a, remotePort := port, tick := c.tick + 1
    interface := (c.selectSourceAddr c.tick c.interface a).2.1
    localIpAddr := (c.selectSourceAddr c.tick c.interface a).2.2 }
  let c2 : Ctx := { c1 with ownedFlag := true }
  have h1 : Settles none c c1 := hid _ _
  have h2 : Settles none c c2 := h1.trans (settles_same (.owned true)
    (sameEvents_closed hs rfl rfl rfl))
  have h3 : Settles none c (allocBuffers c2).1 := h2.trans (settles_allocBuffers c2)
  have hs3 : (allocBuffers c2).1.state = .CLOSED := by
    obtain ⟨tx, rx', hk, -, -⟩ := allocBuffers_cases (c := c2) rfl
    exact (congrArg (·.state) hk).trans hs
  show Settles none c (match allocBuffers c2 with
    | (c, .NO_ERROR) =>
      match tcpSendSegment (initActive c) { syn := true } (initActive c).iss 0 0 true with
      | (c, .NO_ERROR) => (tcpChangeState c .SYN_SENT, Error.NO_ERROR)
      | (c, error) => (c, error)
    | (c, error) => (tcpDeleteControlBlock c, error)).1
  split
  · rename_i c3 hr
    rw [hr] at h3 hs3
    exact h3.trans (settles_connectSyn hs3)
  · rename_i c3 e _ hr
    rw [hr] at h3 hs3
    exact h3.trans (settles_tcpDeleteControlBlock hs3)

theorem settles_tcpConnect (c : Ctx) (a : IpAddr) (port : Port) :
    Settles none c (tcpConnect c a port).1 := by
  unfold tcpConnect
  simp only
  split
  · rename_i hs
    have h1 := settles_connectOpen hs a port
    split
    · rename_i c1 hopen
      rw [hopen] at h1
      exact h1.trans (settles_waitFor _ _ _)
    · rename_i c1 e _ hopen
      rw [hopen] at h1
      exact h1
  · exact settles_waitFor _ _ _

theorem settles_listenOpen (c : Ctx) (backlog : Nat) : Settles none c (listenOpen c backlog) :=
  .change (.single (.backlog _)) (.listen rfl)

/-! ## Sending and receiving -/

theorem settles_sendWrite (hs : c.state.sendable) (data : List UInt8) :
    Settles none c (sendWrite c data) := by
  have hcore : ∃ b, tcpWriteTxBuffer c.toSockCore (c.sndNxt + w32 c.sndUser) data =
      { c.toSockCore with txBuffer := b } := by
    simp only [tcpWriteTxBuffer]
    split <;> exact ⟨_, rfl⟩
  obtain ⟨b, hcore⟩ := hcore
  let c1 : Ctx := { c with
    toSockCore := { tcpWriteTxBuffer c.toSockCore (c.sndNxt + w32 c.sndUser) data with
      sndUser := u16 (c.sndUser + data.length) }
    accepted := c.accepted ++ data }
  have h1 : Acts none c c1 := by
    refine .single (.write b (u16 (c.sndUser + data.length)) hs (u16_lt _)
      ⟨?_, rfl, rfl, rfl, rfl, rfl⟩)
    show { tcpWriteTxBuffer c.toSockCore (c.sndNxt + w32 c.sndUser) data with
      sndUser := u16 (c.sndUser + data.length) } = _
    rw [hcore]
  have h2 : Settles none c (tcpUpdateEvents c1) := .update h1
  unfold sendWrite
  simp only
  split
  · exact h2.trans (Quiet.settles ⟨rfl, rfl, rfl, rfl, rfl, rfl⟩)
  · exact h2

theorem settles_tcpSendStep (c : Ctx) (event : SocketEvent) (data : List UInt8)
    (flags : SocketFlags) : Settles none c (tcpSendStep c event data flags).1 := by
  have hsend : c.state.sendable → ∀ n, Settles none c
      (tcpNagleAlgo (if n > 0 then sendWrite c (data.take n) else c) flags).1 := by
    intro hs n
    have h1 : Settles none c (if n > 0 then sendWrite c (data.take n) else c) ∧
        (if n > 0 then sendWrite c (data.take n) else c).state = c.state := by
      split
      · refine ⟨settles_sendWrite hs _, ?_⟩
        unfold sendWrite
        simp only [tcpWriteTxBuffer]
        split <;> split <;> rfl
      · exact ⟨.refl c, rfl⟩
    exact h1.1.trans (settles_tcpNagleAlgo (by rw [h1.2]; exact hs) flags)
  unfold tcpSendStep
  split
  · exact .refl c
  split
  · rename_i hs
    simp only
    split
    · exact .refl c
    · exact hsend (by rw [hs]; rfl) _
  · rename_i hs
    simp only
    split
    · exact .refl c
    · exact hsend (by rw [hs]; rfl) _
  all_goals exact .refl c

theorem settles_receiveStep (cut : Nat → List UInt8 → UInt8 → Nat) (c : Ctx) (event : SocketEvent)
    (data : List UInt8) (received : Nat) (flags : SocketFlags) :
    Settles none c (receiveStep cut c event data received flags).1 := by
  unfold receiveStep
  split
  · exact .refl c
  split
  · exact .refl c
  · rename_i seqNum _
    simp only
    generalize (if flags.has SOCKET_FLAG_BREAK_CHAR then
      cut received (readPiece c.toSockCore seqNum data received).1 flags.lsb
      else (readPiece c.toSockCore seqNum data received).1.length) = n
    let c1 : Ctx := { c with
      rcvUser := u16Sub c.rcvUser n
      reads := c.reads ++ (readPiece c.toSockCore seqNum data received).2
      delivered := c.delivered ++ (readPiece c.toSockCore seqNum data received).1.take n }
    have h1 : Acts none c c1 :=
      .single (.rcv { c.toRcvVars with rcvUser := u16Sub c.rcvUser n } c.rxBuffer
        ⟨rfl, rfl, rfl, rfl, rfl, rfl⟩)
    have h2 : Acts none c1 (tcpUpdateReceiveWindow c1) := by
      unfold tcpUpdateReceiveWindow
      simp only
      split
      · let c2 : Ctx := { c1 with rcvWnd := u16 (c1.rcvWnd + windowReduction c1.toSockCore) }
        have h3 : Acts none c1 c2 := .single (.rcv c2.toRcvVars c1.rxBuffer
          ⟨rfl, rfl, rfl, rfl, rfl, rfl⟩)
        split
        · exact h3.tail (.quiet (quiet_bare _ _ _ _ _))
        · exact h3
      · exact .refl
    exact .update (h1.trans h2)

/-! ## Shutting down -/

theorem settles_shutdownFin (c : Ctx) {next : TcpState}
    (hn : next = .FIN_WAIT_1 ∨ next = .LAST_ACK) : Settles none c (shutdownFin c next).1 := by
  have hsent := queues_tcpSendSegment c { fin := true, ack := true } c.sndNxt c.rcvNxt 0
  unfold shutdownFin
  split
  · rename_i c1 hsend
    rw [hsend] at hsent
    obtain ⟨-, hno⟩ | ⟨item, hi, hq⟩ := hsent
    · exact absurd rfl hno
    · exact .change .refl (.fin hn hi hq)
  · rename_i c1 e _ hsend
    rw [hsend] at hsent
    obtain ⟨ho, -⟩ | ⟨item, hi, hq⟩ := hsent
    · exact ho.quiet.settles
    · exact settles_same (.finTried hi hq) hq.sameEvents

theorem settles_shutdownSent (c : Ctx) (how : SocketShutdownFlags) {next : TcpState}
    (hn : next = .FIN_WAIT_1 ∨ next = .LAST_ACK) : Settles none c (shutdownSent c how next).1 := by
  have h1 : Settles none c _ := settles_shutdownFin c hn
  unfold shutdownSent
  split
  · rename_i c1 hf
    rw [hf] at h1
    exact h1.trans (settles_waitFor _ _ _)
  · rename_i c1 e _ hf
    rw [hf] at h1
    exact h1

theorem settles_shutdownReceive (c : Ctx) (how : SocketShutdownFlags) :
    Settles none c (shutdownReceive c how).1 := by
  unfold shutdownReceive
  split
  · split <;> first | exact .refl c | exact settles_waitFor _ _ _
  · exact .refl c

theorem settles_tcpShutdown (c : Ctx) (how : SocketShutdownFlags) :
    Settles none c (tcpShutdown c how).1 := by
  unfold tcpShutdown
  split
  · split
    case h_9 => exact settles_shutdownReceive c how
    all_goals first | exact .refl c | exact settles_waitFor _ _ _
  · exact settles_shutdownReceive c how

theorem settles_spark_shutdownSend (c : Ctx) (how : SocketShutdownFlags) :
    Settles none c (Spark.shutdownSend c how).1 := by
  unfold Spark.shutdownSend
  split
  case h_3 => exact settles_shutdownSent c how (.inl rfl)
  case h_4 => exact settles_shutdownSent c how (.inr rfl)
  case h_8 => exact settles_shutdownReceive c how
  all_goals first | exact .refl c | exact settles_waitFor _ _ _

theorem settles_spark_tcpShutdown (c : Ctx) (how : SocketShutdownFlags) :
    Settles none c (Spark.tcpShutdown c how).1 := by
  unfold Spark.tcpShutdown
  split
  · split
    · exact settles_waitFor _ _ _
    · exact settles_spark_shutdownSend c how
  · exact settles_shutdownReceive c how

/-! ## Calls -/

theorem settles_receiveMore (c : Ctx) (data : List UInt8) (received : Nat) (flags : SocketFlags) :
    Settles none c (receiveMore c data received flags).1 := by
  unfold receiveMore
  split
  · exact settles_waitFor _ _ _
  · exact .refl c

theorem settles_receiveTurn (cut : Nat → List UInt8 → UInt8 → Nat) (c : Ctx) (data : List UInt8)
    (received : Nat) (flags : SocketFlags) :
    Settles none c (receiveTurn cut c data received flags).1 := by
  have h1 : Settles none c _ := settles_receiveStep cut c c.eventFlags data received flags
  unfold receiveTurn
  split
  · rename_i c1 _ _ e hr
    rw [hr] at h1
    exact h1
  · rename_i c1 data1 received1 hr
    rw [hr] at h1
    exact h1.trans (settles_receiveMore _ _ _ _)

theorem settles_bind (id : SockId) : Settles none c { c with toSockId := id } :=
  settles_same (.id id) ⟨fun h => h, rfl, rfl, fun _ => rfl, fun _ => rfl⟩

theorem settles_resize (hs : c.state = .CLOSED) (tx rx' : Nat)
    (ht : tx = c.txBufferSize ∨ tx ≤ TCP_MAX_TX_BUFFER_SIZE) :
    Settles none c { c with txBufferSize := tx, rxBufferSize := rx' } :=
  settles_same (.resize tx rx' hs ht) (sameEvents_closed hs rfl rfl rfl)

/-- A call up to its first wait. -/
theorem settles_start (api : Api) (c : Ctx) (req : Request) :
    Settles none c (start api c req).1 := by
  cases req with
  | connect a port => exact settles_tcpConnect c a port
  | listen backlog =>
    cases api with
    | c =>
      simp only [start, returned, tcpListen]
      split
      · exact .refl c
      · exact settles_listenOpen c backlog
    | spark first => exact settles_listenOpen c backlog
  | send data flags =>
    simp only [start, tcpSend]
    split
    · exact .refl c
    · exact settles_waitFor _ _ _
  | receive data flags =>
    cases api with
    | c =>
      simp only [start, tcpReceiveStart]
      split
      · exact .refl c
      · exact settles_receiveMore _ _ _ _
    | spark first => exact settles_receiveMore _ _ _ _
  | shutdown how =>
    cases api with
    | c => exact settles_tcpShutdown c how
    | spark first => exact settles_spark_tcpShutdown c how
  | setTxBufferSize size =>
    simp only [start, returned, socketSetTxBufferSize]
    split
    · exact .refl c
    rename_i hsize
    split
    · exact .refl c
    split
    · exact .refl c
    · rename_i hs
      exact settles_resize (by simpa using hs) _ _ (.inr (by omega))
  | setRxBufferSize size =>
    simp only [start, returned, socketSetRxBufferSize]
    split
    · exact .refl c
    split
    · exact .refl c
    split
    · exact .refl c
    · rename_i hs
      exact settles_resize (by simpa using hs) _ _ (.inl rfl)
  | bind a port =>
    simp only [start, returned, socketBind]
    split
    · exact .refl c
    · exact settles_bind _

/-- The state a suspended shutdown call is to enter is one of the two `tcpShutdown` sets. -/
def Call.sound : Call → Bool
  | .shutdownFlush _ next | .shutdownDone _ next => next == .FIN_WAIT_1 || next == .LAST_ACK
  | _ => true

/-- A call after one of its waits. -/
theorem settles_resume (c : Ctx) (call : Call) (hc : call.sound) :
    Settles none c (resume c call).1 := by
  cases call with
  | connect =>
    simp only [resume, resumeConnect]
    repeat' split
    all_goals exact .refl c
  | send data flags =>
    have h1 : Settles none c _ := settles_tcpSendStep c c.eventFlags data flags
    simp only [resume, resumeSend]
    split
    · rename_i c1 _ e hr
      rw [hr] at h1
      exact h1
    · rename_i c1 rest hr
      rw [hr] at h1
      split
      · exact h1.trans (settles_waitFor _ _ _)
      split
      · exact h1.trans (settles_waitFor _ _ _)
      · exact h1
  | sendAck =>
    simp only [resume, resumeSendAck]
    repeat' split
    all_goals exact .refl c
  | receive data received flags => exact settles_receiveTurn _ _ _ _ _
  | shutdownFlush how next =>
    have h1 : Settles none c _ := settles_tcpSendStep c c.eventFlags [] SOCKET_FLAG_NO_DELAY
    simp only [resume, resumeShutdownFlush]
    split
    · rename_i c1 _ e hr
      rw [hr] at h1
      exact h1
    · rename_i c1 _ hr
      rw [hr] at h1
      exact h1.trans (settles_waitFor _ _ _)
  | shutdownDone how next =>
    simp only [resume, resumeShutdownDone]
    split
    · exact .refl c
    · refine settles_shutdownSent c how ?_
      simpa [Call.sound] using hc
  | shutdownTx how =>
    simp only [resume, resumeShutdownTx]
    split
    · exact .refl c
    · exact settles_shutdownReceive c how
  | shutdownRx => exact .refl c

theorem settles_resumeCall (api : Api) (c : Ctx) (call : Call) (hc : call.sound) :
    Settles none c (resumeCall api c call).1 := by
  cases api with
  | c => exact settles_resume c call hc
  | spark first =>
    simp only [resumeCall, Spark.resume]
    split
    · exact settles_receiveTurn _ _ _ _ _
    · rename_i how next
      simp only [Spark.resumeShutdownDone]
      split
      · exact .refl c
      · exact settles_spark_shutdownSend c how
    · exact settles_resume c call hc

/-! ## Closing -/

theorem settles_closeSocket (c : Ctx) : Settles none c (closeSocket c) := by
  have hs := tcpChangeState_state c .CLOSED
  refine ((settles_close c).trans (settles_tcpDeleteControlBlock hs)).trans ?_
  exact settles_bind _

theorem settles_tcpAbort (c : Ctx) : Settles none c (tcpAbort c).1 := by
  unfold tcpAbort
  split
  case h_6 =>
    exact settles_same (.owned false) ⟨fun h => h, rfl, rfl, fun _ => rfl, fun _ => rfl⟩
  case h_7 => exact settles_closeSocket c
  all_goals exact (quiet_bare c _ _ _ _).settles.trans (settles_closeSocket _)

theorem settles_socketClose (c : Ctx) : Settles none c (socketClose c) := by
  unfold socketClose
  split
  · exact settles_tcpAbort c
  · exact settles_bind _
  · exact settles_bind _
  · exact settles_bind _
  · exact .refl c

/-! ## Sections -/

/-- What one holder of the mutex does to a socket. -/
inductive Section where
  /-- the surroundings of a section -/
  | env (env : Env)
  | net (e : NetEvent)
  | start (api : Api) (req : Request)
  | resume (api : Api) (call : Call)
  | close
  /-- `tcpKillOldestConnection` -/
  | kill
  /-- `socketOpen` takes the entry -/
  | opened (api : Api) (type : SocketType) (protocol : Nat) (localPort : Port)
  /-- `tcpAccept` on this socket: the mask for its wait -/
  | acceptWait
  /-- the first request is taken from the queue -/
  | popSyn (update : Bool)
  | resetCongestion
  /-- `tcpAccept` of `socket` gives this socket the connection of `item` -/
  | answer (socket : Socket) (item : TcpSynQueueItem)

/-- The new socket of an accept: SYN-RECEIVED, or disposed of. -/
def answerSection (socket : Socket) (item : TcpSynQueueItem) (c : Ctx) : Ctx :=
  match acceptOpen socket item c with
  | (c, .NO_ERROR) => tcpChangeState c .SYN_RECEIVED
  | (c, _) => (tcpAbort c).1

def sectionRun (c : Ctx) : Section → Ctx
  | .env env => { c with toEnv := env }
  | .net e => netStep c e
  | .start api req => (start api c req).1
  | .resume api call => (resumeCall api c call).1
  | .close => socketClose c
  | .kill => closeSocket c
  | .opened api type protocol localPort =>
    { c with toSocket := api.openedSocket c.toSocket type protocol localPort }
  | .acceptWait => { c with eventMask := SOCKET_EVENT_RX_READY, event := false }
  | .popSyn update => if update then tcpUpdateEvents (popSyn c) else popSyn c
  | .resetCongestion => { c with congestState := .IDLE }
  | .answer socket item => answerSection socket item c

theorem settles_netStep (c : Ctx) (e : NetEvent) : Settles e.packet c (netStep c e) := by
  cases e with
  | segment env p =>
    exact (OnlySends.env c env).quiet.settles.trans (settles_tcpProcessState _ p)
  | tick env => exact (OnlySends.env c env).quiet.settles.trans (settles_tcpTickSocket _)

end Cyclone
