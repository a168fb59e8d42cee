import Cyclone.Entries

/-!
# Cyclone.Requests

Connection requests from the segment to the accepted socket, against `Tcp_Syn_Queue_Item_Model`.

* `tcpStateListen_queue`: what a segment adds to the queue of a listening socket.
* `acceptOn_post`: the socket an accept returns is that of the request.
* `requests_model`: the queues and the accepts of a run without a SYN from port 0.
-/

namespace Cyclone

open Serial Relation Run

variable {n : Nat} {h : Host n} {c c' : Ctx} {p : Packet} {rx : Option Packet}

/-- `Is_Initialized_Ip`. -/
def isInitializedIp (a : IpAddr) : Bool := a.length == sizeofIpv4Addr || a.length == sizeofIpv6Addr

/-- `Tcp_Syn_Queue_Item_Model` for one item. -/
structure SynItemModel (item : TcpSynQueueItem) : Prop where
  src : isInitializedIp item.srcAddr = true
  port : 0 < item.srcPort.toNat
  dest : isInitializedIp item.destAddr = true

/-- `Tcp_Syn_Queue_Item_Model`. -/
def SynQueueModel (queue : List TcpSynQueueItem) : Prop := ∀ item ∈ queue, SynItemModel item

theorem SynQueueModel.tail {queue : List TcpSynQueueItem} (hq : SynQueueModel queue) :
    SynQueueModel queue.tail := fun item hi => hq item (List.mem_of_mem_tail hi)

/-- The addresses of a request are set; its port is that of the segment. -/
theorem RequestOf.model {item : TcpSynQueueItem} (hi : RequestOf p item) :
    SynItemModel item ↔ 0 < p.segment.srcPort.toNat := by
  have haddrs := hi.addrs
  have hset : isInitializedIp item.srcAddr = true ∧ isInitializedIp item.destAddr = true := by
    unfold synAddrs at haddrs
    split at haddrs
    · simp only [Option.some.injEq, Prod.mk.injEq] at haddrs
      obtain ⟨h1, h2⟩ := haddrs
      rw [← h1, ← h2]
      exact ⟨rfl, rfl⟩
    · split at haddrs
      · simp only [Option.some.injEq, Prod.mk.injEq] at haddrs
        obtain ⟨h1, h2⟩ := haddrs
        rw [← h1, ← h2]
        exact ⟨rfl, rfl⟩
      · cases haddrs
  rw [← hi.port]
  exact ⟨fun h => h.port, fun h => ⟨hset.1, h, hset.2⟩⟩

/-! ## Segments -/

/-- A listening socket queues the request of a SYN segment, or leaves its queue alone. -/
theorem tcpStateListen_queue (c : Ctx) (p : Packet) :
    (tcpStateListen c p).synQueue = c.synQueue ∨
      ∃ item, RequestOf p item ∧ (tcpStateListen c p).synQueue = c.synQueue ++ [item] := by
  have hreset : (tcpSendResetSegment c p.pseudoHeader p.segment p.length).1.synQueue =
      c.synQueue :=
    congrArg (·.synQueue) (onlySends_tcpSendResetSegment c p.pseudoHeader p.segment p.length).quiet.core
  unfold tcpStateListen
  split
  · exact .inl rfl
  split
  · exact .inl hreset
  split
  case isFalse => exact .inl rfl
  rename_i hsyn
  split
  · exact .inl rfl
  split
  · exact .inl rfl
  simp only
  split
  · split
    · exact .inl rfl
    · rename_i src dst haddrs
      exact .inr ⟨_, ⟨hsyn, haddrs, rfl, rfl⟩, rfl⟩
  · exact .inl rfl

theorem tcpUpdateRetransmitQueue_syn (c : Ctx) :
    (tcpUpdateRetransmitQueue c).synQueue = c.synQueue :=
  congrArg (·.synQueue) (tcpUpdateRetransmitQueue_kernel c).1

theorem tcpChangeState_queues (c : Ctx) (s : TcpState) :
    (tcpChangeState c s).toQueueVars = c.toQueueVars := by
  simp only [tcpChangeState]
  repeat' split
  all_goals rfl

theorem tcpChangeState_syn (c : Ctx) (s : TcpState) :
    (tcpChangeState c s).synQueue = c.synQueue :=
  congrArg (·.synQueue) (tcpChangeState_queues c s)

theorem tcpDeleteControlBlock_syn (c : Ctx) : (tcpDeleteControlBlock c).synQueue = [] :=
  congrArg (·.synQueue) (tcpDeleteControlBlock_kernel c).1

/-- The queue after an act: nothing new, or the request of the segment at hand. -/
theorem Act.synQueue (h : Act rx c c') :
    c'.synQueue = c.synQueue ∨ c'.synQueue = [] ∨
      ∃ p item, rx = some p ∧ c.state = .LISTEN ∧ RequestOf p item ∧
        c'.synQueue = c.synQueue ++ [item] := by
  cases h with
  | quiet h => exact .inl (congrArg (·.synQueue) h.core)
  | @data c1 item n w ok _ _ _ _ _ _ hq =>
    have h1 : c1.synQueue = c.synQueue := congrArg (·.synQueue) hq.core
    cases ok <;> exact .inl h1
  | ack _ _ _ _ hq =>
    exact .inl ((tcpUpdateRetransmitQueue_syn _).trans (congrArg (·.synQueue) hq.core))
  | window segment => exact .inl (congrArg (·.synQueue) (tcpUpdateSendWindow_core c segment))
  | rcv _ _ hq => exact .inl (congrArg (·.synQueue) hq.core)
  | enter => exact .inl (tcpChangeState_syn _ _)
  | listen => exact .inl (tcpChangeState_syn _ _)
  | syn _ _ _ hq =>
    exact .inl ((tcpUpdateRetransmitQueue_syn _).trans (congrArg (·.synQueue) hq.core))
  | crossed _ _ hq => exact .inl (congrArg (·.synQueue) hq.core)
  | established _ _ hq =>
    exact .inl ((tcpChangeState_syn _ _).trans (congrArg (·.synQueue) hq.core))
  | release => exact .inr (.inl (tcpDeleteControlBlock_syn c))
  | timeWait hq =>
    exact .inr (.inl ((tcpChangeState_syn _ _).trans
      ((congrArg (·.synQueue) hq.core).trans (tcpDeleteControlBlock_syn c))))
  | queueSyn hp hs hi hq =>
    exact .inr (.inr ⟨_, _, hp, hs, hi, congrArg (·.synQueue) hq.core⟩)
  | write _ _ _ _ hq => exact .inl (congrArg (·.synQueue) hq.core)
  | wait mask => exact .inl (congrArg (·.synQueue) (tcpWaitBegin_kernel c mask))
  | fin _ _ hq => exact .inl ((tcpChangeState_syn _ _).trans (congrArg (·.synQueue) hq.core))
  | finTried _ hq => exact .inl (congrArg (·.synQueue) hq.core)
  | restart _ h => exact .inl (congrArg (·.synQueue) h.queues)
  | synTried _ hq => exact .inl (congrArg (·.synQueue) hq.core)
  | synSent _ _ h _ hq =>
    exact .inl ((tcpChangeState_syn _ _).trans
      ((congrArg (·.synQueue) hq.core).trans (congrArg (·.synQueue) h.queues)))
  | _ => exact .inl rfl

/-- Acts outside LISTEN, or without a segment, queue nothing. -/
theorem acts_model (h : Acts rx c c') (hs : rx = none ∨ c.state ≠ .LISTEN)
    (hq : SynQueueModel c.synQueue) : SynQueueModel c'.synQueue := by
  have hinv : (rx = none ∨ c'.state ≠ .LISTEN) ∧ SynQueueModel c'.synQueue := by
    refine Run.chain_inv (P := fun c => (rx = none ∨ c.state ≠ .LISTEN) ∧
      SynQueueModel c.synQueue) h ⟨hs, hq⟩ ?_
    intro c c' ha hc
    obtain ⟨hs, hq⟩ := hc
    refine ⟨?_, ?_⟩
    · cases rx with
      | none => exact .inl rfl
      | some p => exact .inr (ha.not_listen (hs.resolve_left nofun))
    · obtain h1 | h1 | ⟨p, item, rfl, hl, -, -⟩ := ha.synQueue
      · rw [h1]; exact hq
      · rw [h1]; exact nofun
      · exact absurd hl (hs.resolve_left nofun)
  exact hinv.2

/-- A SYN from port 0 does not reach a socket in LISTEN. -/
def PortSet (state : TcpState) (p : Packet) : Prop :=
  state = .LISTEN → p.segment.flags.syn = true → 0 < p.segment.srcPort.toNat

theorem model_netStep {e : NetEvent} (hq : SynQueueModel c.synQueue)
    (hp : ∀ p, e.packet = some p → PortSet c.state p) : SynQueueModel (netStep c e).synQueue := by
  by_cases hs : c.state = .LISTEN
  · cases e with
    | segment env p =>
      have hstep : netStep c (.segment env p) = tcpStateListen { c with toEnv := env } p := by
        simp only [netStep, tcpProcessState, hs]
      rw [hstep]
      obtain h1 | ⟨item, hi, h1⟩ := tcpStateListen_queue { c with toEnv := env } p
      · rw [h1]; exact hq
      · rw [h1]
        intro i hmem
        rw [List.mem_append, List.mem_singleton] at hmem
        obtain hmem | rfl := hmem
        · exact hq i hmem
        · exact hi.model.mpr (hp p rfl hs hi.syn)
    | tick env => exact acts_model (settles_netStep c (.tick env)).acts (.inl rfl) hq
  · exact acts_model (settles_netStep c e).acts (.inr hs) hq

/-! ## Sections -/

theorem acceptOpen_syn (socket : Socket) (item : TcpSynQueueItem) (c : Ctx) :
    (acceptOpen socket item c).1.synQueue = c.synQueue := by
  have hcase := acceptOpen_cases socket item c
  generalize acceptOpen socket item c = r at hcase
  obtain ⟨c1, e⟩ := r
  show c1.kernel.synQueue = c.kernel.synQueue
  generalize c1.kernel = k at hcase
  cases hcase <;> rfl

theorem model_section {s : Section} (hq : SynQueueModel c.synQueue)
    (hnet : ∀ e p, s = .net e → e.packet = some p → PortSet c.state p)
    (hcall : ∀ api call, s = .resume api call → call.sound) :
    SynQueueModel (sectionRun c s).synQueue := by
  cases s with
  | net e => exact model_netStep hq fun p hp => hnet e p rfl hp
  | start api req => exact acts_model (settles_start api c req).acts (.inl rfl) hq
  | resume api call =>
    exact acts_model (settles_resumeCall api c call (hcall api call rfl)).acts (.inl rfl) hq
  | close => exact acts_model (settles_socketClose c : Settles none c _).acts (.inl rfl) hq
  | kill => exact acts_model (settles_closeSocket c : Settles none c _).acts (.inl rfl) hq
  | opened api => cases api <;> exact nofun
  | popSyn update => cases update <;> exact hq.tail
  | answer socket item =>
    have h1 : SynQueueModel (acceptOpen socket item c).1.synQueue := by
      rw [acceptOpen_syn]; exact hq
    show SynQueueModel (answerSection socket item c).synQueue
    unfold answerSection
    split
    · rename_i c1 ho
      rw [ho] at h1
      rw [tcpChangeState_syn]; exact h1
    · rename_i c1 e _ ho
      rw [ho] at h1
      exact acts_model (settles_tcpAbort c1 : Settles none c1 _).acts (.inl rfl) h1
  | _ => exact hq

/-! ## Accepts -/

/-- The connection request an accept is about. -/
def Stage.item : Stage n → Option TcpSynQueueItem
  | .opening item | .opened item _ => some item
  | _ => none

/-- The queues and the accepts under way hold requests as `Tcp_Syn_Queue_Item_Model` has them. -/
structure RequestsModel (h : Host n) : Prop where
  queue : ∀ i, SynQueueModel (h.table i).ctx.synQueue
  accepts : ∀ a ∈ h.accepts, ∀ item, a.stage.item = some item → SynItemModel item

/-- No SYN from port 0 comes to a socket in LISTEN. -/
def PortsSet (h : Host n) : HostEvent n → Prop
  | .segment _ p => ∀ i, findSocket h p = some i → PortSet (h.table i).ctx.state p
  | _ => True

theorem acceptStep_item {api : Api} {env : Env} {i : Fin n} {stage stage' : Stage n}
    (hq : SynQueueModel (h.table i).ctx.synQueue)
    (hi : ∀ item, stage.item = some item → SynItemModel item) {h' : Host n}
    (hs : acceptStep api h env i stage = (h', some stage')) (item : TcpSynQueueItem)
    (hitem : stage'.item = some item) : SynItemModel item := by
  have hhead : ∀ item rest, (h.table i).ctx.synQueue = item :: rest → SynItemModel item :=
    fun item rest heq => hq item (by rw [heq]; exact List.mem_cons_self)
  cases stage with
  | start =>
    simp only [acceptStep, acceptTurn, Prod.mk.injEq, Option.some.injEq] at hs
    split at hs
    · obtain ⟨-, rfl⟩ := hs
      cases hitem
    · rename_i item1 rest heq
      obtain ⟨-, rfl⟩ := hs
      cases hitem
      exact hhead _ _ heq
  | wait =>
    simp only [acceptStep] at hs
    split at hs
    · cases hs
    · rename_i item1 rest heq
      cases hs
      cases hitem
      exact hhead _ _ heq
  | opening item1 =>
    simp only [acceptStep, Prod.mk.injEq, Option.some.injEq] at hs
    obtain ⟨-, rfl⟩ := hs
    exact hi item hitem
  | opened item1 newSocket =>
    cases newSocket with
    | none =>
      cases hs
      cases hitem
    | some m =>
      have hnone : stage'.item = none := by
        simp only [acceptStep, acceptOn] at hs
        split at hs
        · cases hs
        · cases hs; rfl
      rw [hnone] at hitem
      cases hitem

theorem acceptStep_accepts (api : Api) (h : Host n) (env : Env) (i : Fin n) (stage : Stage n) :
    (acceptStep api h env i stage).1.accepts = h.accepts := by
  cases stage with
  | start =>
    simp only [acceptStep, acceptTurn]
    split <;> rfl
  | wait =>
    simp only [acceptStep]
    split <;> rfl
  | opening item => exact (socketOpen_spec api h env .STREAM SOCKET_IP_PROTO_TCP).1
  | opened item newSocket =>
    cases newSocket with
    | none => rfl
    | some m =>
      simp only [acceptStep]
      exact (acceptOn_accepts h env i m item).1

theorem requests_hostStep {e : HostEvent n} (hc : SoundCalls h) (hm : RequestsModel h)
    (hok : PortsSet h e) : RequestsModel (hostStep h e) := by
  refine ⟨fun i => ?_, ?_⟩
  · refine (host_sections hc e i).inv (P := fun c => SynQueueModel c.synQueue) (hm.queue i) ?_
    intro c s hq hal
    refine model_section hq ?_ ?_
    · rintro e1 p rfl hp
      cases e1 with
      | segment env p1 =>
        obtain ⟨rfl, hf, rfl⟩ := hal
        cases hp
        exact hok i hf
      | tick env => cases hp
    · rintro api call rfl
      exact hal.2.1
  · cases e with
    | «open» api env type protocol =>
      have h1 := (socketOpen_spec api h env type protocol).1
      simp only [hostStep]
      split
      · rename_i h2 i ho
        rw [ho] at h1
        show ∀ a ∈ h2.accepts, _
        rw [h1]; exact hm.accepts
      · rename_i h2 ho
        rw [ho] at h1
        show ∀ a ∈ h2.accepts, _
        rw [h1]; exact hm.accepts
    | accept api i =>
      simp only [hostStep, acceptCall]
      split
      · split
        · exact hm.accepts
        · intro a ha
          rw [List.mem_append, List.mem_singleton] at ha
          obtain ha | rfl := ha
          · exact hm.accepts a ha
          · intro item h; cases h
      · exact hm.accepts
    | acceptNext env k =>
      simp only [hostStep, acceptResume]
      split
      · exact hm.accepts
      rename_i a ha
      have hacc := acceptStep_accepts a.api { h with accepts := h.accepts.eraseIdx k } env
        a.socket a.stage
      have hitem := fun h' stage' => @acceptStep_item n { h with accepts := h.accepts.eraseIdx k }
        a.api env a.socket a.stage stage' (hm.queue a.socket)
        (hm.accepts a (List.mem_of_getElem? ha)) h'
      have hold : ∀ b ∈ h.accepts.eraseIdx k, ∀ item, b.stage.item = some item →
          SynItemModel item := fun b hb => hm.accepts b (List.mem_of_mem_eraseIdx hb)
      split
      · rename_i h2 stage ho
        rw [ho] at hacc
        intro b hb
        rw [List.mem_append, List.mem_singleton] at hb
        obtain hb | rfl := hb
        · rw [hacc] at hb
          exact hold b hb
        · exact hitem h2 stage ho
      · rename_i h2 ho
        rw [ho] at hacc
        intro b hb
        rw [hacc] at hb
        exact hold b hb
    | start api env i req =>
      simp only [hostStep]
      split
      · unfold Host.finish
        split <;> exact hm.accepts
      · exact hm.accepts
    | resume env i k =>
      simp only [hostStep, callResume]
      split
      · exact hm.accepts
      · unfold Host.finish
        split <;> exact hm.accepts
    | close env i =>
      simp only [hostStep]
      split <;> exact hm.accepts
    | segment env p =>
      simp only [hostStep, tcpProcessSegment]
      split <;> exact hm.accepts
    | tick env => exact hm.accepts

/-! ## The accepted socket -/

/-- The promise of `Tcp_Accept` about the client and its socket. -/
structure AcceptPost (sock : Socket) (clientIpAddr : IpAddr) (clientPort : Port)
    (clientSocket : Socket) : Prop where
  port : 0 < clientPort.toNat
  ipAddr : isInitializedIp clientIpAddr = true
  localIpAddr : isInitializedIp clientSocket.localIpAddr = true
  localPort : clientSocket.localPort = sock.localPort
  remoteIpAddr : clientSocket.remoteIpAddr = clientIpAddr
  remotePort : clientSocket.remotePort = clientPort
  owned : clientSocket.ownedFlag = true
  state : clientSocket.state = .SYN_RECEIVED

/-- The socket that takes a connection has the addresses of its request. -/
theorem acceptOpen_id {socket : Socket} {item : TcpSynQueueItem}
    (ho : acceptOpen socket item c = (c', .NO_ERROR)) :
    c'.localIpAddr = item.destAddr ∧ c'.localPort = socket.localPort ∧
      c'.remoteIpAddr = item.srcAddr ∧ c'.remotePort = item.srcPort ∧ c'.ownedFlag = true := by
  unfold acceptOpen acceptAlloc at ho
  generalize hr : allocBuffers _ = r at ho
  obtain ⟨tx, rx', hk, -, -⟩ := allocBuffers_cases hr
  obtain ⟨c1, e⟩ := r
  have howned : c1.ownedFlag = true := congrArg (·.ownedFlag) hk
  split at ho
  · rename_i c2 heq
    cases heq
    simp only at ho
    let c2 : Ctx := initPassive socket item c1
    have hsent := queues_tcpSendSegment c2 { syn := true, ack := true } c2.iss c2.rcvNxt 0
    have hsend : tcpSendSegment c2 { syn := true, ack := true } c2.iss c2.rcvNxt 0 true =
        (c', .NO_ERROR) := ho
    rw [hsend] at hsent
    obtain ⟨-, hno⟩ | ⟨q, -, hq⟩ := hsent
    · exact absurd rfl hno
    · have hcore : c'.toSockCore = _ := hq.core
      refine ⟨?_, ?_, ?_, ?_, ?_⟩
      · exact congrArg (·.localIpAddr) hcore
      · exact congrArg (·.localPort) hcore
      · exact congrArg (·.remoteIpAddr) hcore
      · exact congrArg (·.remotePort) hcore
      · exact (congrArg (·.ownedFlag) hcore).trans howned
  · rename_i hne heq
    cases heq
    cases ho
    exact absurd rfl hne

theorem tcpChangeState_id (c : Ctx) (s : TcpState) :
    (tcpChangeState c s).toSockId = c.toSockId ∧ (tcpChangeState c s).ownedFlag = c.ownedFlag := by
  simp only [tcpChangeState]
  repeat' split
  all_goals exact ⟨rfl, rfl⟩

/-- An accept that returns a socket returns that of its request. -/
theorem acceptOn_post {env : Env} {i j : Fin n} {item : TcpSynQueueItem} (hm : SynItemModel item)
    (hs : (acceptOn h env i j item).2 = none) :
    AcceptPost (h.table i).ctx.toSocket item.srcAddr item.srcPort
      (((acceptOn h env i j item).1.table j).ctx.toSocket) := by
  revert hs
  unfold acceptOn
  simp only
  generalize (h.table i).ctx.toSocket = sock
  generalize (if (acceptAlloc sock (h.ctxOf j env)).2 = .NO_ERROR then _ else h) = h1
  split
  · rename_i c1 ho
    intro _
    obtain ⟨h1, h2, h3, h4, h5⟩ := acceptOpen_id ho
    obtain ⟨hid, howned⟩ := tcpChangeState_id c1 .SYN_RECEIVED
    rw [addHandle_ctx, setCtx_table, if_pos rfl]
    refine ⟨hm.port, hm.src, ?_, ?_, ?_, ?_, howned.trans h5, tcpChangeState_state _ _⟩
    · rw [congrArg (·.localIpAddr) hid, h1]
      exact hm.dest
    · rw [congrArg (·.localPort) hid, h2]
    · rw [congrArg (·.remoteIpAddr) hid, h3]
    · rw [congrArg (·.remotePort) hid, h4]
  · nofun

/-- In every run in which no SYN from port 0 comes to a listening socket, all queued requests meet
`Tcp_Syn_Queue_Item_Model`, and every accept that returns a socket keeps the promise of
`Tcp_Accept`. -/
theorem requests_model (hr : Reach hostStep PortsSet (socketInit n) h) :
    (∀ i, SynQueueModel (h.table i).ctx.synQueue) ∧
    ∀ k a item j, h.accepts[k]? = some a → a.stage = .opened item (some j) → ∀ env,
      (acceptStep a.api { h with accepts := h.accepts.eraseIdx k } env a.socket a.stage).2 = none →
      AcceptPost (h.table a.socket).ctx.toSocket item.srcAddr item.srcPort
        ((hostStep h (.acceptNext env k)).table j).ctx.toSocket := by
  have hm : RequestsModel h := by
    have hinv : SoundCalls h ∧ RequestsModel h := by
      refine hr.inv (P := fun h => SoundCalls h ∧ RequestsModel h) ⟨fun _ _ => nofun, ?_⟩ ?_
      · exact ⟨fun _ => nofun, nofun⟩
      · intro h e hh hok
        exact ⟨soundCalls_hostStep hh.1 e, requests_hostStep hh.1 hh.2 hok⟩
    exact hinv.2
  refine ⟨hm.queue, ?_⟩
  intro k a item j ha hstage env hnone
  have hitem : SynItemModel item :=
    hm.accepts a (List.mem_of_getElem? ha) item (by rw [hstage]; rfl)
  simp only [hostStep, acceptResume, ha]
  rw [hstage] at hnone ⊢
  simp only [acceptStep] at hnone ⊢
  have hpost := acceptOn_post (h := { h with accepts := h.accepts.eraseIdx k }) hitem hnone
  split
  · rename_i h2 stage ho
    rw [ho] at hnone
    cases hnone
  · rename_i h2 ho
    rw [ho] at hpost
    exact hpost

/-! ## A request from port 0 -/

/-- A SYN from a given port to the socket on port 1000. -/
def synFrom (srcPort : Port) : Packet :=
  { wireSegment 500 0 { syn := true } with
    segment := { (wireSegment 500 0 { syn := true }).segment with srcPort, destPort := 1000 } }

/-- A listening socket gets a SYN from the given port, and an accept has opened the new socket. -/
def acceptEvents (srcPort : Port) : List (HostEvent SOCKET_MAX_COUNT) :=
  openEvents .c 0 1000 ++ [.start .c Env.granting 0 (.listen 0),
    .segment Env.granting (synFrom srcPort), .accept .c 0, .acceptNext Env.granting 0,
    .acceptNext Env.granting 0]

theorem acceptEvents_reach : Reach hostStep PortsSet (socketInit SOCKET_MAX_COUNT)
    (hostRun (acceptEvents 80)) := by
  refine Reach.init.foldl _ fun e he h => ?_
  simp only [acceptEvents, openEvents, List.mem_append, List.mem_cons, List.not_mem_nil,
    or_false] at he
  obtain (rfl | rfl | rfl | rfl) | rfl | rfl | rfl | rfl | rfl := he
  case inr.inr.inl => exact fun _ _ _ _ => by decide
  all_goals trivial

/-- A request from port 80 waits in the queue. -/
theorem requests_model_queued :
    ((hostRun (acceptEvents 80)).table 0).ctx.synQueue.length = 1 ∧
      SynQueueModel ((hostRun (acceptEvents 80)).table 0).ctx.synQueue :=
  ⟨by decide +kernel, (requests_model acceptEvents_reach).1 0⟩

/-- With source port 0 the queue item does not meet the model, and the accept returns client
port 0. -/
theorem request_port_zero :
    ((hostRun (acceptEvents 0)).table 0).ctx.synQueue.map (·.srcPort) = [0] ∧
    (hostStep (hostRun (acceptEvents 0)) (.acceptNext Env.granting 0)).accepts = [] ∧
    ((hostStep (hostRun (acceptEvents 0)) (.acceptNext Env.granting 0)).table 1).ctx.state =
      .SYN_RECEIVED ∧
    ((hostStep (hostRun (acceptEvents 0)) (.acceptNext Env.granting 0)).table 1).ctx.remotePort =
      0 := by
  decide +kernel

end Cyclone
