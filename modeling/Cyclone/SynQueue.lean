import Cyclone.Requests

/-!
# Cyclone.SynQueue

The SYN queue of a listening socket that one task accepts from. Segments append to it while an
accept holds on to its head across the release of the mutex in `socketOpen`.

* `arrived`, `taken`: what an event appends, and what it removes.
* `listening_step`: one event.
* `synQueue_discipline`: all runs from a `tcpListen` on.
-/

namespace Cyclone

open Serial Relation Run

variable {n : Nat} {h h' : Host n} {i j : Fin n} {c c' : Ctx} {p : Packet}

/-! ## The queue of one socket -/

/-- What tells two connection requests apart. -/
def TcpSynQueueItem.source (item : TcpSynQueueItem) : IpAddr × IpAddr × Port :=
  (item.srcAddr, item.destAddr, item.srcPort)

structure SynQueueOk (c : Ctx) : Prop where
  bound : c.synQueue.length ≤ c.synQueueSize
  distinct : (c.synQueue.map TcpSynQueueItem.source).Nodup
  mss : ∀ item ∈ c.synQueue, TCP_MIN_MSS ≤ item.mss ∧ item.mss ≤ TCP_MAX_MSS

/-- A listening socket, or what a run of `tcpTick` has left of it. -/
structure ListenOk (c : Ctx) : Prop where
  type : c.type = .STREAM
  state : c.state = .LISTEN ∨ c.state = .CLOSED
  size : 0 < c.synQueueSize
  queue : SynQueueOk c

/-- Nothing happens to the queue; the socket may be closed. -/
structure SynFrame (c c' : Ctx) : Prop where
  type : c'.type = c.type
  state : c'.state = c.state ∨ c'.state = .CLOSED
  queue : c'.synQueue = c.synQueue
  size : c'.synQueueSize = c.synQueueSize

namespace SynFrame

theorem refl (c : Ctx) : SynFrame c c := ⟨rfl, .inl rfl, rfl, rfl⟩

theorem trans {c'' : Ctx} (h : SynFrame c c') (h' : SynFrame c' c'') : SynFrame c c'' := by
  refine ⟨h'.type.trans h.type, ?_, h'.queue.trans h.queue, h'.size.trans h.size⟩
  obtain hs | hs := h'.state
  · rw [hs]; exact h.state
  · exact .inr hs

theorem core (h : c'.toSockCore = c.toSockCore) : SynFrame c c' :=
  ⟨congrArg (·.type) h, .inl (congrArg (·.state) h), congrArg (·.synQueue) h,
    congrArg (·.synQueueSize) h⟩

theorem closes (c : Ctx) : SynFrame c (tcpChangeState c .CLOSED) := by
  have hq := tcpChangeState_queues c .CLOSED
  exact ⟨congrArg (·.type) (tcpChangeState_id c .CLOSED).1, .inr (tcpChangeState_state _ _),
    congrArg (·.synQueue) hq, congrArg (·.synQueueSize) hq⟩

theorem ok (hf : SynFrame c c') (h : ListenOk c) : ListenOk c' := by
  obtain ⟨ht, hs, hq, hn⟩ := hf
  refine ⟨ht.trans h.type, ?_, hn ▸ h.size, ?_, ?_, ?_⟩
  · obtain hs | hs := hs
    · rw [hs]; exact h.state
    · exact .inr hs
  · rw [hq, hn]; exact h.queue.bound
  · rw [hq]; exact h.queue.distinct
  · rw [hq]; exact h.queue.mss

end SynFrame

theorem tcpGetMss_range {segment : TcpHeader} {mss : Nat} (h : tcpGetMss segment = some mss) :
    TCP_MIN_MSS ≤ mss ∧ mss ≤ TCP_MAX_MSS := by
  unfold tcpGetMss at h
  split at h
  · simp only [Option.some.injEq] at h
    subst h
    simp only [TCP_MIN_MSS, TCP_MAX_MSS]
    omega
  · cases h

/-- A request that `tcpIsDuplicateSyn` lets through comes from a source that is not queued. -/
theorem source_new {src dst : IpAddr} {item : TcpSynQueueItem}
    (ha : synAddrs p.pseudoHeader = some (src, dst)) (hs : item.srcAddr = src)
    (hd : item.destAddr = dst) (hp : item.srcPort = p.segment.srcPort)
    (hdup : tcpIsDuplicateSyn c p.pseudoHeader p.segment = false) :
    item.source ∉ c.synQueue.map TcpSynQueueItem.source := by
  intro hmem
  obtain ⟨old, hold, heq⟩ := List.mem_map.mp hmem
  simp only [TcpSynQueueItem.source, Prod.mk.injEq] at heq
  obtain ⟨h1, h2, h3⟩ := heq
  have hno := List.any_eq_false.mp hdup old hold
  rw [h1, h2, h3, hs, hd, hp] at hno
  unfold synAddrs at ha
  split at ha
  · rename_i h4
    simp only [Option.some.injEq, Prod.mk.injEq] at ha
    obtain ⟨rfl, rfl⟩ := ha
    simp [h4] at hno
  · split at ha
    · rename_i h4 h6
      simp only [Option.some.injEq, Prod.mk.injEq] at ha
      obtain ⟨rfl, rfl⟩ := ha
      simp [h6, sizeofIpv4Addr, sizeofIpv6Addr] at hno
    · cases ha

/-- What a segment does to the queue: nothing, or one new request goes to its end while there is
room. -/
theorem tcpStateListen_synQueue (c : Ctx) (p : Packet) :
    SynFrame c (tcpStateListen c p) ∨
      ∃ item : TcpSynQueueItem,
        (tcpStateListen c p).toSockCore = { c.toSockCore with synQueue := c.synQueue ++ [item] } ∧
        (c.synQueue ≠ [] → c.synQueue.length < c.synQueueSize) ∧
        item.source ∉ c.synQueue.map TcpSynQueueItem.source ∧
        TCP_MIN_MSS ≤ item.mss ∧ item.mss ≤ TCP_MAX_MSS := by
  have hreset : SynFrame c (tcpSendResetSegment c p.pseudoHeader p.segment p.length).1 :=
    .core (onlySends_tcpSendResetSegment c p.pseudoHeader p.segment p.length).quiet.core
  unfold tcpStateListen
  split
  · exact .inl (.refl c)
  split
  · exact .inl hreset
  split
  case isFalse => exact .inl (.refl c)
  split
  · exact .inl (.refl c)
  rename_i hdup
  split
  · exact .inl (.refl c)
  rename_i hroom
  simp only
  split
  · split
    · exact .inl (.core rfl)
    · rename_i src dst haddrs
      refine .inr ⟨_, rfl, fun hne => ?_, ?_, ?_⟩
      · by_contra hlt
        exact hroom ⟨hne, Nat.le_of_not_lt hlt⟩
      · exact source_new haddrs rfl rfl rfl (by simpa using hdup)
      · show TCP_MIN_MSS ≤ (tcpGetMss p.segment).getD _ ∧ (tcpGetMss p.segment).getD _ ≤ TCP_MAX_MSS
        cases hm : tcpGetMss p.segment with
        | none => decide
        | some mss => exact tcpGetMss_range hm
  · exact .inl (.core rfl)

/-- The queue after one more request. -/
theorem ListenOk.append {item : TcpSynQueueItem} (h : ListenOk c)
    (hcore : c'.toSockCore = { c.toSockCore with synQueue := c.synQueue ++ [item] })
    (hroom : c.synQueue ≠ [] → c.synQueue.length < c.synQueueSize)
    (hnew : item.source ∉ c.synQueue.map TcpSynQueueItem.source)
    (hmss : TCP_MIN_MSS ≤ item.mss ∧ item.mss ≤ TCP_MAX_MSS) : ListenOk c' := by
  have hq : c'.synQueue = c.synQueue ++ [item] := congrArg (·.synQueue) hcore
  have hn : c'.synQueueSize = c.synQueueSize := congrArg (·.synQueueSize) hcore
  refine ⟨(congrArg (·.type) hcore).trans h.type, ?_, by rw [hn]; exact h.size, ?_, ?_, ?_⟩
  · rw [congrArg (·.state) hcore]; exact h.state
  · rw [hq, hn, List.length_append]
    have h1 := h.size
    by_cases he : c.synQueue = []
    · rw [he]; exact h1
    · exact hroom he
  · rw [hq, List.map_append]
    refine List.nodup_append.mpr ⟨h.queue.distinct, by simp, ?_⟩
    intro a ha b hb hab
    simp only [List.map_cons, List.map_nil, List.mem_singleton] at hb
    exact hnew (hb ▸ hab ▸ ha)
  · rw [hq]
    intro old hold
    simp only [List.mem_append, List.mem_singleton] at hold
    obtain hold | rfl := hold
    · exact h.queue.mss old hold
    · exact hmss

/-- The queue after its head is taken. -/
theorem ListenOk.tail (h : ListenOk c) (hcore : c'.toSockCore = (popSyn c).toSockCore) :
    ListenOk c' := by
  have hq : c'.synQueue = c.synQueue.tail := congrArg (·.synQueue) hcore
  have hn : c'.synQueueSize = c.synQueueSize := congrArg (·.synQueueSize) hcore
  refine ⟨(congrArg (·.type) hcore).trans h.type, ?_, by rw [hn]; exact h.size, ?_, ?_, ?_⟩
  · rw [congrArg (·.state) hcore]; exact h.state
  · have h1 := h.queue.bound
    rw [hq, hn, List.length_tail]
    omega
  · rw [hq, List.map_tail]
    exact h.queue.distinct.sublist (List.tail_sublist _)
  · rw [hq]
    exact fun item hi => h.queue.mss item (List.mem_of_mem_tail hi)

theorem synFrame_tickRetransmit (c : Ctx) : SynFrame c (tickRetransmit c) := by
  unfold tickRetransmit
  simp only
  generalize hc1 : (if c.retransmitCount = 0 then
      { c with ssthresh := u16 (max ((c.sndNxt - c.sndUna).toNat / 2) (2 * c.smss)) }
    else c) = c1
  have h1 : SynFrame c c1 := by
    rw [← hc1]
    split
    · exact .core rfl
    · exact .refl c
  let c2 : Ctx := { c1 with cwnd := u16 (min (TCP_LOSS_WINDOW * c1.smss) c1.txBufferSize),
                            recover := c1.sndNxt - 1, congestState := .LOSS_RECOVERY }
  have h2 : SynFrame c c2 := h1.trans (.core rfl)
  split
  · have h3 : SynFrame c2 (tcpRetransmitSegment c2).1 := .core (quiet_tcpRetransmitSegment c2).core
    generalize (tcpRetransmitSegment c2).1 = c3 at h3
    exact (h2.trans h3).trans (.core rfl)
  · exact (h2.trans (.closes c2)).trans (.core rfl)

theorem synFrame_tickPersist (c : Ctx) : SynFrame c (tickPersist c) := by
  unfold tickPersist
  split
  · have h1 : SynFrame c (tcpSendSegment c { ack := true } (c.sndNxt - 1) c.rcvNxt 0 false).1 :=
      .core (quiet_bare c _ _ _ _).core
    exact h1.trans ⟨rfl, .inl rfl, rfl, rfl⟩
  · exact .closes c

/-- The timers of a listening socket leave its queue alone. -/
theorem synFrame_tick (hs : c.state = .LISTEN ∨ c.state = .CLOSED) :
    SynFrame c (tcpTickSocket c) := by
  unfold tcpTickSocket
  split
  · exact .refl c
  simp only
  generalize hc1 : (if c.retransmitQueue ≠ [] ∧
      tcpTimerElapsed c.toEnv c.retransmitTimer = true then tickRetransmit c else c) = c1
  have h1 : SynFrame c c1 := by
    rw [← hc1]
    split
    · exact synFrame_tickRetransmit c
    · exact .refl c
  split
  · exact h1
  generalize hc2 : (if c1.sndWnd = 0 ∧ c1.wndProbeInterval ≠ 0 ∧
      tcpTimerElapsed c1.toEnv c1.persistTimer = true then tickPersist c1 else c1) = c2
  have h2 : SynFrame c c2 := by
    refine h1.trans ?_
    rw [← hc2]
    split
    · exact synFrame_tickPersist c1
    · exact .refl c1
  have hs2 : c2.state = .LISTEN ∨ c2.state = .CLOSED := by
    obtain h3 | h3 := h2.state
    · rw [h3]; exact hs
    · exact .inr h3
  have ho : ¬((c2.state = .ESTABLISHED ∨ c2.state = .CLOSE_WAIT) ∧ c2.sndUser ≠ 0 ∧
      tcpTimerElapsed c2.toEnv c2.overrideTimer = true) := by
    rintro ⟨h3 | h3, -⟩ <;> (obtain h4 | h4 := hs2 <;> rw [h3] at h4 <;> cases h4)
  have hf : ¬(c2.state = .FIN_WAIT_2 ∧ tcpTimerElapsed c2.toEnv c2.finWait2Timer = true) := by
    rintro ⟨h3, -⟩
    obtain h4 | h4 := hs2 <;> rw [h3] at h4 <;> cases h4
  have ht : ¬(c2.state = .TIME_WAIT ∧ tcpTimerElapsed c2.toEnv c2.timeWaitTimer = true) := by
    rintro ⟨h3, -⟩
    obtain h4 | h4 := hs2 <;> rw [h3] at h4 <;> cases h4
  rw [if_neg ho, if_neg hf, if_neg ht]
  exact h2

/-! ## Accepts of one task -/

/-- The request that an accept at its last stage removes from the queue of entry `i`. -/
def Accepting.taken (i : Fin n) (a : Accepting n) : List TcpSynQueueItem :=
  match a.stage with
  | .opened item _ => if a.socket = i then [item] else []
  | _ => []

/-- The requests that an event removes from the queue of entry `i`. -/
def taken (h : Host n) (i : Fin n) : HostEvent n → List TcpSynQueueItem
  | .acceptNext _ k => (h.accepts[k]?.map (Accepting.taken i)).getD []
  | _ => []

/-- The requests that an event brings: what stands behind the old queue after a segment. -/
def arrived (h : Host n) (i : Fin n) : HostEvent n → List TcpSynQueueItem
  | .segment env p =>
    ((tcpProcessSegment h env p).table i).ctx.synQueue.drop (h.table i).ctx.synQueue.length
  | _ => []

/-- Socket `i` is only accepted from, by one task. -/
def OneTask (i : Fin n) (h : Host n) : HostEvent n → Prop
  | .start _ _ j _ => j ≠ i
  | .resume _ j _ => j ≠ i
  | .close _ j => j ≠ i
  | .accept _ j => j = i → ∀ a ∈ h.accepts, a.socket ≠ i
  | _ => True

/-- A run of `OneTask` events, with the requests that arrived and those that were removed. -/
inductive AcceptRun (i : Fin n) (h₀ : Host n) :
    Host n → List TcpSynQueueItem → List TcpSynQueueItem → Prop where
  | init : AcceptRun i h₀ h₀ [] []
  | step {h : Host n} {e : HostEvent n} {ins outs : List TcpSynQueueItem}
      (hr : AcceptRun i h₀ h ins outs) (ho : OneTask i h e) :
      AcceptRun i h₀ (hostStep h e) (ins ++ arrived h i e) (outs ++ taken h i e)

/-- At most one accept is under way on socket `i`, and it holds the head of the queue. -/
structure AcceptsOk (accepts : List (Accepting n)) (i : Fin n) (queue : List TcpSynQueueItem) :
    Prop where
  others : ∀ a ∈ accepts, a.newSocket ≠ some i
  one : accepts.countP (fun a => a.socket = i) ≤ 1
  head : ∀ a ∈ accepts, a.socket = i → ∀ item, a.stage.item = some item →
    queue.head? = some item

structure Listening (h : Host n) (i : Fin n) : Prop where
  ctx : ListenOk (h.table i).ctx
  accepts : AcceptsOk h.accepts i (h.table i).ctx.synQueue

theorem Listening.frame (hl : Listening h i) (hf : SynFrame (h.table i).ctx (h'.table i).ctx)
    (ha : h'.accepts = h.accepts) : Listening h' i := by
  refine ⟨hf.ok hl.ctx, ?_⟩
  rw [ha, hf.queue]
  exact hl.accepts

/-! ### Segments -/

theorem segment_synQueue (hl : Listening h i) (env : Env) (p : Packet) :
    Listening (tcpProcessSegment h env p) i ∧
      ((tcpProcessSegment h env p).table i).ctx.synQueue =
        (h.table i).ctx.synQueue ++ arrived h i (.segment env p) := by
  have hframe : ∀ h' : Host n, tcpProcessSegment h env p = h' →
      SynFrame (h.table i).ctx (h'.table i).ctx → h'.accepts = h.accepts →
      Listening h' i ∧ (h'.table i).ctx.synQueue =
        (h.table i).ctx.synQueue ++ arrived h i (.segment env p) := by
    intro h' heq hf ha
    refine ⟨hl.frame hf ha, ?_⟩
    simp only [arrived]
    rw [heq, hf.queue, List.drop_length, List.append_nil]
  unfold tcpProcessSegment at *
  cases hfind : findSocket h p with
  | none =>
    rw [hfind] at hframe
    exact hframe h rfl (.refl _) rfl
  | some j =>
    rw [hfind] at hframe
    simp only at hframe ⊢
    by_cases hj : i = j
    case neg =>
      refine hframe _ rfl ?_ rfl
      rw [setCtx_table, if_neg hj]
      exact .refl _
    subst hj
    have htable : ((h.setCtx i (tcpProcessState (h.ctxOf i env) p)).table i).ctx =
        tcpProcessState (h.ctxOf i env) p := by rw [setCtx_table, if_pos rfl]
    have henv : SynFrame (h.table i).ctx (h.ctxOf i env) := .core rfl
    obtain hs | hs := hl.ctx.state
    · have hstep : tcpProcessState (h.ctxOf i env) p = tcpStateListen (h.ctxOf i env) p := by
        have hs' : (h.ctxOf i env).state = .LISTEN := hs
        unfold tcpProcessState
        rw [hs']
      obtain hf | ⟨item, hcore, hroom, hnew, hmss⟩ := tcpStateListen_synQueue (h.ctxOf i env) p
      · refine hframe _ rfl ?_ rfl
        rw [htable, hstep]
        exact henv.trans hf
      · have hq : (tcpStateListen (h.ctxOf i env) p).synQueue = (h.table i).ctx.synQueue ++ [item] :=
          congrArg (·.synQueue) hcore
        have hctx : ListenOk (h.ctxOf i env) := henv.ok hl.ctx
        refine ⟨⟨?_, ?_⟩, ?_⟩
        · rw [htable, hstep]
          exact hctx.append hcore hroom hnew hmss
        · rw [htable, hstep, hq]
          refine ⟨hl.accepts.others, hl.accepts.one, fun a ha hi item' hitem => ?_⟩
          have hhead := hl.accepts.head a ha hi item' hitem
          cases hqueue : (h.table i).ctx.synQueue with
          | nil => rw [hqueue] at hhead; cases hhead
          | cons first rest => rw [hqueue] at hhead; exact hhead
        · simp only [arrived, tcpProcessSegment, hfind]
          rw [htable, hstep, hq, List.drop_left]
    · refine hframe _ rfl ?_ rfl
      have hstep : tcpProcessState (h.ctxOf i env) p = tcpStateClosed (h.ctxOf i env) p := by
        have hs' : (h.ctxOf i env).state = .CLOSED := hs
        unfold tcpProcessState
        rw [hs']
      rw [htable, hstep]
      unfold tcpStateClosed
      split
      · exact .core rfl
      · exact .core (onlySends_tcpSendResetSegment _ _ _ _).quiet.core

/-! ### Accepts -/

/-- The last section of an accept on `s` takes the head of its queue, and leaves the queues of the
other sockets alone. -/
theorem acceptOn_core {s : Fin n} (hj : i ≠ j) (env : Env) (item : TcpSynQueueItem) :
    ((acceptOn h env s j item).1.table i).ctx.toSockCore =
      if i = s then (popSyn (h.table i).ctx).toSockCore else (h.table i).ctx.toSockCore := by
  unfold acceptOn
  simp only
  generalize hh1 : (if (acceptAlloc (h.table s).ctx.toSocket (h.ctxOf j env)).2 = .NO_ERROR then
    h.setCtx s { (h.table s).ctx with congestState := .IDLE } else h) = h1
  have h0 : ∀ m, (h1.table m).ctx.toSockCore = (h.table m).ctx.toSockCore := by
    intro m
    rw [← hh1]
    split
    · rw [setCtx_table]
      split
      · rename_i hm
        rw [hm]
      · rfl
    · rfl
  clear hh1
  generalize (h.table s).ctx.toSocket = sock
  have hpop : ∀ c c' : Ctx, c.toSockCore = c'.toSockCore →
      (popSyn c).toSockCore = (popSyn c').toSockCore := by
    intro c c' hc
    show { c.toSockCore with synQueue := c.toSockCore.synQueue.tail } =
      { c'.toSockCore with synQueue := c'.toSockCore.synQueue.tail }
    rw [hc]
  split
  · rw [addHandle_ctx, setCtx_table, if_neg hj, setCtx_table]
    split
    · rename_i hi
      subst hi
      exact hpop _ _ (h0 i)
    · exact h0 i
  · rw [setCtx_table]
    split
    · rename_i hi
      subst hi
      rw [setCtx_table, if_neg hj]
      exact hpop _ _ (h0 i)
    · rw [setCtx_table, if_neg hj]
      exact h0 i

theorem acceptOn_start {s : Fin n} {env : Env} {item : TcpSynQueueItem} {stage : Stage n}
    (hs : (acceptOn h env s j item).2 = some stage) : stage = .start := by
  revert hs
  unfold acceptOn
  simp only
  generalize (h.table s).ctx.toSocket = sock
  generalize (if (acceptAlloc sock (h.ctxOf j env)).2 = .NO_ERROR then _ else h) = h1
  split
  · nofun
  · exact fun hs => (Option.some.inj hs).symm

theorem socketOpen_keeps (hl : ListenOk (h.table i).ctx) (api : Api) (env : Env) (type : SocketType)
    (protocol : Nat) :
    (socketOpen api h env type protocol).1.table i = h.table i ∧
      (socketOpen api h env type protocol).2 ≠ some i := by
  obtain ⟨-, ⟨hnone, -, htable⟩ | ⟨m, c, hsome, -, hfree, htable, -⟩⟩ :=
    socketOpen_spec api h env type protocol
  · rw [htable, hnone]
    exact ⟨rfl, nofun⟩
  · have hm : i ≠ m := by
      rintro rfl
      obtain ⟨hu, -⟩ | hr := hfree
      · rw [hl.type] at hu; cases hu
      · obtain ⟨-, hs⟩ := recycled_timeWait hr
        obtain h1 | h1 := hl.state <;> rw [h1] at hs <;> cases hs
    rw [htable, hsome]
    refine ⟨?_, fun he => hm (Option.some.inj he).symm⟩
    simp only [Host.setEntry, if_neg hm]

/-- What a section of the accept `a` does to socket `i`. -/
structure AcceptSection (h : Host n) (i : Fin n) (a : Accepting n) (r : Host n × Option (Stage n)) :
    Prop where
  accepts : r.1.accepts = h.accepts
  ctx : ListenOk (r.1.table i).ctx
  queue : (h.table i).ctx.synQueue = a.taken i ++ (r.1.table i).ctx.synQueue
  other : ∀ stage, r.2 = some stage → stage.newSocket ≠ some i
  head : a.socket = i → ∀ stage, r.2 = some stage → ∀ item, stage.item = some item →
    (r.1.table i).ctx.synQueue.head? = some item

theorem acceptStep_synQueue {a : Accepting n} (hl : ListenOk (h.table i).ctx)
    (hother : a.newSocket ≠ some i)
    (hhead : a.socket = i → ∀ item, a.stage.item = some item →
      (h.table i).ctx.synQueue.head? = some item) (env : Env) :
    AcceptSection h i a (acceptStep a.api h env a.socket a.stage) := by
  obtain ⟨api, s, stage⟩ := a
  simp only at hhead ⊢
  cases stage with
  | start =>
    simp only [acceptStep, acceptTurn]
    split
    · have hf : SynFrame (h.table i).ctx ((h.setCtx s { (h.table s).ctx with
          eventMask := SOCKET_EVENT_RX_READY, event := false }).table i).ctx := by
        rw [setCtx_table]
        split
        · rename_i hi
          rw [hi]
          exact .core rfl
        · exact .refl _
      refine ⟨rfl, hf.ok hl, ?_, fun stage hs => ?_, fun _ stage hs item hi => ?_⟩
      · rw [hf.queue]; rfl
      · cases hs
        exact fun he => by cases he
      · cases hs; cases hi
    · rename_i item rest hq
      refine ⟨rfl, hl, rfl, fun stage hs => ?_, fun hi stage hs item' hitem => ?_⟩
      · cases hs
        exact fun he => by cases he
      · cases hs; cases hitem
        rw [← hi, hq]; rfl
  | wait =>
    simp only [acceptStep]
    split
    · exact ⟨rfl, hl, rfl, fun stage hs => (by cases hs), fun _ stage hs => (by cases hs)⟩
    · rename_i item rest hq
      refine ⟨rfl, hl, rfl, fun stage hs => ?_, fun hi stage hs item' hitem => ?_⟩
      · cases hs
        exact fun he => by cases he
      · cases hs; cases hitem
        rw [← hi, hq]; rfl
  | opening item =>
    obtain ⟨htable, hne⟩ := socketOpen_keeps hl api env .STREAM SOCKET_IP_PROTO_TCP
    have hacc := (socketOpen_spec api h env .STREAM SOCKET_IP_PROTO_TCP).1
    simp only [acceptStep]
    generalize socketOpen api h env .STREAM SOCKET_IP_PROTO_TCP = r at htable hne hacc
    refine ⟨hacc, ?_, ?_, fun stage hs => ?_, fun hi stage hs item' hitem => ?_⟩
    · rw [htable]; exact hl
    · rw [htable]; rfl
    · cases hs; exact hne
    · cases hs
      rw [htable]
      exact hhead hi item' hitem
  | «opened» item newSocket =>
    have hcore : ((acceptStep api h env s (.opened item newSocket)).1.table i).ctx.toSockCore =
        if i = s then (popSyn (h.table i).ctx).toSockCore else (h.table i).ctx.toSockCore := by
      cases newSocket with
      | none =>
        simp only [acceptStep]
        rw [setCtx_table]
        split
        · rename_i hi
          rw [hi]
        · rfl
      | some j =>
        have hj : i ≠ j := fun hij => hother (by rw [hij]; rfl)
        simp only [acceptStep]
        exact acceptOn_core hj env item
    have hrest : (acceptStep api h env s (.opened item newSocket)).1.accepts = h.accepts ∧
        ∀ stage, (acceptStep api h env s (.opened item newSocket)).2 = some stage →
          stage = .start := by
      cases newSocket with
      | none => exact ⟨rfl, fun stage hs => (Option.some.inj hs).symm⟩
      | some j =>
        simp only [acceptStep]
        exact ⟨(acceptOn_accepts h env s j item).1, fun _ => acceptOn_start⟩
    generalize acceptStep api h env s (.opened item newSocket) = r at hcore hrest
    obtain ⟨hacc, hstart⟩ := hrest
    have hqueue : ListenOk (r.1.table i).ctx ∧
        (h.table i).ctx.synQueue =
          (⟨api, s, .opened item newSocket⟩ : Accepting n).taken i ++ (r.1.table i).ctx.synQueue := by
      by_cases hi : i = s
      · rw [if_pos hi] at hcore
        refine ⟨hl.tail hcore, ?_⟩
        have hq : (r.1.table i).ctx.synQueue = (h.table i).ctx.synQueue.tail :=
          congrArg (·.synQueue) hcore
        have hh : (h.table i).ctx.synQueue.head? = some item := hhead hi.symm item rfl
        simp only [Accepting.taken, if_pos hi.symm]
        rw [hq]
        cases hqueue : (h.table i).ctx.synQueue with
        | nil => rw [hqueue] at hh; cases hh
        | cons first rest =>
          rw [hqueue] at hh
          cases hh
          rfl
      · rw [if_neg hi] at hcore
        refine ⟨(SynFrame.core hcore).ok hl, ?_⟩
        have hq : (r.1.table i).ctx.synQueue = (h.table i).ctx.synQueue :=
          congrArg (·.synQueue) hcore
        simp only [Accepting.taken, if_neg (Ne.symm hi)]
        rw [hq]; rfl
    refine ⟨hacc, hqueue.1, hqueue.2, fun stage hs => ?_, fun _ stage hs item' hitem => ?_⟩
    · rw [hstart stage hs]
      exact fun he => by cases he
    · rw [hstart stage hs] at hitem; cases hitem

theorem accept_synQueue (hl : Listening h i) (env : Env) (k : Nat) :
    Listening (acceptResume h env k) i ∧ (h.table i).ctx.synQueue =
      taken h i (.acceptNext env k) ++ ((acceptResume h env k).table i).ctx.synQueue := by
  have htaken : taken h i (.acceptNext env k) = (h.accepts[k]?.map (Accepting.taken i)).getD [] :=
    rfl
  rw [htaken]
  unfold acceptResume
  cases hk : h.accepts[k]? with
  | none => exact ⟨hl, rfl⟩
  | some a =>
    obtain ⟨hlt, hget⟩ := List.getElem?_eq_some_iff.mp hk
    have hperm : (a :: h.accepts.eraseIdx k).Perm h.accepts := by
      rw [← hget]
      exact List.getElem_cons_eraseIdx_perm hlt
    have hmem : a ∈ h.accepts := hperm.mem_iff.mp List.mem_cons_self
    have hrest : ∀ b ∈ h.accepts.eraseIdx k, b ∈ h.accepts :=
      fun b hb => hperm.mem_iff.mp (List.mem_cons_of_mem _ hb)
    have hsec := acceptStep_synQueue (h := { h with accepts := h.accepts.eraseIdx k }) (a := a)
      hl.ctx (hl.accepts.others a hmem) (hl.accepts.head a hmem) env
    simp only [Option.map_some, Option.getD_some]
    generalize acceptStep a.api { h with accepts := h.accepts.eraseIdx k } env a.socket a.stage = r
      at hsec
    have hcount := hperm.countP_eq (fun b : Accepting n => decide (b.socket = i))
    have hone := hl.accepts.one
    rw [← hcount, List.countP_cons] at hone
    -- the other accepts: none is on this socket if the one that goes on is
    have hhead : ∀ b ∈ h.accepts.eraseIdx k, b.socket = i → ∀ item, b.stage.item = some item →
        (r.1.table i).ctx.synQueue.head? = some item := by
      intro b hb hi item hitem
      have hpos : 0 < (h.accepts.eraseIdx k).countP fun b : Accepting n => decide (b.socket = i) :=
        List.countP_pos_iff.mpr ⟨b, hb, by simpa using hi⟩
      have ha : a.socket ≠ i := by
        intro ha
        simp only [ha, decide_true, if_true] at hone
        omega
      have hnone : a.taken i = [] := by
        unfold Accepting.taken
        split
        · rw [if_neg ha]
        · rfl
      have hq := hsec.queue
      rw [hnone, List.nil_append] at hq
      rw [← hq]
      exact hl.accepts.head b (hrest b hb) hi item hitem
    obtain ⟨h2, next⟩ := r
    have hacc : h2.accepts = h.accepts.eraseIdx k := hsec.accepts
    cases next with
    | none =>
      refine ⟨⟨hsec.ctx, ?_⟩, hsec.queue⟩
      show AcceptsOk h2.accepts i _
      rw [hacc]
      exact ⟨fun b hb => hl.accepts.others b (hrest b hb), by omega, hhead⟩
    | some stage =>
      refine ⟨⟨hsec.ctx, ?_⟩, hsec.queue⟩
      show AcceptsOk (h2.accepts ++ [{ a with stage }]) i _
      rw [hacc]
      refine ⟨fun b hb => ?_, ?_, fun b hb hi item hitem => ?_⟩
      · simp only [List.mem_append, List.mem_singleton] at hb
        obtain hb | rfl := hb
        · exact hl.accepts.others b (hrest b hb)
        · exact hsec.other stage rfl
      · rw [List.countP_append, List.countP_cons, List.countP_nil]
        simpa using hone
      · simp only [List.mem_append, List.mem_singleton] at hb
        obtain hb | rfl := hb
        · exact hhead b hb hi item hitem
        · exact hsec.head hi stage rfl item hitem

/-! ### Runs -/

/-- One event of a run: the invariant holds on, and the requests leave the queue in the order they
came. -/
theorem listening_step (hl : Listening h i) {e : HostEvent n} (ho : OneTask i h e) :
    Listening (hostStep h e) i ∧ (h.table i).ctx.synQueue ++ arrived h i e =
      taken h i e ++ ((hostStep h e).table i).ctx.synQueue := by
  have hquiet : ∀ h' : Host n, (h'.table i).ctx = (h.table i).ctx → h'.accepts = h.accepts →
      Listening h' i ∧ (h.table i).ctx.synQueue ++ [] = [] ++ (h'.table i).ctx.synQueue := by
    intro h' htable ha
    refine ⟨hl.frame (by rw [htable]; exact .refl _) ha, ?_⟩
    rw [htable, List.append_nil, List.nil_append]
  have hset : ∀ (j : Fin n) (c : Ctx), j ≠ i →
      ((h.setCtx j c).table i).ctx = (h.table i).ctx := by
    intro j c hj
    rw [setCtx_table, if_neg (Ne.symm hj)]
  have hfinish : ∀ (h : Host n) (j : Fin n) (api : Api) (r : Ctx × Progress), j ≠ i →
      ((h.finish j api r).table i).ctx = (h.table i).ctx ∧ (h.finish j api r).accepts = h.accepts := by
    intro h j api r hj
    refine ⟨by rw [finish_ctx, if_neg (Ne.symm hj)], ?_⟩
    unfold Host.finish
    split <;> rfl
  cases e with
  | «open» api env type protocol =>
    obtain ⟨htable, -⟩ := socketOpen_keeps hl.ctx api env type protocol
    have hacc := (socketOpen_spec api h env type protocol).1
    simp only [hostStep, arrived, taken]
    generalize socketOpen api h env type protocol = r at htable hacc
    obtain ⟨h1, opened⟩ := r
    cases opened with
    | none => exact hquiet h1 (by rw [htable]) hacc
    | some j => exact hquiet (h1.addHandle j) (by rw [addHandle_ctx, htable]) hacc
  | accept api j =>
    simp only [hostStep, arrived, taken]
    split
    case isFalse => exact hquiet h rfl rfl
    unfold acceptCall
    split
    · exact hquiet h rfl rfl
    refine ⟨⟨hl.ctx, ?_⟩, by rw [List.append_nil]; rfl⟩
    show AcceptsOk (h.accepts ++ [⟨api, j, .start⟩]) i _
    refine ⟨fun b hb => ?_, ?_, fun b hb hi item hitem => ?_⟩
    · simp only [List.mem_append, List.mem_singleton] at hb
      obtain hb | rfl := hb
      · exact hl.accepts.others b hb
      · exact fun he => by cases he
    · rw [List.countP_append, List.countP_cons, List.countP_nil]
      by_cases hj : j = i
      · have hzero : h.accepts.countP (fun a : Accepting n => decide (a.socket = i)) = 0 :=
          List.countP_eq_zero.mpr fun a ha => by simpa using ho hj a ha
        rw [hzero]
        simp only [hj, decide_true, if_true]
        omega
      · simp only [hj, decide_false, Bool.false_eq_true, if_false]
        exact hl.accepts.one
    · simp only [List.mem_append, List.mem_singleton] at hb
      obtain hb | rfl := hb
      · exact hl.accepts.head b hb hi item hitem
      · cases hitem
  | acceptNext env k =>
    obtain ⟨h1, h2⟩ := accept_synQueue hl env k
    refine ⟨h1, ?_⟩
    simp only [arrived, List.append_nil]
    exact h2
  | start api env j req =>
    simp only [hostStep, arrived, taken]
    split
    · obtain ⟨h1, h2⟩ := hfinish h j api (start api (h.ctxOf j env) req) ho
      exact hquiet _ h1 h2
    · exact hquiet h rfl rfl
  | resume env j k =>
    simp only [hostStep, arrived, taken, callResume]
    split
    · exact hquiet h rfl rfl
    · rename_i api call hcall
      obtain ⟨h1, h2⟩ := hfinish (h.setEntry j { h.table j with calls := (h.table j).calls.eraseIdx k })
        j api (resumeCall api ((h.setEntry j { h.table j with
          calls := (h.table j).calls.eraseIdx k }).ctxOf j env) call) ho
      refine hquiet _ (h1.trans ?_) h2
      simp only [Host.setEntry, if_neg (Ne.symm (ho : j ≠ i))]
  | close env j =>
    simp only [hostStep, arrived, taken]
    split
    · refine hquiet _ ?_ rfl
      rw [dropHandle_ctx]
      exact hset j _ ho
    · exact hquiet h rfl rfl
  | segment env p =>
    obtain ⟨h1, h2⟩ := segment_synQueue hl env p
    exact ⟨h1, h2.symm⟩
  | tick env =>
    have henv : SynFrame (h.table i).ctx (h.ctxOf i (env i)) := .core rfl
    have hf : SynFrame (h.table i).ctx ((tcpTick h env).table i).ctx :=
      henv.trans (synFrame_tick hl.ctx.state)
    refine ⟨hl.frame hf rfl, ?_⟩
    simp only [arrived, taken, List.append_nil, List.nil_append]
    exact hf.queue.symm

/-- A closed socket of the user, without requests and not part of any accept. -/
structure Idle (h : Host n) (i : Fin n) : Prop where
  usable : h.usable i = true
  state : (h.table i).ctx.state = .CLOSED
  queue : (h.table i).ctx.synQueue = []
  accepts : ∀ a ∈ h.accepts, a.socket ≠ i ∧ a.newSocket ≠ some i

theorem listening_listen (hi : Idle h i) (api : Api) (env : Env) (backlog : Nat) :
    Listening (hostStep h (.start api env i (.listen backlog))) i ∧
      ((hostStep h (.start api env i (.listen backlog))).table i).ctx.synQueue = [] := by
  have hstart : (start api (h.ctxOf i env) (.listen backlog)) =
      (listenOpen (h.ctxOf i env) backlog, .done .NO_ERROR) := by
    have hs : ¬(h.ctxOf i env).state ≠ .CLOSED := fun hs => hs hi.state
    cases api
    · simp only [start, tcpListen, if_neg hs, returned]
    · rfl
  have hctx : ((hostStep h (.start api env i (.listen backlog))).table i).ctx =
      listenOpen (h.ctxOf i env) backlog := by
    simp only [hostStep, hi.usable, if_true]
    rw [finish_ctx, if_pos rfl, hstart]
  have hacc : (hostStep h (.start api env i (.listen backlog))).accepts = h.accepts := by
    simp only [hostStep, hi.usable, if_true]
    unfold Host.finish
    split <;> rfl
  have hqueues : (listenOpen (h.ctxOf i env) backlog).toQueueVars =
      { (h.table i).ctx.toQueueVars with
        synQueueSize := min (if backlog > 0 then backlog else TCP_DEFAULT_SYN_QUEUE_SIZE)
          TCP_MAX_SYN_QUEUE_SIZE } := tcpChangeState_queues _ _
  have hempty : (listenOpen (h.ctxOf i env) backlog).synQueue = [] :=
    (congrArg (·.synQueue) hqueues).trans hi.queue
  have hsize : 0 < (listenOpen (h.ctxOf i env) backlog).synQueueSize := by
    rw [congrArg (·.synQueueSize) hqueues]
    show 0 < min (if backlog > 0 then backlog else TCP_DEFAULT_SYN_QUEUE_SIZE) TCP_MAX_SYN_QUEUE_SIZE
    simp only [TCP_DEFAULT_SYN_QUEUE_SIZE, TCP_MAX_SYN_QUEUE_SIZE]
    split <;> omega
  have htype : (listenOpen (h.ctxOf i env) backlog).type = .STREAM := by
    refine (congrArg (·.type) (tcpChangeState_id _ _).1).trans ?_
    have hu := hi.usable
    simp only [Host.usable, Bool.and_eq_true, beq_iff_eq] at hu
    exact hu.2
  refine ⟨⟨?_, ?_⟩, by rw [hctx]; exact hempty⟩
  · rw [hctx]
    refine ⟨htype, .inl (tcpChangeState_state _ _), hsize, ?_, ?_, ?_⟩
    · rw [hempty]; exact Nat.zero_le _
    · rw [hempty]; exact List.nodup_nil
    · rw [hempty]
      exact fun item hm => by cases hm
  · rw [hacc]
    refine ⟨fun a ha => (hi.accepts a ha).2, ?_, fun a ha hs => absurd hs (hi.accepts a ha).1⟩
    have hzero : h.accepts.countP (fun a : Accepting n => decide (a.socket = i)) = 0 :=
      List.countP_eq_zero.mpr fun a ha => by simpa using (hi.accepts a ha).1
    rw [hzero]
    exact Nat.zero_le _

/-- In every run after a `tcpListen` in which one task accepts from the socket, its queue is within
its bound, has no two requests from one source and only sizes the stack works with. The requests
that arrived are those that accepts have removed, followed by those that wait, in this order. An
accept under way holds the head of the queue. -/
theorem synQueue_discipline {h₀ : Host n} {ins outs : List TcpSynQueueItem} (hi : Idle h₀ i)
    {api : Api} {env : Env} {backlog : Nat}
    (hr : AcceptRun i (hostStep h₀ (.start api env i (.listen backlog))) h ins outs) :
    SynQueueOk (h.table i).ctx ∧ ins = outs ++ (h.table i).ctx.synQueue ∧
      ∀ a ∈ h.accepts, a.socket = i → ∀ item, a.stage.item = some item →
        (h.table i).ctx.synQueue.head? = some item := by
  obtain ⟨hfirst, hempty⟩ := listening_listen hi api env backlog
  have hinv : Listening h i ∧ ins = outs ++ (h.table i).ctx.synQueue := by
    induction hr with
    | init => exact ⟨hfirst, by rw [hempty]; rfl⟩
    | step _ ho ih =>
      obtain ⟨hl, hq⟩ := ih
      obtain ⟨h1, h2⟩ := listening_step hl ho
      refine ⟨h1, ?_⟩
      rw [hq, List.append_assoc, h2, List.append_assoc]
  exact ⟨hinv.1.ctx.queue, hinv.2, hinv.1.accepts.head⟩

/-- Two clients ask for a connection; the first of them is taken. -/
theorem synQueue_discipline_two :
    SynQueueOk ((hostRun (acceptEvents 80 ++ [.segment Env.granting (synFrom 81),
      .acceptNext Env.granting 0])).table 0).ctx := by
  have hidle : Idle (hostRun (openEvents .c 0 1000)) 0 :=
    ⟨by decide +kernel, by decide +kernel, by decide +kernel, by decide +kernel⟩
  have hfree : (hostStep (hostStep (hostRun (openEvents .c 0 1000))
      (.start .c Env.granting 0 (.listen 0))) (.segment Env.granting (synFrom 80))).accepts = [] := by
    decide +kernel
  simp only [hostRun, acceptEvents, List.foldl_append, List.foldl_cons, List.foldl_nil]
  generalize hh : List.foldl hostStep (socketInit SOCKET_MAX_COUNT) (openEvents .c 0 1000) = h₀
  unfold hostRun at hidle hfree
  rw [hh] at hidle hfree
  have h1 : AcceptRun 0 (hostStep h₀ (.start .c Env.granting 0 (.listen 0))) _ _ _ :=
    .step .init (e := .segment Env.granting (synFrom 80)) trivial
  have h2 : AcceptRun 0 _ _ _ _ :=
    h1.step (e := .accept .c 0) fun _ a ha => by rw [hfree] at ha; cases ha
  have h3 : AcceptRun 0 _ _ _ _ := h2.step (e := .acceptNext Env.granting 0) trivial
  have h4 : AcceptRun 0 _ _ _ _ := h3.step (e := .acceptNext Env.granting 0) trivial
  have h5 : AcceptRun 0 _ _ _ _ := h4.step (e := .segment Env.granting (synFrom 81)) trivial
  exact (synQueue_discipline hidle (h5.step (e := .acceptNext Env.granting 0) trivial)).1

end Cyclone
