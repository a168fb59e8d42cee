import Cyclone.Handles

/-!
# Cyclone.Legal

The transition precondition of `Tcp_Change_State` in the composed system: SPARK user calls, the C
segment handlers and the timer. Every call of `tcpChangeState` is in the log of its socket.

* `Move.legal`, `Start.legal`, `Resume.legal`: the transitions of each kind of step.
* `legal_hostStep`, `changes_legal`: one event and whole runs, as long as no owned connection is
  recycled.
* `change_illegal`: a run that recycles one.
-/

namespace Cyclone

open Serial Relation Run

/-- The precondition of `Tcp_Change_State`. -/
def legalChange (before : TcpState) : TcpState → Bool
  | .CLOSED => true
  | .LISTEN => before == .CLOSED
  | .SYN_SENT => before == .CLOSED || before == .LISTEN
  | .SYN_RECEIVED => before == .CLOSED || before == .LISTEN || before == .SYN_SENT
  | .ESTABLISHED => before == .LISTEN || before == .SYN_SENT || before == .SYN_RECEIVED
  | .CLOSE_WAIT =>
    before == .LISTEN || before == .SYN_SENT || before == .SYN_RECEIVED || before == .ESTABLISHED
  | .LAST_ACK => before == .CLOSE_WAIT
  | .FIN_WAIT_1 => before == .SYN_SENT || before == .SYN_RECEIVED || before == .ESTABLISHED
  | .FIN_WAIT_2 => before == .FIN_WAIT_1
  | .CLOSING => before == .FIN_WAIT_1
  | .TIME_WAIT => before == .CLOSING || before == .FIN_WAIT_2 || before == .FIN_WAIT_1

/-- Every transition in the log met the precondition. -/
def LegalLog (t : Trace) : Prop := ∀ ch ∈ t.changes, legalChange ch.1 ch.2

variable {rx : Option Packet} {c : Ctx} {k k' : Kernel}

theorem LegalLog.append {t t' : Trace} {s s' : TcpState} (h : LegalLog t)
    (ht : t'.changes = t.changes ++ [(s, s')]) (hs : legalChange s s') : LegalLog t' := by
  intro ch hch
  rw [ht, List.mem_append, List.mem_singleton] at hch
  obtain hch | rfl := hch
  · exact h ch hch
  · exact hs

theorem LegalLog.same {t t' : Trace} (h : LegalLog t) (ht : t'.changes = t.changes) :
    LegalLog t' := by
  intro ch hch
  rw [ht] at hch
  exact h ch hch

theorem LegalLog.enter {s : TcpState} (h : LegalLog k.toTrace) (hs : legalChange k.state s) :
    LegalLog (k.enter s).toTrace :=
  h.append (congrArg (·.changes) (enter_trace k s)) hs

/-! ## Steps -/

theorem Move.legal (h : Move rx k k') (hk : LegalLog k.toTrace) : LegalLog k'.toTrace := by
  cases h with
  | close => exact hk.enter rfl
  | dispose => exact hk
  | opened _ hs =>
    refine LegalLog.enter (k := (k.takeSyn _ _).pruned.emit _) hk ?_
    show legalChange k.state _
    rw [hs]; rfl
  | @crossed k1 p una hp hs _ _ _ he =>
    have hstate : k1.state = .SYN_SENT ∧ LegalLog k1.toTrace := by
      obtain rfl | ⟨ph, h, -, -, -, rfl⟩ := he
      · exact ⟨hs, hk⟩
      · exact ⟨hs, hk⟩
    refine hstate.2.enter ?_
    rw [hstate.1]; rfl
  | accepted _ hs => exact hk.enter (by rw [hs]; rfl)
  | finAcked _ hs => exact hk.enter (by rw [hs]; rfl)
  | fin next _ hs =>
    refine LegalLog.enter (k := k.takeFin.emit _) hk ?_
    show legalChange k.state next
    obtain ⟨hs, rfl⟩ | ⟨hs, rfl⟩ := hs <;> (rw [hs]; rfl)
  | finTimeWait _ hs =>
    refine LegalLog.enter (k := (k.takeFin.emit _).released) hk ?_
    show legalChange k.state _
    rw [hs]; rfl
  | closingAcked _ hs =>
    refine LegalLog.enter (k := k.released) hk ?_
    show legalChange k.state _
    rw [hs]; rfl

theorem LegalLog.net (h : LegalLog c.toTrace) (e : NetEvent) : LegalLog (netStep c e).toTrace :=
  netStep_inv (c := c) (P := fun k => LegalLog k.toTrace)
    (fun _ _ hw hk => hk.same hw.frame.changes) (fun _ _ hm hk => hm.legal hk) h

theorem Connecting.legal {e : Error} (h : Connecting k k' e) (hs : k.state = .CLOSED)
    (hk : LegalLog k.toTrace) : LegalLog k'.toTrace := by
  cases h with
  | @opened id tx rx iss ph hd =>
    refine LegalLog.enter (k := (k.activeStart id tx rx iss).post ph hd 0) hk ?_
    show legalChange k.state _
    rw [hs]; rfl
  | _ => exact hk

theorem Start.legal {api : Api} {req : Request} (h : Start api k req k')
    (hl : ∀ n, req = .listen n → k.state = .CLOSED) (hk : LegalLog k.toTrace) :
    LegalLog k'.toTrace := by
  cases h with
  | connect hs h => exact h.legal hs hk
  | @listen n m =>
    refine LegalLog.enter (k := { k with synQueueSize := m }) hk ?_
    show legalChange k.state _
    rw [hl n rfl]; rfl
  | _ => exact hk

theorem Resume.legal {first : Nat} {call : Call} (h : Resume (.spark first) k call k')
    (hk : LegalLog k.toTrace) : LegalLog k'.toTrace := by
  cases h with
  | work h => exact hk.same (workFrame_of h).changes
  | fin next hr h =>
    cases h with
    | tried => exact hk
    | @sent ph hd =>
      refine LegalLog.enter (k := (k.post ph hd 0).countFin) hk ?_
      show legalChange k.state next
      obtain ⟨hs, rfl⟩ | ⟨hs, rfl⟩ := hr <;> (rw [hs]; rfl)

theorem LegalLog.closeSocket (h : LegalLog c.toTrace) : LegalLog (closeSocket c).toTrace :=
  h.append (congrArg (·.changes) (closeSocket_trace c)) rfl

theorem LegalLog.tcpAbort (h : LegalLog c.toTrace) : LegalLog (tcpAbort c).1.toTrace := by
  have hrst : LegalLog (tcpSendSegment c { rst := true } c.sndNxt 0 0 false).1.toTrace :=
    h.same (does_sendReset (c := c) rfl c.sndNxt 0 : Does (Send none) _ _).sendFrame.changes
  unfold Cyclone.tcpAbort
  split
  case h_6 => exact h
  case h_7 => exact h.closeSocket
  all_goals exact hrst.closeSocket

theorem LegalLog.socketClose (h : LegalLog c.toTrace) : LegalLog (socketClose c).toTrace := by
  unfold Cyclone.socketClose
  split
  · exact h.tcpAbort
  all_goals exact h

/-! ## The system -/

variable {n : Nat} {h : Host n} {i j : Fin n}

/-- The event is one of the SPARK calls, the network or the timer. `Socket_Listen` is called in
CLOSED, which is its precondition. -/
def SparkEvent (h : Host n) : HostEvent n → Prop
  | .open api _ _ _ => api ≠ .c
  | .accept api _ => api ≠ .c
  | .start api _ i req => api ≠ .c ∧ ∀ b, req = .listen b → (h.table i).ctx.state = .CLOSED
  | _ => True

structure LegalEntry (e : Entry) : Prop where
  log : LegalLog e.ctx.toTrace
  spark : ∀ cl ∈ e.calls, cl.1 ≠ .c

/-- All transitions so far were legal, and all suspended calls are SPARK calls. -/
def Legal (table : Fin n → Entry) : Prop := ∀ i, LegalEntry (table i)

theorem Legal.set {table : Fin n → Entry} {e : Entry} (hl : Legal table) (he : LegalEntry e) :
    Legal (fun j => if j = i then e else table j) := by
  intro j
  by_cases hj : j = i
  · simpa [hj] using he
  · simpa [hj] using hl j

theorem Legal.setCtx (hl : Legal h.table) {c : Ctx} (hc : LegalLog c.toTrace) :
    Legal (h.setCtx i c).table :=
  hl.set ⟨hc, (hl i).spark⟩

theorem Legal.finish (hl : Legal h.table) {api : Api} {r : Ctx × Progress} (ha : api ≠ .c)
    (hc : LegalLog r.1.toTrace) : Legal (h.finish i api r).table := by
  unfold Host.finish
  split
  · refine hl.set ⟨hc, fun cl hcl => ?_⟩
    rw [List.mem_append, List.mem_singleton] at hcl
    obtain hcl | rfl := hcl
    · exact (hl i).spark cl hcl
    · exact ha
  · exact hl.setCtx hc

theorem JustOpened.legal {type : SocketType} {c c' : Ctx} (h : JustOpened type c c')
    (hc : LegalLog c.toTrace) : LegalLog c'.toTrace := by
  obtain ht | ht := h.trace_eq
  · exact hc.same (congrArg (·.changes) ht)
  · exact hc.append (congrArg (·.changes) ht) rfl

theorem Legal.opened (hl : Legal h.table) (api : Api) (env : Env) (type : SocketType)
    (protocol : Nat) : Legal (socketOpen api h env type protocol).1.table := by
  obtain ⟨-, ⟨-, -, h1⟩ | ⟨i, c, -, -, -, h1, h2⟩⟩ := socketOpen_spec api h env type protocol
  · rw [h1]; exact hl
  · rw [h1]
    exact hl.set ⟨h2.legal (hl i).log, (hl i).spark⟩

theorem Answering.changes_eq {socket : Socket} {isn : Word} {e : Error}
    (h : Answering k socket isn k' e) : k'.changes = k.changes := by
  cases h <;> rfl

/-- The new socket of an accept enters SYN-RECEIVED from CLOSED. -/
theorem legal_acceptOn (hl : Legal h.table) (hj : (h.table j).ctx.state = .CLOSED) (env : Env)
    (i : Fin n) (item : TcpSynQueueItem) : Legal (acceptOn h env i j item).1.table := by
  unfold acceptOn
  simp only
  generalize hh1 : (if (acceptAlloc (h.table i).ctx.toSocket (h.ctxOf j env)).2 = .NO_ERROR then
    h.setCtx i { (h.table i).ctx with congestState := .IDLE } else h) = h1
  have hl1 : Legal h1.table ∧ (h1.table j).ctx.state = .CLOSED := by
    rw [← hh1]
    split
    · refine ⟨hl.setCtx (hl i).log, ?_⟩
      by_cases hji : j = i
      · subst hji
        simp only [Host.setCtx, Host.setEntry_same]
        exact hj
      · simp only [Host.setCtx, Host.setEntry, if_neg hji]
        exact hj
    · exact ⟨hl, hj⟩
  obtain ⟨hl1, hj1⟩ := hl1
  have hcase := acceptOpen_cases (h.table i).ctx.toSocket item (h1.ctxOf j env)
  have hstate := hcase.owned.2.2
  have hlog : LegalLog (acceptOpen (h.table i).ctx.toSocket item (h1.ctxOf j env)).1.toTrace :=
    LegalLog.same (t := (h1.table j).ctx.toTrace) (hl1 j).log hcase.changes_eq
  split
  · rename_i c hopen
    rw [hopen] at hstate hlog
    have hl2 : Legal (h1.setCtx i (tcpUpdateEvents (popSyn (h1.table i).ctx))).table :=
      hl1.setCtx (hl1 i).log
    generalize h1.setCtx i (tcpUpdateEvents (popSyn (h1.table i).ctx)) = h2 at hl2
    simp only [Host.addHandle, Host.setCtx, Host.setEntry_same, Host.setEntry_setEntry]
    refine hl2.set ⟨?_, (hl2 j).spark⟩
    have ht := congrArg (·.toTrace) (tcpChangeState_kernel c .SYN_RECEIVED)
    refine LegalLog.same (LegalLog.enter (k := c.kernel) hlog ?_) (congrArg (·.changes) ht)
    have hc : c.kernel.state = .CLOSED := hstate.trans hj1
    rw [hc]; rfl
  · rename_i c e _ hopen
    rw [hopen] at hlog
    have hl2 := hl1.setCtx (i := j) hlog.tcpAbort
    exact hl2.setCtx (hl2 i).log

theorem legal_hostStep {e : HostEvent n} (ht : Tidy h.table h.pending) (hl : Legal h.table)
    (hs : SparkEvent h e) : Legal (hostStep h e).table := by
  cases e with
  | «open» api env type protocol =>
    have h1 := hl.opened api env type protocol
    unfold hostStep
    simp only
    split
    · rename_i h2 j ho
      rw [ho] at h1
      exact h1.set ⟨(h1 j).log, (h1 j).spark⟩
    · rename_i h2 ho
      rw [ho] at h1
      exact h1
  | accept api i =>
    simp only [hostStep, acceptCall]
    split
    · split <;> exact hl
    · exact hl
  | acceptNext env k =>
    simp only [hostStep, acceptResume]
    split
    · exact hl
    · rename_i a ha
      have hstep : Legal (acceptStep a.api { h with accepts := h.accepts.eraseIdx k } env a.socket
          a.stage).1.table := by
        cases hstage : a.stage with
        | start =>
          simp only [acceptStep, acceptTurn]
          split
          · exact hl.setCtx (hl a.socket).log
          · exact hl
        | wait =>
          simp only [acceptStep]
          split <;> exact hl
        | opening item =>
          exact Legal.opened (h := { h with accepts := h.accepts.eraseIdx k }) hl a.api env .STREAM
            SOCKET_IP_PROTO_TCP
        | opened item newSocket =>
          cases newSocket with
          | none => exact hl.setCtx (hl a.socket).log
          | some j =>
            have hmem : j ∈ h.pending := by
              refine List.mem_filterMap.mpr ⟨a, List.mem_of_getElem? ha, ?_⟩
              rw [Accepting.newSocket, hstage]; rfl
            have hclosed := ((ht.entry j).reserved hmem).2.2.1
            simp only [acceptStep]
            exact legal_acceptOn (h := { h with accepts := h.accepts.eraseIdx k }) hl hclosed env
              a.socket item
      split
      · rename_i h2 stage ho
        rw [ho] at hstep
        exact hstep
      · rename_i h2 ho
        rw [ho] at hstep
        exact hstep
  | start api env i req =>
    simp only [hostStep]
    split
    · exact hl.finish hs.1 ((start_cases api (h.ctxOf i env) req).legal hs.2 (hl i).log)
    · exact hl
  | resume env i k =>
    simp only [hostStep, callResume]
    split
    · exact hl
    · rename_i api call hcall
      have ha : api ≠ .c := (hl i).spark _ (List.mem_of_getElem? hcall)
      have hl1 : Legal (h.setEntry i { h.table i with
          calls := (h.table i).calls.eraseIdx k }).table :=
        hl.set ⟨(hl i).log, fun cl hcl => (hl i).spark cl (List.mem_of_mem_eraseIdx hcl)⟩
      refine hl1.finish ha ?_
      cases api with
      | c => exact absurd rfl ha
      | spark first =>
        have hof : (h.setEntry i { h.table i with
            calls := (h.table i).calls.eraseIdx k }).ctxOf i env = h.ctxOf i env := by
          simp only [Host.ctxOf, Host.setEntry_same]
        rw [hof]
        exact (resume_cases (.spark first) (h.ctxOf i env) call).legal (hl i).log
  | close env i =>
    simp only [hostStep]
    split
    · have hc : LegalLog (h.ctxOf i env).toTrace := (hl i).log
      have hl1 := hl.setCtx (i := i) hc.socketClose
      exact hl1.set ⟨(hl1 i).log, (hl1 i).spark⟩
    · exact hl
  | segment env p =>
    simp only [hostStep, tcpProcessSegment]
    split
    · rename_i i _
      exact hl.setCtx ((hl i).log.net (.segment env p))
    · exact hl
  | tick env => exact fun i => ⟨(hl i).log.net (.tick (env i)), (hl i).spark⟩

/-- In every run of the composed system that recycles no owned connection, every call of
`tcpChangeState` was made in a state that meets the precondition of `Tcp_Change_State`. -/
theorem changes_legal
    (hr : Reach hostStep (fun h e => SparkEvent h e ∧ Careful h e) (socketInit n) h) (i : Fin n) :
    ∀ ch ∈ (h.table i).ctx.changes, legalChange ch.1 ch.2 := by
  have hinv : Tidy h.table h.pending ∧ Legal h.table :=
    hr.inv (P := fun h => Tidy h.table h.pending ∧ Legal h.table)
      ⟨tidy_init n, fun _ => ⟨nofun, nofun⟩⟩
      fun _ _ hp hok => ⟨tidy_hostStep hp.1 hok.2, legal_hostStep hp.1 hp.2 hok.1⟩
  exact (hinv.2 i).log

/-- The first socket is opened. -/
def openSpark : HostEvent SOCKET_MAX_COUNT :=
  .open (.spark 1) Env.granting .STREAM SOCKET_IP_PROTO_TCP

/-- Its user binds and connects it. -/
def connectSpark : List (HostEvent SOCKET_MAX_COUNT) :=
  [.start (.spark 1) Env.granting 0 (.bind {} 2000),
   .start (.spark 1) Env.granting 0 (.setTxBufferSize 8),
   .start (.spark 1) Env.granting 0 (.setRxBufferSize 8),
   .start (.spark 1) Env.granting 0 (.connect wirePeer 80)]

def connectedBySpark : Host SOCKET_MAX_COUNT :=
  connectSpark.foldl hostStep (hostStep (socketInit SOCKET_MAX_COUNT) openSpark)

theorem connectedBySpark_reach : Reach hostStep (fun h e => SparkEvent h e ∧ Careful h e)
    (socketInit SOCKET_MAX_COUNT) connectedBySpark := by
  have hopen : Careful (socketInit SOCKET_MAX_COUNT) openSpark := by
    intro i hi
    have hnone : recycled (socketInit SOCKET_MAX_COUNT) Env.granting .STREAM
        SOCKET_IP_PROTO_TCP = none := by decide +kernel
    rw [hnone] at hi
    cases hi
  have hspark : SparkEvent (socketInit SOCKET_MAX_COUNT) openSpark := nofun
  refine (Reach.init.step ⟨hspark, hopen⟩).foldl connectSpark fun e he h => ?_
  simp only [connectSpark, List.mem_cons, List.not_mem_nil, or_false] at he
  obtain rfl | rfl | rfl | rfl := he <;> exact ⟨⟨nofun, nofun⟩, trivial⟩

theorem changes_legal_connect :
    (TcpState.CLOSED, TcpState.SYN_SENT) ∈ (connectedBySpark.table 0).ctx.changes ∧
      legalChange .CLOSED .SYN_SENT = true := by
  have hmem : (TcpState.CLOSED, TcpState.SYN_SENT) ∈ (connectedBySpark.table 0).ctx.changes := by
    decide +kernel
  exact ⟨hmem, changes_legal connectedBySpark_reach 0 _ hmem⟩

/-! ## A recycled connection -/

/-- The events before the accept: entry 0 listens, entry 1 is in TIME-WAIT and not closed, every
other entry is open, and a client asks for a connection. -/
def acceptSetup : List (HostEvent SOCKET_MAX_COUNT) :=
  let api := Api.spark 1
  openEvents api 0 1000 ++ [.start api Env.granting 0 (.listen 0)] ++
    openEvents api 1 2000 ++ timeWaitEvents api 1 ++
    List.replicate (SOCKET_MAX_COUNT - 2) (.open api Env.granting .DGRAM SOCKET_IP_PROTO_UDP) ++
    [.segment Env.granting { wireSegment 500 0 { syn := true } with
      segment := { (wireSegment 500 0 { syn := true }).segment with destPort := 1000 } }]

/-- `Socket_Accept` recycles entry 1, the user of entry 1 connects it again, and the accept goes on
once the connection is established. -/
def acceptRecycled : List (HostEvent SOCKET_MAX_COUNT) :=
  let api := Api.spark 1
  [.accept api 0, .acceptNext Env.granting 0, .acceptNext Env.granting 0,
   .start api Env.granting 1 (.bind {} 2000), .start api Env.granting 1 (.setTxBufferSize 8),
   .start api Env.granting 1 (.setRxBufferSize 8),
   .start api Env.granting 1 (.connect wirePeer 80),
   .segment Env.granting (wireSegment 100 1 { syn := true, ack := true }),
   .acceptNext Env.granting 0]

/-- The accept enters SYN-RECEIVED from ESTABLISHED. -/
theorem change_illegal :
    (TcpState.ESTABLISHED, TcpState.SYN_RECEIVED) ∈
      ((hostRun (acceptSetup ++ acceptRecycled)).table 1).ctx.changes ∧
    legalChange .ESTABLISHED .SYN_RECEIVED = false := by
  decide +kernel

end Cyclone
