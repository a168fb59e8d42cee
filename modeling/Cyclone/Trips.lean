import Cyclone.Steps

/-!
# Cyclone.Trips

The state functions and the timer as trips through the TCP states. A `Path` lists the states that
are entered one after the other, with the steps inside each state in between; `Trip rx L c c'`
says that `c'` comes from `c` by a path whose list of states is in `L`.

* `trip_established`, `trip_finWait1`, ...: one lemma for each state function.
* `trip_tcpProcessState`: the lists of states one segment can bring (`segmentLists`).
* `trip_tcpTickSocket`: those one run of the timer can bring (`tickLists`).
* `trip_netStep`: the same for either of the two.
-/

namespace Cyclone

open Serial Relation

variable {rx : Option Packet} {c c' c1 : Ctx} {p : Packet}

/-! ## Moves of a context -/

/-- `c'` comes from `c` by one step between states. -/
structure Moves (rx : Option Packet) (c c' : Ctx) : Prop where
  step : Move rx c.kernel c'.kernel
  mask : c'.eventMask = c.eventMask
  events : EventsOk c → EventsOk c'

/-- `tcpChangeState` on the kernel. -/
theorem tcpChangeState_kernel (c : Ctx) (newState : TcpState) :
    (tcpChangeState c newState).kernel = c.kernel.enter newState := by
  by_cases h : newState = .CLOSED
  · by_cases hs : c.state = .LAST_ACK ∨ c.state = .TIME_WAIT
    · have hk : c.kernel.state = .LAST_ACK ∨ c.kernel.state = .TIME_WAIT := hs
      simp only [tcpChangeState, Kernel.enter, if_pos h, if_pos hs, if_pos hk]; rfl
    · have hk : ¬(c.kernel.state = .LAST_ACK ∨ c.kernel.state = .TIME_WAIT) := hs
      simp only [tcpChangeState, Kernel.enter, if_pos h, if_neg hs, if_neg hk]; rfl
  · simp only [tcpChangeState, Kernel.enter, if_neg h]; rfl

theorem tcpChangeState_state (c : Ctx) (newState : TcpState) :
    (tcpChangeState c newState).state = newState := by
  simp only [tcpChangeState]; rfl

theorem tcpChangeState_mask (c : Ctx) (newState : TcpState) :
    (tcpChangeState c newState).eventMask = c.eventMask := by
  simp only [tcpChangeState]
  repeat' split
  all_goals rfl

theorem tcpChangeState_snd (c : Ctx) (newState : TcpState) :
    (tcpChangeState c newState).toSndVars = c.toSndVars := by
  simp only [tcpChangeState]
  repeat' split
  all_goals rfl

theorem tcpChangeState_rcv (c : Ctx) (newState : TcpState) :
    (tcpChangeState c newState).toRcvVars = c.toRcvVars := by
  simp only [tcpChangeState]
  repeat' split
  all_goals rfl

theorem moves_tcpChangeState {newState : TcpState} (h : Move rx c.kernel (c.kernel.enter newState)) :
    Moves rx c (tcpChangeState c newState) :=
  ⟨by rw [tcpChangeState_kernel]; exact h, tcpChangeState_mask _ _,
    fun _ => eventsOk_tcpUpdateEvents _⟩

theorem moves_close (hs : c.state ≠ .CLOSED) : Moves rx c (tcpChangeState c .CLOSED) :=
  moves_tcpChangeState (.close hs)

/-! ## Paths -/

/-- The states in the list are entered one after the other on the way from `c` to `c'`. -/
inductive Path (rx : Option Packet) : List TcpState → Ctx → Ctx → Prop where
  | stay {c c' : Ctx} (h : Does (Work rx) c c') : Path rx [] c c'
  | move {l : List TcpState} {s : TcpState} {c c1 c2 c' : Ctx} (h : Does (Work rx) c c1)
      (hm : Moves rx c1 c2) (hs : c2.state = s) (ht : Path rx l c2 c') : Path rx (s :: l) c c'

theorem Path.head {l : List TcpState} (h : Does (Work rx) c c1) (ht : Path rx l c1 c') :
    Path rx l c c' := by
  cases ht with
  | stay h' => exact .stay (h.trans h')
  | move h' hm hs ht => exact .move (h.trans h') hm hs ht

def Trip (rx : Option Packet) (L : List (List TcpState)) (c c' : Ctx) : Prop :=
  ∃ l ∈ L, Path rx l c c'

namespace Trip

variable {L L' : List (List TcpState)}

theorem stay (h : Does (Work rx) c c') (hL : [] ∈ L) : Trip rx L c c' := ⟨[], hL, .stay h⟩

theorem one {s : TcpState} (h : Moves rx c c') (hs : c'.state = s) (hL : [s] ∈ L) :
    Trip rx L c c' := ⟨[s], hL, .move (.refl c) h hs (.stay (.refl c'))⟩

theorem head (h : Does (Work rx) c c1) (ht : Trip rx L c1 c') : Trip rx L c c' := by
  obtain ⟨l, hl, hp⟩ := ht
  exact ⟨l, hl, hp.head h⟩

/-- First a step between states, then the rest of the trip. -/
theorem cons {s : TcpState} (L' : List (List TcpState)) (h : Moves rx c c1) (hs : c1.state = s) (ht : Trip rx L' c1 c')
    (hL : ∀ l ∈ L', s :: l ∈ L) : Trip rx L c c' := by
  obtain ⟨l, hl, hp⟩ := ht
  exact ⟨s :: l, hL l hl, .move (.refl c) h hs hp⟩

theorem mono (h : Trip rx L c c') (hL : ∀ l ∈ L, l ∈ L') : Trip rx L' c c' := by
  obtain ⟨l, hl, hp⟩ := h
  exact ⟨l, hL l hl, hp⟩

end Trip

theorem trip_close {L : List (List TcpState)} (hs : c.state ≠ .CLOSED) (hL : [.CLOSED] ∈ L) :
    Trip rx L c (tcpChangeState c .CLOSED) :=
  .one (moves_close hs) (tcpChangeState_state _ _) hL

/-! ## The checks at the head of the state functions -/

theorem whenOk_error {r : Ctx × Error} {k : Ctx → Ctx} (h : r.2 ≠ .NO_ERROR) :
    whenOk r k = r.1 := by
  obtain ⟨c, e⟩ := r
  cases e <;> first | rfl | exact absurd rfl h

/-- The checks of the sequence number, of the RST bit and of the SYN bit. -/
theorem trip_checked {L : List (List TcpState)} {onRst k : Ctx → Ctx} (hs : c.kernel.ackReady)
    (hL : [] ∈ L) (hrst : p.segment.flags.rst = true → Trip (some p) L c (onRst c))
    (hk : seqAcceptable c.toSockCore p.segment p.length = true → p.segment.flags.rst = false →
      p.segment.flags.syn = false → Trip (some p) L c (k c)) :
    Trip (some p) L c (whenOk (tcpCheckSequenceNumber c p.segment p.length) fun c =>
      if p.segment.flags.rst then onRst c
      else whenOk (tcpCheckSyn c p.segment p.length) k) := by
  obtain ⟨h1, hseq⟩ | ⟨h1, hne⟩ := tcpCheckSequenceNumber_cases (some p) hs p.segment p.length
  case inr => rw [whenOk_error hne]; exact .stay h1.ofSend hL
  rw [h1]
  simp only [whenOk]
  split
  · rename_i hr; exact hrst hr
  · rename_i hr
    obtain ⟨h2, hsyn⟩ | ⟨h2, hne⟩ := tcpCheckSyn_cases (some p) c p.segment p.length
    · rw [h2]; exact hk hseq (by simpa using hr) hsyn
    · show Trip _ _ _ (whenOk _ k)
      rw [whenOk_error hne]; exact .stay h2.ofSend hL

/-- `tcpCheckAck`, then the rest of the state function. -/
theorem trip_acked {L : List (List TcpState)} {k : Ctx → Ctx} (hs : c.state.acking) (hL : [] ∈ L)
    (hk : ∀ c1, Does (Send (some p)) c c1 → p.segment.flags.ack = true →
      Trip (some p) L c1 (k c1)) :
    Trip (some p) L c (whenOk (tcpCheckAck c p.segment p.length) k) := by
  obtain ⟨h1, hack⟩ := tcpCheckAck_cases (p := p) hs p.length
  generalize hr : tcpCheckAck c p.segment p.length = r at h1 hack
  obtain ⟨c1, e⟩ := r
  by_cases he : e = .NO_ERROR
  · subst he
    exact (hk c1 h1 (hack rfl)).head h1.ofSend
  · rw [whenOk_error he]; exact .stay h1.ofSend hL

theorem seqAcceptable_congr {s t : SockCore} (h : s.toRcvVars = t.toRcvVars) (segment : TcpHeader)
    (length : Nat) : seqAcceptable s segment length = seqAcceptable t segment length := by
  have hnxt : s.rcvNxt = t.rcvNxt := congrArg (·.rcvNxt) h
  have hwnd : s.rcvWnd = t.rcvWnd := congrArg (·.rcvWnd) h
  simp only [seqAcceptable, hnxt, hwnd]

/-- What is left of the checks after steps of the sending side. -/
theorem accepted_of {c c1 : Ctx} (h : Does (Send rx) c c1)
    (hseq : seqAcceptable c.toSockCore p.segment p.length = true) (hr : p.segment.flags.rst = false)
    (hsyn : p.segment.flags.syn = false) (hack : p.segment.flags.ack = true) :
    Accepted c1.kernel p := by
  refine ⟨?_, hr, hsyn, hack⟩
  rw [← hseq]
  exact seqAcceptable_congr h.sendFrame.rcv _ _

theorem Does.state_eq (h : Does (Send rx) c c') : c'.state = c.state :=
  congrArg (·.state) h.sendFrame.ctl

/-! ## Text and FIN -/

theorem does_segmentText (hs : c.state.receptive) (ha : Accepted c.kernel p) :
    Does (Work (some p)) c (segmentText c p) ∧ (segmentText c p).toTcpCtl = c.toTcpCtl ∧
      (segmentText c p).toSndVars = c.toSndVars := by
  unfold segmentText
  split
  · rename_i hl; exact does_tcpProcessSegmentData hs ha hl
  · exact ⟨.refl c, rfl, rfl⟩

theorem consumeFin_kernel (c : Ctx) :
    (consumeFin c).toSockEvents = c.toSockEvents ∧
    ∃ es, (consumeFin c).kernel = c.kernel.takeFin.emit es ∧
      ∀ e ∈ es, IsAck c.kernel.takeFin e := by
  obtain ⟨he, es, hk, ha⟩ :=
    tcpSendSegment_ack_kernel { c with rcvNxt := c.rcvNxt + 1, finRcvd := true }
  exact ⟨he, es, hk, ha⟩

theorem finArrived (h : finInOrder c p = true) : FinArrived c.kernel p := by
  simp only [finInOrder, Bool.and_eq_true, beq_iff_eq] at h
  exact h

/-- The FIN of the peer is consumed, and a state is entered. -/
theorem moves_fin {next : TcpState}
    (hs : c.state = .ESTABLISHED ∧ next = .CLOSE_WAIT ∨ c.state = .FIN_WAIT_1 ∧ next = .CLOSING)
    (hf : finInOrder c p = true) : Moves (some p) c (tcpChangeState (consumeFin c) next) := by
  obtain ⟨he, es, hk, ha⟩ := consumeFin_kernel c
  refine ⟨?_, ?_, fun _ => eventsOk_tcpUpdateEvents _⟩
  · rw [tcpChangeState_kernel, hk]; exact .fin next rfl hs (finArrived hf) ha
  · rw [tcpChangeState_mask]; exact congrArg (·.eventMask) he

theorem tcpDeleteControlBlock_kernel (c : Ctx) :
    (tcpDeleteControlBlock c).kernel = c.kernel.released ∧
      (tcpDeleteControlBlock c).toSockEvents = c.toSockEvents := by
  simp only [tcpDeleteControlBlock, netBufferSetLength_zero]
  exact ⟨rfl, rfl⟩

theorem enterTimeWait_kernel (c : Ctx) :
    (enterTimeWait c).kernel = c.kernel.released.enter .TIME_WAIT ∧
      (enterTimeWait c).eventMask = c.eventMask := by
  obtain ⟨hk, he⟩ := tcpDeleteControlBlock_kernel c
  unfold enterTimeWait
  simp only
  rw [tcpChangeState_kernel, tcpChangeState_mask]
  exact ⟨by rw [← hk]; rfl, congrArg (·.eventMask) he⟩

theorem enterTimeWait_state (c : Ctx) : (enterTimeWait c).state = .TIME_WAIT :=
  tcpChangeState_state _ _

theorem moves_finTimeWait (hs : c.state = .FIN_WAIT_2) (hf : finInOrder c p = true) :
    Moves (some p) c (enterTimeWait (consumeFin c)) := by
  obtain ⟨he, es, hk, ha⟩ := consumeFin_kernel c
  obtain ⟨hk', hm⟩ := enterTimeWait_kernel (consumeFin c)
  refine ⟨?_, hm.trans (congrArg (·.eventMask) he), fun _ => eventsOk_tcpUpdateEvents _⟩
  rw [hk', hk]; exact .finTimeWait rfl hs (finArrived hf) ha

theorem does_ackNagle (hs : c.state.sendable) : Does (Work rx) c (ackNagle c) :=
  (does_tcpNagleAlgo hs _).ofSend

/-! ## State functions -/

theorem connected_ready (hs : c.state.connected) : c.kernel.ackReady := .inl hs

theorem trip_closed (c : Ctx) (p : Packet) : Trip (some p) [[]] c (tcpStateClosed c p) := by
  unfold tcpStateClosed
  split
  · exact .stay (.refl c) (by simp)
  · exact .stay (does_tcpSendResetSegment _ _ _ _).ofSend (by simp)

theorem trip_listen (hs : c.state = .LISTEN) : Trip (some p) [[]] c (tcpStateListen c p) := by
  refine .stay ?_ (by simp)
  unfold tcpStateListen
  split
  · exact .refl c
  · rename_i hr
    split
    · exact (does_tcpSendResetSegment _ _ _ _).ofSend
    · rename_i ha
      split
      · rename_i hsyn
        split
        · exact .refl c
        · split
          · exact .refl c
          · simp only
            split
            · split
              · exact .same rfl rfl
              · rename_i src dst _
                refine Does.trans ?_ (does_tcpUpdateEvents _)
                exact .single (.queueSyn rfl hs hsyn (by simpa using ha) (by simpa using hr) rfl)
                  rfl rfl
            · exact .same rfl rfl
      · exact .refl c

theorem trip_established (hs : c.state = .ESTABLISHED) :
    Trip (some p) [[], [.CLOSED], [.CLOSE_WAIT]] c (tcpStateEstablished c p) := by
  unfold tcpStateEstablished
  refine trip_checked (connected_ready (by rw [hs]; rfl)) (by simp)
    (fun _ => trip_close (by simp [hs]) (by simp)) fun hseq hr hsyn => ?_
  refine trip_acked (by rw [hs]; rfl) (by simp) fun c1 h1 hack => ?_
  have hs1 : c1.state = .ESTABLISHED := h1.state_eq.trans hs
  obtain ⟨h2, hctl, -⟩ := does_segmentText (by rw [hs1]; rfl) (accepted_of h1 hseq hr hsyn hack)
  simp only
  generalize segmentText c1 p = c2 at h2 hctl
  have hs2 : c2.state = .ESTABLISHED := (congrArg (·.state) hctl).trans hs1
  refine .head h2 ?_
  split
  · rename_i hf
    have hcw := tcpChangeState_state (consumeFin c2) .CLOSE_WAIT
    refine .cons [[]] (moves_fin (.inl ⟨hs2, rfl⟩) hf) hcw ?_ (by simp)
    exact .stay (does_ackNagle (by rw [hcw]; rfl)) (by simp)
  · exact .stay (does_ackNagle (by rw [hs2]; rfl)) (by simp)

theorem trip_synReceived (hs : c.state = .SYN_RECEIVED) :
    Trip (some p) [[], [.CLOSED], [.ESTABLISHED], [.ESTABLISHED, .CLOSED],
      [.ESTABLISHED, .CLOSE_WAIT]] c (tcpStateSynReceived c p) := by
  unfold tcpStateSynReceived
  refine trip_checked (connected_ready (by rw [hs]; rfl)) (by simp)
    (fun _ => trip_close (by simp [hs]) (by simp)) fun hseq hr hsyn => ?_
  split
  · exact .stay (.refl c) (by simp)
  · rename_i ha
    split
    · exact .stay (does_sendReset rfl _ _).ofSend (by simp)
    · rename_i hn
      let c1 : Ctx := { c with sndWnd := p.segment.window, sndWl1 := p.segment.seqNum,
                               sndWl2 := p.segment.ackNum, maxSndWnd := p.segment.window }
      have h1 : Does (Work (some p)) c c1 := .same rfl rfl
      have hest := tcpChangeState_state c1 .ESTABLISHED
      refine .head h1 (.cons _ (moves_tcpChangeState ?_) hest (trip_established hest) (by simp))
      have hn' : p.segment.ackNum = c.sndNxt := by simpa using hn
      exact .accepted rfl hs ⟨hseq, hr, hsyn, by simpa using ha⟩ hn'

theorem trip_closeWait (hs : c.state = .CLOSE_WAIT) :
    Trip (some p) [[], [.CLOSED]] c (tcpStateCloseWait c p) := by
  unfold tcpStateCloseWait
  refine trip_checked (connected_ready (by rw [hs]; rfl)) (by simp)
    (fun _ => trip_close (by simp [hs]) (by simp)) fun _ _ _ => ?_
  refine trip_acked (by rw [hs]; rfl) (by simp) fun c1 h1 _ => ?_
  exact .stay (does_ackNagle (by rw [h1.state_eq, hs]; rfl)) (by simp)

theorem trip_lastAck (hs : c.state = .LAST_ACK) :
    Trip (some p) [[], [.CLOSED]] c (tcpStateLastAck c p) := by
  unfold tcpStateLastAck
  refine trip_checked (connected_ready (by rw [hs]; rfl)) (by simp)
    (fun _ => trip_close (by simp [hs]) (by simp)) fun _ _ _ => ?_
  split
  · exact .stay (.refl c) (by simp)
  · split
    · exact trip_close (by simp [hs]) (by simp)
    · exact .stay (.refl c) (by simp)

/-- FIN-WAIT-1 once its FIN is acknowledged goes on as FIN-WAIT-2 does. -/
theorem trip_finText (hs : c.state = .FIN_WAIT_2) (ha : Accepted c.kernel p) {k : Ctx → Ctx}
    (hk : ∀ c1, c1.toSndVars = c.toSndVars → finInOrder c1 p = true →
      k c1 = enterTimeWait (consumeFin c1)) :
    Trip (some p) [[], [.TIME_WAIT]] c
      (if finInOrder (segmentText c p) p then k (segmentText c p) else segmentText c p) := by
  obtain ⟨h2, hctl, hsnd⟩ := does_segmentText (by rw [hs]; rfl) ha
  generalize segmentText c p = c2 at h2 hctl hsnd
  have hs2 : c2.state = .FIN_WAIT_2 := (congrArg (·.state) hctl).trans hs
  refine .head h2 ?_
  split
  · rename_i hf
    rw [hk c2 hsnd hf]
    exact .one (moves_finTimeWait hs2 hf) (enterTimeWait_state _) (by simp)
  · exact .stay (.refl c2) (by simp)

theorem consumeFin_snd (c : Ctx) : (consumeFin c).toSndVars = c.toSndVars := by
  obtain ⟨-, es, hk, -⟩ := consumeFin_kernel c
  exact congrArg (·.toSndVars) hk

theorem trip_finWait1 (hs : c.state = .FIN_WAIT_1) :
    Trip (some p) [[], [.CLOSED], [.FIN_WAIT_2], [.FIN_WAIT_2, .TIME_WAIT], [.CLOSING]] c
      (tcpStateFinWait1 c p) := by
  unfold tcpStateFinWait1
  refine trip_checked (connected_ready (by rw [hs]; rfl)) (by simp)
    (fun _ => trip_close (by simp [hs]) (by simp)) fun hseq hr hsyn => ?_
  refine trip_acked (by rw [hs]; rfl) (by simp) fun c1 h1 hack => ?_
  have hs1 : c1.state = .FIN_WAIT_1 := h1.state_eq.trans hs
  have hacc := accepted_of h1 hseq hr hsyn hack
  by_cases hn : p.segment.ackNum = c1.sndNxt
  · -- our FIN is acknowledged: the rest is done in FIN-WAIT-2
    simp only [if_pos hn]
    let c2 : Ctx := { c1 with finWait2Timer := tcpTimerStart c1.toEnv TCP_FIN_WAIT_2_TIMER }
    have h2 : Does (Work (some p)) c1 c2 := .same rfl rfl
    have hfw2 := tcpChangeState_state c2 .FIN_WAIT_2
    refine .head h2 (.cons [[], [.TIME_WAIT]] (moves_tcpChangeState (.finAcked rfl hs1 hacc hn))
      hfw2 ?_ (by simp))
    have hrcv : (tcpChangeState c2 .FIN_WAIT_2).toRcvVars = c1.toRcvVars :=
      tcpChangeState_rcv c2 .FIN_WAIT_2
    refine trip_finText (k := fun c => if p.segment.ackNum = (consumeFin c).sndNxt then
      enterTimeWait (consumeFin c) else tcpChangeState (consumeFin c) .CLOSING) hfw2 ?_ ?_
    · exact ⟨by rw [← hacc.1]; exact seqAcceptable_congr hrcv _ _, hacc.2⟩
    · intro c3 hsnd _
      have hn3 : (consumeFin c3).sndNxt = c1.sndNxt := congrArg (·.sndNxt)
        ((consumeFin_snd c3).trans (hsnd.trans (tcpChangeState_snd c2 .FIN_WAIT_2)))
      exact if_pos (by rw [hn3]; exact hn)
  · simp only [if_neg hn]
    obtain ⟨h2, hctl, hsnd⟩ := does_segmentText (by rw [hs1]; rfl) hacc
    generalize segmentText c1 p = c2 at h2 hctl hsnd
    have hs2 : c2.state = .FIN_WAIT_1 := (congrArg (·.state) hctl).trans hs1
    refine .head h2 ?_
    split
    · rename_i hf
      have hn2 : (consumeFin c2).sndNxt = c1.sndNxt :=
        congrArg (·.sndNxt) ((consumeFin_snd c2).trans hsnd)
      rw [if_neg (by rw [hn2]; exact hn)]
      exact .one (moves_fin (.inr ⟨hs2, rfl⟩) hf) (tcpChangeState_state _ _) (by simp)
    · exact .stay (.refl c2) (by simp)

theorem trip_finWait2 (hs : c.state = .FIN_WAIT_2) :
    Trip (some p) [[], [.CLOSED], [.TIME_WAIT]] c (tcpStateFinWait2 c p) := by
  unfold tcpStateFinWait2
  refine trip_checked (connected_ready (by rw [hs]; rfl)) (by simp)
    (fun _ => trip_close (by simp [hs]) (by simp)) fun hseq hr hsyn => ?_
  refine trip_acked (by rw [hs]; rfl) (by simp) fun c1 h1 hack => ?_
  have hs1 : c1.state = .FIN_WAIT_2 := h1.state_eq.trans hs
  exact (trip_finText hs1 (accepted_of h1 hseq hr hsyn hack) fun _ _ _ => rfl).mono (by simp)

theorem moves_closingAcked (hs : c.state = .CLOSING) (ha : Accepted c.kernel p)
    (hn : p.segment.ackNum = c.sndNxt) : Moves (some p) c (enterTimeWait c) := by
  obtain ⟨hk, hm⟩ := enterTimeWait_kernel c
  exact ⟨hk ▸ .closingAcked rfl hs ha hn, hm, fun _ => eventsOk_tcpUpdateEvents _⟩

theorem trip_closing (hs : c.state = .CLOSING) :
    Trip (some p) [[], [.CLOSED], [.TIME_WAIT]] c (tcpStateClosing c p) := by
  unfold tcpStateClosing
  refine trip_checked (connected_ready (by rw [hs]; rfl)) (by simp)
    (fun _ => trip_close (by simp [hs]) (by simp)) fun hseq hr hsyn => ?_
  refine trip_acked (by rw [hs]; rfl) (by simp) fun c1 h1 hack => ?_
  split
  · rename_i hn
    exact .one (moves_closingAcked (h1.state_eq.trans hs) (accepted_of h1 hseq hr hsyn hack) hn)
      (enterTimeWait_state _) (by simp)
  · exact .stay (.refl c1) (by simp)

/-- TIME-WAIT is left for CLOSED; without an owner the socket then becomes unused. -/
theorem trip_disposed (hs : c.state = .TIME_WAIT) :
    Trip rx [[.CLOSED], [.CLOSED, .CLOSED]] c (disposeUnowned (tcpChangeState c .CLOSED)) := by
  have hclosed := tcpChangeState_state c .CLOSED
  have hmove : Moves rx c (tcpChangeState c .CLOSED) := moves_close (by simp [hs])
  generalize tcpChangeState c .CLOSED = c1 at hclosed hmove
  unfold disposeUnowned
  split
  · exact .one hmove hclosed (by simp)
  · rename_i ho
    obtain ⟨hk1, he1⟩ := tcpDeleteControlBlock_kernel c1
    have hstate : (tcpDeleteControlBlock c1).state = c1.state := congrArg (·.state) hk1
    refine .cons [[.CLOSED]] hmove hclosed (.one ⟨?_, ?_, ?_⟩ (hstate.trans hclosed) (by simp))
      (by simp)
    · have ho' : c1.ownedFlag = false := by simpa using ho
      have hd : Move rx c1.kernel _ := .dispose hclosed ho'
      rw [← hk1] at hd
      exact hd
    · exact congrArg (·.eventMask) he1
    · intro h
      have hf : (tcpDeleteControlBlock c1).eventFlags = c1.eventFlags :=
        congrArg (·.eventFlags) he1
      show (tcpDeleteControlBlock c1).eventFlags &&& eventsOf (tcpDeleteControlBlock c1).state
        = (tcpDeleteControlBlock c1).eventFlags
      rw [hf, hstate]; exact h

theorem trip_timeWait (hs : c.state = .TIME_WAIT) :
    Trip (some p) [[], [.CLOSED], [.CLOSED, .CLOSED]] c (tcpStateTimeWait c p) := by
  unfold tcpStateTimeWait
  refine trip_checked (connected_ready (by rw [hs]; rfl)) (by simp)
    (fun _ => (trip_disposed hs).mono (by simp)) fun _ _ _ => ?_
  split
  · exact .stay (.refl _) (by simp)
  · split
    · refine .stay (Does.trans (does_sendAck (connected_ready ?_)).ofSend (.same rfl rfl)) (by simp)
      rw [hs]; rfl
    · exact .stay (.refl _) (by simp)

/-! ## SYN-SENT -/

/-- `synSentSyn` up to the segment it answers with: the kernel after the SYN was taken in. -/
theorem synSent_takeSyn (c : Ctx) (segment : TcpHeader) (una : Word) {c2 : Ctx}
    (h : c2 = tcpUpdateRetransmitQueue (tcpComputeRto { c with
      irs := segment.seqNum, rcvNxt := segment.seqNum + 1, sndUna := una }).1) :
    c2.kernel = (c.kernel.takeSyn segment.seqNum una).pruned ∧
      c2.toSockEvents = c.toSockEvents := by
  obtain ⟨hk, he⟩ := tcpUpdateRetransmitQueue_kernel (tcpComputeRto { c with
    irs := segment.seqNum, rcvNxt := segment.seqNum + 1, sndUna := una }).1
  rw [h, hk, he]
  unfold tcpComputeRto
  split <;> exact ⟨rfl, rfl⟩

theorem trip_synSentSyn (hs : c.state = .SYN_SENT) (hsyn : p.segment.flags.syn = true)
    (hr : p.segment.flags.rst = false)
    (ha : p.segment.flags.ack = true → p.segment.ackNum = c.sndNxt) :
    Trip (some p) [[.ESTABLISHED], [.SYN_RECEIVED]] c (synSentSyn c p.segment) := by
  unfold synSentSyn
  simp only
  generalize hu : (if p.segment.flags.ack = true then p.segment.ackNum else c.sndUna) = una
  have hack : p.segment.flags.ack = true ∧ p.segment.ackNum = c.sndNxt ∧ una = c.sndNxt ∨
      p.segment.flags.ack = false ∧ una = c.sndUna := by
    cases hf : p.segment.flags.ack with
    | true => left; rw [hf, if_pos rfl] at hu; exact ⟨rfl, ha hf, hu.symm.trans (ha hf)⟩
    | false => right; rw [hf, if_neg (by simp)] at hu; exact ⟨rfl, hu.symm⟩
  generalize hc2 : tcpUpdateRetransmitQueue _ = c2
  obtain ⟨hk2, he2⟩ := synSent_takeSyn c p.segment una hc2.symm
  have huna : c2.sndUna = una := congrArg (·.sndUna) hk2
  have hiss : c2.iss = c.iss := congrArg (·.iss) hk2
  have hnxt : c2.rcvNxt = p.segment.seqNum + 1 := congrArg (·.rcvNxt) hk2
  split
  · rename_i h
    have hgt : 0 < cmpSeq una c.iss := by rw [← huna, ← hiss]; exact h
    obtain ⟨he, es, hk, hes⟩ := tcpSendSegment_ack_kernel { c2 with
      smss := (tcpGetMss p.segment).getD c2.smss
      cwnd := u16 (min (TCP_INITIAL_WINDOW * (tcpGetMss p.segment).getD c2.smss) c2.txBufferSize)
      sndWnd := p.segment.window, sndWl1 := p.segment.seqNum, sndWl2 := p.segment.ackNum
      maxSndWnd := p.segment.window }
    refine .one ⟨?_, ?_, fun _ => eventsOk_tcpUpdateEvents _⟩ (tcpChangeState_state _ _) (by simp)
    · rw [tcpChangeState_kernel, hk]
      show Move _ _ ((c2.kernel.emit es).enter _)
      rw [hk2]
      refine .opened rfl hs ⟨hsyn, hr⟩ hack hgt fun e hmem => ?_
      have hack2 : IsAck c2.kernel e := hes e hmem
      rw [hk2] at hack2
      exact hack2
    · rw [tcpChangeState_mask]
      exact (congrArg (·.eventMask) he).trans (congrArg (·.eventMask) he2)
  · rename_i h
    have hle : cmpSeq una c.iss ≤ 0 := by
      rw [← huna, ← hiss]; exact Int.not_lt.mp h
    obtain ⟨he, hcase⟩ := tcpSendSegment_spec { c2 with
      smss := (tcpGetMss p.segment).getD c2.smss
      cwnd := u16 (min (TCP_INITIAL_WINDOW * (tcpGetMss p.segment).getD c2.smss) c2.txBufferSize) }
      { syn := true, ack := true } c2.iss c2.rcvNxt 0 true
    refine .one ⟨?_, ?_, fun _ => eventsOk_tcpUpdateEvents _⟩ (tcpChangeState_state _ _) (by simp)
    · rw [tcpChangeState_kernel]
      refine .crossed rfl hs ⟨hsyn, hr⟩ hack hle ?_
      obtain ⟨hk, -⟩ | ⟨ph, hd, h3⟩ := hcase
      · exact .inl (hk.trans hk2)
      · refine .inr ⟨ph, hd, h3.flags_eq, h3.seq_eq.trans hiss, ?_, ?_⟩
        · rw [h3.ack_eq]; exact hnxt
        · rw [← hk2]; exact h3.kernel_eq
    · rw [tcpChangeState_mask]
      exact (congrArg (·.eventMask) he).trans (congrArg (·.eventMask) he2)

theorem trip_synSent (hs : c.state = .SYN_SENT) :
    Trip (some p) [[], [.CLOSED], [.ESTABLISHED], [.SYN_RECEIVED]] c (tcpStateSynSent c p) := by
  unfold tcpStateSynSent
  simp only
  split
  · split
    · exact .stay (.refl c) (by simp)
    · exact .stay (does_sendReset rfl _ _).ofSend (by simp)
  · rename_i hn
    split
    · split
      · exact trip_close (by simp [hs]) (by simp)
      · exact .stay (.refl c) (by simp)
    · rename_i hr
      split
      · rename_i hsyn
        refine (trip_synSentSyn hs hsyn (by simpa using hr) fun ha => ?_).mono (by simp)
        by_contra hne
        exact hn ⟨ha, hne⟩
      · exact .stay (.refl c) (by simp)

/-! ## One segment -/

/-- The lists of states that one segment can bring, by the state it arrives in. -/
def segmentLists : TcpState → List (List TcpState)
  | .CLOSED | .LISTEN => [[]]
  | .SYN_SENT => [[], [.CLOSED], [.ESTABLISHED], [.SYN_RECEIVED]]
  | .SYN_RECEIVED => [[], [.CLOSED], [.ESTABLISHED], [.ESTABLISHED, .CLOSED],
      [.ESTABLISHED, .CLOSE_WAIT]]
  | .ESTABLISHED => [[], [.CLOSED], [.CLOSE_WAIT]]
  | .CLOSE_WAIT | .LAST_ACK => [[], [.CLOSED]]
  | .FIN_WAIT_1 => [[], [.CLOSED], [.FIN_WAIT_2], [.FIN_WAIT_2, .TIME_WAIT], [.CLOSING]]
  | .FIN_WAIT_2 | .CLOSING => [[], [.CLOSED], [.TIME_WAIT]]
  | .TIME_WAIT => [[], [.CLOSED], [.CLOSED, .CLOSED]]

theorem trip_tcpProcessState (c : Ctx) (p : Packet) :
    Trip (some p) (segmentLists c.state) c (tcpProcessState c p) := by
  unfold tcpProcessState
  cases hs : c.state with
  | CLOSED => exact trip_closed c p
  | LISTEN => exact trip_listen hs
  | SYN_SENT => exact trip_synSent hs
  | SYN_RECEIVED => exact trip_synReceived hs
  | ESTABLISHED => exact trip_established hs
  | CLOSE_WAIT => exact trip_closeWait hs
  | LAST_ACK => exact trip_lastAck hs
  | FIN_WAIT_1 => exact trip_finWait1 hs
  | FIN_WAIT_2 => exact trip_finWait2 hs
  | CLOSING => exact trip_closing hs
  | TIME_WAIT => exact trip_timeWait hs

/-! ## One run of the timer -/

theorem Does.workFrame (h : Does (Work rx) c c') : WorkFrame c.kernel c'.kernel :=
  workFrame_of h.chain

theorem Does.work_state (h : Does (Work rx) c c') : c'.state = c.state :=
  congrArg (·.state) h.workFrame.ctl

/-- A trip that at most closes the connection: either it stays, or the result is CLOSED. -/
theorem Trip.closed_or (h : Trip rx [[], [.CLOSED]] c c') :
    Does (Work rx) c c' ∨ c'.state = .CLOSED := by
  obtain ⟨l, hl, hp⟩ := h
  cases hp with
  | stay h => exact .inl h
  | move h hm hs ht =>
    simp only [List.mem_cons, reduceCtorEq, List.cons.injEq, List.not_mem_nil, or_false,
      false_or] at hl
    obtain ⟨rfl, rfl⟩ := hl
    cases ht with
    | stay h' => exact .inr (h'.work_state.trans hs)

theorem trip_tickRetransmit (hs : c.state ≠ .CLOSED) :
    Trip rx [[], [.CLOSED]] c (tickRetransmit c) := by
  unfold tickRetransmit
  simp only
  generalize hc1 : (if c.retransmitCount = 0 then { c with
    ssthresh := u16 (max ((c.sndNxt - c.sndUna).toNat / 2) (2 * c.smss)) } else c) = c1
  have h1 : Does (Work rx) c c1 := by
    rw [← hc1]
    split
    · exact .same rfl rfl
    · exact .refl c
  have hs1 : c1.state ≠ .CLOSED := by rw [h1.work_state]; exact hs
  let c2 : Ctx := { c1 with cwnd := u16 (min (TCP_LOSS_WINDOW * c1.smss) c1.txBufferSize),
                            recover := c1.sndNxt - 1, congestState := .LOSS_RECOVERY }
  have h2 : Does (Work rx) c c2 := h1.trans (.same rfl rfl)
  refine .head h2 ?_
  split
  · have h3 : Does (Send rx) c2 _ := does_tcpRetransmitSegment c2
    exact .stay (.trans h3.ofSend (.same rfl rfl)) (by simp)
  · refine .cons [[]] (moves_close (c := c2) hs1) (tcpChangeState_state _ _) ?_ (by simp)
    exact .stay (.same rfl rfl) (by simp)

theorem trip_tickPersist (hs : c.state ≠ .CLOSED) (hw : c.wndProbeInterval ≠ 0) :
    Trip rx [[], [.CLOSED]] c (tickPersist c) := by
  unfold tickPersist
  split
  · have h1 : Does (Send rx) c _ := does_sendProbe hw
    simp only
    obtain ⟨he, hk⟩ := tcpSendSegment_spec c { ack := true } (c.sndNxt - 1) c.rcvNxt 0 false
    generalize (tcpSendSegment c { ack := true } (c.sndNxt - 1) c.rcvNxt 0 false).1 = c1 at h1 hk
    have hw1 : c1.wndProbeInterval ≠ 0 := by
      have : c1.wndProbeInterval = c.wndProbeInterval := by
        obtain ⟨hk, -⟩ | ⟨ph, hd, h⟩ := hk
        · exact congrArg (·.wndProbeInterval) hk
        · exact congrArg (·.wndProbeInterval) h.kernel_eq
      rw [this]; exact hw
    exact .stay (.trans h1.ofSend (.single (.send (.setProbe _ (.inr hw1))) rfl rfl)) (by simp)
  · exact trip_close hs (by simp)

theorem does_tickOverride (hs : c.state.sendable) : Does (Work rx) c (tickOverride c) := by
  have hloop : Does (Send rx) c _ :=
    does_sendLoop (fun _ _ _ => true) c.sndUser c (usableWindow c) hs
  have h1 := hloop.trans (does_tcpUpdateEvents _)
  unfold tickOverride
  simp only
  split
  · exact .trans h1.ofSend (.same rfl rfl)
  · exact h1.ofSend

/-- The lists of states that one run of the timer can bring. -/
def tickLists : TcpState → List (List TcpState)
  | .CLOSED => [[]]
  | .TIME_WAIT => [[], [.CLOSED], [.CLOSED, .CLOSED]]
  | _ => [[], [.CLOSED]]

theorem mem_tickLists {s : TcpState} (hs : s ≠ .CLOSED) :
    ∀ l ∈ [[], [.CLOSED]], l ∈ tickLists s := by
  cases s <;> simp [tickLists] at hs ⊢

theorem trip_tcpTickSocket (c : Ctx) : Trip rx (tickLists c.state) c (tcpTickSocket c) := by
  unfold tcpTickSocket
  split
  · exact .stay (.refl c) (by cases c.state <;> simp [tickLists])
  · rename_i h0
    have hs : c.state ≠ .CLOSED := fun h => h0 (.inr h)
    simp only
    generalize hc1 : (if c.retransmitQueue ≠ [] ∧ tcpTimerElapsed c.toEnv c.retransmitTimer = true
      then tickRetransmit c else c) = c1
    have h1 : Trip rx [[], [.CLOSED]] c c1 := by
      rw [← hc1]
      split
      · exact trip_tickRetransmit hs
      · exact .stay (.refl c) (by simp)
    split
    · exact h1.mono (mem_tickLists hs)
    rename_i hs1
    have hd1 : Does (Work rx) c c1 := h1.closed_or.resolve_right hs1
    refine .head hd1 ?_
    rw [← hd1.work_state]
    generalize hc2 : (if c1.sndWnd = 0 ∧ c1.wndProbeInterval ≠ 0 ∧
      tcpTimerElapsed c1.toEnv c1.persistTimer = true then tickPersist c1 else c1) = c2
    have h2 : Trip rx [[], [.CLOSED]] c1 c2 := by
      rw [← hc2]
      split
      · rename_i hw; exact trip_tickPersist hs1 hw.2.1
      · exact .stay (.refl c1) (by simp)
    by_cases hs2 : c2.state = .CLOSED
    · -- the connection is closed: the other timers do not fire
      simp only [hs2, reduceCtorEq, false_or, false_and, if_false]
      exact h2.mono (mem_tickLists hs1)
    have hd2 : Does (Work rx) c1 c2 := h2.closed_or.resolve_right hs2
    refine .head hd2 ?_
    generalize hc3 : (if (c2.state = .ESTABLISHED ∨ c2.state = .CLOSE_WAIT) ∧ c2.sndUser ≠ 0 ∧
      tcpTimerElapsed c2.toEnv c2.overrideTimer = true then tickOverride c2 else c2) = c3
    have h3 : Does (Work rx) c2 c3 := by
      rw [← hc3]
      split
      · rename_i hw
        refine does_tickOverride ?_
        obtain ⟨h | h, -⟩ := hw <;> (rw [h]; rfl)
      · exact .refl c2
    refine .head h3 ?_
    rw [← hd2.work_state, ← h3.work_state]
    have hs3 : c3.state ≠ .CLOSED := by rw [h3.work_state]; exact hs2
    by_cases h4 : c3.state = .FIN_WAIT_2 ∧ tcpTimerElapsed c3.toEnv c3.finWait2Timer = true
    · simp only [if_pos h4, tcpChangeState_state, reduceCtorEq, false_and, if_false]
      exact trip_close hs3 (mem_tickLists hs3 _ (by simp))
    · simp only [if_neg h4]
      split
      · rename_i h5
        exact (trip_disposed h5.1).mono (by rw [h5.1]; simp [tickLists])
      · exact .stay (.refl c3) (mem_tickLists hs3 _ (by simp))

/-! ## The network -/

/-- What the network does to a socket, with the answers of the surroundings. -/
inductive NetEvent where
  | segment (env : Env) (p : Packet)
  | tick (env : Env)

def netStep (c : Ctx) : NetEvent → Ctx
  | .segment env p => tcpProcessState { c with toEnv := env } p
  | .tick env => tcpTickSocket { c with toEnv := env }

/-- The segment of an event, if it is one. -/
def NetEvent.packet : NetEvent → Option Packet
  | .segment _ p => some p
  | .tick _ => none

/-- The lists of states an event can bring. -/
def NetEvent.lists (e : NetEvent) (s : TcpState) : List (List TcpState) :=
  match e with
  | .segment _ _ => segmentLists s
  | .tick _ => tickLists s

theorem trip_netStep (c : Ctx) (e : NetEvent) :
    Trip e.packet (e.lists c.state) c (netStep c e) := by
  cases e with
  | segment env p =>
    have h : Does (Work (some p)) c { c with toEnv := env } := .same rfl rfl
    exact Trip.head h (trip_tcpProcessState { c with toEnv := env } p)
  | tick env =>
    have h : Does (Work none) c { c with toEnv := env } := .same rfl rfl
    exact Trip.head h (trip_tcpTickSocket { c with toEnv := env })

theorem Path.state_eq {l : List TcpState} (h : Path rx l c c') : c'.state = l.getLastD c.state := by
  induction h with
  | stay h => exact h.work_state
  | @move l s c c1 c2 c' _ _ hs _ ih => rw [ih, hs, List.getLastD_cons]

/-- What every step inside a state and between states keeps, a path keeps. -/
theorem Path.inv {l : List TcpState} {P : Kernel → Prop}
    (hwork : ∀ k k', Work rx k k' → P k → P k') (hmove : ∀ k k', Move rx k k' → P k → P k')
    (h : Path rx l c c') (hc : P c.kernel) : P c'.kernel := by
  induction h with
  | stay h => exact Run.chain_inv h.chain hc hwork
  | move h hm _ _ ih => exact ih (hmove _ _ hm.step (Run.chain_inv h.chain hc hwork))

theorem netStep_inv {P : Kernel → Prop} {e : NetEvent}
    (hwork : ∀ k k', Work e.packet k k' → P k → P k')
    (hmove : ∀ k k', Move e.packet k k' → P k → P k') (hc : P c.kernel) : P (netStep c e).kernel := by
  obtain ⟨l, -, hp⟩ := trip_netStep c e
  exact hp.inv hwork hmove hc

end Cyclone
