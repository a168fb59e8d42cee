import Cyclone.Entries

/-!
# Cyclone.Probing

The zero window probe. `tcpUpdateSendWindow` arms the persist timer when the window closes; the
handshake, which also learns a window, does not.

* `Act.probed`: every other act keeps a closed window probed.
* `window_probed`: a closed window is probed in every run whose handshakes end with an open one.
* `window_unprobed`: a handshake that ends with a closed one.
-/

namespace Cyclone

open Serial Relation Run

variable {n : Nat} {h : Host n} {c c' c1 : Ctx} {p : Packet} {rx : Option Packet}

/-- The persist timer runs, and its next interval is known. -/
def Armed (c : Ctx) : Prop := c.persistTimer.running = true ∧ c.wndProbeInterval ≠ 0

/-- A window that is closed while data may be sent is probed. -/
structure Probed (c : Ctx) : Prop where
  armed : c.state.sendable = true → c.sndWnd = 0 → Armed c
  interval : c.wndProbeInterval ≤ TCP_MAX_PROBE_INTERVAL

/-- What the probe depends on, the state apart. -/
structure SameProbe (c c' : Ctx) : Prop where
  wnd : c'.sndWnd = c.sndWnd
  running : c'.persistTimer.running = c.persistTimer.running
  interval : c'.wndProbeInterval = c.wndProbeInterval

theorem SameProbe.trans {c'' : Ctx} (h : SameProbe c c') (h' : SameProbe c' c'') :
    SameProbe c c'' :=
  ⟨h'.wnd.trans h.wnd, h'.running.trans h.running, h'.interval.trans h.interval⟩

theorem SameProbe.armed (h : SameProbe c c') (ha : Armed c) : Armed c' :=
  ⟨h.running.trans ha.1, by rw [h.interval]; exact ha.2⟩

theorem Probed.same (hp : Probed c) (h : SameProbe c c')
    (hs : c'.state.sendable = true → c.state.sendable = true) : Probed c' := by
  refine ⟨fun hs' hw => h.armed (hp.armed (hs hs') ?_), ?_⟩
  · rw [← h.wnd]; exact hw
  · rw [h.interval]; exact hp.interval

theorem Probed.sameState (hp : Probed c) (h : SameProbe c c') (hs : c'.state = c.state) :
    Probed c' := hp.same h (by rw [hs]; exact fun h => h)

/-- In a state in which no data can be sent, only the interval counts. -/
theorem probed_silent (hs : c.state.sendable = false)
    (hi : c.wndProbeInterval ≤ TCP_MAX_PROBE_INTERVAL) : Probed c :=
  ⟨fun h => absurd (h.symm.trans hs) nofun, hi⟩

theorem Quiet.sameProbe (h : Quiet c c') : SameProbe c c' :=
  ⟨congrArg (·.sndWnd) h.wnd, congrArg (·.running) h.persist,
    congrArg (·.wndProbeInterval) h.core⟩

theorem Queues.sameProbe {item : TcpQueueItem} (h : Queues c c' item) : SameProbe c c' := by
  obtain ⟨h1, -, h2, -⟩ := h.aux
  exact ⟨congrArg (·.sndWnd) h1, congrArg (·.running) h2, congrArg (·.wndProbeInterval) h.core⟩

theorem sameProbe_tcpChangeState (c : Ctx) (s : TcpState) : SameProbe c (tcpChangeState c s) := by
  simp only [tcpChangeState]
  split
  · split <;> exact ⟨rfl, rfl, rfl⟩
  · exact ⟨rfl, rfl, rfl⟩

theorem sameProbe_tcpUpdateRetransmitQueue (c : Ctx) :
    SameProbe c (tcpUpdateRetransmitQueue c) := by
  simp only [tcpUpdateRetransmitQueue]
  split <;> split <;> exact ⟨rfl, rfl, rfl⟩

theorem sameProbe_tcpDeleteControlBlock (c : Ctx) : SameProbe c (tcpDeleteControlBlock c) := by
  simp only [tcpDeleteControlBlock]
  exact ⟨rfl, rfl, rfl⟩

/-! ## Acts -/

/-- A window that closes is probed from then on; one that stays closed still is. -/
theorem Probed.window (hp : Probed c) (segment : TcpHeader) :
    Probed (tcpUpdateSendWindow c segment) := by
  unfold tcpUpdateSendWindow
  split
  · split
    · rename_i hgt
      refine ⟨fun _ hw => ?_, hp.interval⟩
      have h0 : segment.window = 0 := hw
      omega
    · exact hp
  · split
    · simp only
      split
      · exact ⟨fun _ _ => ⟨rfl, by show TCP_DEFAULT_PROBE_INTERVAL ≠ 0; decide⟩,
          by show TCP_DEFAULT_PROBE_INTERVAL ≤ TCP_MAX_PROBE_INTERVAL; decide⟩
      · rename_i hopen
        refine ⟨fun hs hw => hp.armed hs ?_, hp.interval⟩
        have h0 : segment.window = 0 := hw
        by_contra hne
        exact hopen ⟨h0, hne⟩
    · exact hp

theorem probe_interval {i : Word} (h0 : i ≠ 0) (hi : i ≤ TCP_MAX_PROBE_INTERVAL) :
    (if i * 2 < TCP_MAX_PROBE_INTERVAL then i * 2 else TCP_MAX_PROBE_INTERVAL) ≠ 0 := by
  have hmax : TCP_MAX_PROBE_INTERVAL = 60000#32 := rfl
  rw [hmax] at hi ⊢
  split <;> bv_omega

theorem probe_interval_le (i : Word) :
    (if i * 2 < TCP_MAX_PROBE_INTERVAL then i * 2 else TCP_MAX_PROBE_INTERVAL) ≤
      TCP_MAX_PROBE_INTERVAL := by
  have hmax : TCP_MAX_PROBE_INTERVAL = 60000#32 := rfl
  rw [hmax]
  split <;> bv_omega

/-- Acts outside the handshake keep closed windows probed. -/
theorem Act.probed (ha : Act rx c c') (hn : rx = none ∨ c.state.opening = false)
    (hp : Probed c) : Probed c' := by
  cases ha with
  | quiet h => exact hp.sameState h.sameProbe h.state
  | update => exact hp.sameState ⟨rfl, rfl, rfl⟩ rfl
  | @data c1 item n w ok _ _ _ _ _ _ hq =>
    have h1 : Probed c1 := hp.sameState hq.sameProbe (congrArg (·.state) hq.core)
    cases ok with
    | true => exact h1.sameState ⟨rfl, rfl, rfl⟩ rfl
    | false => exact h1
  | @ack c1 p _ _ _ _ hq =>
    have h1 : Probed { c with sndUna := p.segment.ackNum } := hp.sameState ⟨rfl, rfl, rfl⟩ rfl
    exact (h1.sameState hq.sameProbe hq.state).sameState
      (sameProbe_tcpUpdateRetransmitQueue _) (tcpUpdateRetransmitQueue_state _)
  | window segment => exact hp.window segment
  | rcv r b hq =>
    have h1 : Probed { c with toRcvVars := r, rxBuffer := b } := hp.sameState ⟨rfl, rfl, rfl⟩ rfl
    exact h1.sameState hq.sameProbe hq.state
  | enter s hs =>
    refine hp.same (sameProbe_tcpChangeState c s) ?_
    rw [tcpChangeState_state]
    intro hs'
    simp only [TcpState.leadsTo, hs', Bool.and_eq_true, Bool.or_eq_true] at hs
    simpa using hs.1.1.2
  | listen =>
    refine hp.same (sameProbe_tcpChangeState c .LISTEN) ?_
    rw [tcpChangeState_state]; intro h; cases h
  | @syn c1 p una smss _ hs _ hq =>
    have hstate : (tcpUpdateRetransmitQueue c1).state = .SYN_SENT :=
      (tcpUpdateRetransmitQueue_state c1).trans (hq.state.trans hs)
    have hinterval : (tcpUpdateRetransmitQueue c1).wndProbeInterval = c.wndProbeInterval :=
      (sameProbe_tcpUpdateRetransmitQueue c1).interval.trans hq.sameProbe.interval
    refine probed_silent ?_ ?_
    · show (tcpUpdateRetransmitQueue c1).state.sendable = false
      rw [hstate]; rfl
    · show (tcpUpdateRetransmitQueue c1).wndProbeInterval ≤ _
      rw [hinterval]; exact hp.interval
  | crossed _ _ hq => exact hp.sameState hq.sameProbe (congrArg (·.state) hq.core)
  | established hr hs =>
    obtain rfl | hn := hn
    · cases hr
    · obtain hs | hs := hs <;> (rw [hs] at hn; cases hn)
  | release =>
    exact hp.sameState (sameProbe_tcpDeleteControlBlock c) (tcpDeleteControlBlock_state c)
  | @timeWait c1 hq =>
    refine probed_silent (by rw [tcpChangeState_state]; rfl) ?_
    rw [(sameProbe_tcpChangeState c1 .TIME_WAIT).interval, hq.sameProbe.interval,
      (sameProbe_tcpDeleteControlBlock c).interval]
    exact hp.interval
  | @queueSyn _ p item _ _ _ hq =>
    have h1 : Probed { c with synQueue := c.synQueue ++ [item] } := hp.sameState ⟨rfl, rfl, rfl⟩ rfl
    exact h1.sameState hq.sameProbe hq.state
  | probe interval timer hrun hi =>
    refine ⟨fun hs hw => ⟨hrun, ?_⟩, ?_⟩
    · show interval ≠ 0
      rw [hi]
      exact probe_interval (hp.armed hs hw).2 hp.interval
    · show interval ≤ _
      rw [hi]
      exact probe_interval_le _
  | write b n _ _ hq =>
    have h1 : Probed { c with txBuffer := b, sndUser := n } := hp.sameState ⟨rfl, rfl, rfl⟩ rfl
    exact h1.sameState hq.sameProbe hq.state
  | wait mask =>
    refine hp.sameState ?_ (tcpWaitBegin_state c mask)
    unfold tcpWaitBegin
    simp only
    split <;> exact ⟨rfl, rfl, rfl⟩
  | @fin c1 item s hn _ hq =>
    refine probed_silent ?_ ?_
    · rw [tcpChangeState_state]
      obtain rfl | rfl := hn <;> rfl
    · rw [(sameProbe_tcpChangeState _ s).interval]
      show c1.wndProbeInterval ≤ _
      rw [hq.sameProbe.interval]; exact hp.interval
  | finTried _ hq => exact hp.sameState hq.sameProbe (congrArg (·.state) hq.core)
  | restart _ h =>
    exact hp.sameState ⟨congrArg (·.sndWnd) h.wnd, congrArg (·.running) h.persist,
      congrArg (·.wndProbeInterval) h.probe⟩ (congrArg (·.state) h.ctl)
  | synTried _ hq => exact hp.sameState hq.sameProbe (congrArg (·.state) hq.core)
  | @synSent c1 c2 item _ _ h _ hq =>
    refine probed_silent (by rw [tcpChangeState_state]; rfl) ?_
    rw [(sameProbe_tcpChangeState c2 .SYN_SENT).interval, hq.sameProbe.interval,
      congrArg (·.wndProbeInterval) h.probe]
    exact hp.interval
  | _ => exact hp.sameState ⟨rfl, rfl, rfl⟩ rfl

theorem acts_probed (ha : Acts rx c c') (hn : rx = none ∨ c.state.opening = false)
    (hp : Probed c) : Probed c' := by
  have hinv : (rx = none ∨ c'.state.opening = false) ∧ Probed c' := by
    refine Run.chain_inv (P := fun c => (rx = none ∨ c.state.opening = false) ∧ Probed c) ha
      ⟨hn, hp⟩ ?_
    intro c c' ha hc
    refine ⟨?_, ha.probed hc.1 hc.2⟩
    cases rx with
    | none => exact .inl rfl
    | some p => exact .inr (ha.not_opening (hc.1.resolve_left nofun))
  exact hinv.2

/-! ## The handshake -/

/-- The segment completes the handshake. -/
def completesHandshake (c : Ctx) (p : Packet) : Prop :=
  match c.state with
  | .SYN_SENT =>
    p.segment.flags.syn = true ∧ p.segment.flags.rst = false ∧
      (p.segment.flags.ack = true → p.segment.ackNum = c.sndNxt) ∧
      0 < cmpSeq (if p.segment.flags.ack then p.segment.ackNum else c.sndUna) c.iss
  | .SYN_RECEIVED =>
    seqAcceptable c.toSockCore p.segment p.length = true ∧ p.segment.flags.rst = false ∧
      p.segment.flags.syn = false ∧ p.segment.flags.ack = true ∧ p.segment.ackNum = c.sndNxt
  | _ => False

/-- A segment that completes the handshake tells an open window, or the timer runs already. -/
def HandshakeWindow (c : Ctx) (p : Packet) : Prop :=
  completesHandshake c p → p.segment.window ≠ 0 ∨ Armed c

/-- The window of the segment is learnt, and the connection is established. -/
theorem probed_established (hp : Probed c) (hw : p.segment.window ≠ 0 ∨ Armed c)
    (hq : Quiet { c with sndWnd := p.segment.window, sndWl1 := p.segment.seqNum,
                         sndWl2 := p.segment.ackNum, maxSndWnd := p.segment.window } c1) :
    Probed (tcpChangeState c1 .ESTABLISHED) := by
  have h1 := sameProbe_tcpChangeState c1 .ESTABLISHED
  have hi : c1.wndProbeInterval = c.wndProbeInterval := hq.sameProbe.interval
  refine ⟨fun _ h0 => ?_, by rw [h1.interval, hi]; exact hp.interval⟩
  rw [h1.wnd, hq.sameProbe.wnd] at h0
  obtain ⟨h2, h3⟩ := hw.resolve_left (fun h => h h0)
  refine h1.armed ⟨hq.sameProbe.running.trans h2, ?_⟩
  rw [hi]; exact h3

theorem probed_synReceived (hs : c.state = .SYN_RECEIVED) (hp : Probed c)
    (hw : HandshakeWindow c p) : Probed (tcpStateSynReceived c p) := by
  have hquiet : ∀ c1 : Ctx, Quiet c c1 → Probed c1 := fun c1 hq =>
    hp.sameState hq.sameProbe hq.state
  unfold tcpStateSynReceived
  by_cases hseq : seqAcceptable c.toSockCore p.segment p.length = true
  case neg =>
    have hne : (tcpCheckSequenceNumber c p.segment p.length).2 ≠ .NO_ERROR := by
      unfold tcpCheckSequenceNumber
      rw [if_neg hseq]
      split <;> simp
    rw [whenOk_error hne]
    exact hquiet _ (quiet_tcpCheckSequenceNumber c p.segment p.length)
  have h1 : tcpCheckSequenceNumber c p.segment p.length = (c, .NO_ERROR) := if_pos hseq
  rw [h1]
  simp only [whenOk]
  split
  · exact hp.same (sameProbe_tcpChangeState c .CLOSED) (by rw [tcpChangeState_state]; intro h; cases h)
  rename_i hrst
  obtain ⟨h2, hsyn⟩ | ⟨-, hne⟩ := tcpCheckSyn_cases (some p) c p.segment p.length
  case inr =>
    show Probed (whenOk _ _)
    rw [whenOk_error hne]
    exact hquiet _ (quiet_tcpCheckSyn c p.segment p.length)
  rw [h2]
  simp only
  split
  · exact hp
  rename_i hack
  split
  · exact hquiet _ (quiet_bare _ _ _ _ _)
  rename_i hn
  have hwin : p.segment.window ≠ 0 ∨ Armed c := by
    refine hw ?_
    simp only [completesHandshake, hs]
    exact ⟨hseq, by simpa using hrst, hsyn, by simpa using hack, by simpa using hn⟩
  have h3 := probed_established (p := p) hp hwin (Quiet.refl _)
  have hs3 := tcpChangeState_state { c with
    sndWnd := p.segment.window, sndWl1 := p.segment.seqNum, sndWl2 := p.segment.ackNum
    maxSndWnd := p.segment.window } .ESTABLISHED
  exact acts_probed (settles_established (p := p) hs3).acts (.inr (by rw [hs3]; rfl)) h3

theorem probed_synSent (hs : c.state = .SYN_SENT) (hp : Probed c) (hw : HandshakeWindow c p) :
    Probed (tcpStateSynSent c p) := by
  have hquiet : ∀ c1 : Ctx, Quiet c c1 → Probed c1 := fun c1 hq =>
    hp.sameState hq.sameProbe hq.state
  unfold tcpStateSynSent
  simp only
  split
  · split
    · exact hp
    · exact hquiet _ (quiet_bare _ _ _ _ _)
  rename_i ha
  split
  · split
    · exact hp.same (sameProbe_tcpChangeState c .CLOSED)
        (by rw [tcpChangeState_state]; exact nofun)
    · exact hp
  rename_i hrst
  split
  case isFalse => exact hp
  rename_i hsyn
  unfold synSentSyn
  simp only
  generalize hu : (if p.segment.flags.ack then p.segment.ackNum else c.sndUna) = una
  let c1 : Ctx := { c with irs := p.segment.seqNum, rcvNxt := p.segment.seqNum + 1, sndUna := una }
  have hq1 : Quiet c1 (tcpComputeRto c1).1 := quiet_tcpComputeRto c1
  have hk := (tcpUpdateRetransmitQueue_kernel (tcpComputeRto c1).1).1
  have huna : (tcpUpdateRetransmitQueue (tcpComputeRto c1).1).sndUna = una :=
    (congrArg (·.sndUna) hk).trans (congrArg (·.sndUna) hq1.core)
  have hiss : (tcpUpdateRetransmitQueue (tcpComputeRto c1).1).iss = c.iss :=
    (congrArg (·.iss) hk).trans (congrArg (·.iss) hq1.core)
  have hsame1 : SameProbe c c1 := ⟨rfl, rfl, rfl⟩
  have hsame : SameProbe c (tcpUpdateRetransmitQueue (tcpComputeRto c1).1) :=
    hsame1.trans (hq1.sameProbe.trans (sameProbe_tcpUpdateRetransmitQueue _))
  have hs2 : (tcpUpdateRetransmitQueue (tcpComputeRto c1).1).state = .SYN_SENT :=
    (tcpUpdateRetransmitQueue_state _).trans (hq1.state.trans hs)
  generalize tcpUpdateRetransmitQueue (tcpComputeRto c1).1 = c2 at huna hiss hsame hs2
  let c4 : Ctx := { c2 with
    smss := (tcpGetMss p.segment).getD c2.smss
    cwnd := u16 (min (TCP_INITIAL_WINDOW * (tcpGetMss p.segment).getD c2.smss) c2.txBufferSize) }
  have hsame4 : SameProbe c c4 := hsame.trans ⟨rfl, rfl, rfl⟩
  split
  · rename_i hgt
    have hgt' : 0 < cmpSeq c2.sndUna c2.iss := hgt
    have hwin : p.segment.window ≠ 0 ∨ Armed c4 := by
      refine (hw ?_).imp_right hsame4.armed
      simp only [completesHandshake, hs]
      refine ⟨hsyn, by simpa using hrst, fun hf => ?_, ?_⟩
      · by_contra hne
        exact ha ⟨hf, hne⟩
      · rw [hu, ← huna, ← hiss]; exact hgt'
    have hp4 : Probed c4 := by
      refine probed_silent ?_ (by rw [hsame4.interval]; exact hp.interval)
      show c2.state.sendable = false
      rw [hs2]; rfl
    exact probed_established hp4 hwin (quiet_bare _ _ _ _ _)
  · have h5 : SameProbe c4
        (tcpSendSegment c4 { syn := true, ack := true } c4.iss c4.rcvNxt 0 true).1 := by
      obtain ⟨ho, -⟩ | ⟨item, hi, hq⟩ :=
        queues_tcpSendSegment c4 { syn := true, ack := true } c4.iss c4.rcvNxt 0
      · exact ho.quiet.sameProbe
      · exact hq.sameProbe
    refine probed_silent (by rw [tcpChangeState_state]; rfl) ?_
    rw [(sameProbe_tcpChangeState _ .SYN_RECEIVED).interval]
    refine le_of_eq_of_le ?_ hp.interval
    exact (hsame4.trans h5).interval

/-- A segment keeps a closed window probed, unless it completes the handshake with a closed one. -/
theorem probed_tcpProcessState (hp : Probed c) (hw : HandshakeWindow c p) :
    Probed (tcpProcessState c p) := by
  by_cases hs1 : c.state = .SYN_SENT
  · have h1 : tcpProcessState c p = tcpStateSynSent c p := by simp only [tcpProcessState, hs1]
    rw [h1]
    exact probed_synSent hs1 hp hw
  by_cases hs2 : c.state = .SYN_RECEIVED
  · have h1 : tcpProcessState c p = tcpStateSynReceived c p := by
      simp only [tcpProcessState, hs2]
    rw [h1]
    exact probed_synReceived hs2 hp hw
  refine acts_probed (settles_tcpProcessState c p).acts (.inr ?_) hp
  revert hs1 hs2
  cases c.state <;> simp [TcpState.opening]

/-! ## Sections -/

theorem probed_acts (ha : Acts none c c') (hp : Probed c) : Probed c' := acts_probed ha (.inl rfl) hp

theorem probed_netStep {e : NetEvent} (hp : Probed c)
    (hw : ∀ p, e.packet = some p → HandshakeWindow c p) : Probed (netStep c e) := by
  cases e with
  | segment env p =>
    have h1 : Probed { c with toEnv := env } := hp.sameState ⟨rfl, rfl, rfl⟩ rfl
    exact probed_tcpProcessState h1 (hw p rfl)
  | tick env => exact probed_acts (settles_netStep c (.tick env)).acts hp

theorem acceptOpen_interval (socket : Socket) (item : TcpSynQueueItem) (c : Ctx) :
    (acceptOpen socket item c).1.wndProbeInterval = c.wndProbeInterval := by
  have hcase := acceptOpen_cases socket item c
  generalize acceptOpen socket item c = r at hcase
  obtain ⟨c1, e⟩ := r
  show c1.kernel.wndProbeInterval = c.kernel.wndProbeInterval
  generalize c1.kernel = k at hcase
  cases hcase <;> rfl

/-- A socket given up ends in a state in which nothing is sent. -/
theorem tcpAbort_silent (c : Ctx) : (tcpAbort c).1.state.sendable = false ∧
    (tcpAbort c).1.wndProbeInterval = c.wndProbeInterval := by
  have hclose : ∀ c1 : Ctx, (closeSocket c1).state.sendable = false ∧
      (closeSocket c1).wndProbeInterval = c1.wndProbeInterval := by
    intro c1
    refine ⟨?_, ?_⟩
    · show (tcpDeleteControlBlock (tcpChangeState c1 .CLOSED)).state.sendable = false
      rw [tcpDeleteControlBlock_state, tcpChangeState_state]; rfl
    · exact (sameProbe_tcpDeleteControlBlock _).interval.trans
        (sameProbe_tcpChangeState c1 .CLOSED).interval
  unfold tcpAbort
  split
  case h_6 hs => exact ⟨by rw [hs]; rfl, rfl⟩
  case h_7 => exact hclose c
  all_goals
    refine ⟨(hclose _).1, (hclose _).2.trans ?_⟩
    exact (quiet_bare c _ _ _ _).sameProbe.interval

theorem probed_answer (socket : Socket) (item : TcpSynQueueItem) (hp : Probed c) :
    Probed (answerSection socket item c) := by
  have h1 : (acceptOpen socket item c).1.wndProbeInterval ≤ TCP_MAX_PROBE_INTERVAL := by
    rw [acceptOpen_interval]; exact hp.interval
  unfold answerSection
  split
  · rename_i c1 ho
    rw [ho] at h1
    refine probed_silent (by rw [tcpChangeState_state]; rfl) ?_
    rw [(sameProbe_tcpChangeState c1 .SYN_RECEIVED).interval]
    exact h1
  · rename_i c1 e _ ho
    rw [ho] at h1
    refine probed_silent (tcpAbort_silent c1).1 ?_
    rw [(tcpAbort_silent c1).2]
    exact h1

theorem probed_section {s : Section} (hp : Probed c)
    (hnet : ∀ e p, s = .net e → e.packet = some p → HandshakeWindow c p)
    (hcall : ∀ api call, s = .resume api call → call.sound) : Probed (sectionRun c s) := by
  cases s with
  | net e => exact probed_netStep hp fun p h => hnet e p rfl h
  | start api req => exact probed_acts (settles_start api c req).acts hp
  | resume api call => exact probed_acts (settles_resumeCall api c call (hcall api call rfl)).acts hp
  | close => exact probed_acts (settles_socketClose c).acts hp
  | kill => exact probed_acts (settles_closeSocket c).acts hp
  | «opened» api type protocol localPort =>
    cases api
    · exact probed_silent rfl (by show (0 : Word) ≤ _; decide)
    · exact probed_silent rfl (by show (0 : Word) ≤ _; decide)
  | popSyn update => cases update <;> exact hp.sameState ⟨rfl, rfl, rfl⟩ rfl
  | answer socket item => exact probed_answer socket item hp
  | _ => exact hp.sameState ⟨rfl, rfl, rfl⟩ rfl

/-! ## Runs -/

/-- No segment completes a handshake with a closed window. -/
def WindowsOpen (h : Host n) : HostEvent n → Prop
  | .segment _ p => ∀ i, findSocket h p = some i → HandshakeWindow (h.table i).ctx p
  | _ => True

/-- In every run whose handshakes end with an open window, a connection on which data may be sent
and whose window is closed has its persist timer running, with the interval of the next probe
known. -/
theorem window_probed (hr : Reach hostStep WindowsOpen (socketInit n) h) (i : Fin n)
    (hs : (h.table i).ctx.state = .ESTABLISHED ∨ (h.table i).ctx.state = .CLOSE_WAIT)
    (hw : (h.table i).ctx.sndWnd = 0) :
    (h.table i).ctx.persistTimer.running = true ∧ (h.table i).ctx.wndProbeInterval ≠ 0 := by
  have hp : Probed (h.table i).ctx := by
    refine entry_inv (P := Probed) hr ?_ ?_ i
    · intro c hc _
      have hs : c.state = .CLOSED := congrArg (·.state) hc
      have hi : c.wndProbeInterval = 0 := congrArg (·.wndProbeInterval) hc
      exact probed_silent (by rw [hs]; rfl) (by rw [hi]; decide)
    · intro h e i c s _ hok hal hp
      refine probed_section hp ?_ ?_
      · rintro e1 p rfl hpk
        cases e1 with
        | segment env p1 =>
          obtain ⟨rfl, hf, rfl⟩ := hal
          cases hpk
          exact hok i hf
        | tick env => cases hpk
      · rintro api call rfl
        exact hal.2.1
  refine hp.armed ?_ hw
  obtain hs | hs := hs <;> (rw [hs]; rfl)

/-! ## Handshakes with either window -/

/-- The segment tells a closed window. -/
def closeWindow (p : Packet) : Packet := { p with segment := { p.segment with window := 0 } }

/-- The socket of entry 0 has sent its SYN. -/
def synSentHost : Host SOCKET_MAX_COUNT :=
  hostRun (openEvents .c 0 2000 ++ [.start .c Env.granting 0 (.connect wirePeer 80)])

def synAck : Packet := wireSegment 100 1 { syn := true, ack := true }

/-- The peer opens the window in the handshake and closes it later. -/
def closedLater : Host SOCKET_MAX_COUNT :=
  hostStep (hostStep synSentHost (.segment Env.granting synAck))
    (.segment Env.granting (closeWindow (wireSegment 101 1 { ack := true })))

theorem windowsOpen_later : Reach hostStep WindowsOpen (socketInit SOCKET_MAX_COUNT) closedLater := by
  have h0 : Reach hostStep WindowsOpen (socketInit SOCKET_MAX_COUNT) synSentHost := by
    refine Reach.init.foldl _ fun e he h => ?_
    simp only [openEvents, List.cons_append, List.nil_append, List.mem_cons, List.not_mem_nil,
      or_false] at he
    obtain rfl | rfl | rfl | rfl | rfl := he <;> trivial
  refine .step (.step h0 fun i _ _ => .inl (by decide)) fun i hf hc => ?_
  have hst : ∀ i, findSocket (hostStep synSentHost (.segment Env.granting synAck))
      (closeWindow (wireSegment 101 1 { ack := true })) = some i →
      ((hostStep synSentHost (.segment Env.granting synAck)).table i).ctx.state =
        .ESTABLISHED := by decide +kernel
  simp only [completesHandshake, hst i hf] at hc

theorem window_probed_later : (closedLater.table 0).ctx.persistTimer.running = true ∧
    (closedLater.table 0).ctx.wndProbeInterval ≠ 0 :=
  window_probed windowsOpen_later 0 (by decide +kernel) (by decide +kernel)

/-- The peer closes the window in the handshake: nothing probes it. -/
theorem window_unprobed :
    ((hostStep synSentHost (.segment Env.granting (closeWindow synAck))).table 0).ctx.state =
      .ESTABLISHED ∧
    ((hostStep synSentHost (.segment Env.granting (closeWindow synAck))).table 0).ctx.sndWnd = 0 ∧
    ((hostStep synSentHost (.segment Env.granting (closeWindow synAck))).table
      0).ctx.persistTimer.running = false ∧
    ((hostStep synSentHost (.segment Env.granting (closeWindow synAck))).table
      0).ctx.wndProbeInterval = 0 := by
  decide +kernel

end Cyclone
