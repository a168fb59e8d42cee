import Cyclone.Flight

/-!
# Cyclone.Wakeup

Blocked calls and the events they wait for. Between two sections the event flags are those that
`tcpUpdateEvents` would compute, so the step that makes the condition of a wait true also sets the
event object; segments and runs of the timer leave the condition true.

* `waked_section`: the flags after a section.
* `Ready`: what the callers wait for, as a property of the kernel. The network keeps it.
* `wakeup_kept`: both for the sockets of a host.
* `wakeup_lost`: an accept on a socket that has left LISTEN, and two tasks on one socket.
-/

namespace Cyclone

open Serial Relation Run

variable {n : Nat} {h : Host n} {c c' c1 : Ctx} {k k' : Kernel} {p : Packet} {mask : SocketEvent}

/-! ## Flags after a section -/

theorem waked_tcpChangeState (hu : c.sndUser < 65536) (s : TcpState) :
    Waked (tcpChangeState c s) := by
  refine ⟨?_, fun _ => fresh_tcpUpdateEvents _⟩
  rw [tcpChangeState_user]; exact hu

theorem waked_closeSocket (hu : c.sndUser < 65536) : Waked (closeSocket c) := by
  have h1 := waked_tcpChangeState hu .CLOSED
  have h2 : Settles none (tcpChangeState c .CLOSED) (closeSocket c) :=
    (settles_tcpDeleteControlBlock (tcpChangeState_state c .CLOSED)).trans (settles_bind _)
  exact h2.waked h1

/-- In TIME-WAIT the events depend on the state alone. -/
theorem Waked.timeWait (hw : Waked c) (hs : c.state = .TIME_WAIT) (hs' : c'.state = .TIME_WAIT)
    (hu : c'.sndUser = c.sndUser) (he : c'.toSockEvents = c.toSockEvents) : Waked c' := by
  refine SameEvents.waked ⟨fun h => by rw [hu]; exact h, hs'.trans hs.symm, he, fun _ => ?_,
    fun _ => ?_⟩ hw
  · simp only [txEvents, hs, hs']
  · simp only [rxEvents, hs, hs']

/-- Without a mask there are no events. -/
theorem fresh_unmasked (hm : c.eventMask = 0) (hf : c.eventFlags = 0) : Fresh c := by
  refine ⟨?_, fun h => absurd hf h⟩
  simp [socketEvents, hm, hf]

theorem acceptOpen_frame (socket : Socket) (item : TcpSynQueueItem) (c : Ctx) :
    (acceptOpen socket item c).1.sndUser = c.sndUser ∧
      (acceptOpen socket item c).1.state = c.state ∧
      (acceptOpen socket item c).1.toSockEvents = c.toSockEvents := by
  have hcase := acceptOpen_cases socket item c
  have hevents : (acceptOpen socket item c).1.toSockEvents = c.toSockEvents := by
    unfold acceptOpen acceptAlloc
    generalize hr : allocBuffers _ = r
    obtain ⟨tx, rx', -, haux, -⟩ := allocBuffers_cases hr
    obtain ⟨c1, e⟩ := r
    have h1 : c1.toSockEvents = c.toSockEvents := congrArg (·.toSockEvents) haux
    split
    · rename_i c2 heq
      cases heq
      let c2 : Ctx := initPassive socket item c1
      refine Eq.trans ?_ h1
      obtain ⟨ho, -⟩ | ⟨q, -, hq⟩ :=
        queues_tcpSendSegment c2 { syn := true, ack := true } c2.iss c2.rcvNxt 0
      · exact ho.quiet.events
      · exact hq.sameEvents.events
    · rename_i heq
      cases heq
      exact h1
  refine ⟨?_, ?_, hevents⟩
  · generalize acceptOpen socket item c = r at hcase
    obtain ⟨c1, e⟩ := r
    show c1.kernel.sndUser = c.kernel.sndUser
    generalize c1.kernel = k at hcase
    cases hcase <;> rfl
  · generalize acceptOpen socket item c = r at hcase
    obtain ⟨c1, e⟩ := r
    show c1.kernel.state = c.kernel.state
    generalize c1.kernel = k at hcase
    cases hcase <;> rfl

theorem waked_answer (socket : Socket) (item : TcpSynQueueItem) (hw : Waked c) :
    Waked (answerSection socket item c) := by
  obtain ⟨huser, hstate, hevents⟩ := acceptOpen_frame socket item c
  unfold answerSection
  split
  · rename_i c1 ho
    rw [ho] at huser
    exact waked_tcpChangeState (huser.trans_lt hw.user) _
  · rename_i c1 e _ ho
    rw [ho] at huser hstate hevents
    have hu1 : c1.sndUser < 65536 := huser.trans_lt hw.user
    unfold tcpAbort
    split
    case h_6 hs =>
      exact Waked.timeWait hw (hstate.symm.trans hs) hs huser hevents
    case h_7 => exact waked_closeSocket hu1
    all_goals
      refine waked_closeSocket ?_
      rw [(quiet_bare c1 _ _ _ _).user]
      exact hu1

/-- Every section leaves the flags up to date, if an accept sets its mask on a listening socket
only. -/
theorem waked_section {s : Section} (hw : Waked c) (haccept : s = .acceptWait → c.state = .LISTEN)
    (hcall : ∀ api call, s = .resume api call → call.sound) : Waked (sectionRun c s) := by
  cases s with
  | env env => exact (OnlySends.env c env).quiet.sameEvents.waked hw
  | net e => exact (settles_netStep c e).waked hw
  | start api req => exact (settles_start api c req).waked hw
  | resume api call =>
    exact (settles_resumeCall api c call (hcall api call rfl) : Settles none c _).waked hw
  | close => exact (settles_socketClose c : Settles none c _).waked hw
  | kill => exact waked_closeSocket hw.user
  | «opened» api type protocol localPort =>
    cases api
    · exact ⟨by show 0 < 65536; decide, fun _ => fresh_unmasked rfl rfl⟩
    · exact ⟨by show 0 < 65536; decide, fun _ => fresh_unmasked rfl rfl⟩
  | acceptWait => exact ⟨hw.user, fun hs => absurd (haccept rfl) hs⟩
  | popSyn update =>
    have hsame : SameEvents c (popSyn c) := by
      refine ⟨fun h => h, rfl, rfl, fun _ => rfl, ?_⟩
      show c.state ≠ .LISTEN → rxEvents (popSyn c).toSocket = rxEvents c.toSocket
      have hstate : (popSyn c).state = c.state := rfl
      have huser : (popSyn c).rcvUser = c.rcvUser := rfl
      simp only [rxEvents, hstate, huser]
      cases c.state <;> simp
    have h1 := hsame.waked hw
    cases update with
    | false => exact h1
    | true => exact ⟨h1.user, fun _ => fresh_tcpUpdateEvents _⟩
  | resetCongestion =>
    have h1 : SameEvents c { c with congestState := .IDLE } :=
      ⟨fun h => h, rfl, rfl, fun _ => rfl, fun _ => rfl⟩
    exact h1.waked hw
  | answer socket item => exact waked_answer socket item hw

/-- An accept that finds no request sets its mask on a socket in LISTEN. -/
def AcceptsListen (h : Host n) : HostEvent n → Prop
  | .acceptNext _ k => ∀ a, h.accepts[k]? = some a → a.stage = .start →
      (h.table a.socket).ctx.synQueue = [] → (h.table a.socket).ctx.state = .LISTEN
  | _ => True

theorem waked_reach (hr : Reach hostStep AcceptsListen (socketInit n) h) (i : Fin n) :
    Waked (h.table i).ctx := by
  refine entry_inv (P := Waked) hr ?_ ?_ i
  · intro c hc _
    have huser : c.sndUser = 0 := congrArg (·.sndUser) hc
    have hmask : c.eventMask = 0 := congrArg (·.eventMask) hc
    have hflags : c.eventFlags = 0 := congrArg (·.eventFlags) hc
    exact ⟨by rw [huser]; decide, fun _ => fresh_unmasked hmask hflags⟩
  · intro h e i c s _ hok hal hw
    refine waked_section hw ?_ ?_
    · rintro rfl
      obtain ⟨env, k, a, rfl, ha, rfl, hstage, rfl, hq⟩ := hal
      exact hok a ha hstage hq
    · rintro api call rfl
      exact hal.2.1

/-! ## What the calls wait for -/

/-- The masks of the calls of `tcpWaitForEvents`. -/
def waitMasks : List SocketEvent :=
  [SOCKET_EVENT_CONNECTED ||| SOCKET_EVENT_CLOSED, SOCKET_EVENT_TX_READY, SOCKET_EVENT_TX_DONE,
   SOCKET_EVENT_TX_ACKED, SOCKET_EVENT_TX_SHUTDOWN, SOCKET_EVENT_RX_READY, SOCKET_EVENT_RX_SHUTDOWN]

/-- Only after the handshake does a call wait for data to be sent or acknowledged. -/
def TcpState.admits (s : TcpState) (mask : SocketEvent) : Prop :=
  mask = SOCKET_EVENT_TX_DONE ∨ mask = SOCKET_EVENT_TX_ACKED → s.opening = false

/-- The mask of a wait of one of the calls is set. -/
structure Waiting (c : Ctx) : Prop where
  mask : c.eventMask ∈ waitMasks
  admits : c.state.admits c.eventMask

/-- Our FIN is acknowledged, or the connection is over. -/
def TcpState.txOver (s : TcpState) : Bool :=
  s == .FIN_WAIT_2 || s == .TIME_WAIT || s == .CLOSED

/-- The FIN of the peer has come, or the connection is over. -/
def TcpState.rxOver (s : TcpState) : Bool :=
  s == .CLOSE_WAIT || s == .LAST_ACK || s == .CLOSING || s == .TIME_WAIT || s == .CLOSED

/-- What the caller with this mask waits for has come about, the data to read apart. -/
structure Ready (mask : SocketEvent) (k : Kernel) : Prop where
  listen : k.state ≠ .LISTEN
  opening : k.state.opening = false
  txReady : mask = SOCKET_EVENT_TX_READY → k.state.sendable = true →
    (w32 k.sndUser + k.sndNxt - k.sndUna).toNat < k.txBufferSize
  txDone : mask = SOCKET_EVENT_TX_DONE ∨ mask = SOCKET_EVENT_TX_ACKED →
    k.state.sendable = true → k.sndUser = 0
  txAcked : mask = SOCKET_EVENT_TX_ACKED → k.state.sendable = true → k.sndUna = k.sndNxt
  txShutdown : mask = SOCKET_EVENT_TX_SHUTDOWN → k.state.txOver = true
  rxShutdown : mask = SOCKET_EVENT_RX_SHUTDOWN → k.state.rxOver = true

/-- There is data to read, while more may come. -/
def RxReady (mask : SocketEvent) (k : Kernel) : Prop :=
  mask = SOCKET_EVENT_RX_READY → k.state.receptive = true → 0 < k.rcvUser

/-- The events of the sending side, by what is known of the transmit buffer. -/
def txBits (s : TcpState) (room done acked : Bool) : SocketEvent :=
  match s with
  | .SYN_SENT | .SYN_RECEIVED => SOCKET_EVENT_TX_DONE ||| SOCKET_EVENT_TX_ACKED
  | .ESTABLISHED | .CLOSE_WAIT =>
    (if room then SOCKET_EVENT_TX_READY else 0) |||
      (if done then SOCKET_EVENT_TX_DONE ||| (if acked then SOCKET_EVENT_TX_ACKED else 0) else 0)
  | .LISTEN => 0
  | _ => SOCKET_EVENT_TX_READY ||| SOCKET_EVENT_TX_DONE ||| SOCKET_EVENT_TX_ACKED

/-- The events of the receiving side outside LISTEN. -/
def rxBits (s : TcpState) (data : Bool) : SocketEvent :=
  match s with
  | .ESTABLISHED | .FIN_WAIT_1 | .FIN_WAIT_2 => if data then SOCKET_EVENT_RX_READY else 0
  | .LISTEN | .SYN_SENT | .SYN_RECEIVED => 0
  | _ => SOCKET_EVENT_RX_READY

/-- The events of a state. -/
def eventBits (s : TcpState) (room done acked data : Bool) : SocketEvent :=
  stateEvents s ||| txBits s room done acked ||| rxBits s data

theorem socketEvents_bits (s : Socket) (hl : s.state ≠ .LISTEN) : socketEvents s =
    eventBits s.state (decide ((w32 s.sndUser + s.sndNxt - s.sndUna).toNat < s.txBufferSize))
      (decide (s.sndUser = 0)) (decide (cmpSeq s.sndUna s.sndNxt ≥ 0)) (decide (0 < s.rcvUser)) &&&
      s.eventMask := by
  revert hl
  simp only [socketEvents, eventBits, txEvents, rxEvents, txBits, rxBits]
  cases s.state <;> simp

set_option synthInstance.maxSize 1000 in
/-- The masks one by one, in every state. -/
theorem eventBits_iff (s : TcpState) : s ≠ .LISTEN → ∀ mask ∈ waitMasks,
    (mask = SOCKET_EVENT_TX_DONE ∨ mask = SOCKET_EVENT_TX_ACKED → s.opening = false) →
    ∀ room done acked data : Bool,
    (eventBits s room done acked data &&& mask &&& ~~~linkBits ≠ 0 ↔
      s.opening = false ∧ (mask = SOCKET_EVENT_TX_READY → s.sendable = true → room = true) ∧
        (mask = SOCKET_EVENT_TX_DONE ∨ mask = SOCKET_EVENT_TX_ACKED → s.sendable = true →
          done = true) ∧
        (mask = SOCKET_EVENT_TX_ACKED → s.sendable = true → acked = true) ∧
        (mask = SOCKET_EVENT_TX_SHUTDOWN → s.txOver = true) ∧
        (mask = SOCKET_EVENT_RX_SHUTDOWN → s.rxOver = true) ∧
        (mask = SOCKET_EVENT_RX_READY → s.receptive = true → data = true)) := by
  cases s <;> decide +kernel

theorem cmp_nonneg_eq {una nxt : Word} (hf : (nxt - una).toNat < 2 ^ 31)
    (h : cmpSeq una nxt ≥ 0) : una = nxt := by
  simp only [Serial.cmp, BitVec.toInt_eq_toNat_cond] at h
  split at h <;> bv_omega

/-- The condition of a wait is that the events of its mask have come. -/
theorem Waiting.ready_iff (hw : Waiting c) (hl : c.state ≠ .LISTEN) (hf : Flight c) :
    socketEvents c.toSocket &&& ~~~linkBits ≠ 0 ↔
      Ready c.eventMask c.kernel ∧ RxReady c.eventMask c.kernel := by
  have hmax : TCP_MAX_TX_BUFFER_SIZE = 22880 := rfl
  have hsize := hf.size
  have hacked : c.state.sendable = true → (cmpSeq c.sndUna c.sndNxt ≥ 0 ↔ c.sndUna = c.sndNxt) := by
    intro hs
    have hle := hf.flight (by simp [TcpState.sending, hs])
    refine ⟨cmp_nonneg_eq (by omega), fun h => ?_⟩
    rw [h]; exact (Serial.cmp_self _).ge
  rw [socketEvents_bits c.toSocket hl, eventBits_iff _ hl _ hw.mask hw.admits]
  simp only [decide_eq_true_iff]
  constructor
  · rintro ⟨h1, h2, h3, h4, h5, h6, h7⟩
    exact ⟨⟨hl, h1, h2, h3, fun hm hs => (hacked hs).mp (h4 hm hs), h5, h6⟩, h7⟩
  · rintro ⟨h, hrx⟩
    exact ⟨h.opening, h.txReady, h.txDone, fun hm hs => (hacked hs).mpr (h.txAcked hm hs),
      h.txShutdown, h.rxShutdown, hrx⟩

/-! ## The network keeps it -/

/-- The step from `s` to `s'` is one the network makes once the handshake is over. -/
def TcpState.onward (s s' : TcpState) : Bool :=
  s' != .LISTEN && !s'.opening && (!s'.sendable || s.sendable) && (!s.txOver || s'.txOver) &&
    (!s.rxOver || s'.rxOver)

/-- What a wait that began to be over in `c` needs of the kernels after it: the condition holds,
and the count of bytes to read has gone on from that in `c`. -/
structure Lasts (mask : SocketEvent) (c : Ctx) (k : Kernel) : Prop where
  ready : Ready mask k
  user : k.sndUser < 65536
  room : k.state.sendable = true → k.sndUser + (k.sndNxt - k.sndUna).toNat < 2 ^ 31
  count : k.state.receptive = true → c.state.receptive = true ∧
    k.rcvUser % 65536 = (c.rcvUser + (k.rcvNxt - c.rcvNxt).toNat) % 65536

/-- Steps that change nothing of this. -/
theorem Lasts.same (h : Lasts mask c k) (hs : k'.state = k.state) (hsnd : k'.toSndVars = k.toSndVars)
    (hsize : k'.txBufferSize = k.txBufferSize) (hrcv : k'.toRcvVars = k.toRcvVars) :
    Lasts mask c k' := by
  have huser : k'.sndUser = k.sndUser := congrArg (·.sndUser) hsnd
  have hnxt : k'.sndNxt = k.sndNxt := congrArg (·.sndNxt) hsnd
  have huna : k'.sndUna = k.sndUna := congrArg (·.sndUna) hsnd
  have hru : k'.rcvUser = k.rcvUser := congrArg (·.rcvUser) hrcv
  have hrn : k'.rcvNxt = k.rcvNxt := congrArg (·.rcvNxt) hrcv
  obtain ⟨⟨h1, h2, h3, h4, h5, h6, h7⟩, h8, h9, h10⟩ := h
  refine ⟨⟨?_, ?_, ?_, ?_, ?_, ?_, ?_⟩, ?_, ?_, ?_⟩ <;>
    simp only [hs, huser, hnxt, huna, hsize, hru, hrn] <;> assumption

/-- A counted segment moves bytes to the flight. -/
theorem Lasts.data (h : Lasts mask c k) {n : Nat} (hs : k.state.sendable = true) (hn : n ≤ k.sndUser) :
    Lasts mask c { k with sndNxt := k.sndNxt + w32 n, sndUser := u16Sub k.sndUser n } := by
  have hsub : u16Sub k.sndUser n = k.sndUser - n := u16Sub_of_le hn h.user
  have hroom := h.room hs
  have hnxt : (k.sndNxt + w32 n - k.sndUna).toNat = (k.sndNxt - k.sndUna).toNat + n := by
    simp only [w32]
    bv_omega
  refine ⟨⟨h.ready.listen, h.ready.opening, ?_, ?_, ?_, h.ready.txShutdown, h.ready.rxShutdown⟩,
    u16_lt _, ?_, h.count⟩
  · intro hm _
    show (w32 (u16Sub k.sndUser n) + (k.sndNxt + w32 n) - k.sndUna).toNat < k.txBufferSize
    have hsum : w32 (u16Sub k.sndUser n) + (k.sndNxt + w32 n) - k.sndUna =
        w32 k.sndUser + k.sndNxt - k.sndUna := by
      rw [hsub]; simp only [w32]; bv_omega
    rw [hsum]
    exact h.ready.txReady hm hs
  · intro hm _
    have h0 := h.ready.txDone hm hs
    show u16Sub k.sndUser n = 0
    omega
  · intro hm _
    have h0 := h.ready.txDone (.inr hm) hs
    obtain rfl : n = 0 := by omega
    show k.sndUna = k.sndNxt + w32 0
    rw [h.ready.txAcked hm hs]
    simp [w32]
  · intro _
    show u16Sub k.sndUser n + (k.sndNxt + w32 n - k.sndUna).toNat < 2 ^ 31
    omega

/-- An acknowledgment leaves more room. -/
theorem Lasts.ack (h : Lasts mask c k) {ackNum : Word} (h1 : 0 < cmpSeq ackNum k.sndUna)
    (h2 : cmpSeq ackNum k.sndNxt ≤ 0) : Lasts mask c { k with sndUna := ackNum } := by
  have hflight := flight_acked h1 h2
  refine ⟨⟨h.ready.listen, h.ready.opening, ?_, h.ready.txDone, ?_, h.ready.txShutdown,
    h.ready.rxShutdown⟩, h.user, ?_, h.count⟩
  · intro hm hs
    have hroom := h.room hs
    have hold := h.ready.txReady hm hs
    show (w32 k.sndUser + k.sndNxt - ackNum).toNat < k.txBufferSize
    simp only [w32] at hold ⊢
    bv_omega
  · intro hm hs
    have h0 := h.ready.txAcked hm hs
    rw [h0] at h1
    omega
  · intro hs
    have hroom := h.room hs
    show k.sndUser + (k.sndNxt - ackNum).toNat < 2 ^ 31
    omega

/-- Text adds to the count what it adds to `RCV.NXT`. -/
theorem receiveData_count (s : SockCore) (segment : TcpHeader) (b : NetBuffer) (off n : Nat) :
    (receiveData s segment b off n).1.rcvUser % 65536 =
      (s.rcvUser + ((receiveData s segment b off n).1.rcvNxt - s.rcvNxt).toNat) % 65536 := by
  simp only [receiveData, tcpUpdateSackBlocks, tcpWriteRxBuffer, advanceRcv]
  split <;> split <;> simp [u16]

theorem count_add {u v w a b d : Nat} {x y z : Word} (ha : a = (y - x).toNat)
    (hb : b = (z - y).toNat) (hd : d = (z - x).toNat) (h1 : v % 65536 = (u + a) % 65536)
    (h2 : w % 65536 = (v + b) % 65536) : w % 65536 = (u + d) % 65536 := by
  have hsum : d = (a + b) % 2 ^ 32 := by rw [ha, hb, hd]; bv_omega
  omega

theorem Lasts.text (h : Lasts mask c k) (segment : TcpHeader) (b : NetBuffer) (off n : Nat) :
    Lasts mask c { k with toSockCore := (receiveData k.toSockCore segment b off n).1 } := by
  have hcore := receiveData_core k.toSockCore segment b off n
  have hcount := receiveData_count k.toSockCore segment b off n
  generalize (receiveData k.toSockCore segment b off n).1 = s at hcore hcount
  have hstate : s.state = k.state := congrArg (·.state) hcore
  have huser : s.sndUser = k.sndUser := congrArg (·.sndUser) hcore
  have hnxt : s.sndNxt = k.sndNxt := congrArg (·.sndNxt) hcore
  have huna : s.sndUna = k.sndUna := congrArg (·.sndUna) hcore
  have hsize : s.txBufferSize = k.txBufferSize := congrArg (·.txBufferSize) hcore
  obtain ⟨⟨h1, h2, h3, h4, h5, h6, h7⟩, h8, h9, h10⟩ := h
  refine ⟨⟨?_, ?_, ?_, ?_, ?_, ?_, ?_⟩, ?_, ?_, fun hr => ?_⟩
  case refine_10 =>
    obtain ⟨hc, heq⟩ := h10 (by rw [← hstate]; exact hr)
    refine ⟨hc, ?_⟩
    exact count_add rfl rfl rfl heq hcount
  all_goals simp only [hstate, huser, hnxt, huna, hsize]; assumption

theorem Lasts.send (h : Lasts mask c k) (hs : Send (some p) k k') : Lasts mask c k' := by
  cases hs with
  | @sendData ph hd n ok hs hn =>
    have h1 : Lasts mask c (k.post ph hd n) := h.same rfl rfl rfl rfl
    cases ok with
    | true => exact h1.data hs hn
    | false => exact h1
  | ack _ _ _ h1 h2 => exact h.ack h1 h2
  | _ => exact h.same rfl rfl rfl rfl

theorem Lasts.work (h : Lasts mask c k) (hw : Work (some p) k k') : Lasts mask c k' := by
  cases hw with
  | send hs => exact h.send hs
  | @receive p => exact h.text p.segment p.buffer p.offset p.length
  | queueSyn _ hs => exact absurd hs h.ready.listen
  | write hu => cases hu
  | read hu => cases hu
  | openWindow hu => cases hu

theorem enter_sides (k : Kernel) (s : TcpState) : (k.enter s).state = s ∧
    (k.enter s).toSndVars = k.toSndVars ∧ (k.enter s).txBufferSize = k.txBufferSize ∧
    (k.enter s).toRcvVars = k.toRcvVars := by
  by_cases h : s = .CLOSED
  · subst h
    by_cases hs : k.state = .LAST_ACK ∨ k.state = .TIME_WAIT <;> simp [Kernel.enter, hs]
  · simp [Kernel.enter, h]

theorem TcpState.onward_iff {s s' : TcpState} (h : s.onward s' = true) : s' ≠ .LISTEN ∧
    s'.opening = false ∧ (s'.sendable = true → s.sendable = true) ∧
    (s.txOver = true → s'.txOver = true) ∧ (s.rxOver = true → s'.rxOver = true) := by
  revert h
  cases s <;> cases s' <;> decide

/-- A change of state: the sending side stays as it is, and the receiving side too if more text may
come. -/
theorem Lasts.enter (h : Lasts mask c k) (s : TcpState) (hs : k.state.onward s = true)
    (hsnd : k'.toSndVars = k.toSndVars) (hsize : k'.txBufferSize = k.txBufferSize)
    (hrcv : s.receptive = true → k.state.receptive = true ∧ k'.toRcvVars = k.toRcvVars) :
    Lasts mask c (k'.enter s) := by
  obtain ⟨he1, he2, he3, he4⟩ := enter_sides k' s
  obtain ⟨h1, h2, h3, h4, h5⟩ := TcpState.onward_iff hs
  have huser : (k'.enter s).sndUser = k.sndUser := congrArg (·.sndUser) (he2.trans hsnd)
  have hnxt : (k'.enter s).sndNxt = k.sndNxt := congrArg (·.sndNxt) (he2.trans hsnd)
  have huna : (k'.enter s).sndUna = k.sndUna := congrArg (·.sndUna) (he2.trans hsnd)
  have hbuf : (k'.enter s).txBufferSize = k.txBufferSize := he3.trans hsize
  have hcount : s.receptive = true → (k'.enter s).toRcvVars = k.toRcvVars :=
    fun hr => he4.trans (hrcv hr).2
  generalize k'.enter s = k2 at he1 huser hnxt huna hbuf hcount
  refine ⟨⟨?_, ?_, ?_, ?_, ?_, ?_, ?_⟩, ?_, ?_, ?_⟩
  · rw [he1]; exact h1
  · rw [he1]; exact h2
  · intro hm hs2
    rw [he1] at hs2
    rw [huser, hnxt, huna, hbuf]
    exact h.ready.txReady hm (h3 hs2)
  · intro hm hs2
    rw [he1] at hs2
    rw [huser]
    exact h.ready.txDone hm (h3 hs2)
  · intro hm hs2
    rw [he1] at hs2
    rw [huna, hnxt]
    exact h.ready.txAcked hm (h3 hs2)
  · intro hm
    rw [he1]
    exact h4 (h.ready.txShutdown hm)
  · intro hm
    rw [he1]
    exact h5 (h.ready.rxShutdown hm)
  · rw [huser]; exact h.user
  · intro hs2
    rw [he1] at hs2
    rw [huser, hnxt, huna]
    exact h.room (h3 hs2)
  · intro hs2
    rw [he1] at hs2
    have hr := hcount hs2
    rw [congrArg (·.rcvUser) hr, congrArg (·.rcvNxt) hr]
    exact h.count (hrcv hs2).1

/-- One case per change of state; the handshake is over. -/
theorem Lasts.move (h : Lasts mask c k) (hm : Move (some p) k k') : Lasts mask c k' := by
  have ho := h.ready.opening
  have hl := h.ready.listen
  cases hm with
  | close hs =>
    exact h.enter .CLOSED (by revert ho hl; cases k.state <;> decide) rfl rfl nofun
  | dispose => exact h.same rfl rfl rfl rfl
  | opened _ hs => rw [hs] at ho; cases ho
  | crossed _ hs => rw [hs] at ho; cases ho
  | accepted _ hs => rw [hs] at ho; cases ho
  | finAcked _ hs =>
    exact h.enter .FIN_WAIT_2 (by rw [hs]; rfl) rfl rfl fun _ => ⟨by rw [hs]; rfl, rfl⟩
  | fin next _ hs =>
    refine h.enter next ?_ rfl rfl ?_
    · obtain ⟨h1, rfl⟩ | ⟨h1, rfl⟩ := hs <;> (rw [h1]; rfl)
    · obtain ⟨h1, rfl⟩ | ⟨h1, rfl⟩ := hs <;> exact nofun
  | finTimeWait _ hs => exact h.enter .TIME_WAIT (by rw [hs]; rfl) rfl rfl nofun
  | closingAcked _ hs => exact h.enter .TIME_WAIT (by rw [hs]; rfl) rfl rfl nofun

/-- The timer does nothing that a segment cannot bring about. -/
theorem netStep_some_inv {P : Kernel → Prop} {e : NetEvent}
    (hwork : ∀ p k k', Work (some p) k k' → P k → P k')
    (hmove : ∀ p k k', Move (some p) k k' → P k → P k') (hc : P c.kernel) :
    P (netStep c e).kernel := by
  cases e with
  | segment env p => exact netStep_inv (e := .segment env p) (hwork p) (hmove p) hc
  | tick env =>
    let p : Packet := wireSegment 0 0 { ack := true }
    obtain ⟨l, -, hp⟩ := (trip_tcpTickSocket { c with toEnv := env } :
      Trip (some p) _ _ _)
    exact hp.inv (hwork p) (hmove p) hc

theorem Lasts.netStep (h : Lasts mask c c1.kernel) (e : NetEvent) :
    Lasts mask c (netStep c1 e).kernel :=
  netStep_some_inv (fun _ _ _ hw h => h.work hw) (fun _ _ _ hm h => h.move hm) h

/-! ## The mask stays -/

theorem tcpUpdateRetransmitQueue_mask (c : Ctx) :
    (tcpUpdateRetransmitQueue c).eventMask = c.eventMask := by
  simp only [tcpUpdateRetransmitQueue]
  repeat' split
  all_goals rfl

theorem Queues.eventMask {item : TcpQueueItem} (h : Queues c c' item) : c'.eventMask = c.eventMask :=
  congrArg (·.eventMask) h.sameEvents.events

theorem Quiet.eventMask (h : Quiet c c') : c'.eventMask = c.eventMask :=
  congrArg (·.eventMask) h.events

/-- Only a call sets the mask. -/
theorem Act.eventMask (ha : Act (some p) c c') : c'.eventMask = c.eventMask := by
  cases ha with
  | quiet h => exact h.eventMask
  | @data c1 item n w ok _ _ _ _ _ _ hq => cases ok <;> exact hq.eventMask
  | ack _ _ _ _ hq => exact (tcpUpdateRetransmitQueue_mask _).trans hq.eventMask
  | window segment =>
    simp only [tcpUpdateSendWindow]
    repeat' split
    all_goals rfl
  | rcv _ _ hq => exact hq.eventMask
  | enter s => exact tcpChangeState_mask c s
  | listen => exact tcpChangeState_mask c .LISTEN
  | syn _ _ _ hq => exact (tcpUpdateRetransmitQueue_mask _).trans hq.eventMask
  | crossed _ _ hq => exact hq.eventMask
  | established _ _ hq => exact (tcpChangeState_mask _ _).trans hq.eventMask
  | timeWait hq => exact (tcpChangeState_mask _ _).trans hq.eventMask
  | queueSyn _ _ _ hq => exact hq.eventMask
  | write _ _ _ _ hq => exact hq.eventMask
  | wait _ hu => cases hu
  | fin _ _ hq => exact (tcpChangeState_mask _ _).trans hq.eventMask
  | finTried _ hq => exact hq.eventMask
  | restart _ h => exact congrArg (·.eventMask) h.events
  | synTried _ hq => exact hq.eventMask
  | synSent hu => cases hu
  | _ => rfl

/-- A wait stays one. -/
theorem Waiting.act (hw : Waiting c) (ha : Act (some p) c c') : Waiting c' := by
  refine ⟨by rw [ha.eventMask]; exact hw.mask, fun hm => ?_⟩
  rw [ha.eventMask] at hm
  exact ha.not_opening (hw.admits hm)

theorem netStep_acts (c : Ctx) (e : NetEvent) : ∃ p, Acts (some p) c (netStep c e) := by
  cases e with
  | segment env p => exact ⟨p, (settles_netStep c (.segment env p)).acts⟩
  | tick env =>
    let p : Packet := wireSegment 0 0 { ack := true }
    have h1 : Act (some p) c { c with toEnv := env } := .quiet (OnlySends.env c env).quiet
    exact ⟨p, .head h1 (settles_tcpTickSocket { c with toEnv := env }).acts⟩

theorem Waiting.netStep (hw : Waiting c) (e : NetEvent) : Waiting (netStep c e) := by
  obtain ⟨p, ha⟩ := netStep_acts c e
  exact Run.chain_inv ha hw fun _ _ h hc => hc.act h

theorem netStep_not_listen (hl : c.state ≠ .LISTEN) (e : NetEvent) :
    (netStep c e).state ≠ .LISTEN := by
  obtain ⟨p, ha⟩ := netStep_acts c e
  exact Run.chain_inv (P := fun c => c.state ≠ .LISTEN) ha hl fun _ _ h hc => h.not_listen hc

/-! ## Waits of the calls -/

def Progress.suspended : Progress → Bool
  | .blocked _ => true
  | .done _ => false

/-- The part of a call ends with its return, or with a wait of one of the calls. -/
def EndsWaiting (r : Ctx × Progress) : Prop := r.2.suspended = true → Waiting r.1

theorem tcpWaitBegin_mask (c : Ctx) (mask : SocketEvent) :
    (tcpWaitBegin c mask).eventMask = mask := by
  unfold tcpWaitBegin
  simp only
  split <;> rfl

theorem endsWaiting_done (c : Ctx) (e : Error) : EndsWaiting (c, .done e) := nofun

theorem endsWaiting_admits (hm : mask ∈ waitMasks) (ha : c.state.admits mask) (call : Call) :
    EndsWaiting (waitFor c mask call) := by
  intro _
  refine ⟨?_, ?_⟩
  · show (tcpWaitBegin c mask).eventMask ∈ waitMasks
    rw [tcpWaitBegin_mask]; exact hm
  · show (tcpWaitBegin c mask).state.admits (tcpWaitBegin c mask).eventMask
    rw [tcpWaitBegin_mask, tcpWaitBegin_state]; exact ha

/-- A wait for neither data to be sent nor acknowledged. -/
theorem endsWaiting_plain (hm : mask ∈ waitMasks)
    (hn : ¬(mask = SOCKET_EVENT_TX_DONE ∨ mask = SOCKET_EVENT_TX_ACKED)) (c : Ctx) (call : Call) :
    EndsWaiting (waitFor c mask call) := endsWaiting_admits hm (fun h => absurd h hn) call

theorem endsWaiting_receiveMore (c : Ctx) (data : List UInt8) (received : Nat)
    (flags : SocketFlags) : EndsWaiting (receiveMore c data received flags) := by
  unfold receiveMore
  split
  · exact endsWaiting_plain (by decide) (by decide) _ _
  · exact endsWaiting_done _ _

theorem endsWaiting_receiveTurn (cut : Nat → List UInt8 → UInt8 → Nat) (c : Ctx)
    (data : List UInt8) (received : Nat) (flags : SocketFlags) :
    EndsWaiting (receiveTurn cut c data received flags) := by
  unfold receiveTurn
  split
  · exact endsWaiting_done _ _
  · exact endsWaiting_receiveMore _ _ _ _

theorem endsWaiting_shutdownReceive (c : Ctx) (how : SocketShutdownFlags) :
    EndsWaiting (shutdownReceive c how) := by
  unfold shutdownReceive
  split
  · split
    case h_1 => exact endsWaiting_done _ _
    case h_7 => exact endsWaiting_done _ _
    all_goals exact endsWaiting_plain (by decide) (by decide) _ _
  · exact endsWaiting_done _ _

theorem endsWaiting_shutdownSent (c : Ctx) (how : SocketShutdownFlags) (next : TcpState) :
    EndsWaiting (shutdownSent c how next) := by
  unfold shutdownSent
  split
  · exact endsWaiting_plain (by decide) (by decide) _ _
  · exact endsWaiting_done _ _

theorem endsWaiting_shutdownSend (c : Ctx) (how : SocketShutdownFlags) :
    EndsWaiting (Spark.shutdownSend c how) := by
  unfold Spark.shutdownSend
  split <;> first
    | exact endsWaiting_done _ _
    | exact endsWaiting_shutdownSent _ _ _
    | exact endsWaiting_plain (by decide) (by decide) _ _
    | exact endsWaiting_shutdownReceive _ _

/-- A send that goes on is one of a socket on which data may be sent. -/
theorem tcpSendStep_sendable {event : SocketEvent} {data rest : List UInt8} {flags : SocketFlags}
    (h : tcpSendStep c event data flags = (c', rest, none)) : c'.state.sendable = true := by
  have hstate := (does_tcpSendStep c event data flags).work_state
  rw [h] at hstate
  have hs : c.state.sendable = true := by
    unfold tcpSendStep at h
    split at h
    · cases h
    · split at h
      case h_1 hs => rw [hs]; rfl
      case h_2 hs => rw [hs]; rfl
      all_goals cases h
  rw [← hs]
  exact congrArg TcpState.sendable hstate

theorem admits_sendable (hs : c.state.sendable = true) : c.state.admits mask := by
  intro _
  revert hs
  cases c.state <;> decide

theorem endsWaiting_start (api : Api) (c : Ctx) (req : Request) : EndsWaiting (start api c req) := by
  cases req with
  | connect a p =>
    simp only [start, tcpConnect]
    split
    · split
      · exact endsWaiting_plain (by decide) (by decide) _ _
      · exact endsWaiting_done _ _
    · exact endsWaiting_plain (by decide) (by decide) _ _
  | listen backlog => cases api <;> exact endsWaiting_done _ _
  | send data flags =>
    simp only [start, tcpSend]
    split
    · exact endsWaiting_done _ _
    · exact endsWaiting_plain (by decide) (by decide) _ _
  | receive data flags =>
    cases api with
    | c =>
      simp only [start, tcpReceiveStart]
      split
      · exact endsWaiting_done _ _
      · exact endsWaiting_receiveMore _ _ _ _
    | spark first => exact endsWaiting_receiveMore _ _ _ _
  | shutdown how =>
    cases api with
    | c =>
      simp only [start, tcpShutdown]
      split
      · split <;> first
          | exact endsWaiting_done _ _
          | exact endsWaiting_plain (by decide) (by decide) _ _
          | exact endsWaiting_shutdownReceive _ _
      · exact endsWaiting_shutdownReceive _ _
    | spark first =>
      simp only [start, Spark.tcpShutdown]
      split
      · split
        · exact endsWaiting_plain (by decide) (by decide) _ _
        · exact endsWaiting_shutdownSend _ _
      · exact endsWaiting_shutdownReceive _ _
  | setTxBufferSize size => exact endsWaiting_done _ _
  | setRxBufferSize size => exact endsWaiting_done _ _
  | bind a p => exact endsWaiting_done _ _

theorem endsWaiting_resume (c : Ctx) (call : Call) : EndsWaiting (resume c call) := by
  cases call with
  | connect =>
    simp only [resume, resumeConnect]
    repeat' split
    all_goals exact endsWaiting_done _ _
  | send data flags =>
    simp only [resume, resumeSend]
    split
    · exact endsWaiting_done _ _
    · rename_i hsend
      split
      · exact endsWaiting_plain (by decide) (by decide) _ _
      · split
        · exact endsWaiting_admits (by decide) (admits_sendable (tcpSendStep_sendable hsend)) _
        · exact endsWaiting_done _ _
  | sendAck =>
    simp only [resume, resumeSendAck]
    repeat' split
    all_goals exact endsWaiting_done _ _
  | receive data received flags => exact endsWaiting_receiveTurn _ _ _ _ _
  | shutdownFlush how next =>
    simp only [resume, resumeShutdownFlush]
    split
    · exact endsWaiting_done _ _
    · rename_i hsend
      exact endsWaiting_admits (by decide) (admits_sendable (tcpSendStep_sendable hsend)) _
  | shutdownDone how next =>
    simp only [resume, resumeShutdownDone]
    split
    · exact endsWaiting_done _ _
    · exact endsWaiting_shutdownSent _ _ _
  | shutdownTx how =>
    simp only [resume, resumeShutdownTx]
    split
    · exact endsWaiting_done _ _
    · exact endsWaiting_shutdownReceive _ _
  | shutdownRx => exact endsWaiting_done _ _

theorem endsWaiting_resumeCall (api : Api) (c : Ctx) (call : Call) :
    EndsWaiting (resumeCall api c call) := by
  cases api with
  | c => exact endsWaiting_resume c call
  | spark first =>
    simp only [resumeCall, Spark.resume]
    split
    · exact endsWaiting_receiveTurn _ _ _ _ _
    · simp only [Spark.resumeShutdownDone]
      split
      · exact endsWaiting_done _ _
      · exact endsWaiting_shutdownSend _ _
    · exact endsWaiting_resume c call

/-! ## Runs -/

/-- The call of this event leaves its section in a wait on entry `i`. -/
def Suspends (h : Host n) (e : HostEvent n) (i : Fin n) : Prop :=
  (∃ api env req, e = .start api env i req ∧ h.usable i = true ∧
    (start api (h.ctxOf i env) req).2.suspended = true) ∨
  (∃ env k api call, e = .resume env i k ∧ (h.table i).calls[k]? = some (api, call) ∧
    (resumeCall api (h.ctxOf i env) call).2.suspended = true)

/-- A segment or a run of the timer. -/
def HostEvent.isNet : HostEvent n → Bool
  | .segment _ _ | .tick _ => true
  | _ => false

/-- The bytes the event adds to those that wait for the user of entry `i` do not make the 16-bit
count wrap. -/
def CountFits (i : Fin n) (h : Host n) (e : HostEvent n) : Prop :=
  (h.table i).ctx.rcvUser +
    (((hostStep h e).table i).ctx.rcvNxt - (h.table i).ctx.rcvNxt).toNat < 65536

theorem suspends_waiting {e : HostEvent n} {i : Fin n} (hs : Suspends h e i) :
    Waiting ((hostStep h e).table i).ctx := by
  obtain ⟨api, env, req, rfl, hu, hsus⟩ | ⟨env, k, api, call, rfl, hcall, hsus⟩ := hs
  · have hw := endsWaiting_start api (h.ctxOf i env) req hsus
    simp only [hostStep, if_pos hu]
    rw [finish_ctx, if_pos rfl]
    exact hw
  · have hw := endsWaiting_resumeCall api (h.ctxOf i env) call hsus
    simp only [hostStep, callResume, hcall]
    rw [finish_ctx, if_pos rfl]
    simp only [Host.ctxOf, Host.setEntry_same]
    exact hw

/-- An entry under a segment or the timer. -/
theorem net_entry {e : HostEvent n} (he : e.isNet = true) (i : Fin n) :
    ((hostStep h e).table i).ctx = (h.table i).ctx ∨
      ∃ ne, ((hostStep h e).table i).ctx = netStep (h.table i).ctx ne := by
  cases e with
  | segment env p =>
    simp only [hostStep, tcpProcessSegment]
    split
    · rename_i j _
      rw [setCtx_table]
      split
      · rename_i hj
        subst hj
        exact .inr ⟨.segment env p, rfl⟩
      · exact .inl rfl
    · exact .inl rfl
  | tick env => exact .inr ⟨.tick (env i), rfl⟩
  | _ => cases he

/-- What holds of entry `i` while a call waits on it, and is kept by the network. -/
structure WaitingEntry (c : Ctx) : Prop where
  waiting : Waiting c
  listen : c.state ≠ .LISTEN

theorem WaitingEntry.net {e : HostEvent n} {i : Fin n} (hw : WaitingEntry (h.table i).ctx)
    (he : e.isNet = true) : WaitingEntry ((hostStep h e).table i).ctx := by
  obtain h1 | ⟨ne, h1⟩ := net_entry (h := h) he i
  · rw [h1]; exact hw
  · rw [h1]; exact ⟨hw.waiting.netStep ne, netStep_not_listen hw.listen ne⟩

/-- The events of a run in which nobody but the network works on the sockets. -/
def NetOnly (i : Fin n) (h : Host n) (e : HostEvent n) : Prop :=
  e.isNet = true ∧ (((h.table i).ctx.eventMask = SOCKET_EVENT_RX_READY) → CountFits i h e)

/-- The condition of the wait, with what the network needs to keep it. -/
structure Holds (c : Ctx) : Prop where
  entry : WaitingEntry c
  ready : Ready c.eventMask c.kernel
  rxReady : RxReady c.eventMask c.kernel
  user : c.sndUser < 65536
  room : c.state.sendable = true → c.sndUser + (c.sndNxt - c.sndUna).toNat < 2 ^ 31

theorem Holds.net {e : HostEvent n} {i : Fin n} (hh : Holds (h.table i).ctx)
    (he : NetOnly i h e) : Holds ((hostStep h e).table i).ctx := by
  obtain ⟨hnet, hfits⟩ := he
  obtain h1 | ⟨ne, h1⟩ := net_entry (h := h) hnet i
  · rw [h1]; exact hh
  have hentry := hh.entry.net (h := h) hnet
  simp only [CountFits, h1] at hfits
  rw [h1] at hentry ⊢
  generalize (h.table i).ctx = c at hh hfits hentry ⊢
  have hmask : (netStep c ne).eventMask = c.eventMask := by
    obtain ⟨p, ha⟩ := netStep_acts c ne
    exact Run.chain_inv (P := fun c' => c'.eventMask = c.eventMask) ha rfl
      fun _ _ ha hm => ha.eventMask.trans hm
  have hlasts : Lasts c.eventMask c c.kernel := by
    refine ⟨hh.ready, hh.user, hh.room, fun hr => ⟨hr, ?_⟩⟩
    show c.rcvUser % 65536 = (c.rcvUser + (c.rcvNxt - c.rcvNxt).toNat) % 65536
    simp
  have hnext := hlasts.netStep ne
  refine ⟨hentry, by rw [hmask]; exact hnext.ready, ?_, hnext.user, hnext.room⟩
  rw [hmask]
  intro hm hr
  obtain ⟨hr0, hcount⟩ := hnext.count hr
  have hpos : 0 < c.rcvUser := hh.rxReady hm hr0
  have hfit := hfits hm
  have hcount1 : (netStep c ne).kernel.rcvUser % 65536 =
      c.rcvUser + ((netStep c ne).rcvNxt - c.rcvNxt).toNat := by
    rw [hcount]; exact Nat.mod_eq_of_lt hfit
  omega

theorem NetOnly.accepts {e : HostEvent n} {i : Fin n} (he : NetOnly i h e) : AcceptsListen h e := by
  cases e <;> first | trivial | cases he.1

theorem Suspends.accepts {e : HostEvent n} {i : Fin n} (hs : Suspends h e i) :
    AcceptsListen h e := by
  obtain ⟨api, env, req, rfl, -⟩ | ⟨env, k, api, call, rfl, -⟩ := hs <;> trivial

/-- No wake-up is lost. In every run in which no accept sets its mask on a socket that has left
LISTEN, the flags of every stream socket outside LISTEN are those `tcpUpdateEvents` would compute,
and the event object is set when there are any. From the moment a call is suspended, as long as
only segments and the timer work on the sockets, the event object is set as soon as the condition
of the wait is true, and the flags stay set from then on. -/
theorem wakeup_kept (hr : Reach hostStep AcceptsListen (socketInit n) h) (i : Fin n) :
    ((h.table i).ctx.type = .STREAM → (h.table i).ctx.state ≠ .LISTEN → Fresh (h.table i).ctx) ∧
    ∀ e h1 h2, Suspends h e i → ((hostStep h e).table i).ctx.state ≠ .LISTEN →
      Reach hostStep (NetOnly i) (hostStep h e) h1 →
      socketEvents (h1.table i).ctx.toSocket &&& ~~~linkBits ≠ 0 →
      Reach hostStep (NetOnly i) h1 h2 →
      (h1.table i).ctx.event = true ∧ (h2.table i).ctx.eventFlags &&& ~~~linkBits ≠ 0 ∧
        (h2.table i).ctx.event = true := by
  refine ⟨fun _ hl => (waked_reach hr i).fresh hl, ?_⟩
  intro e h1 h2 hsus hlisten hr1 hcond hr2
  have hreach1 : Reach hostStep AcceptsListen (socketInit n) h1 :=
    (hr.step hsus.accepts).trans (hr1.mono fun _ _ he => he.accepts)
  have hreach2 : Reach hostStep AcceptsListen (socketInit n) h2 :=
    hreach1.trans (hr2.mono fun _ _ he => he.accepts)
  have hw1 : WaitingEntry (h1.table i).ctx :=
    hr1.inv (P := fun h => WaitingEntry (h.table i).ctx) ⟨suspends_waiting hsus, hlisten⟩
      fun _ _ hw he => hw.net he.1
  have hflight := flight_reach hreach1 i
  have hfresh1 := (waked_reach hreach1 i).fresh hw1.listen
  have hset : ∀ c : Ctx, Fresh c → socketEvents c.toSocket &&& ~~~linkBits ≠ 0 →
      c.eventFlags &&& ~~~linkBits ≠ 0 ∧ c.event = true := by
    intro c hf hc
    have hflags : c.eventFlags &&& ~~~linkBits ≠ 0 := by rw [hf.flags]; exact hc
    refine ⟨hflags, hf.event fun h0 => hflags ?_⟩
    simp [h0]
  obtain ⟨hready, hrx⟩ := (hw1.waiting.ready_iff hw1.listen hflight).mp hcond
  have hh1 : Holds (h1.table i).ctx := by
    refine ⟨hw1, hready, hrx, (waked_reach hreach1 i).user, fun hs => ?_⟩
    have hmax : TCP_MAX_TX_BUFFER_SIZE = 22880 := rfl
    have hsize := hflight.size
    have hfl := hflight.flight (by simp [TcpState.sending, hs])
    have hu := (waked_reach hreach1 i).user
    omega
  have hh2 : Holds (h2.table i).ctx :=
    hr2.inv (P := fun h => Holds (h.table i).ctx) hh1 fun _ _ hh he => hh.net he
  have hcond2 := (hh2.entry.waiting.ready_iff hh2.entry.listen (flight_reach hreach2 i)).mpr
    ⟨hh2.ready, hh2.rxReady⟩
  have hfresh2 := (waked_reach hreach2 i).fresh hh2.entry.listen
  exact ⟨(hset _ hfresh1 hcond).2, hset _ hfresh2 hcond2⟩

/-! ## A connect that is woken -/

/-- An open socket bound to port 2000. -/
def boundHost : Host SOCKET_MAX_COUNT := hostRun (openEvents .c 0 2000)

def connectEvent : HostEvent SOCKET_MAX_COUNT := .start .c Env.granting 0 (.connect wirePeer 80)

/-- The connect is suspended, and the SYN-ACK of the peer comes. -/
def wokenHost : Host SOCKET_MAX_COUNT :=
  hostStep (hostStep boundHost connectEvent)
    (.segment Env.granting (wireSegment 100 1 { syn := true, ack := true }))

theorem boundHost_reach : Reach hostStep AcceptsListen (socketInit SOCKET_MAX_COUNT) boundHost := by
  refine Reach.init.foldl _ fun e he h => ?_
  simp only [openEvents, List.mem_cons, List.not_mem_nil, or_false] at he
  obtain rfl | rfl | rfl | rfl := he <;> trivial

theorem connect_woken : (wokenHost.table 0).ctx.event = true ∧
    ((hostStep wokenHost (.tick fun _ => Env.granting)).table 0).ctx.eventFlags &&&
      ~~~linkBits ≠ 0 ∧
    ((hostStep wokenHost (.tick fun _ => Env.granting)).table 0).ctx.event = true := by
  have hmask : (wokenHost.table 0).ctx.eventMask ≠ SOCKET_EVENT_RX_READY := by decide +kernel
  have hmask0 : ((hostStep boundHost connectEvent).table 0).ctx.eventMask ≠
      SOCKET_EVENT_RX_READY := by decide +kernel
  exact (wakeup_kept boundHost_reach 0).2 connectEvent wokenHost _
    (.inl ⟨.c, Env.granting, .connect wirePeer 80, rfl, by decide +kernel, by decide +kernel⟩)
    (by decide +kernel) (.step .init ⟨rfl, fun h => absurd h hmask0⟩) (by decide +kernel)
    (.step .init ⟨rfl, fun h => absurd h hmask⟩)

/-! ## Wake-ups that are lost -/

/-- Entry 0 listens and an accept has passed its test of the state. Before it takes the mutex the
socket is closed, and a new socket takes the entry. -/
def reopenedHost : Host SOCKET_MAX_COUNT :=
  hostRun (openEvents .c 0 1000 ++ [.start .c Env.granting 0 (.listen 0), .accept .c 0,
    .close Env.granting 0, .open .c Env.granting .STREAM SOCKET_IP_PROTO_TCP,
    .acceptNext Env.granting 0])

/-- A second task begins to read from the connected socket. -/
def readEvent : HostEvent SOCKET_MAX_COUNT := .start .c Env.granting 0 (.receive [0] 0)

/-- The accept sets its mask on a socket in CLOSED, and the flags are not those of its state. A
reader that comes between the SYN-ACK and the connect that waits for it takes the flag away. -/
theorem wakeup_lost :
    ((reopenedHost.table 0).ctx.type = .STREAM ∧ (reopenedHost.table 0).ctx.state = .CLOSED ∧
      (reopenedHost.table 0).ctx.eventFlags &&& ~~~linkBits ≠
        socketEvents (reopenedHost.table 0).ctx.toSocket &&& ~~~linkBits) ∧
    (wokenHost.table 0).ctx.eventFlags = SOCKET_EVENT_CONNECTED ∧
      ((hostStep wokenHost readEvent).table 0).ctx.eventFlags = 0 := by
  decide +kernel

end Cyclone
