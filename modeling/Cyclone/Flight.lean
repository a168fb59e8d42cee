import Cyclone.Entries
import Cyclone.Acks

/-!
# Cyclone.Flight

How much can be in flight. A segment is sent only into the usable window, so while data may be
sent at most a transmit buffer of bytes, or the SYN, waits for its acknowledgment.

* `Act.flight`: the acts.
* `flight_reach`: every entry of every host a run reaches.
-/

namespace Cyclone

open Serial Relation Run

variable {n : Nat} {h : Host n} {c c' c1 : Ctx} {p : Packet} {rx : Option Packet}

/-- Data may be sent, or the handshake that comes first is under way. -/
def TcpState.sending (s : TcpState) : Bool := s.opening || s.sendable

/-- The flight is bounded by the transmit buffer, and the buffer by its largest size. -/
structure Flight (c : Ctx) : Prop where
  size : c.txBufferSize ≤ TCP_MAX_TX_BUFFER_SIZE
  flight : c.state.sending = true → (c.sndNxt - c.sndUna).toNat ≤ c.txBufferSize + 1

theorem Flight.same (hf : Flight c) (hsize : c'.txBufferSize = c.txBufferSize)
    (hnxt : c'.sndNxt = c.sndNxt) (huna : c'.sndUna = c.sndUna)
    (hs : c'.state.sending = true → c.state.sending = true) : Flight c' := by
  refine ⟨by rw [hsize]; exact hf.size, fun h => ?_⟩
  rw [hsize, hnxt, huna]
  exact hf.flight (hs h)

theorem Flight.core (hf : Flight c) (h : c'.toSockCore = c.toSockCore) : Flight c' :=
  hf.same (congrArg (·.txBufferSize) h) (congrArg (·.sndNxt) h) (congrArg (·.sndUna) h)
    (by rw [congrArg (·.state) h]; exact id)

theorem Flight.queues {item : TcpQueueItem} (hf : Flight c) (h : Queues c c' item) : Flight c' :=
  hf.same (congrArg (·.txBufferSize) h.core) (congrArg (·.sndNxt) h.core)
    (congrArg (·.sndUna) h.core) (by rw [congrArg (·.state) h.core]; exact id)

/-- Outside the states that send, only the size counts. -/
theorem flight_silent (hs : c.state.sending = false)
    (hsize : c.txBufferSize ≤ TCP_MAX_TX_BUFFER_SIZE) : Flight c :=
  ⟨hsize, fun h => absurd (h.symm.trans hs) nofun⟩

theorem tcpChangeState_size (c : Ctx) (s : TcpState) :
    (tcpChangeState c s).txBufferSize = c.txBufferSize := by
  have h1 := congrArg (·.txBufferSize) (tcpChangeState_kernel c s)
  refine h1.trans ?_
  simp only [Kernel.enter]
  repeat' split
  all_goals rfl

theorem Flight.change (hf : Flight c) {s : TcpState}
    (hs : s.sending = true → c.state.sending = true) : Flight (tcpChangeState c s) := by
  have hsnd := tcpChangeState_snd c s
  refine hf.same (tcpChangeState_size c s) (congrArg (·.sndNxt) hsnd)
    (congrArg (·.sndUna) hsnd) ?_
  rw [tcpChangeState_state]; exact hs

theorem tcpUpdateRetransmitQueue_core (c : Ctx) :
    (tcpUpdateRetransmitQueue c).toSockCore =
      { c.toSockCore with retransmitQueue :=
          c.retransmitQueue.filter fun item => !item.acked c.sndUna } :=
  congrArg (·.toSockCore) (tcpUpdateRetransmitQueue_kernel c).1

theorem Flight.prune (hf : Flight c) : Flight (tcpUpdateRetransmitQueue c) := by
  have hcore := tcpUpdateRetransmitQueue_core c
  exact hf.same (congrArg (·.txBufferSize) hcore) (congrArg (·.sndNxt) hcore)
    (congrArg (·.sndUna) hcore) (by rw [congrArg (·.state) hcore]; exact id)

theorem Flight.release (hf : Flight c) : Flight (tcpDeleteControlBlock c) := by
  have hcore := congrArg (·.toSockCore) (tcpDeleteControlBlock_kernel c).1
  exact hf.same (congrArg (·.txBufferSize) hcore) (congrArg (·.sndNxt) hcore)
    (congrArg (·.sndUna) hcore) (by rw [tcpDeleteControlBlock_state]; exact id)

/-- A segment of `n` bytes that fits into the window of size `w`. -/
theorem roomFor_flight {s : SockCore} {w n : Nat} (hr : RoomFor s w n) (hw : w < 2 ^ 31)
    (hf : (s.sndNxt - s.sndUna).toNat ≤ 2 ^ 31) :
    (s.sndNxt + w32 n - s.sndUna).toNat ≤ w := by
  have hlt := flight_lt hw hf hr.1
  have hn : n ≤ w - (s.sndNxt - s.sndUna).toNat := by
    have h2 := hr.2
    simp only [w32] at h2
    bv_omega
  simp only [w32]
  bv_omega

/-- The flight shrinks by an acknowledgment inside it. -/
theorem flight_acked {una ack nxt : Word} (h1 : 0 < cmpSeq ack una) (h2 : cmpSeq ack nxt ≤ 0) :
    (nxt - ack).toNat + (ack - una).toNat = (nxt - una).toNat := by
  have h3 := flight_le h2
  simp only [Serial.cmp, BitVec.toInt_eq_toNat_cond] at h1
  split at h1 <;> bv_omega

theorem Act.flight (ha : Act rx c c') (hf : Flight c) : Flight c' := by
  have hmax : TCP_MAX_TX_BUFFER_SIZE = 22880 := rfl
  cases ha with
  | quiet h => exact hf.core h.core
  | @data c1 item n w ok hs _ _ hw hr _ hq =>
    have h1 := hf.queues hq
    cases ok with
    | false => exact h1
    | true =>
      have hcore := hq.core
      have hnxt : c1.sndNxt = c.sndNxt := congrArg (·.sndNxt) hcore
      have huna : c1.sndUna = c.sndUna := congrArg (·.sndUna) hcore
      have hsize : c1.txBufferSize = c.txBufferSize := congrArg (·.txBufferSize) hcore
      have hle := hf.size
      have hfl := hf.flight (by simp [TcpState.sending, hs])
      refine ⟨h1.size, fun _ => ?_⟩
      have hroom := roomFor_flight hr (by omega) (by omega)
      show (c1.sndNxt + w32 n - c1.sndUna).toNat ≤ c1.txBufferSize + 1
      rw [hnxt, huna, hsize]
      omega
  | @ack c1 p _ _ h1 h2 hq =>
    have h3 : Flight { c with sndUna := p.segment.ackNum } := by
      refine ⟨hf.size, fun hs => ?_⟩
      have h4 := flight_acked h1 h2
      have h5 := hf.flight hs
      show (c.sndNxt - p.segment.ackNum).toNat ≤ c.txBufferSize + 1
      omega
    exact (h3.core hq.core).prune
  | window segment =>
    have hcore := tcpUpdateSendWindow_core c segment
    exact hf.same (congrArg (·.txBufferSize) hcore) (congrArg (·.sndNxt) hcore)
      (congrArg (·.sndUna) hcore) (by rw [congrArg (·.state) hcore]; exact fun h => h)
  | rcv r b hq =>
    have h1 : Flight { c with toRcvVars := r, rxBuffer := b } := hf.same rfl rfl rfl fun h => h
    exact h1.core hq.core
  | enter s hs =>
    refine hf.change fun h => ?_
    revert hs h
    simp only [TcpState.leadsTo, TcpState.sending]
    cases s <;> cases c.state <;> simp [TcpState.opening, TcpState.sendable, TcpState.inFlight]
  | listen => exact hf.change fun h => by cases h
  | @syn c1 p una smss _ hs ha hq =>
    have h1 : Flight { c with irs := p.segment.seqNum, rcvNxt := p.segment.seqNum + 1,
                              sndUna := una } := by
      refine ⟨hf.size, fun h => ?_⟩
      obtain ⟨-, -, rfl⟩ | ⟨-, rfl⟩ := ha
      · show (c.sndNxt - c.sndNxt).toNat ≤ _
        simp
      · exact hf.flight h
    exact (h1.core hq.core).prune.same rfl rfl rfl fun h => h
  | crossed _ _ hq => exact hf.queues hq
  | @established c1 p _ hs hq =>
    have h1 : Flight { c with sndWnd := p.segment.window, sndWl1 := p.segment.seqNum,
                              sndWl2 := p.segment.ackNum, maxSndWnd := p.segment.window } :=
      hf.same rfl rfl rfl fun h => h
    refine (h1.core hq.core).change fun _ => ?_
    rw [hq.state]
    obtain hs | hs := hs <;>
    · show c.state.sending = true
      rw [hs]; rfl
  | release => exact hf.release
  | timeWait hq => exact (hf.release.core hq.core).change fun h => by cases h
  | @queueSyn _ p item _ _ _ hq =>
    have h1 : Flight { c with synQueue := c.synQueue ++ [item] } := hf.same rfl rfl rfl fun h => h
    exact h1.core hq.core
  | write b n _ _ hq =>
    have h1 : Flight { c with txBuffer := b, sndUser := n } := hf.same rfl rfl rfl fun h => h
    exact h1.core hq.core
  | wait mask =>
    have hk := tcpWaitBegin_kernel c mask
    exact hf.core (congrArg (·.toSockCore) hk)
  | @fin c1 item s hn _ hq =>
    refine flight_silent ?_ ?_
    · rw [tcpChangeState_state]
      obtain rfl | rfl := hn <;> rfl
    · rw [tcpChangeState_size]
      exact (hf.queues hq).size
  | finTried _ hq => exact hf.queues hq
  | resize tx rx' hs ht =>
    refine flight_silent ?_ ?_
    · show c.state.sending = false
      rw [hs]; rfl
    · obtain ht | ht := ht
      · exact ht.le.trans hf.size
      · exact ht
  | restart hs h =>
    refine flight_silent ?_ (by rw [h.size]; exact hf.size)
    rw [congrArg (·.state) h.ctl, hs]; rfl
  | synTried _ hq => exact hf.queues hq
  | @synSent c1 c2 item _ _ h _ hq =>
    have h1 : Flight { c1 with state := .SYN_SENT } := by
      refine ⟨by rw [h.size]; exact hf.size, fun _ => ?_⟩
      show (c1.sndNxt - c1.sndUna).toNat ≤ c1.txBufferSize + 1
      rw [h.una, h.nxt]
      have hone : (c1.iss + 1 - c1.iss).toNat = 1 := by bv_omega
      omega
    have hcore := hq.core
    have hsnd := tcpChangeState_snd c2 .SYN_SENT
    refine h1.same ?_ ?_ ?_ (fun _ => rfl)
    · exact (tcpChangeState_size c2 _).trans (congrArg (·.txBufferSize) hcore)
    · exact (congrArg (·.sndNxt) hsnd).trans (congrArg (·.sndNxt) hcore)
    · exact (congrArg (·.sndUna) hsnd).trans (congrArg (·.sndUna) hcore)
  | _ => exact hf.same rfl rfl rfl fun h => h

theorem acts_flight (ha : Acts rx c c') (hf : Flight c) : Flight c' :=
  Run.chain_inv ha hf fun _ _ h hc => h.flight hc

/-! ## Sections -/

/-- The buffers of the sockets stay as large as they were, and those of a new socket are as large
as those of the socket that listens. -/
theorem acceptOpen_size (socket : Socket) (item : TcpSynQueueItem) (c : Ctx) :
    (acceptOpen socket item c).1.txBufferSize = socket.txBufferSize := by
  have hcase := acceptOpen_cases socket item c
  generalize acceptOpen socket item c = r at hcase
  obtain ⟨c1, e⟩ := r
  show c1.kernel.txBufferSize = socket.txBufferSize
  generalize c1.kernel = k at hcase
  cases hcase <;> rfl

/-- The SYN of an accepted connection is in flight. -/
theorem acceptOpen_flight {socket : Socket} {item : TcpSynQueueItem}
    (ho : acceptOpen socket item c = (c', .NO_ERROR)) : (c'.sndNxt - c'.sndUna).toNat = 1 := by
  have hcase := acceptOpen_cases socket item c
  rw [ho] at hcase
  show (c'.kernel.sndNxt - c'.kernel.sndUna).toNat = 1
  generalize c'.kernel = k at hcase
  have hone : ∀ iss : Word, (iss + 1 - iss).toNat = 1 := fun iss => by bv_omega
  cases hcase with
  | starved he => exact absurd rfl he
  | unsent he => exact absurd rfl he
  | @answered id tx rx iss => exact hone iss

theorem flight_abort (hsize : c.txBufferSize ≤ TCP_MAX_TX_BUFFER_SIZE) :
    Flight (tcpAbort c).1 := by
  have hclose : ∀ c1 : Ctx, c1.txBufferSize ≤ TCP_MAX_TX_BUFFER_SIZE →
      Flight (closeSocket c1) := by
    intro c1 hs
    have h2 : Flight (tcpChangeState c1 .CLOSED) := by
      refine flight_silent (by rw [tcpChangeState_state]; rfl) ?_
      rw [tcpChangeState_size]; exact hs
    exact h2.release.same rfl rfl rfl fun h => h
  unfold tcpAbort
  split
  case h_6 hs => exact flight_silent (by rw [hs]; rfl) hsize
  case h_7 => exact hclose c hsize
  all_goals
    refine hclose _ ?_
    rw [congrArg (·.txBufferSize) (quiet_bare c _ _ _ _).core]
    exact hsize

theorem flight_section {s : Section} (hf : Flight c)
    (hcall : ∀ api call, s = .resume api call → call.sound)
    (hanswer : ∀ socket item, s = .answer socket item →
      socket.txBufferSize ≤ TCP_MAX_TX_BUFFER_SIZE) : Flight (sectionRun c s) := by
  cases s with
  | net e => exact acts_flight (settles_netStep c e).acts hf
  | start api req => exact acts_flight (settles_start api c req).acts hf
  | resume api call =>
    exact acts_flight (settles_resumeCall api c call (hcall api call rfl) : Settles none c _).acts hf
  | close => exact acts_flight (settles_socketClose c : Settles none c _).acts hf
  | kill => exact acts_flight (settles_closeSocket c : Settles none c _).acts hf
  | «opened» api type protocol localPort =>
    cases api
    · exact flight_silent rfl (Nat.min_le_right _ _)
    · exact flight_silent rfl (by show TCP_DEFAULT_TX_BUFFER_SIZE ≤ TCP_MAX_TX_BUFFER_SIZE; decide)
  | popSyn update => cases update <;> exact hf.same rfl rfl rfl fun h => h
  | answer socket item =>
    have hsize := acceptOpen_size socket item c
    have hle := hanswer socket item rfl
    show Flight (answerSection socket item c)
    unfold answerSection
    split
    · rename_i c1 ho
      rw [ho] at hsize
      have hsize1 : c1.txBufferSize = socket.txBufferSize := hsize
      have h1 : Flight { c1 with state := .SYN_RECEIVED } := by
        refine ⟨hsize1.le.trans hle, fun _ => ?_⟩
        show (c1.sndNxt - c1.sndUna).toNat ≤ c1.txBufferSize + 1
        rw [acceptOpen_flight ho]
        omega
      have hsnd := tcpChangeState_snd c1 .SYN_RECEIVED
      exact h1.same (tcpChangeState_size c1 _) (congrArg (·.sndNxt) hsnd)
        (congrArg (·.sndUna) hsnd) (fun _ => rfl)
    · rename_i c1 e _ ho
      rw [ho] at hsize
      exact flight_abort (hsize.le.trans hle)
  | _ => exact hf.same rfl rfl rfl fun h => h

/-! ## Runs -/

variable {ok : Host n → HostEvent n → Prop}

theorem flight_reach (hr : Reach hostStep ok (socketInit n) h) (i : Fin n) :
    Flight (h.table i).ctx := by
  refine entry_inv (P := Flight) hr ?_ ?_ i
  · intro c hc _
    have hs : c.state = .CLOSED := congrArg (·.state) hc
    have hsize : c.txBufferSize = 0 := congrArg (·.txBufferSize) hc
    exact flight_silent (by rw [hs]; rfl) (by rw [hsize]; exact Nat.zero_le _)
  · intro h e i c s hall _ hal hf
    refine flight_section hf ?_ ?_
    · rintro api call rfl
      exact hal.2.1
    · rintro socket item rfl
      obtain ⟨a, -, -, rfl⟩ := hal
      exact (hall a.socket).size

end Cyclone
