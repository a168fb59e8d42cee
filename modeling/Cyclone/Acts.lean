import Cyclone.Frames

/-!
# Cyclone.Acts

The stack functions as chains of acts on a whole context. The kernel steps leave the windows of the
peer, the timers and the events open; an `Act` tells what happens to these, and what a segment that
enters the retransmission queue looks like.

* `Acts rx c c'`: a chain of acts. Every part of the stack is one.
* `Settles rx c c'`: a chain after which the event flags are up to date if they were before.
-/

namespace Cyclone

open Serial Relation

variable {rx : Option Packet} {c c' c'' c1 : Ctx} {p : Packet}

/-! ## Events that are up to date -/

/-- The link events, which depend on the interface. -/
def linkBits : SocketEvent := SOCKET_EVENT_LINK_UP ||| SOCKET_EVENT_LINK_DOWN

/-- The events `tcpUpdateEvents` computes, the link events left out. -/
def socketEvents (s : Socket) : SocketEvent :=
  (stateEvents s.state ||| txEvents s ||| rxEvents s) &&& s.eventMask

/-- The flags are those `tcpUpdateEvents` would compute, and when there are any the event object
has been set since its last reset. -/
structure Fresh (c : Ctx) : Prop where
  flags : c.eventFlags &&& ~~~linkBits = socketEvents c.toSocket &&& ~~~linkBits
  event : c.eventFlags ≠ 0 → c.event = true

theorem fresh_tcpUpdateEvents (c : Ctx) : Fresh (tcpUpdateEvents c) := by
  constructor
  · have hlink : linkEvents c.linkState c.interface &&& ~~~linkBits = 0#10 := by
      unfold linkEvents
      repeat' split
      all_goals decide
    show ((stateEvents c.state ||| txEvents c.toSocket ||| rxEvents c.toSocket |||
      linkEvents c.linkState c.interface) &&& c.eventMask) &&& ~~~linkBits =
      ((stateEvents c.state ||| txEvents c.toSocket ||| rxEvents c.toSocket) &&& c.eventMask) &&&
        ~~~linkBits
    rw [BitVec.and_assoc, BitVec.and_comm c.eventMask, ← BitVec.and_assoc,
      BitVec.and_or_distrib_right, hlink, BitVec.or_zero, BitVec.and_assoc,
      BitVec.and_comm (~~~linkBits), ← BitVec.and_assoc]
  · intro h
    exact if_pos h

/-- Outside LISTEN the events are up to date; `sndUser` is a 16-bit field. -/
structure Waked (c : Ctx) : Prop where
  user : c.sndUser < 65536
  fresh : c.state ≠ .LISTEN → Fresh c

/-- Nothing the events are computed from has changed. -/
structure SameEvents (c c' : Ctx) : Prop where
  user : c.sndUser < 65536 → c'.sndUser < 65536
  state : c'.state = c.state
  events : c'.toSockEvents = c.toSockEvents
  tx : c.state ≠ .LISTEN → txEvents c'.toSocket = txEvents c.toSocket
  rx : c.state ≠ .LISTEN → rxEvents c'.toSocket = rxEvents c.toSocket

theorem SameEvents.trans (h : SameEvents c c') (h' : SameEvents c' c'') : SameEvents c c'' := by
  refine ⟨h'.user ∘ h.user, h'.state.trans h.state, h'.events.trans h.events, fun hs => ?_,
    fun hs => ?_⟩
  · exact (h'.tx (by rw [h.state]; exact hs)).trans (h.tx hs)
  · exact (h'.rx (by rw [h.state]; exact hs)).trans (h.rx hs)

theorem SameEvents.waked (h : SameEvents c c') (hw : Waked c) : Waked c' := by
  refine ⟨h.user hw.user, fun hs => ?_⟩
  rw [h.state] at hs
  obtain ⟨hf, he⟩ := hw.fresh hs
  have hmask : c'.eventMask = c.eventMask := congrArg (·.eventMask) h.events
  have hflags : c'.eventFlags = c.eventFlags := congrArg (·.eventFlags) h.events
  have hevent : c'.event = c.event := congrArg (·.event) h.events
  constructor
  · rw [hflags, hf, socketEvents, socketEvents, h.state, h.tx hs, h.rx hs, hmask]
  · rw [hflags, hevent]; exact he

/-! ## Quiet steps -/

/-- Nothing changes but the log, the surroundings, the estimators and the timers that no act is
about. -/
structure Quiet (c c' : Ctx) : Prop where
  core : c'.toSockCore = c.toSockCore
  events : c'.toSockEvents = c.toSockEvents
  mss : c'.toMssVars = c.toMssVars
  wnd : c'.toWndVars = c.toWndVars
  running : c'.retransmitTimer.running = c.retransmitTimer.running
  persist : c'.persistTimer = c.persistTimer

namespace Quiet

theorem refl (c : Ctx) : Quiet c c := ⟨rfl, rfl, rfl, rfl, rfl, rfl⟩

theorem trans (h : Quiet c c') (h' : Quiet c' c'') : Quiet c c'' :=
  ⟨h'.core.trans h.core, h'.events.trans h.events, h'.mss.trans h.mss, h'.wnd.trans h.wnd,
    h'.running.trans h.running, h'.persist.trans h.persist⟩

theorem state (h : Quiet c c') : c'.state = c.state := congrArg (·.state) h.core

theorem user (h : Quiet c c') : c'.sndUser = c.sndUser := congrArg (·.sndUser) h.core

theorem sameEvents (h : Quiet c c') : SameEvents c c' := by
  have htx : txEvents c'.toSocket = txEvents c.toSocket := by
    simp only [txEvents, h.core]
  have hrx : rxEvents c'.toSocket = rxEvents c.toSocket := by
    simp only [rxEvents, h.core]
  exact ⟨fun hu => h.user ▸ hu, h.state, h.events, fun _ => htx, fun _ => hrx⟩

end Quiet

theorem OnlySends.quiet (h : OnlySends c c') : Quiet c c' := by
  obtain ⟨e, sent, rfl⟩ := h
  exact ⟨rfl, rfl, rfl, rfl, rfl, rfl⟩

theorem quiet_bare (c : Ctx) (flags : TcpFlags) (seqNum ackNum : Word) (n : Nat) :
    Quiet c (tcpSendSegment c flags seqNum ackNum n false).1 :=
  (onlySends_tcpSendSegment c flags seqNum ackNum n).quiet

/-! ## Acts -/

/-- The states in which segments may wait for their acknowledgment. -/
def TcpState.inFlight : TcpState → Bool
  | .SYN_SENT | .SYN_RECEIVED | .ESTABLISHED | .CLOSE_WAIT | .FIN_WAIT_1 | .FIN_WAIT_2
  | .CLOSING | .LAST_ACK => true
  | _ => false

/-- The handshake is under way. -/
def TcpState.opening : TcpState → Bool
  | .SYN_SENT | .SYN_RECEIVED => true
  | _ => false

/-- The step from `s` to `s'` is one in the life of a connection whose handshake is behind it, or
it ends the connection. -/
def TcpState.leadsTo (s s' : TcpState) : Bool :=
  (!s'.inFlight || s.inFlight) && (!s'.sendable || s.sendable) && (!s'.opening || s.opening) &&
    s' != .LISTEN

/-- The usable window of size `w` has room for `n` more bytes. -/
def RoomFor (s : SockCore) (w n : Nat) : Prop :=
  0 < (w32 w - (s.sndNxt - s.sndUna)).toInt ∧ n ≤ (w32 w - (s.sndNxt - s.sndUna)).toNat

/-- The queue item for the connection request `p`. -/
structure RequestOf (p : Packet) (item : TcpSynQueueItem) : Prop where
  syn : p.segment.flags.syn = true
  addrs : synAddrs p.pseudoHeader = some (item.srcAddr, item.destAddr)
  port : item.srcPort = p.segment.srcPort
  isn : item.isn = p.segment.seqNum

/-- The control block of a new connection: the windows and timers stay as they are. -/
structure Restarted (c c' : Ctx) : Prop where
  ctl : c'.toTcpCtl = c.toTcpCtl
  una : c'.sndUna = c'.iss
  nxt : c'.sndNxt = c'.iss + 1
  user : c'.sndUser = c.sndUser
  size : c'.txBufferSize = c.txBufferSize
  queues : c'.toQueueVars = c.toQueueVars
  probe : c'.toPersistVars = c.toPersistVars
  events : c'.toSockEvents = c.toSockEvents
  wnd : c'.toWndVars = c.toWndVars
  running : c'.retransmitTimer.running = c.retransmitTimer.running
  persist : c'.persistTimer = c.persistTimer

inductive Act (rx : Option Packet) : Ctx → Ctx → Prop where
  | quiet {c c' : Ctx} (h : Quiet c c') : Act rx c c'
  | update {c : Ctx} : Act rx c (tcpUpdateEvents c)
  /-- A data segment is queued, and counted unless the IP layer refused it. -/
  | data {c c1 : Ctx} {item : TcpQueueItem} {n w : Nat} (ok : Bool) (hs : c.state.sendable)
      (hu : n ≤ c.sndUser) (hm : n ≤ c.smss) (hw : w ≤ c.txBufferSize)
      (hr : RoomFor c.toSockCore w n) (hi : IsItem { psh := true, ack := true } c.sndNxt n item)
      (hq : Queues c c1 item) :
      Act rx c (if ok then { c1 with sndNxt := c1.sndNxt + w32 n, sndUser := u16Sub c1.sndUser n }
        else c1)
  /-- New data is acknowledged. -/
  | ack {c c1 : Ctx} {p : Packet} (hp : rx = some p) (hs : c.state.acking)
      (h1 : 0 < cmpSeq p.segment.ackNum c.sndUna) (h2 : cmpSeq p.segment.ackNum c.sndNxt ≤ 0)
      (hq : Quiet { c with sndUna := p.segment.ackNum } c1) :
      Act rx c (tcpUpdateRetransmitQueue c1)
  | window {c : Ctx} (segment : TcpHeader) (hs : c.state.acking) :
      Act rx c (tcpUpdateSendWindow c segment)
  /-- The receive side goes on. -/
  | rcv {c c' : Ctx} (r : RcvVars) (b : NetBuffer)
      (hq : Quiet { c with toRcvVars := r, rxBuffer := b } c') : Act rx c c'
  /-- A state is entered from a state that is as far on. -/
  | enter {c : Ctx} (s : TcpState) (hs : c.state.leadsTo s = true) : Act rx c (tcpChangeState c s)
  | listen {c : Ctx} (hu : rx = none) : Act rx c (tcpChangeState c .LISTEN)
  /-- The SYN of the peer, in SYN-SENT. -/
  | syn {c c1 : Ctx} {p : Packet} {una : Word} {smss : Nat} (hp : rx = some p)
      (hs : c.state = .SYN_SENT)
      (ha : p.segment.flags.ack = true ∧ p.segment.ackNum = c.sndNxt ∧ una = c.sndNxt ∨
        p.segment.flags.ack = false ∧ una = c.sndUna)
      (hq : Quiet { c with irs := p.segment.seqNum, rcvNxt := p.segment.seqNum + 1,
                           sndUna := una } c1) :
      Act rx c { tcpUpdateRetransmitQueue c1 with smss := smss }
  /-- The SYN is sent once more, with an acknowledgment. -/
  | crossed {c c1 : Ctx} {item : TcpQueueItem} (hs : c.state = .SYN_SENT)
      (hi : IsItem { syn := true, ack := true } c.iss 0 item) (hq : Queues c c1 item) : Act rx c c1
  /-- The handshake is complete; the segment tells the window of the peer. -/
  | established {c c1 : Ctx} {p : Packet} (hp : rx = some p)
      (hs : c.state = .SYN_SENT ∨ c.state = .SYN_RECEIVED)
      (hq : Quiet { c with sndWnd := p.segment.window, sndWl1 := p.segment.seqNum,
                           sndWl2 := p.segment.ackNum, maxSndWnd := p.segment.window } c1) :
      Act rx c (tcpChangeState c1 .ESTABLISHED)
  | release {c : Ctx} (hs : c.state.inFlight = false) : Act rx c (tcpDeleteControlBlock c)
  | timeWait {c c1 : Ctx} (hq : Quiet (tcpDeleteControlBlock c) c1) :
      Act rx c (tcpChangeState c1 .TIME_WAIT)
  | id {c : Ctx} (id : SockId) : Act rx c { c with toSockId := id }
  | queueSyn {c c' : Ctx} {p : Packet} {item : TcpSynQueueItem} (hp : rx = some p)
      (hs : c.state = .LISTEN) (hi : RequestOf p item)
      (hq : Quiet { c with synQueue := c.synQueue ++ [item] } c') : Act rx c c'
  /-- The retransmission timer starts again, or stops in CLOSED. -/
  | retransmitTimer {c : Ctx} (timer : TcpTimer)
      (h : timer.running = true ∧ c.retransmitQueue ≠ [] ∨ c.state = .CLOSED) :
      Act rx c { c with retransmitTimer := timer }
  /-- A zero window probe was sent; the next one is due after `interval`. -/
  | probe {c : Ctx} (interval : Word) (timer : TcpTimer) (hr : timer.running = true)
      (hi : interval = if c.wndProbeInterval * 2 < TCP_MAX_PROBE_INTERVAL then
        c.wndProbeInterval * 2 else TCP_MAX_PROBE_INTERVAL) :
      Act rx c { c with wndProbeInterval := interval, persistTimer := timer }
  /-- The user's data is stored. -/
  | write {c c' : Ctx} (b : NetBuffer) (n : Nat) (hs : c.state.sendable) (hn : n < 65536)
      (hq : Quiet { c with txBuffer := b, sndUser := n } c') : Act rx c c'
  | wait {c : Ctx} (mask : SocketEvent) (hu : rx = none) : Act rx c (tcpWaitBegin c mask)
  /-- The FIN of the user is queued, and counted unless the IP layer refused it. -/
  | fin {c c1 : Ctx} {item : TcpQueueItem} {s : TcpState} (hs : s = .FIN_WAIT_1 ∨ s = .LAST_ACK)
      (hi : IsItem { fin := true, ack := true } c.sndNxt 0 item) (hq : Queues c c1 item) :
      Act rx c (tcpChangeState { c1 with sndNxt := c1.sndNxt + 1, finSent := c1.finSent + 1 } s)
  | finTried {c c1 : Ctx} {item : TcpQueueItem}
      (hi : IsItem { fin := true, ack := true } c.sndNxt 0 item) (hq : Queues c c1 item) :
      Act rx c c1
  | owned {c : Ctx} (b : Bool) : Act rx c { c with ownedFlag := b }
  | buffers {c : Ctx} (tx rx' : NetBuffer) : Act rx c { c with txBuffer := tx, rxBuffer := rx' }
  | backlog {c : Ctx} (n : Nat) : Act rx c { c with synQueueSize := n }
  | resize {c : Ctx} (tx rx' : Nat) (hs : c.state = .CLOSED)
      (ht : tx = c.txBufferSize ∨ tx ≤ TCP_MAX_TX_BUFFER_SIZE) :
      Act rx c { c with txBufferSize := tx, rxBufferSize := rx' }
  | restart {c c' : Ctx} (hs : c.state = .CLOSED) (h : Restarted c c') : Act rx c c'
  | synTried {c c1 : Ctx} {item : TcpQueueItem} (hs : c.state = .CLOSED) (hq : Queues c c1 item) :
      Act rx c c1
  /-- The SYN of `tcpConnect` goes out. -/
  | synSent {c c1 c2 : Ctx} {item : TcpQueueItem} (hu : rx = none) (hs : c.state = .CLOSED)
      (h : Restarted c c1) (hi : IsItem { syn := true } c1.iss 0 item) (hq : Queues c1 c2 item) :
      Act rx c (tcpChangeState c2 .SYN_SENT)

theorem tcpChangeState_user (c : Ctx) (s : TcpState) :
    (tcpChangeState c s).sndUser = c.sndUser := congrArg (·.sndUser) (tcpChangeState_snd c s)

theorem tcpUpdateRetransmitQueue_user (c : Ctx) :
    (tcpUpdateRetransmitQueue c).sndUser = c.sndUser :=
  congrArg (·.sndUser) (tcpUpdateRetransmitQueue_kernel c).1

theorem tcpDeleteControlBlock_user (c : Ctx) : (tcpDeleteControlBlock c).sndUser = c.sndUser :=
  congrArg (·.sndUser) (tcpDeleteControlBlock_kernel c).1

theorem Queues.user {item : TcpQueueItem} (h : Queues c c' item) : c'.sndUser = c.sndUser := by
  obtain ⟨e, sent, rtt, n, timer, count, -, rfl⟩ := h
  rfl

theorem tcpUpdateSendWindow_snd (c : Ctx) (segment : TcpHeader) :
    (tcpUpdateSendWindow c segment).toSndVars = c.toSndVars := by
  simp only [tcpUpdateSendWindow]
  repeat' split
  all_goals rfl

theorem Act.user (h : Act rx c c') (hu : c.sndUser < 65536) : c'.sndUser < 65536 := by
  cases h with
  | quiet h => rw [h.user]; exact hu
  | @data c1 item n w ok _ _ _ _ _ _ hq =>
    cases ok with
    | true => exact u16_lt _
    | false =>
      show c1.sndUser < 65536
      rw [hq.user]; exact hu
  | ack _ _ _ _ hq => rw [tcpUpdateRetransmitQueue_user, hq.user]; exact hu
  | window segment => rw [congrArg (·.sndUser) (tcpUpdateSendWindow_snd c segment)]; exact hu
  | rcv _ _ hq => rw [hq.user]; exact hu
  | queueSyn _ _ _ hq => rw [hq.user]; exact hu
  | write _ n _ hn hq => rw [hq.user]; exact hn
  | wait mask =>
    unfold tcpWaitBegin
    simp only
    split <;> exact hu
  | @fin c1 item s _ _ hq =>
    rw [tcpChangeState_user]
    show c1.sndUser < 65536
    rw [hq.user]; exact hu
  | finTried _ hq => rw [hq.user]; exact hu
  | restart _ h => rw [h.user]; exact hu
  | synTried _ hq => rw [hq.user]; exact hu
  | synSent _ _ h _ hq => rw [tcpChangeState_user, hq.user, h.user]; exact hu
  | enter => rw [tcpChangeState_user]; exact hu
  | listen => rw [tcpChangeState_user]; exact hu
  | syn _ _ _ hq =>
    show (tcpUpdateRetransmitQueue _).sndUser < 65536
    rw [tcpUpdateRetransmitQueue_user, hq.user]; exact hu
  | crossed _ _ hq => rw [hq.user]; exact hu
  | established _ _ hq => rw [tcpChangeState_user, hq.user]; exact hu
  | release => rw [tcpDeleteControlBlock_user]; exact hu
  | timeWait hq => rw [tcpChangeState_user, hq.user, tcpDeleteControlBlock_user]; exact hu
  | _ => exact hu

theorem tcpUpdateRetransmitQueue_state (c : Ctx) :
    (tcpUpdateRetransmitQueue c).state = c.state :=
  congrArg (·.state) (tcpUpdateRetransmitQueue_kernel c).1

theorem tcpDeleteControlBlock_state (c : Ctx) : (tcpDeleteControlBlock c).state = c.state :=
  congrArg (·.state) (tcpDeleteControlBlock_kernel c).1

/-- The state after an act: the same, one further on, or one that a handshake, a FIN or the user
leads to. -/
theorem Act.entered (h : Act rx c c') :
    c'.state = c.state ∨ c.state.leadsTo c'.state = true ∨ rx = none ∨ c'.state = .ESTABLISHED ∨
      c'.state = .TIME_WAIT ∨ c'.state = .FIN_WAIT_1 ∨ c'.state = .LAST_ACK := by
  cases h with
  | quiet h => exact .inl h.state
  | @data c1 item n w ok _ _ _ _ _ _ hq =>
    have h1 : c1.state = c.state := congrArg (·.state) hq.core
    cases ok <;> exact .inl h1
  | ack _ _ _ _ hq => exact .inl ((tcpUpdateRetransmitQueue_state _).trans hq.state)
  | window segment hs =>
    exact .inl (does_tcpUpdateSendWindow hs segment : Does (Send none) _ _).state_eq
  | rcv _ _ hq => exact .inl hq.state
  | enter s hs => exact .inr (.inl (by rw [tcpChangeState_state]; exact hs))
  | listen hu => exact .inr (.inr (.inl hu))
  | syn _ _ _ hq => exact .inl ((tcpUpdateRetransmitQueue_state _).trans hq.state)
  | crossed _ _ hq => exact .inl (congrArg (·.state) hq.core)
  | established => exact .inr (.inr (.inr (.inl (tcpChangeState_state _ _))))
  | release => exact .inl (tcpDeleteControlBlock_state c)
  | timeWait => exact .inr (.inr (.inr (.inr (.inl (tcpChangeState_state _ _)))))
  | queueSyn _ _ _ hq => exact .inl hq.state
  | write _ _ _ _ hq => exact .inl hq.state
  | wait mask =>
    have h1 : (tcpWaitBegin c mask).state = c.state := by
      unfold tcpWaitBegin
      simp only
      split <;> rfl
    exact .inl h1
  | fin hn =>
    rw [tcpChangeState_state]
    obtain rfl | rfl := hn
    · exact .inr (.inr (.inr (.inr (.inr (.inl rfl)))))
    · exact .inr (.inr (.inr (.inr (.inr (.inr rfl)))))
  | finTried _ hq => exact .inl (congrArg (·.state) hq.core)
  | restart _ h => exact .inl (congrArg (·.state) h.ctl)
  | synTried _ hq => exact .inl (congrArg (·.state) hq.core)
  | synSent hu => exact .inr (.inr (.inl hu))
  | _ => exact .inl rfl

/-- Segments do not lead into LISTEN. -/
theorem Act.not_listen (h : Act (some p) c c') (hs : c.state ≠ .LISTEN) : c'.state ≠ .LISTEN := by
  obtain h1 | h1 | h1 | h1 | h1 | h1 | h1 := h.entered
  · rw [h1]; exact hs
  · intro hl
    rw [hl] at h1
    simp [TcpState.leadsTo] at h1
  · cases h1
  all_goals rw [h1]; nofun

/-- Segments do not lead back into the handshake. -/
theorem Act.not_opening (h : Act (some p) c c') (hs : c.state.opening = false) :
    c'.state.opening = false := by
  obtain h1 | h1 | h1 | h1 | h1 | h1 | h1 := h.entered
  · rw [h1]; exact hs
  · by_contra ho
    simp only [Bool.not_eq_false] at ho
    simp [TcpState.leadsTo, hs, ho] at h1
  · cases h1
  all_goals rw [h1]; rfl

abbrev Acts (rx : Option Packet) : Ctx → Ctx → Prop := ReflTransGen (Act rx)

theorem acts_user (h : Acts rx c c') (hu : c.sndUser < 65536) : c'.sndUser < 65536 :=
  Run.chain_inv (P := fun c => c.sndUser < 65536) h hu fun _ _ ha hc => ha.user hc

/-- A chain of acts that keeps the events up to date. -/
structure Settles (rx : Option Packet) (c c' : Ctx) : Prop where
  acts : Acts rx c c'
  waked : Waked c → Waked c'

namespace Settles

theorem refl (c : Ctx) : Settles rx c c := ⟨.refl, id⟩

theorem trans (h : Settles rx c c') (h' : Settles rx c' c'') : Settles rx c c'' :=
  ⟨h.acts.trans h'.acts, h'.waked ∘ h.waked⟩

/-- The chain ends with a call of `tcpUpdateEvents`. -/
theorem update (h : Acts rx c c') : Settles rx c (tcpUpdateEvents c') := by
  refine ⟨h.tail .update, fun hw => ⟨?_, fun _ => fresh_tcpUpdateEvents _⟩⟩
  have hu := acts_user h hw.user
  exact hu

/-- The chain ends with a call of `tcpChangeState`. -/
theorem change {s : TcpState} (h : Acts rx c c1) (ha : Act rx c1 (tcpChangeState c' s)) :
    Settles rx c (tcpChangeState c' s) := by
  refine ⟨h.tail ha, fun hw => ⟨?_, fun _ => fresh_tcpUpdateEvents _⟩⟩
  have hu := acts_user (h.tail ha) hw.user
  exact hu

end Settles

theorem Quiet.settles (h : Quiet c c') : Settles rx c c' :=
  ⟨.single (.quiet h), h.sameEvents.waked⟩

theorem settles_enter (h : Acts rx c c1) {s : TcpState} (hs : c1.state.leadsTo s = true) :
    Settles rx c (tcpChangeState c1 s) :=
  .change h (.enter s hs)

theorem settles_close (c : Ctx) : Settles rx c (tcpChangeState c .CLOSED) :=
  settles_enter .refl (by cases c.state <;> rfl)

end Cyclone
