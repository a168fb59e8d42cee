/-!
# Cyclone.PppFsm

The PPP automaton (`ppp_fsm.c`), over any context.

* `PppFsmRef`, `PppCallbacks`: the two arguments of the events, the automaton inside the context and
  the table of its actions.
* `pppUpEvent` to `pppRcvEchoReqEvent`: the events.
* `Keeps`: a relation that the actions keep is kept by the events.
-/

namespace Cyclone

def PPP_MAX_CONFIGURE : Nat := 10
def PPP_MAX_TERMINATE : Nat := 2

inductive PppState where
  | INITIAL | STARTING | CLOSED | STOPPED | CLOSING | STOPPING | REQ_SENT | ACK_RCVD | ACK_SENT
  | OPENED
  deriving DecidableEq, Repr

/-- The `code` argument of `pppRcvConfigureReqEvent`. -/
inductive ConfigureCode where
  | CONFIGURE_ACK | CONFIGURE_NAK | CONFIGURE_REJ
  deriving DecidableEq, Repr

/-- A pointer to the automaton of a layer. -/
structure PppFsmRef (σ : Type) where
  state : σ → PppState
  /-- `pppChangeState`. -/
  change : σ → PppState → σ
  restartCounter : σ → Nat

/-- The table of the actions of a layer. -/
structure PppCallbacks (σ : Type) where
  thisLayerUp : σ → σ
  thisLayerDown : σ → σ
  thisLayerStarted : σ → σ
  thisLayerFinished : σ → σ
  initRestartCount : σ → Nat → σ
  zeroRestartCount : σ → σ
  sendConfigureReq : σ → σ
  /-- `sendConfigureAck`, `sendConfigureNak` and `sendConfigureRej`. -/
  sendConfigure : ConfigureCode → σ → List UInt8 → σ
  sendTerminateReq : σ → σ
  sendTerminateAck : σ → Option (List UInt8) → σ
  sendCodeRej : σ → List UInt8 → σ
  sendEchoRep : σ → List UInt8 → σ

section Events

variable {σ : Type} (fsm : PppFsmRef σ) (callbacks : PppCallbacks σ)

def pppUpEvent (context : σ) : σ :=
  match fsm.state context with
  | .INITIAL => fsm.change context .CLOSED
  | .STARTING =>
    let context := callbacks.initRestartCount context PPP_MAX_CONFIGURE
    let context := callbacks.sendConfigureReq context
    fsm.change context .REQ_SENT
  | _ => context

def pppDownEvent (context : σ) : σ :=
  match fsm.state context with
  | .CLOSED | .CLOSING => fsm.change context .INITIAL
  | .STOPPED => callbacks.thisLayerStarted (fsm.change context .STARTING)
  | .STOPPING | .REQ_SENT | .ACK_RCVD | .ACK_SENT => fsm.change context .STARTING
  | .OPENED => callbacks.thisLayerDown (fsm.change context .STARTING)
  | _ => context

def pppOpenEvent (context : σ) : σ :=
  match fsm.state context with
  | .INITIAL => callbacks.thisLayerStarted (fsm.change context .STARTING)
  | .CLOSED =>
    let context := callbacks.initRestartCount context PPP_MAX_CONFIGURE
    let context := callbacks.sendConfigureReq context
    fsm.change context .REQ_SENT
  | .CLOSING => fsm.change context .STOPPING
  | _ => context

def pppCloseEvent (context : σ) : σ :=
  match fsm.state context with
  | .STARTING => callbacks.thisLayerFinished (fsm.change context .INITIAL)
  | .STOPPED => fsm.change context .CLOSED
  | .STOPPING => fsm.change context .CLOSING
  | .REQ_SENT | .ACK_RCVD | .ACK_SENT =>
    let context := callbacks.initRestartCount context PPP_MAX_TERMINATE
    let context := callbacks.sendTerminateReq context
    fsm.change context .CLOSING
  | .OPENED =>
    let context := callbacks.initRestartCount context PPP_MAX_TERMINATE
    let context := callbacks.sendTerminateReq context
    callbacks.thisLayerDown (fsm.change context .CLOSING)
  | _ => context

def pppTimeoutEvent (context : σ) : σ :=
  if fsm.restartCounter context > 0 then
    -- TO+ event
    match fsm.state context with
    | .CLOSING | .STOPPING => callbacks.sendTerminateReq context
    | .REQ_SENT | .ACK_RCVD => fsm.change (callbacks.sendConfigureReq context) .REQ_SENT
    | .ACK_SENT => callbacks.sendConfigureReq context
    | _ => context
  else
    -- TO- event
    match fsm.state context with
    | .CLOSING => callbacks.thisLayerFinished (fsm.change context .CLOSED)
    | .STOPPING | .REQ_SENT | .ACK_RCVD | .ACK_SENT =>
      callbacks.thisLayerFinished (fsm.change context .STOPPED)
    | _ => context

def pppRcvConfigureReqEvent (context : σ) (packet : List UInt8) (code : ConfigureCode) : σ :=
  match fsm.state context with
  | .CLOSED => callbacks.sendTerminateAck context none
  | .STOPPED =>
    let context := callbacks.initRestartCount context PPP_MAX_CONFIGURE
    let context := callbacks.sendConfigureReq context
    let context := callbacks.sendConfigure code context packet
    fsm.change context (if code = .CONFIGURE_ACK then .ACK_SENT else .REQ_SENT)
  | .REQ_SENT =>
    let context := callbacks.sendConfigure code context packet
    if code = .CONFIGURE_ACK then fsm.change context .ACK_SENT else context
  | .ACK_RCVD =>
    let context := callbacks.sendConfigure code context packet
    if code = .CONFIGURE_ACK then callbacks.thisLayerUp (fsm.change context .OPENED) else context
  | .ACK_SENT =>
    let context := callbacks.sendConfigure code context packet
    if code = .CONFIGURE_ACK then context else fsm.change context .REQ_SENT
  | .OPENED =>
    let context := callbacks.sendConfigureReq context
    let context := callbacks.sendConfigure code context packet
    callbacks.thisLayerDown
      (fsm.change context (if code = .CONFIGURE_ACK then .ACK_SENT else .REQ_SENT))
  | _ => context

def pppRcvConfigureAckEvent (context : σ) : σ :=
  match fsm.state context with
  | .CLOSED | .STOPPED => callbacks.sendTerminateAck context none
  | .REQ_SENT => fsm.change (callbacks.initRestartCount context PPP_MAX_CONFIGURE) .ACK_RCVD
  | .ACK_RCVD => fsm.change (callbacks.sendConfigureReq context) .REQ_SENT
  | .ACK_SENT =>
    let context := callbacks.initRestartCount context PPP_MAX_CONFIGURE
    callbacks.thisLayerUp (fsm.change context .OPENED)
  | .OPENED =>
    let context := callbacks.sendConfigureReq context
    callbacks.thisLayerDown (fsm.change context .REQ_SENT)
  | _ => context

def pppRcvConfigureNakEvent (context : σ) : σ :=
  match fsm.state context with
  | .CLOSED | .STOPPED => callbacks.sendTerminateAck context none
  | .REQ_SENT | .ACK_SENT =>
    callbacks.sendConfigureReq (callbacks.initRestartCount context PPP_MAX_CONFIGURE)
  | .ACK_RCVD => fsm.change (callbacks.sendConfigureReq context) .REQ_SENT
  | .OPENED =>
    let context := callbacks.sendConfigureReq context
    callbacks.thisLayerDown (fsm.change context .REQ_SENT)
  | _ => context

def pppRcvTerminateReqEvent (context : σ) (packet : List UInt8) : σ :=
  match fsm.state context with
  | .CLOSED | .STOPPED | .CLOSING | .STOPPING => callbacks.sendTerminateAck context (some packet)
  | .REQ_SENT | .ACK_RCVD | .ACK_SENT =>
    fsm.change (callbacks.sendTerminateAck context (some packet)) .REQ_SENT
  | .OPENED =>
    let context := callbacks.zeroRestartCount context
    let context := callbacks.sendTerminateAck context (some packet)
    callbacks.thisLayerDown (fsm.change context .STOPPING)
  | _ => context

def pppRcvTerminateAckEvent (context : σ) : σ :=
  match fsm.state context with
  | .CLOSING => callbacks.thisLayerFinished (fsm.change context .CLOSED)
  | .STOPPING => callbacks.thisLayerFinished (fsm.change context .STOPPED)
  | .REQ_SENT | .ACK_RCVD => fsm.change context .REQ_SENT
  | .OPENED =>
    let context := callbacks.sendConfigureReq context
    callbacks.thisLayerDown (fsm.change context .REQ_SENT)
  | _ => context

def pppRcvUnknownCodeEvent (context : σ) (packet : List UInt8) : σ :=
  match fsm.state context with
  | .INITIAL | .STARTING => context
  | _ => callbacks.sendCodeRej context packet

def pppRcvCodeRejEvent (context : σ) (acceptable : Bool) : σ :=
  if acceptable then
    -- RXJ+ event
    match fsm.state context with
    | .ACK_RCVD => fsm.change context .REQ_SENT
    | _ => context
  else
    -- RXJ- event
    match fsm.state context with
    | .CLOSED | .STOPPED => callbacks.thisLayerFinished context
    | .CLOSING => callbacks.thisLayerFinished (fsm.change context .CLOSED)
    | .STOPPING | .REQ_SENT | .ACK_RCVD | .ACK_SENT =>
      callbacks.thisLayerFinished (fsm.change context .STOPPED)
    | .OPENED =>
      let context := callbacks.initRestartCount context PPP_MAX_TERMINATE
      let context := callbacks.sendTerminateReq context
      callbacks.thisLayerDown (fsm.change context .STOPPING)
    | _ => context

def pppRcvEchoReqEvent (context : σ) (packet : List UInt8) : σ :=
  match fsm.state context with
  | .OPENED => callbacks.sendEchoRep context packet
  | _ => context

end Events

/-! ## What the events keep -/

/-- The peer has acknowledged the last request. -/
def PppState.Agreed (s : PppState) : Prop := s = .ACK_RCVD ∨ s = .OPENED

instance (s : PppState) : Decidable s.Agreed := inferInstanceAs (Decidable (_ ∨ _))

/-- Every action is in `Q`, and so is a change of state by which the peer has not acknowledged
more than before. -/
structure Keeps {σ : Type} (fsm : PppFsmRef σ) (callbacks : PppCallbacks σ) (Q : σ → σ → Prop) :
    Prop where
  refl (c : σ) : Q c c
  trans {a b c : σ} : Q a b → Q b c → Q a c
  change {c m : σ} (q : Q c m) (t : PppState) (ht : t.Agreed → (fsm.state c).Agreed) :
    Q c (fsm.change m t)
  thisLayerUp (c : σ) : Q c (callbacks.thisLayerUp c)
  thisLayerDown (c : σ) : Q c (callbacks.thisLayerDown c)
  thisLayerStarted (c : σ) : Q c (callbacks.thisLayerStarted c)
  thisLayerFinished (c : σ) : Q c (callbacks.thisLayerFinished c)
  initRestartCount (c : σ) (n : Nat) : Q c (callbacks.initRestartCount c n)
  zeroRestartCount (c : σ) : Q c (callbacks.zeroRestartCount c)
  sendConfigureReq (c : σ) : Q c (callbacks.sendConfigureReq c)
  sendConfigure (code : ConfigureCode) (c : σ) (p : List UInt8) :
    Q c (callbacks.sendConfigure code c p)
  sendTerminateReq (c : σ) : Q c (callbacks.sendTerminateReq c)
  sendTerminateAck (c : σ) (p : Option (List UInt8)) : Q c (callbacks.sendTerminateAck c p)
  sendCodeRej (c : σ) (p : List UInt8) : Q c (callbacks.sendCodeRej c p)
  sendEchoRep (c : σ) (p : List UInt8) : Q c (callbacks.sendEchoRep c p)

section Keeps

variable {σ : Type} {fsm : PppFsmRef σ} {callbacks : PppCallbacks σ} {Q : σ → σ → Prop}

/-- A change to a state in which the peer has acknowledged nothing. -/
theorem Keeps.to (k : Keeps fsm callbacks Q) {c m : σ} (q : Q c m) (t : PppState)
    (ht : ¬t.Agreed) : Q c (fsm.change m t) :=
  k.change q t fun h => absurd h ht

theorem keeps_pppUpEvent (k : Keeps fsm callbacks Q) (c : σ) :
    Q c (pppUpEvent fsm callbacks c) := by
  unfold pppUpEvent
  cases hs : fsm.state c
  case INITIAL => exact k.to (k.refl c) _ (by decide)
  case STARTING =>
    have asked := k.trans (k.initRestartCount c PPP_MAX_CONFIGURE) (k.sendConfigureReq _)
    exact k.to asked _ (by decide)
  all_goals exact k.refl c

theorem keeps_pppDownEvent (k : Keeps fsm callbacks Q) (c : σ) :
    Q c (pppDownEvent fsm callbacks c) := by
  unfold pppDownEvent
  cases hs : fsm.state c
  case STOPPED => exact k.trans (k.to (k.refl c) _ (by decide)) (k.thisLayerStarted _)
  case OPENED => exact k.trans (k.to (k.refl c) _ (by decide)) (k.thisLayerDown _)
  case INITIAL => exact k.refl c
  case STARTING => exact k.refl c
  all_goals exact k.to (k.refl c) _ (by decide)

theorem keeps_pppOpenEvent (k : Keeps fsm callbacks Q) (c : σ) :
    Q c (pppOpenEvent fsm callbacks c) := by
  unfold pppOpenEvent
  cases hs : fsm.state c
  case INITIAL => exact k.trans (k.to (k.refl c) _ (by decide)) (k.thisLayerStarted _)
  case CLOSED =>
    have asked := k.trans (k.initRestartCount c PPP_MAX_CONFIGURE) (k.sendConfigureReq _)
    exact k.to asked _ (by decide)
  case CLOSING => exact k.to (k.refl c) _ (by decide)
  all_goals exact k.refl c

theorem keeps_pppCloseEvent (k : Keeps fsm callbacks Q) (c : σ) :
    Q c (pppCloseEvent fsm callbacks c) := by
  unfold pppCloseEvent
  have sent := k.trans (k.initRestartCount c PPP_MAX_TERMINATE) (k.sendTerminateReq _)
  cases hs : fsm.state c
  case STARTING => exact k.trans (k.to (k.refl c) _ (by decide)) (k.thisLayerFinished _)
  case STOPPED => exact k.to (k.refl c) _ (by decide)
  case STOPPING => exact k.to (k.refl c) _ (by decide)
  case REQ_SENT => exact k.to sent _ (by decide)
  case ACK_RCVD => exact k.to sent _ (by decide)
  case ACK_SENT => exact k.to sent _ (by decide)
  case OPENED => exact k.trans (k.to sent _ (by decide)) (k.thisLayerDown _)
  all_goals exact k.refl c

theorem keeps_pppTimeoutEvent (k : Keeps fsm callbacks Q) (c : σ) :
    Q c (pppTimeoutEvent fsm callbacks c) := by
  unfold pppTimeoutEvent
  split
  · cases hs : fsm.state c
    case CLOSING => exact k.sendTerminateReq c
    case STOPPING => exact k.sendTerminateReq c
    case REQ_SENT => exact k.to (k.sendConfigureReq c) _ (by decide)
    case ACK_RCVD => exact k.to (k.sendConfigureReq c) _ (by decide)
    case ACK_SENT => exact k.sendConfigureReq c
    all_goals exact k.refl c
  · have finished := fun t ht => k.trans (k.to (k.refl c) t ht) (k.thisLayerFinished _)
    cases hs : fsm.state c
    case CLOSING => exact finished _ (by decide)
    case STOPPING => exact finished _ (by decide)
    case REQ_SENT => exact finished _ (by decide)
    case ACK_RCVD => exact finished _ (by decide)
    case ACK_SENT => exact finished _ (by decide)
    all_goals exact k.refl c

theorem not_agreed_answer (code : ConfigureCode) :
    ¬(if code = .CONFIGURE_ACK then PppState.ACK_SENT else .REQ_SENT).Agreed := by
  cases code <;> decide

theorem keeps_pppRcvConfigureReqEvent (k : Keeps fsm callbacks Q) (c : σ) (p : List UInt8)
    (code : ConfigureCode) : Q c (pppRcvConfigureReqEvent fsm callbacks c p code) := by
  unfold pppRcvConfigureReqEvent
  have answered := k.sendConfigure code c p
  cases hs : fsm.state c
  case CLOSED => exact k.sendTerminateAck c none
  case STOPPED =>
    have asked := k.trans (k.initRestartCount c PPP_MAX_CONFIGURE) (k.sendConfigureReq _)
    exact k.to (k.trans asked (k.sendConfigure code _ p)) _ (not_agreed_answer code)
  case REQ_SENT =>
    dsimp only
    split
    · exact k.to answered _ (by decide)
    · exact answered
  case ACK_RCVD =>
    dsimp only
    split
    · have agreed : (fsm.state c).Agreed := .inl hs
      exact k.trans (k.change answered .OPENED fun _ => agreed) (k.thisLayerUp _)
    · exact answered
  case ACK_SENT =>
    dsimp only
    split
    · exact answered
    · exact k.to answered _ (by decide)
  case OPENED =>
    have asked := k.trans (k.sendConfigureReq c) (k.sendConfigure code _ p)
    exact k.trans (k.to asked _ (not_agreed_answer code)) (k.thisLayerDown _)
  all_goals exact k.refl c

theorem keeps_pppRcvConfigureNakEvent (k : Keeps fsm callbacks Q) (c : σ) :
    Q c (pppRcvConfigureNakEvent fsm callbacks c) := by
  unfold pppRcvConfigureNakEvent
  have again := k.trans (k.initRestartCount c PPP_MAX_CONFIGURE) (k.sendConfigureReq _)
  cases hs : fsm.state c
  case CLOSED => exact k.sendTerminateAck c none
  case STOPPED => exact k.sendTerminateAck c none
  case REQ_SENT => exact again
  case ACK_RCVD => exact k.to (k.sendConfigureReq c) _ (by decide)
  case ACK_SENT => exact again
  case OPENED => exact k.trans (k.to (k.sendConfigureReq c) _ (by decide)) (k.thisLayerDown _)
  all_goals exact k.refl c

theorem keeps_pppRcvTerminateReqEvent (k : Keeps fsm callbacks Q) (c : σ) (p : List UInt8) :
    Q c (pppRcvTerminateReqEvent fsm callbacks c p) := by
  unfold pppRcvTerminateReqEvent
  have acked := k.sendTerminateAck c (some p)
  cases hs : fsm.state c
  case INITIAL => exact k.refl c
  case STARTING => exact k.refl c
  case REQ_SENT => exact k.to acked _ (by decide)
  case ACK_RCVD => exact k.to acked _ (by decide)
  case ACK_SENT => exact k.to acked _ (by decide)
  case OPENED =>
    have stopping := k.trans (k.zeroRestartCount c) (k.sendTerminateAck _ (some p))
    exact k.trans (k.to stopping _ (by decide)) (k.thisLayerDown _)
  all_goals exact acked

theorem keeps_pppRcvTerminateAckEvent (k : Keeps fsm callbacks Q) (c : σ) :
    Q c (pppRcvTerminateAckEvent fsm callbacks c) := by
  unfold pppRcvTerminateAckEvent
  cases hs : fsm.state c
  case CLOSING => exact k.trans (k.to (k.refl c) _ (by decide)) (k.thisLayerFinished _)
  case STOPPING => exact k.trans (k.to (k.refl c) _ (by decide)) (k.thisLayerFinished _)
  case REQ_SENT => exact k.to (k.refl c) _ (by decide)
  case ACK_RCVD => exact k.to (k.refl c) _ (by decide)
  case OPENED => exact k.trans (k.to (k.sendConfigureReq c) _ (by decide)) (k.thisLayerDown _)
  all_goals exact k.refl c

theorem keeps_pppRcvUnknownCodeEvent (k : Keeps fsm callbacks Q) (c : σ) (p : List UInt8) :
    Q c (pppRcvUnknownCodeEvent fsm callbacks c p) := by
  unfold pppRcvUnknownCodeEvent
  split
  · exact k.refl c
  · exact k.refl c
  · exact k.sendCodeRej c p

theorem keeps_pppRcvCodeRejEvent (k : Keeps fsm callbacks Q) (c : σ) (acceptable : Bool) :
    Q c (pppRcvCodeRejEvent fsm callbacks c acceptable) := by
  unfold pppRcvCodeRejEvent
  have finished := fun t ht => k.trans (k.to (k.refl c) t ht) (k.thisLayerFinished _)
  cases acceptable
  case true =>
    cases hs : fsm.state c
    case ACK_RCVD => exact k.to (k.refl c) _ (by decide)
    all_goals exact k.refl c
  case false =>
    cases hs : fsm.state c
    case CLOSED => exact k.thisLayerFinished c
    case STOPPED => exact k.thisLayerFinished c
    case CLOSING => exact finished _ (by decide)
    case STOPPING => exact finished _ (by decide)
    case REQ_SENT => exact finished _ (by decide)
    case ACK_RCVD => exact finished _ (by decide)
    case ACK_SENT => exact finished _ (by decide)
    case OPENED =>
      have stopping := k.trans (k.initRestartCount c PPP_MAX_TERMINATE) (k.sendTerminateReq _)
      exact k.trans (k.to stopping _ (by decide)) (k.thisLayerDown _)
    all_goals exact k.refl c

theorem keeps_pppRcvEchoReqEvent (k : Keeps fsm callbacks Q) (c : σ) (p : List UInt8) :
    Q c (pppRcvEchoReqEvent fsm callbacks c p) := by
  unfold pppRcvEchoReqEvent
  split
  · exact k.sendEchoRep c p
  · exact k.refl c

end Keeps

end Cyclone
