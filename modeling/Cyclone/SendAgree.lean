import Cyclone.Spark
import Cyclone.Lib.DoWhile

/-!
# Cyclone.SendAgree

`Tcp_Update_Events` against `tcpUpdateEvents`, and `Tcp_Send` against `tcpSend`, waits included. The
C call moves a data pointer along and counts the bytes, the SPARK call cuts slices out of an array
whose index range starts anywhere. Both log what they do to the connection, and what a task does
while one of them sleeps is a parameter.

* `Spark.tcpUpdateEvents_eq`: the same events under every mask a SPARK socket can have.
* `sendTurn_tcpSendStep`: one turn of the C loop is the part of the call between two waits.
* `sendTurn_agree`: one turn of either loop, related by `Spark.SendVars.toC`.
* `send_agree`: the whole calls.
-/

namespace Cyclone

open Serial DoWhile

/-! ## Events -/

/-- The predicate of `Socket_Struct` on the event mask. -/
def Spark.EventMask (mask : SocketEvent) : Prop :=
  mask = SOCKET_EVENT_TIMEOUT ∨ mask = SOCKET_EVENT_CONNECTED ∨ mask = SOCKET_EVENT_CLOSED ∨
  mask = SOCKET_EVENT_TX_READY ∨ mask = SOCKET_EVENT_TX_DONE ∨ mask = SOCKET_EVENT_TX_ACKED ∨
  mask = SOCKET_EVENT_TX_SHUTDOWN ∨ mask = SOCKET_EVENT_RX_READY ∨
  mask = SOCKET_EVENT_RX_SHUTDOWN ∨ mask = SOCKET_EVENT_CONNECTED ||| SOCKET_EVENT_CLOSED

instance (mask : SocketEvent) : Decidable (Spark.EventMask mask) :=
  inferInstanceAs (Decidable (_ ∨ _))

/-- The flags `Tcp_Update_Events` collects before it masks them. Link changes are left out. -/
def Spark.raisedEvents (s : Socket) : SocketEvent :=
  let flags : SocketEvent := 0
  let flags := match s.state with
    | .ESTABLISHED | .FIN_WAIT_1 => flags ||| SOCKET_EVENT_CONNECTED
    | .FIN_WAIT_2 => flags ||| SOCKET_EVENT_CONNECTED ||| SOCKET_EVENT_TX_SHUTDOWN
    | .CLOSE_WAIT | .LAST_ACK | .CLOSING =>
      flags ||| SOCKET_EVENT_CONNECTED ||| SOCKET_EVENT_RX_SHUTDOWN
    | .TIME_WAIT | .CLOSED =>
      flags ||| SOCKET_EVENT_CLOSED ||| SOCKET_EVENT_TX_SHUTDOWN ||| SOCKET_EVENT_RX_SHUTDOWN
    | _ => flags
  let flags :=
    if s.state = .SYN_SENT ∨ s.state = .SYN_RECEIVED then
      flags ||| SOCKET_EVENT_TX_DONE ||| SOCKET_EVENT_TX_ACKED
    else if s.state = .ESTABLISHED ∨ s.state = .CLOSE_WAIT then
      let flags :=
        if (w32 s.sndUser + s.sndNxt - s.sndUna).toNat < s.txBufferSize then
          flags ||| SOCKET_EVENT_TX_READY
        else flags
      if s.sndUser = 0 then
        let flags := flags ||| SOCKET_EVENT_TX_DONE
        if (s.sndUna - s.sndNxt) &&& 0x80000000 = 0 then flags ||| SOCKET_EVENT_TX_ACKED else flags
      else flags
    else if s.state ≠ .LISTEN then
      flags ||| SOCKET_EVENT_TX_READY ||| SOCKET_EVENT_TX_DONE ||| SOCKET_EVENT_TX_ACKED
    else flags
  if s.state = .ESTABLISHED ∨ s.state = .FIN_WAIT_1 ∨ s.state = .FIN_WAIT_2 then
    if s.rcvUser > 0 then flags ||| SOCKET_EVENT_RX_READY else flags
  else if s.state = .LISTEN then
    if s.synQueue ≠ [] then flags ||| SOCKET_EVENT_RX_READY else flags
  else if s.state ≠ .SYN_SENT ∧ s.state ≠ .SYN_RECEIVED then flags ||| SOCKET_EVENT_RX_READY
  else flags

/-- `Tcp_Update_Events`. -/
def Spark.tcpUpdateEvents (c : Ctx) : Ctx :=
  let eventFlags := Spark.raisedEvents c.toSocket &&& c.eventMask
  { c with eventFlags := eventFlags, event := if eventFlags ≠ 0 then true else c.event }

/-- The bit test of the SPARK code is the sign test of the C code. -/
theorem sign_bit_clear_iff (a b : Word) : (a - b) &&& 0x80000000 = 0 ↔ cmpSeq a b ≥ 0 := by
  have hmask : (0x80000000 : Word) = BitVec.twoPow 32 31 := by decide
  have hmsb : (a - b).msb = decide (cmpSeq a b < 0) := BitVec.msb_eq_toInt
  rw [hmask, BitVec.and_twoPow]
  rw [BitVec.msb_eq_getLsbD_last] at hmsb
  rw [show 32 - 1 = 31 from rfl] at hmsb
  rw [hmsb]
  by_cases h : cmpSeq a b < 0
  · simp only [h, decide_true, if_true]
    exact ⟨fun h0 => absurd h0 (by decide), fun hge => absurd h (Int.not_lt.mpr hge)⟩
  · simp only [h, decide_false]
    exact ⟨fun _ => Int.not_lt.mp h, fun _ => rfl⟩

/-- No mask of the predicate asks for link changes. -/
theorem Spark.EventMask.link {mask : SocketEvent} (h : Spark.EventMask mask)
    (linkState : NetInterface → Bool) (interface : Option NetInterface) :
    linkEvents linkState interface &&& mask = 0 := by
  have hbits : ∀ mask, Spark.EventMask mask →
      SOCKET_EVENT_LINK_UP &&& mask = 0 ∧ SOCKET_EVENT_LINK_DOWN &&& mask = 0 := by
    intro mask h
    rcases h with rfl | rfl | rfl | rfl | rfl | rfl | rfl | rfl | rfl | rfl <;> decide
  cases interface with
  | none => exact BitVec.zero_and
  | some i =>
    simp only [linkEvents]
    split
    · exact (hbits mask h).1
    · exact (hbits mask h).2

theorem Spark.raisedEvents_eq (s : Socket) :
    Spark.raisedEvents s = stateEvents s.state ||| txEvents s ||| rxEvents s := by
  unfold Spark.raisedEvents stateEvents txEvents rxEvents
  simp only [sign_bit_clear_iff]
  cases s.state <;> simp <;> (repeat' split) <;> decide

/-- Under a mask of the predicate the two functions do the same. -/
theorem Spark.tcpUpdateEvents_eq {c : Ctx} (h : Spark.EventMask c.eventMask) :
    Spark.tcpUpdateEvents c = Cyclone.tcpUpdateEvents c := by
  have hflags : (stateEvents c.state ||| txEvents c.toSocket ||| rxEvents c.toSocket |||
      linkEvents c.linkState c.interface) &&& c.eventMask =
      Spark.raisedEvents c.toSocket &&& c.eventMask := by
    rw [Spark.raisedEvents_eq, BitVec.and_or_distrib_right, h.link]
    exact BitVec.or_zero
  unfold Spark.tcpUpdateEvents Cyclone.tcpUpdateEvents
  rw [hflags]

/-- `Tcp_Wait_For_Events`. -/
def Spark.tcpWaitForEvents (sleep : Word → Ctx → Ctx) (c : Ctx) (eventMask : SocketEvent)
    (timeout : Word) : Ctx × SocketEvent :=
  let c := Spark.tcpUpdateEvents { c with eventMask }
  let c := if c.eventFlags = 0 then sleep timeout { c with event := false } else c
  (c, c.eventFlags)

theorem Spark.tcpWaitForEvents_eq (sleep : Word → Ctx → Ctx) (c : Ctx) {eventMask : SocketEvent}
    (h : Spark.EventMask eventMask) (timeout : Word) :
    Spark.tcpWaitForEvents sleep c eventMask timeout =
      Cyclone.tcpWaitForEvents sleep c eventMask timeout := by
  unfold Spark.tcpWaitForEvents Cyclone.tcpWaitForEvents tcpWaitBegin
  rw [Spark.tcpUpdateEvents_eq (c := { c with eventMask }) h]
  generalize Cyclone.tcpUpdateEvents { c with eventMask } = c1
  by_cases h0 : c1.eventFlags = 0
  · simp only [h0, if_true]
  · simp only [h0, if_false]

/-- A mask stays in the predicate across a wait if the other parties keep it there. -/
theorem tcpWaitForEvents_eventMask {sleep : Word → Ctx → Ctx}
    (hsleep : ∀ timeout c, Spark.EventMask c.eventMask →
      Spark.EventMask (sleep timeout c).eventMask) (c : Ctx) {eventMask : SocketEvent}
    (h : Spark.EventMask eventMask) (timeout : Word) :
    Spark.EventMask (tcpWaitForEvents sleep c eventMask timeout).1.eventMask := by
  have hbegin : (tcpWaitBegin c eventMask).eventMask = eventMask := by
    unfold tcpWaitBegin
    simp only
    split <;> rfl
  unfold tcpWaitForEvents
  simp only
  split
  · exact hsleep timeout _ (by rw [hbegin]; exact h)
  · rw [hbegin]
    exact h

/-! ## The calls -/

/-- What a send call does to the connection. -/
inductive SendCall where
  | waitForEvents (eventMask : SocketEvent) (timeout : Word)
  | writeTxBuffer (seqNum : Word) (data : List UInt8)
  | setSndUser (sndUser : Nat)
  | startOverrideTimer (timeout : Word)
  | nagleAlgo (flags : SocketFlags)
  deriving DecidableEq, Repr

/-- The `n` bytes of `piece` go behind the data that waits in the transmit buffer. Each
implementation brings its own function for the events. -/
def writePiece (updateEvents : Ctx → Ctx) (c : Ctx) (piece : List UInt8) (n : Nat) :
    Ctx × List SendCall :=
  let seqNum := c.sndNxt + w32 c.sndUser
  let c := { c with
    toSockCore := { tcpWriteTxBuffer c.toSockCore seqNum piece with sndUser := u16 (c.sndUser + n) }
    accepted := c.accepted ++ piece }
  let calls : List SendCall := [.writeTxBuffer seqNum piece, .setSndUser c.sndUser]
  let c := updateEvents c
  if c.sndUser = n then
    ({ c with overrideTimer := tcpTimerStart c.toEnv TCP_OVERRIDE_TIMEOUT },
      calls ++ [.startOverrideTimer TCP_OVERRIDE_TIMEOUT])
  else (c, calls)

/-- The code of `tcpSend` and `Tcp_Send` for a state in which nothing can be written. -/
def closedError (c : Ctx) : Error :=
  match c.state with
  | .LAST_ACK | .FIN_WAIT_1 | .FIN_WAIT_2 | .CLOSING | .TIME_WAIT => .CONNECTION_CLOSING
  | _ => if c.resetFlag then .CONNECTION_RESET else .NOT_CONNECTED

namespace Sending

/-- The variables of `tcpSend`: `data` is what the data pointer points to, `written` the variable of
the caller, if there is one. -/
structure SendVars where
  ctx : Ctx
  data : List UInt8
  totalLength : Nat := 0
  written : Option Nat
  calls : List SendCall := []

def sendPiece (v : SendVars) (n : Nat) : SendVars :=
  let (c, calls) := writePiece tcpUpdateEvents v.ctx (v.data.take n) n
  let totalLength := v.totalLength + n
  { ctx := c, data := v.data.drop n, totalLength, written := v.written.map fun _ => totalLength,
    calls := v.calls ++ calls }

/-- One turn of the loop after its wait, and the code if the call returns there. -/
def sendTurn (length : Nat) (flags : SocketFlags) (event : SocketEvent) (v : SendVars) :
    SendVars × Option Error :=
  if event ≠ SOCKET_EVENT_TX_READY then (v, some .TIMEOUT)
  else
    match v.ctx.state with
    | .ESTABLISHED | .CLOSE_WAIT =>
      let n := (w32 v.ctx.sndUser + v.ctx.sndNxt - v.ctx.sndUna).toNat
      if n ≥ v.ctx.txBufferSize then (v, some .FAILURE)
      else
        let n := v.ctx.txBufferSize - n
        let n := min n (length - v.totalLength)
        let v := if n > 0 then sendPiece v n else v
        ({ v with
            ctx := (tcpNagleAlgo v.ctx flags).1
            calls := v.calls ++ [.nagleAlgo flags] }, none)
    | _ => (v, some (closedError v.ctx))

def sendBody (sleep : Nat → Word → Ctx → Ctx) (length : Nat) (flags : SocketFlags) (k : Nat)
    (v : SendVars) : SendVars × Option Error :=
  let (c, event) := tcpWaitForEvents (sleep k) v.ctx SOCKET_EVENT_TX_READY v.ctx.timeout
  sendTurn length flags event { v with
    ctx := c, calls := v.calls ++ [.waitForEvents SOCKET_EVENT_TX_READY v.ctx.timeout] }

/-- `tcpSend` behind its loop: the wait for the acknowledgment. -/
def sendAcked (sleep : Word → Ctx → Ctx) (flags : SocketFlags) (v : SendVars) : SendVars × Error :=
  if flags.has SOCKET_FLAG_WAIT_ACK then
    let (c, event) := tcpWaitForEvents sleep v.ctx SOCKET_EVENT_TX_ACKED v.ctx.timeout
    let v := { v with
      ctx := c, calls := v.calls ++ [.waitForEvents SOCKET_EVENT_TX_ACKED v.ctx.timeout] }
    if event ≠ SOCKET_EVENT_TX_ACKED then (v, .TIMEOUT)
    else if v.ctx.state ≠ .ESTABLISHED ∧ v.ctx.state ≠ .CLOSE_WAIT then (v, .NOT_CONNECTED)
    else (v, .NO_ERROR)
  else (v, .NO_ERROR)

/-- `tcpSend`. Wait number `k` of the call is filled by `sleep k`; every turn but the last writes at
least one byte, so the result is never `none`. -/
def tcpSend (sleep : Nat → Word → Ctx → Ctx) (c : Ctx) (data : List UInt8) (written : Option Nat)
    (flags : SocketFlags) : Option (SendVars × Error) :=
  let v : SendVars := { ctx := c, data, written }
  if c.state = .LISTEN then some (v, .NOT_CONNECTED)
  else
    match doWhile (sendBody sleep data.length flags) (fun v => v.totalLength < data.length)
        (data.length + 1) 0 v with
    | some (_, v, some error) => some (v, error)
    | some (k, v, none) => some (sendAcked (sleep k) flags v)
    | none => none

end Sending

namespace Spark

/-- `Buffer_Index'Last`. -/
def BUFFER_INDEX_LAST : Nat := 1024

/-- `Send_Buffer`. The indices of an array that is not empty lie in `Buffer_Index`. -/
structure SendBuffer where
  first : Nat
  bytes : List UInt8
  last_le : bytes ≠ [] → first + bytes.length ≤ BUFFER_INDEX_LAST + 1

/-- `Data (B .. E)`; `none` is a failed index check. -/
def SendBuffer.slice (data : SendBuffer) (b e : Nat) : Option (List UInt8) :=
  if data.first ≤ b ∧ e < data.first + data.bytes.length then
    some ((data.bytes.drop (b - data.first)).take (e + 1 - b))
  else none

/-- How `Tcp_Send` ends: with a code, or with `Constraint_Error`. -/
inductive Exit where
  | error (error : Error)
  | constraintError
  deriving DecidableEq, Repr

structure SendVars where
  ctx : Ctx
  totalLength : Nat := 0
  written : Nat := 0
  calls : List SendCall := []

/-- Copy `n` bytes of the array; `none` is `Constraint_Error`. -/
def sendPiece (data : SendBuffer) (v : SendVars) (n : Nat) : Option SendVars :=
  let b := data.first + v.totalLength
  let e := data.first + v.totalLength + n - 1
  match data.slice b e with
  | some piece =>
    -- the conversion to `unsigned_short`
    if n < 2 ^ 16 then
      let (c, calls) := writePiece Spark.tcpUpdateEvents v.ctx piece n
      some { v with ctx := c, calls := v.calls ++ calls }
    else none
  | none => none

def sendTurn (data : SendBuffer) (flags : SocketFlags) (event : SocketEvent) (v : SendVars) :
    SendVars × Option Exit :=
  if event ≠ SOCKET_EVENT_TX_READY then (v, some (.error .TIMEOUT))
  else
    match v.ctx.state with
    | .ESTABLISHED | .CLOSE_WAIT =>
      if (w32 v.ctx.sndUser + v.ctx.sndNxt - v.ctx.sndUna).toNat ≥ v.ctx.txBufferSize then
        (v, some (.error .FAILURE))
      else
        let n := (w32 v.ctx.sndUser + v.ctx.sndNxt - v.ctx.sndUna).toNat
        let n := v.ctx.txBufferSize - n
        let n := min n (data.bytes.length - v.totalLength)
        match if n > 0 then sendPiece data v n else some v with
        | some v =>
          let totalLength := v.totalLength + n
          ({ ctx := (tcpNagleAlgo v.ctx flags).1, totalLength, written := totalLength,
             calls := v.calls ++ [.nagleAlgo flags] }, none)
        | none => (v, some .constraintError)
    | _ => (v, some (.error (closedError v.ctx)))

def sendBody (sleep : Nat → Word → Ctx → Ctx) (data : SendBuffer) (flags : SocketFlags) (k : Nat)
    (v : SendVars) : SendVars × Option Exit :=
  let (c, event) := Spark.tcpWaitForEvents (sleep k) v.ctx SOCKET_EVENT_TX_READY v.ctx.timeout
  sendTurn data flags event { v with
    ctx := c, calls := v.calls ++ [.waitForEvents SOCKET_EVENT_TX_READY v.ctx.timeout] }

def sendAcked (sleep : Word → Ctx → Ctx) (flags : SocketFlags) (v : SendVars) : SendVars × Exit :=
  if flags.has SOCKET_FLAG_WAIT_ACK then
    let (c, event) := Spark.tcpWaitForEvents sleep v.ctx SOCKET_EVENT_TX_ACKED v.ctx.timeout
    let v := { v with
      ctx := c, calls := v.calls ++ [.waitForEvents SOCKET_EVENT_TX_ACKED v.ctx.timeout] }
    if event ≠ SOCKET_EVENT_TX_ACKED then (v, .error .TIMEOUT)
    else if v.ctx.state ≠ .ESTABLISHED ∧ v.ctx.state ≠ .CLOSE_WAIT then
      (v, .error .NOT_CONNECTED)
    else (v, .error .NO_ERROR)
  else (v, .error .NO_ERROR)

/-- `Tcp_Send`. -/
def tcpSend (sleep : Nat → Word → Ctx → Ctx) (c : Ctx) (data : SendBuffer) (flags : SocketFlags) :
    Option (SendVars × Exit) :=
  match doWhile (sendBody sleep data flags) (fun v => v.totalLength < data.bytes.length)
      (data.bytes.length + 1) 0 { ctx := c } with
  | some (_, v, some exit) => some (v, exit)
  | some (k, v, none) => some (sendAcked (sleep k) flags v)
  | none => none

end Spark

/-! ## One turn -/

/-- The part of the C call between two waits. -/
theorem sendTurn_tcpSendStep {length : Nat} {v : Sending.SendVars}
    (hlen : v.data.length = length - v.totalLength) (flags : SocketFlags) (event : SocketEvent) :
    ((Sending.sendTurn length flags event v).1.ctx, (Sending.sendTurn length flags event v).1.data,
      (Sending.sendTurn length flags event v).2) = tcpSendStep v.ctx event v.data flags := by
  have hpiece : ∀ n, n ≤ v.data.length →
      (Sending.sendPiece v n).ctx = sendWrite v.ctx (v.data.take n) := by
    intro n hn
    have htake : (v.data.take n).length = n := by
      rw [List.length_take]
      exact Nat.min_eq_left hn
    unfold Sending.sendPiece writePiece sendWrite
    simp only [htake]
    split <;> rfl
  unfold Sending.sendTurn tcpSendStep
  by_cases he : event = SOCKET_EVENT_TX_READY
  · simp only [he, ne_eq, not_true_eq_false, if_false]
    cases hs : v.ctx.state
    case ESTABLISHED | CLOSE_WAIT =>
      simp only
      split
      · rfl
      · rw [← hlen]
        split
        · simp only [hpiece _ (Nat.min_le_right _ _)]
          rfl
        · rename_i hn
          rw [Nat.le_zero.mp (Nat.not_lt.mp hn)]
          rfl
    all_goals simp only [closedError, hs]
  · simp only [he, ne_eq, not_false_eq_true, if_true]

theorem Spark.SendBuffer.slice_eq (data : Spark.SendBuffer) {total n : Nat} (hn : 0 < n)
    (hle : n ≤ data.bytes.length - total) :
    data.slice (data.first + total) (data.first + total + n - 1) =
      some ((data.bytes.drop total).take n) := by
  unfold Spark.SendBuffer.slice
  rw [if_pos (by omega)]
  have hb : data.first + total - data.first = total := by omega
  have he : data.first + total + n - 1 + 1 - (data.first + total) = n := by omega
  rw [hb, he]

theorem writePiece_eq {c : Ctx} (h : Spark.EventMask c.eventMask) (piece : List UInt8) (n : Nat) :
    writePiece Spark.tcpUpdateEvents c piece n = writePiece tcpUpdateEvents c piece n := by
  unfold writePiece
  simp only
  rw [Spark.tcpUpdateEvents_eq]
  exact h

/-- The C variables at the same point of the call. `written` is what the caller's variable held. -/
def Spark.SendVars.toC (data : List UInt8) (written : Option Nat) (v : Spark.SendVars) :
    Sending.SendVars where
  ctx := v.ctx
  data := data.drop v.totalLength
  totalLength := v.totalLength
  written := written.map fun w => if v.totalLength = 0 then w else v.totalLength
  calls := v.calls

/-- What holds of the SPARK variables between two turns. -/
structure Spark.SendVars.Inv (data : Spark.SendBuffer) (v : Spark.SendVars) : Prop where
  total_le : v.totalLength ≤ data.bytes.length
  written_eq : v.written = v.totalLength

section Turn

variable {data : Spark.SendBuffer} {written : Option Nat} {v : Spark.SendVars}
  {flags : SocketFlags}

theorem sendPiece_agree {n : Nat} (hn : 0 < n) (hle : n ≤ data.bytes.length - v.totalLength)
    (hmask : Spark.EventMask v.ctx.eventMask) :
    ∃ v', Spark.sendPiece data v n = some v' ∧ v'.totalLength = v.totalLength ∧
      Sending.sendPiece (v.toC data.bytes written) n =
        ({ v' with totalLength := v.totalLength + n }).toC data.bytes written := by
  have hlast : data.first + data.bytes.length ≤ Spark.BUFFER_INDEX_LAST + 1 := by
    refine data.last_le fun hnil => ?_
    rw [hnil, List.length_nil] at hle
    omega
  have hshort : n < 2 ^ 16 := by
    simp only [Spark.BUFFER_INDEX_LAST] at hlast
    omega
  unfold Spark.sendPiece Sending.sendPiece
  simp only [data.slice_eq hn hle, hshort, if_true, writePiece_eq hmask]
  refine ⟨_, rfl, rfl, ?_⟩
  simp only [Spark.SendVars.toC, List.drop_drop, Option.map_map, Sending.SendVars.mk.injEq,
    true_and, and_true]
  congr 1
  funext w
  simp only [Function.comp_apply]
  rw [if_neg (by omega)]

theorem sendTurn_agree (hv : v.Inv data) (hmask : Spark.EventMask v.ctx.eventMask)
    (event : SocketEvent) :
    (Sending.sendTurn data.bytes.length flags event (v.toC data.bytes written)).1 =
        (Spark.sendTurn data flags event v).1.toC data.bytes written ∧
      (Spark.sendTurn data flags event v).2 = (Sending.sendTurn data.bytes.length flags event
        (v.toC data.bytes written)).2.map Spark.Exit.error ∧
      (Spark.sendTurn data flags event v).1.Inv data := by
  have hle := hv.total_le
  unfold Sending.sendTurn Spark.sendTurn
  by_cases he : event = SOCKET_EVENT_TX_READY
  · simp only [he, ne_eq, not_true_eq_false, if_false]
    have hctx : (v.toC data.bytes written).ctx = v.ctx := rfl
    have htotal : (v.toC data.bytes written).totalLength = v.totalLength := rfl
    rw [hctx, htotal]
    cases hs : v.ctx.state
    case ESTABLISHED | CLOSE_WAIT =>
      simp only
      by_cases hfull : (w32 v.ctx.sndUser + v.ctx.sndNxt - v.ctx.sndUna).toNat ≥ v.ctx.txBufferSize
      · simp only [hfull, if_true]
        exact ⟨trivial, rfl, hv⟩
      · simp only [hfull, if_false]
        generalize hn : min (v.ctx.txBufferSize -
          (w32 v.ctx.sndUser + v.ctx.sndNxt - v.ctx.sndUna).toNat)
          (data.bytes.length - v.totalLength) = n
        have hnle : n ≤ data.bytes.length - v.totalLength := by
          rw [← hn]
          exact Nat.min_le_right _ _
        by_cases hpos : n > 0
        · obtain ⟨v', hspark, htot, hc⟩ := @sendPiece_agree data written v n hpos hnle hmask
          simp only [hpos, if_true, hspark, hc, htot]
          exact ⟨rfl, rfl, ⟨by simp only; omega, rfl⟩⟩
        · obtain rfl : n = 0 := Nat.le_zero.mp (Nat.not_lt.mp hpos)
          exact ⟨rfl, rfl, ⟨hle, rfl⟩⟩
    all_goals exact ⟨rfl, rfl, hv⟩
  · simp only [he, ne_eq, not_false_eq_true, if_true]
    exact ⟨trivial, rfl, hv⟩

/-- A turn and the wait before it. -/
theorem sendBody_agree {sleep : Nat → Word → Ctx → Ctx}
    (hsleep : ∀ k timeout c, Spark.EventMask c.eventMask →
      Spark.EventMask (sleep k timeout c).eventMask) (hv : v.Inv data) (k : Nat) :
    (Sending.sendBody sleep data.bytes.length flags k (v.toC data.bytes written)).1 =
        (Spark.sendBody sleep data flags k v).1.toC data.bytes written ∧
      (Spark.sendBody sleep data flags k v).2 = (Sending.sendBody sleep data.bytes.length flags k
        (v.toC data.bytes written)).2.map Spark.Exit.error ∧
      (Spark.sendBody sleep data flags k v).1.Inv data := by
  have hready : Spark.EventMask SOCKET_EVENT_TX_READY := by decide
  have hmask := tcpWaitForEvents_eventMask (hsleep k) v.ctx hready v.ctx.timeout
  have hwait := Spark.tcpWaitForEvents_eq (sleep k) v.ctx hready v.ctx.timeout
  let w : Spark.SendVars := { v with
    ctx := (tcpWaitForEvents (sleep k) v.ctx SOCKET_EVENT_TX_READY v.ctx.timeout).1
    calls := v.calls ++ [.waitForEvents SOCKET_EVENT_TX_READY v.ctx.timeout] }
  have hw : w.Inv data := ⟨hv.total_le, hv.written_eq⟩
  unfold Spark.sendBody
  rw [hwait]
  exact sendTurn_agree hw hmask _

/-- A turn after which the call goes on fills the room there is, or writes all that is left. -/
theorem sendTurn_total {length : Nat} {event : SocketEvent} {s s' : Sending.SendVars}
    (h : Sending.sendTurn length flags event s = (s', none)) :
    ∃ room, 0 < room ∧ s'.totalLength = s.totalLength + min room (length - s.totalLength) := by
  unfold Sending.sendTurn at h
  split at h
  · cases h
  · split at h
    case h_1 | h_2 =>
      simp only at h
      split at h
      · cases h
      · rename_i hroom
        refine ⟨s.ctx.txBufferSize - (w32 s.ctx.sndUser + s.ctx.sndNxt - s.ctx.sndUna).toNat,
          Nat.sub_pos_of_lt (Nat.not_le.mp hroom), ?_⟩
        simp only [Prod.mk.injEq, and_true] at h
        rw [← h]
        split
        · rfl
        · rename_i hn
          rw [Nat.le_zero.mp (Nat.not_lt.mp hn)]
          rfl
    case h_3 => cases h

theorem sendBody_progress (sleep : Nat → Word → Ctx → Ctx) {length k : Nat}
    {s s' : Sending.SendVars} (h : Sending.sendBody sleep length flags k s = (s', none))
    (hmore : s'.totalLength < length) : length - s'.totalLength < length - s.totalLength := by
  obtain ⟨room, hroom, htotal⟩ := sendTurn_total h
  simp only at htotal
  omega

/-- The two loops in step. -/
theorem sendLoop_agree {sleep : Nat → Word → Ctx → Ctx}
    (hsleep : ∀ k timeout c, Spark.EventMask c.eventMask →
      Spark.EventMask (sleep k timeout c).eventMask) (c : Ctx) :
    ∃ n v e, doWhile (Spark.sendBody sleep data flags)
          (fun v => v.totalLength < data.bytes.length) (data.bytes.length + 1) 0 { ctx := c } =
        some (n, v, e.map Spark.Exit.error) ∧
      doWhile (Sending.sendBody sleep data.bytes.length flags)
          (fun v => v.totalLength < data.bytes.length) (data.bytes.length + 1) 0
          { ctx := c, data := data.bytes, written } =
        some (n, v.toC data.bytes written, e) ∧ v.Inv data := by
  have hstart : Spark.SendVars.Inv data { ctx := c } := ⟨Nat.zero_le _, rfl⟩
  have hdata : (Spark.SendVars.toC data.bytes written { ctx := c }) =
      { ctx := c, data := data.bytes, written } := by
    simp only [Spark.SendVars.toC, List.drop_zero, if_true, Option.map_id']
  have hbody := @sendBody_agree data written
  have hmap := @doWhile_map _ _ _ _ (Sending.sendBody sleep data.bytes.length flags)
    (fun v => v.totalLength < data.bytes.length) (Spark.sendBody sleep data flags)
    (fun v => v.totalLength < data.bytes.length) (Spark.SendVars.Inv data)
    (Spark.SendVars.toC data.bytes written) Spark.Exit.error
    (fun k v hv => ⟨(hbody hsleep hv k).1, (hbody hsleep hv k).2.1⟩) (fun v _ => rfl)
    (fun k v hv => (hbody hsleep hv k).2.2) (data.bytes.length + 1) 0 { ctx := c } hstart
  have hsome : (doWhile (Sending.sendBody sleep data.bytes.length flags)
      (fun v => v.totalLength < data.bytes.length) (data.bytes.length + 1) 0
      { ctx := c, data := data.bytes, written }).isSome :=
    doWhile_isSome (fun s => data.bytes.length - s.totalLength)
      (fun k s s' _ h hmore => ⟨trivial, sendBody_progress sleep h (of_decide_eq_true hmore)⟩)
      _ _ _ trivial (Nat.lt_succ_of_le (Nat.sub_le _ _))
  rw [hdata] at hmap
  obtain ⟨-, hnone⟩ | hends := hmap
  · rw [hnone] at hsome
    cases hsome
  · exact hends

end Turn

/-! ## Whole calls -/

theorem sendAcked_agree {sleep : Word → Ctx → Ctx} (data : List UInt8) (written : Option Nat)
    (flags : SocketFlags) (v : Spark.SendVars) :
    (Sending.sendAcked sleep flags (v.toC data written)).1 =
        (Spark.sendAcked sleep flags v).1.toC data written ∧
      (Spark.sendAcked sleep flags v).2 =
        .error (Sending.sendAcked sleep flags (v.toC data written)).2 ∧
      (Spark.sendAcked sleep flags v).1.written = v.written ∧
      (Spark.sendAcked sleep flags v).1.totalLength = v.totalLength := by
  have hacked : Spark.EventMask SOCKET_EVENT_TX_ACKED := by decide
  have hwait := Spark.tcpWaitForEvents_eq sleep v.ctx hacked v.ctx.timeout
  have hctx : (v.toC data written).ctx = v.ctx := rfl
  unfold Sending.sendAcked Spark.sendAcked
  rw [hwait, hctx]
  generalize tcpWaitForEvents sleep v.ctx SOCKET_EVENT_TX_ACKED v.ctx.timeout = w
  simp only
  split
  · split
    · exact ⟨rfl, rfl, rfl, rfl⟩
    · split
      · exact ⟨rfl, rfl, rfl, rfl⟩
      · exact ⟨rfl, rfl, rfl, rfl⟩
  · exact ⟨rfl, rfl, rfl, rfl⟩

/-- What the two calls have to agree on: the code, the count, what they did to the connection in
which order, and the connection they leave. The C call stores the count when it has written
something; `socketSendTo` has set the caller's variable to zero before. -/
structure SendAgree (written : Option Nat) (r : Spark.SendVars × Spark.Exit)
    (s : Sending.SendVars × Error) : Prop where
  error : r.2 = .error s.2
  total : r.1.written = s.1.totalLength
  stored : s.1.written = written.map fun w => if r.1.written = 0 then w else r.1.written
  calls : r.1.calls = s.1.calls
  ctx : r.1.ctx = s.1.ctx

/-- The SPARK code computes the events of the C code under every mask its sockets can have, and its
send call does what the C call does, on every socket its precondition admits. -/
theorem send_agree :
    (∀ c : Ctx, Spark.EventMask c.eventMask →
      (Spark.tcpUpdateEvents c).eventFlags = (tcpUpdateEvents c).eventFlags) ∧
    ∀ (sleep : Nat → Word → Ctx → Ctx) (c : Ctx) (data : Spark.SendBuffer) (written : Option Nat)
      (flags : SocketFlags), (∀ k timeout c, Spark.EventMask c.eventMask →
        Spark.EventMask (sleep k timeout c).eventMask) → c.state ≠ .LISTEN →
      ∃ r s, Spark.tcpSend sleep c data flags = some r ∧
        Sending.tcpSend sleep c data.bytes written flags = some s ∧ SendAgree written r s := by
  constructor
  · intro c h
    rw [Spark.tcpUpdateEvents_eq h]
  intro sleep c data written flags hsleep hc
  obtain ⟨n, v, e, hspark, hC, hv⟩ := @sendLoop_agree data written flags sleep hsleep c
  unfold Spark.tcpSend Sending.tcpSend
  simp only [hc, if_false, hspark, hC]
  cases e with
  | some error =>
    refine ⟨_, _, rfl, rfl, rfl, hv.written_eq, ?_, rfl, rfl⟩
    rw [hv.written_eq]
    rfl
  | none =>
    obtain ⟨hvars, hexit, hw, ht⟩ := sendAcked_agree data.bytes written flags v
    refine ⟨_, _, rfl, rfl, hexit, ?_, ?_, ?_, ?_⟩
    · rw [hvars, hw, hv.written_eq]
      exact ht.symm
    · rw [hvars, hw, hv.written_eq, ← ht]
      rfl
    · rw [hvars]
      rfl
    · rw [hvars]
      rfl

/-- An established connection with room for four bytes. -/
def narrowLink : Ctx :=
  { state := .ESTABLISHED, sndUna := 1, sndNxt := 1, txBufferSize := 4,
    txBuffer := ⟨[⟨[0, 0, 0, 0], 1536⟩], 15⟩, toEnv := Env.granting }

/-- The peer acknowledges everything while the caller sleeps. -/
def acknowledging (_ : Nat) (_ : Word) (c : Ctx) : Ctx :=
  tcpUpdateEvents { c with
    sndNxt := c.sndNxt + w32 c.sndUser, sndUna := c.sndNxt + w32 c.sndUser, sndUser := 0 }

/-- Six bytes in an array that starts at index five. -/
def sixBytes : Spark.SendBuffer := ⟨5, [1, 2, 3, 4, 5, 6], by decide⟩

/-- They are written in two turns. -/
example : ((Spark.tcpSend acknowledging narrowLink sixBytes SOCKET_FLAG_WAIT_ACK).map
    fun r => (r.1.written, r.2)) = some (6, .error .NO_ERROR) := by decide

theorem send_agree_two_turns :
    (Spark.tcpUpdateEvents { narrowLink with eventMask := SOCKET_EVENT_TX_READY }).eventFlags =
      (tcpUpdateEvents { narrowLink with eventMask := SOCKET_EVENT_TX_READY }).eventFlags ∧
    ∃ r s, Spark.tcpSend acknowledging narrowLink sixBytes SOCKET_FLAG_WAIT_ACK = some r ∧
      Sending.tcpSend acknowledging narrowLink sixBytes.bytes (some 0) SOCKET_FLAG_WAIT_ACK =
        some s ∧ SendAgree (some 0) r s :=
  ⟨send_agree.1 _ (by decide),
    send_agree.2 acknowledging narrowLink sixBytes (some 0) SOCKET_FLAG_WAIT_ACK
      (fun _ _ _ h => h) (by decide)⟩

end Cyclone
