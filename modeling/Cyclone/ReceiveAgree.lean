import Cyclone.Calls

/-!
# Cyclone.ReceiveAgree

`Tcp_Receive` against `tcpReceive`, waits included: both run the same loop and differ in the break
search alone. The C code counts from the start of the piece it has just copied, the SPARK code
uses an absolute array index, so it consumes too much whenever the piece does not start at index
zero and the break character is not its last byte.

* `cut_eq_iff`: when the two searches consume the same number of bytes.
* `receiveLoop_received_le`: the count never goes down.
* `receiveLoop_agree`: the two loops in step, by induction on the turns.
* `receive_agree_iff`: the calls agree exactly when no wait of the call brings the situation above.
-/

namespace Cyclone

open Serial

/-! ## The break search -/

theorem breakLength_pos {piece : List UInt8} (h : piece ≠ []) (ch : UInt8) :
    0 < breakLength piece ch := by
  have := List.length_pos_iff.mpr h
  simp only [breakLength]; omega

/-- The break character stands in the piece before its last byte. -/
def breaksEarly (piece : List UInt8) (ch : UInt8) : Prop :=
  piece.findIdx (· == ch) + 1 < piece.length

instance (piece : List UInt8) (ch : UInt8) : Decidable (breaksEarly piece ch) :=
  inferInstanceAs (Decidable (_ < _))

theorem cut_eq_iff (first received : Nat) (piece : List UInt8) (ch : UInt8) :
    Spark.breakCut first received piece ch = breakLength piece ch ↔
      (breaksEarly piece ch → first = 0 ∧ received = 0) := by
  have hle : piece.findIdx (· == ch) ≤ piece.length := List.findIdx_le_length
  simp only [Spark.breakCut, breakLength, breaksEarly]
  split <;> omega

theorem breakLength_lt_cut {first received : Nat} {piece : List UInt8} {ch : UInt8}
    (he : breaksEarly piece ch) (h : ¬(first = 0 ∧ received = 0)) :
    breakLength piece ch < Spark.breakCut first received piece ch := by
  simp only [breaksEarly] at he
  simp only [Spark.breakCut, breakLength]
  split <;> omega

/-- Where the search found the character, C stops reading. -/
theorem break_found {piece : List UInt8} {ch : UInt8} (h : breaksEarly piece ch) :
    piece.getD (breakLength piece ch - 1) 0 = ch := by
  simp only [breaksEarly] at h
  have hlt : piece.findIdx (· == ch) < piece.length := by omega
  have hn : breakLength piece ch - 1 = piece.findIdx (· == ch) := by
    simp only [breakLength]; omega
  have := @List.findIdx_getElem _ (· == ch) piece hlt
  rw [hn, List.getD_eq_getElem?_getD, List.getElem?_eq_getElem hlt]
  simpa using this

/-! ## One turn -/

variable {cut : Nat → List UInt8 → UInt8 → Nat}

/-- The piece one turn copies for a break search, if the turn comes to that. -/
def searchedPiece (c : Ctx) (event : SocketEvent) (data : List UInt8) (received : Nat)
    (flags : SocketFlags) : Option (List UInt8) :=
  if event = SOCKET_EVENT_RX_READY ∧ flags.has SOCKET_FLAG_BREAK_CHAR then
    match readPosition c.toSockCore received with
    | .ok seqNum => some (readPiece c.toSockCore seqNum data received).1
    | .error _ => none
  else none

theorem tcpReadRxBuffer_length (s : SockCore) (seqNum : Word) (data : List UInt8) :
    (tcpReadRxBuffer s seqNum data).1.length = data.length := by
  simp only [tcpReadRxBuffer, netBufferRead_eq]
  generalize bufOffset s.irs seqNum s.rxBufferSize = offset
  split
  · rw [Ring.length_splice (by rw [List.length_take, List.length_drop]; omega)]
  · have h1 : (Ring.splice data 0
        ((s.rxBuffer.bytes.drop offset).take (s.rxBufferSize - offset))).length = data.length :=
      Ring.length_splice (by rw [List.length_take, List.length_drop]; omega)
    rw [Ring.length_splice (by rw [h1]; simp; omega), h1]

theorem readPosition_ok {s : SockCore} {received : Nat} {seqNum : Word}
    (h : readPosition s received = .ok seqNum) : s.rcvUser ≠ 0 := by
  intro h0
  simp only [readPosition, h0, if_true] at h
  split at h
  case h_8 => split at h <;> [cases h; (split at h <;> cases h)]
  all_goals cases h

theorem readPiece_ne_nil {s : SockCore} {seqNum : Word} {data : List UInt8} {received : Nat}
    (hr : s.rcvUser ≠ 0) (hd : received < data.length) :
    (readPiece s seqNum data received).1 ≠ [] := by
  rw [← List.length_pos_iff, readPiece, tcpReadRxBuffer_length]
  simp; omega

/-- The break search is the only place where the two calls can part. -/
theorem receiveStep_congr {cut' : Nat → List UInt8 → UInt8 → Nat} {c : Ctx} {event : SocketEvent}
    {data : List UInt8} {received : Nat} {flags : SocketFlags}
    (h : ∀ piece, searchedPiece c event data received flags = some piece →
      cut received piece flags.lsb = cut' received piece flags.lsb) :
    receiveStep cut c event data received flags
      = receiveStep cut' c event data received flags := by
  unfold receiveStep
  unfold searchedPiece at h
  by_cases he : event = SOCKET_EVENT_RX_READY
  · cases hp : readPosition c.toSockCore received with
    | error e => rfl
    | ok seqNum =>
      by_cases hb : flags.has SOCKET_FLAG_BREAK_CHAR
      · have := h (readPiece c.toSockCore seqNum data received).1 (by simp [he, hb, hp])
        simp only [this]
      · simp only [hb]; rfl
  · simp [he]

/-- A turn that searches consumes what `cut` says, and ends the call on the break character. -/
theorem receiveStep_searched (cut : Nat → List UInt8 → UInt8 → Nat) {c : Ctx} {event : SocketEvent} {data : List UInt8} {received : Nat}
    {flags : SocketFlags} {piece : List UInt8}
    (h : searchedPiece c event data received flags = some piece) :
    (receiveStep cut c event data received flags).2.2.1 = received + cut received piece flags.lsb ∧
    ((receiveStep cut c event data received flags).2.2.2 = some .NO_ERROR ↔
      piece.getD (cut received piece flags.lsb - 1) 0 = flags.lsb) := by
  unfold searchedPiece at h
  split at h
  · rename_i he
    cases hp : readPosition c.toSockCore received with
    | error e => rw [hp] at h; cases h
    | ok seqNum =>
      rw [hp] at h
      cases h
      simp [receiveStep, he.1, hp, he.2]
  · cases h

theorem receiveStep_le (cut : Nat → List UInt8 → UInt8 → Nat) (c : Ctx) (event : SocketEvent) (data : List UInt8) (received : Nat)
    (flags : SocketFlags) : received ≤ (receiveStep cut c event data received flags).2.2.1 := by
  unfold receiveStep
  split
  · exact Nat.le_refl _
  · split
    · exact Nat.le_refl _
    · exact Nat.le_add_right _ _

/-- A turn after which the call goes on stored at least one byte. -/
theorem tcpReceiveStep_lt {c c' : Ctx} {event : SocketEvent} {data data' : List UInt8}
    {received received' : Nat} {flags : SocketFlags} (hd : received < data.length)
    (h : tcpReceiveStep c event data received flags = (c', data', received', none)) :
    received < received' := by
  unfold tcpReceiveStep receiveStep at h
  split at h
  · cases h
  · cases hp : readPosition c.toSockCore received with
    | error e => rw [hp] at h; cases h
    | ok seqNum =>
      rw [hp] at h
      have hne := @readPiece_ne_nil _ seqNum _ _ (readPosition_ok hp) hd
      have hpos := List.length_pos_iff.mpr hne
      have hbr := breakLength_pos hne flags.lsb
      simp only [Prod.mk.injEq] at h
      obtain ⟨-, -, rfl, -⟩ := h
      split <;> omega

/-! ## The loops -/

/-- No turn of the C call finds the break character before the last byte of the piece it has just
copied, except the first turn of a call whose array starts at index zero. -/
def breakAligned (first : Nat) (sleep : Nat → Word → Ctx → Ctx) (flags : SocketFlags) :
    Nat → Nat → Ctx → List UInt8 → Nat → Prop
  | 0, _, _, _, _ => True
  | fuel + 1, k, c, data, received =>
    received < data.length →
      let timeout := if flags.has SOCKET_FLAG_DONT_WAIT then 0 else c.timeout
      let w := tcpWaitForEvents (sleep k) c SOCKET_EVENT_RX_READY timeout
      (∀ piece, searchedPiece w.1 w.2 data received flags = some piece →
        breaksEarly piece flags.lsb → first = 0 ∧ k = 0) ∧
      match tcpReceiveStep w.1 w.2 data received flags with
      | (_, _, _, some _) => True
      | (c, data, received, none) => breakAligned first sleep flags fuel (k + 1) c data received

theorem receiveLoop_le (sleep : Nat → Word → Ctx → Ctx) (flags : SocketFlags) (fuel : Nat) :
    ∀ k c data received, received ≤ (receiveLoop cut sleep flags fuel k c data received).received := by
  induction fuel with
  | zero => intro k c data received; exact Nat.le_refl _
  | succ fuel ih =>
    intro k c data received
    unfold receiveLoop
    split
    · simp only
      have hle := receiveStep_le cut
        (tcpWaitForEvents (sleep k) c SOCKET_EVENT_RX_READY
          (if flags.has SOCKET_FLAG_DONT_WAIT then 0 else c.timeout)).1
        (tcpWaitForEvents (sleep k) c SOCKET_EVENT_RX_READY
          (if flags.has SOCKET_FLAG_DONT_WAIT then 0 else c.timeout)).2 data received flags
      split
      · rename_i heq; rw [heq] at hle; exact hle
      · rename_i heq; rw [heq] at hle; exact Nat.le_trans hle (ih _ _ _ _)
    · exact Nat.le_refl _

/-- The two loops from one state: equal results as long as the searches agree, and a larger count
on the SPARK side from the first turn where they do not. -/
theorem receiveLoop_agree (first : Nat) (sleep : Nat → Word → Ctx → Ctx) (flags : SocketFlags)
    (fuel : Nat) : ∀ (k : Nat) (c : Ctx) (data : List UInt8) (received : Nat),
    (received = 0 ↔ k = 0) →
    (breakAligned first sleep flags fuel k c data received →
      receiveLoop (Spark.breakCut first) sleep flags fuel k c data received
        = receiveLoop (fun _ => breakLength) sleep flags fuel k c data received) ∧
    (¬breakAligned first sleep flags fuel k c data received →
      (receiveLoop (fun _ => breakLength) sleep flags fuel k c data received).received
        < (receiveLoop (Spark.breakCut first) sleep flags fuel k c data received).received) := by
  induction fuel with
  | zero => intro k c data received _; exact ⟨fun _ => rfl, fun h => absurd trivial h⟩
  | succ fuel ih =>
    intro k c data received hk
    unfold breakAligned receiveLoop
    by_cases hd : received < data.length
    case neg => exact ⟨fun _ => by simp [hd], fun h => absurd (fun h' => absurd h' hd) h⟩
    simp only [hd, if_true, forall_true_left]
    generalize hw : tcpWaitForEvents (sleep k) c SOCKET_EVENT_RX_READY
      (if flags.has SOCKET_FLAG_DONT_WAIT then 0 else c.timeout) = w
    by_cases hsafe : ∀ piece, searchedPiece w.1 w.2 data received flags = some piece →
        breaksEarly piece flags.lsb → first = 0 ∧ k = 0
    · -- the turn is the same on both sides
      have hstep : receiveStep (Spark.breakCut first) w.1 w.2 data received flags
          = tcpReceiveStep w.1 w.2 data received flags := by
        refine receiveStep_congr fun piece hp => (cut_eq_iff _ _ _ _).mpr fun he => ?_
        obtain ⟨h1, h2⟩ := hsafe piece hp he
        exact ⟨h1, hk.mpr h2⟩
      rw [show receiveStep (fun _ => breakLength) w.1 w.2 data received flags
        = tcpReceiveStep w.1 w.2 data received flags from rfl, hstep]
      rcases hres : tcpReceiveStep w.1 w.2 data received flags with ⟨c', data', received', _ | e⟩
      · have hlt := tcpReceiveStep_lt hd hres
        have := ih (k + 1) c' data' received' (by omega)
        exact ⟨fun h => this.1 h.2, fun h => this.2 fun h' => h ⟨hsafe, h'⟩⟩
      · exact ⟨fun _ => rfl, fun h => absurd ⟨hsafe, trivial⟩ h⟩
    · -- C stops at the break character, SPARK has consumed more
      refine ⟨fun h => absurd h.1 hsafe, fun _ => ?_⟩
      have hex : ∃ piece, searchedPiece w.1 w.2 data received flags = some piece ∧
          breaksEarly piece flags.lsb ∧ ¬(first = 0 ∧ k = 0) := by
        by_contra hno
        refine hsafe fun piece hp he => ?_
        by_contra hn
        exact hno ⟨piece, hp, he, hn⟩
      obtain ⟨piece, hp, he, hn⟩ := hex
      have hC := receiveStep_searched (fun _ => breakLength) hp
      have hS := receiveStep_searched (Spark.breakCut first) hp
      have hend := hC.2.mpr (break_found he)
      have hlt : breakLength piece flags.lsb < Spark.breakCut first received piece flags.lsb :=
        breakLength_lt_cut he (by rw [hk]; exact hn)
      rcases hresC : receiveStep (fun _ => breakLength) w.1 w.2 data received flags
        with ⟨cC, dC, rC, oC⟩
      rcases hresS : receiveStep (Spark.breakCut first) w.1 w.2 data received flags
        with ⟨cS, dS, rS, oS⟩
      rw [hresC] at hC hend
      rw [hresS] at hS
      simp only at hC hS hend
      subst hend
      have hr : rC < rS := by omega
      cases oS with
      | some e => exact hr
      | none => exact Nat.lt_of_lt_of_le hr (receiveLoop_le _ _ _ _ _ _ _)

/-- What the two calls have to agree on. -/
def receiveAgree (first : Nat) (sleep : Nat → Word → Ctx → Ctx) (c : Ctx) (data : List UInt8)
    (flags : SocketFlags) : Prop :=
  let r := Spark.tcpReceive first sleep c data flags
  let s := tcpReceive sleep c data flags
  r.error = s.error ∧ r.received = s.received ∧
    r.data.take r.received = s.data.take s.received ∧
    r.ctx.rcvUser = s.ctx.rcvUser ∧ r.ctx.rcvWnd = s.ctx.rcvWnd

/-- On every socket the SPARK precondition admits, the calls agree if and only if the break
character is never found inside a piece that starts behind index zero. -/
theorem receive_agree_iff (first : Nat) (sleep : Nat → Word → Ctx → Ctx) (c : Ctx)
    (data : List UInt8) (flags : SocketFlags) (hc : c.state ≠ .LISTEN) :
    receiveAgree first sleep c data flags ↔
      breakAligned first sleep flags data.length 0 c data 0 := by
  have hloop := receiveLoop_agree first sleep flags data.length 0 c data 0 (by simp)
  have hC : tcpReceive sleep c data flags
      = receiveLoop (fun _ => breakLength) sleep flags data.length 0 c data 0 := by
    rw [tcpReceive, if_neg hc]
  constructor
  · intro h
    by_contra hn
    have hlt := hloop.2 hn
    have heq := h.2.1
    rw [hC] at heq
    simp only [Spark.tcpReceive] at heq
    omega
  · intro h
    have heq := hloop.1 h
    simp only [receiveAgree, hC, Spark.tcpReceive, heq, and_self]

/-- An established connection whose buffer holds the bytes `a`, line feed, `b`. -/
def lineReady : Ctx :=
  { state := .ESTABLISHED, rcvNxt := 4, rcvUser := 3, rcvWnd := 5, rxBufferSize := 8,
    rxBuffer := ⟨[⟨[97, 10, 98, 0, 0, 0, 0, 0], 1536⟩], 15⟩, toEnv := Env.granting }

def lineFlags : SocketFlags := SOCKET_FLAG_BREAK_CHAR ||| 10

/-- Reading up to the line feed into an array that starts at index one: C stops behind it, SPARK
consumes the byte after it as well. -/
theorem receive_disagree : lineReady.state ≠ .LISTEN ∧
    (tcpReceive (fun _ _ c => c) lineReady [0, 0, 0] lineFlags).received = 2 ∧
    (Spark.tcpReceive 1 (fun _ _ c => c) lineReady [0, 0, 0] lineFlags).received = 3 ∧
    ¬receiveAgree 1 (fun _ _ c => c) lineReady [0, 0, 0] lineFlags := by
  simp only [receiveAgree]
  decide

/-- The same read into an array that starts at index zero agrees. -/
theorem receive_agree_iff_line : lineReady.state ≠ .LISTEN ∧
    (receiveAgree 0 (fun _ _ c => c) lineReady [0, 0, 0] lineFlags ↔
      breakAligned 0 (fun _ _ c => c) lineFlags 3 0 lineReady [0, 0, 0] 0) :=
  ⟨by decide, receive_agree_iff 0 (fun _ _ c => c) lineReady [0, 0, 0] lineFlags (by decide)⟩

end Cyclone
