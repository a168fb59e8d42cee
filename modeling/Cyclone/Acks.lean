import Cyclone.Settle

/-!
# Cyclone.Acks

Acknowledgments in the synchronized states: which handlers take them.

* `taken_tcpCheckAck`, `Taken.sendLoop`: the acknowledgment is taken, and what is sent afterwards
  does not lie below it.
* `ack_taken_iff`: every handler takes it, but LAST-ACK only one that covers the FIN.
-/

namespace Cyclone

open Serial Relation

variable {c c' : Ctx} {p : Packet} {ackNum : Word}

/-- The segment of the item lies entirely below an acknowledgment number. -/
def TcpQueueItem.below (ackNum : Word) (item : TcpQueueItem) : Prop :=
  item.acked ackNum = true ∧ cmpSeq item.header.seqNum ackNum < 0

/-- `SND.UNA` is the acknowledgment number, and nothing below it waits to be sent again. -/
structure Taken (ackNum : Word) (c : Ctx) : Prop where
  una : c.sndUna = ackNum
  queue : ∀ item ∈ c.retransmitQueue, ¬item.below ackNum

/-- The connection is over, or the acknowledgment was taken. -/
def AckTaken (ackNum : Word) (c : Ctx) : Prop :=
  c.state = .TIME_WAIT ∨ c.state = .CLOSED ∨ Taken ackNum c

/-- The states with our data or FIN under way. -/
def TcpState.synchronized : TcpState → Bool
  | .ESTABLISHED | .FIN_WAIT_1 | .FIN_WAIT_2 | .CLOSE_WAIT | .CLOSING | .LAST_ACK => true
  | _ => false

theorem Taken.congr (h : Taken ackNum c) (hu : c'.sndUna = c.sndUna)
    (hq : c'.retransmitQueue = c.retransmitQueue) : Taken ackNum c' :=
  ⟨hu.trans h.una, by rw [hq]; exact h.queue⟩

theorem Taken.core (h : Taken ackNum c) (hc : c'.toSockCore = c.toSockCore) : Taken ackNum c' :=
  h.congr (congrArg (·.sndUna) hc) (congrArg (·.retransmitQueue) hc)

theorem Taken.change (h : Taken ackNum c) (s : TcpState) : Taken ackNum (tcpChangeState c s) := by
  refine h.congr (congrArg (·.sndUna) (tcpChangeState_snd c s)) ?_
  simp only [tcpChangeState]
  repeat' split
  all_goals rfl

theorem taken_ackNewData (c : Ctx) (segment : TcpHeader) :
    Taken segment.ackNum (ackNewData c segment) := by
  obtain ⟨c1, hq, hq'⟩ := ackNewData_quiet c segment
  have hk := congrArg (·.toSockCore) (tcpUpdateRetransmitQueue_kernel c1).1
  have hcore : (ackNewData c segment).toSockCore = c1.kernel.pruned.toSockCore := hq'.core.trans hk
  have huna : c1.sndUna = segment.ackNum := congrArg (·.sndUna) hq.core
  refine ⟨?_, fun item hi hb => ?_⟩
  · exact (congrArg (·.sndUna) hcore).trans huna
  · rw [congrArg (·.retransmitQueue) hcore] at hi
    have hna := (List.mem_filter.mp hi).2
    have ha : item.acked c1.sndUna = true := by rw [huna]; exact hb.1
    have hn : (!item.acked c1.sndUna) = true := hna
    rw [ha] at hn
    cases hn

/-- `tcpCheckAck` on an acknowledgment of something in flight. -/
theorem taken_tcpCheckAck (hack : p.segment.flags.ack = true)
    (h1 : 0 < cmpSeq p.segment.ackNum c.sndUna) (h2 : cmpSeq p.segment.ackNum c.sndNxt ≤ 0) :
    ∃ c1, tcpCheckAck c p.segment p.length = (c1, .NO_ERROR) ∧ Taken p.segment.ackNum c1 ∧
      c1.toTcpCtl = c.toTcpCtl ∧ c1.sndNxt = c.sndNxt ∧ c1.txBufferSize = c.txBufferSize := by
  have hcore := tcpUpdateSendWindow_core c p.segment
  have heq : tcpCheckAck c p.segment p.length = (tcpUpdateEvents
      (if cmpSeq p.segment.ackNum (tcpUpdateSendWindow c p.segment).sndUna > 0 then
        ackNewData (tcpUpdateSendWindow c p.segment) p.segment
      else ackNoData (tcpUpdateSendWindow c p.segment) p.segment
        (tcpIsDuplicateAck c p.segment p.length)), .NO_ERROR) := by
    unfold tcpCheckAck
    rw [if_neg (by simp [hack]), if_neg (by omega), if_neg (by omega)]
  generalize tcpUpdateSendWindow c p.segment = c1 at hcore heq
  have huna : c1.sndUna = c.sndUna := congrArg (·.sndUna) hcore
  rw [if_pos (by rw [huna]; exact h1)] at heq
  obtain ⟨c2, hq, hq'⟩ := ackNewData_quiet c1 p.segment
  have hk := congrArg (·.toSockCore) (tcpUpdateRetransmitQueue_kernel c2).1
  have h3 : (ackNewData c1 p.segment).toSockCore = c2.kernel.pruned.toSockCore := hq'.core.trans hk
  have ht := taken_ackNewData c1 p.segment
  generalize ackNewData c1 p.segment = c3 at heq h3 ht
  have hq2 : c2.toSockCore = { c1.toSockCore with sndUna := p.segment.ackNum } := hq.core
  refine ⟨tcpUpdateEvents c3, heq, ht.core rfl, ?_, ?_, ?_⟩
  · show c3.toTcpCtl = c.toTcpCtl
    rw [congrArg (·.toTcpCtl) h3]
    show c2.toTcpCtl = c.toTcpCtl
    rw [congrArg (·.toTcpCtl) hq2, congrArg (·.toTcpCtl) hcore]
  · show c3.sndNxt = c.sndNxt
    rw [congrArg (·.sndNxt) h3]
    show c2.sndNxt = c.sndNxt
    rw [congrArg (·.sndNxt) hq2, congrArg (·.sndNxt) hcore]
  · show c3.txBufferSize = c.txBufferSize
    rw [congrArg (·.txBufferSize) h3]
    show c2.txBufferSize = c.txBufferSize
    rw [congrArg (·.txBufferSize) hq2, congrArg (·.txBufferSize) hcore]

/-! ## What is sent afterwards -/

/-- A positive usable window leaves the flight below the window. -/
theorem flight_lt {w : Nat} {f : Word} (hw : w < 2 ^ 31) (hf : f.toNat ≤ 2 ^ 31)
    (hu : 0 < (w32 w - f).toInt) : f.toNat < w := by
  rw [BitVec.toInt_eq_toNat_cond] at hu
  simp only [w32] at hu
  split at hu <;> bv_omega

/-- Induction on the turns: what is in flight stays below the window `w`, so a new segment does
not lie below the acknowledgment number. -/
theorem Taken.sendLoop (sendable : Ctx → Word → Nat → Bool) (fuel : Nat) : ∀ (c : Ctx) (u : Word)
    (w : Nat), Taken ackNum c → w < 2 ^ 31 → u = w32 w - (c.sndNxt - c.sndUna) →
    (c.sndNxt - c.sndUna).toNat ≤ 2 ^ 31 → Taken ackNum (sendLoop sendable fuel c u).1 := by
  induction fuel with
  | zero => intro c u w h _ _ _; exact h
  | succ fuel ih =>
    intro c u w h hw hu hf
    unfold Cyclone.sendLoop
    split
    · exact h
    rename_i hgo
    simp only
    split
    case isFalse => exact h
    generalize hn : min (min u.toNat c.sndUser) c.smss = n
    have hlt : (c.sndNxt - c.sndUna).toNat < w := flight_lt hw hf (by rw [← hu]; omega)
    have hnu : n ≤ w - (c.sndNxt - c.sndUna).toNat := by
      have hle : n ≤ u.toNat := by omega
      rw [hu] at hle
      simp only [w32] at hle
      bv_omega
    have hsent := queues_tcpSendSegment c { psh := true, ack := true } c.sndNxt c.rcvNxt n
    generalize tcpSendSegment c { psh := true, ack := true } c.sndNxt c.rcvNxt n true = r at hsent
    have htaken : Taken ackNum r.1 := by
      obtain ⟨ho, -⟩ | ⟨item, hi, hq⟩ := hsent
      · exact h.core ho.quiet.core
      · refine ⟨(congrArg (·.sndUna) hq.core).trans h.una, fun i hmem hb => ?_⟩
        rw [congrArg (·.retransmitQueue) hq.core, List.mem_append, List.mem_singleton] at hmem
        obtain hmem | rfl := hmem
        · exact h.queue i hmem hb
        · have hneg := cmp_neg_iff.mp hb.2
          rw [hi.2.2, ← h.una] at hneg
          simp only [Serial.dist] at hneg
          omega
    split
    · rename_i c1
      obtain ⟨-, hno⟩ | ⟨item, hi, hq⟩ := hsent
      · exact absurd rfl hno
      let c2 : Ctx := { c1 with sndNxt := c1.sndNxt + w32 n, sndUser := u16Sub c1.sndUser n }
      have hcore : c1.toSockCore = _ := hq.core
      have hflight : c2.sndNxt - c2.sndUna = c.sndNxt - c.sndUna + w32 n := by
        show c1.sndNxt + w32 n - c1.sndUna = _
        rw [hcore]; simp only [w32]; bv_omega
      refine ih c2 (u - w32 n) w (htaken.congr rfl rfl) hw ?_ ?_
      · rw [hflight, hu]; simp only [w32]; bv_omega
      · rw [hflight]; simp only [w32]; bv_omega
    · exact htaken

theorem Taken.ackNagle (h : Taken ackNum c) (hb : c.txBufferSize < 2 ^ 31)
    (hf : (c.sndNxt - c.sndUna).toNat ≤ 2 ^ 31) : Taken ackNum (ackNagle c) := by
  have hw : min (min c.sndWnd c.txBufferSize) c.cwnd < 2 ^ 31 :=
    Nat.lt_of_le_of_lt (usableWindow_le c) hb
  have h1 := h.sendLoop (nagleSendable (if c.dupAckCount > 0 then SOCKET_FLAG_NO_DELAY else 0))
    c.sndUser c (usableWindow c) _ hw rfl hf
  unfold Cyclone.ackNagle tcpNagleAlgo
  generalize Cyclone.sendLoop (nagleSendable (if c.dupAckCount > 0 then SOCKET_FLAG_NO_DELAY else 0))
    c.sndUser c (usableWindow c) = r at h1
  split
  · exact h1.core rfl
  · exact h1

theorem Taken.segmentText (h : Taken ackNum c) (p : Packet) : Taken ackNum (segmentText c p) := by
  obtain ⟨r, b, hcore⟩ := segmentText_core c p
  exact h.congr (congrArg (·.sndUna) hcore) (congrArg (·.retransmitQueue) hcore)

theorem Taken.consumeFin (h : Taken ackNum c) : Taken ackNum (consumeFin c) := by
  obtain ⟨-, es, hk, -⟩ := consumeFin_kernel c
  exact h.congr (congrArg (·.sndUna) hk) (congrArg (·.retransmitQueue) hk)

/-! ## The handlers -/

/-- An acceptable segment without RST and SYN passes the checks. -/
theorem checked_eq {onRst k : Ctx → Ctx}
    (hseq : seqAcceptable c.toSockCore p.segment p.length = true)
    (hrst : p.segment.flags.rst = false) (hsyn : p.segment.flags.syn = false) :
    (whenOk (tcpCheckSequenceNumber c p.segment p.length) fun c =>
      if p.segment.flags.rst then onRst c
      else whenOk (tcpCheckSyn c p.segment p.length) k) = k c := by
  simp [tcpCheckSequenceNumber, tcpCheckSyn, hseq, hrst, hsyn, whenOk]

theorem flight_le {ackNum nxt : Word} (h : cmpSeq ackNum nxt ≤ 0) :
    (nxt - ackNum).toNat ≤ 2 ^ 31 := by
  simp only [Serial.cmp, BitVec.toInt_eq_toNat_cond] at h
  split at h <;> bv_omega

/-- A segment that passes all checks in ESTABLISHED or CLOSE-WAIT is followed by the Nagle
algorithm. -/
theorem taken_established (h : Taken ackNum c) (hb : c.txBufferSize < 2 ^ 31)
    (hf : (c.sndNxt - ackNum).toNat ≤ 2 ^ 31) :
    Taken ackNum (ackNagle (if finInOrder (segmentText c p) p then
      tcpChangeState (consumeFin (segmentText c p)) .CLOSE_WAIT else segmentText c p)) := by
  obtain ⟨r, b, hcore⟩ := segmentText_core c p
  have hnxt : (segmentText c p).sndNxt = c.sndNxt := congrArg (·.sndNxt) hcore
  have hsize : (segmentText c p).txBufferSize = c.txBufferSize := congrArg (·.txBufferSize) hcore
  have h1 := h.segmentText p
  generalize segmentText c p = c1 at h1 hnxt hsize
  split
  · obtain ⟨-, es, hk, -⟩ := consumeFin_kernel c1
    have hk2 := tcpChangeState_kernel (consumeFin c1) .CLOSE_WAIT
    have h2 := h1.consumeFin.change .CLOSE_WAIT
    have hnxt2 : (tcpChangeState (consumeFin c1) .CLOSE_WAIT).sndNxt = c.sndNxt :=
      (congrArg (·.sndNxt) (tcpChangeState_snd _ _)).trans ((congrArg (·.sndNxt) hk).trans hnxt)
    have hsize2 : (tcpChangeState (consumeFin c1) .CLOSE_WAIT).txBufferSize = c.txBufferSize :=
      ((congrArg (·.txBufferSize) hk2).trans (congrArg (·.txBufferSize) hk)).trans hsize
    exact h2.ackNagle (by rw [hsize2]; exact hb) (by rw [hnxt2, h2.una]; exact hf)
  · exact h1.ackNagle (by rw [hsize]; exact hb) (by rw [hnxt, h1.una]; exact hf)

theorem taken_finWait1 (h : Taken ackNum c) :
    AckTaken ackNum (if finInOrder (segmentText c p) p then
      if p.segment.ackNum = (consumeFin (segmentText c p)).sndNxt then
        enterTimeWait (consumeFin (segmentText c p))
      else tcpChangeState (consumeFin (segmentText c p)) .CLOSING
    else segmentText c p) := by
  split
  · split
    · exact .inl (enterTimeWait_state _)
    · exact .inr (.inr ((h.segmentText p).consumeFin.change .CLOSING))
  · exact .inr (.inr (h.segmentText p))

/-- An acceptable segment that acknowledges something in flight, in a synchronized state: the
handler takes the acknowledgment or ends the connection, unless the state is LAST-ACK and the
acknowledgment does not cover everything. -/
theorem ack_taken_iff (c : Ctx) (p : Packet) (hs : c.state.synchronized)
    (hseq : seqAcceptable c.toSockCore p.segment p.length = true)
    (hrst : p.segment.flags.rst = false) (hsyn : p.segment.flags.syn = false)
    (hack : p.segment.flags.ack = true) (h1 : 0 < cmpSeq p.segment.ackNum c.sndUna)
    (h2 : cmpSeq p.segment.ackNum c.sndNxt ≤ 0) (hb : c.txBufferSize < 2 ^ 31) :
    AckTaken p.segment.ackNum (tcpProcessState c p) ↔
      (c.state = .LAST_ACK → p.segment.ackNum = c.sndNxt) := by
  by_cases hl : c.state = .LAST_ACK
  · -- LAST-ACK looks for the acknowledgment of the FIN only
    have hrun : tcpProcessState c p =
        if p.segment.ackNum = c.sndNxt then tcpChangeState c .CLOSED else c := by
      simp only [tcpProcessState, hl, tcpStateLastAck]
      rw [checked_eq hseq hrst hsyn, hack]
      rfl
    rw [hrun]
    constructor
    · intro ht _
      by_contra hne
      rw [if_neg hne] at ht
      obtain ht | ht | ht := ht
      · rw [hl] at ht; cases ht
      · rw [hl] at ht; cases ht
      · rw [ht.una, cmpSeq, cmp_self] at h1
        exact absurd h1 (by decide)
    · intro hn
      rw [if_pos (hn hl)]
      exact .inr (.inl (tcpChangeState_state c .CLOSED))
  · refine ⟨fun _ h => absurd h hl, fun _ => ?_⟩
    obtain ⟨c1, hca, ht, hctl, hnxt, hsize⟩ := taken_tcpCheckAck hack h1 h2
    have hb1 : c1.txBufferSize < 2 ^ 31 := by rw [hsize]; exact hb
    have hf : (c1.sndNxt - p.segment.ackNum).toNat ≤ 2 ^ 31 := by rw [hnxt]; exact flight_le h2
    cases hstate : c.state <;> rw [hstate] at hs hl <;>
      simp only [tcpProcessState, hstate]
    case ESTABLISHED =>
      rw [tcpStateEstablished, checked_eq hseq hrst hsyn, hca]
      exact .inr (.inr (taken_established ht hb1 hf))
    case CLOSE_WAIT =>
      rw [tcpStateCloseWait, checked_eq hseq hrst hsyn, hca]
      exact .inr (.inr (ht.ackNagle hb1 (by rw [ht.una]; exact hf)))
    case FIN_WAIT_1 =>
      rw [tcpStateFinWait1, checked_eq hseq hrst hsyn, hca]
      simp only [whenOk]
      split
      · refine taken_finWait1 (Taken.change ?_ .FIN_WAIT_2)
        exact ht.core rfl
      · exact taken_finWait1 ht
    case FIN_WAIT_2 =>
      rw [tcpStateFinWait2, checked_eq hseq hrst hsyn, hca]
      simp only [whenOk]
      split
      · exact .inl (enterTimeWait_state _)
      · exact .inr (.inr (ht.segmentText p))
    case CLOSING =>
      rw [tcpStateClosing, checked_eq hseq hrst hsyn, hca]
      simp only [whenOk]
      split
      · exact .inl (enterTimeWait_state _)
      · exact .inr (.inr ht)
    case LAST_ACK => exact absurd rfl hl
    all_goals cases hs

/-! ## A partial acknowledgment -/

/-- Two data segments of two bytes and the FIN are under way; the peer has sent everything. -/
def partlyAcked (state : TcpState) : Ctx :=
  let header (seqNum : Word) (flags : TcpFlags) : TcpHeader :=
    { srcPort := 1, destPort := 2, seqNum, ackNum := 20, dataOffset := 5, flags, window := 8 }
  { type := .STREAM, state, ownedFlag := true, sndUna := 10, sndNxt := 15, rcvNxt := 20, rcvWnd := 8
    txBufferSize := 8, rxBufferSize := 8, smss := 536
    retransmitQueue := [⟨2, false, {}, header 10 { psh := true, ack := true }⟩,
      ⟨2, false, {}, header 12 { psh := true, ack := true }⟩,
      ⟨0, false, {}, header 14 { fin := true, ack := true }⟩]
    toEnv := Env.granting }

/-- The acknowledgment of the first of the two data segments. -/
def partialAck : Packet :=
  { segment := { srcPort := 2, destPort := 1, seqNum := 20, ackNum := 12, dataOffset := 5,
                 flags := { ack := true }, window := 8 },
    buffer := {}, offset := 0, length := 0 }

/-- CLOSING takes it. -/
theorem ack_taken_iff_closing :
    AckTaken partialAck.segment.ackNum (tcpProcessState (partlyAcked .CLOSING) partialAck) ↔
      ((partlyAcked .CLOSING).state = .LAST_ACK →
        partialAck.segment.ackNum = (partlyAcked .CLOSING).sndNxt) :=
  ack_taken_iff (partlyAcked .CLOSING) partialAck rfl (by decide) rfl rfl rfl (by decide)
    (by decide) (by decide)

/-- LAST-ACK does not: the segment is acceptable and acknowledges something in flight, and
`SND.UNA` stays. -/
theorem ack_not_taken :
    (partlyAcked .LAST_ACK).state.synchronized = true ∧
    seqAcceptable (partlyAcked .LAST_ACK).toSockCore partialAck.segment partialAck.length = true ∧
    partialAck.segment.flags = { ack := true } ∧
    0 < cmpSeq partialAck.segment.ackNum (partlyAcked .LAST_ACK).sndUna ∧
    cmpSeq partialAck.segment.ackNum (partlyAcked .LAST_ACK).sndNxt ≤ 0 ∧
    ¬AckTaken partialAck.segment.ackNum (tcpProcessState (partlyAcked .LAST_ACK) partialAck) := by
  refine ⟨rfl, by decide, rfl, by decide, by decide, ?_⟩
  have hstate : (tcpProcessState (partlyAcked .LAST_ACK) partialAck).state = .LAST_ACK := by decide
  have huna : (tcpProcessState (partlyAcked .LAST_ACK) partialAck).sndUna = 10 := by decide
  intro h
  obtain h | h | h := h
  · rw [hstate] at h; cases h
  · rw [hstate] at h; cases h
  · have hne := huna.symm.trans h.una
    revert hne
    decide

end Cyclone
