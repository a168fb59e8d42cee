import Cyclone.Acts

/-!
# Cyclone.Settle

The segment handlers and the timer as chains of acts. Every helper that touches what the events
are computed from ends with `tcpUpdateEvents`, or leaves the outcome as it was: text out of order,
and a sending loop that the IP layer stops.

* `settles_tcpCheckAck`, `settles_segmentText`, `settles_tcpNagleAlgo`: the helpers.
* `settles_tcpProcessState`, `settles_tcpTickSocket`: one segment, one run of the timer.
-/

namespace Cyclone

open Serial Relation

variable {rx : Option Packet} {c c' c'' c1 : Ctx} {p : Packet}

/-! ## Checks and congestion control -/

theorem quiet_tcpCheckSequenceNumber (c : Ctx) (segment : TcpHeader) (length : Nat) :
    Quiet c (tcpCheckSequenceNumber c segment length).1 := by
  unfold tcpCheckSequenceNumber
  split
  · exact .refl c
  · split
    · exact .refl c
    · exact quiet_bare _ _ _ _ _

theorem quiet_tcpCheckSyn (c : Ctx) (segment : TcpHeader) (length : Nat) :
    Quiet c (tcpCheckSyn c segment length).1 := by
  unfold tcpCheckSyn
  split
  · split
    · exact quiet_bare _ _ _ _ _
    · exact quiet_bare _ _ _ _ _
  · exact .refl c

theorem quiet_tcpRetransmitSegment (c : Ctx) : Quiet c (tcpRetransmitSegment c).1 :=
  (onlySends_tcpRetransmitSegment c).quiet

theorem quiet_tcpComputeRto (c : Ctx) : Quiet c (tcpComputeRto c).1 := by
  unfold tcpComputeRto
  split
  · exact ⟨rfl, rfl, rfl, rfl, rfl, rfl⟩
  · exact .refl c

theorem quiet_tcpFastRetransmit (c : Ctx) : Quiet c (tcpFastRetransmit c) := by
  let c1 : Ctx := { c with ssthresh := u16 (max ((c.sndNxt - c.sndUna).toNat / 2) (2 * c.smss)),
                           recover := c.sndNxt - 1 }
  have h1 : Quiet c c1 := ⟨rfl, rfl, rfl, rfl, rfl, rfl⟩
  exact (h1.trans (quiet_tcpRetransmitSegment c1)).trans ⟨rfl, rfl, rfl, rfl, rfl, rfl⟩

theorem quiet_tcpFastRecovery (c : Ctx) (segment : TcpHeader) (n : Word) :
    Quiet c (tcpFastRecovery c segment n) := by
  unfold tcpFastRecovery
  split
  · exact ⟨rfl, rfl, rfl, rfl, rfl, rfl⟩
  · refine (quiet_tcpRetransmitSegment c).trans ?_
    simp only
    split <;> split <;> exact ⟨rfl, rfl, rfl, rfl, rfl, rfl⟩

theorem quiet_tcpFastLossRecovery (c : Ctx) (segment : TcpHeader) :
    Quiet c (tcpFastLossRecovery c segment) := by
  unfold tcpFastLossRecovery
  split
  · exact ⟨rfl, rfl, rfl, rfl, rfl, rfl⟩
  · exact (quiet_tcpRetransmitSegment c).trans ⟨rfl, rfl, rfl, rfl, rfl, rfl⟩

theorem quiet_ackCongest (c : Ctx) (segment : TcpHeader) (duplicateFlag : Bool) :
    Quiet c (ackCongest c segment duplicateFlag) := by
  unfold ackCongest
  split
  · split
    · exact quiet_tcpFastRetransmit c
    · exact .refl c
  · split
    · exact ⟨rfl, rfl, rfl, rfl, rfl, rfl⟩
    · exact .refl c
  · exact .refl c

theorem quiet_ackNoData (c : Ctx) (segment : TcpHeader) (duplicateFlag : Bool) :
    Quiet c (ackNoData c segment duplicateFlag) := by
  let c1 : Ctx := { c with dupAckCount := if duplicateFlag then c.dupAckCount + 1 else 0 }
  have h1 : Quiet c c1 := ⟨rfl, rfl, rfl, rfl, rfl, rfl⟩
  exact (h1.trans (quiet_ackCongest c1 segment duplicateFlag)).trans
    ⟨rfl, rfl, rfl, rfl, rfl, rfl⟩

/-! ## Acknowledgments -/

/-- `ackNewData` moves `SND.UNA` and prunes the retransmission queue; the rest is quiet. -/
theorem ackNewData_quiet (c : Ctx) (segment : TcpHeader) :
    ∃ c1, Quiet { c with sndUna := segment.ackNum } c1 ∧
      Quiet (tcpUpdateRetransmitQueue c1) (ackNewData c segment) := by
  unfold ackNewData
  simp only
  generalize (if c.sndUna = c.iss then segment.ackNum - c.sndUna - 1
    else segment.ackNum - c.sndUna) = n
  let c1 : Ctx := { c with n := c.n + n, sndUna := segment.ackNum }
  have h1 : Quiet { c with sndUna := segment.ackNum } c1 := ⟨rfl, rfl, rfl, rfl, rfl, rfl⟩
  refine ⟨(tcpComputeRto c1).1, h1.trans (quiet_tcpComputeRto c1), ?_⟩
  generalize tcpUpdateRetransmitQueue (tcpComputeRto c1).1 = c3
  refine @Quiet.trans _ (if c3.congestState = .RECOVERY then tcpFastRecovery c3 segment n
    else _) _ ?_ ⟨rfl, rfl, rfl, rfl, rfl, rfl⟩
  split
  · exact quiet_tcpFastRecovery _ _ _
  · let c4 : Ctx := { c3 with dupAckCount := 0 }
    have hloss : Quiet c3 (if c4.congestState = .LOSS_RECOVERY then
        tcpFastLossRecovery c4 segment else c4) := by
      have h4 : Quiet c3 c4 := ⟨rfl, rfl, rfl, rfl, rfl, rfl⟩
      split
      · exact h4.trans (quiet_tcpFastLossRecovery _ _)
      · exact h4
    refine hloss.trans ?_
    generalize (if c4.congestState = .LOSS_RECOVERY then tcpFastLossRecovery c4 segment
      else c4) = c5
    split
    · exact ⟨rfl, rfl, rfl, rfl, rfl, rfl⟩
    · split
      · exact ⟨rfl, rfl, rfl, rfl, rfl, rfl⟩
      · exact .refl _

theorem acts_ackNewData (hs : c.state.acking) (h1 : 0 < cmpSeq p.segment.ackNum c.sndUna)
    (h2 : cmpSeq p.segment.ackNum c.sndNxt ≤ 0) :
    Acts (some p) c (ackNewData c p.segment) := by
  obtain ⟨c1, hq, hq'⟩ := ackNewData_quiet c p.segment
  exact .tail (.single (.ack rfl hs h1 h2 hq)) (.quiet hq')

theorem settles_tcpCheckAck (hs : c.state.acking) (length : Nat) :
    Settles (some p) c (tcpCheckAck c p.segment length).1 := by
  unfold tcpCheckAck
  split
  · exact .refl c
  · split
    · exact .refl c
    · split
      · exact (quiet_bare _ _ _ _ _).settles
      · rename_i h1
        have hstate : (tcpUpdateSendWindow c p.segment).state = c.state :=
          (does_tcpUpdateSendWindow hs p.segment : Does (Send none) _ _).state_eq
        have hsnd := tcpUpdateSendWindow_snd c p.segment
        have hnxt : (tcpUpdateSendWindow c p.segment).sndNxt = c.sndNxt := congrArg (·.sndNxt) hsnd
        have hw : Acts (some p) c (tcpUpdateSendWindow c p.segment) := .single (.window _ hs)
        refine .update (hw.trans ?_)
        split
        · rename_i h3
          exact acts_ackNewData (by rw [hstate]; exact hs) h3 (by rw [hnxt]; omega)
        · exact .single (.quiet (quiet_ackNoData _ _ _))

theorem tcpUpdateSendWindow_core (c : Ctx) (segment : TcpHeader) :
    (tcpUpdateSendWindow c segment).toSockCore =
      { c.toSockCore with
        wndProbeInterval := (tcpUpdateSendWindow c segment).wndProbeInterval } := by
  simp only [tcpUpdateSendWindow]
  repeat' split
  all_goals rfl

/-! ## Text -/

theorem receiveData_core (s : SockCore) (segment : TcpHeader) (b : NetBuffer) (off n : Nat) :
    (receiveData s segment b off n).1 =
      { s with toRcvVars := (receiveData s segment b off n).1.toRcvVars
               rxBuffer := (receiveData s segment b off n).1.rxBuffer } := by
  simp only [receiveData, tcpUpdateSackBlocks, tcpWriteRxBuffer]
  split <;> split <;> rfl

/-- Text out of order leaves the count of bytes for the user alone. -/
theorem receiveData_user (s : SockCore) (segment : TcpHeader) (b : NetBuffer) (off n : Nat)
    (h : (receiveData s segment b off n).2 = false) :
    (receiveData s segment b off n).1.rcvUser = s.rcvUser := by
  revert h
  simp only [receiveData, tcpUpdateSackBlocks, tcpWriteRxBuffer]
  split <;> split <;> simp

theorem settles_tcpProcessSegmentData (hs : c.state.receptive) :
    Settles rx c (tcpProcessSegmentData c p.segment p.buffer p.offset p.length) := by
  have hcore := receiveData_core c.toSockCore p.segment p.buffer p.offset p.length
  have huser := receiveData_user c.toSockCore p.segment p.buffer p.offset p.length
  unfold tcpProcessSegmentData
  generalize receiveData c.toSockCore p.segment p.buffer p.offset p.length = r at hcore huser ⊢
  obtain ⟨s1, inOrder⟩ := r
  simp only at hcore huser ⊢
  let c1 : Ctx := { c with toSockCore := s1 }
  have h1 : Acts rx c c1 := .single (.rcv s1.toRcvVars s1.rxBuffer
    ⟨hcore, rfl, rfl, rfl, rfl, rfl⟩)
  have h2 : Quiet c1 (tcpSendSegment c1 { ack := true } c1.sndNxt c1.rcvNxt 0 false).1 :=
    quiet_bare _ _ _ _ _
  split
  · exact .update (h1.tail (.quiet h2))
  · rename_i ho
    refine Settles.trans ⟨h1, ?_⟩ h2.settles
    refine SameEvents.waked ⟨?_, ?_, rfl, fun _ => ?_, fun _ => ?_⟩
    · intro hu
      show s1.sndUser < 65536
      rw [hcore]; exact hu
    · show s1.state = c.state
      rw [hcore]
    · show txEvents { c.toSocket with toSockCore := s1 } = _
      rw [hcore]
      rfl
    · have hu : s1.rcvUser = c.rcvUser := huser (by simpa using ho)
      revert hs
      show c.state.receptive → rxEvents { c.toSocket with toSockCore := s1 } = _
      have hstate : s1.state = c.state := by rw [hcore]
      simp only [rxEvents, hstate, hu]
      cases c.state <;> simp [TcpState.receptive]

theorem settles_segmentText (p : Packet) (hs : c.state.receptive) :
    Settles rx c (segmentText c p) := by
  unfold segmentText
  split
  · exact settles_tcpProcessSegmentData hs
  · exact .refl c

/-! ## Sending data -/

/-- A counted segment moves bytes from the user's side to the flight: as long as some wait, the
events see no difference. -/
theorem sameEvents_counted {item : TcpQueueItem} {n : Nat} (hs : c.state.sendable)
    (hq : Queues c c1 item) (hn : n ≤ c.sndUser) (hu : c.sndUser < 65536)
    (h0 : u16Sub c.sndUser n ≠ 0) :
    SameEvents c { c1 with sndNxt := c1.sndNxt + w32 n, sndUser := u16Sub c1.sndUser n } := by
  obtain ⟨e, sent, rtt, m, timer, count, -, rfl⟩ := hq
  refine ⟨fun _ => u16_lt _, rfl, rfl, fun _ => ?_, fun _ => rfl⟩
  have hsub : u16Sub c.sndUser n = c.sndUser - n := u16Sub_of_le hn hu
  have hsum : w32 (u16Sub c.sndUser n) + (c.sndNxt + w32 n) - c.sndUna =
      w32 c.sndUser + c.sndNxt - c.sndUna := by
    rw [hsub]; simp only [w32]; bv_omega
  have hne : c.sndUser ≠ 0 := by omega
  revert hs
  simp only [txEvents, hsum, if_neg hne, if_neg h0]
  cases c.state <;> simp [TcpState.sendable]

theorem OnlySends.sameEvents (h : OnlySends c c') : SameEvents c c' := h.quiet.sameEvents

theorem Queues.sameEvents {item : TcpQueueItem} (h : Queues c c' item) : SameEvents c c' := by
  obtain ⟨e, sent, rtt, m, timer, count, -, rfl⟩ := h
  exact ⟨id, rfl, rfl, fun _ => rfl, fun _ => rfl⟩

variable (rx) in
/-- Induction on the turns of the loop. A loop that stops with an error leaves bytes behind, and
the events as they were. -/
theorem acts_sendLoop (sendable : Ctx → Word → Nat → Bool) (fuel : Nat) : ∀ (c : Ctx) (u : Word)
    (w : Nat), c.state.sendable → w ≤ c.txBufferSize → u = w32 w - (c.sndNxt - c.sndUna) →
    Acts rx c (sendLoop sendable fuel c u).1 ∧
      ((sendLoop sendable fuel c u).2 ≠ .NO_ERROR → c.sndUser < 65536 →
        c.sndUser ≠ 0 ∧ SameEvents c (sendLoop sendable fuel c u).1) := by
  induction fuel with
  | zero => intro c u w _ _ _; exact ⟨.refl, by simp [sendLoop]⟩
  | succ fuel ih =>
    intro c u w hs hw hu
    unfold sendLoop
    split
    · exact ⟨.refl, by simp⟩
    rename_i hgo
    simp only
    split
    case isFalse => exact ⟨.refl, by simp⟩
    generalize hn : min (min u.toNat c.sndUser) c.smss = n
    have hroom : RoomFor c.toSockCore w n := by
      refine ⟨?_, ?_⟩
      · show 0 < (w32 w - (c.sndNxt - c.sndUna)).toInt
        rw [← hu]; omega
      · show n ≤ (w32 w - (c.sndNxt - c.sndUna)).toNat
        rw [← hu]; omega
    have hsent := queues_tcpSendSegment c { psh := true, ack := true } c.sndNxt c.rcvNxt n
    generalize tcpSendSegment c { psh := true, ack := true } c.sndNxt c.rcvNxt n true = r at hsent
    have hdata : ∀ (ok : Bool) (item : TcpQueueItem),
        IsItem { psh := true, ack := true } c.sndNxt n item → Queues c r.1 item →
        Acts rx c (if ok then
          { r.1 with sndNxt := r.1.sndNxt + w32 n, sndUser := u16Sub r.1.sndUser n } else r.1) :=
      fun ok item hi hq => .single (.data ok hs (by omega) (by omega) hw hroom hi hq)
    split
    · rename_i c1
      obtain ⟨-, hno⟩ | ⟨item, hi, hq⟩ := hsent
      · exact absurd rfl hno
      have h1 := hdata true item hi hq
      rw [if_pos rfl] at h1
      let c2 : Ctx := { c1 with sndNxt := c1.sndNxt + w32 n, sndUser := u16Sub c1.sndUser n }
      have hcore : c1.toSockCore = _ := hq.core
      have hwin : u - w32 n = w32 w - (c2.sndNxt - c2.sndUna) := by
        show u - w32 n = w32 w - (c1.sndNxt + w32 n - c1.sndUna)
        rw [hcore, hu]; simp only [w32]; bv_omega
      obtain ⟨h2, h3⟩ := ih c2 (u - w32 n) w (by show c1.state.sendable; rw [hcore]; exact hs)
        (by show w ≤ c1.txBufferSize; rw [hcore]; exact hw) hwin
      refine ⟨h1.trans h2, fun hne hu16 => ⟨by omega, ?_⟩⟩
      obtain ⟨h0, h4⟩ := h3 hne (u16_lt _)
      refine (sameEvents_counted hs hq (by omega) hu16 ?_).trans h4
      have huser : c1.sndUser = c.sndUser := hq.user
      rw [← huser]; exact h0
    · rename_i c1 e _
      obtain ⟨ho, -⟩ | ⟨item, hi, hq⟩ := hsent
      · exact ⟨.single (.quiet ho.quiet), fun _ _ => ⟨by omega, ho.sameEvents⟩⟩
      · exact ⟨hdata false item hi hq, fun _ _ => ⟨by omega, hq.sameEvents⟩⟩

theorem usableWindow_le (c : Ctx) : min (min c.sndWnd c.txBufferSize) c.cwnd ≤ c.txBufferSize := by
  omega

theorem settles_tcpNagleAlgo (hs : c.state.sendable) (flags : SocketFlags) :
    Settles rx c (tcpNagleAlgo c flags).1 := by
  obtain ⟨h1, h2⟩ := acts_sendLoop rx (nagleSendable flags) c.sndUser c (usableWindow c) _
    hs (usableWindow_le c) rfl
  unfold tcpNagleAlgo
  generalize sendLoop (nagleSendable flags) c.sndUser c (usableWindow c) = r at h1 h2
  split
  · exact .update h1
  · rename_i c1 e hne
    exact ⟨h1, fun hw => (h2 hne hw.user).2.waked hw⟩

theorem settles_ackNagle (hs : c.state.sendable) : Settles rx c (ackNagle c) :=
  settles_tcpNagleAlgo hs _

/-! ## FIN -/

theorem settles_rcv (r : RcvVars) (hr : r.rcvUser = c.rcvUser)
    (hq : Quiet { c with toRcvVars := r } c') : Settles rx c c' := by
  have h1 : SameEvents c { c with toRcvVars := r } := by
    refine ⟨id, rfl, rfl, fun _ => rfl, fun _ => ?_⟩
    simp only [rxEvents, hr]
  exact ⟨.single (.rcv r c.rxBuffer hq), (h1.trans hq.sameEvents).waked⟩

theorem settles_consumeFin (c : Ctx) : Settles rx c (consumeFin c) := by
  let c1 : Ctx := { c with rcvNxt := c.rcvNxt + 1, finRcvd := true }
  have h1 : Settles rx c c1 := settles_rcv { c.toRcvVars with rcvNxt := c.rcvNxt + 1 } rfl
    ⟨rfl, rfl, rfl, rfl, rfl, rfl⟩
  exact h1.trans (quiet_bare c1 _ _ _ _).settles

theorem consumeFin_state (c : Ctx) : (consumeFin c).state = c.state := by
  obtain ⟨-, es, hk, -⟩ := consumeFin_kernel c
  exact congrArg (·.state) hk

theorem settles_enterTimeWait (c : Ctx) : Settles rx c (enterTimeWait c) :=
  .change .refl (.timeWait ⟨rfl, rfl, rfl, rfl, rfl, rfl⟩)

/-! ## State functions -/

/-- The checks at the head of the state functions. -/
theorem settles_checked {onRst k : Ctx → Ctx} (hrst : Settles (some p) c (onRst c))
    (hk : seqAcceptable c.toSockCore p.segment p.length = true → p.segment.flags.rst = false →
      p.segment.flags.syn = false → Settles (some p) c (k c)) :
    Settles (some p) c (whenOk (tcpCheckSequenceNumber c p.segment p.length) fun c =>
      if p.segment.flags.rst then onRst c
      else whenOk (tcpCheckSyn c p.segment p.length) k) := by
  by_cases hseq : seqAcceptable c.toSockCore p.segment p.length = true
  case neg =>
    have hne : (tcpCheckSequenceNumber c p.segment p.length).2 ≠ .NO_ERROR := by
      unfold tcpCheckSequenceNumber
      rw [if_neg hseq]
      split <;> simp
    rw [whenOk_error hne]
    exact (quiet_tcpCheckSequenceNumber c p.segment p.length).settles
  have h1 : tcpCheckSequenceNumber c p.segment p.length = (c, .NO_ERROR) := if_pos hseq
  rw [h1]
  simp only [whenOk]
  split
  · exact hrst
  · rename_i hr
    obtain ⟨h2, hsyn⟩ | ⟨-, hne⟩ := tcpCheckSyn_cases (some p) c p.segment p.length
    · rw [h2]; exact hk hseq (by simpa using hr) hsyn
    · show Settles _ _ (whenOk _ k)
      rw [whenOk_error hne]
      exact (quiet_tcpCheckSyn c p.segment p.length).settles

theorem settles_acked {k : Ctx → Ctx} (hs : c.state.acking)
    (hk : ∀ c1, Settles (some p) c c1 → Does (Send (some p)) c c1 →
      Settles (some p) c1 (k c1)) :
    Settles (some p) c (whenOk (tcpCheckAck c p.segment p.length) k) := by
  have h1 := settles_tcpCheckAck (p := p) hs p.length
  obtain ⟨h2, -⟩ := tcpCheckAck_cases (p := p) hs p.length
  generalize tcpCheckAck c p.segment p.length = r at h1 h2
  obtain ⟨c1, e⟩ := r
  by_cases he : e = .NO_ERROR
  · subst he
    exact h1.trans (hk c1 h1 h2)
  · rw [whenOk_error he]; exact h1

theorem tcpProcessSegmentData_core (c : Ctx) (p : Packet) : ∃ r b,
    (tcpProcessSegmentData c p.segment p.buffer p.offset p.length).toSockCore =
      { c.toSockCore with toRcvVars := r, rxBuffer := b } := by
  have hcore := receiveData_core c.toSockCore p.segment p.buffer p.offset p.length
  unfold tcpProcessSegmentData
  generalize receiveData c.toSockCore p.segment p.buffer p.offset p.length = r at hcore ⊢
  obtain ⟨s1, inOrder⟩ := r
  simp only at hcore ⊢
  let c1 : Ctx := { c with toSockCore := s1 }
  have h2 : Quiet c1 (tcpSendSegment c1 { ack := true } c1.sndNxt c1.rcvNxt 0 false).1 :=
    quiet_bare _ _ _ _ _
  refine ⟨s1.toRcvVars, s1.rxBuffer, ?_⟩
  split
  · exact h2.core.trans hcore
  · exact h2.core.trans hcore

theorem segmentText_core (c : Ctx) (p : Packet) : ∃ r b,
    (segmentText c p).toSockCore = { c.toSockCore with toRcvVars := r, rxBuffer := b } := by
  unfold segmentText
  split
  · exact tcpProcessSegmentData_core c p
  · exact ⟨c.toRcvVars, c.rxBuffer, rfl⟩

theorem segmentText_state (c : Ctx) (p : Packet) : (segmentText c p).state = c.state := by
  obtain ⟨r, b, h⟩ := segmentText_core c p
  exact congrArg (·.state) h

theorem settles_closed (c : Ctx) (p : Packet) : Settles rx c (tcpStateClosed c p) := by
  unfold tcpStateClosed
  split
  · exact .refl c
  · exact (onlySends_tcpSendResetSegment _ _ _ _).quiet.settles

theorem settles_listen (hs : c.state = .LISTEN) : Settles (some p) c (tcpStateListen c p) := by
  unfold tcpStateListen
  split
  · exact .refl c
  split
  · exact (onlySends_tcpSendResetSegment _ _ _ _).quiet.settles
  split
  case isFalse => exact .refl c
  rename_i hsyn
  split
  · exact .refl c
  split
  · exact .refl c
  simp only
  split
  · split
    · exact (OnlySends.env c _).quiet.settles
    · rename_i src dst haddrs
      refine .update ?_
      exact .single (.queueSyn rfl hs ⟨hsyn, haddrs, rfl, rfl⟩ ⟨rfl, rfl, rfl, rfl, rfl, rfl⟩)
  · exact (OnlySends.env c _).quiet.settles

theorem settles_established (hs : c.state = .ESTABLISHED) :
    Settles (some p) c (tcpStateEstablished c p) := by
  unfold tcpStateEstablished
  refine settles_checked (settles_close c) fun _ _ _ => ?_
  refine settles_acked (by rw [hs]; rfl) fun c1 _ h1 => ?_
  have hs1 : c1.state = .ESTABLISHED := h1.state_eq.trans hs
  have hs2 : (segmentText c1 p).state = .ESTABLISHED := (segmentText_state c1 p).trans hs1
  refine (settles_segmentText p (by rw [hs1]; rfl)).trans ?_
  simp only
  generalize segmentText c1 p = c2 at hs2
  split
  · have hs3 : (consumeFin c2).state = .ESTABLISHED := (consumeFin_state c2).trans hs2
    have hcw := tcpChangeState_state (consumeFin c2) .CLOSE_WAIT
    refine (settles_enter (settles_consumeFin c2).acts ?_).trans
      (settles_ackNagle (by rw [hcw]; rfl))
    rw [hs3]; rfl
  · exact settles_ackNagle (by rw [hs2]; rfl)

theorem settles_synReceived (hs : c.state = .SYN_RECEIVED) :
    Settles (some p) c (tcpStateSynReceived c p) := by
  unfold tcpStateSynReceived
  refine settles_checked (settles_close c) fun _ _ _ => ?_
  split
  · exact .refl c
  · split
    · exact (quiet_bare _ _ _ _ _).settles
    · refine .trans (.change .refl (.established rfl (.inr hs) (.refl _))) ?_
      exact settles_established (tcpChangeState_state _ _)

theorem settles_closeWait (hs : c.state = .CLOSE_WAIT) :
    Settles (some p) c (tcpStateCloseWait c p) := by
  unfold tcpStateCloseWait
  refine settles_checked (settles_close c) fun _ _ _ => ?_
  refine settles_acked (by rw [hs]; rfl) fun c1 _ h1 => ?_
  exact settles_ackNagle (by rw [h1.state_eq, hs]; rfl)

theorem settles_lastAck (c : Ctx) (p : Packet) : Settles (some p) c (tcpStateLastAck c p) := by
  unfold tcpStateLastAck
  refine settles_checked (settles_close c) fun _ _ _ => ?_
  split
  · exact .refl c
  · split
    · exact settles_close c
    · exact .refl c

theorem settles_finWait1 (hs : c.state = .FIN_WAIT_1) :
    Settles (some p) c (tcpStateFinWait1 c p) := by
  unfold tcpStateFinWait1
  refine settles_checked (settles_close c) fun _ _ _ => ?_
  refine settles_acked (by rw [hs]; rfl) fun c1 _ h1 => ?_
  have hs1 : c1.state = .FIN_WAIT_1 := h1.state_eq.trans hs
  -- the acknowledgment of our FIN leads on to FIN-WAIT-2
  have hfin : ∀ c2 : Ctx, c2.state.receptive → c2.state.leadsTo .CLOSING →
      Settles (some p) c2 (if finInOrder (segmentText c2 p) p then
        if p.segment.ackNum = (consumeFin (segmentText c2 p)).sndNxt then
          enterTimeWait (consumeFin (segmentText c2 p))
        else tcpChangeState (consumeFin (segmentText c2 p)) .CLOSING
      else segmentText c2 p) := by
    intro c2 hr hfl
    refine (settles_segmentText p hr).trans ?_
    rw [← segmentText_state c2 p] at hfl
    generalize segmentText c2 p = c3 at hfl
    split
    · refine (settles_consumeFin c3).trans ?_
      rw [← consumeFin_state c3] at hfl
      split
      · exact settles_enterTimeWait _
      · exact settles_enter .refl hfl
    · exact .refl c3
  simp only
  split
  · have h2 := tcpChangeState_state
      { c1 with finWait2Timer := tcpTimerStart c1.toEnv TCP_FIN_WAIT_2_TIMER } .FIN_WAIT_2
    have hq : Quiet c1 { c1 with finWait2Timer := tcpTimerStart c1.toEnv TCP_FIN_WAIT_2_TIMER } :=
      ⟨rfl, rfl, rfl, rfl, rfl, rfl⟩
    refine .trans (settles_enter (.single (.quiet hq)) ?_) (hfin _ ?_ ?_)
    · show c1.state.leadsTo .FIN_WAIT_2
      rw [hs1]; rfl
    · rw [h2]; rfl
    · rw [h2]; rfl
  · exact hfin c1 (by rw [hs1]; rfl) (by rw [hs1]; rfl)

theorem settles_finWait2 (hs : c.state = .FIN_WAIT_2) :
    Settles (some p) c (tcpStateFinWait2 c p) := by
  unfold tcpStateFinWait2
  refine settles_checked (settles_close c) fun _ _ _ => ?_
  refine settles_acked (by rw [hs]; rfl) fun c1 _ h1 => ?_
  have hs1 : c1.state = .FIN_WAIT_2 := h1.state_eq.trans hs
  refine (settles_segmentText p (by rw [hs1]; rfl)).trans ?_
  simp only
  split
  · exact (settles_consumeFin _).trans (settles_enterTimeWait _)
  · exact .refl _

theorem settles_closing (hs : c.state = .CLOSING) : Settles (some p) c (tcpStateClosing c p) := by
  unfold tcpStateClosing
  refine settles_checked (settles_close c) fun _ _ _ => ?_
  refine settles_acked (by rw [hs]; rfl) fun c1 _ _ => ?_
  split
  · exact settles_enterTimeWait c1
  · exact .refl c1

/-- In CLOSED the events depend on nothing but the mask. -/
theorem sameEvents_closed (hs : c.state = .CLOSED) (hu : c'.sndUser = c.sndUser)
    (hs' : c'.state = c.state) (he : c'.toSockEvents = c.toSockEvents) : SameEvents c c' := by
  have hs2 := hs'.trans hs
  refine ⟨fun h => hu ▸ h, hs', he, fun _ => ?_, fun _ => ?_⟩
  · simp only [txEvents, hs, hs2]
  · simp only [rxEvents, hs, hs2]

theorem settles_disposeUnowned (hs : c.state = .CLOSED) : Settles rx c (disposeUnowned c) := by
  have hk := (tcpDeleteControlBlock_kernel c).1
  have hstate : (tcpDeleteControlBlock c).state = c.state := congrArg (·.state) hk
  unfold disposeUnowned
  split
  · exact .refl c
  · refine ⟨.tail (.single (.release (by rw [hs]; rfl))) (.id _), ?_⟩
    exact SameEvents.waked (sameEvents_closed hs (tcpDeleteControlBlock_user c) hstate
      (tcpDeleteControlBlock_kernel c).2)

theorem settles_timeWait (c : Ctx) (p : Packet) : Settles (some p) c (tcpStateTimeWait c p) := by
  unfold tcpStateTimeWait
  refine settles_checked ?_ fun _ _ _ => ?_
  · exact (settles_close c).trans (settles_disposeUnowned (tcpChangeState_state _ _))
  · split
    · exact .refl c
    · split
      · have hq : ∀ c1 : Ctx, Quiet c1
            { c1 with timeWaitTimer := tcpTimerStart c1.toEnv TCP_2MSL_TIMER } :=
          fun _ => ⟨rfl, rfl, rfl, rfl, rfl, rfl⟩
        exact ((quiet_bare c _ _ _ _).trans (hq _)).settles
      · exact .refl c

/-- The SYN of the peer is taken in; what has been sent is acknowledged or not. -/
theorem settles_synSentSyn (hs : c.state = .SYN_SENT)
    (ha : p.segment.flags.ack = true → p.segment.ackNum = c.sndNxt) :
    Settles (some p) c (synSentSyn c p.segment) := by
  unfold synSentSyn
  simp only
  generalize hu : (if p.segment.flags.ack then p.segment.ackNum else c.sndUna) = una
  let c1 : Ctx := { c with irs := p.segment.seqNum, rcvNxt := p.segment.seqNum + 1, sndUna := una }
  have hq1 : Quiet c1 (tcpComputeRto c1).1 := quiet_tcpComputeRto c1
  have hcore : (tcpUpdateRetransmitQueue (tcpComputeRto c1).1).toSockCore =
      { c1.toSockCore with retransmitQueue :=
          c1.retransmitQueue.filter fun item => !item.acked c1.sndUna } := by
    have h1 := congrArg (·.toSockCore) (tcpUpdateRetransmitQueue_kernel (tcpComputeRto c1).1).1
    refine h1.trans ?_
    show ((tcpComputeRto c1).1.kernel.pruned).toSockCore = _
    simp only [Kernel.pruned, Ctx.kernel, hq1.core]
  have h2 : Acts (some p) c { tcpUpdateRetransmitQueue (tcpComputeRto c1).1 with
      smss := (tcpGetMss p.segment).getD (tcpUpdateRetransmitQueue (tcpComputeRto c1).1).smss } := by
    refine .single (.syn rfl hs ?_ hq1)
    by_cases hf : p.segment.flags.ack = true
    · exact .inl ⟨hf, ha hf, by rw [← hu, if_pos hf]; exact ha hf⟩
    · exact .inr ⟨by simpa using hf, by rw [← hu, if_neg hf]⟩
  generalize tcpUpdateRetransmitQueue (tcpComputeRto c1).1 = c2 at h2 hcore
  let c3 : Ctx := { c2 with smss := (tcpGetMss p.segment).getD c2.smss }
  let c4 : Ctx := { c3 with cwnd := u16 (min (TCP_INITIAL_WINDOW * c3.smss) c3.txBufferSize) }
  have hs4 : c4.state = .SYN_SENT := (congrArg (·.state) hcore).trans hs
  have h4 : Acts (some p) c c4 := h2.tail (.quiet ⟨rfl, rfl, rfl, rfl, rfl, rfl⟩)
  split
  · exact .change h4 (.established rfl (.inl hs4) (quiet_bare _ _ _ _ _))
  · have h5 : Acts (some p) c
        (tcpSendSegment c4 { syn := true, ack := true } c4.iss c4.rcvNxt 0 true).1 ∧
        (tcpSendSegment c4 { syn := true, ack := true } c4.iss c4.rcvNxt 0 true).1.state =
          .SYN_SENT := by
      obtain ⟨ho, -⟩ | ⟨item, hi, hq⟩ :=
        queues_tcpSendSegment c4 { syn := true, ack := true } c4.iss c4.rcvNxt 0
      · exact ⟨h4.tail (.quiet ho.quiet), ho.quiet.state.trans hs4⟩
      · exact ⟨h4.tail (.crossed hs4 hi hq), (congrArg (·.state) hq.core).trans hs4⟩
    exact settles_enter h5.1 (by rw [h5.2]; rfl)

theorem settles_synSent (hs : c.state = .SYN_SENT) :
    Settles (some p) c (tcpStateSynSent c p) := by
  unfold tcpStateSynSent
  simp only
  split
  · split
    · exact .refl c
    · exact (quiet_bare _ _ _ _ _).settles
  · rename_i ha
    split
    · split
      · exact settles_close c
      · exact .refl c
    · split
      · exact settles_synSentSyn hs fun hf => by
          by_contra hne
          exact ha ⟨hf, hne⟩
      · exact .refl c

/-- One segment. -/
theorem settles_tcpProcessState (c : Ctx) (p : Packet) :
    Settles (some p) c (tcpProcessState c p) := by
  unfold tcpProcessState
  split
  · exact settles_closed c p
  · rename_i hs; exact settles_listen hs
  · rename_i hs; exact settles_synSent hs
  · rename_i hs; exact settles_synReceived hs
  · rename_i hs; exact settles_established hs
  · rename_i hs; exact settles_closeWait hs
  · exact settles_lastAck c p
  · rename_i hs; exact settles_finWait1 hs
  · rename_i hs; exact settles_finWait2 hs
  · rename_i hs; exact settles_closing hs
  · exact settles_timeWait c p

/-! ## Timers -/

theorem settles_tickRetransmit (hq : c.retransmitQueue ≠ []) :
    Settles rx c (tickRetransmit c) := by
  unfold tickRetransmit
  simp only
  generalize hc1 : (if c.retransmitCount = 0 then
      { c with ssthresh := u16 (max ((c.sndNxt - c.sndUna).toNat / 2) (2 * c.smss)) }
    else c) = c1
  have h1 : Quiet c c1 := by
    rw [← hc1]
    split
    · exact ⟨rfl, rfl, rfl, rfl, rfl, rfl⟩
    · exact .refl c
  let c2 : Ctx := { c1 with cwnd := u16 (min (TCP_LOSS_WINDOW * c1.smss) c1.txBufferSize),
                            recover := c1.sndNxt - 1, congestState := .LOSS_RECOVERY }
  have h2 : Quiet c c2 := h1.trans ⟨rfl, rfl, rfl, rfl, rfl, rfl⟩
  have hend : ∀ c3 : Ctx, Settles rx c c3 → Settles rx c { c3 with rttBusy := false } :=
    fun c3 h => h.trans (Quiet.settles ⟨rfl, rfl, rfl, rfl, rfl, rfl⟩)
  split
  · refine hend _ (h2.settles.trans ?_)
    have h3 : Quiet c2 (tcpRetransmitSegment c2).1 := quiet_tcpRetransmitSegment c2
    have hq3 : (tcpRetransmitSegment c2).1.retransmitQueue ≠ [] := by
      rw [(h2.trans h3).core]; exact hq
    generalize (tcpRetransmitSegment c2).1 = c3 at h3 hq3
    generalize (if c3.rto * 2 < TCP_MAX_RTO then c3.rto * 2 else TCP_MAX_RTO) = rto
    let c4 : Ctx := { c3 with rto, retransmitCount := c3.retransmitCount + 1 }
    have h4 : Quiet c2 c4 := h3.trans ⟨rfl, rfl, rfl, rfl, rfl, rfl⟩
    have h5 : Settles rx c4 { c4 with retransmitTimer := tcpTimerStart c4.toEnv rto } :=
      ⟨.single (.retransmitTimer _ (.inl ⟨rfl, hq3⟩)),
        SameEvents.waked ⟨id, rfl, rfl, fun _ => rfl, fun _ => rfl⟩⟩
    exact h4.settles.trans h5
  · refine hend _ (.trans (h2.settles.trans (settles_close c2)) ?_)
    have hclosed := tcpChangeState_state c2 .CLOSED
    refine ⟨.single (.retransmitTimer _ (.inr hclosed)), ?_⟩
    exact SameEvents.waked (sameEvents_closed hclosed rfl rfl rfl)

theorem settles_tickPersist (c : Ctx) : Settles rx c (tickPersist c) := by
  unfold tickPersist
  split
  · have h1 := quiet_bare c { ack := true } (c.sndNxt - 1) c.rcvNxt 0
    generalize (tcpSendSegment c { ack := true } (c.sndNxt - 1) c.rcvNxt 0 false).1 = c1 at h1
    simp only
    generalize hi : (if c1.wndProbeInterval * 2 < TCP_MAX_PROBE_INTERVAL then
      c1.wndProbeInterval * 2 else TCP_MAX_PROBE_INTERVAL) = interval
    let c2 : Ctx := { c1 with wndProbeCount := c1.wndProbeCount + 1 }
    have h2 : Quiet c c2 := h1.trans ⟨rfl, rfl, rfl, rfl, rfl, rfl⟩
    have h3 : Settles rx c2 { c2 with wndProbeInterval := interval,
                                      persistTimer := tcpTimerStart c2.toEnv interval } :=
      ⟨.single (.probe interval _ rfl hi.symm),
        SameEvents.waked ⟨id, rfl, rfl, fun _ => rfl, fun _ => rfl⟩⟩
    exact h2.settles.trans h3
  · exact settles_close c

theorem settles_tickOverride (hs : c.state.sendable) : Settles rx c (tickOverride c) := by
  have h1 := (acts_sendLoop rx (fun _ _ _ => true) c.sndUser c (usableWindow c) _ hs
    (usableWindow_le c) rfl).1
  unfold tickOverride
  simp only
  split
  · exact (Settles.update h1).trans (Quiet.settles ⟨rfl, rfl, rfl, rfl, rfl, rfl⟩)
  · exact .update h1

/-- One run of the timer. -/
theorem settles_tcpTickSocket (c : Ctx) : Settles rx c (tcpTickSocket c) := by
  unfold tcpTickSocket
  split
  · exact .refl c
  simp only
  have hif : ∀ (c c1 : Ctx) (P : Prop) [Decidable P], (P → Settles rx c c1) →
      Settles rx c (if P then c1 else c) := by
    intro c c1 P _ h
    split
    · rename_i hp; exact h hp
    · exact .refl c
  have h1 := hif c _ (c.retransmitQueue ≠ [] ∧ tcpTimerElapsed c.toEnv c.retransmitTimer)
    fun h => settles_tickRetransmit h.1
  generalize (if c.retransmitQueue ≠ [] ∧ tcpTimerElapsed c.toEnv c.retransmitTimer then
    tickRetransmit c else c) = c1 at h1
  split
  · exact h1
  refine h1.trans ?_
  have h2 := hif c1 _ (c1.sndWnd = 0 ∧ c1.wndProbeInterval ≠ 0 ∧
    tcpTimerElapsed c1.toEnv c1.persistTimer) fun _ => settles_tickPersist c1
  generalize (if c1.sndWnd = 0 ∧ c1.wndProbeInterval ≠ 0 ∧
    tcpTimerElapsed c1.toEnv c1.persistTimer then tickPersist c1 else c1) = c2 at h2
  refine h2.trans ?_
  have h3 := hif c2 _ ((c2.state = .ESTABLISHED ∨ c2.state = .CLOSE_WAIT) ∧ c2.sndUser ≠ 0 ∧
    tcpTimerElapsed c2.toEnv c2.overrideTimer)
    fun h => settles_tickOverride (by obtain ⟨h | h, -⟩ := h <;> (rw [h]; rfl))
  generalize (if (c2.state = .ESTABLISHED ∨ c2.state = .CLOSE_WAIT) ∧ c2.sndUser ≠ 0 ∧
    tcpTimerElapsed c2.toEnv c2.overrideTimer then tickOverride c2 else c2) = c3 at h3
  refine h3.trans ?_
  have h4 := hif c3 _ (c3.state = .FIN_WAIT_2 ∧ tcpTimerElapsed c3.toEnv c3.finWait2Timer)
    fun _ => settles_close c3
  generalize (if c3.state = .FIN_WAIT_2 ∧ tcpTimerElapsed c3.toEnv c3.finWait2Timer then
    tcpChangeState c3 .CLOSED else c3) = c4 at h4
  refine h4.trans (hif c4 _ _ fun _ => ?_)
  exact (settles_close c4).trans (settles_disposeUnowned (tcpChangeState_state _ _))

end Cyclone
