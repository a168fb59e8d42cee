import Cyclone.Trips

/-!
# Cyclone.Frames

What the sending functions leave alone, field by field. A segment that is not queued changes the
log and the surroundings only (`OnlySends`); a queued one also changes the end of the
retransmission queue, the round trip measurement and the retransmission timer (`Queues`).

* `onlySends_tcpSendSegment`, `onlySends_tcpRetransmitSegment`: bare segments, retransmission.
* `queues_tcpSendSegment`: a queued segment.
-/

namespace Cyclone

open Serial Relation

variable {c c' c'' : Ctx}

/-- Only the log of segments and the surroundings differ. -/
def OnlySends (c c' : Ctx) : Prop := ∃ e sent, c' = { c with toEnv := e, sent := sent }

namespace OnlySends

theorem refl (c : Ctx) : OnlySends c c := ⟨c.toEnv, c.sent, rfl⟩

theorem trans (h : OnlySends c c') (h' : OnlySends c' c'') : OnlySends c c'' := by
  obtain ⟨e, sent, rfl⟩ := h
  obtain ⟨e', sent', rfl⟩ := h'
  exact ⟨e', sent', rfl⟩

theorem env (c : Ctx) (e : Env) : OnlySends c { c with toEnv := e } := ⟨e, c.sent, rfl⟩

end OnlySends

theorem onlySends_ipSendDatagram (c : Ctx) (ph : IpPseudoHeader) (h : TcpHeader)
    (data : List UInt8) : OnlySends c (ipSendDatagram c ph h data).1 := ⟨_, _, rfl⟩

theorem onlySends_tcpSendSegment (c : Ctx) (flags : TcpFlags) (seqNum ackNum : Word) (n : Nat) :
    OnlySends c (tcpSendSegment c flags seqNum ackNum n false).1 := by
  unfold tcpSendSegment
  simp only [ipAllocBuffer]
  split
  · exact .env c _
  · split
    · split
      · exact .env c _
      · exact ⟨_, _, rfl⟩
    · exact .env c _

theorem onlySends_tcpSendResetSegment (c : Ctx) (ph : IpPseudoHeader) (segment : TcpHeader)
    (length : Nat) : OnlySends c (tcpSendResetSegment c ph segment length).1 := by
  unfold tcpSendResetSegment
  simp only [ipAllocBuffer]
  split
  · exact .env c _
  · split
    · exact ⟨_, _, rfl⟩
    · split
      · exact ⟨_, _, rfl⟩
      · exact .env c _

theorem onlySends_retransmitItem (c : Ctx) (item : TcpQueueItem) :
    OnlySends c (retransmitItem c item).1 := by
  unfold retransmitItem
  simp only [ipAllocBuffer]
  split
  · exact .env c _
  · split
    · split
      · exact ⟨_, _, rfl⟩
      · exact .env c _
    · exact .env c _

theorem onlySends_retransmitItems (items : List TcpQueueItem) : ∀ (c : Ctx) (length : Nat),
    OnlySends c (retransmitItems c items length).1 := by
  induction items with
  | nil => intro c length; exact .refl c
  | cons item rest ih =>
    intro c length
    unfold retransmitItems
    split
    · exact .refl c
    · have h := onlySends_retransmitItem c item
      split
      · rename_i c1 h1
        rw [h1] at h
        exact h.trans (ih c1 _)
      · rename_i c1 e _ h1
        rw [h1] at h
        exact h

theorem onlySends_tcpRetransmitSegment (c : Ctx) : OnlySends c (tcpRetransmitSegment c).1 :=
  onlySends_retransmitItems _ _ _

/-- A segment was queued: an item at the end of the queue, and the timer runs. -/
def Queues (c c' : Ctx) (item : TcpQueueItem) : Prop :=
  ∃ e sent rtt n timer count, timer.running = true ∧
    c' = { c with toEnv := e, sent := sent, toRttVars := rtt, n := n, retransmitTimer := timer,
                  retransmitCount := count, retransmitQueue := c.retransmitQueue ++ [item] }

/-- A segment with flags `flags` at `seqNum` and `n` bytes of data. -/
def IsItem (flags : TcpFlags) (seqNum : Word) (n : Nat) (item : TcpQueueItem) : Prop :=
  item.length = n ∧ item.header.flags = flags ∧ item.header.seqNum = seqNum

theorem Queues.core {item : TcpQueueItem} (h : Queues c c' item) :
    c'.toSockCore = { c.toSockCore with retransmitQueue := c.retransmitQueue ++ [item] } := by
  obtain ⟨e, sent, rtt, n, timer, count, -, rfl⟩ := h
  rfl

theorem Queues.aux {item : TcpQueueItem} (h : Queues c c' item) :
    c'.toWndVars = c.toWndVars ∧ c'.toMssVars = c.toMssVars ∧ c'.persistTimer = c.persistTimer ∧
      c'.retransmitTimer.running = true := by
  obtain ⟨e, sent, rtt, n, timer, count, ht, rfl⟩ := h
  exact ⟨rfl, rfl, rfl, ht⟩

theorem queues_tcpQueueSegment {ph : IpPseudoHeader} {h : TcpHeader} {n : Nat}
    (hq : tcpQueueSegment c ph h n = (c', true)) : Queues c c' ⟨n, false, ph, h⟩ := by
  unfold tcpQueueSegment at hq
  simp only at hq
  split at hq
  · simp only [Prod.mk.injEq, and_true] at hq
    subst hq
    cases hb : c.rttBusy <;> cases ht : c.retransmitTimer.running
    all_goals
      simp only [tcpTimerRunning, ht, Bool.false_eq_true, if_true, if_false]
      exact ⟨_, _, _, _, _, _, by first | rfl | exact ht, rfl⟩
  · simp at hq

theorem onlySends_tcpQueueSegment {ph : IpPseudoHeader} {h : TcpHeader} {n : Nat}
    (hq : tcpQueueSegment c ph h n = (c', false)) : OnlySends c c' := by
  unfold tcpQueueSegment at hq
  simp only at hq
  split at hq
  · simp at hq
  · simp only [Prod.mk.injEq, and_true] at hq
    subst hq
    exact .env c _

/-- A queued segment: nothing happens and an error is returned, or it is in the queue. -/
theorem queues_tcpSendSegment (c : Ctx) (flags : TcpFlags) (seqNum ackNum : Word) (n : Nat) :
    OnlySends c (tcpSendSegment c flags seqNum ackNum n true).1 ∧
        (tcpSendSegment c flags seqNum ackNum n true).2 ≠ .NO_ERROR ∨
      ∃ item, IsItem flags seqNum n item ∧
        Queues c (tcpSendSegment c flags seqNum ackNum n true).1 item := by
  obtain ⟨hf, hs, -⟩ := tcpFormatHeader_fields c.toSocket flags seqNum ackNum
  generalize hh : tcpFormatHeader c.toSocket flags seqNum ackNum = h at hf hs
  unfold tcpSendSegment
  simp only [hh, ipAllocBuffer]
  split
  · exact .inl ⟨.env c _, by simp⟩
  · simp only [if_true]
    split
    · split
      · exact .inl ⟨.env c _, by simp⟩
      · split
        · rename_i c1 hq
          exact .inl ⟨(OnlySends.env c _).trans (onlySends_tcpQueueSegment hq), by simp⟩
        · rename_i c1 hq
          obtain ⟨e, sent, rtt, m, timer, count, ht, rfl⟩ := queues_tcpQueueSegment hq
          exact .inr ⟨_, ⟨rfl, hf, hs⟩, _, _, rtt, m, timer, count, ht, rfl⟩
    · rename_i hne _
      exact .inl ⟨.env c _, hne⟩

end Cyclone
