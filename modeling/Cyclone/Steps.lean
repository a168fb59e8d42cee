import Cyclone.Kernel

/-!
# Cyclone.Steps

The functions of the stack as chains of kernel steps.

* `tcpSendSegment_spec`: what sending a segment does, whatever memory and the IP layer answer.
* `eventsOk_tcpUpdateEvents`: the event flags only show what the state allows.
* `Does R`: a part of the code that is a chain of `R` steps. One lemma for each helper function.
-/

namespace Cyclone

open Serial Relation

/-! ## Reading the transmit buffer -/

theorem txRead_eq (s : SockCore) (seqNum : Word) (n : Nat) :
    txRead s seqNum n =
      if bufOffset s.iss seqNum s.txBufferSize + n ≤ s.txBufferSize then
        (s.txBuffer.bytes.drop (bufOffset s.iss seqNum s.txBufferSize)).take n
      else
        (s.txBuffer.bytes.drop (bufOffset s.iss seqNum s.txBufferSize)).take
            (s.txBufferSize - bufOffset s.iss seqNum s.txBufferSize) ++
          s.txBuffer.bytes.take (n - (s.txBufferSize - bufOffset s.iss seqNum s.txBufferSize)) :=
  rfl

theorem tcpReadTxBuffer_ok {s : SockCore} {seqNum : Word} {b b' : NetBuffer} {n : Nat}
    (h : tcpReadTxBuffer s seqNum b n = (b', .NO_ERROR)) :
    b'.bytes = b.bytes ++ txRead s seqNum n ∧ (txRead s seqNum n).length = n := by
  unfold tcpReadTxBuffer at h
  rw [txRead_eq]
  generalize bufOffset s.iss seqNum s.txBufferSize = off at h ⊢
  simp only at h
  split at h
  · rename_i hle
    obtain ⟨h1, h2⟩ := netBufferConcat_bytes h
    rw [if_pos hle]
    exact ⟨h1, by simp; omega⟩
  · rename_i hgt
    rw [if_neg hgt]
    split at h
    · rename_i b1 hb1
      obtain ⟨h1, h2⟩ := netBufferConcat_bytes hb1
      obtain ⟨h3, h4⟩ := netBufferConcat_bytes h
      refine ⟨?_, by simp; omega⟩
      rw [h3, h1]; simp
    · rename_i hne _
      cases h
      exact absurd rfl hne

@[simp] theorem txRead_zero (s : SockCore) (seqNum : Word) : txRead s seqNum 0 = [] := by
  rw [txRead_eq]
  split
  · simp
  · rename_i h
    rw [show s.txBufferSize - bufOffset s.iss seqNum s.txBufferSize = 0 by omega]
    simp

theorem segmentData_ok {s : SockCore} {seqNum : Word} {b b' : NetBuffer} {n : Nat}
    (h : (if n > 0 then tcpReadTxBuffer s seqNum b n else (b, .NO_ERROR)) = (b', .NO_ERROR)) :
    b'.bytes = b.bytes ++ txRead s seqNum n ∧ (txRead s seqNum n).length = n := by
  split at h
  · exact tcpReadTxBuffer_ok h
  · have hn : n = 0 := by omega
    cases h
    subst hn
    simp [txRead_zero]

/-! ## Sending a segment -/

theorem tcpAddOption_fields (segment : TcpHeader) (kind : UInt8) (value : List UInt8) :
    (tcpAddOption segment kind value).1.flags = segment.flags ∧
    (tcpAddOption segment kind value).1.seqNum = segment.seqNum ∧
    (tcpAddOption segment kind value).1.ackNum = segment.ackNum := by
  simp only [tcpAddOption]
  split <;> exact ⟨rfl, rfl, rfl⟩

theorem tcpFormatHeader_fields (s : Socket) (flags : TcpFlags) (seqNum ackNum : Word) :
    (tcpFormatHeader s flags seqNum ackNum).flags = flags ∧
    (tcpFormatHeader s flags seqNum ackNum).seqNum = seqNum ∧
    (tcpFormatHeader s flags seqNum ackNum).ackNum = if flags.ack then ackNum else 0 := by
  simp only [tcpFormatHeader]
  split
  · exact tcpAddOption_fields _ _ _
  · exact ⟨rfl, rfl, rfl⟩

theorem tcpQueueSegment_spec {c c' : Ctx} {ph : IpPseudoHeader} {h : TcpHeader} {n : Nat} {ok : Bool}
    (hq : tcpQueueSegment c ph h n = (c', ok)) :
    c'.toSockEvents = c.toSockEvents ∧
    c'.kernel = if ok then
      { c.kernel with retransmitQueue := c.retransmitQueue ++ [⟨n, false, ph, h⟩] }
      else c.kernel := by
  unfold tcpQueueSegment at hq
  simp only at hq
  split at hq
  · simp only [Prod.mk.injEq] at hq
    obtain ⟨rfl, rfl⟩ := hq
    refine ⟨?_, ?_⟩ <;> (split <;> split) <;> rfl
  · simp only [Prod.mk.injEq] at hq
    obtain ⟨rfl, rfl⟩ := hq
    exact ⟨rfl, rfl⟩

/-- What `tcpSendSegment` does: nothing and an error, or the segment goes out, and into the queue
if that was asked for. -/
structure SegmentSent (c : Ctx) (flags : TcpFlags) (seqNum ackNum : Word) (n : Nat) (q : Bool)
    (c' : Ctx) (ph : IpPseudoHeader) (h : TcpHeader) : Prop where
  flags_eq : h.flags = flags
  seq_eq : h.seqNum = seqNum
  ack_eq : h.ackNum = if flags.ack then ackNum else 0
  data_length : (txRead c.toSockCore seqNum n).length = n
  kernel_eq : c'.kernel = if q then c.kernel.post ph h n
    else c.kernel.emit [⟨ph, h, txRead c.toSockCore seqNum n, c.sndUna⟩]

theorem tcpSendSegment_spec (c : Ctx) (flags : TcpFlags) (seqNum ackNum : Word) (n : Nat) (q : Bool) :
    (tcpSendSegment c flags seqNum ackNum n q).1.toSockEvents = c.toSockEvents ∧
    ((tcpSendSegment c flags seqNum ackNum n q).1.kernel = c.kernel ∧
        (tcpSendSegment c flags seqNum ackNum n q).2 ≠ .NO_ERROR ∨
      ∃ ph h, SegmentSent c flags seqNum ackNum n q
        (tcpSendSegment c flags seqNum ackNum n q).1 ph h) := by
  obtain ⟨hf, hs, ha⟩ := tcpFormatHeader_fields c.toSocket flags seqNum ackNum
  generalize hh : tcpFormatHeader c.toSocket flags seqNum ackNum = h at hf hs ha
  unfold tcpSendSegment
  simp only [hh, ipAllocBuffer]
  by_cases hm : (memPoolAlloc c.toEnv).2 = true
  case neg => simp only [hm]; exact ⟨rfl, .inl ⟨rfl, by simp⟩⟩
  simp only [hm, if_true]
  split
  · rename_i b' hb
    obtain ⟨hbytes, hlen⟩ := segmentData_ok hb
    have hdata : b'.bytes.drop h.encode.length = txRead c.toSockCore seqNum n := by
      rw [hbytes]; simp [NetBuffer.bytes]
    split
    · exact ⟨rfl, .inl ⟨rfl, by simp⟩⟩
    · rename_i ph _
      cases q with
      | false =>
        simp only [Bool.false_eq_true, if_false, ipSendDatagram, hdata]
        refine ⟨trivial, .inr ⟨ph, h, hf, hs, ha, hlen, ?_⟩⟩
        rfl
      | true =>
        simp only [if_true]
        split
        · rename_i c1 hq
          obtain ⟨he, hk⟩ := tcpQueueSegment_spec hq
          exact ⟨he, .inl ⟨hk, by simp⟩⟩
        · rename_i c1 hq
          obtain ⟨he, hk⟩ := tcpQueueSegment_spec hq
          simp only [ipSendDatagram, hdata]
          refine ⟨he, .inr ⟨ph, h, hf, hs, ha, hlen, ?_⟩⟩
          have hs1 : c1.sndUna = c.sndUna := congrArg (·.sndUna) hk
          show Kernel.emit c1.kernel _ = _
          rw [hk, hs1, ← hs]
          rfl
  · rename_i hne _
    exact ⟨rfl, .inl ⟨rfl, hne⟩⟩

/-! ## Events -/

/-- The events that can stand in the flags of a socket in the given state. -/
def eventsOf (state : TcpState) : SocketEvent :=
  stateEvents state ||| SOCKET_EVENT_LINK_UP ||| SOCKET_EVENT_LINK_DOWN |||
  match state with
  | .SYN_SENT | .SYN_RECEIVED => SOCKET_EVENT_TX_DONE ||| SOCKET_EVENT_TX_ACKED
  | .LISTEN => SOCKET_EVENT_RX_READY
  | _ => SOCKET_EVENT_TX_READY ||| SOCKET_EVENT_TX_DONE ||| SOCKET_EVENT_TX_ACKED |||
      SOCKET_EVENT_RX_READY

/-- The event flags are up to date with the state. -/
def EventsOk (c : Ctx) : Prop := c.eventFlags &&& eventsOf c.state = c.eventFlags

theorem events_le (s : Socket) (linkState : NetInterface → Bool) :
    (stateEvents s.state ||| txEvents s ||| rxEvents s ||| linkEvents linkState s.interface) &&&
      eventsOf s.state =
    stateEvents s.state ||| txEvents s ||| rxEvents s ||| linkEvents linkState s.interface := by
  have h1 : stateEvents s.state &&& eventsOf s.state = stateEvents s.state := by
    cases s.state <;> rfl
  have h2 : txEvents s &&& eventsOf s.state = txEvents s := by
    unfold txEvents
    cases s.state <;> simp only <;> repeat' split
    all_goals rfl
  have h3 : rxEvents s &&& eventsOf s.state = rxEvents s := by
    unfold rxEvents
    cases s.state <;> simp only <;> repeat' split
    all_goals rfl
  have h4 : linkEvents linkState s.interface &&& eventsOf s.state
      = linkEvents linkState s.interface := by
    unfold linkEvents
    cases s.state <;> repeat' split
    all_goals rfl
  rw [BitVec.and_or_distrib_right, BitVec.and_or_distrib_right, BitVec.and_or_distrib_right,
    h1, h2, h3, h4]

theorem eventsOk_tcpUpdateEvents (c : Ctx) : EventsOk (tcpUpdateEvents c) := by
  show (_ &&& c.eventMask) &&& eventsOf c.state = _ &&& c.eventMask
  rw [BitVec.and_assoc, BitVec.and_comm c.eventMask, ← BitVec.and_assoc, events_le]

/-! ## Chains of steps -/

/-- `c'` comes from `c` by a chain of `R` steps, and the events are kept in order. -/
structure Does (R : Kernel → Kernel → Prop) (c c' : Ctx) : Prop where
  chain : ReflTransGen R c.kernel c'.kernel
  mask : c'.eventMask = c.eventMask
  events : EventsOk c → EventsOk c'

namespace Does

variable {R S : Kernel → Kernel → Prop} {c c' c'' : Ctx}

theorem refl (c : Ctx) : Does R c c := ⟨.refl, rfl, id⟩

theorem trans (h : Does R c c') (h' : Does R c' c'') : Does R c c'' :=
  ⟨h.chain.trans h'.chain, h'.mask.trans h.mask, h'.events ∘ h.events⟩

theorem mono (h : Does R c c') (hRS : ∀ k k', R k k' → S k k') : Does S c c' :=
  ⟨ReflTransGen.mono hRS _ _ h.chain, h.mask, h.events⟩

/-- Only what the kernel leaves out has changed. -/
theorem same (hk : c'.kernel = c.kernel) (he : c'.toSockEvents = c.toSockEvents) : Does R c c' := by
  have hs : c'.state = c.state := congrArg (·.state) hk
  have hf : c'.eventFlags = c.eventFlags := congrArg (·.eventFlags) he
  refine ⟨hk ▸ .refl, congrArg (·.eventMask) he, fun h => ?_⟩
  rw [EventsOk, hs, hf]; exact h

/-- One step that leaves the state alone. -/
theorem single (h : R c.kernel c'.kernel) (he : c'.toSockEvents = c.toSockEvents)
    (hs : c'.state = c.state) : Does R c c' := by
  have hf : c'.eventFlags = c.eventFlags := congrArg (·.eventFlags) he
  refine ⟨.single h, congrArg (·.eventMask) he, fun h => ?_⟩
  rw [EventsOk, hs, hf]; exact h

end Does

theorem does_tcpUpdateEvents {R : Kernel → Kernel → Prop} (c : Ctx) : Does R c (tcpUpdateEvents c) :=
  ⟨.refl, rfl, fun _ => eventsOk_tcpUpdateEvents c⟩

/-! ## Sending side -/

variable {rx : Option Packet}

/-- What no step of the sending side touches. -/
structure SendFrame (k k' : Kernel) : Prop where
  id : k'.toSockId = k.toSockId
  ctl : k'.toTcpCtl = k.toTcpCtl
  rcv : k'.toRcvVars = k.toRcvVars
  buf : k'.toBufVars = k.toBufVars
  changes : k'.changes = k.changes
  iss : k'.iss = k.iss

theorem Send.frame {k k' : Kernel} (h : Send rx k k') : SendFrame k k' := by
  cases h with
  | sendData ok => cases ok <;> exact ⟨rfl, rfl, rfl, rfl, rfl, rfl⟩
  | _ => exact ⟨rfl, rfl, rfl, rfl, rfl, rfl⟩

theorem Does.sendFrame {c c' : Ctx} (h : Does (Send rx) c c') : SendFrame c.kernel c'.kernel :=
  Run.chain_mono h.chain (fun _ _ => Send.frame) (fun _ => ⟨rfl, rfl, rfl, rfl, rfl, rfl⟩)
    fun _ _ _ h h' => ⟨h'.id.trans h.id, h'.ctl.trans h.ctl, h'.rcv.trans h.rcv,
      h'.buf.trans h.buf, h'.changes.trans h.changes, h'.iss.trans h.iss⟩

/-- A segment without data that is not queued: nothing happens, or one emission. -/
theorem does_bare {c : Ctx} {flags : TcpFlags} {seqNum ackNum : Word}
    (h : ∀ e : Emission, e.sndUna = c.sndUna → e.data = [] → e.header.flags = flags →
      e.header.seqNum = seqNum → (e.header.ackNum = if flags.ack then ackNum else 0) →
      Send rx c.kernel (c.kernel.emit [e])) :
    Does (Send rx) c (tcpSendSegment c flags seqNum ackNum 0 false).1 := by
  obtain ⟨he, ⟨hk, -⟩ | ⟨ph, hd, hs⟩⟩ := tcpSendSegment_spec c flags seqNum ackNum 0 false
  · exact .same hk he
  · have hk := hs.kernel_eq
    rw [if_neg (by simp)] at hk
    refine .single ?_ he (congrArg (·.state) hk)
    rw [hk]
    exact h _ rfl (txRead_zero _ _) hs.flags_eq hs.seq_eq hs.ack_eq

theorem does_sendAck {c : Ctx} (hs : c.kernel.ackReady) :
    Does (Send rx) c (tcpSendSegment c { ack := true } c.sndNxt c.rcvNxt 0 false).1 :=
  does_bare fun _ h1 h2 h3 h4 h5 => .sendAck hs ⟨h1, h2, h3, h4, h5⟩

theorem does_sendProbe {c : Ctx} (hs : c.wndProbeInterval ≠ 0) :
    Does (Send rx) c (tcpSendSegment c { ack := true } (c.sndNxt - 1) c.rcvNxt 0 false).1 :=
  does_bare fun _ h1 h2 h3 h4 h5 => .sendProbe hs ⟨h1, h2, h3, h4, h5⟩

theorem does_sendReset {c : Ctx} {flags : TcpFlags} (hf : flags.rst = true) (seqNum ackNum : Word) :
    Does (Send rx) c (tcpSendSegment c flags seqNum ackNum 0 false).1 :=
  does_bare fun _ h1 h2 h3 _ _ => .sendReset ⟨h1, h2, by rw [h3, hf]⟩

theorem does_tcpSendResetSegment (c : Ctx) (ph : IpPseudoHeader) (segment : TcpHeader)
    (length : Nat) : Does (Send rx) c (tcpSendResetSegment c ph segment length).1 := by
  unfold tcpSendResetSegment
  simp only
  split
  · exact .same rfl rfl
  · split
    · exact .single (.sendReset ⟨rfl, rfl, rfl⟩) rfl rfl
    · split
      · exact .single (.sendReset ⟨rfl, rfl, rfl⟩) rfl rfl
      · exact .same rfl rfl

/-! ## Checks on incoming segments -/

theorem tcpCheckSequenceNumber_cases (rx : Option Packet) {c : Ctx} (hs : c.kernel.ackReady) (segment : TcpHeader)
    (length : Nat) :
    tcpCheckSequenceNumber c segment length = (c, .NO_ERROR) ∧
        seqAcceptable c.toSockCore segment length = true ∨
      Does (Send rx) c (tcpCheckSequenceNumber c segment length).1 ∧
        (tcpCheckSequenceNumber c segment length).2 ≠ .NO_ERROR := by
  unfold tcpCheckSequenceNumber
  split
  · rename_i h; exact .inl ⟨rfl, h⟩
  · split
    · exact .inr ⟨.refl c, by simp⟩
    · exact .inr ⟨does_sendAck hs, by simp⟩

theorem tcpCheckSyn_cases (rx : Option Packet) (c : Ctx) (segment : TcpHeader) (length : Nat) :
    tcpCheckSyn c segment length = (c, .NO_ERROR) ∧ segment.flags.syn = false ∨
      Does (Send rx) c (tcpCheckSyn c segment length).1 ∧
        (tcpCheckSyn c segment length).2 ≠ .NO_ERROR := by
  unfold tcpCheckSyn
  split
  · split
    · exact .inr ⟨does_sendReset rfl _ _, by simp⟩
    · exact .inr ⟨does_sendReset rfl _ _, by simp⟩
  · rename_i h; exact .inl ⟨rfl, by simpa using h⟩

/-! ## Retransmission -/

theorem retransmitItem_spec (rx : Option Packet) {c : Ctx} {item : TcpQueueItem} (hi : item ∈ c.retransmitQueue) :
    Does (Send rx) c (retransmitItem c item).1 ∧
      (retransmitItem c item).1.retransmitQueue = c.retransmitQueue := by
  unfold retransmitItem
  simp only [ipAllocBuffer]
  by_cases hm : (memPoolAlloc c.toEnv).2 = true
  case neg => simp only [hm]; exact ⟨.same rfl rfl, rfl⟩
  simp only [hm, if_true]
  split
  · rename_i b hb
    split
    · rename_i b' hb'
      obtain ⟨h1, h2⟩ := tcpReadTxBuffer_ok hb'
      simp only [ipSendDatagram]
      rw [h1, List.drop_left]
      exact ⟨.single (.resend hi h2) rfl rfl, trivial⟩
    · exact ⟨.same rfl rfl, rfl⟩
  · exact ⟨.same rfl rfl, rfl⟩

theorem does_retransmitItems (items : List TcpQueueItem) : ∀ (c : Ctx) (length : Nat),
    (∀ item ∈ items, item ∈ c.retransmitQueue) →
    Does (Send rx) c (retransmitItems c items length).1 := by
  induction items with
  | nil => intro c length _; exact .refl c
  | cons item rest ih =>
    intro c length h
    unfold retransmitItems
    split
    · exact .refl c
    · obtain ⟨hd, hq⟩ := retransmitItem_spec rx (h item (by simp))
      split
      · rename_i c1 h1
        rw [h1] at hd hq
        refine hd.trans (ih c1 _ fun i hi => ?_)
        rw [hq]; exact h i (by simp [hi])
      · rename_i c1 e _ h1
        rw [h1] at hd
        exact hd

theorem does_tcpRetransmitSegment (c : Ctx) : Does (Send rx) c (tcpRetransmitSegment c).1 :=
  does_retransmitItems _ _ _ fun _ h => h

theorem does_tcpFastRetransmit (c : Ctx) : Does (Send rx) c (tcpFastRetransmit c) := by
  let c1 : Ctx := { c with ssthresh := u16 (max ((c.sndNxt - c.sndUna).toNat / 2) (2 * c.smss)),
                           recover := c.sndNxt - 1 }
  have h1 : Does (Send rx) c c1 := .same rfl rfl
  exact (h1.trans (does_tcpRetransmitSegment c1)).trans (.same rfl rfl)

theorem does_tcpFastRecovery (c : Ctx) (segment : TcpHeader) (n : Word) :
    Does (Send rx) c (tcpFastRecovery c segment n) := by
  unfold tcpFastRecovery
  split
  · exact .same rfl rfl
  · refine (does_tcpRetransmitSegment c).trans ?_
    simp only
    split <;> split <;> exact .same rfl rfl

theorem does_tcpFastLossRecovery (c : Ctx) (segment : TcpHeader) :
    Does (Send rx) c (tcpFastLossRecovery c segment) := by
  unfold tcpFastLossRecovery
  split
  · exact .same rfl rfl
  · exact (does_tcpRetransmitSegment c).trans (.same rfl rfl)

/-! ## Acknowledgments -/

theorem does_tcpUpdateSendWindow {c : Ctx} (hs : c.state.acking) (segment : TcpHeader) :
    Does (Send rx) c (tcpUpdateSendWindow c segment) := by
  unfold tcpUpdateSendWindow
  split
  · split
    · exact .same rfl rfl
    · exact .refl c
  · split
    · simp only
      split
      · exact .single (.setProbe TCP_DEFAULT_PROBE_INTERVAL (.inl hs)) rfl rfl
      · exact .same rfl rfl
    · exact .refl c

theorem does_tcpComputeRto (c : Ctx) : Does (Send rx) c (tcpComputeRto c).1 := by
  unfold tcpComputeRto
  split
  · exact .same rfl rfl
  · exact .refl c

theorem tcpUpdateRetransmitQueue_kernel (c : Ctx) :
    (tcpUpdateRetransmitQueue c).kernel = c.kernel.pruned ∧
      (tcpUpdateRetransmitQueue c).toSockEvents = c.toSockEvents := by
  simp only [tcpUpdateRetransmitQueue]
  split <;> split <;> exact ⟨rfl, rfl⟩

theorem does_tcpUpdateRetransmitQueue (c : Ctx) :
    Does (Send rx) c (tcpUpdateRetransmitQueue c) := by
  obtain ⟨hk, he⟩ := tcpUpdateRetransmitQueue_kernel c
  exact .single (hk ▸ .prune) he (congrArg (·.state) hk)

theorem does_ackNewData {c : Ctx} {p : Packet} (hs : c.state.acking)
    (ha : p.segment.flags.ack = true) (h1 : 0 < cmpSeq p.segment.ackNum c.sndUna)
    (h2 : cmpSeq p.segment.ackNum c.sndNxt ≤ 0) :
    Does (Send (some p)) c (ackNewData c p.segment) := by
  unfold ackNewData
  simp only
  generalize hn : (if c.sndUna = c.iss then p.segment.ackNum - c.sndUna - 1
    else p.segment.ackNum - c.sndUna) = n
  let c1 : Ctx := { c with n := c.n + n, sndUna := p.segment.ackNum }
  have hack : Does (Send (some p)) c c1 := .single (.ack rfl hs ha h1 h2) rfl rfl
  have hqueue := (hack.trans (does_tcpComputeRto c1)).trans (does_tcpUpdateRetransmitQueue _)
  refine hqueue.trans ?_
  generalize tcpUpdateRetransmitQueue (tcpComputeRto c1).1 = c3
  refine @Does.trans _ _ (if c3.congestState = .RECOVERY then tcpFastRecovery c3 p.segment n
    else _) _ ?_ (.same rfl rfl)
  split
  · exact does_tcpFastRecovery _ _ _
  · let c4 : Ctx := { c3 with dupAckCount := 0 }
    have hloss : Does (Send (some p)) c3 (if c4.congestState = .LOSS_RECOVERY then
        tcpFastLossRecovery c4 p.segment else c4) := by
      have h4 : Does (Send (some p)) c3 c4 := .same rfl rfl
      split
      · exact h4.trans (does_tcpFastLossRecovery _ _)
      · exact h4
    refine hloss.trans ?_
    generalize (if c4.congestState = .LOSS_RECOVERY then tcpFastLossRecovery c4 p.segment
      else c4) = c5
    split
    · exact .same rfl rfl
    · split
      · exact .same rfl rfl
      · exact .refl _

theorem does_ackCongest (c : Ctx) (segment : TcpHeader) (duplicateFlag : Bool) :
    Does (Send rx) c (ackCongest c segment duplicateFlag) := by
  unfold ackCongest
  split
  · split
    · exact does_tcpFastRetransmit c
    · exact .refl c
  · split
    · exact .same rfl rfl
    · exact .refl c
  · exact .refl c

theorem does_ackNoData (c : Ctx) (segment : TcpHeader) (duplicateFlag : Bool) :
    Does (Send rx) c (ackNoData c segment duplicateFlag) := by
  let c1 : Ctx := { c with dupAckCount := if duplicateFlag then c.dupAckCount + 1 else 0 }
  have h1 : Does (Send rx) c c1 := .same rfl rfl
  exact .trans (h1.trans (does_ackCongest c1 segment duplicateFlag)) (.same rfl rfl)

/-- `tcpCheckAck` returns no error only for a segment with an acknowledgment. -/
theorem tcpCheckAck_cases {c : Ctx} {p : Packet} (hs : c.state.acking) (length : Nat) :
    Does (Send (some p)) c (tcpCheckAck c p.segment length).1 ∧
      ((tcpCheckAck c p.segment length).2 = .NO_ERROR → p.segment.flags.ack = true) := by
  have hr : c.kernel.ackReady := .inl (by
    show c.state.connected = true
    revert hs; cases c.state <;> simp [TcpState.acking, TcpState.connected])
  unfold tcpCheckAck
  by_cases ha : p.segment.flags.ack = true
  case neg => simp only [ha]; exact ⟨.refl c, by simp⟩
  simp only [ha, Bool.not_true, Bool.false_eq_true, if_false]
  split
  · exact ⟨.refl c, by simp⟩
  · split
    · exact ⟨does_sendAck hr, by simp⟩
    · rename_i h1 h2
      refine ⟨?_, fun _ => trivial⟩
      have hw : Does (Send (some p)) c (tcpUpdateSendWindow c p.segment) :=
        does_tcpUpdateSendWindow hs p.segment
      have hctl := hw.sendFrame.ctl
      have hstate : (tcpUpdateSendWindow c p.segment).state = c.state := congrArg (·.state) hctl
      refine (hw.trans ?_).trans (does_tcpUpdateEvents _)
      have hsnd : (tcpUpdateSendWindow c p.segment).toSndVars = c.toSndVars := by
        simp only [tcpUpdateSendWindow]; repeat' split
        all_goals rfl
      have hnxt : (tcpUpdateSendWindow c p.segment).sndNxt = c.sndNxt := congrArg (·.sndNxt) hsnd
      split
      · rename_i h3
        exact does_ackNewData (by rw [hstate]; exact hs) ha h3 (by rw [hnxt]; omega)
      · exact does_ackNoData _ _ _

/-! ## Sending data -/

theorem does_sendLoop (sendable : Ctx → Word → Nat → Bool) (fuel : Nat) : ∀ (c : Ctx) (u : Word),
    c.state.sendable → Does (Send rx) c (sendLoop sendable fuel c u).1 := by
  induction fuel with
  | zero => intro c u _; exact .refl c
  | succ fuel ih =>
    intro c u hs
    unfold sendLoop
    split
    · exact .refl c
    · simp only
      split
      · generalize hn : min (min u.toNat c.sndUser) c.smss = n
        obtain ⟨he, hk⟩ := tcpSendSegment_spec c { psh := true, ack := true } c.sndNxt c.rcvNxt n true
        generalize tcpSendSegment c { psh := true, ack := true } c.sndNxt c.rcvNxt n true = r at he hk
        have hle : n ≤ c.sndUser := by omega
        split
        · rename_i c1
          obtain ⟨-, hno⟩ | ⟨ph, hd, h⟩ := hk
          · exact absurd rfl hno
          · have hk1 := h.kernel_eq
            rw [if_pos rfl] at hk1
            let c2 : Ctx := { c1 with sndNxt := c1.sndNxt + w32 n, sndUser := u16Sub c1.sndUser n }
            have hstate : c1.state = c.state := congrArg (·.state) hk1
            have hstep := @Send.sendData rx c.kernel ph hd n true hs hle h.flags_eq h.seq_eq h.ack_eq (h.seq_eq ▸ h.data_length)
            have h2 : Does (Send rx) c c2 := by
              refine .single ?_ he hstate
              have hk2 : c2.kernel = { c1.kernel with sndNxt := c1.kernel.sndNxt + w32 n,
                                                      sndUser := u16Sub c1.kernel.sndUser n } := rfl
              rw [hk2, hk1]
              exact hstep
            exact h2.trans (ih c2 _ (by show c1.state.sendable; rw [hstate]; exact hs))
        · obtain ⟨hk1, -⟩ | ⟨ph, hd, h⟩ := hk
          · exact .same hk1 he
          · have hk1 := h.kernel_eq
            rw [if_pos rfl] at hk1
            have hstep := @Send.sendData rx c.kernel ph hd n false hs hle h.flags_eq h.seq_eq h.ack_eq (h.seq_eq ▸ h.data_length)
            exact .single (hk1 ▸ hstep) he (congrArg (·.state) hk1)
      · exact .refl c

theorem does_tcpNagleAlgo {c : Ctx} (hs : c.state.sendable) (flags : SocketFlags) :
    Does (Send rx) c (tcpNagleAlgo c flags).1 := by
  have h : Does (Send rx) c _ := does_sendLoop (nagleSendable flags) c.sndUser c (usableWindow c) hs
  unfold tcpNagleAlgo
  split
  · rename_i c1 h1
    rw [h1] at h
    exact h.trans (does_tcpUpdateEvents c1)
  · rename_i c1 e _ h1
    rw [h1] at h
    exact h

/-! ## Receiving data -/

theorem Does.ofSend {c c' : Ctx} (h : Does (Send rx) c c') : Does (Work rx) c c' :=
  h.mono fun _ _ => .send

theorem receiveData_frame (s : SockCore) (segment : TcpHeader) (b : NetBuffer) (off n : Nat) :
    (receiveData s segment b off n).1.toSockId = s.toSockId ∧
    (receiveData s segment b off n).1.toTcpCtl = s.toTcpCtl ∧
    (receiveData s segment b off n).1.toSndVars = s.toSndVars := by
  simp only [receiveData, tcpUpdateSackBlocks, tcpWriteRxBuffer]
  split <;> split <;> exact ⟨rfl, rfl, rfl⟩

theorem tcpWriteTxBuffer_frame (s : SockCore) (seqNum : Word) (data : List UInt8) :
    (tcpWriteTxBuffer s seqNum data).toSockId = s.toSockId ∧
    (tcpWriteTxBuffer s seqNum data).toTcpCtl = s.toTcpCtl ∧
    (tcpWriteTxBuffer s seqNum data).toRcvVars = s.toRcvVars := by
  simp only [tcpWriteTxBuffer]
  split <;> exact ⟨rfl, rfl, rfl⟩

/-- What no step inside a state touches. -/
structure WorkFrame (k k' : Kernel) : Prop where
  id : k'.toSockId = k.toSockId
  ctl : k'.toTcpCtl = k.toTcpCtl
  changes : k'.changes = k.changes

theorem WorkFrame.core {k : Kernel} {s : SockCore} (hid : s.toSockId = k.toSockId)
    (hctl : s.toTcpCtl = k.toTcpCtl) : WorkFrame k { k with toSockCore := s } :=
  ⟨hid, hctl, rfl⟩

theorem Work.frame {k k' : Kernel} (h : Work rx k k') : WorkFrame k k' := by
  cases h with
  | send h => exact ⟨h.frame.id, h.frame.ctl, h.frame.changes⟩
  | receive =>
    obtain ⟨hid, hctl, -⟩ := receiveData_frame k.toSockCore _ _ _ _
    exact .core hid hctl
  | @write data =>
    obtain ⟨hid, hctl, -⟩ := tcpWriteTxBuffer_frame k.toSockCore (k.sndNxt + w32 k.sndUser) data
    generalize tcpWriteTxBuffer k.toSockCore (k.sndNxt + w32 k.sndUser) data = s at hid hctl ⊢
    exact ⟨hid, hctl, rfl⟩
  | _ => exact ⟨rfl, rfl, rfl⟩

theorem workFrame_of {k k' : Kernel} (h : ReflTransGen (Work rx) k k') : WorkFrame k k' :=
  Run.chain_mono h (fun _ _ => Work.frame) (fun _ => ⟨rfl, rfl, rfl⟩)
    fun _ _ _ h h' => ⟨h'.id.trans h.id, h'.ctl.trans h.ctl, h'.changes.trans h.changes⟩

theorem tcpSendSegment_ack_kernel (c : Ctx) :
    (tcpSendSegment c { ack := true } c.sndNxt c.rcvNxt 0 false).1.toSockEvents = c.toSockEvents ∧
    ∃ es, (tcpSendSegment c { ack := true } c.sndNxt c.rcvNxt 0 false).1.kernel = c.kernel.emit es ∧
      ∀ e ∈ es, IsAck c.kernel e := by
  obtain ⟨he, ⟨hk, -⟩ | ⟨ph, hd, hs⟩⟩ :=
    tcpSendSegment_spec c { ack := true } c.sndNxt c.rcvNxt 0 false
  · exact ⟨he, [], by rw [hk]; simp [Kernel.emit], by simp⟩
  · refine ⟨he, _, hs.kernel_eq, ?_⟩
    simp only [List.mem_singleton, forall_eq]
    exact ⟨rfl, txRead_zero _ _, hs.flags_eq, hs.seq_eq, hs.ack_eq⟩

/-- The text of an acceptable segment is stored and acknowledged; our own sequence numbers and
the state stay. -/
theorem does_tcpProcessSegmentData {c : Ctx} {p : Packet} (hs : c.state.receptive)
    (ha : Accepted c.kernel p) (hl : 0 < p.length) :
    Does (Work (some p)) c (tcpProcessSegmentData c p.segment p.buffer p.offset p.length) ∧
    (tcpProcessSegmentData c p.segment p.buffer p.offset p.length).toTcpCtl = c.toTcpCtl ∧
    (tcpProcessSegmentData c p.segment p.buffer p.offset p.length).toSndVars = c.toSndVars := by
  obtain ⟨-, hctl, hsnd⟩ := receiveData_frame c.toSockCore p.segment p.buffer p.offset p.length
  have hstep := Work.receive (k := c.kernel) rfl hs ha hl
  unfold tcpProcessSegmentData
  generalize hr : receiveData c.toSockCore p.segment p.buffer p.offset p.length = r at hctl hsnd ⊢
  obtain ⟨s1, inOrder⟩ := r
  simp only at hctl hsnd ⊢
  let c1 : Ctx := { c with toSockCore := s1 }
  have hk1 : c1.kernel = { c.kernel with
      toSockCore := (receiveData c.kernel.toSockCore p.segment p.buffer p.offset p.length).1 } := by
    show _ = Kernel.mk (receiveData c.toSockCore p.segment p.buffer p.offset p.length).1 _
    rw [hr]; rfl
  have hstate : c1.state = c.state := congrArg (·.state) hctl
  have h1 : Does (Work (some p)) c c1 := .single (hk1 ▸ hstep) rfl hstate
  have hready : c1.kernel.ackReady := by
    left
    show c1.state.connected = true
    rw [hstate]
    revert hs
    cases c.state <;> simp [TcpState.receptive, TcpState.connected]
  have h2 := h1.trans (does_sendAck hready).ofSend
  obtain ⟨-, es, hk, -⟩ := tcpSendSegment_ack_kernel c1
  generalize (tcpSendSegment c1 { ack := true } c1.sndNxt c1.rcvNxt 0 false).1 = c2 at h2 hk
  have hctl2 : c2.toTcpCtl = s1.toTcpCtl := congrArg (·.toTcpCtl) hk
  have hsnd2 : c2.toSndVars = s1.toSndVars := congrArg (·.toSndVars) hk
  split
  · exact ⟨h2.trans (does_tcpUpdateEvents _), hctl2.trans hctl, hsnd2.trans hsnd⟩
  · exact ⟨h2, hctl2.trans hctl, hsnd2.trans hsnd⟩

end Cyclone
