import Cyclone.Trips

/-!
# Cyclone.Opening

The start of a connection on the kernel: what `tcpConnect` and `tcpAccept` make of a socket.

* `connectOpen_cases`: refused before the buffers, out of memory, SYN not sent, or SYN-SENT.
* `acceptOpen_cases`: the same for the socket that takes a queued connection.
-/

namespace Cyclone

open Serial Relation

namespace Kernel

/-- The control block `tcpConnect` starts with: addresses, buffers and initial sequence number. -/
def activeStart (k : Kernel) (id : SockId) (tx rx : NetBuffer) (iss : Word) : Kernel :=
  { k with toSockId := id, toTrace := k.toTrace.restart, ownedFlag := true
           txBuffer := tx, rxBuffer := rx, iss, sndUna := iss, sndNxt := iss + 1
           rcvUser := 0, rcvWnd := u16 k.rxBufferSize }

/-- The control block `tcpAccept` starts with, for a SYN with sequence number `isn`. -/
def passiveStart (k : Kernel) (id : SockId) (tx rx : NetBuffer) (iss isn : Word) : Kernel :=
  { k with toSockId := id, toTrace := k.toTrace.restart, ownedFlag := true
           txBuffer := tx, rxBuffer := rx, iss, irs := isn, sndUna := iss, sndNxt := iss + 1
           rcvNxt := isn + 1, rcvUser := 0, rcvWnd := u16 k.rxBufferSize }

end Kernel

/-- The buffers of a new connection have their full size. -/
structure Allocated (s : SockCore) (tx rx : NetBuffer) : Prop where
  tx_length : tx.bytes.length = s.txBufferSize
  rx_length : rx.bytes.length = s.rxBufferSize

/-- How a call of `connectOpen` can end. -/
inductive Connecting (k : Kernel) : Kernel → Error → Prop where
  /-- No source address; nothing but the addresses was touched. -/
  | refused {id : SockId} {e : Error} (he : e ≠ .NO_ERROR) (ht : id.type = k.type) :
      Connecting k { k with toSockId := id } e
  | starved {id : SockId} {e : Error} (he : e ≠ .NO_ERROR) (ht : id.type = k.type) :
      ∀ tx rx : NetBuffer, Connecting k
        { k with toSockId := id, ownedFlag := true, txBuffer := tx, rxBuffer := rx }.released e
  | unsent {id : SockId} {tx rx : NetBuffer} {iss : Word} {e : Error} (he : e ≠ .NO_ERROR)
      (ht : id.type = k.type) (ha : Allocated k.toSockCore tx rx) :
      Connecting k (k.activeStart id tx rx iss) e
  /-- The IP layer refused the SYN, which stays in the queue. -/
  | unanswered {id : SockId} {tx rx : NetBuffer} {iss : Word} {e : Error} {ph : IpPseudoHeader}
      {h : TcpHeader} (he : e ≠ .NO_ERROR) (ht : id.type = k.type)
      (ha : Allocated k.toSockCore tx rx) (hf : h.flags = { syn := true }) (hq : h.seqNum = iss) :
      Connecting k ((k.activeStart id tx rx iss).post ph h 0) e
  | opened {id : SockId} {tx rx : NetBuffer} {iss : Word} {ph : IpPseudoHeader} {h : TcpHeader}
      (ht : id.type = k.type) (ha : Allocated k.toSockCore tx rx) (hf : h.flags = { syn := true })
      (hq : h.seqNum = iss) :
      Connecting k (((k.activeStart id tx rx iss).post ph h 0).enter .SYN_SENT) .NO_ERROR

variable {c c' : Ctx}

theorem allocBuffers_cases {r : Ctx × Error} (h : allocBuffers c = r) :
    ∃ tx rx, r.1.kernel = { c.kernel with txBuffer := tx, rxBuffer := rx } ∧
      r.1.toSockAux = c.toSockAux ∧ (r.2 = .NO_ERROR → Allocated c.toSockCore tx rx) := by
  subst h
  unfold allocBuffers
  simp only
  split
  · rename_i e tx htx
    refine ⟨tx, _, rfl, rfl, fun herr => ⟨netBufferSetLength_ok htx, ?_⟩⟩
    exact netBufferSetLength_ok (Prod.ext rfl (Prod.ext rfl herr))
  · rename_i e tx error hne _
    exact ⟨tx, _, rfl, rfl, fun herr => absurd herr hne⟩

/-- What sending a queued segment does outside the kernel. -/
structure QueuedAux (c c' : Ctx) : Prop where
  busy : c'.rttBusy = true
  srtt : c'.srtt = c.srtt
  rttvar : c'.rttvar = c.rttvar
  cong : c'.dupAckCount = c.dupAckCount

theorem tcpQueueSegment_aux {ph : IpPseudoHeader} {h : TcpHeader} {n : Nat}
    (hq : tcpQueueSegment c ph h n = (c', true)) : QueuedAux c c' := by
  unfold tcpQueueSegment at hq
  simp only at hq
  split at hq
  · simp only [Prod.mk.injEq, and_true] at hq
    subst hq
    cases hb : c.rttBusy <;> cases ht : c.retransmitTimer.running <;>
      simp only [tcpTimerRunning, ht, Bool.false_eq_true, if_true, if_false] <;>
      exact ⟨by first | rfl | exact hb, rfl, rfl, rfl⟩
  · simp at hq

theorem tcpSendSegment_aux {flags : TcpFlags} {seqNum ackNum : Word} {n : Nat}
    (h : tcpSendSegment c flags seqNum ackNum n true = (c', .NO_ERROR)) : QueuedAux c c' := by
  unfold tcpSendSegment at h
  simp only [ipAllocBuffer] at h
  by_cases hm : (memPoolAlloc c.toEnv).2 = true
  case neg => simp [hm] at h
  simp only [hm, if_true] at h
  split at h
  · split at h
    · cases h
    · split at h
      · cases h
      · rename_i c1 hq
        obtain ⟨h1, h2, h3, h4⟩ := tcpQueueSegment_aux hq
        simp only [ipSendDatagram, Prod.mk.injEq] at h
        obtain ⟨rfl, -⟩ := h
        exact ⟨h1, h2, h3, h4⟩
  · rename_i hne _
    cases h
    exact absurd rfl hne

/-- `connectOpen` is one of the ways of `Connecting`; after a success the estimators are as they
were, with the SYN timed. -/
theorem connectOpen_cases (c : Ctx) (remoteIpAddr : IpAddr) (remotePort : Port) :
    Connecting c.kernel (connectOpen c remoteIpAddr remotePort).1.kernel
      (connectOpen c remoteIpAddr remotePort).2 ∧
    ((connectOpen c remoteIpAddr remotePort).2 = .NO_ERROR →
      QueuedAux c (connectOpen c remoteIpAddr remotePort).1) := by
  unfold connectOpen
  simp only
  split
  case h_2 _ hne =>
    refine ⟨.refused (fun h => hne h) rfl, fun h => absurd h (fun h => hne h)⟩
  split
  · exact ⟨.refused (by simp) rfl, by simp⟩
  let id : SockId := { c.toSockId with
    remoteIpAddr, remotePort
    interface := (c.selectSourceAddr c.tick c.interface remoteIpAddr).2.1
    localIpAddr := (c.selectSourceAddr c.tick c.interface remoteIpAddr).2.2 }
  generalize hr : allocBuffers _ = r
  obtain ⟨tx, rx, hk, haux, ha⟩ := allocBuffers_cases hr
  clear hr
  replace hk : r.1.kernel = { c.kernel with
    toSockId := id, ownedFlag := true, txBuffer := tx, rxBuffer := rx } := hk
  replace haux : r.1.toSockAux = c.toSockAux := haux
  split
  case h_2 c2 e hne =>
    obtain ⟨hk2, -⟩ := tcpDeleteControlBlock_kernel c2
    refine ⟨?_, fun h => absurd h hne⟩
    rw [hk2, hk]
    exact @Connecting.starved c.kernel id e hne rfl tx rx
  rename_i c2
  have halloc : Allocated c.kernel.toSockCore tx rx := ⟨(ha rfl).tx_length, (ha rfl).rx_length⟩
  have hkA : (initActive c2).kernel =
      c.kernel.activeStart id tx rx (netGetRand c2.toEnv).2 := by
    have hinit : (initActive c2).kernel = { c2.kernel with
        toTrace := c2.kernel.toTrace.restart, iss := (netGetRand c2.toEnv).2
        sndUna := (netGetRand c2.toEnv).2, sndNxt := (netGetRand c2.toEnv).2 + 1
        rcvUser := 0, rcvWnd := u16 c2.kernel.rxBufferSize } := rfl
    rw [hinit, hk]; rfl
  generalize (netGetRand c2.toEnv).2 = iss at hkA
  have hissA : (initActive c2).iss = iss := congrArg (·.iss) hkA
  have hsrtt : (initActive c2).srtt = c.srtt := congrArg (·.srtt) haux
  have hvar : (initActive c2).rttvar = c.rttvar := congrArg (·.rttvar) haux
  have hdup : (initActive c2).dupAckCount = c.dupAckCount := congrArg (·.dupAckCount) haux
  generalize initActive c2 = c3 at hkA hissA hsrtt hvar hdup ⊢
  obtain ⟨-, hcase⟩ := tcpSendSegment_spec c3 { syn := true } c3.iss 0 0 true
  split
  · rename_i c4 hsend
    obtain ⟨h1, h2, h3, h4⟩ := tcpSendSegment_aux hsend
    rw [hsend] at hcase
    obtain ⟨-, hno⟩ | ⟨ph, hd, hs⟩ := hcase
    · exact absurd rfl hno
    · have hk4 := hs.kernel_eq
      rw [if_pos rfl, hkA] at hk4
      refine ⟨?_, fun _ => ?_⟩
      · rw [tcpChangeState_kernel, hk4]
        exact .opened rfl halloc hs.flags_eq (hs.seq_eq.trans hissA)
      · exact ⟨h1, h2.trans hsrtt, h3.trans hvar, h4.trans hdup⟩
  · rename_i c4 e hne hsend
    rw [hsend] at hcase
    refine ⟨?_, fun h => absurd h hne⟩
    obtain ⟨hk4, -⟩ | ⟨ph, hd, hs⟩ := hcase
    · rw [hk4, hkA]; exact .unsent hne rfl halloc
    · have hk4 := hs.kernel_eq
      rw [if_pos rfl, hkA] at hk4
      rw [hk4]
      exact .unanswered hne rfl halloc hs.flags_eq (hs.seq_eq.trans hissA)

/-! ## Accepting -/

/-- The kernel with the buffer sizes of the listening socket, owned by the user. -/
def Kernel.inherit (k : Kernel) (socket : Socket) (tx rx : NetBuffer) : Kernel :=
  { k with ownedFlag := true, txBufferSize := socket.txBufferSize
           rxBufferSize := socket.rxBufferSize, txBuffer := tx, rxBuffer := rx }

/-- How a call of `acceptOpen` for the SYN with sequence number `isn` can end. -/
inductive Answering (k : Kernel) (socket : Socket) (isn : Word) : Kernel → Error → Prop where
  | starved {tx rx : NetBuffer} {e : Error} (he : e ≠ .NO_ERROR) :
      Answering k socket isn (k.inherit socket tx rx) e
  | unsent {id : SockId} {tx rx : NetBuffer} {iss : Word} {e : Error} (he : e ≠ .NO_ERROR)
      (ht : id.type = k.type) (ha : Allocated (k.inherit socket tx rx).toSockCore tx rx) :
      Answering k socket isn ((k.inherit socket tx rx).passiveStart id tx rx iss isn) e
  /-- The SYN-ACK is queued; the IP layer may have refused it. -/
  | answered {id : SockId} {tx rx : NetBuffer} {iss : Word} {e : Error} {ph : IpPseudoHeader}
      {h : TcpHeader} (ht : id.type = k.type)
      (ha : Allocated (k.inherit socket tx rx).toSockCore tx rx)
      (hf : h.flags = { syn := true, ack := true }) (hq : h.seqNum = iss) (hn : h.ackNum = isn + 1) :
      Answering k socket isn (((k.inherit socket tx rx).passiveStart id tx rx iss isn).post ph h 0) e

theorem acceptOpen_cases (socket : Socket) (item : TcpSynQueueItem) (c : Ctx) :
    Answering c.kernel socket item.isn (acceptOpen socket item c).1.kernel
      (acceptOpen socket item c).2 := by
  unfold acceptOpen acceptAlloc
  generalize hr : allocBuffers _ = r
  obtain ⟨tx, rx, hk, -, ha⟩ := allocBuffers_cases hr
  clear hr
  replace hk : r.1.kernel = c.kernel.inherit socket tx rx := hk
  split
  case h_2 c2 e hne =>
    rw [hk]
    exact .starved hne
  rename_i c2
  have halloc : Allocated (c.kernel.inherit socket tx rx).toSockCore tx rx :=
    ⟨(ha rfl).tx_length, (ha rfl).rx_length⟩
  let id : SockId := { c.toSockId with
    interface := some item.interface, localIpAddr := item.destAddr, localPort := socket.localPort
    remoteIpAddr := item.srcAddr, remotePort := item.srcPort }
  have hkA : (initPassive socket item c2).kernel =
      (c.kernel.inherit socket tx rx).passiveStart id tx rx (netGetRand c2.toEnv).2 item.isn := by
    have hinit : (initPassive socket item c2).kernel = { c2.kernel with
        toTrace := c2.kernel.toTrace.restart
        interface := some item.interface, localIpAddr := item.destAddr
        localPort := socket.localPort, remoteIpAddr := item.srcAddr, remotePort := item.srcPort
        iss := (netGetRand c2.toEnv).2, irs := item.isn
        sndUna := (netGetRand c2.toEnv).2, sndNxt := (netGetRand c2.toEnv).2 + 1
        rcvNxt := item.isn + 1, rcvUser := 0, rcvWnd := u16 c2.kernel.rxBufferSize } := rfl
    rw [hinit, hk]; rfl
  generalize (netGetRand c2.toEnv).2 = iss at hkA
  have hissA : (initPassive socket item c2).iss = iss := congrArg (·.iss) hkA
  have hrcvA : (initPassive socket item c2).rcvNxt = item.isn + 1 := congrArg (·.rcvNxt) hkA
  simp only
  generalize initPassive socket item c2 = c3 at hkA hissA hrcvA ⊢
  obtain ⟨-, hcase⟩ := tcpSendSegment_spec c3 { syn := true, ack := true } c3.iss c3.rcvNxt 0 true
  obtain ⟨hk4, hne⟩ | ⟨ph, hd, hs⟩ := hcase
  · rw [hk4, hkA]
    exact .unsent hne rfl halloc
  · have hk4 := hs.kernel_eq
    rw [if_pos rfl, hkA] at hk4
    rw [hk4]
    exact .answered rfl halloc hs.flags_eq (hs.seq_eq.trans hissA) (hs.ack_eq.trans hrcvA)

end Cyclone
