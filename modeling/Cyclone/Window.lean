import Cyclone.Blocks
import Cyclone.Entries
import Cyclone.ReceiveAgree

/-!
# Cyclone.Window

The receive window over whole runs. What the user has not read and what is offered to the peer fit
into the receive buffer together, the blocks received out of order lie in the window, and its right
edge never moves back.

* `receiveData_window`, `Work.receives`, `Move.receives`: one step.
* `receives_reach`: every entry of every host a run reaches.
* `window_kept`: the window of a connection until the peer's FIN.
-/

namespace Cyclone

open Serial Relation Run

variable {n : Nat} {h : Host n} {c c' : Ctx} {k k' : Kernel} {rx : Option Packet} {s : SockCore}

/-! ## One segment -/

/-- Unread data and offered window fit into the buffer, and the blocks lie in the window. -/
structure WindowOk (s : SockCore) : Prop where
  room : s.rcvUser + s.rcvWnd ≤ s.rxBufferSize
  blocks : RcvBlocks s.rcvNxt s.rcvWnd s.sackBlock

/-- The first sequence number behind the offered window. -/
def rightEdge (s : SockCore) : Word := s.rcvNxt + w32 s.rcvWnd

theorem WindowOk.same {s' : SockCore} (h : WindowOk s) (hrcv : s'.toRcvVars = s.toRcvVars)
    (hsize : s'.rxBufferSize = s.rxBufferSize) : WindowOk s' := by
  have hnxt : s'.rcvNxt = s.rcvNxt := congrArg (·.rcvNxt) hrcv
  have huser : s'.rcvUser = s.rcvUser := congrArg (·.rcvUser) hrcv
  have hwnd : s'.rcvWnd = s.rcvWnd := congrArg (·.rcvWnd) hrcv
  have hsack : s'.sackBlock = s.sackBlock := congrArg (·.sackBlock) hrcv
  refine ⟨by rw [huser, hwnd, hsize]; exact h.room, ?_⟩
  rw [hnxt, hwnd, hsack]
  exact h.blocks

/-- Seen from a later number, a number behind it is nearer. -/
theorem dist_later {b m x : Word} (h : dist b m ≤ dist b x) : dist m x = dist b x - dist b m :=
  sub_toNat h

/-- The window moves on by the bytes in order. -/
theorem RcvBlocks.advance {b e : Word} {W : Nat} {bs : List TcpSackBlock} (h : RcvBlocks b W bs)
    (he : dist b e ≤ W) (hbs : ∀ d ∈ bs, dist b e < dist b d.leftEdge) :
    RcvBlocks e (W - dist b e) bs := by
  refine ⟨fun d hd => ?_, ?_⟩
  · obtain ⟨h1, h2, h3⟩ := h.inside d hd
    have h4 := hbs d hd
    have hl : dist e d.leftEdge = dist b d.leftEdge - dist b e := dist_later (by omega)
    have hr : dist e d.rightEdge = dist b d.rightEdge - dist b e := dist_later (by omega)
    exact ⟨by omega, by omega, by omega⟩
  · refine h.apart.imp_of_mem fun {d d'} hd hd' hap => ?_
    have h1 := hbs d hd
    have h2 := hbs d' hd'
    have h3 := (h.inside d hd).edges
    have h4 := (h.inside d' hd').edges
    have hl : dist e d.leftEdge = dist b d.leftEdge - dist b e := dist_later (by omega)
    have hr : dist e d.rightEdge = dist b d.rightEdge - dist b e := dist_later (by omega)
    have hl' : dist e d'.leftEdge = dist b d'.leftEdge - dist b e := dist_later (by omega)
    have hr' : dist e d'.rightEdge = dist b d'.rightEdge - dist b e := dist_later (by omega)
    unfold ApartBlocks at *
    omega

/-- An accepted segment with text keeps the window in order and its right edge in place. -/
theorem receiveData_window {segment : TcpHeader} {b : NetBuffer} {offset length : Nat}
    (hsize : s.rxBufferSize < 65536) (hw : WindowOk s) (h0 : 0 < length) (hlen : length < 65536)
    (ha : seqAcceptable s segment length = true) :
    WindowOk (receiveData s segment b offset length).1 ∧
      rightEdge (receiveData s segment b offset length).1 = rightEdge s := by
  have hroom := hw.room
  have hW : s.rcvWnd < 65536 := by omega
  obtain ⟨hlt, hle⟩ := @trimSegment_in s segment offset length hW hlen h0 ha
  obtain ⟨hm, -⟩ := merge_blocks hW s.sackBlock _ _ hw.blocks hlt hle
  have hrcv := receiveData_rcv s segment b offset length
  have hbuf : (receiveData s segment b offset length).1.rxBufferSize = s.rxBufferSize :=
    congrArg (·.rxBufferSize) (receiveData_core s segment b offset length)
  unfold mergeSegment at hrcv
  generalize (trimSegment s segment.seqNum offset length).1 = l at *
  generalize (trimSegment s segment.seqNum offset length).2.1 = r at *
  generalize mergeSackBlocks s.sackBlock l r = m at *
  generalize (receiveData s segment b offset length).1 = s' at *
  obtain ⟨bs, l', r'⟩ := m
  obtain ⟨hsub, hedges, hright, hapart, -⟩ := hm
  simp only at hrcv hsub hedges hright hapart
  have hcmp : cmpSeq l' s.rcvNxt = dist s.rcvNxt l' := by
    rw [cmpSeq_dist hW (by omega : dist s.rcvNxt l' ≤ s.rcvWnd)
      (by rw [Serial.dist_self]; omega : dist s.rcvNxt s.rcvNxt ≤ s.rcvWnd), Serial.dist_self]
    simp
  have hold := hw.blocks.sublist hsub
  rw [hcmp] at hrcv
  split at hrcv
  · -- out of order: a block more
    rename_i hpos
    have hnxt : s'.rcvNxt = s.rcvNxt := congrArg (·.rcvNxt) hrcv
    have huser : s'.rcvUser = s.rcvUser := congrArg (·.rcvUser) hrcv
    have hwnd : s'.rcvWnd = s.rcvWnd := congrArg (·.rcvWnd) hrcv
    have hsack : s'.sackBlock = ⟨l', r'⟩ :: bs.take (TCP_MAX_SACK_BLOCKS - 1) :=
      congrArg (·.sackBlock) hrcv
    refine ⟨⟨by omega, ?_⟩, by unfold rightEdge; rw [hnxt, hwnd]⟩
    rw [hnxt, hwnd, hsack]
    have htake := hold.sublist (List.take_sublist (TCP_MAX_SACK_BLOCKS - 1) bs)
    refine ⟨fun d hd => ?_, List.pairwise_cons.mpr ⟨fun d hd => ?_, htake.apart⟩⟩
    · obtain rfl | hd := List.mem_cons.mp hd
      · refine ⟨?_, hedges, hright⟩
        show 0 < dist s.rcvNxt l'
        omega
      · exact htake.inside d hd
    · exact hapart d (List.mem_of_mem_take hd)
  · -- in order: the window moves on by the length of the merged range
    rename_i hpos
    have hl' : l' = s.rcvNxt := dist_eq_zero.mp (by omega)
    subst hl'
    have hlen' : (r' - s.rcvNxt).toNat = dist s.rcvNxt r' := rfl
    have hnxt : s'.rcvNxt = r' := (congrArg (·.rcvNxt) hrcv).trans (by simp only; bv_omega)
    have huser : s'.rcvUser = s.rcvUser + dist s.rcvNxt r' := by
      refine (congrArg (·.rcvUser) hrcv).trans ?_
      simp only [hlen']
      exact u16_of_lt (by omega)
    have hwnd : s'.rcvWnd = s.rcvWnd - dist s.rcvNxt r' := by
      refine (congrArg (·.rcvWnd) hrcv).trans ?_
      simp only [hlen']
      exact u16Sub_of_le hright hW
    have hsack : s'.sackBlock = bs := congrArg (·.sackBlock) hrcv
    refine ⟨⟨by omega, ?_⟩, ?_⟩
    · rw [hnxt, hwnd, hsack]
      refine hold.advance hright fun d hd => ?_
      have h1 := hapart d hd
      have h2 := (hold.inside d hd).left
      unfold ApartBlocks at h1
      simp only [Serial.dist_self] at h1
      omega
    · unfold rightEdge
      rw [hnxt, hwnd]
      simp only [Serial.dist, w32] at *
      bv_omega

theorem RcvBlocks.wider {b : Word} {W W' : Nat} {bs : List TcpSackBlock} (h : RcvBlocks b W bs)
    (hW : W ≤ W') : RcvBlocks b W' bs :=
  ⟨fun d hd => ⟨(h.inside d hd).left, (h.inside d hd).edges, (h.inside d hd).right.trans hW⟩, h.apart⟩

/-- The subtractions of `tcpUpdateReceiveWindow` do not wrap. -/
theorem windowReduction_eq (hsize : s.rxBufferSize < 65536)
    (hroom : s.rcvUser + s.rcvWnd ≤ s.rxBufferSize) :
    windowReduction s = s.rxBufferSize - s.rcvUser - s.rcvWnd := by
  have h1 : (w32 s.rxBufferSize - w32 s.rcvUser - w32 s.rcvWnd).toNat =
      s.rxBufferSize - s.rcvUser - s.rcvWnd := by
    simp only [w32]
    bv_omega
  unfold windowReduction
  rw [h1]
  exact u16_of_lt (by omega)

/-! ## Steps -/

/-- The receive side of a socket. While a SYN is on its way there are no blocks yet. -/
structure Receives (k : Kernel) : Prop where
  size : k.rxBufferSize ≤ TCP_MAX_RX_BUFFER_SIZE
  opening : k.state = .SYN_SENT → k.sackBlock = []
  window : k.finRcvd = false → WindowOk k.toSockCore

theorem Receives.short (hk : Receives k) : k.rxBufferSize < 65536 := by
  have h1 := hk.size
  have h2 : TCP_MAX_RX_BUFFER_SIZE = 22880 := rfl
  omega

theorem Receives.same (hk : Receives k) (hrcv : k'.toRcvVars = k.toRcvVars)
    (hsize : k'.rxBufferSize = k.rxBufferSize) (hfin : k'.finRcvd = false → k.finRcvd = false)
    (hs : k'.state = .SYN_SENT → k.state = .SYN_SENT) : Receives k' := by
  refine ⟨by rw [hsize]; exact hk.size, fun h => ?_, fun h => (hk.window (hfin h)).same hrcv hsize⟩
  exact (congrArg (·.sackBlock) hrcv).trans (hk.opening (hs h))

theorem Send.receives (h : Send rx k k') (hk : Receives k) : Receives k' := by
  refine hk.same h.frame.rcv (congrArg (·.rxBufferSize) h.frame.buf) (fun hf => ?_) fun hs => ?_
  · have htrace : k'.finRcvd = k.finRcvd := by
      cases h with
      | sendData ok => cases ok <;> rfl
      | _ => rfl
    rw [← htrace]; exact hf
  · rw [← congrArg (·.state) h.frame.ctl]; exact hs

theorem tcpWriteTxBuffer_rxSize (s : SockCore) (seqNum : Word) (data : List UInt8) :
    (tcpWriteTxBuffer s seqNum data).rxBufferSize = s.rxBufferSize := by
  simp only [tcpWriteTxBuffer]
  split <;> rfl

/-- The user reads at most what there is. -/
theorem readPiece_le (s : SockCore) (seqNum : Word) (data : List UInt8) (received : Nat) :
    (readPiece s seqNum data received).1.length ≤ s.rcvUser := by
  unfold readPiece
  rw [tcpReadRxBuffer_length, List.length_take]
  omega

theorem Work.receives (hp : ∀ p, rx = some p → p.length < 65536) (h : Work rx k k')
    (hk : Receives k) : Receives k' := by
  cases h with
  | send h => exact h.receives hk
  | @receive p hrx hs ha hl =>
    obtain ⟨-, hctl, -⟩ := receiveData_frame k.toSockCore p.segment p.buffer p.offset p.length
    have hbuf : (receiveData k.toSockCore p.segment p.buffer p.offset p.length).1.rxBufferSize =
        k.rxBufferSize :=
      congrArg (·.rxBufferSize) (receiveData_core k.toSockCore p.segment p.buffer p.offset p.length)
    have hwin : k.finRcvd = false →
        WindowOk (receiveData k.toSockCore p.segment p.buffer p.offset p.length).1 := fun hf =>
      (receiveData_window hk.short (hk.window hf) hl (hp p hrx) ha.1).1
    generalize (receiveData k.toSockCore p.segment p.buffer p.offset p.length).1 = s1
      at hctl hbuf hwin
    refine ⟨hbuf.le.trans hk.size, fun h => ?_, hwin⟩
    have hs' : k.state = .SYN_SENT := (congrArg (·.state) hctl).symm.trans h
    rw [hs'] at hs
    cases hs
  | queueSyn => exact hk.same rfl rfl id id
  | @write data =>
    obtain ⟨-, hctl, hrcv⟩ := tcpWriteTxBuffer_frame k.toSockCore (k.sndNxt + w32 k.sndUser) data
    have hbuf := tcpWriteTxBuffer_rxSize k.toSockCore (k.sndNxt + w32 k.sndUser) data
    generalize tcpWriteTxBuffer k.toSockCore (k.sndNxt + w32 k.sndUser) data = s1 at hctl hrcv hbuf
    exact hk.same hrcv hbuf id fun hs => (congrArg (·.state) hctl).symm.trans hs
  | @read seqNum received data n hu hpos hn =>
    refine ⟨hk.size, hk.opening, fun hf => ?_⟩
    obtain ⟨hroom, hblocks⟩ := hk.window hf
    have hle := hn.trans (readPiece_le k.toSockCore seqNum data received)
    have hshort := hk.short
    refine ⟨?_, hblocks⟩
    show u16Sub k.rcvUser n + k.rcvWnd ≤ k.rxBufferSize
    rw [u16Sub_of_le hle (by omega)]
    omega
  | openWindow hu =>
    refine ⟨hk.size, hk.opening, fun hf => ?_⟩
    obtain ⟨hroom, hblocks⟩ := hk.window hf
    have hshort := hk.short
    have hnew : u16 (k.rcvWnd + windowReduction k.toSockCore) = k.rxBufferSize - k.rcvUser := by
      rw [windowReduction_eq hshort hroom]
      exact (u16_of_lt (by omega)).trans (by omega)
    refine ⟨?_, ?_⟩
    · show k.rcvUser + u16 (k.rcvWnd + windowReduction k.toSockCore) ≤ k.rxBufferSize
      omega
    · show RcvBlocks k.rcvNxt (u16 (k.rcvWnd + windowReduction k.toSockCore)) k.sackBlock
      rw [hnew]
      exact hblocks.wider (by omega)

theorem enter_rcv (k : Kernel) (t : TcpState) :
    (k.enter t).toRcvVars = k.toRcvVars ∧ (k.enter t).rxBufferSize = k.rxBufferSize ∧
      (k.enter t).finRcvd = k.finRcvd ∧ (k.enter t).state = t := by
  refine ⟨?_, ?_, ?_, rfl⟩
  all_goals
    simp only [Kernel.enter]
    repeat' split
    all_goals rfl

theorem Receives.enter (hk : Receives k) {t : TcpState} (ht : t ≠ .SYN_SENT) :
    Receives (k.enter t) := by
  obtain ⟨hrcv, hsize, hfin, hs⟩ := enter_rcv k t
  exact hk.same hrcv hsize (fun hf => hfin.symm.trans hf) fun h => absurd (hs.symm.trans h) ht

/-- The SYN of the peer: there are no blocks, so the window may start anywhere. -/
theorem Receives.takeSyn (hk : Receives k) (hs : k.state = .SYN_SENT) (isn una : Word) :
    Receives (k.takeSyn isn una).pruned := by
  refine ⟨hk.size, hk.opening, fun hf => ⟨(hk.window hf).room, ?_⟩⟩
  show RcvBlocks (isn + 1) k.rcvWnd k.sackBlock
  rw [hk.opening hs]
  exact .nil

/-- Once the FIN is consumed nothing is said about the window. -/
theorem Receives.fin (hk : Receives k) (hfin : k'.finRcvd = true) (hsize : k'.rxBufferSize = k.rxBufferSize)
    (hs : k'.state ≠ .SYN_SENT) : Receives k' :=
  ⟨hsize.le.trans hk.size, fun h => absurd h hs, fun hf => absurd (hf.symm.trans hfin) nofun⟩

theorem Move.receives (h : Move rx k k') (hk : Receives k) : Receives k' := by
  cases h with
  | close => exact hk.enter nofun
  | dispose => exact hk.same rfl rfl id id
  | @opened p una es _ hs =>
    have h1 := hk.takeSyn hs p.segment.seqNum una
    have h2 : Receives ((k.takeSyn p.segment.seqNum una).pruned.emit es) := h1.same rfl rfl id id
    exact h2.enter nofun
  | @crossed k1 p una _ hs _ _ _ he =>
    have h1 := hk.takeSyn hs p.segment.seqNum una
    obtain rfl | ⟨ph, hd, -, -, -, rfl⟩ := he
    · exact h1.enter nofun
    · have h2 : Receives ((k.takeSyn p.segment.seqNum una).pruned.post ph hd 0) :=
        h1.same rfl rfl id id
      exact h2.enter nofun
  | accepted | finAcked => exact hk.enter nofun
  | @fin p es next _ hs =>
    obtain ⟨-, hsize, hfin, hstate⟩ := enter_rcv (k.takeFin.emit es) next
    refine hk.fin hfin hsize ?_
    rw [hstate]
    obtain ⟨-, rfl⟩ | ⟨-, rfl⟩ := hs <;> nofun
  | @finTimeWait p es =>
    obtain ⟨-, hsize, hfin, hstate⟩ := enter_rcv (k.takeFin.emit es).released .TIME_WAIT
    refine hk.fin hfin hsize ?_
    rw [hstate]
    nofun
  | closingAcked =>
    have h1 : Receives k.released := hk.same rfl rfl id id
    exact h1.enter nofun

/-! ## Sections -/

/-- A socket that has not received anything. -/
structure Blank (s : SockCore) : Prop where
  user : s.rcvUser = 0
  wnd : s.rcvWnd = 0
  blocks : s.sackBlock = []

theorem Blank.window (hb : Blank s) : WindowOk s :=
  ⟨by rw [hb.user, hb.wnd]; exact Nat.zero_le _, by rw [hb.blocks]; exact .nil⟩

/-- The window of a new connection is the whole receive buffer. -/
theorem window_initial (hsize : s.rxBufferSize < 65536) (huser : s.rcvUser = 0)
    (hwnd : s.rcvWnd = u16 s.rxBufferSize) (hsack : s.sackBlock = []) : WindowOk s := by
  refine ⟨?_, by rw [hsack]; exact .nil⟩
  rw [huser, hwnd, u16_of_lt hsize]
  omega

theorem Connecting.receives {e : Error} (h : Connecting k k' e) (hk : Receives k)
    (hclean : k.sackBlock = []) : Receives k' := by
  have hstart : ∀ id tx rx iss, Receives (k.activeStart id tx rx iss) := fun id tx rx iss =>
    ⟨hk.size, fun _ => hclean, fun _ => window_initial hk.short rfl rfl hclean⟩
  cases h with
  | refused => exact hk.same rfl rfl id id
  | starved => exact hk.same rfl rfl id id
  | unsent => exact hstart _ _ _ _
  | @unanswered id tx rx iss => exact (hstart id tx rx iss).same rfl rfl (fun h => h) fun h => h
  | @opened id tx rx iss ph hd =>
    have h1 : Receives ((k.activeStart id tx rx iss).post ph hd 0) :=
      (hstart id tx rx iss).same rfl rfl (fun h => h) fun h => h
    have hframe : (((k.activeStart id tx rx iss).post ph hd 0).enter .SYN_SENT).toRcvVars =
          (k.activeStart id tx rx iss).toRcvVars ∧
        (((k.activeStart id tx rx iss).post ph hd 0).enter .SYN_SENT).rxBufferSize =
          k.rxBufferSize := ⟨rfl, rfl⟩
    exact ⟨hframe.2.le.trans hk.size, fun _ => hclean,
      fun _ => window_initial (lt_of_eq_of_lt hframe.2 hk.short) rfl rfl hclean⟩

/-- Where the run meets the leftovers of an earlier connection: `tcpConnect` does not clear the
blocks, and a suspended `tcpShutdown` may revive a closed socket whose buffer was resized. -/
def CleanRequest (s : Socket) (fin : Bool) : Request → Prop
  | .connect _ _ => s.state = .CLOSED → s.sackBlock = []
  | .setRxBufferSize size => s.state = .CLOSED → fin = false → s.rcvUser + s.rcvWnd ≤ size
  | _ => True

theorem Start.receives {api : Api} {req : Request} (h : Start api c.kernel req k')
    (hk : Receives c.kernel) (hclean : CleanRequest c.toSocket c.finRcvd req) : Receives k' := by
  cases h with
  | idle => exact hk
  | connect hs h => exact h.receives hk (hclean hs)
  | listen =>
    have h1 : ∀ m, Receives { c.kernel with synQueueSize := m } := fun m => hk.same rfl rfl id id
    exact (h1 _).enter nofun
  | setTxBufferSize => exact hk.same rfl rfl id id
  | @setRxBufferSize size hs hsize =>
    refine ⟨hsize.2, hk.opening, fun hf => ⟨hclean hs hf, (hk.window hf).blocks⟩⟩
  | bind => exact hk.same rfl rfl id id

theorem Resume.receives {api : Api} {call : Call} (h : Resume api k call k') (hk : Receives k)
    (hc : ∀ next, FinReady api k call next → next ≠ .SYN_SENT) : Receives k' := by
  cases h with
  | work h => exact Run.chain_inv h hk fun _ _ hw => hw.receives fun p hp => by cases hp
  | fin next hr h =>
    have hpost : ∀ ph hd, Receives (k.post ph hd 0) := fun ph hd => hk.same rfl rfl id id
    cases h with
    | tried => exact hpost _ _
    | @sent ph hd =>
      have h1 : Receives ((k.post ph hd 0).countFin) := (hpost ph hd).same rfl rfl id id
      exact h1.enter (hc next hr)

theorem receives_closeSocket (hk : Receives c.kernel) : Receives (closeSocket c).kernel := by
  have hkernel : (tcpDeleteControlBlock (tcpChangeState c .CLOSED)).kernel =
      (c.kernel.enter .CLOSED).released := by
    rw [(tcpDeleteControlBlock_kernel _).1, tcpChangeState_kernel]
  have h1 : Receives (tcpDeleteControlBlock (tcpChangeState c .CLOSED)).kernel := by
    rw [hkernel]
    have h2 : Receives (c.kernel.enter .CLOSED) := hk.enter nofun
    exact h2.same rfl rfl id id
  exact h1.same rfl rfl id id

theorem receives_tcpAbort (hk : Receives c.kernel) : Receives (tcpAbort c).1.kernel := by
  unfold tcpAbort
  split
  case h_6 => exact hk.same rfl rfl id id
  case h_7 => exact receives_closeSocket hk
  all_goals
    refine receives_closeSocket ?_
    have hq := onlySends_tcpSendSegment c { rst := true } c.sndNxt 0 0
    generalize tcpSendSegment c { rst := true } c.sndNxt 0 0 false = r at hq
    obtain ⟨e, sent, hr⟩ := hq
    rw [hr]
    exact hk.same rfl rfl id id

/-- The new socket of an accept. -/
theorem receives_answer {socket : Socket} {item : TcpSynQueueItem}
    (hsize : socket.rxBufferSize ≤ TCP_MAX_RX_BUFFER_SIZE) (hb : Blank c.toSockCore) :
    Receives (answerSection socket item c).kernel := by
  have hlt : socket.rxBufferSize < 65536 := by
    have h2 : TCP_MAX_RX_BUFFER_SIZE = 22880 := rfl
    omega
  have hinherit : ∀ tx rx, Receives (c.kernel.inherit socket tx rx) := fun tx rx =>
    ⟨hsize, fun _ => hb.blocks, fun _ => Blank.window ⟨hb.user, hb.wnd, hb.blocks⟩⟩
  have hstart : ∀ id tx rx iss, Receives ((c.kernel.inherit socket tx rx).passiveStart id tx rx iss
      item.isn) := fun id tx rx iss =>
    ⟨hsize, fun _ => hb.blocks, fun _ => window_initial hlt rfl rfl hb.blocks⟩
  have hopen : Receives (acceptOpen socket item c).1.kernel := by
    have hcase := acceptOpen_cases socket item c
    generalize acceptOpen socket item c = r at hcase
    obtain ⟨c1, e⟩ := r
    show Receives c1.kernel
    generalize c1.kernel = k1 at hcase
    cases hcase with
    | starved => exact hinherit _ _
    | unsent => exact hstart _ _ _ _
    | @answered id tx rx iss => exact (hstart id tx rx iss).same rfl rfl (fun h => h) fun h => h
  unfold answerSection
  split
  · rename_i c1 ho
    rw [ho] at hopen
    rw [tcpChangeState_kernel]
    exact hopen.enter nofun
  · rename_i c1 e _ ho
    rw [ho] at hopen
    exact receives_tcpAbort hopen

theorem receives_netStep {e : NetEvent} (hp : ∀ p, e.packet = some p → p.length < 65536)
    (hk : Receives c.kernel) : Receives (netStep c e).kernel :=
  netStep_inv (fun _ _ hw => hw.receives hp) (fun _ _ hm => hm.receives) hk

/-- What every section of an event is to find. -/
def CleanSection (c : Ctx) : Section → Prop
  | .net e => ∀ p, e.packet = some p → p.length < 65536
  | .start _ req => CleanRequest c.toSocket c.finRcvd req
  | .resume _ call => call.sound
  | .answer socket _ => socket.rxBufferSize ≤ TCP_MAX_RX_BUFFER_SIZE ∧ Blank c.toSockCore
  | _ => True

theorem finReady_next {api : Api} {call : Call} {next : TcpState} (hc : call.sound)
    (h : FinReady api k call next) : next ≠ .SYN_SENT := by
  cases api with
  | c =>
    obtain ⟨how, rfl⟩ := h
    rintro rfl
    cases hc
  | spark first => obtain ⟨-, rfl⟩ | ⟨-, rfl⟩ := h <;> nofun

theorem receives_section {s : Section} (hk : Receives c.kernel) (hs : CleanSection c s) :
    Receives (sectionRun c s).kernel := by
  cases s with
  | env env => exact hk
  | net e => exact receives_netStep hs hk
  | start api req => exact (start_cases api c req).receives hk hs
  | resume api call =>
    exact (resume_cases api c call).receives hk fun _ => finReady_next hs
  | close =>
    show Receives (socketClose c).kernel
    unfold socketClose
    split
    · exact receives_tcpAbort hk
    all_goals exact hk.same rfl rfl id id
  | kill => exact receives_closeSocket hk
  | «opened» api type protocol localPort =>
    cases api with
    | c => exact ⟨Nat.min_le_right _ _, fun _ => rfl, fun _ => Blank.window ⟨rfl, rfl, rfl⟩⟩
    | spark first =>
      refine ⟨?_, fun _ => rfl, fun _ => Blank.window ⟨rfl, rfl, rfl⟩⟩
      show TCP_DEFAULT_RX_BUFFER_SIZE ≤ TCP_MAX_RX_BUFFER_SIZE
      decide
  | popSyn update => cases update <;> exact hk.same rfl rfl id id
  | answer socket item => exact receives_answer hs.1 hs.2
  | acceptWait | resetCongestion => exact hk.same rfl rfl id id

/-! ## Events -/

/-- Nothing happens to the receive side. -/
structure RcvSame (k k' : Kernel) : Prop where
  rcv : k'.toRcvVars = k.toRcvVars
  size : k'.rxBufferSize = k.rxBufferSize
  fin : k'.finRcvd = k.finRcvd
  state : k'.state = k.state

theorem RcvSame.refl (k : Kernel) : RcvSame k k := ⟨rfl, rfl, rfl, rfl⟩

theorem RcvSame.receives (h : RcvSame k k') (hk : Receives k) : Receives k' :=
  hk.same h.rcv h.size (fun hf => h.fin.symm.trans hf) fun hs => h.state.symm.trans hs

/-- The socket that an event makes the new connection of an accept. -/
def answered (h : Host n) : HostEvent n → Option (Fin n)
  | .acceptNext _ k => h.accepts[k]?.bind Accepting.newSocket
  | _ => none

/-- What the steps of a run are to find: nothing an earlier connection has left in the socket that
`tcpConnect` or `tcpAccept` initialises, and segments of the size the IP layer can deliver. -/
def CleanStart (h : Host n) (e : HostEvent n) : Prop :=
  (∀ j, answered h e = some j → Blank (h.table j).ctx.toSockCore) ∧
  (∀ api env i req, e = .start api env i req →
    CleanRequest (h.table i).ctx.toSocket (h.table i).ctx.finRcvd req) ∧
  ∀ env p, e = .segment env p → p.length < 65536

/-- What an event does to entry `j`: nothing, an open, or one section on the socket as it was. -/
inductive EntryStep (h : Host n) (e : HostEvent n) (j : Fin n) (c' : Ctx) : Prop where
  | same (hs : RcvSame (h.table j).ctx.kernel c'.kernel)
  | «opened» (hr : Reach sectionRun OpenSection (h.table j).ctx c')
  | «section» {c : Ctx} {s : Section} (hc : c.kernel = (h.table j).ctx.kernel)
      (hs : CleanSection c s)
      (ha : ∀ socket item, s = .answer socket item → answered h e = some j)
      (h' : RcvSame (sectionRun c s).kernel c'.kernel)

theorem rcvSame_popSyn (c : Ctx) : RcvSame c.kernel (popSyn c).kernel := ⟨rfl, rfl, rfl, rfl⟩

theorem entryStep_acceptOn {h' : Host n} {i m j : Fin n} {env : Env} {item : TcpSynQueueItem}
    {e : HostEvent n} (htable : h'.table = h.table)
    (hsize : (h.table i).ctx.rxBufferSize ≤ TCP_MAX_RX_BUFFER_SIZE)
    (hblank : Blank (h.table m).ctx.toSockCore) (he : answered h e = some m) :
    EntryStep h e j ((acceptOn h' env i m item).1.table j).ctx := by
  unfold acceptOn
  simp only
  generalize hh1 : (if (acceptAlloc (h'.table i).ctx.toSocket (h'.ctxOf m env)).2 = .NO_ERROR then
    h'.setCtx i { (h'.table i).ctx with congestState := .IDLE } else h') = h1
  have h0 : ∀ j, (h1.table j).ctx.kernel = (h.table j).ctx.kernel := by
    intro j
    rw [← hh1, ← htable]
    split
    · rw [setCtx_table]
      split
      · rename_i hj
        rw [hj]; rfl
      · rfl
    · rfl
  clear hh1
  have hc : (h1.ctxOf m env).kernel = (h.table m).ctx.kernel := h0 m
  have hb : Blank (h1.ctxOf m env).toSockCore := by
    have hcore : (h1.ctxOf m env).toSockCore = (h.table m).ctx.toSockCore :=
      congrArg (·.toSockCore) hc
    rw [hcore]; exact hblank
  have hpop : ∀ c : Ctx, ∀ k : Kernel, c.kernel = k → RcvSame k (popSyn c).kernel := by
    rintro c k rfl
    exact rcvSame_popSyn c
  generalize hsock : (h'.table i).ctx.toSocket = socket
  have hle : socket.rxBufferSize ≤ TCP_MAX_RX_BUFFER_SIZE := by
    rw [← hsock, htable]; exact hsize
  split
  · rename_i c ho
    have hans := answerSection_ok ho
    rw [addHandle_ctx, setCtx_table]
    split
    · rename_i hj
      subst hj
      refine .«section» (s := .answer socket item) hc ⟨hle, hb⟩ (fun _ _ _ => he) ?_
      show RcvSame (answerSection socket item (h1.ctxOf j env)).kernel _
      rw [hans]
      exact .refl _
    · rw [setCtx_table]
      split
      · rename_i hj
        subst hj
        exact .same (hpop _ _ (h0 j))
      · exact .same (by rw [h0 j]; exact .refl _)
  · rename_i c er hne ho
    have hans := answerSection_error ho hne
    have hsec : ∀ c' : Ctx, RcvSame (tcpAbort c).1.kernel c'.kernel → EntryStep h e m c' := by
      intro c' h'
      refine .«section» (s := .answer socket item) hc ⟨hle, hb⟩ (fun _ _ _ => he) ?_
      show RcvSame (answerSection socket item (h1.ctxOf m env)).kernel _
      rw [hans]
      exact h'
    rw [setCtx_table]
    split
    · rename_i hj
      subst hj
      rw [setCtx_table]
      split
      · rename_i hm
        subst hm
        exact hsec _ (rcvSame_popSyn _)
      · exact .same (hpop _ _ (h0 j))
    · rw [setCtx_table]
      split
      · rename_i hj
        subst hj
        exact hsec _ (.refl _)
      · exact .same (by rw [h0 j]; exact .refl _)

theorem entryStep_hostStep {e : HostEvent n} (hcalls : SoundCalls h)
    (hsize : ∀ i, (h.table i).ctx.rxBufferSize ≤ TCP_MAX_RX_BUFFER_SIZE) (hclean : CleanStart h e)
    (j : Fin n) : EntryStep h e j ((hostStep h e).table j).ctx := by
  have hsame : ∀ {e : HostEvent n} {c' : Ctx}, c'.kernel = (h.table j).ctx.kernel →
      EntryStep h e j c' := by
    intro e c' hk
    exact .same (by rw [hk]; exact .refl _)
  obtain ⟨hanswer, hstart, hsegment⟩ := hclean
  cases e with
  | «open» api env type protocol =>
    have h1 := (socketOpen_sections api h env type protocol j).1
    simp only [hostStep]
    split
    · rename_i h2 i ho
      rw [ho] at h1
      rw [addHandle_ctx]
      exact .«opened» h1
    · rename_i h2 ho
      rw [ho] at h1
      exact .«opened» h1
  | accept api i =>
    simp only [hostStep, acceptCall]
    split
    · split <;> exact hsame rfl
    · exact hsame rfl
  | acceptNext env k =>
    simp only [hostStep, acceptResume]
    split
    · exact hsame rfl
    rename_i a ha
    have hstep : EntryStep h (.acceptNext env k) j
        ((acceptStep a.api { h with accepts := h.accepts.eraseIdx k } env a.socket
          a.stage).1.table j).ctx := by
      obtain ⟨api, s, stage⟩ := a
      cases stage with
      | start =>
        simp only [acceptStep, acceptTurn]
        split
        · rw [setCtx_table]
          split
          · rename_i hj
            exact hsame (by rw [hj]; rfl)
          · exact hsame rfl
        · exact hsame rfl
      | wait =>
        simp only [acceptStep]
        split <;> exact hsame rfl
      | opening item =>
        simp only [acceptStep]
        exact .«opened» (socketOpen_sections api { h with accepts := h.accepts.eraseIdx k } env
          .STREAM SOCKET_IP_PROTO_TCP j).1
      | «opened» item newSocket =>
        cases newSocket with
        | none =>
          simp only [acceptStep]
          rw [setCtx_table]
          split
          · rename_i hj
            refine .same ?_
            rw [hj]
            exact rcvSame_popSyn _
          · exact hsame rfl
        | some m =>
          have he : answered h (.acceptNext env k) = some m := by
            simp only [answered, ha, Option.bind_some]
            rfl
          simp only [acceptStep]
          exact entryStep_acceptOn rfl (hsize s) (hanswer m he) he
    split
    · rename_i h2 stage ho
      rw [ho] at hstep
      exact hstep
    · rename_i h2 ho
      rw [ho] at hstep
      exact hstep
  | start api env i req =>
    simp only [hostStep]
    split
    · rw [finish_ctx]
      split
      · rename_i hj
        subst hj
        exact .«section» (c := h.ctxOf j env) (s := .start api req) rfl (hstart api env j req rfl)
          (fun _ _ hs => by cases hs) (.refl _)
      · exact hsame rfl
    · exact hsame rfl
  | resume env i k =>
    simp only [hostStep, callResume]
    split
    · exact hsame rfl
    · rename_i api call hcall
      have hof : (h.setEntry i { h.table i with
          calls := (h.table i).calls.eraseIdx k }).ctxOf i env = h.ctxOf i env := by
        simp only [Host.ctxOf, Host.setEntry_same]
      rw [finish_ctx, hof]
      split
      · rename_i hj
        subst hj
        exact .«section» (c := h.ctxOf j env) (s := .resume api call) rfl
          (hcalls j _ (List.mem_of_getElem? hcall)) (fun _ _ hs => by cases hs) (.refl _)
      · rename_i hj
        simp only [Host.setEntry, if_neg hj]
        exact hsame rfl
  | close env i =>
    simp only [hostStep]
    split
    · rw [dropHandle_ctx, setCtx_table]
      split
      · rename_i hj
        subst hj
        exact .«section» (c := h.ctxOf j env) (s := .close) rfl trivial
          (fun _ _ hs => by cases hs) (.refl _)
      · exact hsame rfl
    · exact hsame rfl
  | segment env p =>
    simp only [hostStep, tcpProcessSegment]
    split
    · rename_i i hf
      rw [setCtx_table]
      split
      · rename_i hj
        subst hj
        refine .«section» (c := (h.table j).ctx) (s := .net (.segment env p)) rfl ?_
          (fun _ _ hs => by cases hs) (.refl _)
        intro p' hp
        cases hp
        exact hsegment env p rfl
      · exact hsame rfl
    · exact hsame rfl
  | tick env =>
    exact .«section» (c := (h.table j).ctx) (s := .net (.tick (env j))) rfl
      (fun p hp => by cases hp) (fun _ _ hs => by cases hs) (.refl _)

theorem EntryStep.receives {e : HostEvent n} {j : Fin n} (h1 : EntryStep h e j c')
    (hk : Receives (h.table j).ctx.kernel) : Receives c'.kernel := by
  cases h1 with
  | same hs => exact hs.receives hk
  | «opened» hr =>
    refine hr.inv (P := fun c => Receives c.kernel) hk fun c s hc hs => ?_
    cases s <;> first | exact receives_section hc trivial | exact hs.elim
  | «section» hc hs _ h' =>
    rw [← hc] at hk
    exact h'.receives (receives_section hk hs)

/-- The receive side of every socket of every host a run reaches. -/
theorem receives_reach (hr : Reach hostStep CleanStart (socketInit n) h) (i : Fin n) :
    Receives (h.table i).ctx.kernel := by
  induction hr generalizing i with
  | init => exact ⟨Nat.zero_le _, fun _ => rfl, fun _ => Blank.window ⟨rfl, rfl, rfl⟩⟩
  | step hr hclean ih =>
    exact (entryStep_hostStep (soundCalls_reach hr) (fun i => (ih i).size) hclean i).receives (ih i)

/-! ## The right edge -/

/-- A transition between states moves the window only when a connection opens. -/
theorem Move.edge (h : Move rx k k') (hs : k.state ≠ .SYN_SENT) :
    k'.state ≠ .SYN_SENT ∧
      (k'.finRcvd = false → k.finRcvd = false ∧ k'.toRcvVars = k.toRcvVars) := by
  have henter : ∀ (k1 : Kernel) (t : TcpState), t ≠ .SYN_SENT → k1.toRcvVars = k.toRcvVars →
      k1.finRcvd = k.finRcvd → (k1.enter t).state ≠ .SYN_SENT ∧
        ((k1.enter t).finRcvd = false → k.finRcvd = false ∧
          (k1.enter t).toRcvVars = k.toRcvVars) := by
    intro k1 t ht hrcv hfin
    obtain ⟨h1, -, h2, h3⟩ := enter_rcv k1 t
    exact ⟨by rw [h3]; exact ht, fun hf => ⟨hfin.symm.trans (h2.symm.trans hf), h1.trans hrcv⟩⟩
  have hfin : ∀ (k1 : Kernel) (t : TcpState), t ≠ .SYN_SENT → k1.finRcvd = true →
      (k1.enter t).state ≠ .SYN_SENT ∧
        ((k1.enter t).finRcvd = false → k.finRcvd = false ∧
          (k1.enter t).toRcvVars = k.toRcvVars) := by
    intro k1 t ht hf1
    obtain ⟨-, -, h2, h3⟩ := enter_rcv k1 t
    refine ⟨by rw [h3]; exact ht, fun hf => ?_⟩
    rw [h2, hf1] at hf
    cases hf
  cases h with
  | close | accepted | finAcked => exact henter k _ nofun rfl rfl
  | closingAcked => exact henter k.released _ nofun rfl rfl
  | dispose => exact ⟨hs, fun hf => ⟨hf, rfl⟩⟩
  | opened _ h | crossed _ h => exact absurd h hs
  | @fin p es next _ h =>
    refine hfin (k.takeFin.emit es) next ?_ rfl
    obtain ⟨-, rfl⟩ | ⟨-, rfl⟩ := h <;> nofun
  | @finTimeWait p es => exact hfin (k.takeFin.emit es).released .TIME_WAIT nofun rfl

/-- A segment leaves the right edge where it is. -/
theorem edge_segment {env : Env} {p : Packet} (hp : p.length < 65536) (hk : Receives c.kernel)
    (hs : c.state ≠ .SYN_SENT) (hf : (netStep c (.segment env p)).kernel.finRcvd = false) :
    rightEdge (netStep c (.segment env p)).kernel.toSockCore = rightEdge c.kernel.toSockCore := by
  have hrx : ∀ q : Packet, some p = some q → q.length < 65536 := by
    intro q hq
    cases hq
    exact hp
  have hrcv : ∀ k k' : Kernel, k'.toRcvVars = k.toRcvVars →
      rightEdge k'.toSockCore = rightEdge k.toSockCore := by
    intro k k' h1
    unfold rightEdge
    rw [show k'.rcvNxt = k.rcvNxt from congrArg (·.rcvNxt) h1,
      show k'.rcvWnd = k.rcvWnd from congrArg (·.rcvWnd) h1]
  have hwork : ∀ k k', Work (some p) k k' → Receives k →
      k'.finRcvd = k.finRcvd ∧
        (k.finRcvd = false → rightEdge k'.toSockCore = rightEdge k.toSockCore) := by
    intro k k' hw hk
    cases hw with
    | send h =>
      refine ⟨?_, fun _ => hrcv _ _ h.frame.rcv⟩
      cases h with
      | sendData ok => cases ok <;> rfl
      | _ => rfl
    | @receive q hq _ ha hl =>
      exact ⟨rfl, fun hf => (receiveData_window hk.short (hk.window hf) hl (hrx q hq) ha.1).2⟩
    | queueSyn => exact ⟨rfl, fun _ => rfl⟩
    | write hu | read hu | openWindow hu => cases hu
  have hinv : Receives (netStep c (.segment env p)).kernel ∧
      (netStep c (.segment env p)).kernel.state ≠ .SYN_SENT ∧
      ((netStep c (.segment env p)).kernel.finRcvd = false →
        rightEdge (netStep c (.segment env p)).kernel.toSockCore =
          rightEdge c.kernel.toSockCore) := by
    refine netStep_inv (P := fun k => Receives k ∧ k.state ≠ .SYN_SENT ∧
      (k.finRcvd = false → rightEdge k.toSockCore = rightEdge c.kernel.toSockCore)) ?_ ?_
      ⟨hk, hs, fun _ => rfl⟩
    · rintro k k' hw ⟨h1, h2, h3⟩
      obtain ⟨h4, h5⟩ := hwork k k' hw h1
      refine ⟨hw.receives hrx h1, ?_, fun hf => ?_⟩
      · rw [congrArg (·.state) hw.frame.ctl]; exact h2
      · rw [h4] at hf
        exact (h5 hf).trans (h3 hf)
    · rintro k k' hm ⟨h1, h2, h3⟩
      obtain ⟨h4, h5⟩ := hm.edge h2
      exact ⟨hm.receives h1, h4, fun hf => (hrcv _ _ (h5 hf).2).trans (h3 (h5 hf).1)⟩
  exact hinv.2.2 hf

/-- The window was opened further, if anything. -/
structure Wider (k k' : Kernel) : Prop where
  receives : Receives k'
  nxt : k'.finRcvd = false → k'.rcvNxt = k.rcvNxt
  wnd : k'.finRcvd = false → k.rcvWnd ≤ k'.rcvWnd

theorem Wider.same {k'' : Kernel} (h : Wider k k') (hrcv : k''.toRcvVars = k'.toRcvVars)
    (hfin : k''.finRcvd = false → k'.finRcvd = false) (hk : Receives k'') : Wider k k'' := by
  refine ⟨hk, fun hf => ?_, fun hf => ?_⟩
  · exact (congrArg (·.rcvNxt) hrcv).trans (h.nxt (hfin hf))
  · rw [show k''.rcvWnd = k'.rcvWnd from congrArg (·.rcvWnd) hrcv]
    exact h.wnd (hfin hf)

theorem Work.wider {k₀ : Kernel} (hw : Work none k k') (h : Wider k₀ k) : Wider k₀ k' := by
  have hk := hw.receives (fun p hp => by cases hp) h.receives
  cases hw with
  | send hs =>
    have hfin : k'.finRcvd = k.finRcvd := by
      cases hs with
      | sendData ok => cases ok <;> rfl
      | _ => rfl
    exact h.same hs.frame.rcv (fun hf => hfin.symm.trans hf) hk
  | receive hp | queueSyn hp => cases hp
  | @write data =>
    obtain ⟨-, -, hrcv⟩ := tcpWriteTxBuffer_frame k.toSockCore (k.sndNxt + w32 k.sndUser) data
    exact h.same hrcv id hk
  | read => exact ⟨hk, h.nxt, h.wnd⟩
  | openWindow =>
    refine ⟨hk, h.nxt, fun hf => (h.wnd hf).trans ?_⟩
    have hroom := (h.receives.window hf).room
    have hshort := h.receives.short
    show k.rcvWnd ≤ u16 (k.rcvWnd + windowReduction k.toSockCore)
    rw [windowReduction_eq hshort hroom, u16_of_lt (by omega)]
    omega

theorem wider_tick {env : Env} (hk : Receives c.kernel) :
    Wider c.kernel (netStep c (.tick env)).kernel := by
  refine netStep_inv (P := fun k => Wider c.kernel k) (fun k k' hw h => hw.wider h) ?_
    ⟨hk, fun _ => rfl, fun _ => le_rfl⟩
  intro k k' hm h
  have hk' := hm.receives h.receives
  cases hm with
  | close =>
    obtain ⟨hrcv, -, hfin, -⟩ := enter_rcv k .CLOSED
    exact h.same hrcv (fun hf => hfin.symm.trans hf) hk'
  | dispose => exact h.same rfl id hk'
  | opened hp | crossed hp | accepted hp | finAcked hp | fin _ hp | finTimeWait hp
  | closingAcked hp => cases hp

theorem wider_resume {api : Api} {call : Call} (h : Resume api k call k') (hk : Receives k)
    (hk' : Receives k') : Wider k k' := by
  have hrefl : Wider k k := ⟨hk, fun _ => rfl, fun _ => le_rfl⟩
  cases h with
  | work h => exact Run.chain_inv h hrefl fun _ _ hw h => hw.wider h
  | fin next _ h =>
    cases h with
    | tried => exact hrefl.same rfl id hk'
    | @sent ph hd =>
      obtain ⟨hrcv, -, hfin, -⟩ := enter_rcv ((k.post ph hd 0).countFin) next
      exact hrefl.same hrcv (fun hf => hfin.symm.trans hf) hk'

/-- The right edge of the window does not move back. -/
theorem Wider.edge (h : Wider k k') (hf : k'.finRcvd = false) :
    cmpSeq (rightEdge k'.toSockCore) (rightEdge k.toSockCore) ≥ 0 := by
  have h1 := h.nxt hf
  have h2 := h.wnd hf
  have h3 := (h.receives.window hf).room
  have h4 := h.receives.short
  refine cmp_nonneg_iff.mpr ?_
  unfold rightEdge
  rw [h1]
  simp only [Serial.dist, w32]
  bv_omega

theorem closeSocket_state (c : Ctx) : (closeSocket c).state = .CLOSED :=
  (tcpDeleteControlBlock_state _).trans (tcpChangeState_state _ _)

theorem socketClose_rcv (c : Ctx) :
    (socketClose c).state = .CLOSED ∨ RcvSame c.kernel (socketClose c).kernel := by
  unfold socketClose
  split
  · unfold tcpAbort
    split
    case h_6 => exact .inr ⟨rfl, rfl, rfl, rfl⟩
    all_goals exact .inl (closeSocket_state _)
  all_goals exact .inr ⟨rfl, rfl, rfl, rfl⟩

theorem edge_same (h : RcvSame k k') :
    cmpSeq (rightEdge k'.toSockCore) (rightEdge k.toSockCore) ≥ 0 := by
  unfold rightEdge
  rw [show k'.rcvNxt = k.rcvNxt from congrArg (·.rcvNxt) h.rcv,
    show k'.rcvWnd = k.rcvWnd from congrArg (·.rcvWnd) h.rcv, cmpSeq, cmp_self]

/-- A section on a socket in a connection. -/
theorem edge_section {s : Section} (hk : Receives c.kernel)
    (hconn : c.kernel.state.connected = true) (hs : CleanSection c s)
    (ha : ∀ socket item, s ≠ .answer socket item) (hsec : (sectionRun c s).kernel = k')
    (hconn' : k'.state.connected = true) (hf : k'.finRcvd = false) :
    cmpSeq (rightEdge k'.toSockCore) (rightEdge c.kernel.toSockCore) ≥ 0 := by
  have hclosed : c.kernel.state ≠ .CLOSED := by
    intro h
    rw [h] at hconn
    cases hconn
  have hgone : k'.state ≠ .CLOSED := by
    intro h
    rw [h] at hconn'
    cases hconn'
  have hk' : Receives k' := by
    rw [← hsec]
    exact receives_section hk hs
  cases s with
  | net e =>
    cases e with
    | segment env p =>
      have hs0 : c.state ≠ .SYN_SENT := by
        intro h
        rw [show c.kernel.state = .SYN_SENT from h] at hconn
        cases hconn
      replace hsec : (netStep c (.segment env p)).kernel = k' := hsec
      have hedge := @edge_segment c env p (hs p rfl) hk hs0
      rw [hsec] at hedge
      rw [hedge hf, cmpSeq, cmp_self]
    | tick env =>
      replace hsec : (netStep c (.tick env)).kernel = k' := hsec
      have h1 := @wider_tick c env hk
      rw [hsec] at h1
      exact h1.edge hf
  | start api req =>
    have hcase := start_cases api c req
    replace hsec : (start api c req).1.kernel = k' := hsec
    rw [hsec] at hcase
    cases hcase with
    | idle => exact edge_same (.refl _)
    | bind => exact edge_same ⟨rfl, rfl, rfl, rfl⟩
    | connect h | setTxBufferSize h | setRxBufferSize h => exact absurd h hclosed
    | @listen _ m =>
      rw [(enter_rcv { c.kernel with synQueueSize := m } .LISTEN).2.2.2] at hconn'
      cases hconn'
  | resume api call =>
    have hcase := resume_cases api c call
    replace hsec : (resumeCall api c call).1.kernel = k' := hsec
    rw [hsec] at hcase
    exact (wider_resume hcase hk hk').edge hf
  | close =>
    replace hsec : (socketClose c).kernel = k' := hsec
    obtain h1 | h1 := socketClose_rcv c
    · exact absurd ((congrArg (·.state) hsec).symm.trans h1) hgone
    · rw [hsec] at h1
      exact edge_same h1
  | kill =>
    replace hsec : (closeSocket c).kernel = k' := hsec
    exact absurd ((congrArg (·.state) hsec).symm.trans (closeSocket_state c)) hgone
  | «opened» api =>
    refine absurd ((congrArg (·.state) hsec).symm.trans ?_) hgone
    cases api <;> rfl
  | answer socket item => exact absurd rfl (ha socket item)
  | popSyn update =>
    have h1 : RcvSame c.kernel k' := by
      rw [← hsec]
      cases update <;> exact ⟨rfl, rfl, rfl, rfl⟩
    exact edge_same h1
  | env | acceptWait | resetCongestion =>
    have h1 : RcvSame c.kernel k' := by
      rw [← hsec]
      exact ⟨rfl, rfl, rfl, rfl⟩
    exact edge_same h1

theorem EntryStep.edge {e : HostEvent n} {j : Fin n} (h1 : EntryStep h e j c')
    (hk : Receives (h.table j).ctx.kernel) (hconn : (h.table j).ctx.kernel.state.connected = true)
    (ha : answered h e ≠ some j) (hconn' : c'.kernel.state.connected = true)
    (hf : c'.kernel.finRcvd = false) :
    cmpSeq (rightEdge c'.kernel.toSockCore) (rightEdge (h.table j).ctx.kernel.toSockCore) ≥ 0 := by
  cases h1 with
  | same hs => exact edge_same hs
  | «opened» hr =>
    have hcase : RcvSame (h.table j).ctx.kernel c'.kernel ∨ c'.state = .CLOSED := by
      refine hr.inv (P := fun c => RcvSame (h.table j).ctx.kernel c.kernel ∨ c.state = .CLOSED)
        (.inl (.refl _)) fun c s hc hs => ?_
      cases s with
      | env => exact hc
      | kill => exact .inr (closeSocket_state c)
      | «opened» api => cases api <;> exact .inr rfl
      | _ => exact hs.elim
    obtain h2 | h2 := hcase
    · exact edge_same h2
    · rw [show c'.kernel.state = .CLOSED from h2] at hconn'
      cases hconn'
  | @«section» c s hc hs hans h' =>
    rw [← hc] at hk hconn ⊢
    generalize hsec : (sectionRun c s).kernel = k1 at h'
    have hedge := edge_section hk hconn hs (fun socket item heq => ha (hans socket item heq)) hsec
      (by rw [← h'.state]; exact hconn') (by rw [← h'.fin]; exact hf)
    have hlast : rightEdge c'.kernel.toSockCore = rightEdge k1.toSockCore := by
      unfold rightEdge
      rw [show c'.kernel.rcvNxt = k1.rcvNxt from congrArg (·.rcvNxt) h'.rcv,
        show c'.kernel.rcvWnd = k1.rcvWnd from congrArg (·.rcvWnd) h'.rcv]
    rw [hlast]
    exact hedge

/-- What `tcpProcessSegmentData` writes of the segment `p`: between one byte and the window, and
nothing outside it. -/
structure WritesInside (s : SockCore) (p : Packet) : Prop where
  some_bytes : 1 ≤ ((trimSegment s p.segment.seqNum p.offset p.length).2.1 -
    (trimSegment s p.segment.seqNum p.offset p.length).1).toNat
  inside : dist s.rcvNxt (trimSegment s p.segment.seqNum p.offset p.length).1 +
    ((trimSegment s p.segment.seqNum p.offset p.length).2.1 -
      (trimSegment s p.segment.seqNum p.offset p.length).1).toNat ≤ s.rcvWnd

theorem writes_inside {p : Packet} (hW : s.rcvWnd < 65536) (h0 : 0 < p.length)
    (hp : p.length < 65536) (ha : seqAcceptable s p.segment p.length = true) : WritesInside s p := by
  obtain ⟨hlt, hle⟩ := @trimSegment_in s p.segment p.offset p.length hW hp h0 ha
  have hsub := sub_toNat hlt.le
  exact ⟨by rw [hsub]; omega, by rw [hsub]; omega⟩

/-- In every run whose connections start without the leftovers of earlier ones, and as long as the
FIN of the peer is not consumed: what is unread and what is offered fit into the buffer, so that
the window update does not wrap; the blocks lie apart in the window; what an accepted segment
brings is written into the window; and no event moves the right edge back. -/
theorem window_kept (hr : Reach hostStep CleanStart (socketInit n) h) (i : Fin n)
    (hconn : (h.table i).ctx.state.connected = true) (hf : (h.table i).ctx.finRcvd = false) :
    WindowOk (h.table i).ctx.toSockCore ∧
    windowReduction (h.table i).ctx.toSockCore =
      (h.table i).ctx.rxBufferSize - (h.table i).ctx.rcvUser - (h.table i).ctx.rcvWnd ∧
    (∀ p : Packet, 0 < p.length → p.length < 65536 →
      seqAcceptable (h.table i).ctx.toSockCore p.segment p.length = true →
      WritesInside (h.table i).ctx.toSockCore p) ∧
    ∀ e, CleanStart h e → answered h e ≠ some i →
      ((hostStep h e).table i).ctx.state.connected = true →
      ((hostStep h e).table i).ctx.finRcvd = false →
      cmpSeq (rightEdge ((hostStep h e).table i).ctx.toSockCore)
        (rightEdge (h.table i).ctx.toSockCore) ≥ 0 := by
  have hk := receives_reach hr i
  have hwin := hk.window hf
  have hroom : (h.table i).ctx.rcvUser + (h.table i).ctx.rcvWnd ≤ (h.table i).ctx.rxBufferSize :=
    hwin.room
  have hshort : (h.table i).ctx.rxBufferSize < 65536 := hk.short
  refine ⟨hwin, windowReduction_eq hshort hroom, fun p h0 hp ha => ?_, fun e hclean ha hc' hf' => ?_⟩
  · exact writes_inside (by omega) h0 hp ha
  · exact (entryStep_hostStep (soundCalls_reach hr) (fun i => (receives_reach hr i).size) hclean
      i).edge hk hconn ha hc' hf'

theorem cleanStart_start {api : Api} {env : Env} {i : Fin n} {req : Request}
    (hreq : CleanRequest (h.table i).ctx.toSocket (h.table i).ctx.finRcvd req) :
    CleanStart h (.start api env i req) := by
  refine ⟨fun j hj => (by cases hj), fun _ _ _ _ he => ?_, fun _ _ he => (by cases he)⟩
  cases he
  exact hreq

theorem cleanStart_segment {env : Env} {p : Packet} (hp : p.length < 65536) :
    CleanStart h (.segment env p) := by
  refine ⟨fun j hj => (by cases hj), fun _ _ _ _ he => (by cases he), fun _ _ he => ?_⟩
  cases he
  exact hp

/-- The socket of entry 0 connects for the first time. -/
def connectEvents : List (HostEvent SOCKET_MAX_COUNT) :=
  openEvents .c 0 2000 ++ [.start .c Env.granting 0 (.connect wirePeer 80),
    .segment Env.granting (wireSegment 100 1 { syn := true, ack := true })]

theorem window_kept_first :
    WindowOk ((hostRun connectEvents).table 0).ctx.toSockCore := by
  have hr : Reach hostStep CleanStart (socketInit SOCKET_MAX_COUNT) (hostRun connectEvents) := by
    simp only [hostRun, connectEvents, openEvents, List.foldl_append, List.foldl_cons,
      List.foldl_nil]
    have h1 : Reach hostStep CleanStart (socketInit SOCKET_MAX_COUNT) _ :=
      .step (e := .open .c Env.granting .STREAM SOCKET_IP_PROTO_TCP) .init
        ⟨fun j hj => (by cases hj), fun _ _ _ _ he => (by cases he), fun _ _ he => (by cases he)⟩
    have h2 := h1.step (e := .start .c Env.granting 0 (.bind {} 2000))
      (by exact cleanStart_start trivial)
    have h3 := h2.step (e := .start .c Env.granting 0 (.setTxBufferSize 8))
      (by exact cleanStart_start trivial)
    have h4 := h3.step (e := .start .c Env.granting 0 (.setRxBufferSize 8))
      (by exact cleanStart_start fun _ _ => by decide +kernel)
    have h5 := h4.step (e := .start .c Env.granting 0 (.connect wirePeer 80))
      (by exact cleanStart_start fun _ => by decide +kernel)
    exact h5.step (e := .segment Env.granting (wireSegment 100 1 { syn := true, ack := true }))
      (cleanStart_segment (by decide))
  exact (window_kept hr 0 (by decide +kernel) (by decide +kernel)).1

/-! ## A second connection on the handle -/

/-- Two bytes of the peer behind a gap of two. -/
def gapText : Packet :=
  { wireSegment 103 1 { ack := true } with buffer := ⟨[⟨[1, 2], 2⟩], 1⟩, length := 2 }

/-- The first connection is reset with a block in its list, and the socket connects again. -/
def reconnectEvents : List (HostEvent SOCKET_MAX_COUNT) :=
  connectEvents ++ [.segment Env.granting gapText,
    .segment Env.granting (wireSegment 101 1 { rst := true }),
    .start .c Env.granting 0 (.connect wirePeer 80),
    .segment Env.granting (wireSegment 500 1 { syn := true, ack := true })]

/-- The new connection is established, and the block of the old one lies outside its window. -/
theorem window_stale :
    Reach hostStep (fun _ _ => True) (socketInit SOCKET_MAX_COUNT) (hostRun reconnectEvents) ∧
    ((hostRun reconnectEvents).table 0).ctx.state = .ESTABLISHED ∧
    ((hostRun reconnectEvents).table 0).ctx.finRcvd = false ∧
    ¬WindowOk ((hostRun reconnectEvents).table 0).ctx.toSockCore := by
  have hstate : ((hostRun reconnectEvents).table 0).ctx.state = .ESTABLISHED ∧
      ((hostRun reconnectEvents).table 0).ctx.finRcvd = false ∧
      ((hostRun reconnectEvents).table 0).ctx.sackBlock = [⟨103, 105⟩] ∧
      ((hostRun reconnectEvents).table 0).ctx.rcvNxt = 501 ∧
      ((hostRun reconnectEvents).table 0).ctx.rcvWnd = 8 := by
    decide +kernel
  obtain ⟨h1, h2, h3, h4, h5⟩ := hstate
  refine ⟨Reach.init.foldl _ fun _ _ _ => trivial, h1, h2, fun hw => ?_⟩
  have hin := hw.blocks.inside ⟨103, 105⟩ (by rw [h3]; exact List.mem_singleton_self _)
  rw [h4, h5] at hin
  exact absurd hin.right (by decide)

end Cyclone
