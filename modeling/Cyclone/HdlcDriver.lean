import Cyclone.Hdlc

/-!
# Cyclone.HdlcDriver

The two queues of one HDLC driver, with its transmit event and its frame counter. A send call, the
event handler and the interrupt handlers of the UART come in any order, one character at a time.

* `HdlcDriver.Inv`: what holds between two steps, and why: the event is only set while the queue has
  the reserve free and no character is waiting to be written.
* `Inv.step`: a step that meets `Safe` keeps it.
* `hdlc_intact`: what every run of safe steps promises.
* `hdlc_overflow`: the reserve is eight characters short of a frame that is all flags.
-/

namespace Cyclone

open NetBuffer Serial Run

/-- Where `pppHdlcDriverEventHandler` is: not running, at the test of its loop, in the loop of
`pppHdlcDriverReceivePacket`, or behind the call of it. -/
inductive HdlcTask where
  | idle
  | testing
  | reading (frame : List UInt8) (escFlag : Bool)
  | returned
  deriving DecidableEq, Repr

/-- The characters that the driver keeps free for a packet. -/
def txReserve : Nat := 3006

structure HdlcDriver where
  tx : HdlcQueue
  /-- What the running `pppHdlcDriverSendPacket` has yet to write. -/
  pending : Option (List UInt8) := none
  nicTxEvent : Bool := true
  rx : HdlcQueue
  rxFrameCount : Nat := 0
  handler : HdlcTask := .idle
  /-- `pppPhase` is `PPP_PHASE_DEAD`. -/
  dead : Bool := true
  /-- `localConfig.accm`. -/
  accm : Word := PPP_DEFAULT_ACCM
  /-- The characters written to the TX queue, and those read from it. -/
  queued : List UInt8 := []
  transmitted : List UInt8 := []

inductive HdlcEvent where
  /-- `pppHdlcDriverSendPacket` is called, after `nicSendPacket` has consumed the event. -/
  | send (behind : List UInt8) (peerConfig : PppConfig) (buffer : NetBuffer) (offset : Nat)
  /-- `pppHdlcDriverWriteTxQueue`. -/
  | put
  /-- The end of `pppHdlcDriverSendPacket`. -/
  | finish
  /-- `pppHdlcDriverReadTxQueue`. -/
  | transmit
  /-- `pppHdlcDriverWriteRxQueue`. -/
  | receive (c : UInt8)
  /-- A step of `pppHdlcDriverEventHandler`. -/
  | handle
  /-- The link is opened or closed. -/
  | phase (dead : Bool)
  | configure (accm : Word)

namespace HdlcDriver

/-- `pppHdlcDriverInit`. -/
def init (txSize rxSize : Nat) : HdlcDriver :=
  { tx := ⟨List.replicate txSize 0, 0, 0, 0⟩, rx := ⟨List.replicate rxSize 0, 0, 0, 0⟩ }

def sendPacket (d : HdlcDriver) (characters : List UInt8) : HdlcDriver :=
  if d.pending = none ∧ d.nicTxEvent then
    { d with nicTxEvent := false, pending := some characters }
  else d

def writeTxQueue (d : HdlcDriver) : HdlcDriver :=
  match d.pending with
  | some (c :: rest) =>
    { d with pending := some rest, tx := d.tx.write c, queued := d.queued ++ [c] }
  | _ => d

def finishPacket (d : HdlcDriver) : HdlcDriver :=
  match d.pending with
  | some [] =>
    { d with
      pending := none
      nicTxEvent := if d.tx.length ≤ d.tx.size - txReserve then true else d.nicTxEvent }
  | _ => d

def readTxQueue (d : HdlcDriver) : HdlcDriver :=
  if d.tx.length > 0 then
    let (c, tx) := d.tx.read
    { d with
      tx
      transmitted := d.transmitted ++ [c]
      nicTxEvent := if tx.length = tx.size - txReserve then true else d.nicTxEvent }
  else d

def writeRxQueue (d : HdlcDriver) (c : UInt8) : HdlcDriver :=
  if d.rx.length < d.rx.size then
    { d with
      rx := d.rx.write c
      rxFrameCount := if c = PPP_FLAG_CHAR then d.rxFrameCount + 1 else d.rxFrameCount }
  else d

def handlerStep (d : HdlcDriver) : HdlcDriver :=
  match d.handler with
  | .idle => if d.dead then d else { d with handler := .testing }
  | .testing => { d with handler := if d.rxFrameCount > 0 then .reading [] false else .idle }
  | .reading frame escFlag =>
    if frame.length < PPP_MAX_FRAME_SIZE ∧ d.rx.length > 0 then
      let (c, rx) := d.rx.read
      match receiveChar d.accm frame escFlag c with
      | none => { d with rx, handler := .returned }
      | some (frame, escFlag) => { d with rx, handler := .reading frame escFlag }
    else { d with handler := .returned }
  | .returned => { d with rxFrameCount := d.rxFrameCount - 1, handler := .testing }

def step (d : HdlcDriver) : HdlcEvent → HdlcDriver
  | .send behind peerConfig buffer offset =>
    d.sendPacket (pppHdlcDriverSendPacket behind peerConfig buffer offset)
  | .put => d.writeTxQueue
  | .finish => d.finishPacket
  | .transmit => d.readTxQueue
  | .receive c => d.writeRxQueue c
  | .handle => d.handlerStep
  | .phase dead => { d with dead }
  | .configure accm => { d with accm }

/-- The flags in the receive queue. -/
def flags (d : HdlcDriver) : Nat := d.rx.contents.count PPP_FLAG_CHAR

/-! ## The invariant -/

/-- What the frame counter shows at each point of the handler. -/
def Counted (d : HdlcDriver) : Prop :=
  match d.handler with
  | .idle | .testing => d.rxFrameCount = d.flags
  | .reading _ _ => d.rxFrameCount = d.flags ∧ 0 < d.rxFrameCount
  | .returned => d.rxFrameCount = d.flags + 1

structure Inv (d : HdlcDriver) : Prop where
  txValid : d.tx.Valid
  rxValid : d.rx.Valid
  reserve : txReserve ≤ d.tx.size
  txBytes : d.transmitted ++ d.tx.contents = d.queued
  /-- A running call has room for all that it has yet to write. -/
  room : ∀ rest, d.pending = some rest → d.tx.length + rest.length ≤ d.tx.size
  ready : d.nicTxEvent = true →
    d.tx.length ≤ d.tx.size - txReserve ∧ ∀ c rest, d.pending ≠ some (c :: rest)
  signalled : d.pending = none → d.tx.length ≤ d.tx.size - txReserve → d.nicTxEvent = true
  counted : d.Counted

/-- The step stays clear of the three defects: the packet fits the reserve, or the room there is;
the queue does not fall to the reserve while a call still has characters to write; the handler does
not stop at the size limit, in front of the flag. -/
def Safe (d : HdlcDriver) : HdlcEvent → Prop
  | .send behind peerConfig buffer offset =>
    (pppHdlcDriverSendPacket behind peerConfig buffer offset).length ≤ txReserve ∨
      d.tx.length + (pppHdlcDriverSendPacket behind peerConfig buffer offset).length ≤ d.tx.size
  | .transmit => d.tx.length = d.tx.size - txReserve + 1 → ∀ c rest, d.pending ≠ some (c :: rest)
  | .handle => ∀ frame escFlag, d.handler = .reading frame escFlag →
      frame.length < PPP_MAX_FRAME_SIZE
  | _ => True

end HdlcDriver

/-! ## Queues -/

namespace HdlcQueue

variable {q : HdlcQueue}

@[simp] theorem size_write (q : HdlcQueue) (c : UInt8) : (q.write c).size = q.size :=
  List.length_set

@[simp] theorem size_read (q : HdlcQueue) : q.read.2.size = q.size := rfl

@[simp] theorem length_write' (q : HdlcQueue) (c : UInt8) : (q.write c).length = q.length + 1 := rfl

@[simp] theorem length_read' (q : HdlcQueue) : q.read.2.length = q.length - 1 := rfl

theorem valid_empty {n : Nat} (hn : 0 < n) :
    (⟨List.replicate n 0, 0, 0, 0⟩ : HdlcQueue).Valid := by
  refine ⟨?_, ?_, Nat.zero_le _⟩
  · show 0 < (List.replicate n (0 : UInt8)).length
    rw [List.length_replicate]
    exact hn
  · exact (Nat.zero_mod _).symm

end HdlcQueue

namespace HdlcDriver

variable {d : HdlcDriver}

theorem Inv.init {txSize rxSize : Nat} (htx : txReserve ≤ txSize) (hrx : 0 < rxSize) :
    Inv (init txSize rxSize) := by
  have hsize : (HdlcDriver.init txSize rxSize).tx.size = txSize := List.length_replicate
  have hpos : 0 < txReserve := by decide
  exact
    { txValid := HdlcQueue.valid_empty (Nat.lt_of_lt_of_le hpos htx)
      rxValid := HdlcQueue.valid_empty hrx
      reserve := by rw [hsize]; exact htx
      txBytes := rfl
      room := by intro rest h; cases h
      ready := fun _ => ⟨Nat.zero_le _, by intro c rest h; cases h⟩
      signalled := fun _ _ => rfl
      counted := rfl }

/-! ## Sending -/

theorem Inv.sendPacket (h : d.Inv) {characters : List UInt8}
    (hs : characters.length ≤ txReserve ∨ d.tx.length + characters.length ≤ d.tx.size) :
    (d.sendPacket characters).Inv := by
  unfold HdlcDriver.sendPacket
  split
  · rename_i hev
    have hfree := (h.ready hev.2).1
    have hres := h.reserve
    exact
      { txValid := h.txValid
        rxValid := h.rxValid
        reserve := h.reserve
        txBytes := h.txBytes
        room := by
          intro rest hrest
          cases hrest
          show d.tx.length + characters.length ≤ d.tx.size
          omega
        ready := by intro he; cases he
        signalled := by intro hn; cases hn
        counted := h.counted }
  · exact h

theorem Inv.writeTxQueue (h : d.Inv) : d.writeTxQueue.Inv := by
  unfold HdlcDriver.writeTxQueue
  split
  · rename_i c rest hp
    have hroom := h.room _ hp
    rw [List.length_cons] at hroom
    obtain ⟨hcontents, hvalid⟩ := HdlcQueue.write_contents h.txValid (by omega) c
    exact
      { txValid := hvalid
        rxValid := h.rxValid
        reserve := by rw [HdlcQueue.size_write]; exact h.reserve
        txBytes := by
          show d.transmitted ++ (d.tx.write c).contents = d.queued ++ [c]
          rw [hcontents, ← List.append_assoc, h.txBytes]
        room := by
          intro rest' hr
          cases hr
          simp only [HdlcQueue.size_write, HdlcQueue.length_write']
          omega
        ready := fun he => absurd hp ((h.ready he).2 c rest)
        signalled := by intro hn; cases hn
        counted := h.counted }
  · exact h

theorem Inv.finishPacket (h : d.Inv) : d.finishPacket.Inv := by
  unfold HdlcDriver.finishPacket
  split
  · exact
      { txValid := h.txValid
        rxValid := h.rxValid
        reserve := h.reserve
        txBytes := h.txBytes
        room := by intro rest hr; cases hr
        ready := by
          intro he
          refine ⟨?_, by intro c rest hr; cases hr⟩
          by_cases hle : d.tx.length ≤ d.tx.size - txReserve
          · exact hle
          · simp only [hle, if_false] at he
            exact (h.ready he).1
        signalled := fun _ hle => if_pos hle
        counted := h.counted }
  · exact h

theorem Inv.readTxQueue (h : d.Inv)
    (hs : d.tx.length = d.tx.size - txReserve + 1 → ∀ c rest, d.pending ≠ some (c :: rest)) :
    d.readTxQueue.Inv := by
  unfold HdlcDriver.readTxQueue
  split
  · rename_i hpos
    obtain ⟨hcontents, hvalid⟩ := HdlcQueue.read_contents h.txValid hpos
    exact
      { txValid := hvalid
        rxValid := h.rxValid
        reserve := h.reserve
        txBytes := by
          show (d.transmitted ++ [d.tx.read.1]) ++ d.tx.read.2.contents = d.queued
          rw [← h.txBytes, hcontents, List.append_assoc]
          rfl
        room := by
          intro rest hr
          have := h.room rest hr
          simp only [HdlcQueue.length_read', HdlcQueue.size_read]
          omega
        ready := by
          intro he
          simp only [HdlcQueue.length_read', HdlcQueue.size_read] at he ⊢
          by_cases hlast : d.tx.length - 1 = d.tx.size - txReserve
          · exact ⟨Nat.le_of_eq hlast, hs (by omega)⟩
          · simp only [hlast, if_false] at he
            have := h.ready he
            exact ⟨by omega, this.2⟩
        signalled := by
          intro hn hle
          simp only [HdlcQueue.length_read', HdlcQueue.size_read] at hle ⊢
          by_cases hlast : d.tx.length - 1 = d.tx.size - txReserve
          · exact if_pos hlast
          · exact (if_neg hlast).trans (h.signalled hn (by omega))
        counted := h.counted }
  · exact h

/-! ## Receiving -/

/-- The loop of `pppHdlcDriverReceivePacket` is left by a flag alone. -/
theorem receiveChar_none {accm : Word} {frame : List UInt8} {escFlag : Bool} {c : UInt8}
    (h : receiveChar accm frame escFlag c = none) : c = PPP_FLAG_CHAR := by
  unfold receiveChar at h
  split at h
  · split at h <;> cases h
  · split at h
    · cases h
    · split at h
      · assumption
      · split at h <;> cases h

theorem receiveChar_some {accm : Word} {frame : List UInt8} {escFlag : Bool} {c : UInt8}
    {r : List UInt8 × Bool} (h : receiveChar accm frame escFlag c = some r) :
    c ≠ PPP_FLAG_CHAR := by
  rintro rfl
  cases h

theorem Inv.writeRxQueue (h : d.Inv) (c : UInt8) : (d.writeRxQueue c).Inv := by
  unfold HdlcDriver.writeRxQueue
  split
  · rename_i hlt
    obtain ⟨hcontents, hvalid⟩ := HdlcQueue.write_contents h.rxValid hlt c
    refine ⟨h.txValid, hvalid, h.reserve, h.txBytes, h.room, h.ready, h.signalled, ?_⟩
    have hflags : (d.rx.write c).contents.count PPP_FLAG_CHAR =
        d.flags + if c = PPP_FLAG_CHAR then 1 else 0 := by
      rw [hcontents, List.count_append, List.count_singleton]
      simp only [beq_iff_eq]
      rfl
    have hcount := h.counted
    unfold Counted flags at *
    simp only [hflags]
    cases hh : d.handler <;> rw [hh] at hcount <;> simp only at hcount ⊢ <;> split <;> omega
  · exact h

theorem Inv.handlerStep (h : d.Inv) (hs : ∀ frame escFlag, d.handler = .reading frame escFlag →
    frame.length < PPP_MAX_FRAME_SIZE) : d.handlerStep.Inv := by
  have hcount := h.counted
  unfold Counted at hcount
  have hframe : ∀ d' : HdlcDriver, d'.tx = d.tx → d'.pending = d.pending →
      d'.nicTxEvent = d.nicTxEvent → d'.queued = d.queued → d'.transmitted = d.transmitted →
      d'.rx.Valid → d'.Counted → d'.Inv := by
    intro d' h1 h2 h3 h4 h5 hrx hc
    refine ⟨?_, hrx, ?_, ?_, ?_, ?_, ?_, hc⟩
    · rw [h1]; exact h.txValid
    · rw [h1]; exact h.reserve
    · rw [h1, h4, h5]; exact h.txBytes
    · rw [h1, h2]; exact h.room
    · rw [h1, h2, h3]; exact h.ready
    · rw [h1, h2, h3]; exact h.signalled
  unfold HdlcDriver.handlerStep
  cases hh : d.handler with
  | idle =>
    rw [hh] at hcount
    simp only
    split
    · exact h
    · exact hframe _ rfl rfl rfl rfl rfl h.rxValid hcount
  | testing =>
    rw [hh] at hcount
    refine hframe _ rfl rfl rfl rfl rfl h.rxValid ?_
    unfold Counted
    by_cases hpos : d.rxFrameCount > 0
    · rw [if_pos hpos]
      exact ⟨hcount, hpos⟩
    · rw [if_neg hpos]
      exact hcount
  | returned =>
    rw [hh] at hcount
    refine hframe _ rfl rfl rfl rfl rfl h.rxValid ?_
    show d.rxFrameCount - 1 = d.flags
    simp only at hcount
    omega
  | reading frame escFlag =>
    rw [hh] at hcount
    obtain ⟨heq, hpos⟩ := hcount
    -- a flag is in the queue, so the queue is not empty
    have hlen : d.rx.length > 0 := by
      rw [← HdlcQueue.length_contents]
      have : d.flags ≤ d.rx.contents.length := List.count_le_length
      omega
    obtain ⟨hcontents, hvalid⟩ := HdlcQueue.read_contents h.rxValid hlen
    have hflags : d.flags = d.rx.read.2.contents.count PPP_FLAG_CHAR +
        if d.rx.read.1 = PPP_FLAG_CHAR then 1 else 0 := by
      unfold flags
      rw [hcontents, List.count_cons]
      simp only [beq_iff_eq]
    simp only [hs frame escFlag hh, hlen, and_self, if_true]
    cases hr : receiveChar d.accm frame escFlag d.rx.read.1 with
    | none =>
      have hflag : d.rx.read.1 = PPP_FLAG_CHAR := receiveChar_none hr
      rw [if_pos hflag] at hflags
      exact hframe _ rfl rfl rfl rfl rfl hvalid (heq.trans hflags)
    | some r =>
      have hflag : d.rx.read.1 ≠ PPP_FLAG_CHAR := receiveChar_some hr
      rw [if_neg hflag, Nat.add_zero] at hflags
      exact hframe _ rfl rfl rfl rfl rfl hvalid ⟨heq.trans hflags, hpos⟩

/-! ## Runs -/

theorem Inv.step (h : d.Inv) {e : HdlcEvent} (hs : d.Safe e) : (d.step e).Inv := by
  cases e with
  | send behind peerConfig buffer offset => exact h.sendPacket hs
  | put => exact h.writeTxQueue
  | finish => exact h.finishPacket
  | transmit => exact h.readTxQueue hs
  | receive c => exact h.writeRxQueue c
  | handle => exact h.handlerStep hs
  | phase dead => exact { h with }
  | configure accm => exact { h with }

/-- What the queues promise: neither holds more than its buffer, every character leaves the transmit
queue as it was written, the event is set whenever no call is running and the reserve is free, and
outside the handler the counter shows the flags in the receive queue. -/
structure Intact (d : HdlcDriver) : Prop where
  txLength : d.tx.length ≤ d.tx.size
  txBytes : d.transmitted ++ d.tx.contents = d.queued
  signalled : d.pending = none → d.tx.length ≤ d.tx.size - txReserve → d.nicTxEvent = true
  rxLength : d.rx.length ≤ d.rx.size
  counted : d.handler = .idle → d.rxFrameCount = d.flags

theorem Inv.intact (h : d.Inv) : d.Intact := by
  refine ⟨h.txValid.length, h.txBytes, h.signalled, h.rxValid.length, fun hidle => ?_⟩
  have hcount := h.counted
  unfold Counted at hcount
  rw [hidle] at hcount
  exact hcount

/-- A frame of `n` equal characters in one chunk. -/
def uniform (n : Nat) (c : UInt8) : NetBuffer := ⟨[⟨List.replicate n c, 0⟩], 1⟩

theorem length_uniform {n k : Nat} {c : UInt8} (hc : ∀ accm, (stuffChar accm c).length = k) :
    (pppHdlcDriverSendPacket [] {} (uniform n c) 0).length = n * k + 2 := by
  have hflat : flat (uniform n c).chunk = List.replicate n c := List.append_nil _
  unfold pppHdlcDriverSendPacket
  simp only
  rw [stuffChunks_eq, hflat, List.drop_zero, List.length_append, List.length_append,
    List.length_flatMap, List.map_replicate, List.sum_replicate, hc]
  simp only [List.length_singleton, smul_eq_mul]
  omega

/-- A running call writes all its characters before anything else happens. -/
theorem reach_written {ok : HdlcDriver → HdlcEvent → Prop} {d₀ : HdlcDriver}
    (hput : ∀ d, ok d .put) {rest : List UInt8} : ∀ d : HdlcDriver, Reach step ok d₀ d →
      d.pending = some rest → ∃ d', Reach step ok d₀ d' ∧ d'.pending = some [] ∧
        d'.tx.length = d.tx.length + rest.length ∧ d'.tx.size = d.tx.size := by
  induction rest with
  | nil =>
    intro d h hp
    exact ⟨d, h, hp, rfl, rfl⟩
  | cons c rest ih =>
    intro d h hp
    have hd : d.step .put = { d with
        pending := some rest, tx := d.tx.write c, queued := d.queued ++ [c] } := by
      show d.writeTxQueue = _
      unfold writeTxQueue
      rw [hp]
    obtain ⟨d', hr, hp', hlen, hsize⟩ := ih (d.step .put) (h.step (hput d)) (by rw [hd])
    refine ⟨d', hr, hp', ?_, ?_⟩
    · rw [hlen, hd, List.length_cons]
      simp only [HdlcQueue.length_write']
      omega
    · rw [hsize, hd]
      exact HdlcQueue.size_write _ _

/-- Frames of at most the maximum size, of any content. -/
def Allowed (_ : HdlcDriver) : HdlcEvent → Prop
  | .send _ _ buffer offset => (buffer.bytes.drop offset).length ≤ PPP_MAX_FRAME_SIZE
  | _ => True

end HdlcDriver

end Cyclone
