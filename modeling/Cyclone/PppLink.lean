import Cyclone.Hdlc

/-!
# Cyclone.PppLink

What arrives over a PPP link.

* `LinkStage`: where the receiver is in the stream of characters.
* `Flow`: the invariant. What is unread is what has been sent and not yet received, and the counter
  of frames agrees with the flags in the RX queue.
* `ppp_delivers`: over every run in which only the last frame has the full size.
-/

namespace Cyclone

open NetBuffer Serial Run PppPacketSent

variable {l : PppLink} {done rest : List PppPacketSent} {todo : List UInt8} {lag : Nat}

/-! ## Where the receiver is -/

/-- The position of the receiver: the handler, the packets it has not received, the characters it
has not read, and how far the counter of frames lags behind the flags. -/
inductive LinkStage : HdlcHandler → List PppPacketSent → List UInt8 → Nat → Prop where
  | between {h : HdlcHandler} {rest : List PppPacketSent}
      (hh : h = .idle ∨ h = .returned ∨ h = .reading [] false) :
      LinkStage h rest (rest.flatMap characters) 0
  /-- Inside a frame, of which `got` has been read. -/
  | inside {h : HdlcHandler} {p : PppPacketSent} {rest : List PppPacketSent}
      {got left : List UInt8} (he : p.encoded = got ++ left)
      (hh : (h = .idle ∨ h = .returned) ∧ got = [] ∨ h = .reading got false) :
      LinkStage h (p :: rest)
        (left.flatMap (stuffChar p.accm) ++ PPP_FLAG_CHAR :: rest.flatMap characters) 0
  /-- Inside a frame, behind an escape character. -/
  | escaped {p : PppPacketSent} {rest : List PppPacketSent} {got left : List UInt8} {c : UInt8}
      (he : p.encoded = got ++ c :: left) (hc : Escaped p.accm c) :
      LinkStage (.reading got true) (p :: rest)
        ((c ^^^ PPP_MASK_CHAR) :: (left.flatMap (stuffChar p.accm) ++
          PPP_FLAG_CHAR :: rest.flatMap characters)) 0
  /-- Behind a frame of the full size, whose closing flag was not read. -/
  | overrun {h : HdlcHandler} (hh : h = .idle ∨ h = .returned) : LinkStage h [] [PPP_FLAG_CHAR] 1

/-- A packet is sent. -/
theorem LinkStage.snoc {h : HdlcHandler} (hs : LinkStage h rest todo 0) (p : PppPacketSent) :
    LinkStage h (rest ++ [p]) (todo ++ p.characters) 0 := by
  have hmap : ∀ rest : List PppPacketSent,
      (rest ++ [p]).flatMap characters = rest.flatMap characters ++ p.characters := by
    intro rest
    simp
  cases hs with
  | between hh =>
    rw [← hmap]
    exact .between hh
  | @inside _ _ rest _ _ he hh =>
    have := @LinkStage.inside _ _ (rest ++ [p]) _ _ he hh
    rw [hmap] at this
    simpa using this
  | @escaped _ rest _ _ _ he hc =>
    have := @LinkStage.escaped _ (rest ++ [p]) _ _ _ he hc
    rw [hmap] at this
    simpa using this

/-- The map of the receiver is part of the one the sender uses. -/
def Within (accm : Word) (p : PppPacketSent) : Prop :=
  ∀ c, flagged accm c = true → flagged p.accm c = true

/-- The frame of the packet is shorter than the receiver's buffer. -/
def Short (p : PppPacketSent) : Prop := p.frameLength < PPP_MAX_FRAME_SIZE

structure FlowOf (l : PppLink) (done rest : List PppPacketSent) (todo : List UInt8) (lag : Nat) :
    Prop where
  tx : l.tx.Valid
  rx : l.rx.Valid
  sent : l.sent = done ++ rest
  processed : l.processed = done.map encoded
  unread : l.rx.contents ++ l.wire ++ l.tx.contents ++ l.pending = todo
  stage : LinkStage l.handler rest todo lag
  count : l.rxFrameCount + lag = l.rx.contents.count PPP_FLAG_CHAR +
    if l.handler = .returned then 1 else 0
  busy : l.handler ≠ .idle → 0 < l.rxFrameCount
  fits : ∀ p ∈ l.sent, p.Fits ∧ Within l.accm p ∧ p.frame = p.encoded
  short : l.sent.Pairwise fun p _ => Short p
  full : lag ≠ 0 ↔ ∃ p ∈ done, ¬Short p

def Flow (l : PppLink) : Prop := ∃ done rest todo lag, FlowOf l done rest todo lag

/-! ## Sending and transmitting -/

/-- A packet fits its buffer and the receiver's map is part of the one it is sent with; no queue is
full. -/
def Granted (l : PppLink) : PppEvent → Prop
  | .send p => p.Fits ∧ Within l.accm p
  | .put => l.tx.length < l.tx.size
  | .receive => l.rx.length < l.rx.size
  | _ => True

/-- And the frames sent before a packet are shorter than the receiver's buffer. -/
def Admits (l : PppLink) (e : PppEvent) : Prop :=
  Granted l e ∧ ∀ p, e = .send p → ∀ q ∈ l.sent, Short q

theorem flow_send {p : PppPacketSent} (h : Flow l) (hok : Admits l (.send p)) :
    Flow (l.step (.send p)) := by
  obtain ⟨done, rest, todo, lag, hf⟩ := h
  obtain ⟨⟨hfit, hin⟩, hshort⟩ := hok
  have hshort := hshort p rfl
  unfold PppLink.step
  simp only
  split
  case isFalse => exact ⟨done, rest, todo, lag, hf⟩
  rename_i hpend
  split
  · exact ⟨done, rest, todo, lag, hf⟩
  rename_i b off hsend
  have hlag : lag = 0 := by
    by_contra hne
    obtain ⟨q, hq, hlong⟩ := hf.full.mp hne
    exact hlong (hshort q (by rw [hf.sent]; exact List.mem_append_left _ hq))
  subst hlag
  refine ⟨done, rest ++ [p], todo ++ p.characters, 0, hf.tx, hf.rx, ?_, hf.processed, ?_,
    hf.stage.snoc p, hf.count, hf.busy, ?_, ?_, hf.full⟩
  · show l.sent ++ [p] = _
    rw [hf.sent, List.append_assoc]
  · show l.rx.contents ++ l.wire ++ l.tx.contents ++ pppHdlcDriverSendPacket _ _ _ _ = _
    rw [pppHdlcDriverSendPacket_eq hfit hsend, ← hf.unread, hpend, List.append_nil]
  · intro q hq
    rcases List.mem_append.mp hq with hq | hq
    · exact hf.fits q hq
    · obtain rfl := List.mem_singleton.mp hq
      refine ⟨hfit, hin, ?_⟩
      unfold PppPacketSent.frame
      rw [hsend]
      exact (q.pppSendFrame_bytes hfit hsend).1
  · refine List.pairwise_append.mpr ⟨hf.short, List.pairwise_singleton _ _, ?_⟩
    intro q hq _ _
    exact hshort q hq

theorem flow_put (h : Flow l) (hok : Admits l .put) : Flow (l.step .put) := by
  obtain ⟨done, rest, todo, lag, hf⟩ := h
  unfold PppLink.step
  simp only
  split
  · exact ⟨done, rest, todo, lag, hf⟩
  rename_i c pending hpend
  obtain ⟨h1, h2⟩ := HdlcQueue.write_contents hf.tx hok.1 c
  refine ⟨done, rest, todo, lag, h2, hf.rx, hf.sent, hf.processed, ?_, hf.stage, hf.count,
    hf.busy, hf.fits, hf.short, hf.full⟩
  rw [← hf.unread, hpend, h1]
  simp

theorem flow_transmit (h : Flow l) : Flow (l.step .transmit) := by
  obtain ⟨done, rest, todo, lag, hf⟩ := h
  unfold PppLink.step
  simp only
  split
  case isFalse => exact ⟨done, rest, todo, lag, hf⟩
  rename_i hpos
  obtain ⟨h1, h2⟩ := HdlcQueue.read_contents hf.tx hpos
  refine ⟨done, rest, todo, lag, h2, hf.rx, hf.sent, hf.processed, ?_, hf.stage, hf.count,
    hf.busy, hf.fits, hf.short, hf.full⟩
  rw [← hf.unread, h1]
  simp

theorem flow_receive (h : Flow l) (hok : Admits l .receive) : Flow (l.step .receive) := by
  obtain ⟨done, rest, todo, lag, hf⟩ := h
  unfold PppLink.step
  simp only
  split
  · exact ⟨done, rest, todo, lag, hf⟩
  rename_i c wire hwire
  unfold PppLink.writeRxQueue
  have hroom : l.rx.length < l.rx.size := hok.1
  rw [if_pos hroom]
  obtain ⟨h1, h2⟩ := HdlcQueue.write_contents hf.rx hroom c
  have hcount := hf.count
  refine ⟨done, rest, todo, lag, hf.tx, h2, hf.sent, hf.processed, ?_, hf.stage, ?_, ?_, hf.fits,
    hf.short, hf.full⟩
  · rw [← hf.unread, hwire, h1]
    simp
  · simp only [h1, List.count_append, List.count_singleton]
    by_cases hc : c = PPP_FLAG_CHAR
    · simp only [hc, if_pos, beq_self_eq_true]
      omega
    · simp only [if_neg hc, beq_iff_eq]
      omega
  · intro hbusy
    have := hf.busy hbusy
    show 0 < if c = PPP_FLAG_CHAR then _ else _
    split <;> omega

/-! ## Receiving -/

/-- The first unread character. -/
theorem FlowOf.head (hf : FlowOf l done rest todo lag) (hpos : 0 < l.rx.length) :
    todo = l.rx.read.1 :: (l.rx.read.2.contents ++ l.wire ++ l.tx.contents ++ l.pending) ∧
      l.rx.contents.count PPP_FLAG_CHAR = l.rx.read.2.contents.count PPP_FLAG_CHAR +
        (if l.rx.read.1 = PPP_FLAG_CHAR then 1 else 0) ∧ l.rx.read.2.Valid := by
  obtain ⟨h1, h2⟩ := HdlcQueue.read_contents hf.rx hpos
  refine ⟨?_, ?_, h2⟩
  · rw [← hf.unread, h1]
    simp
  · rw [h1, List.count_cons]
    simp

/-- While the handler reads, a flag is in the queue. -/
theorem FlowOf.nonempty {frame : List UInt8} {escFlag : Bool}
    (hf : FlowOf l done rest todo lag) (hh : l.handler = .reading frame escFlag) :
    0 < l.rx.length ∧ lag = 0 := by
  have hbusy := hf.busy (by rw [hh]; simp)
  have hcount := hf.count
  have hstage := hf.stage
  rw [hh] at hcount hstage
  have hlag : lag = 0 := by
    cases hstage with
    | between _ => rfl
    | inside _ _ => rfl
    | escaped _ _ => rfl
    | overrun hh => rcases hh with h | h <;> cases h
  refine ⟨?_, hlag⟩
  rw [← HdlcQueue.length_contents]
  have hle := @List.count_le_length _ _ PPP_FLAG_CHAR l.rx.contents
  simp at hcount
  omega

/-- A character inside a frame. -/
theorem FlowOf.goesOn {frame frame' : List UInt8} {escFlag escFlag' : Bool}
    (hf : FlowOf l done rest todo 0) (hh : l.handler = .reading frame escFlag)
    (hpos : 0 < l.rx.length) (hne : l.rx.read.1 ≠ PPP_FLAG_CHAR)
    (hs : LinkStage (.reading frame' escFlag') rest
      (l.rx.read.2.contents ++ l.wire ++ l.tx.contents ++ l.pending) 0) :
    Flow { l with rx := l.rx.read.2, handler := .reading frame' escFlag' } := by
  obtain ⟨-, h2, h3⟩ := hf.head hpos
  rw [if_neg hne, Nat.add_zero] at h2
  have hcount := hf.count
  rw [hh, h2] at hcount
  refine ⟨done, rest, _, 0, hf.tx, h3, hf.sent, hf.processed, rfl, hs, ?_, ?_, hf.fits, hf.short,
    hf.full⟩
  · simpa using hcount
  · intro _
    exact hf.busy (by rw [hh]; simp)

/-- A flag ends the loop. -/
theorem FlowOf.ends {frame : List UInt8} {rest' : List PppPacketSent}
    {done' : List PppPacketSent} (hf : FlowOf l done rest todo 0)
    (hh : l.handler = .reading frame false) (hpos : 0 < l.rx.length)
    (heq : l.rx.read.1 = PPP_FLAG_CHAR) (hsent : done ++ rest = done' ++ rest')
    (hshort : ∀ p ∈ done', Short p)
    (hp : (if frame.length > 0 then l.processed ++ [frame] else l.processed) = done'.map encoded)
    (hs : LinkStage .returned rest'
      (l.rx.read.2.contents ++ l.wire ++ l.tx.contents ++ l.pending) 0) :
    Flow ({ l with rx := l.rx.read.2 }.finish frame) := by
  obtain ⟨-, h2, h3⟩ := hf.head hpos
  rw [if_pos heq] at h2
  have hcount := hf.count
  rw [hh, h2] at hcount
  refine ⟨done', rest', _, 0, hf.tx, h3, hf.sent.trans hsent, hp, rfl, hs, ?_, ?_, hf.fits,
    hf.short, ?_⟩
  · simpa [PppLink.finish] using hcount
  · intro _
    exact hf.busy (by rw [hh]; simp)
  · constructor
    · intro hne
      exact absurd rfl hne
    · rintro ⟨p, hp, hlong⟩
      exact absurd (hshort p hp) hlong

/-- A turn of the loop that reads a character. -/
theorem flow_turn {frame : List UInt8} {escFlag : Bool} (hf : FlowOf l done rest todo lag)
    (hh : l.handler = .reading frame escFlag) (hroom : frame.length < PPP_MAX_FRAME_SIZE) :
    Flow (match receiveChar l.accm frame escFlag l.rx.read.1 with
      | none => { l with rx := l.rx.read.2 }.finish frame
      | some (frame, escFlag) => { l with rx := l.rx.read.2, handler := .reading frame escFlag }) := by
  obtain ⟨hpos, rfl⟩ := hf.nonempty hh
  obtain ⟨hhead, -, -⟩ := hf.head hpos
  have hdone : ∀ p ∈ done, Short p := by
    intro p hp
    by_contra hlong
    exact hf.full.mpr ⟨p, hp, hlong⟩ rfl
  have hstage := hf.stage
  rw [hh] at hstage
  generalize hrest : l.rx.read.2.contents ++ l.wire ++ l.tx.contents ++ l.pending = left' at hhead
  cases hstage with
  | between hb =>
    obtain ⟨rfl, rfl⟩ : frame = [] ∧ escFlag = false := by
      rcases hb with h | h | h <;> cases h
      exact ⟨rfl, rfl⟩
    cases rest with
    | nil => cases hhead
    | cons p rest =>
      simp only [List.flatMap_cons, characters, List.cons_append, List.append_assoc,
        List.cons.injEq] at hhead
      obtain ⟨hflag, hleft⟩ := hhead
      rw [← hflag, receiveChar_flag]
      refine hf.ends hh hpos hflag.symm rfl hdone hf.processed ?_
      rw [hrest, ← hleft]
      exact @LinkStage.inside _ _ _ [] p.encoded rfl (.inl ⟨.inr rfl, rfl⟩)
  | @inside _ p rest got left he hi =>
    obtain ⟨rfl, rfl⟩ : frame = got ∧ escFlag = false := by
      rcases hi with ⟨h | h, -⟩ | h <;> cases h
      exact ⟨rfl, rfl⟩
    cases left with
    | nil =>
      simp only [List.flatMap_nil, List.nil_append, List.cons.injEq] at hhead
      obtain ⟨hflag, hleft⟩ := hhead
      rw [← hflag, receiveChar_flag]
      rw [List.append_nil] at he
      have hlen : 0 < frame.length := by
        rw [← he, length_encoded]
        unfold frameLength PPP_FCS_SIZE
        omega
      refine @FlowOf.ends l done _ _ frame rest (done ++ [p]) hf hh hpos hflag.symm (by simp)
        ?_ ?_ ?_
      · intro q hq
        rcases List.mem_append.mp hq with hq | hq
        · exact hdone q hq
        · obtain rfl := List.mem_singleton.mp hq
          rw [← he, length_encoded] at hroom
          exact hroom
      · rw [if_pos hlen, hf.processed, ← he]
        simp
      · rw [hrest, ← hleft]
        exact .between (.inr (.inl rfl))
    | cons c left =>
      have hsub := (hf.fits p (by rw [hf.sent]; simp)).2.1 c
      rcases stuffChar_cases p.accm c with ⟨hc, hst⟩ | ⟨hc, hst⟩
      · simp only [List.flatMap_cons, hst, List.cons_append, List.nil_append,
          List.cons.injEq] at hhead
        obtain ⟨hx, hleft⟩ := hhead
        rw [← hx, receiveChar_esc]
        refine hf.goesOn hh hpos (by rw [← hx]; decide) ?_
        rw [hrest, ← hleft]
        exact .escaped he hc
      · simp only [List.flatMap_cons, hst, List.cons_append, List.nil_append,
          List.cons.injEq] at hhead
        obtain ⟨hx, hleft⟩ := hhead
        obtain ⟨h1, h2⟩ := receiveChar_plain hc hsub frame
        rw [← hx, h1]
        refine hf.goesOn hh hpos (by rw [← hx]; exact h2) ?_
        rw [hrest, ← hleft]
        exact .inside (by rw [he]; simp) (.inr rfl)
  | @escaped p rest got left c he hc =>
    simp only [List.cons.injEq] at hhead
    obtain ⟨hx, hleft⟩ := hhead
    obtain ⟨h1, h2⟩ := receiveChar_masked hc l.accm frame
    rw [← hx, h1]
    refine hf.goesOn hh hpos (by rw [← hx]; exact h2) ?_
    rw [hrest, ← hleft]
    exact .inside (by rw [he]; simp) (.inr rfl)

/-- The loop ends because the frame has the full size. Nothing has been sent behind it. -/
theorem flow_overrun {frame : List UInt8} {escFlag : Bool} (hf : FlowOf l done rest todo lag)
    (hh : l.handler = .reading frame escFlag) (hfull : PPP_MAX_FRAME_SIZE ≤ frame.length) :
    Flow (l.finish frame) := by
  obtain ⟨-, rfl⟩ := hf.nonempty hh
  have hmax : 0 < PPP_MAX_FRAME_SIZE := by decide
  have hstage := hf.stage
  have hunread := hf.unread
  have hcount := hf.count
  rw [hh] at hstage hcount
  cases hstage with
  | between hb =>
    rcases hb with h | h | h <;> cases h
    simp at hfull
    omega
  | @inside _ p rest got left he hi =>
    obtain ⟨rfl, rfl⟩ : frame = got ∧ escFlag = false := by
      rcases hi with ⟨h | h, -⟩ | h <;> cases h
      exact ⟨rfl, rfl⟩
    have hmem : p ∈ l.sent := by rw [hf.sent]; simp
    have hle := frameLength_le (hf.fits p hmem).1
    have hlen := congrArg List.length he
    rw [length_encoded, List.length_append] at hlen
    obtain rfl : left = [] := List.length_eq_zero_iff.mp (by omega)
    rw [List.append_nil] at he
    have hlong : ¬Short p := by
      unfold Short
      simp at hlen
      omega
    have hshort := hf.short
    rw [hf.sent] at hshort
    have hrest : rest = [] := by
      cases rest with
      | nil => rfl
      | cons q rest =>
        have h1 := (List.pairwise_append.mp hshort).2.1
        exact absurd ((List.pairwise_cons.mp h1).1 q List.mem_cons_self) hlong
    subst hrest
    refine ⟨done ++ [p], [], [PPP_FLAG_CHAR], 1, hf.tx, hf.rx, ?_, ?_, ?_, .overrun (.inr rfl), ?_,
      ?_, hf.fits, hf.short, ?_⟩
    · show l.sent = _
      rw [hf.sent]
      simp
    · show (if frame.length > 0 then l.processed ++ [frame] else l.processed) = _
      rw [if_pos (by omega), hf.processed, ← he]
      simp
    · show l.rx.contents ++ l.wire ++ l.tx.contents ++ l.pending = _
      rw [hunread]
      rfl
    · simpa [PppLink.finish] using hcount
    · intro _
      exact hf.busy (by rw [hh]; simp)
    · simp [hlong]
  | @escaped p rest got left c he hc =>
    have hmem : p ∈ l.sent := by rw [hf.sent]; simp
    have hle := frameLength_le (hf.fits p hmem).1
    have hlen := congrArg List.length he
    rw [length_encoded, List.length_append, List.length_cons] at hlen
    omega

theorem flow_handler (h : Flow l) : Flow l.handle := by
  obtain ⟨done, rest, todo, lag, hf⟩ := h
  unfold PppLink.handle
  cases hh : l.handler with
  | idle =>
    simp only
    split
    case isFalse => exact ⟨done, rest, todo, lag, hf⟩
    rename_i hpos
    have hstage := hf.stage
    have hcount := hf.count
    have hunread := hf.unread
    rw [hh] at hstage hcount
    have hgo : LinkStage (.reading [] false) rest todo lag := by
      cases hstage with
      | between _ => exact .between (.inr (.inr rfl))
      | inside he hi =>
        rcases hi with ⟨-, rfl⟩ | h
        · exact .inside he (.inr rfl)
        · cases h
      | overrun _ =>
        -- the flag that is left is not counted
        have hle : l.rx.contents.count PPP_FLAG_CHAR ≤ 1 := by
          have h1 := congrArg (List.count PPP_FLAG_CHAR) hunread
          simp only [List.count_append, List.count_singleton_self] at h1
          omega
        simp at hcount
        omega
    refine ⟨done, rest, todo, lag, hf.tx, hf.rx, hf.sent, hf.processed, hunread, hgo, ?_,
      fun _ => hpos, hf.fits, hf.short, hf.full⟩
    simpa using hcount
  | reading frame escFlag =>
    simp only
    split
    · rename_i hgo
      exact flow_turn hf hh hgo.1
    · rename_i hstop
      have hpos := (hf.nonempty hh).1
      exact flow_overrun hf hh (by omega)
  | returned =>
    have hbusy := hf.busy (by rw [hh]; simp)
    have hstage := hf.stage
    have hcount := hf.count
    rw [hh] at hstage hcount
    have hgo : LinkStage .idle rest todo lag := by
      cases hstage with
      | between _ => exact .between (.inl rfl)
      | inside he hi =>
        rcases hi with ⟨-, rfl⟩ | h
        · exact .inside he (.inl ⟨.inl rfl, rfl⟩)
        · cases h
      | overrun _ => exact .overrun (.inl rfl)
    refine ⟨done, rest, todo, lag, hf.tx, hf.rx, hf.sent, hf.processed, hf.unread, hgo, ?_,
      fun hne => absurd rfl hne, hf.fits, hf.short, hf.full⟩
    simp at hcount ⊢
    omega

/-! ## Runs -/

theorem contents_empty {q : HdlcQueue} (h : q.length = 0) : q.contents = [] := by
  rw [← List.length_eq_zero_iff, HdlcQueue.length_contents, h]

theorem flow_start {txSize rxSize : Nat} (accm : Word) (htx : 0 < txSize) (hrx : 0 < rxSize) :
    Flow (PppLink.start txSize rxSize accm) := by
  have hvalid : ∀ {size : Nat}, 0 < size →
      HdlcQueue.Valid ⟨List.replicate size 0, 0, 0, 0⟩ := by
    intro size hs
    refine ⟨?_, ?_, Nat.zero_le _⟩
    · show 0 < (List.replicate size (0 : UInt8)).length
      simpa using hs
    · simp
  refine ⟨[], [], [], 0, hvalid htx, hvalid hrx, rfl, rfl, ?_, .between (.inl rfl), ?_, ?_, ?_,
    List.Pairwise.nil, by simp⟩
  · rfl
  · rfl
  · intro hne
    exact absurd rfl hne
  · intro p hp
    cases hp

theorem flow_step (l : PppLink) (e : PppEvent) (h : Flow l) (hok : Admits l e) :
    Flow (l.step e) := by
  cases e with
  | send p => exact flow_send h hok
  | put => exact flow_put h hok
  | transmit => exact flow_transmit h
  | receive => exact flow_receive h hok
  | handler => exact flow_handler h

/-- All bytes have been written and the handler has run. -/
structure Finished (l : PppLink) : Prop where
  pending : l.pending = []
  tx : l.tx.length = 0
  wire : l.wire = []
  idle : l.handler = .idle
  count : l.rxFrameCount = 0

/-- At the end every frame has been received; behind one of the full size a flag is left. -/
theorem FlowOf.finished (hf : FlowOf l done rest todo lag) (h : Finished l) :
    rest = [] ∧ l.rx.contents = todo ∧ (todo = [] ∧ lag = 0 ∨ todo = [PPP_FLAG_CHAR] ∧ lag = 1) := by
  have hunread := hf.unread
  rw [h.wire, contents_empty h.tx, h.pending, List.append_nil, List.append_nil,
    List.append_nil] at hunread
  have hcount := hf.count
  have hstage := hf.stage
  rw [h.idle] at hcount hstage
  rw [h.count, hunread] at hcount
  simp only [reduceCtorEq, if_false, Nat.zero_add, Nat.add_zero] at hcount
  cases hstage with
  | between _ =>
    cases rest with
    | nil => exact ⟨rfl, hunread, .inl ⟨rfl, rfl⟩⟩
    | cons p rest =>
      simp [characters] at hcount
  | inside _ _ =>
    simp at hcount
  | overrun _ => exact ⟨rfl, hunread, .inr ⟨rfl, rfl⟩⟩

/-- Every frame sent is passed on as it was sent, in order, and decodes to the packet. -/
theorem ppp_delivers {txSize rxSize : Nat} {accm : Word} (htx : 0 < txSize) (hrx : 0 < rxSize)
    (hr : Reach PppLink.step Admits (PppLink.start txSize rxSize accm) l) (hend : Finished l) :
    l.processed = l.sent.map PppPacketSent.frame ∧
      ∀ p ∈ l.sent, pppProcessFrame p.frame = some (p.protocol.value, p.payload) := by
  obtain ⟨done, rest, todo, lag, hf⟩ := hr.inv (flow_start accm htx hrx) flow_step
  obtain ⟨rfl, -, -⟩ := hf.finished hend
  have hsent := hf.sent
  rw [List.append_nil] at hsent
  constructor
  · rw [hf.processed, ← hsent]
    apply List.map_congr_left
    intro p hp
    exact (hf.fits p hp).2.2.symm
  · intro p hp
    obtain ⟨h1, -, h2⟩ := hf.fits p hp
    rw [h2]
    exact pppProcessFrame_encoded h1

/-! ## A link that is used packet by packet -/

theorem handle_keeps (l : PppLink) :
    l.handle.pending = l.pending ∧ l.handle.tx = l.tx ∧ l.handle.wire = l.wire ∧
      l.handle.sent = l.sent ∧ l.handle.accm = l.accm ∧ l.handle.rx.size = l.rx.size := by
  unfold PppLink.handle
  split
  · split <;> exact ⟨rfl, rfl, rfl, rfl, rfl, rfl⟩
  · split
    · simp only
      split <;> exact ⟨rfl, rfl, rfl, rfl, rfl, rfl⟩
    · exact ⟨rfl, rfl, rfl, rfl, rfl, rfl⟩
  · exact ⟨rfl, rfl, rfl, rfl, rfl, rfl⟩

/-- Nothing is under way on the sender's side. -/
structure Clear (l : PppLink) : Prop where
  pending : l.pending = []
  valid : l.tx.Valid
  tx : l.tx.length = 0
  wire : l.wire = []

/-- The characters `cs` have gone to the RX queue. -/
structure Carried (l l' : PppLink) (cs : List UInt8) : Prop where
  run : Reach PppLink.step Admits l l'
  clear : Clear l'
  rx : l'.rx.Valid
  contents : l'.rx.contents = l.rx.contents ++ cs
  count : l'.rxFrameCount = l.rxFrameCount + cs.count PPP_FLAG_CHAR
  handler : l'.handler = l.handler
  sent : l'.sent = l.sent
  processed : l'.processed = l.processed
  accm : l'.accm = l.accm
  size : l'.rx.size = l.rx.size

/-- The characters of a packet go through both queues, one at a time. -/
theorem carried (cs : List UInt8) : ∀ l : PppLink, Clear { l with pending := [] } →
    l.pending = cs → l.rx.Valid → l.rx.length + cs.length ≤ l.rx.size →
    ∃ l', Carried l l' cs := by
  induction cs with
  | nil =>
    intro l hc hp hrx hroom
    exact ⟨l, .init, ⟨hp, hc.valid, hc.tx, hc.wire⟩, hrx, by simp, by simp, rfl, rfl, rfl, rfl, rfl⟩
  | cons c cs ih =>
    intro l hcl hp hrx hroom
    rw [List.length_cons] at hroom
    have htx : l.tx.Valid := hcl.valid
    have ht : l.tx.length = 0 := hcl.tx
    have hw : l.wire = [] := hcl.wire
    have hsize : l.tx.length < l.tx.size := by
      have := htx.read
      omega
    -- the character is written, transmitted and received
    have e1 : l.step .put = { l with pending := cs, tx := l.tx.write c } := by
      simp only [PppLink.step, hp]
    obtain ⟨w1, w2⟩ := HdlcQueue.write_contents htx hsize c
    rw [contents_empty ht, List.nil_append] at w1
    have hone : 0 < (l.tx.write c).length := Nat.succ_pos _
    obtain ⟨r1, r2⟩ := HdlcQueue.read_contents w2 hone
    rw [w1, List.cons.injEq] at r1
    obtain ⟨hc, hempty⟩ := r1
    have e2 : (l.step .put).step .transmit =
        { l with pending := cs, tx := (l.tx.write c).read.2, wire := [c] } := by
      rw [e1]
      simp only [PppLink.step, if_pos hone, hw, List.nil_append, ← hc]
    have hlt : l.rx.length < l.rx.size := by omega
    obtain ⟨x1, x2⟩ := HdlcQueue.write_contents hrx hlt c
    obtain ⟨l3, hl3, e3⟩ : ∃ l3 : PppLink, ((l.step .put).step .transmit).step .receive = l3 ∧
        l3 = { l with
          pending := cs, tx := (l.tx.write c).read.2, wire := [], rx := l.rx.write c
          rxFrameCount := if c = PPP_FLAG_CHAR then l.rxFrameCount + 1 else l.rxFrameCount } := by
      refine ⟨_, rfl, ?_⟩
      rw [e2]
      simp only [PppLink.step, PppLink.writeRxQueue, if_pos hlt]
    have hrun : Reach PppLink.step Admits l l3 := by
      rw [← hl3]
      refine ((Reach.init.step ?_).step ?_).step ?_
      · exact ⟨hsize, by simp⟩
      · exact ⟨trivial, by simp⟩
      · rw [e2]
        exact ⟨hlt, by simp⟩
    have hsz : (l.rx.write c).size = l.rx.size := by simp [HdlcQueue.size, HdlcQueue.write]
    have htx3 : (l.tx.write c).read.2.length = 0 := by
      rw [← HdlcQueue.length_contents, ← hempty]
      rfl
    obtain ⟨l', h⟩ := ih l3 (by rw [e3]; exact ⟨rfl, r2, htx3, rfl⟩) (by rw [e3])
      (by rw [e3]; exact x2) (by
        rw [e3]
        show l.rx.length + 1 + cs.length ≤ (l.rx.write c).size
        omega)
    have h6 := h.contents
    have h7 := h.count
    have h8 := h.handler
    have h9 := h.sent
    have h10 := h.processed
    have h11 := h.accm
    have h12 := h.size
    rw [e3] at h6 h7 h8 h9 h10 h11 h12
    refine ⟨l', hrun.trans h.run, h.clear, h.rx, ?_, ?_, h8, h9, h10, h11, h12.trans hsz⟩
    · rw [h6]
      simp only [x1]
      simp
    · rw [h7, List.count_cons]
      simp only [beq_iff_eq]
      split <;> omega

/-- How far the handler is from being done. -/
def PppLink.work (l : PppLink) : Nat :=
  l.rx.length + 3 * l.rxFrameCount +
    match l.handler with
    | .idle => 2
    | .reading _ _ => 1
    | .returned => 0

/-- A step of the handler brings it closer to its end. -/
theorem work_handle (h : Flow l) (hgo : l.handler ≠ .idle ∨ 0 < l.rxFrameCount) :
    l.handle.work < l.work := by
  obtain ⟨done, rest, todo, lag, hf⟩ := h
  unfold PppLink.handle PppLink.work
  cases hh : l.handler with
  | idle =>
    have hpos : l.rxFrameCount > 0 := hgo.resolve_left (fun hne => hne hh)
    simp only [if_pos hpos]
    omega
  | reading frame escFlag =>
    obtain ⟨hpos, -⟩ := hf.nonempty hh
    simp only
    split
    · have hread : l.rx.read.2.length = l.rx.length - 1 := rfl
      split
      · simp only [PppLink.finish]
        omega
      · simp only
        omega
    · simp only [PppLink.finish]
      omega
  | returned =>
    have hbusy := hf.busy (by rw [hh]; simp)
    simp only
    omega

/-- The handler comes to its end. -/
theorem drained (n : Nat) : ∀ l : PppLink, Flow l → l.work ≤ n →
    ∃ l', Reach PppLink.step Admits l l' ∧ l'.handler = .idle ∧ l'.rxFrameCount = 0 ∧
      l'.pending = l.pending ∧ l'.tx = l.tx ∧ l'.wire = l.wire ∧ l'.sent = l.sent ∧
      l'.accm = l.accm ∧ l'.rx.size = l.rx.size := by
  induction n with
  | zero =>
    intro l hf hw
    by_cases hgo : l.handler ≠ .idle ∨ 0 < l.rxFrameCount
    · have := work_handle hf hgo
      omega
    · obtain ⟨h1, h2⟩ := not_or.mp hgo
      exact ⟨l, .init, not_not.mp h1, by omega, rfl, rfl, rfl, rfl, rfl, rfl⟩
  | succ n ih =>
    intro l hf hw
    by_cases hgo : l.handler ≠ .idle ∨ 0 < l.rxFrameCount
    · have hlt := work_handle hf hgo
      obtain ⟨l', h1, h2, h3, h4, h5, h6, h7, h8, h9⟩ := ih l.handle (flow_handler hf) (by omega)
      obtain ⟨k1, k2, k3, k4, k5, k6⟩ := handle_keeps l
      have hstep : Reach PppLink.step Admits l l.handle :=
        @Reach.step _ _ PppLink.step Admits l l .handler .init ⟨trivial, by simp⟩
      exact ⟨l', hstep.trans h1, h2, h3, h4.trans k1, h5.trans k2, h6.trans k3, h7.trans k4,
        h8.trans k5, h9.trans k6⟩
    · obtain ⟨h1, h2⟩ := not_or.mp hgo
      exact ⟨l, .init, not_not.mp h1, by omega, rfl, rfl, rfl, rfl, rfl, rfl⟩

theorem length_stuffChar_le (accm : Word) (c : UInt8) : (stuffChar accm c).length ≤ 2 := by
  rcases stuffChar_cases accm c with ⟨-, h⟩ | ⟨-, h⟩ <;> simp [h]

theorem length_flatMap_stuff_le (accm : Word) (cs : List UInt8) :
    (cs.flatMap (stuffChar accm)).length ≤ 2 * cs.length := by
  induction cs with
  | nil => simp
  | cons c cs ih =>
    have := length_stuffChar_le accm c
    rw [List.flatMap_cons, List.length_append, List.length_cons]
    omega

theorem length_characters_le (p : PppPacketSent) :
    p.characters.length ≤ 2 * p.frameLength + 2 := by
  have := length_flatMap_stuff_le p.accm p.encoded
  rw [length_encoded] at this
  simp only [characters, List.length_cons, List.length_append, List.length_nil]
  omega

theorem count_characters (p : PppPacketSent) : p.characters.count PPP_FLAG_CHAR = 2 := by
  have hstuff : ∀ cs : List UInt8,
      (cs.flatMap (stuffChar p.accm)).count PPP_FLAG_CHAR = 0 := by
    intro cs
    rw [List.count_eq_zero]
    intro hm
    obtain ⟨c, -, hc⟩ := List.mem_flatMap.mp hm
    rcases stuffChar_cases p.accm c with ⟨he, hst⟩ | ⟨he, hst⟩
    · rw [hst] at hc
      have hne := (receiveChar_masked he 0 []).2
      simp only [List.mem_cons, List.not_mem_nil, or_false] at hc
      rcases hc with hc | hc
      · exact absurd hc (by decide)
      · exact hne hc.symm
    · rw [hst, List.mem_singleton] at hc
      exact he (.inr (.inr hc.symm))
  simp [characters, hstuff]

theorem step_send {p : PppPacketSent} (hp : l.pending = []) (hfit : p.Fits)
    (hsome : (pppSendFrame p.peerConfig p.buffer p.offset p.protocol).isSome) :
    l.step (.send p) = { l with pending := p.characters, sent := l.sent ++ [p] } := by
  obtain ⟨⟨b, off⟩, hr⟩ := Option.isSome_iff_exists.mp hsome
  simp only [PppLink.step, if_pos hp, hr, pppHdlcDriverSendPacket_eq hfit hr]

/-- A packet is sent over a link on which nothing is under way, through to the RX queue. -/
theorem transferred {p : PppPacketSent} (hc : Clear l) (hrx : l.rx.Valid) (hfit : p.Fits)
    (hsome : (pppSendFrame p.peerConfig p.buffer p.offset p.protocol).isSome)
    (hroom : l.rx.length + (2 * p.frameLength + 2) ≤ l.rx.size) :
    ∃ l', Carried (l.step (.send p)) l' p.characters := by
  have hlen := length_characters_le p
  rw [step_send hc.pending hfit hsome]
  exact carried p.characters _ ⟨rfl, hc.valid, hc.tx, hc.wire⟩ rfl hrx (by
    show l.rx.length + p.characters.length ≤ l.rx.size
    omega)

/-- The handler reads a flag between two frames. -/
theorem flag_read {cs : List UInt8} (hh : l.handler = .idle) (hcount : 0 < l.rxFrameCount)
    (hrx : l.rx.Valid) (hc : l.rx.contents = PPP_FLAG_CHAR :: cs) :
    ∃ l', Reach PppLink.step Admits l l' ∧ l'.handler = .idle ∧
      l'.rxFrameCount = l.rxFrameCount - 1 ∧ l'.rx.Valid ∧ l'.rx.contents = cs ∧
      l'.pending = l.pending ∧ l'.tx = l.tx ∧ l'.wire = l.wire ∧ l'.sent = l.sent ∧
      l'.processed = l.processed := by
  have hpos : 0 < l.rx.length := by
    rw [← HdlcQueue.length_contents, hc]
    exact Nat.succ_pos _
  obtain ⟨h1, h2⟩ := HdlcQueue.read_contents hrx hpos
  rw [hc, List.cons.injEq] at h1
  obtain ⟨hflag, hcs⟩ := h1
  have e1 : l.handle = { l with handler := .reading [] false } := by
    simp only [PppLink.handle, hh, if_pos hcount]
  have e2 : l.handle.handle = { l with handler := .returned, rx := l.rx.read.2 } := by
    rw [e1]
    have hgo : (([] : List UInt8).length < PPP_MAX_FRAME_SIZE ∧ l.rx.length > 0) :=
      ⟨by decide, hpos⟩
    simp only [PppLink.handle, if_pos hgo, ← hflag, receiveChar_flag, PppLink.finish]
    rfl
  have e3 : l.handle.handle.handle =
      { l with handler := .idle, rx := l.rx.read.2, rxFrameCount := l.rxFrameCount - 1 } := by
    rw [e2]
    rfl
  have hstep : ∀ l : PppLink, Reach PppLink.step Admits l l.handle := fun l =>
    @Reach.step _ _ PppLink.step Admits l l .handler .init ⟨trivial, by simp⟩
  refine ⟨l.handle.handle.handle, ((hstep l).trans (hstep _)).trans (hstep _), ?_⟩
  rw [e3]
  exact ⟨rfl, rfl, h2, hcs.symm, rfl, rfl, rfl, rfl, rfl⟩

/-! ## A full frame -/

/-- A packet of `n` bytes in one chunk. -/
def plainPacket (n : Nat) : PppPacketSent where
  peerConfig := {}
  buffer := ⟨[⟨List.replicate (n + 4) 65, n + 4⟩], 2⟩
  offset := 4
  protocol := .LCP

theorem plainPacket_payload (n : Nat) : (plainPacket n).payload.length = n := by
  simp [payload, plainPacket, NetBuffer.bytes]

theorem plainPacket_header (n : Nat) : (plainPacket n).header = [0xFF, 0x03, 0xC0, 0x21] := rfl

theorem plainPacket_frameLength (n : Nat) : (plainPacket n).frameLength = n + 6 := by
  rw [frameLength, plainPacket_payload, plainPacket_header]
  simp [PPP_FCS_SIZE]
  omega

theorem plainPacket_fits {n : Nat} (h0 : 0 < n) (h1 : n ≤ PPP_MAX_MRU) : (plainPacket n).Fits := by
  refine ⟨by rw [plainPacket_payload]; exact ⟨h0, h1⟩, ?_⟩
  rw [plainPacket_header]
  refine ⟨(0, 0), ⟨List.replicate (n + 4) 65, n + 4⟩, ?_, rfl, ?_⟩
  · simp [netBufferAt, chunkAt, plainPacket, ChunkDesc.length]
  · simp [ChunkDesc.length]

theorem plainPacket_sent (n : Nat) : (pppSendFrame (plainPacket n).peerConfig
    (plainPacket n).buffer (plainPacket n).offset (plainPacket n).protocol).isSome := by
  have hchunks : ∀ (b : NetBuffer) (off : Nat) (src : List UInt8),
      (netBufferWrite b off src).chunk.length = b.chunk.length := by
    intro b off src
    have := congrArg List.length (writeChunks_lengths b.chunk off src)
    rw [List.length_map, List.length_map] at this
    exact this
  have hmax : ∀ (b : NetBuffer) (off : Nat) (src : List UInt8),
      (netBufferWrite b off src).maxChunkCount = b.maxChunkCount := fun _ _ _ => rfl
  simp [pppSendFrame, netBufferAppend, hchunks, hmax, plainPacket, NetBuffer.chunkCount]

theorem within_zero (p : PppPacketSent) : Within 0 p := by
  intro c hc
  simp [flagged] at hc

/-- One packet over a link that has just been started. -/
theorem plainPacket_run {n : Nat} (h0 : 0 < n) (h1 : n ≤ PPP_MAX_MRU) :
    ∃ l, Reach PppLink.step Admits (PppLink.start 16 4096 0) l ∧ Finished l ∧ Clear l ∧
      l.sent = [plainPacket n] ∧ l.rx.size = 4096 ∧ l.accm = 0 := by
  have hfit := plainPacket_fits h0 h1
  have hsome := plainPacket_sent n
  have hflow := flow_start 0 (by decide : 0 < 16) (by decide : 0 < 4096)
  obtain ⟨_, _, _, _, hf⟩ := flow_start 0 (by decide : 0 < 16) (by decide : 0 < 4096)
  have hclear : Clear (PppLink.start 16 4096 0) := ⟨rfl, hf.tx, rfl, rfl⟩
  have hsize : (PppLink.start 16 4096 0).rx.size = 4096 := List.length_replicate
  have hlen := plainPacket_frameLength n
  have hmru : PPP_MAX_MRU = 1500 := rfl
  obtain ⟨l1, hl1⟩ := transferred hclear hf.rx hfit hsome (by
    rw [hsize, hlen]
    show 0 + _ ≤ _
    omega)
  have hrun : Reach PppLink.step Admits (PppLink.start 16 4096 0) l1 := by
    refine (Reach.init.step ⟨⟨hfit, within_zero _⟩, ?_⟩).trans hl1.run
    intro p _ q hq
    cases hq
  have hflow1 := hrun.inv hflow flow_step
  obtain ⟨l2, h1, h2, h3, h4, h5, h6, h7, h8, h9⟩ := drained l1.work l1 hflow1 le_rfl
  have hcl := hl1.clear
  have hsent := hl1.sent
  have hsz := hl1.size
  have haccm := hl1.accm
  rw [step_send hclear.pending hfit hsome] at hsent hsz haccm
  refine ⟨l2, hrun.trans h1, ⟨h4.trans hcl.pending, by rw [h5]; exact hcl.tx, h6.trans hcl.wire,
    h2, h3⟩, ⟨h4.trans hcl.pending, by rw [h5]; exact hcl.valid, by rw [h5]; exact hcl.tx,
    h6.trans hcl.wire⟩, h7.trans hsent, h9.trans (hsz.trans hsize), h8.trans haccm⟩

/-- A packet arrives. -/
theorem ppp_delivers_one : ∃ l, Reach PppLink.step Admits (PppLink.start 16 4096 0) l ∧
    l.processed = [(plainPacket 3).frame] ∧
    pppProcessFrame (plainPacket 3).frame = some (PppProtocol.LCP.value, [65, 65, 65]) := by
  obtain ⟨l, h1, h2, -, h3, -, -⟩ := plainPacket_run (by decide : 0 < 3) (by decide)
  obtain ⟨h4, h5⟩ := ppp_delivers (by decide) (by decide) h1 h2
  rw [h3] at h4 h5
  exact ⟨l, h1, h4, h5 _ (List.mem_singleton.mpr rfl)⟩

/-- Behind a frame of the full size the counter of frames stays behind, and the next frame is not
read. -/
theorem ppp_stalls : ∃ l, Reach PppLink.step Granted (PppLink.start 16 4096 0) l ∧ Finished l ∧
    l.processed ≠ l.sent.map PppPacketSent.frame := by
  obtain ⟨l1, hr1, hfin1, hclear1, hsent1, hsize1, haccm1⟩ :=
    plainPacket_run (by decide : 0 < PPP_MAX_MRU) le_rfl
  obtain ⟨done, rest, todo, lag, hf⟩ :=
    hr1.inv (flow_start 0 (by decide) (by decide)) flow_step
  obtain ⟨rfl, hcontents, htodo⟩ := hf.finished hfin1
  have hsent := hf.sent
  rw [List.append_nil, hsent1] at hsent
  have hlag : lag ≠ 0 := by
    refine hf.full.mpr ⟨plainPacket PPP_MAX_MRU, by rw [← hsent]; simp, ?_⟩
    unfold Short
    rw [plainPacket_frameLength]
    decide
  obtain ⟨-, h0⟩ | ⟨rfl, -⟩ := htodo
  · exact absurd h0 hlag
  have hrx1 : l1.rx.length = 1 := by rw [← HdlcQueue.length_contents, hcontents]; rfl
  have hfit := plainPacket_fits (by decide : 0 < 1) (by decide)
  have hsome := plainPacket_sent 1
  obtain ⟨l2, hl2⟩ := transferred hclear1 hf.rx hfit hsome (by
    rw [hsize1, hrx1, plainPacket_frameLength]
    decide)
  have hc2 := hl2.contents
  have hn2 := hl2.count
  have hs2 := hl2.sent
  have hp2 := hl2.processed
  have hh2 := hl2.handler
  have hcl2 := hl2.clear
  rw [step_send hclear1.pending hfit hsome] at hc2 hn2 hs2 hp2 hh2
  rw [count_characters] at hn2
  simp only [hcontents, hfin1.count, hfin1.idle, hsent1] at hc2 hn2 hs2 hh2
  obtain ⟨l3, hr3, hh3, hn3, hx3, hc3, hp3, ht3, hw3, hs3, hq3⟩ :=
    flag_read hh2 (by omega) hl2.rx hc2
  obtain ⟨l4, hr4, hh4, hn4, -, -, hp4, ht4, hw4, hs4, hq4⟩ :=
    flag_read hh3 (by omega) hx3 (by rw [hc3]; rfl)
  have hrun2 : Reach PppLink.step Granted l1 l2 := by
    refine (Reach.init.step ⟨hfit, ?_⟩).trans (hl2.run.mono fun _ _ h => h.1)
    rw [haccm1]
    exact within_zero _
  refine ⟨l4, ?_, ⟨?_, ?_, ?_, hh4, by omega⟩, ?_⟩
  · exact (((hr1.mono fun _ _ h => h.1).trans hrun2).trans (hr3.mono fun _ _ h => h.1)).trans
      (hr4.mono fun _ _ h => h.1)
  · rw [hp4, hp3, hcl2.pending]
  · rw [ht4, ht3, hcl2.tx]
  · rw [hw4, hw3, hcl2.wire]
  · intro heq
    have hlen := congrArg List.length heq
    rw [hq4, hq3, hp2, hf.processed, hs4, hs3, hs2, ← hsent] at hlen
    simp at hlen

end Cyclone
