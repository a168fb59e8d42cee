import Cyclone.Steps

/-!
# Cyclone.Circular

The circular buffers over the whole circle of sequence numbers. Slot and stream position agree
modulo the size as long as the 32-bit distance from the initial sequence number does not wrap, so
a window across the wrap is consistent exactly when the size divides `2 ^ 32`.

* `bufOffset_add`: the slot of a sequence number inside a window that is `Aligned`.
* `tcpWriteTxBuffer_bytes`, `tcpReadTxBuffer_eq` and their receive counterparts: the four functions
  as ring operations.
* `circular_iff`: a window is consistent if and only if it is aligned.
-/

namespace Cyclone

open Serial NetBuffer

/-! ## Slots -/

/-- The window of `size` sequence numbers from position `p` of the stream on ends before the 32-bit
position wraps, or the wrap falls on the end of the buffer. -/
def Aligned (size p : Nat) : Prop := 2 ^ 32 % size = 0 ∨ p + size ≤ 2 ^ 32

instance (size p : Nat) : Decidable (Aligned size p) := inferInstanceAs (Decidable (_ ∨ _))

/-- Distance of a sequence number from the first one of the stream. -/
def streamPos (base seqNum : Word) : Nat := (seqNum - base - 1).toNat

theorem bufOffset_eq (base seqNum : Word) (size : Nat) :
    bufOffset base seqNum size = streamPos base seqNum % size := rfl

theorem streamPos_add (base seqNum : Word) (i : Nat) :
    streamPos base (seqNum + w32 i) = (streamPos base seqNum + i) % 2 ^ 32 := by
  have h : seqNum + w32 i - base - 1 = seqNum - base - 1 + w32 i := by
    rw [BitVec.sub_eq_add_neg, BitVec.sub_eq_add_neg, BitVec.sub_eq_add_neg, BitVec.sub_eq_add_neg]
    ac_rfl
  unfold streamPos
  rw [h, BitVec.toNat_add, w32, BitVec.toNat_ofNat, Nat.add_mod_mod]

theorem streamPos_add_mod {base seqNum : Word} {size i : Nat}
    (h : Aligned size (streamPos base seqNum)) (hi : i < size) :
    streamPos base (seqNum + w32 i) % size = (streamPos base seqNum + i) % size := by
  rw [streamPos_add]
  rcases h with hdvd | hle
  · exact Nat.mod_mod_of_dvd _ (Nat.dvd_of_mod_eq_zero hdvd)
  · have hlt : streamPos base seqNum + i < 2 ^ 32 := by omega
    rw [Nat.mod_eq_of_lt hlt]

/-! ## Windows of a ring -/

/-- What a window promises of a ring that is addressed by sequence numbers: every part of a block
that was written reads back, and writes to disjoint parts of the window leave each other alone. -/
structure RingConsistent (size : Nat) (base seqNum : Word) (xs : List UInt8) : Prop where
  part : ∀ data j m, data.length ≤ size → j + m ≤ data.length →
    Ring.read size (Ring.write size xs (streamPos base seqNum) data)
      (streamPos base (seqNum + w32 j)) m = (data.drop j).take m
  disjoint : ∀ a b i j, i + a.length ≤ size → j + b.length ≤ size →
    i + a.length ≤ j ∨ j + b.length ≤ i →
    Ring.read size (Ring.write size (Ring.write size xs (streamPos base (seqNum + w32 i)) a)
      (streamPos base (seqNum + w32 j)) b) (streamPos base (seqNum + w32 i)) a.length = a

section Window

variable {size : Nat} {base seqNum : Word} {xs : List UInt8}

theorem aligned_read (h : Aligned size (streamPos base seqNum)) {i n : Nat} (hn : i + n ≤ size) :
    Ring.read size xs (streamPos base (seqNum + w32 i)) n =
      Ring.read size xs (streamPos base seqNum + i) n := by
  cases n with
  | zero => rw [Ring.read_zero, Ring.read_zero]
  | succ n => exact Ring.read_congr (streamPos_add_mod h (by omega)) xs _

theorem aligned_write (h : Aligned size (streamPos base seqNum)) {i : Nat} {ys : List UInt8}
    (hn : i + ys.length ≤ size) :
    Ring.write size xs (streamPos base (seqNum + w32 i)) ys =
      Ring.write size xs (streamPos base seqNum + i) ys := by
  cases ys with
  | nil => rw [Ring.write_nil, Ring.write_nil]
  | cons y ys =>
    rw [List.length_cons] at hn
    exact Ring.write_congr (streamPos_add_mod h (by omega)) xs _

theorem ringConsistent_of_aligned (hs : xs.length = size) (h0 : 0 < size)
    (h : Aligned size (streamPos base seqNum)) : RingConsistent size base seqNum xs where
  part := by
    intro data j m hlen hj
    rw [aligned_read h (by omega), Ring.read_write hs hlen h0 hj]
  disjoint := by
    intro a b i j hi hj hd
    have hwritten := Ring.length_write (p := streamPos base seqNum + i) hs
      (by omega : a.length ≤ size) h0
    have hback := @Ring.read_write _ size (streamPos base seqNum + i) a.length xs a hs
      (by omega) h0 0 (by omega)
    rw [aligned_write h hi, aligned_write h hj, aligned_read h hi,
      Ring.read_write_disjoint hwritten h0 hi hj hd]
    simpa only [Nat.add_zero, List.drop_zero, List.take_length] using hback

/-- Behind the wrap the first byte is looked for in slot zero, where another byte is. -/
theorem aligned_of_ringConsistent (hs : xs.length = size) (h0 : 0 < size)
    (h : RingConsistent size base seqNum xs) : Aligned size (streamPos base seqNum) := by
  by_contra hno
  obtain ⟨hdvd, hcross⟩ := not_or.mp hno
  have hp : streamPos base seqNum < 2 ^ 32 := BitVec.isLt _
  generalize hk : 2 ^ 32 - streamPos base seqNum = k at *
  let data := (List.replicate size (0 : UInt8)).set k 1
  have hlen : data.length = size := by
    show ((List.replicate size (0 : UInt8)).set k 1).length = size
    rw [List.length_set, List.length_replicate]
  have hread := h.part data k 1 (Nat.le_of_eq hlen) (by omega)
  have hzero : streamPos base (seqNum + w32 k) = 0 := by
    rw [streamPos_add]
    have : streamPos base seqNum + k = 2 ^ 32 := by omega
    rw [this, Nat.mod_self]
  have hwritten := Ring.length_write (p := streamPos base seqNum) hs (Nat.le_of_eq hlen) h0
  have hslot := congrArg (·[0]?) hread
  rw [hzero, Ring.read_getElem? hwritten h0 h0 Nat.zero_lt_one, Nat.zero_add, Nat.zero_mod,
    Ring.write_getElem? hs (Nat.le_of_eq hlen) h0 h0] at hslot
  -- the byte in slot zero stands at index `d` of the block
  generalize hd : (0 + size - streamPos base seqNum % size) % size = d at hslot
  have hdlt : d < size := by
    rw [← hd]
    exact Nat.mod_lt _ h0
  have hne : k ≠ d := by
    intro he
    have hr := Nat.mod_lt (streamPos base seqNum) h0
    have hsplit := Nat.div_add_mod (streamPos base seqNum) size
    have hr0 : streamPos base seqNum % size ≠ 0 := by
      intro hr0
      rw [hr0, Nat.sub_zero, Nat.zero_add, Nat.mod_self] at hd
      omega
    rw [Nat.mod_eq_of_lt (by omega)] at hd
    have hwrap : 2 ^ 32 = size * (streamPos base seqNum / size + 1) := by
      rw [Nat.mul_add]
      omega
    rw [hwrap, Nat.mul_mod_right] at hdvd
    exact hdvd rfl
  rw [hlen, if_pos hdlt, List.getElem?_set_ne hne, List.getElem?_replicate, if_pos hdlt,
    List.getElem?_take, if_pos Nat.zero_lt_one, List.getElem?_drop, Nat.add_zero,
    List.getElem?_set_self (by rw [List.length_replicate]; omega)] at hslot
  exact absurd hslot (by decide)

theorem ringConsistent_iff (hs : xs.length = size) (h0 : 0 < size) :
    RingConsistent size base seqNum xs ↔ Aligned size (streamPos base seqNum) :=
  ⟨aligned_of_ringConsistent hs h0, ringConsistent_of_aligned hs h0⟩

end Window

/-! ## Reading into a buffer with room -/

theorem concatChunks_left {room : Nat} {cs : List ChunkDesc} {off n : Nat}
    (hroom : cs.length ≤ room) (hn : off + n ≤ (flat cs).length)
    (hoff : ∀ ch ∈ cs.head?, off ≤ ch.length) :
    (concatChunks room cs off n).2 = 0 ∧ (concatChunks room cs off n).1.length ≤ cs.length := by
  induction cs generalizing room off n with
  | nil =>
    have h0 : off + n ≤ 0 := hn
    simp only [concatChunks, List.length_nil, Nat.le_refl, and_true]
    omega
  | cons ch rest ih =>
    have hl : ch.length = ch.data.length := rfl
    unfold concatChunks
    by_cases h0 : n = 0
    · rw [if_pos h0]
      exact ⟨rfl, Nat.zero_le _⟩
    · rw [if_neg h0]
      cases room with
      | zero => exact absurd hroom (by simp)
      | succ room =>
        have ho : off ≤ ch.length := hoff ch (by simp)
        rw [flat_cons, List.length_append] at hn
        have hrest : 0 + (n - min n (ch.length - off)) ≤ (flat rest).length := by omega
        obtain ⟨h1, h2⟩ := ih (Nat.le_of_succ_le_succ hroom) hrest (by simp)
        exact ⟨h1, Nat.succ_le_succ h2⟩

/-- A destination with a free descriptor for each source chunk takes every range of the source. -/
theorem netBufferConcat_ok {dest src : NetBuffer} {off n : Nat}
    (hroom : dest.chunkCount + src.chunkCount ≤ dest.maxChunkCount)
    (hoff : off < src.bytes.length) (hn : off + n ≤ src.bytes.length) :
    ∃ dest', netBufferConcat dest src off n = (dest', .NO_ERROR) ∧
      dest'.chunkCount ≤ dest.chunkCount + src.chunkCount ∧
      dest'.maxChunkCount = dest.maxChunkCount := by
  unfold netBufferConcat
  cases hs : skipChunks src.chunk off with
  | none => exact absurd (skipChunks_none hs) (Nat.not_le.mpr hoff)
  | some p =>
    obtain ⟨cs, o⟩ := p
    obtain ⟨-, h2, h3⟩ := skipChunks_some hs
    have hsplit := (chunksBefore_append hs).1
    have hcs : cs.length ≤ src.chunkCount := by
      have := congrArg List.length hsplit
      rw [List.length_append] at this
      show cs.length ≤ src.chunk.length
      omega
    have hfit : o + n ≤ (flat cs).length := by
      have : src.bytes.length = (flat src.chunk).length := rfl
      omega
    obtain ⟨hleft, hcount⟩ := @concatChunks_left (dest.maxChunkCount - dest.chunkCount) cs o n
      (by omega) hfit (skipChunks_head hs)
    refine ⟨{ dest with
      chunk := dest.chunk ++ (concatChunks (dest.maxChunkCount - dest.chunkCount) cs o n).1 },
      ?_, ?_, rfl⟩
    · simp only [hleft]
      rfl
    · show (dest.chunk ++ _).length ≤ _
      rw [List.length_append]
      have : dest.chunkCount = dest.chunk.length := rfl
      omega

/-! ## The transmit buffer -/

/-- The buffer of a connection holds as many bytes as the socket says. -/
def TxAllocated (s : SockCore) : Prop :=
  s.txBuffer.bytes.length = s.txBufferSize ∧ 1 ≤ s.txBufferSize ∧
    s.txBufferSize ≤ TCP_MAX_TX_BUFFER_SIZE

instance (s : SockCore) : Decidable (TxAllocated s) := inferInstanceAs (Decidable (_ ∧ _))

section Transmit

variable {s : SockCore} {seqNum : Word} {data : List UInt8}

theorem tcpWriteTxBuffer_bytes (hs : TxAllocated s) (hd : data.length ≤ s.txBufferSize) :
    (tcpWriteTxBuffer s seqNum data).txBuffer.bytes =
      Ring.write s.txBufferSize s.txBuffer.bytes (streamPos s.iss seqNum) data := by
  obtain ⟨hlen, hpos, -⟩ := hs
  have hoff : bufOffset s.iss seqNum s.txBufferSize < s.txBufferSize := Nat.mod_lt _ hpos
  unfold tcpWriteTxBuffer Ring.write
  rw [← bufOffset_eq]
  generalize bufOffset s.iss seqNum s.txBufferSize = off at hoff ⊢
  simp only
  split
  · exact netBufferWrite_bytes (by omega)
  · have hfirst : off + (data.take (s.txBufferSize - off)).length ≤ s.txBuffer.bytes.length := by
      rw [List.length_take]
      omega
    have hwrite := netBufferWrite_bytes hfirst
    have hsecond : 0 + (data.drop (s.txBufferSize - off)).length ≤
        (netBufferWrite s.txBuffer off (data.take (s.txBufferSize - off))).bytes.length := by
      rw [netBufferWrite_length, List.length_drop]
      omega
    rw [netBufferWrite_bytes hsecond, hwrite]

/-- A write changes the contents of the buffer alone. -/
theorem tcpWriteTxBuffer_vars (s : SockCore) (seqNum : Word) (data : List UInt8) :
    (tcpWriteTxBuffer s seqNum data).iss = s.iss ∧
      (tcpWriteTxBuffer s seqNum data).txBufferSize = s.txBufferSize := by
  unfold tcpWriteTxBuffer
  simp only
  split <;> exact ⟨rfl, rfl⟩

theorem TxAllocated.write (hs : TxAllocated s) (hd : data.length ≤ s.txBufferSize) :
    TxAllocated (tcpWriteTxBuffer s seqNum data) := by
  have hvars := tcpWriteTxBuffer_vars s seqNum data
  unfold TxAllocated
  rw [tcpWriteTxBuffer_bytes hs hd, hvars.2, Ring.length_write hs.1 hd hs.2.1]
  exact ⟨rfl, hs.2⟩

/-- Enough descriptors for a read in two pieces. -/
def HasRoom (buffer src : NetBuffer) : Prop :=
  buffer.chunkCount + 2 * src.chunkCount ≤ buffer.maxChunkCount

theorem tcpReadTxBuffer_eq (hs : TxAllocated s) {n : Nat} (hn : n ≤ s.txBufferSize)
    {buffer : NetBuffer} (hroom : HasRoom buffer s.txBuffer) :
    ∃ buffer', tcpReadTxBuffer s seqNum buffer n = (buffer', .NO_ERROR) := by
  obtain ⟨hlen, hpos, -⟩ := hs
  unfold HasRoom at hroom
  have hoff : bufOffset s.iss seqNum s.txBufferSize < s.txBufferSize := Nat.mod_lt _ hpos
  unfold tcpReadTxBuffer
  generalize bufOffset s.iss seqNum s.txBufferSize = off at hoff ⊢
  simp only
  split
  · obtain ⟨b', h, -⟩ := @netBufferConcat_ok buffer s.txBuffer off n (by omega) (by omega)
      (by omega)
    exact ⟨b', h⟩
  · obtain ⟨b1, h1, hcount, hmax⟩ := @netBufferConcat_ok buffer s.txBuffer off
      (s.txBufferSize - off) (by omega) (by omega) (by omega)
    obtain ⟨b', h2, -⟩ := @netBufferConcat_ok b1 s.txBuffer 0 (n - (s.txBufferSize - off))
      (by omega) (by omega) (by omega)
    rw [h1]
    exact ⟨b', h2⟩

/-- Reading at `seqNum` gives `bytes`: whenever the read succeeds, and it does when the destination
has room. -/
structure TxHolds (s : SockCore) (seqNum : Word) (bytes : List UInt8) : Prop where
  ok : ∀ buffer, HasRoom buffer s.txBuffer →
    ∃ buffer', tcpReadTxBuffer s seqNum buffer bytes.length = (buffer', .NO_ERROR)
  appended : ∀ buffer buffer',
    tcpReadTxBuffer s seqNum buffer bytes.length = (buffer', .NO_ERROR) →
      buffer'.bytes = buffer.bytes ++ bytes

/-- What a read gives is what the ring holds. -/
theorem txHolds_iff (hs : TxAllocated s) {bytes : List UInt8}
    (hn : bytes.length ≤ s.txBufferSize) :
    TxHolds s seqNum bytes ↔
      Ring.read s.txBufferSize s.txBuffer.bytes (streamPos s.iss seqNum) bytes.length = bytes := by
  constructor
  · intro h
    let empty : NetBuffer := { maxChunkCount := 2 * s.txBuffer.chunkCount }
    have hroom : HasRoom empty s.txBuffer := Nat.le_of_eq (Nat.zero_add _)
    obtain ⟨buffer', hread⟩ := h.ok empty hroom
    have h1 := h.appended empty buffer' hread
    rw [(tcpReadTxBuffer_ok hread).1] at h1
    exact h1
  · intro h
    refine ⟨fun buffer hroom => tcpReadTxBuffer_eq hs hn hroom, fun buffer buffer' hread => ?_⟩
    rw [(tcpReadTxBuffer_ok hread).1]
    exact congrArg (buffer.bytes ++ ·) h

/-- A window of the transmit buffer: every part of a block that was written reads back, and writes
to disjoint parts of the window leave each other alone. -/
structure TxConsistent (s : SockCore) (seqNum : Word) : Prop where
  part : ∀ data j m, data.length ≤ s.txBufferSize → j + m ≤ data.length →
    TxHolds (tcpWriteTxBuffer s seqNum data) (seqNum + w32 j) ((data.drop j).take m)
  disjoint : ∀ a b i j, i + a.length ≤ s.txBufferSize → j + b.length ≤ s.txBufferSize →
    i + a.length ≤ j ∨ j + b.length ≤ i →
    TxHolds (tcpWriteTxBuffer (tcpWriteTxBuffer s (seqNum + w32 i) a) (seqNum + w32 j) b)
      (seqNum + w32 i) a

theorem length_part {data : List UInt8} {j m : Nat} (h : j + m ≤ data.length) :
    ((data.drop j).take m).length = m := by
  rw [List.length_take, List.length_drop]
  omega

theorem txConsistent_ring (hs : TxAllocated s) :
    TxConsistent s seqNum ↔ RingConsistent s.txBufferSize s.iss seqNum s.txBuffer.bytes := by
  have hpart : ∀ data j m, data.length ≤ s.txBufferSize → j + m ≤ data.length →
      (TxHolds (tcpWriteTxBuffer s seqNum data) (seqNum + w32 j) ((data.drop j).take m) ↔
        Ring.read s.txBufferSize (Ring.write s.txBufferSize s.txBuffer.bytes
          (streamPos s.iss seqNum) data) (streamPos s.iss (seqNum + w32 j)) m =
            (data.drop j).take m) := by
    intro data j m hlen hj
    obtain ⟨hiss, hsize⟩ := tcpWriteTxBuffer_vars s seqNum data
    rw [txHolds_iff (hs.write hlen) (by rw [hsize, length_part hj]; omega), length_part hj, hiss,
      hsize, tcpWriteTxBuffer_bytes hs hlen]
  have hdisjoint : ∀ (a b : List UInt8) (i j : Nat), i + a.length ≤ s.txBufferSize →
      j + b.length ≤ s.txBufferSize →
      (TxHolds (tcpWriteTxBuffer (tcpWriteTxBuffer s (seqNum + w32 i) a) (seqNum + w32 j) b)
          (seqNum + w32 i) a ↔
        Ring.read s.txBufferSize (Ring.write s.txBufferSize (Ring.write s.txBufferSize
          s.txBuffer.bytes (streamPos s.iss (seqNum + w32 i)) a)
          (streamPos s.iss (seqNum + w32 j)) b)
          (streamPos s.iss (seqNum + w32 i)) a.length = a) := by
    intro a b i j hi hj
    obtain ⟨hiss, hsize⟩ := tcpWriteTxBuffer_vars s (seqNum + w32 i) a
    have hs' : TxAllocated (tcpWriteTxBuffer s (seqNum + w32 i) a) := hs.write (by omega)
    have hb : b.length ≤ (tcpWriteTxBuffer s (seqNum + w32 i) a).txBufferSize := by
      rw [hsize]
      omega
    obtain ⟨hiss', hsize'⟩ := tcpWriteTxBuffer_vars
      (tcpWriteTxBuffer s (seqNum + w32 i) a) (seqNum + w32 j) b
    rw [txHolds_iff (hs'.write hb) (by rw [hsize', hsize]; omega), hiss', hsize',
      tcpWriteTxBuffer_bytes hs' hb, hiss, hsize, tcpWriteTxBuffer_bytes hs (by omega)]
  constructor
  · intro h
    exact ⟨fun data j m hlen hj => (hpart data j m hlen hj).mp (h.part data j m hlen hj),
      fun a b i j hi hj hd => (hdisjoint a b i j hi hj).mp (h.disjoint a b i j hi hj hd)⟩
  · intro h
    exact ⟨fun data j m hlen hj => (hpart data j m hlen hj).mpr (h.part data j m hlen hj),
      fun a b i j hi hj hd => (hdisjoint a b i j hi hj).mpr (h.disjoint a b i j hi hj hd)⟩

end Transmit

/-! ## The receive buffer -/

def RxAllocated (s : SockCore) : Prop :=
  s.rxBuffer.bytes.length = s.rxBufferSize ∧ 1 ≤ s.rxBufferSize ∧
    s.rxBufferSize ≤ TCP_MAX_RX_BUFFER_SIZE

instance (s : SockCore) : Decidable (RxAllocated s) := inferInstanceAs (Decidable (_ ∧ _))

/-- `n` bytes of a received datagram from `off` on. -/
def segmentBytes (data : NetBuffer) (off n : Nat) : List UInt8 := (data.bytes.drop off).take n

section Receive

variable {s : SockCore} {seqNum : Word} {data : NetBuffer} {off n : Nat}

theorem length_segmentBytes (hd : off + n ≤ data.bytes.length) :
    (segmentBytes data off n).length = n :=
  length_part hd

theorem tcpWriteRxBuffer_bytes (hs : RxAllocated s) (hd : off + n ≤ data.bytes.length)
    (hn : n ≤ s.rxBufferSize) :
    (tcpWriteRxBuffer s seqNum data off n).rxBuffer.bytes =
      Ring.write s.rxBufferSize s.rxBuffer.bytes (streamPos s.irs seqNum)
        (segmentBytes data off n) := by
  obtain ⟨hlen, hpos, -⟩ := hs
  have ho : bufOffset s.irs seqNum s.rxBufferSize < s.rxBufferSize := Nat.mod_lt _ hpos
  unfold tcpWriteRxBuffer Ring.write
  rw [length_segmentBytes hd, ← bufOffset_eq]
  generalize bufOffset s.irs seqNum s.rxBufferSize = o at ho ⊢
  simp only
  split
  · exact netBufferCopy_bytes (by omega) hd
  · rename_i hlong
    have hfirst := @netBufferCopy_bytes s.rxBuffer data o off (s.rxBufferSize - o) (by omega)
      (by omega)
    have htake : (segmentBytes data off n).take (s.rxBufferSize - o) =
        (data.bytes.drop off).take (s.rxBufferSize - o) := by
      unfold segmentBytes
      rw [List.take_take, Nat.min_eq_left (by omega)]
    have hdrop : (segmentBytes data off n).drop (s.rxBufferSize - o) =
        (data.bytes.drop (off + (s.rxBufferSize - o))).take (n - (s.rxBufferSize - o)) := by
      unfold segmentBytes
      rw [List.drop_take, List.drop_drop]
    rw [netBufferCopy_bytes (by rw [netBufferCopy_length]; omega) (by omega), hfirst, htake, hdrop]

theorem tcpWriteRxBuffer_vars (s : SockCore) (seqNum : Word) (data : NetBuffer) (off n : Nat) :
    (tcpWriteRxBuffer s seqNum data off n).irs = s.irs ∧
      (tcpWriteRxBuffer s seqNum data off n).rxBufferSize = s.rxBufferSize := by
  unfold tcpWriteRxBuffer
  simp only
  split <;> exact ⟨rfl, rfl⟩

theorem RxAllocated.write (hs : RxAllocated s) (hd : off + n ≤ data.bytes.length)
    (hn : n ≤ s.rxBufferSize) : RxAllocated (tcpWriteRxBuffer s seqNum data off n) := by
  have hvars := tcpWriteRxBuffer_vars s seqNum data off n
  have hlen := length_segmentBytes hd
  unfold RxAllocated
  rw [tcpWriteRxBuffer_bytes hs hd hn, hvars.2, Ring.length_write hs.1 (by omega) hs.2.1]
  exact ⟨rfl, hs.2⟩

/-- Reading at `seqNum` fills the user's buffer with `bytes`. -/
def RxHolds (s : SockCore) (seqNum : Word) (bytes : List UInt8) : Prop :=
  ∀ data, data.length = bytes.length → (tcpReadRxBuffer s seqNum data).1 = bytes

theorem splice_all {xs ys : List UInt8} (h : ys.length = xs.length) : Ring.splice xs 0 ys = ys := by
  unfold Ring.splice
  rw [List.take_zero, List.nil_append, Nat.zero_add, h, List.drop_length, List.append_nil]

theorem tcpReadRxBuffer_eq (hs : RxAllocated s) {user : List UInt8}
    (hn : user.length ≤ s.rxBufferSize) :
    (tcpReadRxBuffer s seqNum user).1 =
      Ring.read s.rxBufferSize s.rxBuffer.bytes (streamPos s.irs seqNum) user.length := by
  obtain ⟨hlen, hpos, -⟩ := hs
  have ho : bufOffset s.irs seqNum s.rxBufferSize < s.rxBufferSize := Nat.mod_lt _ hpos
  unfold tcpReadRxBuffer Ring.read
  rw [← bufOffset_eq]
  generalize bufOffset s.irs seqNum s.rxBufferSize = o at ho ⊢
  simp only [netBufferRead_eq]
  split
  · exact splice_all (by rw [List.length_take, List.length_drop]; omega)
  · have hk : ((s.rxBuffer.bytes.drop o).take (s.rxBufferSize - o)).length =
        s.rxBufferSize - o := by
      rw [List.length_take, List.length_drop]
      omega
    have hjoin := Ring.splice_splice user ((s.rxBuffer.bytes.drop o).take (s.rxBufferSize - o))
      ((s.rxBuffer.bytes.drop 0).take (user.length - (s.rxBufferSize - o))) 0 (by omega)
    rw [hk, Nat.zero_add] at hjoin
    rw [hjoin, List.drop_zero]
    refine splice_all ?_
    rw [List.length_append, hk, List.length_take]
    omega

theorem rxHolds_iff (hs : RxAllocated s) {bytes : List UInt8}
    (hn : bytes.length ≤ s.rxBufferSize) :
    RxHolds s seqNum bytes ↔
      Ring.read s.rxBufferSize s.rxBuffer.bytes (streamPos s.irs seqNum) bytes.length = bytes := by
  constructor
  · intro h
    rw [← tcpReadRxBuffer_eq hs hn]
    exact h bytes rfl
  · intro h user hlen
    rw [tcpReadRxBuffer_eq hs (by omega), hlen]
    exact h

/-- A window of the receive buffer. -/
structure RxConsistent (s : SockCore) (seqNum : Word) : Prop where
  part : ∀ (data : NetBuffer) (off n j m : Nat), off + n ≤ data.bytes.length →
    n ≤ s.rxBufferSize → j + m ≤ n →
    RxHolds (tcpWriteRxBuffer s seqNum data off n) (seqNum + w32 j)
      (((segmentBytes data off n).drop j).take m)
  disjoint : ∀ (a b : NetBuffer) (offA nA offB nB i j : Nat), offA + nA ≤ a.bytes.length →
    offB + nB ≤ b.bytes.length → i + nA ≤ s.rxBufferSize → j + nB ≤ s.rxBufferSize →
    i + nA ≤ j ∨ j + nB ≤ i →
    RxHolds (tcpWriteRxBuffer (tcpWriteRxBuffer s (seqNum + w32 i) a offA nA) (seqNum + w32 j) b
      offB nB) (seqNum + w32 i) (segmentBytes a offA nA)

/-- A datagram in one chunk. -/
def oneChunk (bytes : List UInt8) : NetBuffer := ⟨[⟨bytes, 0⟩], 1⟩

@[simp] theorem oneChunk_bytes (bytes : List UInt8) : (oneChunk bytes).bytes = bytes := by
  show bytes ++ [] = bytes
  exact List.append_nil bytes

@[simp] theorem segmentBytes_oneChunk (bytes : List UInt8) :
    segmentBytes (oneChunk bytes) 0 bytes.length = bytes := by
  unfold segmentBytes
  rw [oneChunk_bytes, List.drop_zero, List.take_length]

theorem rxConsistent_ring (hs : RxAllocated s) :
    RxConsistent s seqNum ↔ RingConsistent s.rxBufferSize s.irs seqNum s.rxBuffer.bytes := by
  have hpart : ∀ (data : NetBuffer) (off n j m : Nat), off + n ≤ data.bytes.length →
      n ≤ s.rxBufferSize → j + m ≤ n →
      (RxHolds (tcpWriteRxBuffer s seqNum data off n) (seqNum + w32 j)
          (((segmentBytes data off n).drop j).take m) ↔
        Ring.read s.rxBufferSize (Ring.write s.rxBufferSize s.rxBuffer.bytes
          (streamPos s.irs seqNum) (segmentBytes data off n)) (streamPos s.irs (seqNum + w32 j)) m =
            ((segmentBytes data off n).drop j).take m) := by
    intro data off n j m hd hn hj
    obtain ⟨hirs, hsize⟩ := tcpWriteRxBuffer_vars s seqNum data off n
    have hlen : (((segmentBytes data off n).drop j).take m).length = m :=
      length_part (by rw [length_segmentBytes hd]; exact hj)
    rw [rxHolds_iff (hs.write hd hn) (by rw [hsize, hlen]; omega), hlen, hirs, hsize,
      tcpWriteRxBuffer_bytes hs hd hn]
  have hdisjoint : ∀ (a b : NetBuffer) (offA nA offB nB i j : Nat), offA + nA ≤ a.bytes.length →
      offB + nB ≤ b.bytes.length → i + nA ≤ s.rxBufferSize → j + nB ≤ s.rxBufferSize →
      (RxHolds (tcpWriteRxBuffer (tcpWriteRxBuffer s (seqNum + w32 i) a offA nA) (seqNum + w32 j) b
          offB nB) (seqNum + w32 i) (segmentBytes a offA nA) ↔
        Ring.read s.rxBufferSize (Ring.write s.rxBufferSize (Ring.write s.rxBufferSize
          s.rxBuffer.bytes (streamPos s.irs (seqNum + w32 i)) (segmentBytes a offA nA))
          (streamPos s.irs (seqNum + w32 j)) (segmentBytes b offB nB))
          (streamPos s.irs (seqNum + w32 i)) (segmentBytes a offA nA).length =
            segmentBytes a offA nA) := by
    intro a b offA nA offB nB i j ha hb hi hj
    obtain ⟨hirs, hsize⟩ := tcpWriteRxBuffer_vars s (seqNum + w32 i) a offA nA
    have hs' : RxAllocated (tcpWriteRxBuffer s (seqNum + w32 i) a offA nA) :=
      hs.write ha (by omega)
    have hnB : nB ≤ (tcpWriteRxBuffer s (seqNum + w32 i) a offA nA).rxBufferSize := by
      rw [hsize]
      omega
    obtain ⟨hirs', hsize'⟩ := tcpWriteRxBuffer_vars
      (tcpWriteRxBuffer s (seqNum + w32 i) a offA nA) (seqNum + w32 j) b offB nB
    rw [rxHolds_iff (hs'.write hb hnB) (by rw [hsize', hsize, length_segmentBytes ha]; omega),
      hirs', hsize', tcpWriteRxBuffer_bytes hs' hb hnB, hirs, hsize,
      tcpWriteRxBuffer_bytes hs ha (by omega)]
  constructor
  · intro h
    constructor
    · intro data j m hlen hj
      have hfits : 0 + data.length ≤ (oneChunk data).bytes.length := by
        rw [oneChunk_bytes]
        omega
      have := (hpart (oneChunk data) 0 data.length j m hfits hlen hj).mp
        (h.part (oneChunk data) 0 data.length j m hfits hlen hj)
      rwa [segmentBytes_oneChunk] at this
    · intro a b i j hi hj hd
      have ha : 0 + a.length ≤ (oneChunk a).bytes.length := by
        rw [oneChunk_bytes]
        omega
      have hb : 0 + b.length ≤ (oneChunk b).bytes.length := by
        rw [oneChunk_bytes]
        omega
      have := (hdisjoint _ _ 0 a.length 0 b.length i j ha hb hi hj).mp
        (h.disjoint _ _ 0 a.length 0 b.length i j ha hb hi hj hd)
      rwa [segmentBytes_oneChunk, segmentBytes_oneChunk] at this
  · intro h
    constructor
    · intro data off n j m hd hn hj
      refine (hpart data off n j m hd hn hj).mpr (h.part _ j m ?_ ?_)
      · rw [length_segmentBytes hd]
        exact hn
      · rw [length_segmentBytes hd]
        exact hj
    · intro a b offA nA offB nB i j ha hb hi hj hd
      refine (hdisjoint a b offA nA offB nB i j ha hb hi hj).mpr (h.disjoint _ _ i j ?_ ?_ ?_)
      · rw [length_segmentBytes ha]
        exact hi
      · rw [length_segmentBytes hb]
        exact hj
      · rw [length_segmentBytes ha, length_segmentBytes hb]
        exact hd

end Receive

/-- **The wrap.** A window of either buffer is consistent exactly when it is aligned. -/
theorem circular_iff (s : SockCore) (seqNum : Word) :
    (TxAllocated s →
      (TxConsistent s seqNum ↔ Aligned s.txBufferSize (streamPos s.iss seqNum))) ∧
    (RxAllocated s →
      (RxConsistent s seqNum ↔ Aligned s.rxBufferSize (streamPos s.irs seqNum))) :=
  ⟨fun hs => (txConsistent_ring hs).trans (ringConsistent_iff hs.1 hs.2.1),
    fun hs => (rxConsistent_ring hs).trans (ringConsistent_iff hs.1 hs.2.1)⟩

/-- A socket with buffers of three bytes. -/
def smallBuffers : SockCore :=
  { txBuffer := oneChunk [0, 0, 0], txBufferSize := 3
    rxBuffer := oneChunk [0, 0, 0], rxBufferSize := 3 }

theorem circular_iff_smallBuffers :
    (TxConsistent smallBuffers 1 ↔ Aligned 3 0) ∧
      (RxConsistent smallBuffers 0 ↔ Aligned 3 0xFFFFFFFF) :=
  ⟨(circular_iff smallBuffers 1).1 (by decide), (circular_iff smallBuffers 0).2 (by decide)⟩

/-- Two bytes across the wrap: the second is stored in slot one and looked for in slot zero. -/
theorem circular_wrapped : TxAllocated smallBuffers ∧ RxAllocated smallBuffers ∧
    ¬ TxConsistent smallBuffers 0 ∧ ¬ RxConsistent smallBuffers 0 := by
  refine ⟨by decide, by decide, fun h => ?_, fun h => ?_⟩
  · have hread := h.part [1, 2] 1 1 (by decide) (by decide)
    have := hread.appended ⟨[], 9⟩ ⟨[⟨[1], 0⟩], 9⟩ (by decide)
    exact absurd this (by decide)
  · have hread := h.part (oneChunk [1, 2]) 0 2 1 1 (by decide) (by decide) (by decide)
    exact absurd (hread [0] (by decide)) (by decide)

end Cyclone
