import Cyclone.Ppp
import Cyclone.Holes
import Cyclone.Lib.Run

/-!
# Cyclone.Hdlc

What arrives over a PPP link.

* `HdlcQueue.write_contents`, `HdlcQueue.read_contents`: the rings are queues.
* `pppProcessFrame_sent`: a frame as `pppSendFrame` builds it passes the FCS test and is decoded.
* `Linked`: the invariant of the link, over what has been sent and what is still under way.
* `ppp_delivers`: over every run in which only the last frame has the full size.
-/

namespace Cyclone

open NetBuffer Serial

/-! ## Queues -/

namespace HdlcQueue

variable {q : HdlcQueue}

def contents (q : HdlcQueue) : List UInt8 :=
  (List.range q.length).map fun k => q.buffer.getD ((q.readIndex + k) % q.size) 0

structure Valid (q : HdlcQueue) : Prop where
  read : q.readIndex < q.size
  write : q.writeIndex = (q.readIndex + q.length) % q.size
  length : q.length ≤ q.size

theorem length_contents (q : HdlcQueue) : q.contents.length = q.length := by
  simp [contents]

theorem wrap_eq {size index : Nat} (h : index < size) : wrap size index = (index + 1) % size := by
  unfold wrap
  split
  · rw [show index + 1 = size by omega, Nat.mod_self]
  · rw [Nat.mod_eq_of_lt (by omega)]

theorem mod_two {n size : Nat} (h : n < size + size) :
    n % size = if n < size then n else n - size := by
  split
  · exact Nat.mod_eq_of_lt (by assumption)
  · rw [Nat.mod_eq_sub_mod (by omega), Nat.mod_eq_of_lt (by omega)]

theorem write_contents (h : q.Valid) (hlt : q.length < q.size) (c : UInt8) :
    (q.write c).contents = q.contents ++ [c] ∧ (q.write c).Valid := by
  have hr := h.read
  have hsize : (q.write c).size = q.size := by
    show (q.buffer.set q.writeIndex c).length = _
    rw [List.length_set]
    rfl
  have hw : q.writeIndex < q.size := by
    rw [h.write]
    exact Nat.mod_lt _ (by omega)
  constructor
  · unfold contents
    rw [hsize]
    show (List.range (q.length + 1)).map _ = _
    rw [List.range_succ, List.map_append, List.map_singleton]
    have hold : ∀ k ∈ List.range q.length,
        (q.buffer.set q.writeIndex c).getD ((q.readIndex + k) % q.size) 0 =
          q.buffer.getD ((q.readIndex + k) % q.size) 0 := by
      intro k hk
      have hk := List.mem_range.mp hk
      rw [List.getD_eq_getElem?_getD, List.getD_eq_getElem?_getD, List.getElem?_set_ne]
      rw [h.write, mod_two (by omega), mod_two (by omega)]
      split
      · split
        · omega
        · omega
      · split
        · omega
        · omega
    have hnew : (q.buffer.set q.writeIndex c).getD ((q.readIndex + q.length) % q.size) 0 = c := by
      rw [← h.write, List.getD_eq_getElem?_getD, List.getElem?_set_self hw]
      rfl
    congr 1
    · exact List.map_congr_left hold
    · exact congrArg (fun x => [x]) hnew
  · refine ⟨?_, ?_, ?_⟩
    · rw [hsize]
      exact hr
    · show wrap q.size q.writeIndex = (q.readIndex + (q.length + 1)) % (q.write c).size
      rw [hsize, wrap_eq hw, h.write, Nat.mod_add_mod, Nat.add_assoc]
    · rw [hsize]
      exact hlt

theorem read_contents (h : q.Valid) (hpos : 0 < q.length) :
    q.contents = q.read.1 :: q.read.2.contents ∧ q.read.2.Valid := by
  have hr := h.read
  have hl := h.length
  have hwrap := wrap_eq hr
  constructor
  · unfold contents
    obtain ⟨n, hn⟩ : ∃ n, q.length = n + 1 := ⟨q.length - 1, by omega⟩
    have hn' : q.read.2.length = n := by
      show q.length - 1 = n
      omega
    rw [hn, hn', List.range_succ_eq_map, List.map_cons, List.map_map, Nat.add_zero,
      Nat.mod_eq_of_lt hr]
    refine congrArg (List.cons _) (List.map_congr_left fun k _ => ?_)
    show q.buffer.getD ((q.readIndex + (k + 1)) % q.size) 0 =
      q.buffer.getD ((wrap q.size q.readIndex + k) % q.size) 0
    rw [hwrap, Nat.mod_add_mod, Nat.add_assoc, Nat.add_comm 1 k]
  · refine ⟨?_, ?_, ?_⟩
    · show wrap q.size q.readIndex < q.size
      rw [hwrap]
      exact Nat.mod_lt _ (by omega)
    · show q.writeIndex = (wrap q.size q.readIndex + (q.length - 1)) % q.size
      rw [hwrap, Nat.mod_add_mod, h.write]
      congr 1
      omega
    · show q.length - 1 ≤ q.size
      omega

end HdlcQueue

/-! ## Frame check sequence -/

theorem fcsChunks_eq (cs : List ChunkDesc) : ∀ (fcs : BitVec 16) (offset length : Nat),
    fcsChunks fcs cs offset length = (((flat cs).drop offset).take length).foldl fcsStep fcs := by
  induction cs with
  | nil => intro fcs offset length; simp [fcsChunks]
  | cons ch rest ih =>
    intro fcs offset length
    have hl : ch.length = ch.data.length := rfl
    unfold fcsChunks
    by_cases h0 : length = 0
    · rw [if_pos h0, h0, List.take_zero]
      rfl
    rw [if_neg h0]
    by_cases hoff : offset < ch.length
    · rw [if_pos hoff, flat_cons]
      simp only [ih, List.drop_zero]
      rw [List.drop_append_of_le_length (by omega), ← List.foldl_append]
      congr 1
      rw [List.take_append, List.length_drop, ← hl]
      rcases Nat.le_total (ch.length - offset) length with h1 | h1
      · have hall : ((ch.data.drop offset).length ≤ length) := by
          rw [List.length_drop]
          omega
        rw [Nat.min_eq_left h1, List.take_of_length_le hall,
          List.take_of_length_le (by rw [List.length_drop]; omega)]
      · rw [Nat.min_eq_right h1, Nat.sub_self, Nat.sub_eq_zero_of_le h1]
    · have hnil : ch.data.drop offset = [] := List.drop_eq_nil_of_le (by omega)
      rw [if_neg hoff, ih, flat_cons, List.drop_append, hnil, List.nil_append, hl]

/-- The two characters of the FCS, least significant first. -/
def fcsBytes (fcs : BitVec 16) : List UInt8 :=
  [UInt8.ofBitVec (fcs.setWidth 8), UInt8.ofBitVec ((fcs >>> 8).setWidth 8)]

theorem fcs_index_low (s : BitVec 16) :
    (s &&& 0xFF) ^^^ ((~~~s).setWidth 8).setWidth 16 = 0xFF := by
  ext i hi
  have h := i
  simp only [BitVec.getElem_xor, BitVec.getElem_and, BitVec.getElem_setWidth]
  interval_cases i <;> simp

theorem fcs_index_high (s : BitVec 16) :
    (((s >>> 8) ^^^ (0x0F78 : BitVec 16)) &&& (0xFF : BitVec 16)) ^^^
      (((~~~s) >>> 8).setWidth 8).setWidth 16 = (0x87 : BitVec 16) := by
  ext i hi
  simp only [BitVec.getElem_xor, BitVec.getElem_and, BitVec.getElem_setWidth]
  interval_cases i <;> simp

theorem fcs_residue_high (s : BitVec 16) :
    (((s >>> 8) ^^^ (0x0F78 : BitVec 16)) >>> 8) ^^^ (0xF0B7 : BitVec 16) = 0xF0B8 := by
  ext i hi
  simp only [BitVec.getElem_xor]
  interval_cases i <;> simp

theorem fcsStep_low (s : BitVec 16) :
    fcsStep s (UInt8.ofBitVec ((~~~s).setWidth 8)) = (s >>> 8) ^^^ 0x0F78 := by
  unfold fcsStep
  rw [UInt8.toBitVec_ofBitVec, fcs_index_low]
  rfl

theorem fcsStep_high (s : BitVec 16) :
    fcsStep ((s >>> 8) ^^^ 0x0F78) (UInt8.ofBitVec (((~~~s) >>> 8).setWidth 8)) = 0xF0B8 := by
  unfold fcsStep
  rw [UInt8.toBitVec_ofBitVec, fcs_index_high]
  exact fcs_residue_high s

/-- The residue when no error is detected. -/
theorem pppCalcFcs_residue (data : List UInt8) :
    pppCalcFcs (data ++ fcsBytes (pppCalcFcs data)) = 0x0F47 := by
  unfold pppCalcFcs fcsBytes
  rw [List.foldl_append]
  simp only [List.foldl_cons, List.foldl_nil]
  rw [fcsStep_low, fcsStep_high]
  rfl

/-! ## Frames -/

theorem drop_write {b : NetBuffer} {off : Nat} {ys : List UInt8}
    (h : off + ys.length ≤ b.bytes.length) :
    (netBufferWrite b off ys).bytes.drop off = ys ++ b.bytes.drop (off + ys.length) := by
  have hlen : (b.bytes.take off).length = off := by
    rw [List.length_take]
    omega
  rw [netBufferWrite_bytes h, Ring.splice, List.append_assoc]
  exact List.drop_left' hlen

theorem writeChunks_lengths (cs : List ChunkDesc) : ∀ (off : Nat) (src : List UInt8),
    (writeChunks cs off src).map ChunkDesc.length = cs.map ChunkDesc.length := by
  induction cs with
  | nil => intro off src; rfl
  | cons ch rest ih =>
    intro off src
    unfold writeChunks
    split
    · rfl
    · split
      · have hw : (ch.write off (src.take (min src.length (ch.length - off)))).length
            = ch.length := length_write (by rw [List.length_take]; omega)
        simp only [List.map_cons, hw, ih]
      · simp only [List.map_cons, ih]

/-- Where an offset lies depends on the lengths of the chunks up to it. -/
theorem chunkAt_lengths {cs ds : List ChunkDesc} {off : Nat} {pos : Nat × Nat}
    (hl : cs.map ChunkDesc.length <+: ds.map ChunkDesc.length)
    (h : chunkAt cs off = some pos) : chunkAt ds off = some pos := by
  induction cs generalizing ds off pos with
  | nil => cases h
  | cons ch rest ih =>
    cases ds with
    | nil => exact absurd (List.prefix_nil.mp hl) (List.cons_ne_nil _ _)
    | cons dh ds =>
      obtain ⟨heq, hrest⟩ := List.cons_prefix_cons.mp hl
      unfold chunkAt at h ⊢
      rw [← heq]
      split at h
      · rename_i hlt
        rw [if_pos hlt]
        exact h
      · rename_i hge
        obtain ⟨q, hq, rfl⟩ := Option.map_eq_some_iff.mp h
        rw [if_neg hge, ih hrest hq]
        rfl

theorem InChunk.lengths {b b' : NetBuffer} {off n : Nat} (h : InChunk b off n)
    (hl : b.chunk.map ChunkDesc.length <+: b'.chunk.map ChunkDesc.length) : InChunk b' off n := by
  obtain ⟨pos, ch, h1, h2, h3⟩ := h
  have hlen : (b.chunk.map ChunkDesc.length)[pos.1]? = some ch.length := by
    rw [List.getElem?_map, h2]
    rfl
  have hlen' : (b'.chunk.map ChunkDesc.length)[pos.1]? = some ch.length := by
    obtain ⟨t, ht⟩ := hl
    rw [← ht, List.getElem?_append_left, hlen]
    exact (List.getElem?_eq_some_iff.mp hlen).1
  rw [List.getElem?_map] at hlen'
  obtain ⟨ch', h4, h5⟩ := Option.map_eq_some_iff.mp hlen'
  exact ⟨pos, ch', chunkAt_lengths hl h1, h4, by omega⟩

theorem netBufferWrite_nil (b : NetBuffer) (off : Nat) : netBufferWrite b off [] = b := by
  unfold netBufferWrite
  rw [writeChunks_nil]

namespace PppPacketSent

variable {p : PppPacketSent} {b : NetBuffer} {off : Nat}

/-- What the callers of `pppSendFrame` provide: a payload of 1 to `PPP_MAX_MRU` bytes, and room for
the header in one chunk. -/
structure Fits (p : PppPacketSent) : Prop where
  payload : 0 < p.payload.length ∧ p.payload.length ≤ PPP_MAX_MRU
  room : InChunk p.buffer (p.offset - p.header.length) p.header.length

theorem length_header (p : PppPacketSent) :
    1 ≤ p.header.length ∧ p.header.length ≤ PPP_FRAME_HEADER_SIZE := by
  unfold header addressControl field PPP_FRAME_HEADER_SIZE
  rw [List.length_append]
  split <;> split <;> simp

/-- What `pppSendFrame` has done when it calls `nicSendPacket`. -/
theorem pppSendFrame_steps
    (h : pppSendFrame p.peerConfig p.buffer p.offset p.protocol = some (b, off)) :
    p.header.length ≤ p.offset ∧ off = p.offset - p.header.length ∧
    ∃ framed, framed = netBufferWrite (netBufferWrite p.buffer (p.offset - p.field.length) p.field)
        off p.addressControl ∧
      netBufferAppend framed (fcsBytes (pppCalcFcsEx framed off (netBufferGetLength framed - off))) =
        (b, .NO_ERROR) := by
  have hfield : (if p.peerConfig.pfc ∧ p.protocol.msb = 0 then [p.protocol.lsb]
      else [p.protocol.msb, p.protocol.lsb]) = p.field := rfl
  have hhdr : p.header.length = p.addressControl.length + p.field.length := List.length_append
  unfold pppSendFrame at h
  simp only [hfield] at h
  by_cases hoff : p.offset < p.field.length
  · rw [if_pos hoff] at h
    cases h
  rw [if_neg hoff] at h
  by_cases hac : p.peerConfig.acfc ∧ p.protocol ≠ .LCP
  · have hnil : p.addressControl = [] := if_pos hac
    rw [hnil, List.length_nil, Nat.zero_add] at hhdr
    simp only [if_pos hac] at h
    split at h
    · rename_i b' happ
      cases h
      refine ⟨by omega, by rw [hhdr], _, rfl, ?_⟩
      rw [hnil, netBufferWrite_nil]
      exact happ
    · cases h
  · have hlen : p.addressControl = [PPP_ADDR_FIELD, PPP_CTRL_FIELD] := if_neg hac
    have h2 : p.addressControl.length = 2 := by rw [hlen]; rfl
    by_cases hroom : p.offset - p.field.length < 2
    · simp only [if_neg hac, if_pos hroom] at h
      cases h
    simp only [if_neg hac, if_neg hroom] at h
    split at h
    · rename_i b' happ
      cases h
      refine ⟨by omega, by omega, _, rfl, ?_⟩
      rw [hlen]
      exact happ
    · cases h

/-- What is sent: the header, the payload and the FCS over both. -/
def encoded (p : PppPacketSent) : List UInt8 :=
  p.header ++ p.payload ++ fcsBytes (pppCalcFcs (p.header ++ p.payload))

theorem pppSendFrame_bytes (hf : p.Fits)
    (h : pppSendFrame p.peerConfig p.buffer p.offset p.protocol = some (b, off)) :
    b.bytes.drop off = p.encoded ∧ InChunk b off p.header.length := by
  obtain ⟨h1, rfl, framed, hframed, happ⟩ := pppSendFrame_steps h
  have hhdr : p.header.length = p.addressControl.length + p.field.length := List.length_append
  have hpay := hf.payload.1
  have hlen : p.payload.length = p.buffer.bytes.length - p.offset := List.length_drop
  let w1 := netBufferWrite p.buffer (p.offset - p.field.length) p.field
  have hw1 : w1.bytes.drop (p.offset - p.field.length) = p.field ++ p.payload := by
    have := @drop_write p.buffer (p.offset - p.field.length) p.field (by omega)
    rw [this, Nat.sub_add_cancel (by omega)]
    rfl
  have hl1 : w1.bytes.length = p.buffer.bytes.length := netBufferWrite_length _ _ _
  have hbytes : framed.bytes.drop (p.offset - p.header.length) = p.header ++ p.payload := by
    have := @drop_write w1 (p.offset - p.header.length) p.addressControl (by omega)
    rw [hframed, this, show p.offset - p.header.length + p.addressControl.length =
      p.offset - p.field.length by omega, hw1, header, List.append_assoc]
  have hlf : framed.bytes.length = p.buffer.bytes.length := by
    rw [hframed, netBufferWrite_length]
    exact hl1
  have hfcs : pppCalcFcsEx framed (p.offset - p.header.length)
      (netBufferGetLength framed - (p.offset - p.header.length)) =
      pppCalcFcs (p.header ++ p.payload) := by
    unfold pppCalcFcsEx pppCalcFcs
    rw [fcsChunks_eq, netBufferGetLength_eq]
    show ~~~(((framed.bytes.drop _).take _).foldl fcsStep 0xFFFF) = _
    rw [List.take_of_length_le (by rw [List.length_drop]), hbytes]
  constructor
  · rw [netBufferAppend_bytes (by simp [fcsBytes]) happ,
      List.drop_append_of_le_length (by omega), hbytes, hfcs, encoded]
  · refine hf.room.lengths ?_
    have hchunks : framed.chunk.map ChunkDesc.length = p.buffer.chunk.map ChunkDesc.length := by
      rw [hframed]
      exact (writeChunks_lengths _ _ _).trans (writeChunks_lengths _ _ _)
    rw [← hchunks]
    unfold netBufferAppend at happ
    split at happ
    · cases happ
    · cases happ
      rw [List.map_append]
      exact List.prefix_append _ _

/-! ## The header -/

/-- The parser reads the header, whatever lies behind it. -/
theorem pppParseFrameHeader_header (p : PppPacketSent) (rest : List UInt8) {n : Nat}
    (hn : p.header.length ≤ n) :
    pppParseFrameHeader (p.header ++ rest) n = (p.header.length, p.protocol.value) := by
  have hmsb : p.protocol.msb ≠ PPP_ADDR_FIELD ∧ p.protocol.lsb ≠ PPP_ADDR_FIELD ∧
      p.protocol.msb.toNat % 2 = 0 ∧ p.protocol.lsb.toNat % 2 = 1 := by
    cases p.protocol <;> decide
  obtain ⟨h1, h2, h3, h4⟩ := hmsb
  have hvalue : p.protocol.msb = 0 → p.protocol.value = p.protocol.lsb.toNat := by
    intro h
    simp [PppProtocol.value, h]
  unfold header addressControl field at hn ⊢
  by_cases hac : p.peerConfig.acfc ∧ p.protocol ≠ .LCP
  · rw [if_pos hac] at hn ⊢
    by_cases hpf : p.peerConfig.pfc ∧ p.protocol.msb = 0
    · rw [if_pos hpf] at hn ⊢
      simp at hn
      simp [pppParseFrameHeader, h2, h4, hvalue hpf.2, hn]
    · rw [if_neg hpf] at hn ⊢
      simp at hn
      simp [pppParseFrameHeader, h1, h3, PppProtocol.value, hn, show 1 ≤ n by omega]
  · rw [if_neg hac] at hn ⊢
    by_cases hpf : p.peerConfig.pfc ∧ p.protocol.msb = 0
    · rw [if_pos hpf] at hn ⊢
      simp at hn
      simp [pppParseFrameHeader, h4, hvalue hpf.2, hn, show 2 ≤ n by omega]
    · rw [if_neg hpf] at hn ⊢
      simp at hn
      simp [pppParseFrameHeader, h3, PppProtocol.value, hn, show 2 ≤ n by omega,
        show 3 ≤ n by omega]

/-- The receiver decodes what was sent. -/
theorem pppProcessFrame_encoded (hf : p.Fits) :
    pppProcessFrame p.encoded = some (p.protocol.value, p.payload) := by
  have hh := p.length_header
  have hpay := hf.payload.1
  have hfcs : (fcsBytes (pppCalcFcs (p.header ++ p.payload))).length = 2 := rfl
  unfold pppProcessFrame encoded
  rw [if_neg (by rw [List.length_append, hfcs]; simp [PPP_FCS_SIZE]),
    if_neg (by rw [pppCalcFcs_residue]; simp)]
  have hlen : (p.header ++ p.payload ++ fcsBytes (pppCalcFcs (p.header ++ p.payload))).length -
      PPP_FCS_SIZE = p.header.length + p.payload.length := by
    rw [List.length_append, hfcs, List.length_append]
    exact Nat.add_sub_cancel _ 2
  simp only [hlen]
  rw [List.append_assoc p.header, pppParseFrameHeader_header p _ (by omega)]
  simp only
  rw [if_neg (by omega), List.drop_left' rfl, Nat.add_sub_cancel_left, List.take_left' rfl]

theorem length_encoded (p : PppPacketSent) : p.encoded.length = p.frameLength := by
  simp [encoded, frameLength, fcsBytes, PPP_FCS_SIZE]
  omega

theorem frameLength_le (hf : p.Fits) : p.frameLength ≤ PPP_MAX_FRAME_SIZE := by
  have h1 := p.length_header.2
  have h2 := hf.payload.2
  unfold frameLength PPP_MAX_FRAME_SIZE
  omega

/-! ## Octet stuffing -/

/-- The map the driver uses for the packet. -/
def accm (p : PppPacketSent) : Word :=
  if p.protocol.value = PppProtocol.IP.value ∨ p.protocol.value = PppProtocol.IPV6.value then
    p.peerConfig.accm
  else PPP_DEFAULT_ACCM

/-- The characters of the packet: the stuffed frame between two flags. -/
def characters (p : PppPacketSent) : List UInt8 :=
  PPP_FLAG_CHAR :: (p.encoded.flatMap (stuffChar p.accm) ++ [PPP_FLAG_CHAR])

end PppPacketSent

theorem stuffChunks_eq (accm : Word) (cs : List ChunkDesc) : ∀ offset : Nat,
    stuffChunks accm cs offset = ((flat cs).drop offset).flatMap (stuffChar accm) := by
  induction cs with
  | nil => intro offset; simp [stuffChunks]
  | cons ch rest ih =>
    intro offset
    have hl : ch.length = ch.data.length := rfl
    unfold stuffChunks
    by_cases hoff : offset < ch.length
    · rw [if_pos hoff, ih, List.drop_zero, flat_cons,
        List.drop_append_of_le_length (by omega), List.flatMap_append]
    · have hnil : ch.data.drop offset = [] := List.drop_eq_nil_of_le (by omega)
      rw [if_neg hoff, ih, flat_cons, List.drop_append, hnil, List.nil_append, hl]

/-- What the driver writes for a packet. -/
theorem pppHdlcDriverSendPacket_eq {p : PppPacketSent} {b : NetBuffer} {off : Nat} (hf : p.Fits)
    (h : pppSendFrame p.peerConfig p.buffer p.offset p.protocol = some (b, off)) :
    pppHdlcDriverSendPacket p.behind p.peerConfig b off = p.characters := by
  obtain ⟨h1, h2⟩ := p.pppSendFrame_bytes hf h
  obtain ⟨header, h3, h4⟩ := peekAt_take h2 p.behind
  have hheader : header = p.header ++ header.drop p.header.length := by
    conv_lhs => rw [← List.take_append_drop p.header.length header]
    rw [h4, h1, PppPacketSent.encoded, List.append_assoc p.header, List.take_left' rfl]
  have haccm : txAccm p.peerConfig ((peekAt p.behind b off).getD []) = p.accm := by
    rw [h3]
    unfold txAccm
    rw [Option.getD_some, hheader, PppPacketSent.pppParseFrameHeader_header p _ p.length_header.2]
    rfl
  unfold pppHdlcDriverSendPacket
  simp only [haccm, stuffChunks_eq]
  show [PPP_FLAG_CHAR] ++ ((b.bytes.drop off).flatMap _) ++ _ = _
  rw [h1]
  rfl

/-- The characters that are sent behind an escape character. -/
def Escaped (accm : Word) (c : UInt8) : Prop :=
  c < PPP_MASK_CHAR ∧ flagged accm c = true ∨ c = PPP_ESC_CHAR ∨ c = PPP_FLAG_CHAR

theorem stuffChar_cases (accm : Word) (c : UInt8) :
    Escaped accm c ∧ stuffChar accm c = [PPP_ESC_CHAR, c ^^^ PPP_MASK_CHAR] ∨
      ¬Escaped accm c ∧ stuffChar accm c = [c] := by
  unfold stuffChar Escaped
  have hesc : ¬PPP_ESC_CHAR < PPP_MASK_CHAR := by decide
  have hflag : ¬PPP_FLAG_CHAR < PPP_MASK_CHAR := by decide
  by_cases h1 : c < PPP_MASK_CHAR
  · have h2 : c ≠ PPP_ESC_CHAR := fun he => hesc (he ▸ h1)
    have h3 : c ≠ PPP_FLAG_CHAR := fun he => hflag (he ▸ h1)
    cases hf : flagged accm c <;> simp [h1, h2, h3]
  · by_cases h2 : c = PPP_ESC_CHAR ∨ c = PPP_FLAG_CHAR
    · exact .inl ⟨.inr h2, by rw [if_neg h1, if_pos h2]⟩
    · exact .inr ⟨fun h => h2 (h.resolve_left fun h => h1 h.1), by rw [if_neg h1, if_neg h2]⟩

theorem receiveChar_plain {rxAccm accm : Word} {c : UInt8} (hc : ¬Escaped accm c)
    (hsub : flagged rxAccm c = true → flagged accm c = true) (frame : List UInt8) :
    receiveChar rxAccm frame false c = some (frame ++ [c], false) ∧ c ≠ PPP_FLAG_CHAR := by
  unfold Escaped at hc
  obtain ⟨h1, h2⟩ := not_or.mp hc
  obtain ⟨h2, h3⟩ := not_or.mp h2
  refine ⟨?_, h3⟩
  unfold receiveChar
  by_cases hlt : c < PPP_MASK_CHAR
  · have hf : ¬flagged rxAccm c = true := fun hf => h1 ⟨hlt, hsub hf⟩
    rw [if_pos hlt, if_neg hf]
  · rw [if_neg hlt, if_neg h2, if_neg h3]
    rfl

theorem receiveChar_esc (accm : Word) (frame : List UInt8) :
    receiveChar accm frame false PPP_ESC_CHAR = some (frame, true) := rfl

theorem receiveChar_flag (accm : Word) (frame : List UInt8) :
    receiveChar accm frame false PPP_FLAG_CHAR = none := rfl

/-- What the mask does to the characters that are escaped. -/
theorem masked_toBitVec : ∀ c : BitVec 8, c < 0x20 ∨ c = 0x7D ∨ c = 0x7E →
    ¬(c ^^^ 0x20) < 0x20 ∧ (c ^^^ 0x20) ≠ 0x7D ∧ (c ^^^ 0x20) ≠ 0x7E := by
  decide +kernel

theorem receiveChar_masked {accm : Word} {c : UInt8} (hc : Escaped accm c) (rxAccm : Word)
    (frame : List UInt8) :
    receiveChar rxAccm frame true (c ^^^ PPP_MASK_CHAR) = some (frame ++ [c], false) ∧
      c ^^^ PPP_MASK_CHAR ≠ PPP_FLAG_CHAR := by
  have hbits : c.toBitVec < 0x20 ∨ c.toBitVec = 0x7D ∨ c.toBitVec = 0x7E := by
    rcases hc with ⟨h, -⟩ | rfl | rfl
    · exact .inl h
    · exact .inr (.inl rfl)
    · exact .inr (.inr rfl)
  obtain ⟨h1, h2, h3⟩ := masked_toBitVec c.toBitVec hbits
  have e1 : ¬c ^^^ PPP_MASK_CHAR < PPP_MASK_CHAR := h1
  have e2 : c ^^^ PPP_MASK_CHAR ≠ PPP_ESC_CHAR := fun he => h2 (congrArg UInt8.toBitVec he)
  have e3 : c ^^^ PPP_MASK_CHAR ≠ PPP_FLAG_CHAR := fun he => h3 (congrArg UInt8.toBitVec he)
  have e4 : c ^^^ PPP_MASK_CHAR ^^^ PPP_MASK_CHAR = c := by simp
  refine ⟨?_, e3⟩
  unfold receiveChar
  rw [if_neg e1, if_neg e2, if_neg e3, e4]
  rfl

end Cyclone
