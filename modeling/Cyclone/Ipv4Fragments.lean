import Cyclone.Ipv4Slices
import Cyclone.Circular
import Cyclone.Checksum

/-!
# Cyclone.Ipv4Fragments

Sending of IPv4 datagrams that are larger than the MTU (`ipv4FragmentDatagram`).

* `ipv4SendPacket`, `ipv4FragmentLoop`, `ipv4FragmentDatagram`: the sender. Where a packet goes is
  left to the environment; the frames it is put into are left out.
* `Adjoining`: fragments that follow each other without a gap.
* `fragmented_reassembled`: the fragments partition the payload, and the receiver puts it together
  again in whatever order they come.
-/

namespace Cyclone

open NetBuffer Serial

def sizeofIpv4Header : Nat := 20
def IPV4_DEFAULT_TTL : UInt8 := 64
def IPV4_FLAG_MF : Nat := 0x2000

structure Ipv4PseudoHeader where
  srcAddr : Word
  destAddr : Word
  protocol : UInt8

/-- The header of a packet with its checksum field. -/
def ipv4Header (pseudoHeader : Ipv4PseudoHeader) (fragId fragOffset length : Nat) (ttl : UInt8)
    (checksum : List UInt8) : List UInt8 :=
  [0x45, 0] ++ be16 length ++ be16 fragId ++ be16 fragOffset ++
    [if ttl = 0 then IPV4_DEFAULT_TTL else ttl, pseudoHeader.protocol] ++ checksum ++
    be32 pseudoHeader.srcAddr ++ be32 pseudoHeader.destAddr

/-- What the sender of a datagram is given. -/
structure Ipv4Outgoing where
  be : Bool
  /-- The address of a chunk. -/
  address : Nat → Nat
  linkMtu : Nat
  pseudoHeader : Ipv4PseudoHeader
  id : Nat
  ttl : UInt8
  payload : NetBuffer
  payloadOffset : Nat

variable (o : Ipv4Outgoing)

/-- `ipv4SendPacket`: the packet, the buffer it was built in and what the lower layers answer. -/
def ipv4SendPacket (e : Env) (fragOffset : Nat) (buffer : NetBuffer) (offset : Nat) :
    Env × NetBuffer × Option (List UInt8) × Error :=
  if offset < sizeofIpv4Header then (e, buffer, none, .INVALID_PARAMETER)
  else
    let offset := offset - sizeofIpv4Header
    let length := netBufferGetLength buffer - offset
    let b := netBufferWrite buffer offset
      (ipv4Header o.pseudoHeader o.id fragOffset length o.ttl [0, 0])
    let b := netBufferWrite b (offset + 10)
      (store16 o.be (ipCalcChecksumEx o.be o.address b offset sizeofIpv4Header))
    ({ e with tick := e.tick + 1 }, b, some (b.bytes.drop offset), e.ipSend e.tick)

/-- The loop of `ipv4FragmentDatagram` with the packets sent so far. `none` while it has not ended
within `fuel` turns. -/
def ipv4FragmentLoop (payloadLen maxFragmentSize fragmentOffset : Nat) :
    Nat → Env → NetBuffer → Nat → List (List UInt8) → Option (Env × List (List UInt8) × Error)
  | 0, _, _, _, _ => none
  | fuel + 1, e, fragment, offset, sent =>
    if offset < payloadLen then
      match netBufferSetLength e fragment fragmentOffset with
      | (e, fragment, .NO_ERROR) =>
        let last := payloadLen - offset ≤ maxFragmentSize
        let length := if last then payloadLen - offset else maxFragmentSize
        -- the result of the concatenation is not looked at
        let fragment := (netBufferConcat fragment o.payload (o.payloadOffset + offset) length).1
        match ipv4SendPacket o e (if last then offset / 8 else IPV4_FLAG_MF ||| offset / 8) fragment
          fragmentOffset with
        | (e, fragment, packet, .NO_ERROR) =>
          ipv4FragmentLoop payloadLen maxFragmentSize fragmentOffset fuel e fragment
            (offset + length) (sent ++ packet.toList)
        | (e, _, packet, error) => some (e, sent ++ packet.toList, error)
      | (e, _, error) => some (e, sent, error)
    else some (e, sent, .NO_ERROR)

/-- `ipv4FragmentDatagram`; the packets that were sent. The buffer of the fragments begins where the
IPv4 header goes. -/
def ipv4FragmentDatagram (e : Env) : Option (Env × List (List UInt8) × Error) :=
  let payloadLen := netBufferGetLength o.payload - o.payloadOffset
  match ipAllocBuffer e (List.replicate sizeofIpv4Header 0) with
  | (e, none) => some (e, [], .OUT_OF_MEMORY)
  | (e, some fragment) =>
    let maxFragmentSize := o.linkMtu - sizeofIpv4Header
    let maxFragmentSize := maxFragmentSize - maxFragmentSize % 8
    ipv4FragmentLoop o payloadLen maxFragmentSize sizeofIpv4Header (payloadLen + 1) e fragment 0 []

/-- `ipv4SendDatagram`: a datagram that fits is sent as it is. -/
def ipv4SendDatagram (e : Env) : Option (Env × List (List UInt8) × Error) :=
  if netBufferGetLength o.payload - o.payloadOffset + sizeofIpv4Header ≤ o.linkMtu then
    let (e, _, packet, error) := ipv4SendPacket o e 0 o.payload o.payloadOffset
    some (e, packet.toList, error)
  else ipv4FragmentDatagram o e

/-! ## Packets -/

/-- A packet as `ipv4SendPacket` builds it, up to the checksum. -/
def IsPacket (fragOffset : Nat) (data packet : List UInt8) : Prop :=
  ∃ a b, packet = ipv4Header o.pseudoHeader o.id fragOffset (sizeofIpv4Header + data.length) o.ttl
    [a, b] ++ data

/-- What identifies the datagram. -/
def Ipv4Outgoing.key : DatagramKey :=
  (be32 o.pseudoHeader.srcAddr, be32 o.pseudoHeader.destAddr, be16 o.id, o.pseudoHeader.protocol)

section Packets

variable {o} {e e' : Env} {data packet : List UInt8} {fragOffset : Nat}

theorem overlay_checksum (pseudoHeader : Ipv4PseudoHeader) (fragId length : Nat) (ttl a b : UInt8) :
    overlay (ipv4Header pseudoHeader fragId fragOffset length ttl [0, 0]) 10 [a, b] =
      ipv4Header pseudoHeader fragId fragOffset length ttl [a, b] := rfl

theorem length_ipv4Header (pseudoHeader : Ipv4PseudoHeader) (fragId length : Nat)
    (ttl a b : UInt8) :
    (ipv4Header pseudoHeader fragId fragOffset length ttl [a, b]).length = sizeofIpv4Header := rfl

theorem IsPacket.headerLength (h : IsPacket o fragOffset data packet) :
    (Ipv4Fragment.mk packet).headerLength = sizeofIpv4Header := by
  obtain ⟨a, b, rfl⟩ := h
  show (0x45 : UInt8).toNat % 16 * 4 = _
  decide

theorem IsPacket.data_eq (h : IsPacket o fragOffset data packet) :
    (Ipv4Fragment.mk packet).data = data := by
  have hlen := h.headerLength
  obtain ⟨a, b, rfl⟩ := h
  unfold Ipv4Fragment.data
  rw [hlen]
  rfl

theorem IsPacket.packet_length (h : IsPacket o fragOffset data packet) :
    packet.length = sizeofIpv4Header + data.length := by
  obtain ⟨a, b, rfl⟩ := h
  rw [List.length_append, length_ipv4Header]

theorem IsPacket.length_eq (h : IsPacket o fragOffset data packet) :
    (Ipv4Fragment.mk packet).length = data.length := by
  have h1 := h.headerLength
  have h2 := h.packet_length
  unfold Ipv4Fragment.length
  rw [h1]
  show packet.length - _ = _
  omega

theorem IsPacket.offset_eq (h : IsPacket o fragOffset data packet) (hf : fragOffset < 65536) :
    (Ipv4Fragment.mk packet).offset = fragOffset := by
  obtain ⟨a, b, rfl⟩ := h
  have hbe : ∀ n < 65536, (BitVec.ofNat 16 ((UInt8.ofNat (n / 256)).toNat * 256 +
      (UInt8.ofNat n).toNat)).toNat = n := by
    intro n hn
    rw [BitVec.toNat_ofNat, UInt8.toNat_ofNat', UInt8.toNat_ofNat']
    omega
  exact hbe fragOffset hf

theorem IsPacket.key_eq (h : IsPacket o fragOffset data packet) : datagramKey packet = o.key := by
  obtain ⟨a, b, rfl⟩ := h
  rfl

/-! ## The buffer of the fragments -/

/-- The header comes first, in a chunk of its own. -/
def FragmentHeaded (b : NetBuffer) : Prop :=
  b.maxChunkCount = MAX_CHUNK_COUNT ∧
    ∃ c cs, b.chunk = c :: cs ∧ c.length = sizeofIpv4Header

theorem FragmentHeaded.flush {b : NetBuffer} (h : FragmentHeaded b) :
    ∃ b', netBufferSetLength e b sizeofIpv4Header = (e, b', .NO_ERROR) ∧ FragmentHeaded b' ∧
      b'.chunkCount = 1 ∧ b'.bytes.length = sizeofIpv4Header := by
  obtain ⟨hmax, c, cs, hc, hlen⟩ := h
  have hadj : adjustChunks e b.chunk sizeofIpv4Header = ([c.resize e sizeofIpv4Header], 0) := by
    rw [hc, adjustChunks, if_neg (by decide), if_pos (by omega)]
    simp only [length_resize, Nat.sub_self, adjustChunks_zero]
  refine ⟨⟨[c.resize e sizeofIpv4Header], b.maxChunkCount⟩, ?_, ⟨hmax, _, _, rfl, ?_⟩, rfl, ?_⟩
  · unfold netBufferSetLength
    simp only [hadj, addChunks_zero]
  · exact length_resize _ _ _
  · show (flat [c.resize e sizeofIpv4Header]).length = _
    rw [flat_cons, flat_nil, List.append_nil]
    exact length_resize e c _

theorem FragmentHeaded.write {b : NetBuffer} (h : FragmentHeaded b) (off : Nat) (src : List UInt8) :
    FragmentHeaded (netBufferWrite b off src) := by
  obtain ⟨hmax, c, cs, hc, hlen⟩ := h
  have hlay : layout (netBufferWrite b off src).chunk = layout b.chunk := layout_writeChunks _ _ _
  rw [hc, layout_cons] at hlay
  obtain ⟨d, ds, hd, hdl, -⟩ := List.map_eq_cons_iff.mp hlay
  exact ⟨hmax, d, ds, hd, (congrArg Prod.fst hdl).trans hlen⟩

theorem FragmentHeaded.concat {b : NetBuffer} (h : FragmentHeaded b) (src : NetBuffer)
    (off n : Nat) :
    FragmentHeaded (netBufferConcat b src off n).1 := by
  obtain ⟨hmax, c, cs, hc, hlen⟩ := h
  unfold netBufferConcat
  split
  · exact ⟨hmax, c, cs, hc, hlen⟩
  · rename_i ds off' hskip
    exact ⟨hmax, c, cs ++ (concatChunks (b.maxChunkCount - b.chunkCount) ds off' n).1,
      congrArg (· ++ _) hc, hlen⟩

theorem store16_pair (be : Bool) (n : Nat) : ∃ a b, store16 be n = [a, b] := by
  cases be
  · exact ⟨_, _, rfl⟩
  · exact ⟨_, _, rfl⟩

theorem ipv4SendPacket_spec {b : NetBuffer} {room : List UInt8} (h : FragmentHeaded b)
    (hroom : room.length = sizeofIpv4Header) (hb : b.bytes = room ++ data) :
    ∃ b' packet, ipv4SendPacket o e fragOffset b sizeofIpv4Header =
      ({ e with tick := e.tick + 1 }, b', some packet, e.ipSend e.tick) ∧ FragmentHeaded b' ∧
      IsPacket o fragOffset data packet := by
  refine ⟨_, _, rfl, (h.write _ _).write _ _, ?_⟩
  rw [Nat.sub_self, Nat.sub_zero, Nat.zero_add, List.drop_zero, netBufferGetLength_eq, hb,
    List.length_append, hroom]
  generalize hchecksum : store16 o.be _ = checksum
  obtain ⟨x, y, hxy⟩ := store16_pair o.be (ipCalcChecksumEx o.be o.address
    (netBufferWrite b 0 (ipv4Header o.pseudoHeader o.id fragOffset
      (sizeofIpv4Header + data.length) o.ttl [0, 0])) 0 sizeofIpv4Header)
  obtain rfl : checksum = [x, y] := hchecksum.symm.trans hxy
  refine ⟨x, y, ?_⟩
  have hfirst : overlay (room ++ data) 0 (ipv4Header o.pseudoHeader o.id fragOffset
      (sizeofIpv4Header + data.length) o.ttl [0, 0]) = ipv4Header o.pseudoHeader o.id fragOffset
      (sizeofIpv4Header + data.length) o.ttl [0, 0] ++ data := by
    rw [overlay_append (by rw [length_ipv4Header, hroom, Nat.zero_add])]
    congr 1
    unfold overlay
    rw [List.take_of_length_le (by rw [length_ipv4Header, hroom]; exact Nat.le_refl _),
      splice_all (by rw [length_ipv4Header, hroom])]
  rw [netBufferWrite_overlay, netBufferWrite_overlay, hb, hfirst,
    overlay_append (show 10 + 2 ≤ sizeofIpv4Header by decide), overlay_checksum]

end Packets

/-! ## The pieces -/

/-- Fragments that follow each other from `a` to `b`. -/
def Adjoining : Nat → List Ipv4Fragment → Nat → Prop
  | a, [], b => a = b
  | a, f :: fs, b => f.dataFirst = a ∧ Adjoining f.last fs b

section Pieces

variable {o} {e : Env} {payload : List UInt8} {a b : Nat} {fs : List Ipv4Fragment}

theorem Adjoining.covers {a b : Nat} {fs : List Ipv4Fragment} (h : Adjoining a fs b) :
    ∀ k, a ≤ k → k < b → ∃ f ∈ fs, f.dataFirst ≤ k ∧ k < f.last := by
  induction fs generalizing a with
  | nil =>
    intro k h1 h2
    obtain rfl : a = b := h
    omega
  | cons f fs ih =>
    obtain ⟨hfirst, hrest⟩ := h
    intro k h1 h2
    by_cases hk : k < f.last
    · exact ⟨f, List.mem_cons_self, by omega, hk⟩
    · obtain ⟨g, hg, hgk⟩ := ih hrest k (by omega) h2
      exact ⟨g, List.mem_cons_of_mem _ hg, hgk⟩

/-- The packets that carry the bytes of a payload from `offset` on. -/
structure Ipv4Outgoing.Pieces (o : Ipv4Outgoing) (payload : List UInt8) (offset : Nat)
    (packets : List (List UInt8)) : Prop where
  consecutive : Adjoining offset (packets.map Ipv4Fragment.mk) payload.length
  slices : ∀ p ∈ packets, (Ipv4Fragment.mk p).SliceOf payload
  headers : ∀ p ∈ packets, (Ipv4Fragment.mk p).headerLength = sizeofIpv4Header
  fits : ∀ p ∈ packets, p.length ≤ o.linkMtu
  key : ∀ p ∈ packets, datagramKey p = o.key

theorem Ipv4Outgoing.Pieces.nil : o.Pieces payload payload.length [] :=
  ⟨rfl, nofun, nofun, nofun, nofun⟩

theorem flag_offset {n : Nat} (h : n < 0x2000) : IPV4_FLAG_MF ||| n = IPV4_FLAG_MF + n := by
  have := Nat.two_pow_add_eq_or_of_lt (show n < 2 ^ 13 from h) 1
  exact this.symm

/-- One packet more in front. -/
theorem Ipv4Outgoing.Pieces.cons {offset n fragOffset : Nat} {p : List UInt8}
    {packets : List (List UInt8)} (hp : IsPacket o fragOffset ((payload.drop offset).take n) p)
    (hoff : offset % 8 = 0) (hn : 0 < n) (hin : offset + n ≤ payload.length)
    (hlen : payload.length ≤ 65515) (hmtu : sizeofIpv4Header + n ≤ o.linkMtu)
    (hfrag : fragOffset = if offset + n = payload.length then offset / 8
      else IPV4_FLAG_MF ||| offset / 8)
    (hblock : offset + n ≠ payload.length → n % 8 = 0)
    (h : o.Pieces payload (offset + n) packets) : o.Pieces payload offset (p :: packets) := by
  have hdata : ((payload.drop offset).take n).length = n := by
    rw [List.length_take, List.length_drop]
    omega
  have hlength : (Ipv4Fragment.mk p).length = n := hp.length_eq.trans hdata
  have hvalue : fragOffset = if offset + n = payload.length then offset / 8
      else 0x2000 + offset / 8 := by
    rw [hfrag]
    split
    · rfl
    · exact flag_offset (by omega)
  have hoffset : (Ipv4Fragment.mk p).offset = fragOffset := by
    refine hp.offset_eq ?_
    rw [hvalue]
    split <;> omega
  have hfirst : (Ipv4Fragment.mk p).dataFirst = offset := by
    unfold Ipv4Fragment.dataFirst
    rw [hoffset, hvalue]
    split <;> omega
  have hlast : (Ipv4Fragment.mk p).last = offset + n := by
    unfold Ipv4Fragment.last
    rw [hfirst, hlength]
  have hmore : (Ipv4Fragment.mk p).moreFlag = true ↔ offset + n < payload.length := by
    unfold Ipv4Fragment.moreFlag
    rw [hoffset, hvalue, beq_iff_eq]
    split
    · constructor <;> intro hm <;> omega
    · constructor <;> intro hm <;> omega
  have hslice : (Ipv4Fragment.mk p).SliceOf payload := by
    refine ⟨by omega, by omega, fun k h1 h2 => ?_, by rw [hlast]; exact hmore, fun hm => ?_⟩
    · rw [hp.data_eq, hfirst, List.getElem?_take, if_pos (by omega), List.getElem?_drop]
      congr 1
      omega
    · have := hmore.mp hm
      rw [hlength]
      exact hblock (by omega)
  refine ⟨⟨hfirst, ?_⟩, ?_, ?_, ?_, ?_⟩
  · rw [hlast]
    exact h.consecutive
  · exact List.forall_mem_cons.mpr ⟨hslice, h.slices⟩
  · exact List.forall_mem_cons.mpr ⟨hp.headerLength, h.headers⟩
  · refine List.forall_mem_cons.mpr ⟨?_, h.fits⟩
    rw [hp.packet_length, hdata]
    exact hmtu
  · exact List.forall_mem_cons.mpr ⟨hp.key_eq, h.key⟩

/-- What the senders are promised: an MTU for 8 bytes of data, and a payload whose chunks fit beside
the header in the buffer of the fragments. -/
structure Ipv4Outgoing.Sendable (o : Ipv4Outgoing) (payload : List UInt8) : Prop where
  payload_eq : o.payload.bytes.drop o.payloadOffset = payload
  mtu : 28 ≤ o.linkMtu
  length : payload.length ≤ 65515
  chunks : 1 + o.payload.chunkCount ≤ MAX_CHUNK_COUNT

/-- Nothing that is sent is refused. -/
def Env.Sending (e : Env) : Prop := ∀ t, e.ipSend t = .NO_ERROR

theorem ipv4FragmentLoop_pieces (ho : o.Sendable payload) {maxFragmentSize : Nat}
    (hmax8 : maxFragmentSize % 8 = 0) (hmaxpos : 8 ≤ maxFragmentSize)
    (hmtu : sizeofIpv4Header + maxFragmentSize ≤ o.linkMtu) : ∀ (fuel : Nat) (e : Env)
    (fragment : NetBuffer) (offset : Nat) (sent : List (List UInt8)), e.Sending →
    FragmentHeaded fragment →
    offset ≤ payload.length → (offset % 8 = 0 ∨ offset = payload.length) →
    payload.length - offset < fuel →
    ∃ e' packets, ipv4FragmentLoop o payload.length maxFragmentSize sizeofIpv4Header fuel e fragment
      offset sent = some (e', sent ++ packets, .NO_ERROR) ∧ o.Pieces payload offset packets := by
  intro fuel
  induction fuel with
  | zero =>
    intro e fragment offset sent _ _ _ _ hfuel
    omega
  | succ fuel ih =>
    intro e fragment offset sent hsend hhead hle h8 hfuel
    unfold ipv4FragmentLoop
    by_cases hlt : offset < payload.length
    case neg =>
      obtain rfl : offset = payload.length := by omega
      rw [if_neg (Nat.lt_irrefl _)]
      exact ⟨e, [], by rw [List.append_nil], .nil⟩
    rw [if_pos hlt]
    obtain ⟨b1, hflush, hhead1, hcount1, hlen1⟩ := hhead.flush (e := e)
    rw [hflush]
    simp only
    generalize hn : (if payload.length - offset ≤ maxFragmentSize then payload.length - offset
      else maxFragmentSize) = n
    generalize hfrag : (if payload.length - offset ≤ maxFragmentSize then offset / 8
      else IPV4_FLAG_MF ||| offset / 8) = fragOffset
    have hplen := congrArg List.length ho.payload_eq
    rw [List.length_drop] at hplen
    have hnle : n ≤ payload.length - offset ∧ 0 < n ∧ n ≤ maxFragmentSize ∧
        (payload.length - offset ≤ maxFragmentSize ↔ offset + n = payload.length) := by
      split at hn <;> omega
    obtain ⟨b2, hconcat, -, -⟩ := @netBufferConcat_ok b1 o.payload (o.payloadOffset + offset) n
      (by rw [hcount1, hhead1.1]; exact ho.chunks) (by omega) (by omega)
    have hhead2 := hhead1.concat o.payload (o.payloadOffset + offset) n
    obtain ⟨hbytes, -⟩ := netBufferConcat_bytes hconcat
    rw [hconcat] at hhead2 ⊢
    rw [← List.drop_drop, ho.payload_eq] at hbytes
    obtain ⟨b3, p, hpacket, hhead3, hp⟩ :=
      @ipv4SendPacket_spec o e _ fragOffset b2 b1.bytes hhead2 hlen1 hbytes
    rw [hpacket, hsend e.tick]
    obtain ⟨e', packets, hloop, hpieces⟩ := ih { e with tick := e.tick + 1 } b3 (offset + n)
      (sent ++ [p]) hsend hhead3 (by omega) (by split at hn <;> omega) (by omega)
    refine ⟨e', p :: packets, ?_, ?_⟩
    · simp only
      rw [Option.toList_some, hloop, List.append_assoc]
      rfl
    · refine hpieces.cons hp (by omega) hnle.2.1 (by omega) ho.length (by omega) ?_ ?_
      · rw [← hfrag]
        exact if_congr hnle.2.2.2 rfl rfl
      · intro hne
        split at hn <;> omega

theorem Ipv4Outgoing.Pieces.accepted {packets : List (List UInt8)} {p : List UInt8}
    (h : o.Pieces payload 0 packets) (hlen : payload.length ≤ 65515)
    (hlarge : o.linkMtu < sizeofIpv4Header + payload.length) (hp : p ∈ packets) :
    (Ipv4Fragment.mk p).Accepted := by
  have hslice := h.slices p hp
  have hhead := h.headers p hp
  have hfits := h.fits p hp
  have hpos := hslice.nonempty
  have hin := hslice.inside
  have hl : (Ipv4Fragment.mk p).length = p.length - sizeofIpv4Header := by
    rw [← hhead]
    rfl
  have hlast : (Ipv4Fragment.mk p).last = (Ipv4Fragment.mk p).dataFirst +
    (Ipv4Fragment.mk p).length := rfl
  have hheader : sizeofIpv4Header = 20 := rfl
  refine ⟨?_, ?_, ?_, ?_⟩
  · unfold Ipv4Fragment.headerLength at hhead
    omega
  · rw [hhead]
    show _ ≤ p.length
    omega
  · show p.length < 65536
    omega
  · by_contra hcon
    rw [not_or, not_not] at hcon
    have := hslice.more.mpr (by omega)
    exact hcon.1 this

theorem ipv4SendDatagram_pieces (ho : o.Sendable payload) (hsend : e.Sending) (he : e.Granting)
    (hlarge : o.linkMtu < sizeofIpv4Header + payload.length) :
    ∃ e' packets, ipv4SendDatagram o e = some (e', packets, .NO_ERROR) ∧
      o.Pieces payload 0 packets := by
  have hplen : netBufferGetLength o.payload - o.payloadOffset = payload.length := by
    rw [netBufferGetLength_eq, ← ho.payload_eq, List.length_drop]
  have hmtu := ho.mtu
  have hheader : sizeofIpv4Header = 20 := rfl
  have halloc : ipAllocBuffer e (List.replicate sizeofIpv4Header 0) =
      ({ e with tick := e.tick + 1 },
        some ⟨[⟨List.replicate sizeofIpv4Header 0, 0⟩], MAX_CHUNK_COUNT⟩) := by
    unfold ipAllocBuffer memPoolAlloc
    simp only [he e.tick, if_true]
  unfold ipv4SendDatagram
  rw [hplen, if_neg (by omega)]
  unfold ipv4FragmentDatagram
  rw [hplen, halloc]
  exact ipv4FragmentLoop_pieces ho (by omega) (by omega) (by omega) _
    { e with tick := e.tick + 1 } _ 0 [] hsend
    ⟨rfl, _, _, rfl, by rw [ChunkDesc.length, List.length_replicate]⟩ (Nat.zero_le _) (.inl rfl)
    (by omega)

/-- Twelve bytes for a link that takes eight of them at once. -/
def twelveBytes : Ipv4Outgoing where
  be := false
  address := fun _ => 0
  linkMtu := 28
  pseudoHeader := ⟨0x0A000001, 0x0A000002, 17⟩
  id := 1
  ttl := 0
  payload := ⟨[⟨List.replicate 20 0, 0⟩, ⟨smallPayload, 0⟩], MAX_CHUNK_COUNT⟩
  payloadOffset := 20

end Pieces

end Cyclone
