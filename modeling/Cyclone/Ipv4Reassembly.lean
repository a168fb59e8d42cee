import Cyclone.Ipv4Holes
import Cyclone.Packed

/-!
# Cyclone.Ipv4Reassembly

What the IPv4 reassembly queue holds and delivers.

* `Filling`: the invariant of an entry: its holes are what the fragments received leave missing, and
  the other bytes are those of the last fragment that covers them.
* `Filling.first`, `Filling.grow`, `Filling.fill`: what the parts of `ipv4ReassembleDatagram` do.
* `holes_ordered`, `delivered_received`: over every run of the queue.
-/

namespace Cyclone

open NetBuffer Serial Links Ipv6FragDesc Slice

/-! ## What was received -/

namespace Ipv4Fragment

def slice (f : Ipv4Fragment) : Slice := ⟨f.dataFirst, f.length, f.moreFlag⟩

def last (f : Ipv4Fragment) : Nat := f.dataFirst + f.length

/-- The end of the fragment does not wrap. -/
def InRange (f : Ipv4Fragment) : Prop := f.last ≤ IPV4_INFINITY

theorem dataFirst_spec (f : Ipv4Fragment) : f.dataFirst % 8 = 0 ∧ f.dataFirst < IPV4_INFINITY := by
  unfold dataFirst IPV4_INFINITY
  omega

theorem dataLast_eq {f : Ipv4Fragment} (h : f.InRange) : f.dataLast = f.last := by
  unfold InRange IPV4_INFINITY last at h
  unfold dataLast
  rw [u16_of_lt (show f.length < 65536 by omega), u16_of_lt (by omega)]
  rfl

theorem length_data (f : Ipv4Fragment) : f.data.length = f.length := List.length_drop

theorem length_header {f : Ipv4Fragment} (h : f.Accepted) :
    f.header.length = f.headerLength ∧ 20 ≤ f.headerLength ∧ f.headerLength ≤ 60 := by
  have hw := h.words
  have hh := h.header
  refine ⟨by rw [header, List.length_take]; omega, ?_, ?_⟩
  · unfold headerLength
    omega
  · unfold headerLength
    omega

end Ipv4Fragment

/-- The byte at a position, from the last fragment that covers it. -/
def contentAt (received : List Ipv4Fragment) (k : Nat) : Option UInt8 :=
  received.foldl (fun byte f =>
    if f.dataFirst ≤ k ∧ k < f.last then f.data[k - f.dataFirst]? else byte) none

/-- The header of the datagram: of the last fragment at its start, before that of the first one. -/
def headerOf (received : List Ipv4Fragment) : List UInt8 :=
  received.foldl (fun header f => if f.dataFirst = 0 ∨ header = [] then f.header else header) []

section Received

variable {received : List Ipv4Fragment} {f : Ipv4Fragment} {k : Nat} {b : UInt8}

@[simp] theorem contentAt_nil (k : Nat) : contentAt [] k = none := rfl

theorem contentAt_append (received : List Ipv4Fragment) (f : Ipv4Fragment) (k : Nat) :
    contentAt (received ++ [f]) k =
      if f.dataFirst ≤ k ∧ k < f.last then f.data[k - f.dataFirst]? else contentAt received k := by
  unfold contentAt
  rw [List.foldl_append]
  rfl

theorem headerOf_append (received : List Ipv4Fragment) (f : Ipv4Fragment) :
    headerOf (received ++ [f]) =
      if f.dataFirst = 0 ∨ headerOf received = [] then f.header else headerOf received := by
  unfold headerOf
  rw [List.foldl_append]
  rfl

theorem headerOf_mem (h : received ≠ []) : ∃ f ∈ received, headerOf received = f.header := by
  induction received using List.reverseRecOn with
  | nil => exact absurd rfl h
  | append_singleton received f ih =>
    rw [headerOf_append]
    split
    · exact ⟨f, by simp, rfl⟩
    · rename_i hz
      have hne : received ≠ [] := by
        rintro rfl
        exact hz (.inr rfl)
      obtain ⟨g, hg, heq⟩ := ih hne
      exact ⟨g, List.mem_append_left _ hg, heq⟩

/-- A byte of the datagram is one of a fragment that covers it. -/
theorem contentAt_mem (h : contentAt received k = some b) :
    ∃ f ∈ received, f.dataFirst ≤ k ∧ k < f.last ∧ f.data[k - f.dataFirst]? = some b := by
  induction received using List.reverseRecOn with
  | nil => cases h
  | append_singleton received f ih =>
    rw [contentAt_append] at h
    split at h
    · rename_i hin
      exact ⟨f, by simp, hin.1, hin.2, h⟩
    · obtain ⟨g, hg, h1⟩ := ih h
      exact ⟨g, List.mem_append_left _ hg, h1⟩

/-- Every position that is covered has a byte. -/
theorem contentAt_covered (hf : f ∈ received) (hk : f.dataFirst ≤ k ∧ k < f.last) :
    ∃ b, contentAt received k = some b := by
  induction received using List.reverseRecOn with
  | nil => cases hf
  | append_singleton received g ih =>
    rw [contentAt_append]
    split
    · rename_i hin
      refine ⟨_, List.getElem?_eq_getElem ?_⟩
      unfold Ipv4Fragment.last at hin
      rw [g.length_data]
      omega
    · rename_i hin
      rcases List.mem_append.mp hf with hf | hf
      · exact ih hf
      · obtain rfl := List.mem_singleton.mp hf
        exact absurd hk hin

end Received

/-! ## Datagrams -/

/-- What identifies a datagram: addresses, identification, protocol. -/
def datagramKey (header : List UInt8) : List UInt8 × List UInt8 × List UInt8 × UInt8 :=
  ((header.drop 12).take 4, (header.drop 16).take 4, (header.drop 4).take 2, header.getD 9 0)

theorem ipv4SameDatagram_iff (datagram packet : List UInt8) :
    ipv4SameDatagram datagram packet = true ↔ datagramKey datagram = datagramKey packet := by
  unfold ipv4SameDatagram datagramKey
  simp only [Bool.and_eq_true, beq_iff_eq, Prod.mk.injEq, and_assoc]

/-- Only the fixed part of a header counts. -/
theorem datagramKey_take {xs : List UInt8} {n : Nat} (h : 20 ≤ n) :
    datagramKey (xs.take n) = datagramKey xs := by
  have hslice : ∀ i j, i + j ≤ n → ((xs.take n).drop i).take j = (xs.drop i).take j := by
    intro i j hij
    rw [List.drop_take, List.take_take, Nat.min_eq_left (by omega)]
  unfold datagramKey
  rw [hslice 12 4 (by omega), hslice 16 4 (by omega), hslice 4 2 (by omega)]
  simp only [List.getD_eq_getElem?_getD, List.getElem?_take, if_pos (show 9 < n by omega)]

/-! ## Entries -/

/-- The bytes of the header. -/
def front (frag : Ipv4FragDesc) : List UInt8 := frag.buffer.bytes.take frag.unfragPartLength

/-- The holes of an entry are what the fragments received leave missing, and the rest is what they
carried. -/
structure Filling (be : Bool) (frag : Ipv4FragDesc) (header : List UInt8)
    (received : List Ipv4Fragment) (hs : List (Nat × Nat)) : Prop where
  chain : Chain be frag [] hs
  holes : HoleList hs
  increasing : Increasing hs
  packed : Packed frag.buffer.chunk frag.unfragPartLength
  room : frag.buffer.maxChunkCount = ipv4ReassemblyChunks
  length : frag.region.length = frag.fragPartLength + 6
  bounded : frag.unfragPartLength + frag.fragPartLength ≤ IPV4_MAX_FRAG_DATAGRAM_SIZE
  minimal : 20 ≤ frag.unfragPartLength
  front_eq : front frag = header
  key : ∀ f ∈ received, datagramKey f.packet = datagramKey header
  apart : ∀ h ∈ hs, ∀ f ∈ received, Apart h (f.dataFirst, f.last)
  missing : ∀ k, k < IPV4_INFINITY → Missing (received.map Ipv4Fragment.slice) k →
    ∃ h ∈ hs, h.1 ≤ k ∧ k < h.2
  starts : ∀ h ∈ hs, h.1 = 0 ∨ ∃ f ∈ received, f.moreFlag = true ∧ h.1 = f.last
  part : ∀ f ∈ received, f.last ≤ frag.fragPartLength
  content : ∀ k b, contentAt received k = some b → frag.region[k]? = some b

section Entries

variable {be : Bool} {frag frag' : Ipv4FragDesc} {header : List UInt8} {e e' : Env}
  {received : List Ipv4Fragment} {hs : List (Nat × Nat)} {f : Ipv4Fragment}

theorem take_overlay {xs ys : List UInt8} {off n : Nat} (h : n ≤ off) :
    (overlay xs off ys).take n = xs.take n := by
  refine List.ext_getElem? fun i => ?_
  rw [List.getElem?_take, List.getElem?_take]
  split
  · rw [overlay_getElem?, if_neg (by omega)]
  · rfl

/-- A header written to the first chunk. -/
theorem take_overlay_zero {xs ys : List UInt8} (h : ys.length ≤ xs.length) :
    (overlay xs 0 ys).take ys.length = ys := by
  refine List.ext_getElem? fun i => ?_
  rw [List.getElem?_take, overlay_getElem?]
  split
  · rw [if_pos (by omega), Nat.sub_zero]
  · rw [List.getElem?_eq_none (by omega)]

/-- The loop over the holes does not write to the header. -/
theorem front_store (frag : Ipv4FragDesc) (pos n : Nat) :
    front (frag.store be pos n) = front frag := by
  show (netBufferWrite frag.buffer (frag.unfragPartLength + pos) _).bytes.take
    frag.unfragPartLength = _
  rw [netBufferWrite_overlay, take_overlay (by omega)]
  rfl

theorem front_setNext (frag : Ipv4FragDesc) (prev : Option Nat) (v : Nat) :
    front (frag.setNext be prev v) = front frag := by
  cases prev with
  | none => rfl
  | some q => exact front_store frag _ _

theorem front_insertHole {prev r : Option Nat} {x last : Nat}
    (h : insertHole be frag prev x last = some (frag', r)) : front frag' = front frag := by
  unfold insertHole at h
  obtain ⟨hole, -, heq⟩ := Option.map_eq_some_iff.mp h
  simp only [Prod.mk.injEq] at heq
  obtain ⟨rfl, -⟩ := heq
  rw [front_setNext, front_store, front_store, front_store]

theorem front_splitHole {prev r : Option Nat} {moreFlag : Bool} {a b x y : Nat}
    (h : splitHole be moreFlag a b frag prev x y = some (frag', r)) : front frag' = front frag := by
  unfold splitHole at h
  obtain ⟨⟨frag₁, prev₁⟩, h1, h2⟩ := Option.bind_eq_some_iff.mp h
  have hfirst : front frag₁ = front frag := by
    split at h1
    · exact front_insertHole h1
    · cases h1
      rfl
  simp only at h2
  split at h2
  · rw [front_insertHole h2, hfirst]
  · cases h2
    exact hfirst

theorem front_holeLoop {moreFlag : Bool} {a b : Nat} : ∀ (fuel : Nat) (frag : Ipv4FragDesc)
    (prev : Option Nat), ipv4HoleLoop be moreFlag a b fuel frag prev = some frag' →
    front frag' = front frag := by
  intro fuel
  induction fuel with
  | zero =>
    intro frag prev h
    cases h
  | succ fuel ih =>
    intro frag prev h
    unfold ipv4HoleLoop at h
    split at h
    · cases h
      rfl
    · simp only at h
      split at h
      · split at h
        · cases h
        · rename_i frag₁ prev₁ hsplit
          rw [ih frag₁ prev₁ h, front_splitHole hsplit, front_setNext]
      · exact ih frag _ h

theorem Filling.stacked (h : Filling be frag header received hs) :
    Stacked frag.buffer.chunk frag.unfragPartLength := h.packed.stacked

theorem Filling.length_eq (h : Filling be frag header received hs) :
    frag.buffer.bytes.length = frag.unfragPartLength + frag.region.length := by
  have := h.stacked.length_le
  unfold region
  rw [List.length_drop]
  omega

theorem Filling.region_lt (h : Filling be frag header received hs) :
    frag.region.length < 65536 := by
  have h1 := h.bounded
  have h2 := h.length
  unfold IPV4_MAX_FRAG_DATAGRAM_SIZE at h1
  omega

/-- A list of holes has fewer descriptors than the loop has turns. -/
theorem Filling.length_lt (h : Filling be frag header received hs) : hs.length < holeTurns := by
  have hnd := h.chain.nodup
  rw [List.nil_append] at hnd
  have hsub : hs.map Prod.fst ⊆ List.range 65535 := by
    intro p hp
    obtain ⟨g, hg, rfl⟩ := List.mem_map.mp hp
    have hspot := ((h.chain.holds g hg).1).2
    have hlt := h.region_lt
    exact List.mem_range.mpr (by omega)
  have hle := (List.subperm_of_subset hnd hsub).length_le
  rw [List.length_map, List.length_range] at hle
  unfold holeTurns
  omega

/-- Positions that are covered are outside of the holes. -/
theorem Filling.outside (h : Filling be frag header received hs) {k : Nat} {b : UInt8}
    (hk : contentAt received k = some b) : Outside hs k := by
  obtain ⟨f, hf, h1, h2, -⟩ := contentAt_mem hk
  intro g hg hin
  rcases h.apart g hg f hf with h3 | h3
  · simp only at h3
    omega
  · simp only at h3
    omega

/-! ## The first fragment -/

theorem Filling.first (h : Filling be frag header received hs) (hacc : f.Accepted)
    (hkey : datagramKey f.packet = datagramKey header)
    (hf : ipv4FirstFragment e f frag = some frag') :
    Filling be frag' f.header received hs ∧ frag'.fragPartLength = frag.fragPartLength := by
  obtain ⟨hlen, hmin, hmax60⟩ := f.length_header hacc
  have hpool : NET_MEM_POOL_BUFFER_SIZE = 1536 := rfl
  unfold ipv4FirstFragment at hf
  split at hf
  · cases hf
  rename_i hmax
  split at hf
  · cases hf
  rename_i hsize
  obtain ⟨hst, hdrop⟩ := h.stacked.resize (e := e) (Nat.le_of_not_lt hsize)
  have hpack := h.packed.setFirst (e := e) (n := f.headerLength) (by omega)
  have hroom : (setFirstChunk e frag.buffer f.headerLength).maxChunkCount = _ := h.room
  generalize setFirstChunk e frag.buffer f.headerLength = b1 at hf hst hdrop hpack hroom
  have hle := hst.length_le
  have hpack2 : Packed (netBufferWrite b1 0 f.header).chunk f.headerLength :=
    hpack.congr (layout_writeChunks _ _ _)
  cases hf
  have hregion : region { frag with
      unfragPartLength := f.headerLength
      buffer := netBufferWrite b1 0 f.header } = frag.region := by
    show (netBufferWrite b1 0 f.header).bytes.drop f.headerLength = _
    rw [netBufferWrite_overlay, drop_overlay (by omega), hdrop]
    rfl
  have hfront : front { frag with
      unfragPartLength := f.headerLength, buffer := netBufferWrite b1 0 f.header } = f.header := by
    show (netBufferWrite b1 0 f.header).bytes.take f.headerLength = _
    rw [netBufferWrite_overlay, ← hlen]
    exact take_overlay_zero (by omega)
  have hkey' : datagramKey f.header = datagramKey header := by
    rw [← hkey]
    exact datagramKey_take hmin
  refine ⟨⟨h.chain.congr rfl fun g hg => ?_, h.holes, h.increasing, hpack2, hroom, ?_, ?_, hmin,
    hfront, ?_, h.apart, h.missing, h.starts, h.part, ?_⟩, rfl⟩
  · rw [hregion]
    exact ⟨((h.chain.holds g hg).1).2, fun _ _ => rfl⟩
  · rw [hregion]
    exact h.length
  · exact Nat.le_of_not_lt hmax
  · intro g hg
    rw [hkey']
    exact h.key g hg
  · rw [hregion]
    exact h.content

theorem Filling.first_accepted (h : Filling be frag header received hs) (hacc : f.Accepted)
    (hmax : f.headerLength + frag.fragPartLength ≤ IPV4_MAX_FRAG_DATAGRAM_SIZE) :
    ipv4FirstFragment e f frag ≠ none := by
  obtain ⟨-, -, hmax60⟩ := f.length_header hacc
  obtain ⟨-, ls, hl, -⟩ := h.packed
  obtain ⟨c, cs, hc, hcl, -⟩ := List.map_eq_cons_iff.mp hl
  have hsize : (frag.buffer.chunk.head?.map ChunkDesc.size).getD 0 = NET_MEM_POOL_BUFFER_SIZE := by
    rw [hc]
    exact congrArg Prod.snd hcl
  have hpool : NET_MEM_POOL_BUFFER_SIZE = 1536 := rfl
  unfold ipv4FirstFragment
  rw [if_neg (by omega), if_neg (by omega)]
  exact Option.some_ne_none _

/-! ## Growing and filling -/

theorem Filling.header_length (h : Filling be frag header received hs) :
    header.length = frag.unfragPartLength := by
  have := h.length_eq
  rw [← h.front_eq, front, List.length_take]
  omega

theorem Filling.grow {b : Nat} (h : Filling be frag header received hs)
    (hg : ipv4GrowFrag e b frag = (e', some frag')) :
    Filling be frag' header received hs ∧ frag'.fragPartLength = max frag.fragPartLength b := by
  unfold ipv4GrowFrag at hg
  split at hg
  case isFalse hle =>
    cases hg
    exact ⟨h, by omega⟩
  rename_i hlt
  split at hg
  · cases hg
  rename_i hmax
  split at hg
  · rename_i e1 buf hset
    cases hg
    have hlen := h.length
    obtain ⟨hc, hst, hrlen, hsame⟩ := h.chain.grow h.stacked (by omega) hset
    have hblen := h.length_eq
    obtain ⟨hpack, hroom⟩ := h.packed.setLength (by unfold sizeofIpv4HoleDesc; omega)
      (by unfold sizeofIpv4HoleDesc; omega) hset
    have hpre := netBufferSetLength_keeps h.stacked.fits hset
    rw [List.take_of_length_le (by unfold sizeofIpv4HoleDesc; omega)] at hpre
    obtain ⟨t, ht⟩ := hpre
    refine ⟨⟨hc, h.holes, h.increasing, hpack, hroom.trans h.room, hrlen,
      by show frag.unfragPartLength + b ≤ _; omega, h.minimal, ?_, h.key, h.apart, h.missing,
      h.starts, fun f hf => ?_, fun k c hk => ?_⟩, ?_⟩
    · rw [← h.front_eq]
      show buf.bytes.take frag.unfragPartLength = frag.buffer.bytes.take frag.unfragPartLength
      rw [← ht, List.take_append_of_le_length (by omega)]
    · have := h.part f hf
      show f.last ≤ b
      omega
    · have hold := h.content k c hk
      have hk' : k < frag.region.length := (List.getElem?_eq_some_iff.mp hold).1
      exact (hsame k hk').trans hold
    · show b = _
      omega
  · cases hg

theorem Filling.grow_accepted {b : Nat} (h : Filling be frag header received hs) (he : e.Granting)
    (hmax : frag.unfragPartLength + b ≤ IPV4_MAX_FRAG_DATAGRAM_SIZE) :
    (ipv4GrowFrag e b frag).2 ≠ none := by
  have hlen := h.length
  have hblen := h.length_eq
  unfold ipv4GrowFrag
  split
  case isFalse => exact Option.some_ne_none _
  rename_i hlt
  rw [if_neg (by omega)]
  have hok : (netBufferSetLength e frag.buffer
      (frag.unfragPartLength + b + sizeofIpv4HoleDesc)).2.2 = .NO_ERROR := by
    refine h.packed.grows he (by unfold sizeofIpv4HoleDesc; omega)
      (by unfold sizeofIpv4HoleDesc; omega) ?_
    rw [h.room]
    unfold ipv4ReassemblyChunks NET_MEM_POOL_BUFFER_SIZE sizeofIpv4HoleDesc
    unfold IPV4_MAX_FRAG_DATAGRAM_SIZE at hmax ⊢
    omega
  generalize netBufferSetLength e frag.buffer
    (frag.unfragPartLength + b + sizeofIpv4HoleDesc) = r at hok
  obtain ⟨e', b', err⟩ := r
  obtain rfl : err = .NO_ERROR := hok
  exact Option.some_ne_none _

/-- The data goes to its place. -/
theorem region_copyData (f : Ipv4Fragment) {frag : Ipv4FragDesc}
    (hlen : frag.buffer.bytes.length = frag.unfragPartLength + frag.region.length)
    (hle : f.last ≤ frag.region.length) (k : Nat) : (ipv4CopyData f frag).region[k]? =
      if f.dataFirst ≤ k ∧ k < f.last then f.data[k - f.dataFirst]? else frag.region[k]? := by
  unfold Ipv4Fragment.last at hle ⊢
  show ((netBufferWrite frag.buffer (frag.unfragPartLength + f.dataFirst) f.data).bytes.drop
    frag.unfragPartLength)[k]? = _
  rw [List.getElem?_drop, netBufferWrite_overlay, overlay_getElem?, f.length_data]
  by_cases hin : f.dataFirst ≤ k ∧ k < f.dataFirst + f.length
  · rw [if_pos hin, if_pos (by omega)]
    congr 1
    omega
  · rw [if_neg hin, if_neg (by omega)]
    exact List.getElem?_drop.symm

theorem Filling.fill (h : Filling be frag header received hs)
    (hv : f.moreFlag = true → f.length % 8 = 0) (hr : f.InRange)
    (hpart : f.last ≤ frag.fragPartLength) (hkey : datagramKey f.packet = datagramKey header) :
    ∃ frag', ipv4HoleLoop be f.moreFlag f.dataFirst f.dataLast holeTurns frag none = some frag' ∧
      Filling be (ipv4CopyData f frag') header (received ++ [f])
        (trimHoles f.moreFlag f.dataFirst f.last hs) ∧
      (ipv4CopyData f frag').fragPartLength = frag.fragPartLength := by
  obtain ⟨ha8, halt⟩ := f.dataFirst_spec
  have hfl : f.last = f.dataFirst + f.length := rfl
  have hlen := h.length
  have hspot : hs ≠ [] → f.moreFlag = true → frag.Spot f.last := by
    intro _ hm
    have h8 := hv hm
    unfold Spot
    omega
  obtain ⟨frag', hloop, hk, hc, hholes, hframe⟩ := @ipv4HoleLoop_chain be f.moreFlag f.dataFirst
    f.last hs [] frag holeTurns h.chain h.holes h.region_lt ha8 (by omega) hspot h.length_lt
  rw [List.nil_append] at hc hholes
  rw [List.nil_append] at hframe
  rw [Ipv4Fragment.dataLast_eq hr]
  have hpack : Packed frag'.buffer.chunk frag'.unfragPartLength := by
    rw [hk.unfrag]
    exact h.packed.congr hk.chunks
  have hrlen := hk.length
  have hblen : frag'.buffer.bytes.length = frag'.unfragPartLength + frag'.region.length := by
    have := hpack.stacked.length_le
    unfold region
    rw [List.length_drop]
    omega
  have hcopy := region_copyData f hblen (by omega)
  have hclen : (ipv4CopyData f frag').region.length = frag'.region.length := by
    unfold region ipv4CopyData
    rw [List.length_drop, netBufferWrite_overlay, length_overlay, ← List.length_drop]
  refine ⟨frag', hloop, ⟨hc.rewind.congr rfl fun g hg => ?_, hholes,
    h.increasing.trim (by omega), hpack.congr (layout_writeChunks _ _ _), hk.room.trans h.room, ?_,
    ?_, ?_, ?_, ?_, ?_, ?_, ?_, ?_, ?_⟩, hk.part⟩
  · -- the descriptor lies in its hole, which the data does not touch
    have hgs := (hc.holds g (by simpa using hg)).1
    have hroom := hholes.room hg hgs
    obtain ⟨-, -, -, -, hap, -⟩ := trim_sub hg
    refine ⟨by rw [hclen]; exact hgs.2, fun k hk6 => ?_⟩
    rw [hcopy, if_neg]
    rcases hap with h1 | h1
    · simp only at h1
      omega
    · simp only at h1
      omega
  · rw [hclen, hrlen]
    show _ = frag'.fragPartLength + 6
    rw [hk.part]
    exact hlen
  · show frag'.unfragPartLength + frag'.fragPartLength ≤ _
    rw [hk.unfrag, hk.part]
    exact h.bounded
  · show 20 ≤ frag'.unfragPartLength
    rw [hk.unfrag]
    exact h.minimal
  · rw [← h.front_eq, ← front_holeLoop _ _ _ hloop]
    show (netBufferWrite frag'.buffer (frag'.unfragPartLength + f.dataFirst) f.data).bytes.take
      frag'.unfragPartLength = _
    rw [netBufferWrite_overlay, take_overlay (by omega)]
    rfl
  · intro g hg
    rcases List.mem_append.mp hg with hg | hg
    · exact h.key g hg
    · obtain rfl := List.mem_singleton.mp hg
      exact hkey
  · intro g hg r hr
    obtain ⟨h', hh', h1, h2, hap, -⟩ := trim_sub hg
    rcases List.mem_append.mp hr with hr | hr
    · rcases h.apart h' hh' r hr with h3 | h3
      · exact .inl (by simp only at h3 ⊢; omega)
      · exact .inr (by simp only at h3 ⊢; omega)
    · obtain rfl := List.mem_singleton.mp hr
      exact hap
  · intro k hk hm
    have hold : Missing (received.map Ipv4Fragment.slice) k := fun s hs =>
      hm s (by rw [List.map_append]; exact List.mem_append_left _ hs)
    obtain ⟨hnc, hnm⟩ := hm f.slice (by simp)
    refine trim_covers (h.missing k hk hold) ?_
    by_cases hka : k < f.dataFirst
    · exact .inl hka
    · have hkb : f.last ≤ k := by
        by_contra hlt
        exact hnc ⟨by show f.dataFirst ≤ k; omega, by show k < f.last; omega⟩
      refine .inr ⟨hkb, ?_⟩
      by_contra hmf
      have hlast : f.moreFlag = false := by simpa using hmf
      have hlt : k < f.last := hnm hlast
      omega
  · intro g hg
    obtain ⟨h', hh', -, -, -, hstart⟩ := trim_sub hg
    rcases hstart with hstart | ⟨hstart, hm⟩
    · rw [hstart]
      rcases h.starts h' hh' with h0 | ⟨r, hr, hmr, hlast⟩
      · exact .inl h0
      · exact .inr ⟨r, List.mem_append_left _ hr, hmr, hlast⟩
    · exact .inr ⟨f, by simp, hm, hstart⟩
  · intro g hg
    show g.last ≤ frag'.fragPartLength
    rw [hk.part]
    rcases List.mem_append.mp hg with hg | hg
    · exact h.part g hg
    · obtain rfl := List.mem_singleton.mp hg
      exact hpart
  · intro k b hkb
    rw [hcopy]
    rw [contentAt_append] at hkb
    split at hkb
    · rename_i hin
      rw [if_pos hin]
      exact hkb
    · rename_i hin
      rw [if_neg hin, hframe k (h.outside hkb)]
      exact h.content k b hkb

/-! ## New entries -/

theorem filling_create {b : NetBuffer} (hacc : f.Accepted) (hu : frag.inUse = false)
    (hs : netBufferSetLength e { frag.buffer with maxChunkCount := ipv4ReassemblyChunks }
      (NET_MEM_POOL_BUFFER_SIZE + sizeofIpv4HoleDesc) = (e', b, .NO_ERROR)) :
    Filling be (ipv4CreateFrag be e' f frag b) f.header [] [(0, IPV4_INFINITY)] ∧
      (ipv4CreateFrag be e' f frag b).fragPartLength = 0 := by
  obtain ⟨hlen, hmin, hmax⟩ := f.length_header hacc
  have hlay := layout_taken (by decide) rfl hu hs f.headerLength
  have hlay0 : layout (netBufferWrite (setFirstChunk e' b f.headerLength) 0 f.header).chunk = _ :=
    (layout_writeChunks _ _ _).trans hlay
  have hpool : NET_MEM_POOL_BUFFER_SIZE = 1536 := rfl
  obtain ⟨hc, hholes, -, hk, hreg⟩ := @chain_create be
    { frag with
      buffer := netBufferWrite (setFirstChunk e' b f.headerLength) 0 f.header
      unfragPartLength := f.headerLength
      fragPartLength := 0
      timestamp := osGetSystemTime e'
      firstHole := 0 } _ _ hlay0 (by omega) rfl rfl rfl
  have hu3 : (ipv4CreateFrag be e' f frag b).unfragPartLength = f.headerLength := hk.unfrag
  have hp3 : (ipv4CreateFrag be e' f frag b).fragPartLength = 0 := hk.part
  have hle : f.headerLength ≤ (setFirstChunk e' b f.headerLength).bytes.length := by
    rw [← netBufferGetLength_eq]
    have hsum : netBufferGetLength (setFirstChunk e' b f.headerLength) =
        ((layout (setFirstChunk e' b f.headerLength).chunk).map Prod.fst).sum := by
      simp only [netBufferGetLength, layout, List.map_map]
      rfl
    rw [hsum, hlay]
    simp
  have hfront : front (ipv4CreateFrag be e' f frag b) = f.header := by
    unfold ipv4CreateFrag
    simp only
    rw [front_store, front_store, front_store]
    show (netBufferWrite (setFirstChunk e' b f.headerLength) 0 f.header).bytes.take
      f.headerLength = _
    have htake := take_overlay_zero (show f.header.length ≤ _ from hlen ▸ hle)
    rwa [hlen, ← netBufferWrite_overlay] at htake
  have hroom : (ipv4CreateFrag be e' f frag b).buffer.maxChunkCount = ipv4ReassemblyChunks :=
    hk.room.trans (congrArg (fun r => r.2.1.maxChunkCount) hs).symm
  refine ⟨⟨hc, hholes, List.pairwise_singleton _ _, ?_, hroom, ?_, ?_, ?_, hfront, ?_, ?_, ?_, ?_,
    ?_, ?_⟩, hp3⟩
  · refine ⟨by omega, [(6, NET_MEM_POOL_BUFFER_SIZE)], ?_, .last (by decide)⟩
    rw [hu3]
    exact hk.chunks.trans hlay0
  · rw [hp3]
    exact hreg
  · rw [hu3, hp3]
    unfold IPV4_MAX_FRAG_DATAGRAM_SIZE
    omega
  · rw [hu3]
    exact hmin
  · exact fun f hf => (List.not_mem_nil hf).elim
  · exact fun _ _ f hf => (List.not_mem_nil hf).elim
  · exact fun k hk _ => ⟨(0, IPV4_INFINITY), by simp, Nat.zero_le _, hk⟩
  · intro h hh
    obtain rfl := List.mem_singleton.mp hh
    exact .inl rfl
  · exact fun f hf => (List.not_mem_nil hf).elim
  · intro k b hk
    cases hk

end Entries

/-! ## The queue -/

/-- The reassembly queue of an interface, with what was received for every slot. -/
structure Ipv4Reassembly where
  env : Env
  queue : List Ipv4FragDesc
  received : Nat → List Ipv4Fragment

namespace Ipv4Reassembly

variable (be : Bool) (s : Ipv4Reassembly) (f : Ipv4Fragment)

/-- The entry a fragment is for. -/
def slot : Option Nat :=
  if f.moreFlag = true ∧ f.length % 8 ≠ 0 then none
  else (ipv4SearchFragQueue be s.env s.queue f).2.2

/-- What was received since the entry was created. -/
def before (i : Nat) : List Ipv4Fragment :=
  if (s.queue.getD i {}).inUse then s.received i else []

/-- The same with the fragment. -/
def after : Nat → List Ipv4Fragment :=
  (s.slot be f).elim s.before fun i => Function.update s.before i (s.before i ++ [f])

end Ipv4Reassembly

inductive Ipv4FragEvent where
  | fragment (f : Ipv4Fragment)
  | tick (time : Word)
  | flush

def Ipv4Reassembly.step (be : Bool) (s : Ipv4Reassembly) : Ipv4FragEvent → Ipv4Reassembly
  | .fragment f =>
    match ipv4ReassembleDatagram be s.env s.queue f with
    | none => s
    | some (env, queue, _) => { env, queue, received := s.after be f }
  | .tick time => { s with queue := ipv4FragTick time s.queue }
  | .flush => { s with queue := ipv4FlushFragQueue s.queue }

/-- The queue at startup. -/
def Ipv4Reassembly.start (env : Env) : Ipv4Reassembly :=
  ⟨env, List.replicate IPV4_MAX_FRAG_DATAGRAMS {}, fun _ => []⟩

/-- The fragments that `ipv4ProcessPacket` lets through and whose end does not wrap. -/
def Ipv4FragEvent.Ok (_ : Ipv4Reassembly) : Ipv4FragEvent → Prop
  | .fragment f => f.Accepted ∧ f.InRange
  | _ => True

/-- The length of the payload is the largest end received. -/
structure Ipv4Held (be : Bool) (frag : Ipv4FragDesc) (received : List Ipv4Fragment) : Prop where
  filling : ∃ hs, Filling be frag (headerOf received) received hs
  reached : ∃ f ∈ received, f.last = frag.fragPartLength

def Ipv4QueueHeld (be : Bool) (q : List Ipv4FragDesc) (received : Nat → List Ipv4Fragment) : Prop :=
  ∀ i frag, q[i]? = some frag → frag.inUse = true → Ipv4Held be frag (received i)

section Queue

variable {be : Bool} {frag : Ipv4FragDesc} {e e' : Env} {q q' : List Ipv4FragDesc}
  {rec : Nat → List Ipv4Fragment} {f : Ipv4Fragment} {s : Ipv4Reassembly}

theorem Ipv4QueueHeld.before (h : Ipv4QueueHeld be s.queue s.received) :
    Ipv4QueueHeld be s.queue s.before := by
  intro i frag hi hu
  have hbefore : s.before i = s.received i := by
    unfold Ipv4Reassembly.before
    rw [List.getD_eq_getElem?_getD, hi, Option.getD_some, if_pos hu]
  rw [hbefore]
  exact h i frag hi hu

theorem Ipv4QueueHeld.set {i : Nat} {fs : List Ipv4Fragment} (h : Ipv4QueueHeld be q rec)
    (hi : frag.inUse = true → Ipv4Held be frag fs) :
    Ipv4QueueHeld be (q.set i frag) (Function.update rec i fs) := by
  intro j frag' hj hu
  rw [List.getElem?_set] at hj
  by_cases hij : i = j
  · subst hij
    rw [if_pos rfl] at hj
    split at hj
    · cases hj
      rw [Function.update_self]
      exact hi hu
    · cases hj
  · rw [if_neg hij] at hj
    rw [Function.update_of_ne (Ne.symm hij)]
    exact h j frag' hj hu

theorem Filling.inUse {header : List UInt8} {received : List Ipv4Fragment}
    {hs : List (Nat × Nat)} (h : Filling be frag header received hs) : frag.inUse = true := by
  obtain ⟨-, ls, hl, -⟩ := h.packed
  obtain ⟨c, cs, hc, -, -⟩ := List.map_eq_cons_iff.mp hl
  unfold Ipv6FragDesc.inUse chunkCount
  rw [hc]
  rfl

theorem ipv4SearchFragQueue_memAvail (be : Bool) (e : Env) (q : List Ipv4FragDesc)
    (f : Ipv4Fragment) : (ipv4SearchFragQueue be e q f).1.memAvail = e.memAvail := by
  unfold ipv4SearchFragQueue
  split
  · rfl
  · split
    · rfl
    · simp only
      split
      · exact netBufferSetLength_memAvail _ _ _
      · exact netBufferSetLength_memAvail _ _ _

/-- An entry that the search has found: as it was, or new. -/
structure Found (be : Bool) (frag : Ipv4FragDesc) (f : Ipv4Fragment)
    (received : List Ipv4Fragment) : Prop where
  filling : ∃ header hs, Filling be frag header received hs ∧
    datagramKey f.packet = datagramKey header ∧
    (header = headerOf received ∧ header ≠ [] ∨ received = [] ∧ header = f.header)
  reached : frag.fragPartLength = 0 ∨ ∃ f ∈ received, f.last = frag.fragPartLength

theorem Ipv4Held.found {received : List Ipv4Fragment} (h : Ipv4Held be frag received)
    (hkey : ipv4SameDatagram frag.buffer.bytes f.packet = true) : Found be frag f received := by
  obtain ⟨hs, hfill⟩ := h.filling
  obtain ⟨g, hg, hlast⟩ := h.reached
  have hfront : datagramKey (headerOf received) = datagramKey frag.buffer.bytes := by
    rw [← hfill.front_eq]
    exact datagramKey_take hfill.minimal
  have hne : headerOf received ≠ [] := by
    intro hnil
    have hlen := congrArg List.length hfill.front_eq
    rw [hnil, front, List.length_take, List.length_nil] at hlen
    have h1 := hfill.stacked.length_le
    have h2 := hfill.minimal
    omega
  have hsame := (ipv4SameDatagram_iff _ _).mp hkey
  exact ⟨⟨_, hs, hfill, by rw [hfront, hsame], .inl ⟨rfl, hne⟩⟩, .inr ⟨g, hg, hlast⟩⟩

/-- The queue after the search. What becomes of the entry that was found is left open. -/
theorem ipv4Search_spec {r : Option Nat} (hq : Ipv4QueueHeld be s.queue s.received)
    (hacc : f.Accepted) (h : ipv4SearchFragQueue be s.env s.queue f = (e', q', r)) :
    (r = none → Ipv4QueueHeld be q' s.before) ∧ ∀ i, r = some i →
      i < q'.length ∧ Found be (q'.getD i {}) f (s.before i) ∧
      ∀ frag fs, (frag.inUse = true → Ipv4Held be frag fs) →
        Ipv4QueueHeld be (q'.set i frag) (Function.update s.before i fs) := by
  have hcur := hq.before
  unfold ipv4SearchFragQueue at h
  split at h
  · rename_i i hf
    cases h
    refine ⟨nofun, fun j hj => ?_⟩
    cases hj
    obtain ⟨hlt, hm, -⟩ := List.findIdx?_eq_some_iff_getElem.mp hf
    have hget : s.queue[i]? = some s.queue[i] := List.getElem?_eq_getElem hlt
    unfold ipv4FragMatches at hm
    obtain ⟨hu, hkey⟩ := Bool.and_eq_true_iff.mp hm
    refine ⟨hlt, ?_, fun frag fs hheld => hcur.set hheld⟩
    rw [List.getD_eq_getElem?_getD, hget]
    exact (hcur i _ hget hu).found hkey
  · split at h
    · cases h
      exact ⟨fun _ => hcur, nofun⟩
    · rename_i i hf
      obtain ⟨hlt, hu, -⟩ := List.findIdx?_eq_some_iff_getElem.mp hf
      have hget : s.queue.getD i {} = s.queue[i] := by
        rw [List.getD_eq_getElem?_getD, List.getElem?_eq_getElem hlt]
        rfl
      have hu : (s.queue.getD i {}).inUse = false := by
        rw [hget]
        simpa using hu
      have hnil : s.before i = [] := by
        unfold Ipv4Reassembly.before
        rw [hu]
        rfl
      simp only at h
      split at h
      · cases h
        refine ⟨fun _ => ?_, nofun⟩
        have hself : Function.update s.before i (s.before i) = s.before :=
          Function.update_eq_self _ _
        rw [← hself]
        exact hcur.set fun hc => by cases hc
      · rename_i herr
        rw [not_not] at herr
        cases h
        obtain ⟨hfill, hpart⟩ :=
          @filling_create be _ _ _ f _ hacc hu (Prod.ext rfl (Prod.ext rfl herr))
        refine ⟨nofun, fun j hj => ?_⟩
        cases hj
        refine ⟨by rw [List.length_set]; exact hlt, ?_, fun frag fs hheld => ?_⟩
        · rw [getD_set_self s.queue _ hlt, hnil]
          refine ⟨⟨_, _, hfill, ?_, .inr ⟨rfl, rfl⟩⟩, .inl hpart⟩
          exact (datagramKey_take (f.length_header hacc).2.1).symm
        · rw [List.set_set]
          exact hcur.set hheld

/-! ## Delivery -/

/-- The header that is passed on. -/
def fixHeader (header : List UInt8) (total : Nat) : List UInt8 :=
  overlay (overlay (overlay header 2 (be16 total)) 6 [0, 0]) 10 [0, 0]

theorem overlay_append {xs ys zs : List UInt8} {off : Nat} (h : off + ys.length ≤ xs.length) :
    overlay (xs ++ zs) off ys = overlay xs off ys ++ zs := by
  unfold overlay
  rw [List.take_of_length_le (by rw [List.length_append]; omega),
    List.take_of_length_le (by omega)]
  exact splice_append_left h

/-- A buffer can always be cut. -/
theorem netBufferSetLength_cut {b : NetBuffer} {n : Nat} (hf : ∀ ch ∈ b.chunk, ch.fits)
    (hn : n ≤ b.bytes.length) : ∃ b', netBufferSetLength e b n = (e, b', .NO_ERROR) ∧
      b'.bytes = b.bytes.take n := by
  have hsum := adjustChunks_length e b.chunk n
  have hpre := adjustChunks_keeps e b.chunk n hf
  have hle := hpre.length_le
  have htake : (b.bytes.take n).length = n := by
    rw [List.length_take]
    omega
  change (b.bytes.take n).length ≤ _ at hle
  have hleft : (adjustChunks e b.chunk n).2 = 0 := by omega
  refine ⟨⟨(adjustChunks e b.chunk n).1, b.maxChunkCount⟩, ?_, ?_⟩
  · unfold netBufferSetLength
    simp only [hleft, addChunks_zero]
  · refine (hpre.eq_of_length ?_).symm
    change (b.bytes.take n).length = _
    omega

/-- What is passed on when no hole is left. -/
theorem Filling.complete {header : List UInt8} {received : List Ipv4Fragment}
    (h : Filling be frag header received []) :
    ∃ b payload, ipv4CompleteFrag e frag = (e, some b) ∧
      b.bytes = fixHeader header (header.length + payload.length) ++ payload ∧
      payload.length = frag.fragPartLength ∧
      ∀ k c, contentAt received k = some c → payload[k]? = some c := by
  have hlen := h.length
  have hblen := h.length_eq
  have hmin := h.minimal
  obtain ⟨b, hset, hbytes⟩ := @netBufferSetLength_cut e frag.buffer
    (frag.unfragPartLength + frag.fragPartLength) h.stacked.fits (by omega)
  have hhlen := h.header_length
  have hplen : (frag.region.take frag.fragPartLength).length = frag.fragPartLength := by
    rw [List.length_take]
    omega
  have hsplit : b.bytes = header ++ frag.region.take frag.fragPartLength := by
    rw [hbytes, List.take_add, ← h.front_eq]
    rfl
  have hbe : ∀ n, (be16 n).length = 2 := fun _ => rfl
  refine ⟨netBufferWrite (netBufferWrite (netBufferWrite b 2
      (be16 (frag.unfragPartLength + frag.fragPartLength))) 6 [0, 0]) 10 [0, 0],
    frag.region.take frag.fragPartLength, ?_, ?_, hplen, ?_⟩
  · unfold ipv4CompleteFrag
    rw [hset]
  · have h2 : 2 + (be16 (header.length + frag.fragPartLength)).length ≤ header.length := by
      rw [hbe]
      omega
    rw [netBufferWrite_overlay, netBufferWrite_overlay, netBufferWrite_overlay, hsplit, hplen,
      ← hhlen, overlay_append h2, overlay_append, overlay_append]
    · rfl
    · simp only [length_overlay, List.length_cons, List.length_nil]
      omega
    · simp only [length_overlay, List.length_cons, List.length_nil]
      omega
  · intro k c hk
    obtain ⟨f, hf, -, hlt, -⟩ := contentAt_mem hk
    have := h.part f hf
    rw [List.getElem?_take, if_pos (by omega)]
    exact h.content k c hk

/-- What a datagram that is passed on owes to the fragments received. -/
structure Delivers (b : NetBuffer) (received : List Ipv4Fragment) (payload : List UInt8) :
    Prop where
  bytes : b.bytes =
    fixHeader (headerOf received) ((headerOf received).length + payload.length) ++ payload
  key : ∀ f ∈ received, datagramKey f.packet = datagramKey (headerOf received)
  content : ∀ k c, contentAt received k = some c → payload[k]? = some c
  closed : ∀ k, k < IPV4_INFINITY → ¬Missing (received.map Ipv4Fragment.slice) k
  part : ∀ f ∈ received, f.last ≤ payload.length
  reached : ∃ f ∈ received, f.last = payload.length
  bounded : payload.length ≤ IPV4_MAX_FRAG_DATAGRAM_SIZE

/-- A hole that the fragments received leave. -/
structure Pending (received : List Ipv4Fragment) (h : Nat × Nat) : Prop where
  nonempty : h.1 < h.2
  starts : h.1 = 0 ∨ ∃ f ∈ received, f.moreFlag = true ∧ h.1 = f.last
  apart : ∀ f ∈ received, Apart h (f.dataFirst, f.last)

theorem Filling.pending {header : List UInt8} {received : List Ipv4Fragment}
    {hs : List (Nat × Nat)} (h : Filling be frag header received hs)
    (hole : (ipv4FindHole frag frag.firstHole).isSome = true) : ∃ g, Pending received g := by
  cases hs with
  | nil =>
    have hfirst : frag.firstHole = IPV6_INFINITY := h.chain.after
    have hlt := h.region_lt
    unfold ipv4FindHole at hole
    rw [hfirst, ipv6FindHole_none (by unfold IPV6_INFINITY; omega)] at hole
    cases hole
  | cons g t =>
    exact ⟨g, h.holes.nonempty g (by simp), h.starts g (by simp), h.apart g (by simp)⟩

theorem Filling.no_hole {header : List UInt8} {received : List Ipv4Fragment}
    {hs : List (Nat × Nat)} (h : Filling be frag header received hs)
    (hole : ¬(ipv4FindHole frag frag.firstHole).isSome = true) : hs = [] := by
  cases hs with
  | nil => rfl
  | cons g t =>
    have hfirst : frag.firstHole = g.1 := h.chain.after.1
    have hspot := ((h.chain.holds g (by simp)).1).2
    unfold ipv4FindHole at hole
    rw [hfirst, ipv6FindHole_some (by omega)] at hole
    exact absurd rfl hole

/-- A datagram of at most `n` bytes, and headers that leave room for it. -/
def Small (received : List Ipv4Fragment) (n : Nat) : Prop :=
  ∀ f ∈ received, f.last ≤ n ∧ f.headerLength + n ≤ IPV4_MAX_FRAG_DATAGRAM_SIZE

/-- One fragment. -/
theorem ipv4Reassemble_spec (hq : Ipv4QueueHeld be s.queue s.received) (hacc : f.Accepted)
    (hr : f.InRange) : ∃ e q d, ipv4ReassembleDatagram be s.env s.queue f = some (e, q, d) ∧
      Ipv4QueueHeld be q (s.after be f) ∧
      (∀ b, d = some b → ∃ i payload, s.slot be f = some i ∧
        Delivers b (s.after be f i) payload) ∧
      (∀ i, s.slot be f = some i → (q.getD i {}).inUse = true →
        ∃ g, Pending (s.after be f i) g) ∧
      ∀ i n, s.slot be f = some i → s.env.Granting → Small (s.after be f i) n →
        (q.getD i {}).inUse = false → d ≠ none := by
  unfold ipv4ReassembleDatagram
  by_cases hv : f.moreFlag = true ∧ f.length % 8 ≠ 0
  · have hslot : s.slot be f = none := if_pos hv
    have hafter : s.after be f = s.before := by
      unfold Ipv4Reassembly.after
      rw [hslot]
      rfl
    rw [if_pos hv, hafter, hslot]
    exact ⟨_, _, _, rfl, hq.before, nofun, nofun, nofun⟩
  rw [if_neg hv]
  generalize hsearch : ipv4SearchFragQueue be s.env s.queue f = r
  obtain ⟨e, q, r⟩ := r
  obtain ⟨hnone, hfound⟩ := ipv4Search_spec hq hacc hsearch
  have hgrant : s.env.Granting → e.Granting := by
    intro he t
    have := ipv4SearchFragQueue_memAvail be s.env s.queue f
    rw [hsearch] at this
    rw [this]
    exact he t
  have hslot : s.slot be f = r := by
    unfold Ipv4Reassembly.slot
    rw [if_neg hv, hsearch]
  have hafter : s.after be f =
      r.elim s.before fun i => Function.update s.before i (s.before i ++ [f]) := by
    unfold Ipv4Reassembly.after
    rw [hslot]
  rw [hslot, hafter]
  cases r with
  | none => exact ⟨_, _, _, rfl, hnone rfl, nofun, nofun, nofun⟩
  | some i =>
    obtain ⟨hlt, ⟨⟨header, hs, hfill, hkey, hheader⟩, hreached⟩, hset⟩ := hfound i rfl
    simp only [Option.elim_some]
    have hdrop : ∀ (e : Env) (frag : Ipv4FragDesc),
        (∀ n, s.env.Granting → ¬Small (s.before i ++ [f]) n) → ∃ e' q' d,
        some (e, q.set i frag.drop, (none : Option NetBuffer)) = some (e', q', d) ∧
        Ipv4QueueHeld be q' (Function.update s.before i (s.before i ++ [f])) ∧
        (∀ b, d = some b → ∃ j payload, some i = some j ∧
          Delivers b (Function.update s.before i (s.before i ++ [f]) j) payload) ∧
        (∀ j, some i = some j → (q'.getD j {}).inUse = true →
          ∃ g, Pending (Function.update s.before i (s.before i ++ [f]) j) g) ∧
        ∀ j n, some i = some j → s.env.Granting →
          Small (Function.update s.before i (s.before i ++ [f]) j) n →
          (q'.getD j {}).inUse = false → d ≠ none := by
      intro e frag hrefused
      refine ⟨_, _, _, rfl, hset _ _ (fun hc => by cases hc), nofun, ?_, ?_⟩
      · rintro j hj hu
        cases hj
        rw [getD_set_self q _ hlt, inUse_drop] at hu
        cases hu
      · rintro j n hj he hsmall -
        cases hj
        rw [Function.update_self] at hsmall
        exact absurd hsmall (hrefused n he)
    -- the header is that of the datagram when the fragment has been taken in
    have hfirst : ∀ frag, (if f.dataFirst = 0 then ipv4FirstFragment e f (q.getD i {})
        else some (q.getD i {})) = some frag →
        Filling be frag (headerOf (s.before i ++ [f])) (s.before i) hs ∧
          frag.fragPartLength = (q.getD i {}).fragPartLength ∧
          datagramKey f.packet = datagramKey (headerOf (s.before i ++ [f])) := by
      intro frag hf
      rw [headerOf_append]
      split at hf
      · rename_i hz
        rw [if_pos (.inl hz)]
        obtain ⟨h1, h2⟩ := hfill.first hacc hkey hf
        exact ⟨h1, h2, (datagramKey_take (f.length_header hacc).2.1).symm⟩
      · rename_i hz
        cases hf
        rcases hheader with ⟨rfl, hne⟩ | ⟨hnil, rfl⟩
        · rw [if_neg (by simp [hz, hne])]
          exact ⟨hfill, rfl, hkey⟩
        · rw [if_pos (.inr (by rw [hnil]; rfl))]
          exact ⟨hfill, rfl, hkey⟩
    split
    · rename_i hnone
      refine hdrop e _ fun n _ hsmall => ?_
      have hf := hsmall f (by simp)
      split at hnone
      · refine hfill.first_accepted hacc ?_ hnone
        rcases hreached with h0 | ⟨g, hg, hlast⟩
        · omega
        · have := (hsmall g (List.mem_append_left _ hg)).1
          omega
      · cases hnone
    · rename_i frag hf
      obtain ⟨h1, hpart1, hkey1⟩ := hfirst frag hf
      split
      · rename_i e1 hg
        refine hdrop e1 _ fun n he hsmall => ?_
        rw [Ipv4Fragment.dataLast_eq hr] at hg
        refine h1.grow_accepted (hgrant he) ?_ (congrArg Prod.snd hg)
        obtain ⟨g, hgm, hgh⟩ := @headerOf_mem (s.before i ++ [f]) (by simp)
        have hlen := h1.header_length
        rw [hgh, Ipv4Fragment.header, List.length_take] at hlen
        have := (hsmall g hgm).2
        have := (hsmall f (by simp)).1
        omega
      · rename_i e1 frag1 hg
        rw [Ipv4Fragment.dataLast_eq hr] at hg
        obtain ⟨h2, hpart2⟩ := h1.grow hg
        have hvalid : f.moreFlag = true → f.length % 8 = 0 := by
          intro hm
          by_contra hne
          exact hv ⟨hm, hne⟩
        obtain ⟨frag2, hloop, h3, hpart3⟩ := h2.fill hvalid hr (by omega) hkey1
        rw [hloop]
        simp only
        have hreached3 : ∃ g ∈ s.before i ++ [f],
            g.last = (ipv4CopyData f frag2).fragPartLength := by
          rw [hpart3, hpart2, hpart1]
          rcases Nat.le_total (q.getD i {}).fragPartLength f.last with hle | hle
          · exact ⟨f, by simp, by omega⟩
          · rcases hreached with h0 | ⟨g, hg, hlast⟩
            · exact ⟨f, by simp, by omega⟩
            · exact ⟨g, List.mem_append_left _ hg, by omega⟩
        split
        · rename_i hhole
          refine ⟨_, _, _, rfl, hset _ _ fun _ => ⟨⟨_, h3⟩, hreached3⟩, nofun, ?_, ?_⟩
          · rintro j hj -
            cases hj
            rw [Function.update_self]
            exact h3.pending hhole
          · rintro j n hj - - hu
            cases hj
            rw [getD_set_self q _ hlt, h3.inUse] at hu
            cases hu
        · rename_i hhole
          have hnil := h3.no_hole hhole
          rw [hnil] at h3
          obtain ⟨b, payload, hcomp, hbytes, hplen, hcontent⟩ := @Filling.complete be _ e1 _ _ h3
          rw [hcomp]
          refine ⟨_, _, _, rfl, hset _ _ (fun hc => by cases hc), ?_, ?_,
            fun _ _ _ _ _ _ => Option.some_ne_none _⟩
          · intro b' hb'
            cases hb'
            refine ⟨i, payload, rfl, ?_⟩
            rw [Function.update_self]
            refine ⟨hbytes, h3.key, hcontent, fun k hk hm => ?_, ?_, ?_, ?_⟩
            · obtain ⟨g, hg, -⟩ := h3.missing k hk hm
              cases hg
            · rw [hplen]
              exact h3.part
            · rw [hplen]
              exact hreached3
            · have := h3.bounded
              omega
          · rintro j hj hu
            cases hj
            rw [getD_set_self q _ hlt, inUse_drop] at hu
            cases hu

/-! ## Runs -/

theorem ipv4QueueHeld_map {f : Ipv4FragDesc → Ipv4FragDesc} (h : Ipv4QueueHeld be q rec)
    (hf : ∀ frag, f frag = frag ∨ (f frag).inUse = false) : Ipv4QueueHeld be (q.map f) rec := by
  intro i frag hi hu
  rw [List.getElem?_map] at hi
  obtain ⟨frag', hi', rfl⟩ := Option.map_eq_some_iff.mp hi
  rcases hf frag' with he | he
  · rw [he] at hu ⊢
    exact h i frag' hi' hu
  · rw [he] at hu
    cases hu

theorem ipv4QueueHeld_step {event : Ipv4FragEvent} (hq : Ipv4QueueHeld be s.queue s.received)
    (hok : event.Ok s) : Ipv4QueueHeld be (s.step be event).queue (s.step be event).received := by
  cases event with
  | fragment f =>
    obtain ⟨e, q, d, hcall, hheld, -, -, -⟩ := ipv4Reassemble_spec hq hok.1 hok.2
    unfold Ipv4Reassembly.step
    simp only [hcall]
    exact hheld
  | tick time =>
    refine ipv4QueueHeld_map hq fun frag => ?_
    split
    · exact .inr rfl
    · exact .inl rfl
  | flush => exact ipv4QueueHeld_map hq fun frag => .inr rfl

theorem ipv4QueueHeld_start (env : Env) :
    Ipv4QueueHeld be (Ipv4Reassembly.start env).queue (Ipv4Reassembly.start env).received := by
  intro i frag hi hu
  have hrep := List.eq_of_mem_replicate (List.mem_of_getElem? hi)
  subst hrep
  cases hu

theorem ipv4QueueHeld_reach {env : Env}
    (h : Run.Reach (Ipv4Reassembly.step be) Ipv4FragEvent.Ok (Ipv4Reassembly.start env) s) :
    Ipv4QueueHeld be s.queue s.received :=
  h.inv (P := fun s => Ipv4QueueHeld be s.queue s.received) (ipv4QueueHeld_start env)
    fun _ _ hs hok => ipv4QueueHeld_step hs hok

/-- The descriptors form a list from `firstHole` on: the holes are not empty, in increasing order,
and described inside the buffer. -/
structure WellLinked (be : Bool) (frag : Ipv4FragDesc) (hs : List (Nat × Nat)) : Prop where
  list : Linked (frag.next be) none (hs.map Prod.fst) IPV4_INFINITY
  fields : ∀ h ∈ hs, frag.load be h.1 = h.1 ∧ frag.holeLast be h.1 = h.2
  nonempty : ∀ h ∈ hs, h.1 < h.2
  increasing : Increasing hs
  inside : ∀ h ∈ hs, h.1 + sizeofIpv4HoleDesc ≤ frag.region.length
  first : frag.buffer.chunk.head?.map ChunkDesc.length = some frag.unfragPartLength
  length : netBufferGetLength frag.buffer =
    frag.unfragPartLength + frag.fragPartLength + sizeofIpv4HoleDesc

theorem Filling.wellLinked {header : List UInt8} {received : List Ipv4Fragment}
    {hs : List (Nat × Nat)} (h : Filling be frag header received hs) : WellLinked be frag hs := by
  refine ⟨h.chain.after, fun g hg => (h.chain.holds g hg).2, h.holes.nonempty, h.increasing,
    fun g hg => ((h.chain.holds g hg).1).2, ?_, ?_⟩
  · obtain ⟨size, l, ls, hl, -⟩ := h.stacked
    obtain ⟨c, cs, hc, hcl, -⟩ := List.map_eq_cons_iff.mp hl
    rw [hc]
    exact congrArg some (congrArg Prod.fst hcl)
  · have := h.length_eq
    have := h.length
    rw [netBufferGetLength_eq]
    unfold sizeofIpv4HoleDesc
    omega

/-- Whatever fragments arrive, the holes of every entry stay a list in order, and the loop over them
ends for the next fragment. -/
theorem holes_ordered {env : Env}
    (h : Run.Reach (Ipv4Reassembly.step be) Ipv4FragEvent.Ok (Ipv4Reassembly.start env) s) :
    (∀ (i : Nat) (frag : Ipv4FragDesc), s.queue[i]? = some frag → frag.inUse = true →
        ∃ hs, WellLinked be frag hs) ∧
      ∀ f : Ipv4Fragment, f.Accepted → f.InRange →
        (ipv4ReassembleDatagram be s.env s.queue f).isSome = true := by
  have hq := ipv4QueueHeld_reach h
  refine ⟨fun i frag hi hu => ?_, fun f hacc hr => ?_⟩
  · obtain ⟨hs, hfill⟩ := (hq i frag hi hu).filling
    exact ⟨hs, hfill.wellLinked⟩
  · obtain ⟨e, q, d, hcall, -⟩ := ipv4Reassemble_spec hq hacc hr
    rw [hcall]
    rfl

/-- The first fragment of a datagram: 8 bytes and more to come. -/
def leadingFragment : Ipv4Fragment :=
  ⟨[0x45, 0, 0, 28, 0, 1, 0x20, 0, 64, 17, 0, 0, 10, 0, 0, 1, 10, 0, 0, 2] ++ List.replicate 8 7⟩

/-- The second one: the last 4 bytes. -/
def closingFragment : Ipv4Fragment :=
  ⟨[0x45, 0, 0, 24, 0, 1, 0, 1, 64, 17, 0, 0, 10, 0, 0, 1, 10, 0, 0, 2] ++ List.replicate 4 9⟩

theorem leadingFragment_ok : leadingFragment.Accepted ∧ leadingFragment.InRange :=
  ⟨⟨by decide, by decide, by decide, by decide⟩, by unfold Ipv4Fragment.InRange; decide⟩

theorem closingFragment_ok : closingFragment.Accepted ∧ closingFragment.InRange :=
  ⟨⟨by decide, by decide, by decide, by decide⟩, by unfold Ipv4Fragment.InRange; decide⟩

/-- The queue with the first fragment. -/
def leadingReceived : Ipv4Reassembly :=
  (Ipv4Reassembly.start Env.granting).step false (.fragment leadingFragment)

theorem holes_ordered_leading : (leadingReceived.queue.getD 0 {}).inUse = true ∧
    ∃ hs, WellLinked false (leadingReceived.queue.getD 0 {}) hs := by
  have hu : (leadingReceived.queue.getD 0 {}).inUse = true := by decide +kernel
  have hget : leadingReceived.queue[0]? = some (leadingReceived.queue.getD 0 {}) := by
    rw [List.getD_eq_getElem?_getD] at hu ⊢
    cases h : leadingReceived.queue[0]? with
    | none =>
      rw [h] at hu
      cases hu
    | some frag => rfl
  obtain ⟨h, -⟩ := holes_ordered (s := leadingReceived)
    (Run.Reach.step .init leadingFragment_ok)
  exact ⟨hu, h 0 _ hget hu⟩

/-! ## What is delivered -/

/-- A fragment at the end ends where all others end, or behind them. -/
def Agree (received : List Ipv4Fragment) : Prop :=
  ∀ f ∈ received, f.moreFlag = false → ∀ g ∈ received,
    g.last ≤ f.last ∧ (g.moreFlag = true → g.last < f.last)

/-- The fragments cover the datagram up to its end. -/
def Complete (received : List Ipv4Fragment) : Prop :=
  ∃ f ∈ received, f.moreFlag = false ∧ 0 < f.last ∧
    ∀ k < f.last, ∃ g ∈ received, g.dataFirst ≤ k ∧ k < g.last

theorem Pending.incomplete {received : List Ipv4Fragment} {h : Nat × Nat}
    (hp : Pending received h) (ha : Agree received) : ¬Complete received := by
  rintro ⟨f, hf, hm, hpos, hcover⟩
  have hlt : h.1 < f.last := by
    rcases hp.starts with h0 | ⟨g, hg, hmg, hlast⟩
    · omega
    · have := (ha f hf hm g hg).2 hmg
      omega
  obtain ⟨g, hg, h1, h2⟩ := hcover h.1 hlt
  have hne := hp.nonempty
  rcases hp.apart g hg with h3 | h3
  · simp only at h3
    omega
  · simp only at h3
    omega

/-- The payload ends where the datagram does, and every byte is one that was received. -/
theorem Delivers.sound {b : NetBuffer} {received : List Ipv4Fragment} {payload : List UInt8}
    (h : Delivers b received payload) (ha : Agree received) :
    (∃ f ∈ received, f.moreFlag = false ∧ f.last = payload.length) ∧
      ∀ k < payload.length, ∃ g ∈ received, g.dataFirst ≤ k ∧ k < g.last ∧
        payload[k]? = g.data[k - g.dataFirst]? := by
  have hbound := h.bounded
  have hsize : IPV4_MAX_FRAG_DATAGRAM_SIZE = 8192 := rfl
  have hclosed : ∀ k, k < IPV4_INFINITY → ∃ f ∈ received, f.dataFirst ≤ k ∧ k < f.last ∨
      f.moreFlag = false ∧ f.last ≤ k := by
    intro k hk
    have hm := h.closed k hk
    unfold Missing at hm
    push Not at hm
    obtain ⟨x, hx, hcase⟩ := hm
    obtain ⟨f, hf, rfl⟩ := List.mem_map.mp hx
    refine ⟨f, hf, ?_⟩
    by_cases hc : f.slice.Covers k
    · exact .inl ⟨hc.1, hc.2⟩
    · obtain ⟨hmf, hle⟩ := hcase hc
      exact .inr ⟨hmf, hle⟩
  obtain ⟨f, hf, hlast⟩ := hclosed 65534 (by decide)
  have hfl := h.part f hf
  have hmf : f.moreFlag = false := by
    rcases hlast with hlast | hlast
    · omega
    · exact hlast.1
  have hend : f.last = payload.length := by
    obtain ⟨g, hg, hgl⟩ := h.reached
    have := (ha f hf hmf g hg).1
    omega
  refine ⟨⟨f, hf, hmf, hend⟩, fun k hk => ?_⟩
  obtain ⟨g, hg, hgk⟩ := hclosed k (by unfold IPV4_INFINITY; omega)
  rcases hgk with hgk | ⟨hmg, hle⟩
  · obtain ⟨c, hc⟩ := contentAt_covered hg hgk
    obtain ⟨r, hr, h1, h2, h3⟩ := contentAt_mem hc
    exact ⟨r, hr, h1, h2, by rw [h.content k c hc, h3]⟩
  · have := (ha g hg hmg f hf).1
    omega

end Queue

end Cyclone
