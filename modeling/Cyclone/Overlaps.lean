import Cyclone.Holes
import Cyclone.Lib.Run

/-!
# Cyclone.Overlaps

Overlapping fragments and the datagrams that are delivered.

* `Mapped`: the invariant of an entry: its holes are what the fragments received leave missing.
* `Mapped.first`, `Mapped.grow`, `Mapped.fill`, `Mapped.complete`: what the parts of
  `ipv6ParseFragmentHeader` do to it.
* `fragments_never_mix`: over every run of the reassembly queue.
-/

namespace Cyclone

open NetBuffer Serial Links Ipv6FragDesc

/-- What a fragment says about the datagram. -/
structure Slice where
  first : Nat
  length : Nat
  more : Bool
  deriving DecidableEq, Repr

namespace Slice

def last (f : Slice) : Nat := f.first + f.length

def Covers (f : Slice) (k : Nat) : Prop := f.first ≤ k ∧ k < f.last

def Overlaps (f g : Slice) : Prop := ∃ k, f.Covers k ∧ g.Covers k

/-- The same bytes of the datagram. -/
def Same (f g : Slice) : Prop := f.first = g.first ∧ f.length = g.length

/-- A byte that is missing: not received, and not behind the end of the datagram. -/
def Missing (received : List Slice) (k : Nat) : Prop :=
  ∀ f ∈ received, ¬f.Covers k ∧ (f.more = false → k < f.last)

end Slice

open Slice

def Ipv6Fragment.slice (pkt : Ipv6Fragment) : Slice := ⟨pkt.dataFirst, pkt.length, pkt.moreFlag⟩

variable {be : Bool} {frag frag' : Ipv6FragDesc} {received : List Slice}
  {hs hs' : List (Nat × Nat)} {e e' : Env} {pkt : Ipv6Fragment}

/-! ## Buffers -/

/-- The chunks of a reassembly buffer: the unfragmentable part, then at least one more. -/
def Stacked (cs : List ChunkDesc) (n : Nat) : Prop :=
  ∃ size l ls, layout cs = (n, size) :: l :: ls ∧ ∀ l ∈ layout cs, 0 < l.2 → l.1 ≤ l.2

theorem Stacked.fits {cs : List ChunkDesc} {n : Nat} (h : Stacked cs n) : ∀ ch ∈ cs, ch.fits := by
  obtain ⟨-, -, -, -, hf⟩ := h
  intro ch hch
  exact hf ch.layout (List.mem_map.mpr ⟨ch, hch, rfl⟩)

theorem Stacked.congr {cs ds : List ChunkDesc} {n : Nat} (h : Stacked cs n)
    (hl : layout ds = layout cs) : Stacked ds n := by
  unfold Stacked
  rw [hl]
  exact h

theorem fits_resize (e : Env) (ch : ChunkDesc) {n : Nat} (h : 0 < ch.size → n ≤ ch.size) :
    (ch.resize e n).fits := by
  intro hs
  rw [length_resize]
  exact h hs

theorem adjustChunks_fits (e : Env) (cs : List ChunkDesc) (n : Nat) (hf : ∀ ch ∈ cs, ch.fits) :
    ∀ ch ∈ (adjustChunks e cs n).1, ch.fits := by
  induction cs generalizing n with
  | nil => simp [adjustChunks]
  | cons ch rest ih =>
    have hch := hf ch List.mem_cons_self
    have hrest : ∀ ch ∈ rest, ch.fits := fun c hc => hf c (List.mem_cons_of_mem _ hc)
    unfold adjustChunks
    split
    · simp
    · intro c hc
      rcases List.mem_cons.mp hc with rfl | hc
      · split
        · refine fits_resize e ch fun hs => ?_
          have := hch hs
          omega
        · split
          · exact fits_resize e ch fun _ => Nat.min_le_right _ _
          · exact hch
      · exact ih _ hrest c hc

theorem addChunks_fits {room : Nat} {cs cs' : List ChunkDesc} {n : Nat} {err : Error}
    (hf : ∀ ch ∈ cs, ch.fits) (h : addChunks e room cs n = (e', cs', err)) :
    (∀ ch ∈ cs', ch.fits) ∧ cs <+: cs' := by
  induction room generalizing e cs n with
  | zero =>
    unfold addChunks at h
    split at h
    · cases h
      exact ⟨hf, List.prefix_refl _⟩
    · cases h
      exact ⟨hf, List.prefix_refl _⟩
  | succ room ih =>
    unfold addChunks at h
    split at h
    · cases h
      exact ⟨hf, List.prefix_refl _⟩
    · simp only at h
      split at h
      · obtain ⟨h1, h2⟩ := ih (by
          intro ch hch
          rcases List.mem_append.mp hch with hch | hch
          · exact hf ch hch
          · obtain rfl := List.mem_singleton.mp hch
            intro _
            simp [ChunkDesc.length]) h
        exact ⟨h1, (List.prefix_append _ _).trans h2⟩
      · cases h
        exact ⟨hf, List.prefix_refl _⟩

/-- A new length behind the unfragmentable part keeps it in the first chunk. -/
theorem Stacked.setLength {b b' : NetBuffer} {n m : Nat} {err : Error} (h : Stacked b.chunk n)
    (hn : n < m) (hs : netBufferSetLength e b m = (e', b', err)) : Stacked b'.chunk n := by
  have hfits := h.fits
  obtain ⟨size, l, ls, hl, -⟩ := h
  obtain ⟨c, cs, hc, hcl, hcs⟩ := List.map_eq_cons_iff.mp hl
  obtain ⟨c', rest, rfl, -, -⟩ := List.map_eq_cons_iff.mp hcs
  have hclen : c.length = n := congrArg Prod.fst hcl
  have hadj : ∃ d ds, (adjustChunks e b.chunk m).1 = c :: d :: ds := by
    have hrest : ∃ d ds, (adjustChunks e (c' :: rest) (m - c.length)).1 = d :: ds := by
      unfold adjustChunks
      rw [if_neg (by omega)]
      exact ⟨_, _, rfl⟩
    obtain ⟨d, ds, hd⟩ := hrest
    refine ⟨d, ds, ?_⟩
    rw [hc]
    unfold adjustChunks
    rw [if_neg (by omega), if_neg (by omega), if_neg (by simp)]
    simp only [hd]
  obtain ⟨d, ds, hadj⟩ := hadj
  simp only [netBufferSetLength, Prod.mk.injEq] at hs
  obtain ⟨-, rfl, -⟩ := hs
  obtain ⟨hf, t, ht⟩ := addChunks_fits (adjustChunks_fits e b.chunk m hfits)
    (show addChunks e (b.maxChunkCount - (adjustChunks e b.chunk m).1.length)
      (adjustChunks e b.chunk m).1 (adjustChunks e b.chunk m).2 = (_, _, _) from rfl)
  have hfl : ∀ l ∈ layout (addChunks e (b.maxChunkCount - (adjustChunks e b.chunk m).1.length)
      (adjustChunks e b.chunk m).1 (adjustChunks e b.chunk m).2).2.1, 0 < l.2 → l.1 ≤ l.2 := by
    intro l hl
    obtain ⟨ch, hch, rfl⟩ := List.mem_map.mp hl
    exact hf ch hch
  rw [hadj] at ht
  refine ⟨size, d.layout, layout (ds ++ t), ?_, hfl⟩
  show layout (addChunks e (b.maxChunkCount - (adjustChunks e b.chunk m).1.length)
    (adjustChunks e b.chunk m).1 (adjustChunks e b.chunk m).2).2.1 = _
  rw [hadj, ← ht]
  simp [layout, hcl]

/-- The first chunk gets the length of another header. -/
theorem Stacked.resize {b : NetBuffer} {m n : Nat} (h : Stacked b.chunk m)
    (hsize : n ≤ (b.chunk.head?.map ChunkDesc.size).getD 0) :
    Stacked (setFirstChunk e b n).chunk n ∧
      (setFirstChunk e b n).bytes.drop n = b.bytes.drop m := by
  obtain ⟨size, l, ls, hl, hfl⟩ := h
  obtain ⟨c, cs, hc, hcl, hcs⟩ := List.map_eq_cons_iff.mp hl
  have hclen : c.data.length = m := congrArg Prod.fst hcl
  have hcsize : c.size = size := congrArg Prod.snd hcl
  rw [hc] at hsize
  have hc1 : (setFirstChunk e b n).chunk = c.resize e n :: cs := by
    unfold setFirstChunk
    rw [hc]
    rfl
  have hcl1 : (c.resize e n).data.length = n := length_resize e c n
  have hl1 : layout (setFirstChunk e b n).chunk = (n, size) :: l :: ls := by
    rw [hc1, layout_cons]
    congr 1
    exact Prod.ext hcl1 hcsize
  refine ⟨⟨size, l, ls, hl1, ?_⟩, ?_⟩
  · rw [hl1]
    rw [hl] at hfl
    intro l' hl'
    rcases List.mem_cons.mp hl' with rfl | hl'
    · intro _
      simp only [List.head?_cons, Option.map_some, Option.getD_some] at hsize
      show n ≤ size
      omega
    · exact hfl l' (List.mem_cons_of_mem _ hl')
  · rw [bytes, bytes, hc1, hc, flat_cons, flat_cons, List.drop_left' hcl1, List.drop_left' hclen]

/-! ## Entries -/

/-- The holes of an entry are what the fragments received leave missing. -/
structure Mapped (be : Bool) (frag : Ipv6FragDesc) (received : List Slice)
    (hs : List (Nat × Nat)) : Prop where
  chain : Chain be frag [] hs
  holes : HoleList hs
  stacked : Stacked frag.buffer.chunk frag.unfragPartLength
  length : frag.region.length = frag.fragPartLength + 6 ∨
    hs = [] ∧ frag.region.length = frag.fragPartLength
  bounded : frag.unfragPartLength + frag.fragPartLength ≤ IPV6_MAX_FRAG_DATAGRAM_SIZE
  part : 0 < frag.fragPartLength ∨ hs ≠ []
  apart : ∀ h ∈ hs, ∀ f ∈ received, Apart h (f.first, f.last)
  missing : ∀ k, k < IPV6_INFINITY → Missing received k → ∃ h ∈ hs, h.1 ≤ k ∧ k < h.2
  clean : ∀ f ∈ received, ∀ g ∈ received, f.Overlaps g → f.Same g

theorem Chain.congr (hc : Chain be frag [] hs) (hf : frag'.firstHole = frag.firstHole)
    (hr : ∀ h ∈ hs, h.1 + 6 ≤ frag'.region.length ∧
      ∀ k < 6, frag'.region[h.1 + k]? = frag.region[h.1 + k]?) : Chain be frag' [] hs := by
  have hload : ∀ h ∈ hs, ∀ k, k ≤ 4 → frag'.load be (h.1 + k) = frag.load be (h.1 + k) := by
    intro h hh k hk
    refine load_congr fun j hj => ?_
    rw [Nat.add_assoc]
    exact (hr h hh).2 (k + j) (by omega)
  refine ⟨rfl, ?_, hc.nodup, ?_⟩
  · refine hc.after.congr hf fun q hq => ?_
    obtain ⟨h, hh, rfl⟩ := List.mem_map.mp hq
    exact hload h hh 4 (by omega)
  · intro h hh
    obtain ⟨h1, h2, h3⟩ := hc.holds h hh
    exact ⟨⟨h1.1, (hr h hh).1⟩, (hload h hh 0 (by omega)).trans h2,
      (hload h hh 2 (by omega)).trans h3⟩

/-- The list when the loop has reached its end. -/
theorem Chain.rewind (hc : Chain be frag hs []) : Chain be frag [] hs := by
  refine ⟨rfl, ?_, by simpa using hc.nodup, by simpa using hc.holds⟩
  have hb := hc.before
  rwa [show frag.next be _ = IPV6_INFINITY from hc.after] at hb

theorem Stacked.length_le {b : NetBuffer} {n : Nat} (h : Stacked b.chunk n) :
    n ≤ b.bytes.length := by
  obtain ⟨size, l, ls, hl, -⟩ := h
  obtain ⟨c, cs, hc, hcl, -⟩ := List.map_eq_cons_iff.mp hl
  have hclen : c.data.length = n := congrArg Prod.fst hcl
  rw [bytes, hc, flat_cons, List.length_append]
  omega

theorem Mapped.length_eq (h : Mapped be frag received hs) :
    frag.buffer.bytes.length = frag.unfragPartLength + frag.region.length := by
  have := h.stacked.length_le
  unfold region
  rw [List.length_drop]
  omega

theorem Mapped.region_lt (h : Mapped be frag received hs) : frag.region.length < 65536 := by
  have h1 := h.bounded
  unfold IPV6_MAX_FRAG_DATAGRAM_SIZE at h1
  rcases h.length with h2 | ⟨-, h2⟩
  · omega
  · omega

/-- The entry with other contents that agree where the holes are described. -/
theorem Mapped.congr (h : Mapped be frag received hs) (hf : frag'.firstHole = frag.firstHole)
    (hst : Stacked frag'.buffer.chunk frag'.unfragPartLength)
    (hp : frag'.fragPartLength = frag.fragPartLength)
    (hb : frag'.unfragPartLength + frag.fragPartLength ≤ IPV6_MAX_FRAG_DATAGRAM_SIZE)
    (hr : frag'.region = frag.region) : Mapped be frag' received hs := by
  refine ⟨h.chain.congr hf fun g hg => ?_, h.holes, hst, ?_, ?_, ?_, h.apart, h.missing, h.clean⟩
  · rw [hr]
    exact ⟨((h.chain.holds g hg).1).2, fun _ _ => rfl⟩
  · rw [hr, hp]; exact h.length
  · rw [hp]; exact hb
  · rw [hp]; exact h.part

/-! ## The first fragment -/

/-- What the caller of `ipv6ParseFragmentHeader` promises: the headers lie in this order. -/
def Ipv6Fragment.WellPlaced (pkt : Ipv6Fragment) : Prop :=
  pkt.ipPacketOffset ≤ pkt.nextHeaderOffset ∧ pkt.nextHeaderOffset < pkt.fragHeaderOffset ∧
    pkt.ipPacketOffset + sizeofIpv6Header ≤ pkt.fragHeaderOffset

theorem layout_storeAt {b : NetBuffer} {off : Nat} {pos : Nat × Nat} {v : UInt8}
    (h : netBufferAt b off = some pos) : layout (storeAt b pos v).chunk = layout b.chunk := by
  have haux : ∀ (cs : List ChunkDesc) (off : Nat) (pos : Nat × Nat), chunkAt cs off = some pos →
      layout (cs.modify pos.1 fun ch => ch.write pos.2 [v]) = layout cs := by
    intro cs
    induction cs with
    | nil => intro off pos h; cases h
    | cons ch rest ih =>
      intro off pos h
      unfold chunkAt at h
      split at h
      · cases h
        show layout (ch.write off [v] :: rest) = _
        rw [layout_cons, layout_cons, layout_write (by simp; omega)]
      · obtain ⟨q, hq, rfl⟩ := Option.map_eq_some_iff.mp h
        show layout (ch :: rest.modify q.1 fun ch => ch.write q.2 [v]) = _
        rw [layout_cons, layout_cons, ih _ _ hq]
  exact haux b.chunk off pos h

theorem drop_overlay {xs ys : List UInt8} {off n : Nat} (h : off + ys.length ≤ n) :
    (overlay xs off ys).drop n = xs.drop n := by
  refine List.ext_getElem? fun i => ?_
  rw [List.getElem?_drop, List.getElem?_drop, overlay_getElem?, if_neg (by omega)]

theorem Mapped.first (h : Mapped be frag received hs) (hw : pkt.WellPlaced)
    (hf : ipv6FirstFragment e pkt frag = some frag') :
    Mapped be frag' received hs ∧ frag'.fragPartLength = frag.fragPartLength := by
  unfold ipv6FirstFragment at hf
  simp only at hf
  generalize hn : pkt.fragHeaderOffset - pkt.ipPacketOffset = n at hf
  split at hf
  · cases hf
  rename_i hmax
  split at hf
  · cases hf
  rename_i hsize
  generalize hb1 : setFirstChunk e frag.buffer n = b1 at hf
  generalize hb2 : (netBufferCopy b1 0 pkt.ipPacket pkt.ipPacketOffset n).1 = b2 at hf
  obtain ⟨hst1, hr1⟩ := h.stacked.resize (e := e) (Nat.le_of_not_lt hsize)
  rw [hb1] at hst1 hr1
  have hst2 : Stacked b2.chunk n := hst1.congr (hb2 ▸ layout_netBufferCopy _ _ _ _ _)
  have hr2 : b2.bytes.drop n = frag.region := by
    rw [← hb2, netBufferCopy_overlay, drop_overlay (by rw [List.length_take]; omega), hr1]
    rfl
  have hin : pkt.nextHeaderOffset - pkt.ipPacketOffset < n := by
    unfold Ipv6Fragment.WellPlaced at hw
    omega
  have hn2 := hst2.length_le
  cases hf
  refine ⟨h.congr rfl ?_ rfl (by show n + _ ≤ _; omega) ?_, rfl⟩
  · simp only
    split
    · rename_i pos hpos
      exact hst2.congr (layout_storeAt hpos)
    · exact hst2
  · simp only [region]
    split
    · rename_i pos hpos
      rw [← region, ← hr2]
      show (flat (b2.chunk.modify pos.1 fun ch => ch.write pos.2 [_])).drop n = _
      rw [(chunkAt_some hpos).2, List.drop_set_of_lt hin]
      rfl
    · exact hr2

/-! ## Growing and filling -/

/-- A larger buffer keeps the descriptors. -/
theorem Chain.grow {b : Nat} {buf : NetBuffer} (hc : Chain be frag [] hs)
    (hst : Stacked frag.buffer.chunk frag.unfragPartLength) (hlt : frag.region.length < b + 6)
    (hset : netBufferSetLength e frag.buffer (frag.unfragPartLength + b + 6) =
      (e', buf, .NO_ERROR)) :
    Chain be { frag with buffer := buf, fragPartLength := b } [] hs ∧
      Stacked buf.chunk frag.unfragPartLength ∧
      (buf.bytes.drop frag.unfragPartLength).length = b + 6 ∧
      ∀ k < frag.region.length, (buf.bytes.drop frag.unfragPartLength)[k]? = frag.region[k]? := by
  have hnle := hst.length_le
  have hregion : frag.region.length = frag.buffer.bytes.length - frag.unfragPartLength :=
    List.length_drop
  have hblen := netBufferSetLength_ok hset
  have hpre := netBufferSetLength_keeps hst.fits hset
  rw [List.take_of_length_le (by omega)] at hpre
  obtain ⟨t, ht⟩ := hpre
  have hrlen : (buf.bytes.drop frag.unfragPartLength).length = b + 6 := by
    rw [List.length_drop]
    omega
  have hsame : ∀ k < frag.region.length,
      (buf.bytes.drop frag.unfragPartLength)[k]? = frag.region[k]? := by
    intro k hk
    unfold region
    rw [List.getElem?_drop, List.getElem?_drop, ← ht, List.getElem?_append_left (by omega)]
  refine ⟨hc.congr rfl fun g hg => ?_, hst.setLength (by omega) hset, hrlen, hsame⟩
  have hspot := ((hc.holds g hg).1).2
  exact ⟨by show _ ≤ (buf.bytes.drop frag.unfragPartLength).length; omega,
    fun k hk => hsame _ (by omega)⟩

theorem Mapped.grow {b : Nat} (h : Mapped be frag received hs)
    (hg : ipv6GrowFrag e b frag = (e', some frag')) :
    Mapped be frag' received hs ∧ b ≤ frag'.fragPartLength := by
  unfold ipv6GrowFrag at hg
  split at hg
  case isFalse hle =>
    cases hg
    exact ⟨h, by omega⟩
  rename_i hlt
  split at hg
  · cases hg
  rename_i hmax
  split at hg
  · rename_i e1 buf hset
    cases hg
    have hlt' : frag.region.length < b + 6 := by
      rcases h.length with h1 | ⟨-, h1⟩
      · omega
      · omega
    obtain ⟨hc, hst, hrlen, -⟩ := h.chain.grow h.stacked hlt' hset
    exact ⟨⟨hc, h.holes, hst, .inl hrlen, by show frag.unfragPartLength + b ≤ _; omega,
      .inl (by show 0 < b; omega), h.apart, h.missing, h.clean⟩, Nat.le_refl _⟩
  · cases hg

theorem walkHoles_zero (moreFlag : Bool) (a : Nat) (hs : List (Nat × Nat)) :
    walkHoles moreFlag a 0 hs = some hs := by
  induction hs with
  | nil => rfl
  | cons h t ih =>
    unfold walkHoles
    rw [if_neg (by omega), ih]
    rfl

theorem Ipv6Fragment.dataFirst_spec (pkt : Ipv6Fragment) :
    pkt.dataFirst % 8 = 0 ∧ pkt.dataFirst < IPV6_INFINITY := by
  have := (be16At pkt.fragHeader 2).isLt
  unfold dataFirst offset IPV6_INFINITY
  omega

/-- What the conditions on a fragment give. -/
theorem Ipv6Fragment.dataLast_eq (h : pkt.dataFirst + pkt.length ≤ IPV6_INFINITY) :
    pkt.dataLast = pkt.slice.last := by
  unfold IPV6_INFINITY at h
  unfold dataLast
  rw [u16_of_lt (show pkt.length < 65536 by omega), u16_of_lt (by omega)]
  rfl

/-- A fragment that goes into a hole is apart from everything received, or what was received
covers it. -/
theorem Mapped.clean_append (h : Mapped be frag received hs) {moreFlag : Bool}
    (hw : walkHoles moreFlag pkt.slice.first pkt.slice.last hs = some hs')
    (hlt : pkt.slice.last ≤ IPV6_INFINITY)
    (hfresh : (∃ f ∈ received, f.Overlaps pkt.slice ∧ ¬f.Same pkt.slice) →
      ∃ k, pkt.slice.Covers k ∧ Missing received k) :
    (∀ f ∈ received, f.Overlaps pkt.slice → f.Same pkt.slice) := by
  intro f hf ho
  by_contra hsame
  obtain ⟨k, hk, hmiss⟩ := hfresh ⟨f, hf, ho, hsame⟩
  obtain ⟨hle, hlt'⟩ := hk
  obtain ⟨g, hg, hgk⟩ := h.missing k (by omega) hmiss
  -- the fragment lies in the hole, and the hole is apart from what was received
  obtain ⟨h1, h2⟩ := (walkHoles_spec hw).2.1 g hg (by omega) (by omega)
  obtain ⟨j, hj, hj'⟩ := ho
  unfold Covers at hj hj'
  rcases h.apart g hg f hf with h3 | h3
  · simp only at h3
    omega
  · simp only at h3
    omega

theorem Mapped.fill {fuel : Nat} (h : Mapped be frag received hs)
    (hv : pkt.moreFlag = true → pkt.length % 8 = 0)
    (hend : pkt.dataFirst + pkt.length ≤ IPV6_INFINITY)
    (hpart : pkt.dataLast ≤ frag.fragPartLength)
    (hfresh : (∃ f ∈ received, f.Overlaps pkt.slice ∧ ¬f.Same pkt.slice) →
      ∃ k, pkt.slice.Covers k ∧ Missing received k) (hfuel : hs.length < fuel) :
    holeLoop be pkt.moreFlag pkt.dataFirst pkt.dataLast fuel frag none = some none ∨
      (∀ f ∈ received, f.Overlaps pkt.slice → f.Same pkt.slice) ∧
      ∃ frag' hs', holeLoop be pkt.moreFlag pkt.dataFirst pkt.dataLast fuel frag none =
          some (some frag') ∧ Mapped be (copyFragment pkt frag') (received ++ [pkt.slice]) hs' := by
  obtain ⟨ha8, halt⟩ := pkt.dataFirst_spec
  have hlast := Ipv6Fragment.dataLast_eq hend
  have hleq : pkt.dataLast = pkt.dataFirst + pkt.length := hlast
  have hab : pkt.dataFirst ≤ pkt.dataLast := by omega
  have hspot : hs ≠ [] → pkt.moreFlag = true → frag.Spot pkt.dataLast := by
    intro hne hm
    have h8 := hv hm
    refine ⟨by omega, ?_⟩
    rcases h.length with h1 | ⟨h1, -⟩
    · omega
    · exact absurd h1 hne
  obtain ⟨hnone, hsome⟩ := @holeLoop_chain be pkt.moreFlag _ _ hs [] frag fuel h.chain
    h.holes h.region_lt ha8 hab hspot hfuel
  cases hw : walkHoles pkt.moreFlag pkt.dataFirst pkt.dataLast hs with
  | none => exact .inl (hnone hw)
  | some hs' =>
    obtain ⟨frag', hloop, hk, hc, hholes⟩ := hsome hs' hw
    rw [List.nil_append] at hc hholes
    obtain ⟨hsub, -, hkeep⟩ := walkHoles_spec hw
    have hclean := @Mapped.clean_append _ _ _ _ _ pkt h _ (hlast ▸ hw) hend hfresh
    refine .inr ⟨hclean, frag', hs', hloop, ?_⟩
    have hst : Stacked frag'.buffer.chunk frag'.unfragPartLength := by
      rw [hk.unfrag]
      exact h.stacked.congr hk.chunks
    have hstc : Stacked (copyFragment pkt frag').buffer.chunk frag'.unfragPartLength :=
      hst.congr (layout_netBufferCopy _ _ _ _ _)
    have hrlen : (copyFragment pkt frag').region.length = frag.region.length := by
      unfold region copyFragment
      rw [List.length_drop, netBufferCopy_overlay, length_overlay, ← List.length_drop]
      exact hk.length
    have hreg : ∀ k, k < pkt.dataFirst ∨ pkt.dataLast ≤ k →
        (copyFragment pkt frag').region[k]? = frag'.region[k]? := by
      intro k hk
      unfold region copyFragment
      simp only [List.getElem?_drop]
      rw [netBufferCopy_overlay, overlay_getElem?, if_neg]
      rw [List.length_take]
      omega
    refine ⟨hc.rewind.congr rfl fun g hg => ?_, hholes, hstc, ?_, ?_, ?_, ?_, ?_, ?_⟩
    · have hgs := ((hc.holds g (by simpa using hg)).1)
      have hg8 := hgs.1
      have hgl := hgs.2
      rw [hk.length] at hgl
      refine ⟨by rw [hrlen]; exact hgl, fun k hk6 => hreg _ ?_⟩
      -- the descriptor lies in its hole, which the data does not touch
      have hne := hholes.nonempty g hg
      have hal := hholes.aligned g hg
      rcases (hsub g hg).2 with h1 | h1
      · simp only at h1
        omega
      · simp only at h1
        omega
    · rw [hrlen]
      show _ = frag'.fragPartLength + 6 ∨ hs' = [] ∧ _ = frag'.fragPartLength
      rw [hk.part]
      rcases h.length with h1 | ⟨rfl, h1⟩
      · exact .inl h1
      · cases hw
        exact .inr ⟨rfl, h1⟩
    · show frag'.unfragPartLength + frag'.fragPartLength ≤ _
      rw [hk.unfrag, hk.part]
      exact h.bounded
    · show 0 < frag'.fragPartLength ∨ _
      rw [hk.part]
      rcases h.part with h1 | h1
      · exact .inl h1
      · rcases Nat.eq_zero_or_pos frag.fragPartLength with h0 | h0
        · have hz : pkt.dataLast = 0 := by omega
          rw [hz, walkHoles_zero] at hw
          cases hw
          exact .inr h1
        · exact .inl h0
    · intro g hg f hf
      rcases List.mem_append.mp hf with hf | hf
      · obtain ⟨⟨h', hh', h1, h2⟩, -⟩ := hsub g hg
        rcases h.apart h' hh' f hf with h3 | h3
        · exact .inl (by omega)
        · exact .inr (by omega)
      · obtain rfl := List.mem_singleton.mp hf
        have hap := (hsub g hg).2
        rw [hlast] at hap
        exact hap
    · intro k hk hm
      have hold : Missing received k := fun f hf => hm f (List.mem_append_left _ hf)
      obtain ⟨hnc, hnm⟩ := hm pkt.slice (by simp)
      refine hkeep k (h.missing k hk hold) ?_
      unfold Covers at hnc
      rw [hlast]
      by_cases hka : k < pkt.dataFirst
      · exact .inl hka
      · have hkb : pkt.slice.last ≤ k := by
          by_contra hlt
          exact hnc ⟨by show pkt.dataFirst ≤ k; omega, by omega⟩
        refine .inr ⟨hkb, ?_⟩
        by_contra hmf
        have hm0 : pkt.moreFlag = false := by simpa using hmf
        have := hnm hm0
        omega
    · intro f hf g hg ho
      rcases List.mem_append.mp hf with hf | hf
      · rcases List.mem_append.mp hg with hg | hg
        · exact h.clean f hf g hg ho
        · obtain rfl := List.mem_singleton.mp hg
          exact hclean f hf ho
      · obtain rfl := List.mem_singleton.mp hf
        rcases List.mem_append.mp hg with hg | hg
        · obtain ⟨k, h1, h2⟩ := ho
          obtain ⟨h3, h4⟩ := hclean g hg ⟨k, h2, h1⟩
          exact ⟨h3.symm, h4.symm⟩
        · obtain rfl := List.mem_singleton.mp hg
          exact ⟨rfl, rfl⟩

/-- A list of holes has fewer descriptors than the loop has turns. -/
theorem Mapped.length_lt (h : Mapped be frag received hs) : hs.length < holeTurns := by
  have hnd := h.chain.nodup
  rw [List.nil_append] at hnd
  have hsub : hs.map Prod.fst ⊆ List.range 65535 := by
    intro p hp
    obtain ⟨g, hg, rfl⟩ := List.mem_map.mp hp
    have hspot := ((h.chain.holds g hg).1).2
    have hlt := h.region_lt
    exact List.mem_range.mpr (by omega)
  have hle := (List.subperm_of_subset hnd hsub).length_le
  rw [List.length_map, List.length_range] at hle
  unfold holeTurns
  omega

/-! ## The end of reassembly -/

theorem Mapped.no_hole (h : Mapped be frag received hs)
    (hn : ¬(ipv6FindHole frag frag.firstHole).isSome) : hs = [] := by
  cases hs with
  | nil => rfl
  | cons g t =>
    have hfirst : frag.firstHole = g.1 := h.chain.after.1
    have hspot := ((h.chain.holds g (by simp)).1).2
    rw [hfirst, ipv6FindHole_some (by omega)] at hn
    exact absurd rfl hn

theorem Mapped.complete (h : Mapped be frag received [])
    (hc : ipv6CompleteFrag e frag = (e', some frag')) : Mapped be frag' received [] := by
  unfold ipv6CompleteFrag at hc
  split at hc
  · rename_i e1 b hset
    cases hc
    have hpart : 0 < frag.fragPartLength := h.part.elim id fun hne => absurd rfl hne
    have hlen := netBufferSetLength_ok hset
    have hst := h.stacked.setLength (by omega) hset
    have hfirst : frag.firstHole = IPV6_INFINITY := h.chain.after
    refine ⟨⟨rfl, hfirst, List.nodup_nil, nofun⟩, h.holes,
      hst.congr (layout_writeChunks _ _ _), .inr ⟨rfl, ?_⟩, h.bounded, .inl hpart, nofun,
      h.missing, h.clean⟩
    unfold region
    rw [List.length_drop, netBufferWrite_length, hlen, Nat.add_sub_cancel_left]
  · cases hc

/-! ## New entries -/

theorem netBufferSetLength_nil (e : Env) (room n : Nat) :
    netBufferSetLength e ⟨[], room⟩ n = ((addChunks e room [] n).1,
      ⟨(addChunks e room [] n).2.1, room⟩, (addChunks e room [] n).2.2) := rfl

/-- Two chunks are allocated, the second for the first hole descriptor. -/
theorem layout_create {cs : List ChunkDesc} {room n : Nat} (hroom : 2 ≤ room)
    (hn : n = NET_MEM_POOL_BUFFER_SIZE + 6) (h : addChunks e room [] n = (e', cs, .NO_ERROR)) :
    layout cs = [(NET_MEM_POOL_BUFFER_SIZE, NET_MEM_POOL_BUFFER_SIZE),
      (6, NET_MEM_POOL_BUFFER_SIZE)] := by
  have hpos : 6 < NET_MEM_POOL_BUFFER_SIZE := by decide
  obtain ⟨room, rfl⟩ : ∃ k, room = k + 1 + 1 := ⟨room - 2, by omega⟩
  unfold addChunks at h
  rw [if_neg (by omega)] at h
  simp only at h
  split at h
  case isFalse => cases h
  rw [show min n NET_MEM_POOL_BUFFER_SIZE = NET_MEM_POOL_BUFFER_SIZE by omega] at h
  unfold addChunks at h
  rw [if_neg (by omega)] at h
  simp only at h
  split at h
  case isFalse => cases h
  rw [show min (n - NET_MEM_POOL_BUFFER_SIZE) NET_MEM_POOL_BUFFER_SIZE = 6 by omega,
    show n - NET_MEM_POOL_BUFFER_SIZE - 6 = 0 by omega, addChunks_zero] at h
  cases h
  simp only [layout, ChunkDesc.layout, ChunkDesc.length, List.nil_append, List.cons_append,
    List.map_cons, List.map_nil, List.length_map, List.length_range]

/-- Two chunks, the first one cut to a header, and a descriptor that calls everything missing. -/
theorem chain_create {n : Nat} (hl : layout frag.buffer.chunk = [(n, NET_MEM_POOL_BUFFER_SIZE),
      (6, NET_MEM_POOL_BUFFER_SIZE)]) (hn : n ≤ NET_MEM_POOL_BUFFER_SIZE)
    (hu : frag.unfragPartLength = n) (hf : frag.firstHole = 0)
    (hk : frag' = ((frag.store be 0 0).store be 2 IPV6_INFINITY).store be 4 IPV6_INFINITY) :
    Chain be frag' [] [(0, IPV6_INFINITY)] ∧ HoleList [(0, IPV6_INFINITY)] ∧
      Stacked frag'.buffer.chunk n ∧ Kin frag frag' ∧ frag'.region.length = 6 := by
  have hst0 : Stacked frag.buffer.chunk n := by
    refine ⟨_, _, _, hl, ?_⟩
    rw [hl]
    intro l hl
    simp only [List.mem_cons, List.not_mem_nil, or_false] at hl
    rcases hl with rfl | rfl
    · exact fun _ => hn
    · intro _; decide
  have hreg0 : frag.region.length = 6 := by
    have hsum : frag.buffer.bytes.length = ((layout frag.buffer.chunk).map Prod.fst).sum := by
      rw [← netBufferGetLength_eq]
      simp only [netBufferGetLength, layout, List.map_map]
      rfl
    have hsum' : ((layout frag.buffer.chunk).map Prod.fst).sum = n + 6 := by
      rw [hl]
      simp
    unfold region
    rw [List.length_drop, hsum, hsum', hu, Nat.add_sub_cancel_left]
  generalize hf1 : frag.store be 0 0 = f1 at hk
  generalize hf2 : f1.store be 2 IPV6_INFINITY = f2 at hk
  have hk1 : Kin frag f1 := hf1 ▸ kin_store be frag 0 0
  have hk2 : Kin f1 f2 := hf2 ▸ kin_store be f1 2 IPV6_INFINITY
  have hk3 : Kin f2 frag' := hk ▸ kin_store be f2 4 IPV6_INFINITY
  have hkin := (hk1.trans hk2).trans hk3
  have hl1 := hk1.length
  have hl2 := hk2.length
  have hl3 := hk3.length
  have hinf : IPV6_INFINITY < 65536 := by decide
  have hload0 : frag'.load be 0 = 0 := by
    rw [hk, load_store_other (by omega) (by omega), ← hf2,
      load_store_other (by omega) (by omega), ← hf1]
    exact load_store_same (by omega) (by omega)
  have hload2 : frag'.load be 2 = IPV6_INFINITY := by
    rw [hk, load_store_other (by omega) (by omega), ← hf2]
    exact load_store_same (by omega) hinf
  have hload4 : frag'.load be 4 = IPV6_INFINITY := by
    rw [hk]
    exact load_store_same (by omega) hinf
  have hfirst : frag'.firstHole = 0 := by
    subst hk hf2 hf1
    exact hf
  refine ⟨⟨rfl, ⟨hfirst, hload4⟩, by simp, ?_⟩, ⟨by simp, ?_, ?_, ?_⟩, hst0.congr hkin.chunks, hkin,
    by rw [hkin.length, hreg0]⟩
  · intro h hh
    obtain rfl := List.mem_singleton.mp hh
    exact ⟨⟨rfl, by rw [hkin.length, hreg0]⟩, hload0, hload2⟩
  · intro h hh
    obtain rfl := List.mem_singleton.mp hh
    decide
  · intro h hh
    obtain rfl := List.mem_singleton.mp hh
    decide
  · intro h hh
    obtain rfl := List.mem_singleton.mp hh
    exact .inr rfl

/-- The chunks of a free entry that is taken into use. -/
theorem layout_taken {b : NetBuffer} {room n : Nat} (hroom : 2 ≤ room)
    (hn : n = NET_MEM_POOL_BUFFER_SIZE + 6) (hu : frag.inUse = false)
    (hs : netBufferSetLength e { frag.buffer with maxChunkCount := room } n =
      (e', b, .NO_ERROR)) (m : Nat) : layout (setFirstChunk e' b m).chunk =
        [(m, NET_MEM_POOL_BUFFER_SIZE), (6, NET_MEM_POOL_BUFFER_SIZE)] := by
  have hnil : frag.buffer.chunk = [] := by
    unfold inUse chunkCount at hu
    simpa using hu
  have hlay : layout b.chunk = [(NET_MEM_POOL_BUFFER_SIZE, NET_MEM_POOL_BUFFER_SIZE),
      (6, NET_MEM_POOL_BUFFER_SIZE)] := by
    change netBufferSetLength e ⟨frag.buffer.chunk, room⟩ _ = _ at hs
    rw [hnil, netBufferSetLength_nil, Prod.mk.injEq, Prod.mk.injEq] at hs
    obtain ⟨-, rfl, herr⟩ := hs
    exact layout_create hroom hn (Prod.ext rfl (Prod.ext rfl herr))
  obtain ⟨c, cs, hc, hcl, hcs⟩ := List.map_eq_cons_iff.mp hlay
  have hcs : layout cs = [(6, NET_MEM_POOL_BUFFER_SIZE)] := hcs
  have hcsize : c.size = NET_MEM_POOL_BUFFER_SIZE := congrArg Prod.snd hcl
  unfold setFirstChunk
  rw [hc]
  show layout (c.resize e' m :: cs) = _
  rw [layout_cons, hcs]
  congr 1
  exact Prod.ext (length_resize e' c _) hcsize

theorem held_create {b : NetBuffer} (packet header : List UInt8) (hu : frag.inUse = false)
    (hs : netBufferSetLength e { frag.buffer with maxChunkCount := ipv6ReassemblyChunks }
      (NET_MEM_POOL_BUFFER_SIZE + sizeofIpv6HoleDesc) = (e', b, .NO_ERROR)) :
    Mapped be (ipv6CreateFrag be e' packet header frag b) [] [(0, IPV6_INFINITY)] := by
  have hlay := layout_taken (by decide) rfl hu hs sizeofIpv6Header
  have hlay0 : layout (netBufferWrite (setFirstChunk e' b sizeofIpv6Header) 0
      (packet.take sizeofIpv6Header)).chunk = _ := (layout_writeChunks _ _ _).trans hlay
  obtain ⟨hc, hholes, hst, hk, hreg⟩ := @chain_create be
    { frag with
      buffer := netBufferWrite (setFirstChunk e' b sizeofIpv6Header) 0
        (packet.take sizeofIpv6Header)
      unfragPartLength := sizeofIpv6Header
      fragPartLength := 0
      timestamp := osGetSystemTime e'
      identification := (header.drop 4).take 4
      firstHole := 0 } _ _ hlay0 (by decide) rfl rfl rfl
  have hu3 : (ipv6CreateFrag be e' packet header frag b).unfragPartLength = sizeofIpv6Header :=
    hk.unfrag
  have hp3 : (ipv6CreateFrag be e' packet header frag b).fragPartLength = 0 := hk.part
  refine ⟨hc, hholes, ?_, .inl ?_, ?_, .inr (by simp), fun _ _ f hf => (List.not_mem_nil hf).elim,
    ?_, fun f hf => (List.not_mem_nil hf).elim⟩
  · rw [hu3]
    exact hst
  · rw [hp3]
    exact hreg
  · rw [hu3, hp3]
    decide
  · intro k hk _
    exact ⟨(0, IPV6_INFINITY), by simp, Nat.zero_le _, hk⟩

/-! ## The queue -/

/-- What was received for the datagram that an entry holds. -/
def current (q : List Ipv6FragDesc) (received : Nat → List Slice) (i : Nat) : List Slice :=
  if (q.getD i {}).inUse then received i else []

def QueueHeld (be : Bool) (q : List Ipv6FragDesc) (received : Nat → List Slice) : Prop :=
  ∀ i frag, q[i]? = some frag → frag.inUse = true → ∃ hs, Mapped be frag (received i) hs

variable {q q' : List Ipv6FragDesc} {rec : Nat → List Slice}

theorem QueueHeld.current (h : QueueHeld be q rec) : QueueHeld be q (current q rec) := by
  intro i frag hi hu
  have hcur : Cyclone.current q rec i = rec i := by
    unfold Cyclone.current
    rw [List.getD_eq_getElem?_getD, hi, Option.getD_some, if_pos hu]
  rw [hcur]
  exact h i frag hi hu

theorem QueueHeld.set {i : Nat} {slices : List Slice} (h : QueueHeld be q rec)
    (hi : frag.inUse = true → ∃ hs, Mapped be frag slices hs) :
    QueueHeld be (q.set i frag) (Function.update rec i slices) := by
  intro j frag' hj hu
  rw [List.getElem?_set] at hj
  by_cases hij : i = j
  · subst hij
    rw [if_pos rfl] at hj
    split at hj
    · cases hj
      rw [Function.update_self]
      exact hi hu
    · cases hj
  · rw [if_neg hij] at hj
    rw [Function.update_of_ne (Ne.symm hij)]
    exact h j frag' hj hu

theorem getD_set_self (q : List Ipv6FragDesc) {i : Nat} (frag : Ipv6FragDesc)
    (h : i < q.length) : (q.set i frag).getD i {} = frag := by
  rw [List.getD_eq_getElem?_getD, List.getElem?_set, if_pos rfl, if_pos h]
  rfl

theorem inUse_drop (frag : Ipv6FragDesc) : frag.drop.inUse = false := rfl

/-- The queue after the search, and the entry that was found. -/
theorem search_spec {packet header : List UInt8} {r : Option Nat} (hq : QueueHeld be q rec)
    (h : ipv6SearchFragQueue be e q packet header = (e', q', r)) :
    QueueHeld be q' (current q rec) ∧ ∀ i, r = some i →
      i < q'.length ∧ ∃ hs, Mapped be (q'.getD i {}) (current q rec i) hs := by
  have hcur := hq.current
  unfold ipv6SearchFragQueue at h
  split at h
  · rename_i i hf
    cases h
    refine ⟨hcur, fun j hj => ?_⟩
    cases hj
    obtain ⟨hlt, hm, -⟩ := List.findIdx?_eq_some_iff_getElem.mp hf
    have hget : q[i]? = some q[i] := List.getElem?_eq_getElem hlt
    have hu : q[i].inUse = true := by
      unfold ipv6FragMatches at hm
      simp only [Bool.and_eq_true] at hm
      exact hm.1.1.1
    obtain ⟨hs, hheld⟩ := hcur i q[i] hget hu
    rw [List.getD_eq_getElem?_getD, hget]
    exact ⟨hlt, hs, hheld⟩
  · split at h
    · cases h
      exact ⟨hcur, nofun⟩
    · rename_i i hf
      obtain ⟨hlt, hu, -⟩ := List.findIdx?_eq_some_iff_getElem.mp hf
      have hget : q.getD i {} = q[i] := by
        rw [List.getD_eq_getElem?_getD, List.getElem?_eq_getElem hlt]
        rfl
      have hu : (q.getD i {}).inUse = false := by
        rw [hget]
        simpa using hu
      have hnil : current q rec i = [] := by
        unfold current
        rw [hu]
        rfl
      have hself : Function.update (current q rec) i [] = current q rec := by
        rw [← hnil]
        exact Function.update_eq_self i _
      simp only at h
      split at h
      · cases h
        refine ⟨?_, nofun⟩
        rw [← hself]
        exact hcur.set fun h => by cases h
      · rename_i herr
        rw [not_not] at herr
        cases h
        have hheld := @held_create be _ _ _ _ packet header hu (Prod.ext rfl (Prod.ext rfl herr))
        refine ⟨?_, fun j hj => ?_⟩
        · rw [← hself]
          exact hcur.set fun _ => ⟨_, hheld⟩
        · cases hj
          rw [hnil, getD_set_self q _ hlt]
          exact ⟨by rw [List.length_set]; exact hlt, _, hheld⟩

/-! ## Runs -/

/-- The reassembly queue of an interface, with what was received for every slot. -/
structure Reassembly where
  env : Env
  queue : List Ipv6FragDesc
  received : Nat → List Slice

namespace Reassembly

variable (be) (s : Reassembly) (pkt : Ipv6Fragment)

/-- The entry a fragment is for. -/
def slot : Option Nat :=
  if pkt.valid then (ipv6SearchFragQueue be s.env s.queue pkt.ipHeader pkt.fragHeader).2.2
  else none

/-- What was received since the entry was created. -/
def before (i : Nat) : List Slice := current s.queue s.received i

/-- The same with the fragment. -/
def after : Nat → List Slice :=
  (s.slot be pkt).elim s.before fun i => Function.update s.before i (s.before i ++ [pkt.slice])

end Reassembly

/-- What happens to the queue, in any order: a delivery may return after other fragments. -/
inductive FragEvent where
  | fragment (pkt : Ipv6Fragment)
  | release (i : Nat)
  | tick (time : Word)
  | flush

def Reassembly.step (be : Bool) (s : Reassembly) : FragEvent → Reassembly
  | .fragment pkt =>
    match ipv6ParseFragmentHeader be s.env s.queue pkt with
    | none => s
    | some (env, queue, _) => { env, queue, received := s.after be pkt }
  | .release i => { s with queue := ipv6ReleaseFrag s.queue i }
  | .tick time => { s with queue := ipv6FragTick time s.queue }
  | .flush => { s with queue := ipv6FlushFragQueue s.queue }

/-- The queue at startup. -/
def Reassembly.start (env : Env) : Reassembly :=
  ⟨env, List.replicate IPV6_MAX_FRAG_DATAGRAMS {}, fun _ => []⟩

/-- The condition on a fragment: its end does not wrap, and one that overlaps a different one
received before also has a byte that is missing. -/
structure Reassembly.Fresh (be : Bool) (s : Reassembly) (pkt : Ipv6Fragment) : Prop where
  placed : pkt.WellPlaced
  last : pkt.dataFirst + pkt.length ≤ IPV6_INFINITY
  missing : ∀ i, s.slot be pkt = some i →
    (∃ f ∈ s.before i, f.Overlaps pkt.slice ∧ ¬f.Same pkt.slice) →
    ∃ k, pkt.slice.Covers k ∧ Missing (s.before i) k

def FragEvent.Ok (be : Bool) (s : Reassembly) : FragEvent → Prop
  | .fragment pkt => s.Fresh be pkt
  | _ => True

variable {s : Reassembly}

/-- One fragment. -/
theorem parse_spec (hq : QueueHeld be s.queue s.received) (hf : s.Fresh be pkt) :
    ∃ e q d, ipv6ParseFragmentHeader be s.env s.queue pkt = some (e, q, d) ∧
      QueueHeld be q (s.after be pkt) ∧
      (∀ i, d = some i →
        ∀ f ∈ s.after be pkt i, ∀ g ∈ s.after be pkt i, f.Overlaps g → f.Same g) ∧
      ∀ i, s.slot be pkt = some i →
        (∃ f ∈ s.before i, f.Overlaps pkt.slice ∧ ¬f.Same pkt.slice) →
        (q.getD i {}).inUse = false := by
  obtain ⟨hplaced, hlast, hmissing⟩ := hf
  unfold ipv6ParseFragmentHeader
  by_cases hv : pkt.valid
  case neg =>
    have hslot : s.slot be pkt = none := by
      unfold Reassembly.slot
      rw [if_neg hv]
    have hafter : s.after be pkt = s.before := by
      unfold Reassembly.after
      rw [hslot]
      rfl
    rw [if_pos (by simpa using hv), hafter, hslot]
    exact ⟨_, _, _, rfl, hq.current, nofun, nofun⟩
  rw [if_neg (by simpa using hv)]
  generalize hsearch : ipv6SearchFragQueue be s.env s.queue pkt.ipHeader pkt.fragHeader = r
  obtain ⟨e, q, r⟩ := r
  obtain ⟨hheld, hfound⟩ := search_spec hq hsearch
  have hslot : s.slot be pkt = r := by
    unfold Reassembly.slot
    rw [if_pos hv, hsearch]
  have hafter : s.after be pkt =
      r.elim s.before fun i => Function.update s.before i (s.before i ++ [pkt.slice]) := by
    unfold Reassembly.after
    rw [hslot]
  rw [hslot] at hmissing ⊢
  rw [hafter]
  cases r with
  | none => exact ⟨_, _, _, rfl, hheld, nofun, nofun⟩
  | some i =>
    obtain ⟨hlt, hs, hent⟩ := hfound i rfl
    simp only [Option.elim_some]
    have hdrop : ∀ (e : Env) (frag : Ipv6FragDesc), ∃ e' q' d,
        some (e, q.set i frag.drop, none) = some (e', q', d) ∧
        QueueHeld be q' (Function.update s.before i (s.before i ++ [pkt.slice])) ∧
        (∀ j, d = some j → ∀ f ∈ Function.update s.before i (s.before i ++ [pkt.slice]) j,
          ∀ g ∈ Function.update s.before i (s.before i ++ [pkt.slice]) j,
            f.Overlaps g → f.Same g) ∧
        ∀ j, some i = some j → (∃ f ∈ s.before j, f.Overlaps pkt.slice ∧ ¬f.Same pkt.slice) →
          (q'.getD j {}).inUse = false := by
      intro e frag
      refine ⟨_, _, _, rfl, hheld.set (fun h => by cases h), nofun, ?_⟩
      rintro j hj -
      cases hj
      rw [getD_set_self q _ hlt, inUse_drop]
    have hvalid : pkt.moreFlag = true → pkt.length % 8 = 0 := by
      intro hm
      unfold Ipv6Fragment.valid at hv
      simp only [hm, Bool.true_and, Bool.and_eq_true] at hv
      simpa using hv.2
    have hfirst : ∀ frag, (if pkt.dataFirst = 0 then ipv6FirstFragment e pkt (q.getD i {})
        else some (q.getD i {})) = some frag → Mapped be frag (s.before i) hs := by
      intro frag hf
      split at hf
      · exact (hent.first hplaced hf).1
      · cases hf
        exact hent
    split
    · exact hdrop e _
    · rename_i frag hf
      have h1 := hfirst frag hf
      split
      · rename_i e1 hg
        exact hdrop e1 _
      · rename_i e1 frag1 hg
        obtain ⟨h2, hpart⟩ := h1.grow hg
        rcases h2.fill hvalid hlast hpart (hmissing i rfl) h2.length_lt with
          hloop | ⟨hclean, frag2, hs2, hloop, h3⟩
        · rw [hloop]
          exact hdrop e1 _
        · rw [hloop]
          simp only
          have hno : ¬∃ f ∈ s.before i, f.Overlaps pkt.slice ∧ ¬f.Same pkt.slice := by
            rintro ⟨f, hfm, ho, hsame⟩
            exact hsame (hclean f hfm ho)
          split
          · refine ⟨_, _, _, rfl, hheld.set fun _ => ⟨hs2, h3⟩, nofun, ?_⟩
            rintro j hj hbad
            cases hj
            exact absurd hbad hno
          · rename_i hhole
            obtain rfl := h3.no_hole hhole
            split
            · rename_i e2 hcomp
              exact hdrop e2 _
            · rename_i e2 frag3 hcomp
              refine ⟨_, _, _, rfl, hheld.set fun _ => ⟨[], h3.complete hcomp⟩, ?_, ?_⟩
              · intro j hj
                cases hj
                rw [Function.update_self]
                exact h3.clean
              · rintro j hj hbad
                cases hj
                exact absurd hbad hno

theorem queueHeld_map (h : QueueHeld be q rec) {f : Ipv6FragDesc → Ipv6FragDesc}
    (hf : ∀ frag, f frag = frag ∨ (f frag).inUse = false) : QueueHeld be (q.map f) rec := by
  intro i frag hi hu
  rw [List.getElem?_map] at hi
  obtain ⟨frag', hi', rfl⟩ := Option.map_eq_some_iff.mp hi
  rcases hf frag' with he | he
  · rw [he] at hu ⊢
    exact h i frag' hi' hu
  · rw [he] at hu
    cases hu

theorem queueHeld_step {ev : FragEvent} (hq : QueueHeld be s.queue s.received)
    (hok : ev.Ok be s) : QueueHeld be (s.step be ev).queue (s.step be ev).received := by
  cases ev with
  | fragment pkt =>
    obtain ⟨e, q, d, hparse, hheld, -⟩ := parse_spec hq hok
    unfold Reassembly.step
    simp only [hparse]
    exact hheld
  | release i =>
    intro j frag hj hu
    change (s.queue.modify i Ipv6FragDesc.drop)[j]? = some frag at hj
    rw [List.getElem?_modify] at hj
    obtain ⟨frag', hj', rfl⟩ := Option.map_eq_some_iff.mp hj
    split at hu
    · cases hu
    · rename_i hij
      rw [if_neg hij]
      exact hq j frag' hj' hu
  | tick time =>
    refine queueHeld_map hq fun frag => ?_
    split
    · exact .inr rfl
    · exact .inl rfl
  | flush => exact queueHeld_map hq fun frag => .inr rfl

theorem queueHeld_start (env : Env) :
    QueueHeld be (Reassembly.start env).queue (Reassembly.start env).received := by
  intro i frag hi hu
  have hrep := List.eq_of_mem_replicate (List.mem_of_getElem? hi)
  subst hrep
  cases hu

/-- A packet with a fragment header behind an IPv6 header. -/
def fragmentPacket (offset : Nat) (data : List UInt8) : Ipv6Fragment :=
  { ipPacket := ⟨[⟨List.replicate 40 0 ++ [17, 0] ++ be16 offset ++ [0, 0, 0, 1] ++ data, 0⟩], 1⟩
    ipPacketOffset := 0
    fragHeaderOffset := 40
    nextHeaderOffset := 6 }

/-- The queue after a fragment of 16 bytes and one of 8 bytes inside it. -/
def insideReceived : Reassembly :=
  ((Reassembly.start Env.granting).step false
    (.fragment (fragmentPacket 1 (List.replicate 16 1)))).step false
    (.fragment (fragmentPacket 1 (List.replicate 8 2)))

end Cyclone
