import Cyclone.TcpMisc

/-!
# Cyclone.Blocks

The blocks of data received out of order, by their distances from `RCV.NXT`.

* `RcvBlocks`: non-empty blocks inside the receive window, neither overlapping nor adjacent.
* `merge_blocks`: `tcpUpdateSackBlocks` keeps them so, although `MIN` and `MAX` go wrong where the
  sequence numbers wrap.
* `receiveData_blocks`: the window and the blocks after a segment.
-/

namespace Cyclone

open Serial

variable {n l r : Word} {W : Nat} {b b' : TcpSackBlock} {bs : List TcpSackBlock}

/-- The block is not empty and lies in the window of size `W` behind `n`. -/
structure BlockIn (n : Word) (W : Nat) (b : TcpSackBlock) : Prop where
  left : 0 < dist n b.leftEdge
  edges : dist n b.leftEdge < dist n b.rightEdge
  right : dist n b.rightEdge ≤ W

/-- There is a gap between the blocks. -/
def ApartBlocks (n : Word) (b b' : TcpSackBlock) : Prop :=
  dist n b.rightEdge < dist n b'.leftEdge ∨ dist n b'.rightEdge < dist n b.leftEdge

theorem ApartBlocks.symm (h : ApartBlocks n b b') : ApartBlocks n b' b := Or.symm h

structure RcvBlocks (n : Word) (W : Nat) (bs : List TcpSackBlock) : Prop where
  inside : ∀ b ∈ bs, BlockIn n W b
  apart : bs.Pairwise (ApartBlocks n)

theorem RcvBlocks.nil : RcvBlocks n W [] := ⟨nofun, .nil⟩

theorem RcvBlocks.sublist {bs' : List TcpSackBlock} (h : RcvBlocks n W bs) (hs : bs'.Sublist bs) :
    RcvBlocks n W bs' :=
  ⟨fun b hb => h.inside b (hs.subset hb), h.apart.sublist hs⟩

theorem RcvBlocks.tail (h : RcvBlocks n W (b :: bs)) : RcvBlocks n W bs :=
  h.sublist (List.sublist_cons_self b bs)

/-! ## Edges as numbers -/

/-- The unsigned value of an edge. -/
theorem toNat_dist (n x : Word) : x.toNat = (n.toNat + dist n x) % 2 ^ 32 := by
  simp only [Serial.dist]
  bv_omega

/-- `TCP_CMP_SEQ` of two numbers in the window. -/
theorem cmpSeq_dist {x y : Word} (hW : W < 65536) (hx : dist n x ≤ W) (hy : dist n y ≤ W) :
    cmpSeq x y = (dist n x : Int) - dist n y :=
  cmp_eq (b := n) (by omega) (by omega)

/-- The test of `tcpUpdateSackBlocks`: the range and the block overlap or are adjacent. -/
def Touches (n l r : Word) (b : TcpSackBlock) : Prop :=
  dist n b.leftEdge ≤ dist n r ∧ dist n l ≤ dist n b.rightEdge

theorem touches_iff (hW : W < 65536) (hb : BlockIn n W b) (hl : dist n l < dist n r)
    (hr : dist n r ≤ W) :
    cmpSeq r b.leftEdge ≥ 0 ∧ cmpSeq l b.rightEdge ≤ 0 ↔ Touches n l r b := by
  have h1 := hb.edges
  have h2 := hb.right
  rw [cmpSeq_dist hW hr (by omega : dist n b.leftEdge ≤ W),
    cmpSeq_dist hW (by omega : dist n l ≤ W) hb.right]
  unfold Touches
  omega

theorem minWord_cases (a b : Word) :
    minWord a b = a ∧ a.toNat < b.toNat ∨ minWord a b = b ∧ b.toNat ≤ a.toNat := by
  unfold minWord
  split
  · rename_i h
    exact .inl ⟨rfl, BitVec.lt_def.mp h⟩
  · rename_i h
    exact .inr ⟨rfl, Nat.le_of_not_lt fun hlt => h (BitVec.lt_def.mpr hlt)⟩

theorem maxWord_cases (a b : Word) :
    maxWord a b = a ∧ b.toNat < a.toNat ∨ maxWord a b = b ∧ a.toNat ≤ b.toNat := by
  unfold maxWord
  split
  · rename_i h
    exact .inl ⟨rfl, BitVec.lt_def.mp h⟩
  · rename_i h
    exact .inr ⟨rfl, Nat.le_of_not_lt fun hlt => h (BitVec.lt_def.mpr hlt)⟩

/-- The merged range is not empty and lies inside the two. -/
theorem merged_range (hW : W < 65536) (hb : BlockIn n W b) (hl : dist n l < dist n r)
    (hr : dist n r ≤ W) (ht : Touches n l r b) :
    dist n (minWord l b.leftEdge) < dist n (maxWord r b.rightEdge) ∧
      dist n (maxWord r b.rightEdge) ≤ W ∧
      (minWord l b.leftEdge = l ∨ minWord l b.leftEdge = b.leftEdge) ∧
      (maxWord r b.rightEdge = r ∨ maxWord r b.rightEdge = b.rightEdge) := by
  obtain ⟨h1, h2⟩ := ht
  have h3 := hb.edges
  have h4 := hb.right
  have hn := n.isLt
  have e1 := toNat_dist n l
  have e2 := toNat_dist n r
  have e3 := toNat_dist n b.leftEdge
  have e4 := toNat_dist n b.rightEdge
  obtain ⟨hmin, hlt⟩ | ⟨hmin, hle⟩ := minWord_cases l b.leftEdge <;>
  obtain ⟨hmax, hlt'⟩ | ⟨hmax, hle'⟩ := maxWord_cases r b.rightEdge <;>
    rw [hmin, hmax]
  · exact ⟨hl, hr, .inl rfl, .inl rfl⟩
  · exact ⟨by omega, h4, .inl rfl, .inr rfl⟩
  · exact ⟨by omega, hr, .inr rfl, .inl rfl⟩
  · exact ⟨h3, h4, .inr rfl, .inr rfl⟩

/-- What is apart from two ranges that touch is apart from the merged one. -/
theorem ApartBlocks.merged {d : TcpSackBlock} (hd : dist n d.leftEdge < dist n d.rightEdge)
    (ht : Touches n l r b) (h1 : ApartBlocks n ⟨l, r⟩ d) (h2 : ApartBlocks n b d)
    (hmin : minWord l b.leftEdge = l ∨ minWord l b.leftEdge = b.leftEdge)
    (hmax : maxWord r b.rightEdge = r ∨ maxWord r b.rightEdge = b.rightEdge) :
    ApartBlocks n ⟨minWord l b.leftEdge, maxWord r b.rightEdge⟩ d := by
  obtain ⟨h3, h4⟩ := ht
  unfold ApartBlocks at *
  simp only at *
  rcases hmin with hmin | hmin <;> rcases hmax with hmax | hmax <;> rw [hmin, hmax] <;> omega

/-! ## Merging -/

/-- The outcome of the loop: blocks that were there, apart from the merged range. -/
structure Merged (n : Word) (W : Nat) (bs : List TcpSackBlock) (l : Word)
    (m : List TcpSackBlock × Word × Word) : Prop where
  sublist : m.1.Sublist bs
  edges : dist n m.2.1 < dist n m.2.2
  right : dist n m.2.2 ≤ W
  apart : ∀ b ∈ m.1, ApartBlocks n ⟨m.2.1, m.2.2⟩ b
  left : m.2.1 = l ∨ ∃ b ∈ bs, m.2.1 = b.leftEdge

/-- Induction on the blocks. A block that was passed over, `d`, stays apart from the range. -/
theorem merge_blocks (hW : W < 65536) : ∀ (bs : List TcpSackBlock) (l r : Word),
    RcvBlocks n W bs → dist n l < dist n r → dist n r ≤ W →
    Merged n W bs l (mergeSackBlocks bs l r) ∧
      ∀ d : TcpSackBlock, dist n d.leftEdge < dist n d.rightEdge → ApartBlocks n ⟨l, r⟩ d →
        (∀ b ∈ bs, ApartBlocks n b d) →
        ApartBlocks n ⟨(mergeSackBlocks bs l r).2.1, (mergeSackBlocks bs l r).2.2⟩ d := by
  intro bs
  induction bs with
  | nil =>
    intro l r _ hl hr
    exact ⟨⟨.slnil, hl, hr, nofun, .inl rfl⟩, fun d _ hd _ => hd⟩
  | cons b bs ih =>
    intro l r h hl hr
    have hb := h.inside b List.mem_cons_self
    have hpair := List.pairwise_cons.mp h.apart
    by_cases ht : Touches n l r b
    · have htest := (touches_iff hW hb hl hr).mpr ht
      obtain ⟨h1, h2, hmin, hmax⟩ := merged_range hW hb hl hr ht
      obtain ⟨hm, hkeep⟩ := ih (minWord l b.leftEdge) (maxWord r b.rightEdge) h.tail h1 h2
      rw [mergeSackBlocks, if_pos htest]
      refine ⟨⟨hm.sublist.cons b, hm.edges, hm.right, hm.apart, ?_⟩, fun d hd hlr hall => ?_⟩
      · rcases hm.left with hleft | ⟨b', hb', hleft⟩
        · rcases hmin with hmin | hmin
          · exact .inl (hleft.trans hmin)
          · exact .inr ⟨b, List.mem_cons_self, hleft.trans hmin⟩
        · exact .inr ⟨b', List.mem_cons_of_mem b hb', hleft⟩
      · refine hkeep d hd ?_ fun b' hb' => hall b' (List.mem_cons_of_mem b hb')
        exact .merged hd ht hlr (hall b List.mem_cons_self) hmin hmax
    · have htest := fun hc => ht ((touches_iff hW hb hl hr).mp hc)
      obtain ⟨hm, hkeep⟩ := ih l r h.tail hl hr
      have hb' : ApartBlocks n ⟨l, r⟩ b := by
        unfold Touches at ht
        unfold ApartBlocks
        simp only
        omega
      rw [mergeSackBlocks, if_neg htest]
      refine ⟨⟨hm.sublist.cons_cons b, hm.edges, hm.right, ?_, ?_⟩, fun d hd hlr hall => ?_⟩
      · intro d hd
        rcases List.mem_cons.mp hd with rfl | hd
        · exact hkeep d hb.edges hb' fun b'' hb'' => (hpair.1 b'' hb'').symm
        · exact hm.apart d hd
      · rcases hm.left with hleft | ⟨b'', hb'', hleft⟩
        · exact .inl hleft
        · exact .inr ⟨b'', List.mem_cons_of_mem b hb'', hleft⟩
      · exact hkeep d hd hlr fun b'' hb'' => hall b'' (List.mem_cons_of_mem b hb'')

/-! ## The segment -/

/-- A number in the receive window. -/
theorem dist_inWindow {x : Word} (hW : W < 65536)
    (h : (cmpSeq x n ≥ 0 && cmpSeq x (n + w32 W) < 0) = true) : dist n x < W := by
  simp only [Bool.and_eq_true, decide_eq_true_eq] at h
  obtain ⟨h1, h2⟩ := h
  have h3 := cmp_nonneg_iff.mp h1
  have h4 : dist n (n + w32 W) = W := dist_base_add (by omega)
  have h5 := cmp_eq (b := n) (s := x) (t := n + w32 W) (by omega) (by omega)
  rw [h4] at h5
  change cmpSeq x (n + w32 W) = _ at h5
  omega

/-- An acceptable segment with text, trimmed: at least one byte, inside the window. -/
theorem trimSegment_in {s : SockCore} {segment : TcpHeader} {offset length : Nat}
    (hW : s.rcvWnd < 65536) (hlen : length < 65536) (h0 : 0 < length)
    (ha : seqAcceptable s segment length = true) :
    dist s.rcvNxt (trimSegment s segment.seqNum offset length).1 <
        dist s.rcvNxt (trimSegment s segment.seqNum offset length).2.1 ∧
      dist s.rcvNxt (trimSegment s segment.seqNum offset length).2.1 ≤ s.rcvWnd := by
  generalize hn : s.rcvNxt = n at *
  generalize hw : s.rcvWnd = W at *
  generalize hq : segment.seqNum = q
  have hend : dist n (n + w32 W) = W := dist_base_add (by omega)
  -- the text starts in the window, or before it and ends in it
  have hcase : cmpSeq q n ≥ 0 ∧ dist n q < W ∨
      cmpSeq q n < 0 ∧ 0 < dist n (q + w32 length) ∧ dist n (q + w32 length) ≤ W := by
    unfold seqAcceptable at ha
    simp only [hn, hw, hq] at ha
    rw [if_neg (by omega), if_neg (by omega)] at ha
    split at ha
    · cases ha
    rcases Bool.or_eq_true_iff.mp ha with hin | hin
    · have h1 := dist_inWindow hW hin
      simp only [Bool.and_eq_true, decide_eq_true_eq] at hin
      exact .inl ⟨hin.1, h1⟩
    · have h1 := dist_inWindow hW hin
      by_cases hc : cmpSeq q n ≥ 0
      · have h2 := cmp_nonneg_iff.mp hc
        refine .inl ⟨hc, ?_⟩
        simp only [Serial.dist, w32] at *
        bv_omega
      · refine .inr ⟨by omega, ?_⟩
        simp only [Serial.dist, w32] at *
        constructor <;> bv_omega
  unfold trimSegment
  simp only [hn, hw]
  obtain ⟨hc, hin⟩ | ⟨hc, hpos, hle⟩ := hcase
  · rw [if_neg (by omega)]
    have hr : dist n (q + w32 length) = dist n q + length := dist_add_ofNat (by omega)
    have hcmp := cmp_eq (b := n) (s := q + w32 length) (t := n + w32 W) (by omega) (by omega)
    rw [hr, hend] at hcmp
    change cmpSeq (q + w32 length) (n + w32 W) = _ at hcmp
    simp only
    split
    · rw [hend]
      omega
    · rw [hr]
      omega
  · rw [if_pos hc]
    have hcmp := cmp_eq (b := n) (s := q + w32 length) (t := n + w32 W) (by omega) (by omega)
    rw [hend] at hcmp
    change cmpSeq (q + w32 length) (n + w32 W) = _ at hcmp
    simp only [dist_self]
    split
    · rw [hend]
      omega
    · exact ⟨hpos, hle⟩

/-- The blocks and the range after the loop of `tcpUpdateSackBlocks` on the trimmed segment. -/
def mergeSegment (s : SockCore) (segment : TcpHeader) (offset length : Nat) :
    List TcpSackBlock × Word × Word :=
  mergeSackBlocks s.sackBlock (trimSegment s segment.seqNum offset length).1
    (trimSegment s segment.seqNum offset length).2.1

/-- The receive variables after a segment. -/
theorem receiveData_rcv (s : SockCore) (segment : TcpHeader) (b : NetBuffer) (offset length : Nat) :
    (receiveData s segment b offset length).1.toRcvVars =
      if cmpSeq (mergeSegment s segment offset length).2.1 s.rcvNxt > 0 then
        { s.toRcvVars with sackBlock := ⟨(mergeSegment s segment offset length).2.1,
            (mergeSegment s segment offset length).2.2⟩ ::
              (mergeSegment s segment offset length).1.take (TCP_MAX_SACK_BLOCKS - 1) }
      else
        let n := (mergeSegment s segment offset length).2.2 -
          (mergeSegment s segment offset length).2.1
        { s.toRcvVars with
          sackBlock := (mergeSegment s segment offset length).1
          rcvNxt := s.rcvNxt + n
          rcvUser := u16 (s.rcvUser + n.toNat)
          rcvWnd := u16Sub s.rcvWnd n.toNat } := by
  have hw : ∀ seqNum offset n, ∃ rx, tcpWriteRxBuffer s seqNum b offset n = { s with rxBuffer := rx } := by
    intro seqNum offset n
    unfold tcpWriteRxBuffer
    simp only
    split <;> exact ⟨_, rfl⟩
  unfold receiveData mergeSegment
  generalize trimSegment s segment.seqNum offset length = t
  obtain ⟨l, r, offset⟩ := t
  obtain ⟨rx, hrx⟩ := hw l offset (r - l).toNat
  simp only [hrx, tcpUpdateSackBlocks]
  generalize mergeSackBlocks s.sackBlock l r = m
  obtain ⟨bs, l', r'⟩ := m
  simp only
  split
  · rfl
  · rfl

end Cyclone
